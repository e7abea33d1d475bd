import CanBus.Session.Reader

/-!
Programs run from a given kernel and state: one equation for each way to build a program, and
`Keeps` and `Steady`, the frame rules for programs that leave part of the kernel alone.
-/

namespace CanBus

variable {α β ε : Type}

/-! ## Over the kernel -/

namespace System

variable (k : Kernel)

theorem run_bind (m : System α) (f : α → System β) :
    (m >>= f).run k = (f (m.run k).1).run (m.run k).2 := rfl

theorem run_get : (get : System Kernel).run k = (k, k) := rfl

end System

/-! ## With failures -/

namespace Fallible

variable (k k' : Kernel)

theorem run_lift (m : System α) :
    (liftM m : ExceptT ε System α).run.run k = (.ok (m.run k).1, (m.run k).2) := rfl

theorem run_get : (get : ExceptT ε System Kernel).run.run k = (.ok k, k) := rfl

theorem run_set : (set k' : ExceptT ε System Unit).run.run k = (.ok (), k') := rfl

theorem run_bind (m : ExceptT ε System α) (f : α → ExceptT ε System β) :
    (m >>= f).run.run k =
      match m.run.run k with
      | (.ok a, k') => (f a).run.run k'
      | (.error e, k') => (.error e, k') := by
  simp only [ExceptT.run_bind, System.run_bind]
  rcases m.run.run k with ⟨_ | _, k'⟩ <;> rfl

theorem bind_ok {m : ExceptT ε System α} {f : α → ExceptT ε System β} {k k' : Kernel}
    {b : β} (h : (m >>= f).run.run k = (.ok b, k')) :
    ∃ a k₁, m.run.run k = (.ok a, k₁) ∧ (f a).run.run k₁ = (.ok b, k') := by
  rw [run_bind] at h
  rcases hm : m.run.run k with ⟨e | a, k₁⟩
  · rw [hm] at h
    cases h
  · rw [hm] at h
    exact ⟨a, k₁, rfl, h⟩

theorem of_lift {m : System α} {a : α} {k k' : Kernel}
    (h : (liftM m : ExceptT ε System α).run.run k = (.ok a, k')) : m.run k = (a, k') := by
  rw [run_lift] at h
  obtain ⟨ha, hk⟩ := Prod.mk.inj h
  exact Prod.ext (Except.ok.inj ha) hk

end Fallible

/-! ## Over a state of its own -/

namespace Stateful

variable {σ : Type} (s s' : σ) (k : Kernel)

theorem run_pure (a : α) : ((pure a : StateT σ System α).run s).run k = ((a, s), k) := rfl

theorem run_bind (m : StateT σ System α) (f : α → StateT σ System β) :
    ((m >>= f).run s).run k =
      ((f ((m.run s).run k).1.1).run ((m.run s).run k).1.2).run ((m.run s).run k).2 := rfl

theorem run_get : ((get : StateT σ System σ).run s).run k = ((s, s), k) := rfl

theorem run_set : ((set s' : StateT σ System Unit).run s).run k = (((), s'), k) := rfl

theorem run_modify (f : σ → σ) :
    ((modify f : StateT σ System Unit).run s).run k = (((), f s), k) := rfl

theorem run_lift (m : System α) :
    ((liftM m : StateT σ System α).run s).run k = (((m.run k).1, s), (m.run k).2) := rfl

end Stateful

/-! ## Frames -/

/-- A relation that holds over a sequence of steps if it holds over each of them. -/
class Chained (R : Kernel → Kernel → Prop) : Prop where
  refl : ∀ k, R k k
  trans : ∀ {a b c}, R a b → R b c → R a c

/-- Wherever the program starts, it leaves the kernel related to what it was. -/
def Keeps (R : Kernel → Kernel → Prop) (m : System α) : Prop := ∀ k, R k (m.run k).2

namespace Keeps

variable {R : Kernel → Kernel → Prop} [Chained R]

theorem pure (a : α) : Keeps R (Pure.pure a : System α) := fun k => Chained.refl k

theorem bind {m : System α} {f : α → System β} (hm : Keeps R m) (hf : ∀ a, Keeps R (f a)) :
    Keeps R (m >>= f) := by
  intro k
  rw [System.run_bind]
  exact Chained.trans (hm k) (hf _ _)

theorem pure_run (a : α) : Keeps R (Pure.pure a : ExceptT ε System α).run :=
  fun k => Chained.refl k

theorem throw_run (e : ε) : Keeps R (throw e : ExceptT ε System α).run := fun k => Chained.refl k

omit [Chained R] in
theorem lift_run {m : System α} (hm : Keeps R m) :
    Keeps R (liftM m : ExceptT ε System α).run := by
  intro k
  rw [Fallible.run_lift]
  exact hm k

theorem get : Keeps R (MonadState.get : System Kernel) := fun k => Chained.refl k

theorem get_run : Keeps R (MonadState.get : ExceptT ε System Kernel).run := fun k => Chained.refl k

theorem bind_run {m : ExceptT ε System α} {f : α → ExceptT ε System β} (hm : Keeps R m.run)
    (hf : ∀ a, Keeps R (f a).run) : Keeps R (m >>= f).run := by
  intro k
  have hk := hm k
  rw [Fallible.run_bind]
  rcases h : m.run.run k with ⟨a | a, k'⟩
  · rw [h] at hk
    exact hk
  · rw [h] at hk
    exact Chained.trans hk (hf _ _)

theorem tryCatch_run {m : ExceptT ε System α} {f : ε → ExceptT ε System α}
    (hm : Keeps R m.run) (hf : ∀ e, Keeps R (f e).run) : Keeps R (tryCatch m f).run := by
  intro k
  have hk := hm k
  rw [ExceptT.run_tryCatch, System.run_bind]
  rcases h : m.run.run k with ⟨e | a, k'⟩
  · rw [h] at hk
    exact Chained.trans hk (hf _ _)
  · rw [h] at hk
    exact hk

end Keeps

/-- As `Keeps`, from whatever state of its own the program starts. -/
def Steady {σ : Type} (R : Kernel → Kernel → Prop) (m : StateT σ System α) : Prop :=
  ∀ s, Keeps R (m.run s)

namespace Steady

variable {σ : Type} {R : Kernel → Kernel → Prop} [Chained R]

theorem pure (a : α) : Steady R (Pure.pure a : StateT σ System α) := fun _ k => Chained.refl k

theorem get : Steady R (get : StateT σ System σ) := fun _ k => Chained.refl k

theorem set (s : σ) : Steady R (set s : StateT σ System Unit) :=
  fun _ k => Chained.refl k

theorem modify (f : σ → σ) : Steady R (modify f : StateT σ System Unit) :=
  fun _ k => Chained.refl k

omit [Chained R] in
theorem lift {m : System α} (hm : Keeps R m) : Steady R (liftM m : StateT σ System α) := by
  intro s k
  rw [Stateful.run_lift]
  exact hm k

theorem bind {m : StateT σ System α} {f : α → StateT σ System β} (hm : Steady R m)
    (hf : ∀ a, Steady R (f a)) : Steady R (m >>= f) := by
  intro s k
  rw [Stateful.run_bind]
  exact Chained.trans (hm s k) (hf _ _ _)

end Steady

end CanBus
