import CanBus.Proofs.Session.Reader

/-!
A socket among others. `Kernel.beside` keeps one socket and puts other ones in place of all the
rest; a program is `Confined` to the socket if this makes no difference to it, and if it leaves
those others as they are. Readers are confined to the socket that they hold
(`Reader.confined_step`).
-/

namespace CanBus

open Kernel

/-- The socket `h` of this kernel, and for the rest the sockets of another one. -/
def Kernel.beside (k : Kernel) (h : Handle) (other : Kernel) : Kernel :=
  { k with
    inbox := override other.inbox h (k.inbox h)
    accepts := override other.accepts h (k.accepts h) }

/-- The program neither sees nor touches another socket than `h`. -/
def Confined {α : Type} (h : Handle) (m : System α) : Prop :=
  ∀ k other, m.run (k.beside h other) = ((m.run k).1, (m.run k).2.beside h other)

namespace Confined

variable {α β ε σ : Type} {h : Handle}

theorem pure (a : α) : Confined h (Pure.pure a : System α) := fun _ _ => rfl

theorem bind {m : System α} {f : α → System β} (hm : Confined h m)
    (hf : ∀ a, Confined h (f a)) :
    Confined h (m >>= f) := by
  intro k other
  rw [System.run_bind, System.run_bind, hm k other]
  exact hf _ _ _

theorem pure_run (a : α) : Confined h (Pure.pure a : ExceptT ε System α).run := fun _ _ => rfl

theorem throw_run (e : ε) : Confined h (throw e : ExceptT ε System α).run := fun _ _ => rfl

theorem lift_run {m : System α} (hm : Confined h m) :
    Confined h (liftM m : ExceptT ε System α).run := by
  intro k other
  rw [Fallible.run_lift, Fallible.run_lift, hm k other]

theorem bind_run {m : ExceptT ε System α} {f : α → ExceptT ε System β}
    (hm : Confined h m.run) (hf : ∀ a, Confined h (f a).run) : Confined h (m >>= f).run := by
  intro k other
  rw [Fallible.run_bind, Fallible.run_bind, hm k other]
  rcases m.run.run k with ⟨e | a, k₁⟩
  · rfl
  · exact hf a k₁ other

theorem lift_state {m : System α} (hm : Confined h m) (s : σ) :
    Confined h ((liftM m : StateT σ System α).run s) := by
  intro k other
  rw [Stateful.run_lift, Stateful.run_lift, hm k other]

theorem bind_state {m : StateT σ System α} {f : α → StateT σ System β}
    (hm : ∀ s, Confined h (m.run s)) (hf : ∀ a s, Confined h ((f a).run s)) (s : σ) :
    Confined h ((m >>= f).run s) := by
  intro k other
  rw [Stateful.run_bind, Stateful.run_bind, hm s k other]
  exact hf _ _ _ _

end Confined

/-! ## Calls -/

namespace Kernel

variable (h : Handle)

theorem confined_outcome (v : Service) : Confined h (outcome v) := by
  intro k other
  rw [outcome_run, outcome_run]
  rfl

theorem confined_perform (c : Call) : Confined h (perform c) := by
  unfold perform
  refine Confined.bind (fun _ _ => rfl) fun _ => ?_
  cases c.service? with
  | none => exact Confined.pure 0
  | some v => exact confined_outcome h v

theorem confined_knownCall (c : Call) : Confined h (knownCall c).run := by
  refine Confined.bind_run (.lift_run (confined_perform h c)) fun n => ?_
  split
  · exact Confined.throw_run _
  · exact Confined.pure_run _

theorem override_override {α β : Type} [DecidableEq α] (f : α → β) (a : α) (b b' : β) :
    override (override f a b) a b' = override f a b' := by
  funext x
  by_cases hx : x = a <;> simp [override, hx]

theorem withInbox_beside (k other : Kernel) (ds : List Datagram) :
    (k.beside h other).withInbox h ds = (k.withInbox h ds).beside h other := by
  simp only [beside, withInbox, override_override, override_self]

theorem inbox_beside (k other : Kernel) : (k.beside h other).inbox h = k.inbox h :=
  override_self _ _ _

theorem accepts_beside (k other : Kernel) : (k.beside h other).accepts h = k.accepts h :=
  override_self _ _ _

theorem confined_receive : Confined h (receive h).run := by
  intro k other
  have hcalled : (k.beside h other).called .receive .receive =
      (k.called .receive .receive).beside h other := rfl
  have hnext : (k.beside h other).nextOutcome .receive = k.nextOutcome .receive := rfl
  rw [receive_run, receive_run, inbox_beside, hcalled, hnext]
  split
  · rfl
  · cases k.inbox h with
    | nil => rfl
    | cons d ds => simp only [withInbox_beside]

theorem confined_epollWait (millis : UInt16) : Confined h (epollWait h millis).run := by
  intro k other
  have hnews : (k.beside h other).news h = k.news h := by
    unfold news
    rw [inbox_beside]
    rfl
  rw [epollWait_run, epollWait_run, hnews]
  rfl

end Kernel

/-! ## Readers -/

namespace Session

theorem confined_updateHealth (h : Handle) (f : Health → Health) (s : Session) :
    Confined h ((updateHealth f).run s) := fun _ _ => rfl

theorem confined_ingest (h : Handle) (w : WireFrame) (s : Session) :
    Confined h ((ingest w).run s) := by
  refine Confined.bind_state (confined_updateHealth h _) (fun _ => ?_) s
  cases w.decode with
  | data f => exact fun s _ _ => rfl
  | error r => exact fun s _ _ => rfl

end Session

namespace Reader

variable (c : Socket)

theorem confined_check (s : Session) : Confined c.handle ((check c).run s) := by
  unfold check
  refine Confined.bind_state (fun _ _ _ => rfl) (fun s' => ?_) s
  by_cases hs : s'.stopped.contains c.handle = true
  · rw [if_pos hs]
    have hdelete : Confined c.handle epollDelete.run :=
      .bind_run (confined_knownCall _ _) fun _ => .pure_run _
    refine Confined.bind_state (.lift_state hdelete) fun r => ?_
    cases r with
    | error e => exact fun s _ _ => rfl
    | ok u => exact fun s _ _ => rfl
  · rw [if_neg hs]
    exact fun s _ _ => rfl

theorem confined_wait (s : Session) : Confined c.handle ((wait c).run s) := by
  intro k other
  have hnews : (k.beside c.handle other).hasNews c.handle = k.hasNews c.handle := by
    unfold hasNews
    rw [inbox_beside]
    rfl
  have haccepts := accepts_beside c.handle k other
  unfold wait
  rw [Stateful.run_bind, Stateful.run_bind, Stateful.run_lift, Stateful.run_lift, System.run_get,
    System.run_get]
  dsimp only
  rw [hnews, haccepts]
  by_cases hn : k.hasNews c.handle = true
  · rw [if_pos hn]
    refine Confined.bind_state (fun _ _ _ => rfl) (fun s' => ?_) s k other
    refine Confined.bind_state (.lift_state (confined_epollWait c.handle _)) fun r => ?_
    cases r with
    | error e => exact fun s _ _ => rfl
    | ok news => exact fun s _ _ => rfl
  · rw [if_neg hn, Stateful.run_bind, Stateful.run_bind, Stateful.run_lift, Stateful.run_lift,
      confined_outcome c.handle _ k other]
    split <;> rfl

theorem confined_readOne (s : Session) : Confined c.handle ((readOne c).run s) := by
  have hread : Confined c.handle c.read.run :=
    .bind_run (confined_receive c.handle) fun _ => .pure_run _
  refine Confined.bind_state (.lift_state hread) (fun r => ?_) s
  match r with
  | .ok (.frame w) => exact Session.confined_ingest c.handle w
  | .ok (.short n) => exact fun s _ _ => rfl
  | .error e => exact fun s _ _ => rfl

/-- A reader waits on its own socket, and reads from its own socket. -/
theorem confined_step (phase : Phase) (s : Session) :
    Confined c.handle ((step (.running c phase)).run s) := by
  match phase with
  | .check => exact Confined.bind_state (confined_check c) (fun _ _ _ _ => rfl) s
  | .wait => exact confined_wait c s
  | .serve [] => exact fun _ _ => rfl
  | .serve (.foreign :: news) => exact fun _ _ => rfl
  | .serve (.readable :: news) =>
    exact Confined.bind_state (confined_readOne c) (fun _ _ _ _ => rfl) s

end Reader

end CanBus
