import CanBus.Proofs.Kernel

/-!
Opening a socket. A new socket gets a handle that no socket had before and takes datagrams at once;
nothing happens to the older sockets, whether or not the opening succeeds.
-/

namespace CanBus

open Kernel

/-- The sockets with handles below `n` are left alone, and handles are only ever added. -/
structure Spares (n : Handle) (k k' : Kernel) : Prop where
  opened : k.opened ≤ k'.opened
  accepts : n ≤ k.opened → ∀ h < n, k'.accepts h = k.accepts h
  inbox : n ≤ k.opened → ∀ h < n, k'.inbox h = k.inbox h

instance (n : Handle) : Chained (Spares n) where
  refl _ := ⟨Nat.le_refl _, fun _ _ _ => rfl, fun _ _ _ => rfl⟩
  trans h₁ h₂ := by
    refine ⟨Nat.le_trans h₁.1 h₂.1, fun hn h hh => ?_, fun hn h hh => ?_⟩
    · exact (h₂.2 (Nat.le_trans hn h₁.1) h hh).trans (h₁.2 hn h hh)
    · exact (h₂.3 (Nat.le_trans hn h₁.1) h hh).trans (h₁.3 hn h hh)

theorem Kernel.SameSockets.spares {k k' : Kernel} (h : SameSockets k k') (n : Handle) :
    Spares n k k' :=
  ⟨Nat.le_of_eq h.opened.symm, fun _ _ _ => by rw [h.accepts], fun _ _ _ => by rw [h.inbox]⟩

theorem Keeps.spares {α : Type} {m : System α} (h : Keeps SameSockets m) (n : Handle) :
    Keeps (Spares n) m := fun k => (h k).spares n

namespace Kernel

theorem openSocket_run (k : Kernel) :
    openSocket.run.run k =
      if 0 < k.nextOutcome .socket then
        (.error (.code (k.nextOutcome .socket)), k.called .socket .socket)
      else (.ok k.opened, { k.called .socket .socket with
        opened := k.opened + 1, accepts := override k.accepts k.opened true }) := by
  have hc := call_run k (rfl : Call.socket.service? = some .socket)
  simp only [openSocket, Fallible.run_bind, hc]
  by_cases hn : 0 < k.nextOutcome .socket
  · simp only [hn, if_true]
  · simp only [hn, if_false]; rfl

theorem spares_openSocket (n : Handle) : Keeps (Spares n) openSocket.run := by
  intro k
  rw [openSocket_run]
  split
  · exact ⟨Nat.le_refl _, fun _ _ _ => rfl, fun _ _ _ => rfl⟩
  · refine ⟨Nat.le_succ _, fun hn h hh => ?_, fun _ _ _ => rfl⟩
    exact override_of_ne _ _ (Nat.ne_of_lt (Nat.lt_of_lt_of_le hh hn))

theorem spares_bind {n h : Handle} (hh : n ≤ h) (a : Address) :
    Keeps (Spares n) (bind h a).run := by
  refine Keeps.bind_run (Keeps.spares (keeps_call (by nofun)) n) fun _ => ?_
  intro k
  refine ⟨Nat.le_refl _, fun _ _ _ => rfl, fun _ x hx => ?_⟩
  exact override_of_ne _ _ (Nat.ne_of_lt (Nat.lt_of_lt_of_le hx hh))

theorem spares_release {n h : Handle} (hh : n ≤ h) : Keeps (Spares n) (release h) := by
  intro k
  refine ⟨Nat.le_refl _, fun _ x hx => ?_, fun _ _ _ => rfl⟩
  exact override_of_ne _ _ (Nat.ne_of_lt (Nat.lt_of_lt_of_le hx hh))

end Kernel

namespace Socket

theorem setup_run {α : Type} (step : SetupStep) (m : Syscall α) (k : Kernel) :
    (setup step m).run.run k =
      match m.run.run k with
      | (.ok a, k') => (.ok a, k')
      | (.error e, k') => (.error (.socket step e), k') := by
  simp only [setup, Fallible.run_bind, Fallible.run_lift]
  rcases m.run.run k with ⟨_ | _, k'⟩ <;> rfl

theorem setupOn_run {α : Type} (s : Handle) (step : SetupStep) (m : Syscall α) (k : Kernel) :
    (setupOn s step m).run.run k =
      match m.run.run k with
      | (.ok a, k') => (.ok a, k')
      | (.error e, k') => (.error (.socket step e), k'.refusing s) := by
  simp only [setupOn, Fallible.run_bind, Fallible.run_lift]
  rcases m.run.run k with ⟨_ | _, k'⟩ <;> rfl

theorem setup_ok {α : Type} {step : SetupStep} {m : Syscall α} {k k' : Kernel} {a : α}
    (h : (setup step m).run.run k = (.ok a, k')) : m.run.run k = (.ok a, k') := by
  rw [setup_run] at h
  rcases hm : m.run.run k with ⟨e | b, k₁⟩
  · rw [hm] at h
    cases h
  · rw [hm] at h
    cases h
    rfl

theorem setupOn_ok {α : Type} {s : Handle} {step : SetupStep} {m : Syscall α} {k k' : Kernel}
    {a : α} (h : (setupOn s step m).run.run k = (.ok a, k')) : m.run.run k = (.ok a, k') := by
  rw [setupOn_run] at h
  rcases hm : m.run.run k with ⟨e | b, k₁⟩
  · rw [hm] at h
    cases h
  · rw [hm] at h
    cases h
    rfl

theorem spares_setup {α : Type} {n : Handle} {step : SetupStep} {m : Syscall α}
    (h : Keeps (Spares n) m.run) : Keeps (Spares n) (setup step m).run := by
  refine Keeps.bind_run (Keeps.lift_run h) fun r => ?_
  split
  · exact Keeps.pure_run _
  · exact Keeps.throw_run _

theorem spares_setupOn {α : Type} {n s : Handle} (hs : n ≤ s) {step : SetupStep} {m : Syscall α}
    (h : Keeps (Spares n) m.run) : Keeps (Spares n) (setupOn s step m).run := by
  refine Keeps.bind_run (Keeps.lift_run h) fun r => ?_
  split
  · exact Keeps.pure_run _
  · exact Keeps.bind_run (Keeps.lift_run (Kernel.spares_release hs)) fun _ => Keeps.throw_run _

/-- The handle of a new socket is fresh. -/
theorem openSocket_ok {k k' : Kernel} {h : Handle} (ho : openSocket.run.run k = (.ok h, k')) :
    h = k.opened ∧ k'.opened = k.opened + 1 ∧
    k'.accepts = override k.accepts k.opened true := by
  rw [openSocket_run] at ho
  split at ho
  · cases ho
  · cases ho
    exact ⟨rfl, rfl, rfl⟩

theorem spares_openAt (k : Kernel) (index : UInt32) (s : Settings) :
    Spares k.opened k ((openAt index s).run.run k).2 := by
  have ha : Spares k.opened k ((setup .allocate openSocket).run.run k).2 :=
    spares_setup (spares_openSocket k.opened) k
  rw [openAt, Fallible.run_bind]
  rcases h : (setup .allocate openSocket).run.run k with ⟨e | a, k₁⟩
  · rw [h] at ha
    exact ha
  · rw [h] at ha
    have hle : k.opened ≤ a := Nat.le_of_eq (openSocket_ok (setup_ok h)).1.symm
    have hrest : Keeps (Spares k.opened) (do
        setupOn a .bind (Kernel.bind a ⟨index⟩)
        setupOn a .errorFilter (Kernel.setErrorFilter s.errorMask)
        setupOn a .sendTimeout (Kernel.setSendTimeout s.sendTimeout)
        return ⟨a, index⟩ : Operation Socket).run := by
      refine Keeps.bind_run (spares_setupOn hle (spares_bind hle _)) fun _ => ?_
      refine Keeps.bind_run (spares_setupOn hle ?_) fun _ => ?_
      · exact Keeps.bind_run (Keeps.spares (keeps_call (by nofun)) _) fun _ => Keeps.pure_run _
      refine Keeps.bind_run (spares_setupOn hle ?_) fun _ => Keeps.pure_run _
      exact Keeps.bind_run (Keeps.spares (keeps_call (by nofun)) _) fun _ => Keeps.pure_run _
    exact Chained.trans ha (hrest k₁)

theorem handles_of_bind {h : Handle} {a : Address} {k k' : Kernel} {u : Unit}
    (hb : (Kernel.bind h a).run.run k = (.ok u, k')) : SameHandles k k' := by
  obtain ⟨n, k₁, hc, hb⟩ := Fallible.bind_ok hb
  have hk : SameSockets k ((call (.bind a)).run.run k).2 := keeps_call (by nofun) k
  rw [hc] at hk
  cases hb
  exact ⟨hk.opened, hk.accepts⟩

theorem handles_of_setting {c : Kernel.Call} (hc : ∀ r, c.service? ≠ some (.link r))
    {k k' : Kernel} {u : Unit}
    (hs : (do let _ ← Kernel.call c : Syscall Unit).run.run k = (.ok u, k')) :
    SameHandles k k' := by
  obtain ⟨n, k₁, hn, hs⟩ := Fallible.bind_ok hs
  have hk : SameSockets k ((call c).run.run k).2 := keeps_call hc k
  rw [hn] at hk
  cases hs
  exact hk.handles

theorem openAt_ok {index : UInt32} {s : Settings} {k k' : Kernel} {socket : Socket}
    (h : (openAt index s).run.run k = (.ok socket, k')) :
    socket = ⟨k.opened, index⟩ ∧ k'.opened = k.opened + 1 ∧
      k'.accepts = override k.accepts k.opened true := by
  obtain ⟨a, k₁, h₁, h⟩ := Fallible.bind_ok h
  obtain ⟨_, k₂, h₂, h⟩ := Fallible.bind_ok h
  obtain ⟨_, k₃, h₃, h⟩ := Fallible.bind_ok h
  obtain ⟨_, k₄, h₄, h⟩ := Fallible.bind_ok h
  cases h
  obtain ⟨rfl, ho, ha⟩ := openSocket_ok (setup_ok h₁)
  have h₂ := handles_of_bind (setupOn_ok h₂)
  have h₃ := handles_of_setting (by nofun) (setupOn_ok h₃)
  have h₄ := handles_of_setting (by nofun) (setupOn_ok h₄)
  have hk := Chained.trans (Chained.trans h₂ h₃) h₄
  exact ⟨rfl, hk.opened.trans ho, hk.accepts.trans ha⟩

theorem openOn_cases (k : Kernel) (name : String) (s : Settings) :
    (∃ f k', (openOn name s).run.run k = (.error f, k') ∧ Spares k.opened k k') ∨
    (∃ index k', (openOn name s).run.run k = (.ok ⟨k.opened, index⟩, k') ∧
      k'.opened = k.opened + 1 ∧ k'.accepts = override k.accepts k.opened true) := by
  have hi : SameSockets k ((indexOf name).run.run k).2 := keeps_indexOf name k
  rw [openOn, Fallible.run_bind, setup_run]
  rcases h : (Kernel.indexOf name).run.run k with ⟨e | index, k₁⟩
  · rw [h] at hi
    exact .inl ⟨_, _, rfl, hi.spares _⟩
  · rw [h] at hi
    have hs := spares_openAt k₁ index s
    rcases ho : (openAt index s).run.run k₁ with ⟨f | socket, k₂⟩
    · rw [ho, hi.opened] at hs
      exact .inl ⟨f, k₂, ho, Chained.trans (hi.spares _) hs⟩
    · obtain ⟨rfl, h₁, h₂⟩ := openAt_ok ho
      rw [hi.opened] at ho h₁ h₂
      exact .inr ⟨index, k₂, ho, h₁, by rw [h₂, hi.accepts]⟩

end Socket

end CanBus
