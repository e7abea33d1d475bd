import CanBus.Proofs.Session.Effect

/-!
Steps of a reader. `Moved` says once what a step of a running reader can do: the loop is left at the
stop mark only, the wait leads on or sleeps, and a read takes at most one datagram. `Stepping` adds
the start, which takes hold of the open socket or fails.
-/

namespace CanBus

open Kernel

/-- The frames that a step has handed out. -/
def Progress.handed : Progress → List Frame
  | .idle => []
  | .moved f => f.toList

namespace Reader

def socket? : Reader → Option Socket
  | .running c _ => some c
  | _ => none

theorem start_closed {s : Session} (hc : s.channel = none) (k : Kernel) :
    (start.run s).run k = ((.ended false, s), k) := by
  unfold start
  rw [Stateful.run_bind, Stateful.run_get, hc]
  rfl

theorem start_open {s : Session} {c : Socket} (hc : s.channel = some c) (k : Kernel) :
    ∃ k', (start.run s).run k =
        ((if 0 < k.nextOutcome .epollCreate ∨ 0 < k.nextOutcome .epollAdd then .ended false
          else .running c .check, s), k') ∧
      SameSockets k k' ∧ ∀ v, v ≠ .epollCreate → v ≠ .epollAdd →
        k'.script v = k.script v := by
  let k₁ := k.called .epollCreate .epollCreate
  let k₂ := k₁.called .epollAdd .epollAdd
  have h₁ : k₁.script .epollAdd = k.script .epollAdd := script_called_of_ne k _ (by decide)
  have hn : k₁.nextOutcome .epollAdd = k.nextOutcome .epollAdd := by rw [nextOutcome, h₁]; rfl
  have hx₁ (e : Event) (v : Service) (hv : v ≠ .epollCreate) (_ : v ≠ .epollAdd) :
      (k₁.noted e).script v = k.script v := script_called_of_ne k .epollCreate hv
  have hx₂ (e : Event) (v : Service) (hv : v ≠ .epollCreate) (hv' : v ≠ .epollAdd) :
      (k₂.noted e).script v = k.script v :=
    (script_called_of_ne k₁ .epollAdd hv').trans (script_called_of_ne k .epollCreate hv)
  unfold start
  rw [Stateful.run_bind, Stateful.run_get, hc]
  dsimp only
  rw [Stateful.run_bind, Stateful.run_lift, Fallible.run_bind, epollCreate_run]
  by_cases hp : 0 < k.nextOutcome .epollCreate
  · rw [if_pos hp, if_pos (.inl hp)]
    exact ⟨k₁.noted _, rfl, sameSockets_with k _ _ _ _, hx₁ _⟩
  · rw [if_neg hp]
    dsimp only
    rw [epollAdd_run, hn]
    by_cases hq : 0 < k.nextOutcome .epollAdd
    · rw [if_pos hq, if_pos (.inr hq)]
      exact ⟨k₂.noted _, rfl, sameSockets_with k _ _ _ _, hx₂ _⟩
    · rw [if_neg hq, if_neg (not_or.mpr ⟨hp, hq⟩)]
      exact ⟨k₂.noted _, rfl, sameSockets_with k _ _ _ _, hx₂ _⟩

/-- The loop is left here or not at all. -/
theorem check_effect (c : Socket) (s : Session) (k : Kernel) :
    ∃ k', ((check c).run s).run k =
        ((if s.stopped.contains c.handle then .ended true else .running c .wait, s), k') ∧
      SameSockets k k' ∧ (c.handle ∉ s.stopped → k' = k) ∧
      ∀ v, v ≠ .epollDelete → k'.script v = k.script v := by
  unfold check
  rw [Stateful.run_bind, Stateful.run_get]
  by_cases hs : s.stopped.contains c.handle = true
  · let k₁ := k.called .epollDelete .epollDelete
    have hn (k' : Kernel) : c.handle ∉ s.stopped → k' = k :=
      fun h => absurd (List.contains_iff_mem.mp hs) h
    have hx (v : Service) (hv : v ≠ .epollDelete) : k₁.script v = k.script v :=
      script_called_of_ne k _ hv
    rw [if_pos hs, if_pos hs, Stateful.run_bind, Stateful.run_lift, epollDelete_run]
    by_cases hp : 0 < k.nextOutcome .epollDelete
    · rw [if_pos hp]
      exact ⟨(k₁.noted _).noted _, rfl, sameSockets_with k _ _ _ _, hn _, hx⟩
    · rw [if_neg hp]
      exact ⟨k₁.noted _, rfl, sameSockets_with k _ _ _ _, hn _, hx⟩
  · rw [if_neg hs, if_neg hs]
    exact ⟨k, rfl, Chained.refl k, fun _ => rfl, fun _ _ => rfl⟩

/-- What comes of a wait: a failure and news lead on, and without either it sleeps. -/
def afterWait (c : Socket) (k : Kernel) : Reader × Progress :=
  if k.hasNews c.handle then
    (.running c (if 0 < k.nextOutcome .epollWait then .check else .serve (k.news c.handle)),
      .moved none)
  else if k.accepts c.handle then (.running c .wait, .idle)
  else (.running c .check, .moved none)

theorem wait_effect (c : Socket) (s : Session) (k : Kernel) :
    ∃ k', ((wait c).run s).run k = ((afterWait c k, s), k') ∧ SameSockets k k' ∧
      k'.script = override k.script .epollWait (k.script .epollWait).tail := by
  unfold wait afterWait
  rw [Stateful.run_bind, Stateful.run_lift, System.run_get]
  dsimp only
  by_cases hn : k.hasNews c.handle = true
  · rw [if_pos hn, if_pos hn, Stateful.run_bind, Stateful.run_get]
    dsimp only
    let k₁ := k.called (.epollWait (Settings.waitMillis s.settings.pollWait)) .epollWait
    rw [Stateful.run_bind, Stateful.run_lift, epollWait_run]
    by_cases ho : 0 < k.nextOutcome .epollWait
    · rw [if_pos ho, if_pos ho]
      exact ⟨k₁.noted _, rfl, sameSockets_with k _ _ _ _, rfl⟩
    · rw [if_neg ho, if_neg ho]
      exact ⟨k₁, rfl, sameSockets_called k _ _, rfl⟩
  · let k₁ := { k with script := override k.script .epollWait (k.script .epollWait).tail }
    rw [if_neg hn, if_neg hn, Stateful.run_bind, Stateful.run_lift, outcome_run]
    refine ⟨k₁, ?_, sameSockets_with k _ _ _ _, rfl⟩
    dsimp only
    by_cases ha : k.accepts c.handle = true
    · rw [if_pos ha, if_pos ha]
      rfl
    · rw [if_neg ha, if_neg ha]
      rfl

/-! ## Steps -/

/-- A step of a reader that holds the socket `c`, by the phase in which it was taken. -/
inductive Moved (c : Socket) (s : Session) (k : Kernel) :
    Phase → Reader → Progress → Session → Kernel → Prop
  | passed (hs : c.handle ∉ s.stopped) : Moved c s k .check (.running c .wait) (.moved none) s k
  | left {k' : Kernel} (hs : c.handle ∈ s.stopped) (hk : SameSockets k k')
      (hx : ∀ v, v ≠ .epollDelete → k'.script v = k.script v) :
      Moved c s k .check (.ended true) (.moved none) s k'
  | waited {k' : Kernel} (hk : SameSockets k k')
      (hx : k'.script = override k.script .epollWait (k.script .epollWait).tail) :
      Moved c s k .wait (afterWait c k).1 (afterWait c k).2 s k'
  | served : Moved c s k (.serve []) (.running c .check) (.moved none) s k
  | skipped {news : List Readiness} :
      Moved c s k (.serve (.foreign :: news)) (.running c (.serve news)) (.moved none) s k
  | read {news : List Readiness} {d? : Option Datagram} {s' : Session} {k' : Kernel}
      (hk : SameHandles k k') (ht : Session.Took c.handle s k d? s' k')
      (hx : k'.script = override k.script .receive (k.script .receive).tail)
      (hn : d? = none ↔ 0 < k.nextOutcome .receive ∨ k.inbox c.handle = []) :
      Moved c s k (.serve (.readable :: news)) (.running c (.serve news))
        (.moved (d?.bind Session.dataFrame?)) s' k'

theorem step_moved (c : Socket) (phase : Phase) (s : Session) (k : Kernel) :
    ∃ r p s' k', ((step (.running c phase)).run s).run k = (((r, p), s'), k') ∧
      Moved c s k phase r p s' k' := by
  cases phase with
  | check =>
    obtain ⟨k', hr, hk, hsame, hx⟩ := check_effect c s k
    unfold step
    rw [Stateful.run_bind, hr]
    by_cases hs : c.handle ∈ s.stopped
    · rw [if_pos (List.contains_iff_mem.mpr hs)]
      exact ⟨_, _, s, k', rfl, .left hs hk hx⟩
    · rw [if_neg (mt List.contains_iff_mem.mp hs), hsame hs]
      exact ⟨_, _, s, k, rfl, .passed hs⟩
  | wait =>
    obtain ⟨k', hr, hk, hx⟩ := wait_effect c s k
    exact ⟨_, _, s, k', hr, .waited hk hx⟩
  | serve news =>
    match news with
    | [] => exact ⟨_, _, s, k, rfl, .served⟩
    | .foreign :: news => exact ⟨_, _, s, k, rfl, .skipped⟩
    | .readable :: news =>
      obtain ⟨d?, s', k', hr, hk, ht, hx, hn⟩ := Session.readOne_effect c s k
      unfold step
      rw [Stateful.run_bind, hr]
      exact ⟨_, _, s', k', rfl, .read hk ht hx hn⟩

section Consequences

variable {c : Socket} {s s' : Session} {k k' : Kernel} {phase : Phase} {r : Reader} {p : Progress}

theorem afterWait_running (c : Socket) (k : Kernel) :
    ∃ phase, (afterWait c k).1 = .running c phase ∧ (afterWait c k).2.handed = [] := by
  unfold afterWait
  by_cases hn : k.hasNews c.handle = true
  · rw [if_pos hn]
    exact ⟨_, rfl, rfl⟩
  · rw [if_neg hn]
    by_cases ha : k.accepts c.handle = true
    · rw [if_pos ha]
      exact ⟨_, rfl, rfl⟩
    · rw [if_neg ha]
      exact ⟨_, rfl, rfl⟩

/-- A step reads at most once, and hands out the data frame in what it has read. -/
theorem Moved.took (h : Moved c s k phase r p s' k') :
    ∃ d?, Session.Took c.handle s k d? s' k' ∧ SameHandles k k' ∧
      p.handed = (d?.bind Session.dataFrame?).toList := by
  cases h with
  | passed | served | skipped => exact ⟨none, .nothing rfl, Chained.refl k, rfl⟩
  | left hs hk => exact ⟨none, .nothing hk.inbox, hk.handles, rfl⟩
  | waited hk =>
    obtain ⟨phase', -, hp⟩ := afterWait_running c k
    exact ⟨none, .nothing hk.inbox, hk.handles, hp⟩
  | read hk ht => exact ⟨_, ht, hk, rfl⟩

/-- No failure ends a reader. -/
theorem Moved.ended_or_running (h : Moved c s k phase r p s' k') :
    (r = .ended true ∧ phase = .check ∧ c.handle ∈ s.stopped) ∨
      ∃ phase', r = .running c phase' := by
  cases h with
  | left hs => exact .inl ⟨rfl, rfl, hs⟩
  | waited hk =>
    obtain ⟨phase', hp, -⟩ := afterWait_running c k
    exact .inr ⟨phase', hp⟩
  | passed | served | skipped | read => exact .inr ⟨_, rfl⟩

end Consequences

/-- A step of any reader. -/
inductive Stepping (s : Session) (k : Kernel) :
    Reader → Reader → Progress → Session → Kernel → Prop
  | failed {k' : Kernel} (hk : SameSockets k k') :
      Stepping s k .starting (.ended false) (.moved none) s k'
  | took {c : Socket} {k' : Kernel} (hc : s.channel = some c) (hk : SameSockets k k') :
      Stepping s k .starting (.running c .check) (.moved none) s k'
  | ran {c : Socket} {phase : Phase} {r : Reader} {p : Progress} {s' : Session} {k' : Kernel}
      (h : Moved c s k phase r p s' k') : Stepping s k (.running c phase) r p s' k'
  | finished {ran : Bool} : Stepping s k (.ended ran) (.ended ran) .idle s k

theorem step_stepping (r : Reader) (s : Session) (k : Kernel) :
    ∃ r' p s' k', (r.step.run s).run k = (((r', p), s'), k') ∧ Stepping s k r r' p s' k' := by
  cases r with
  | starting =>
    unfold step
    rw [Stateful.run_bind]
    cases hc : s.channel with
    | none =>
      rw [start_closed hc]
      exact ⟨_, _, s, k, rfl, .failed (Chained.refl k)⟩
    | some c =>
      obtain ⟨k', hr, hk, -⟩ := start_open hc k
      rw [hr]
      by_cases hp : 0 < k.nextOutcome .epollCreate ∨ 0 < k.nextOutcome .epollAdd
      · rw [if_pos hp]
        exact ⟨_, _, s, k', rfl, .failed hk⟩
      · rw [if_neg hp]
        exact ⟨_, _, s, k', rfl, .took hc hk⟩
  | running c phase =>
    obtain ⟨r', p, s', k', hr, hm⟩ := step_moved c phase s k
    exact ⟨r', p, s', k', hr, .ran hm⟩
  | ended ran => exact ⟨_, _, s, k, rfl, .finished⟩

/-- Only the socket that the reader took hold of is read from. -/
theorem step_effect (r : Reader) (s : Session) (k : Kernel) :
    ∃ d? p s' k', (r.step.run s).run k = ((p, s'), k') ∧ SameHandles k k' ∧
      r.socket?.elim (d? = none ∧ s' = s) fun c => Session.Took c.handle s k d? s' k' := by
  obtain ⟨r', p, s', k', hr, hs⟩ := step_stepping r s k
  cases hs with
  | failed hk | took _ hk => exact ⟨none, _, s, k', hr, hk.handles, rfl, rfl⟩
  | finished => exact ⟨none, _, s, k, hr, Chained.refl k, rfl, rfl⟩
  | ran h =>
    obtain ⟨d?, ht, hk, -⟩ := h.took
    exact ⟨d?, _, s', k', hr, hk, ht⟩

end Reader

end CanBus
