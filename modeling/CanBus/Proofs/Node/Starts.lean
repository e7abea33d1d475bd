import CanBus.Proofs.Node.Queue

/-!
The loop behind an enabled node. A node reports success once its session is open, and starts the
loop after that; whether the loop can set up its wait is found out by the loop alone. `Fate` says
what can become of a loop in a step, and `Attended` ties the last loop to the open session. Main
statement: `loop_lost_iff_start_failed`.
-/

namespace CanBus

open Kernel NodeEvent

/-- There is no way to wait: no context for it can be created, or the
socket can't be added to it. -/
def Kernel.refusesWaits (k : Kernel) : Bool :=
  0 < k.nextOutcome .epollCreate || 0 < k.nextOutcome .epollAdd

/-! ## Fates -/

namespace Reader

/-- What becomes of a reader in a step: it starts or doesn't, and then runs
until it is told to stop. -/
inductive Fate (s : Session) (k : Kernel) : Reader → Reader → Prop
  | refused (h : s.isOpen = true → k.refusesWaits = true) : Fate s k .starting (.ended false)
  | took {c : Socket} (hc : s.channel = some c) (h : k.refusesWaits = false) :
      Fate s k .starting (.running c .check)
  | stayed {c : Socket} {phase phase' : Phase} : Fate s k (.running c phase) (.running c phase')
  | left {c : Socket} {phase : Phase} (hs : c.handle ∈ s.stopped) :
      Fate s k (.running c phase) (.ended true)
  | finished {ran : Bool} : Fate s k (.ended ran) (.ended ran)

theorem step_fate (r : Reader) (s : Session) (k : Kernel) :
    Fate s k r ((r.step.run s).run k).1.1.1 := by
  cases r with
  | starting =>
    unfold step
    rw [Stateful.run_bind]
    cases hc : s.channel with
    | none =>
      have hshut : s.isOpen = false := by rw [Session.isOpen, hc]; rfl
      rw [start_closed hc]
      refine .refused fun h => ?_
      rw [hshut] at h
      cases h
    | some c =>
      obtain ⟨k', hr, -⟩ := start_open hc k
      rw [hr]
      cases hw : k.refusesWaits with
      | true =>
        have hp : 0 < k.nextOutcome .epollCreate ∨ 0 < k.nextOutcome .epollAdd := by
          simpa [refusesWaits] using hw
        rw [if_pos hp]
        exact .refused fun _ => hw
      | false =>
        have hp : ¬ (0 < k.nextOutcome .epollCreate ∨ 0 < k.nextOutcome .epollAdd) := by
          simpa [refusesWaits] using hw
        rw [if_neg hp]
        exact .took hc hw
  | running c phase =>
    obtain ⟨r', p, s', k', hr, hm⟩ := step_moved c phase s k
    rw [hr]
    rcases hm.ended_or_running with ⟨rfl, -, hs⟩ | ⟨phase', rfl⟩
    · exact .left hs
    · exact .stayed
  | ended ran => exact .finished

namespace Fate

variable {s : Session} {k : Kernel} {r r' : Reader}

theorem ne_starting (h : Fate s k r r') : r' ≠ .starting := by
  cases h <;> nofun

/-- A reader ends because it can't start, or because it was told to stop. -/
theorem of_ended (h : Fate s k r r') (hr : r'.canRead = false) :
    r.canRead = false ∨ (r = .starting ∧ (s.isOpen = true → k.refusesWaits = true)) ∨
      ∃ c, r.socket? = some c ∧ c.handle ∈ s.stopped := by
  cases h with
  | refused h => exact .inr (.inl ⟨rfl, h⟩)
  | took | stayed => cases hr
  | left hs => exact .inr (.inr ⟨_, rfl, hs⟩)
  | finished => exact .inl rfl

theorem of_refusesWaits {k' : Kernel} (h : Fate s k r r') (hk : k'.refusesWaits = k.refusesWaits) :
    Fate s k' r r' := by
  cases h with
  | refused h => exact .refused fun ho => hk.trans (h ho)
  | took hc h => exact .took hc (hk.trans h)
  | stayed => exact .stayed
  | left hs => exact .left hs
  | finished => exact .finished

end Fate

end Reader

namespace NodeWorld

/-- The loop that an action has found unable to wait on the open socket. -/
def failedStart (w : NodeWorld) : NodeAction → List Nat
  | .loop i =>
    if w.loops[i]? = some .starting ∧ w.session.isOpen = true ∧ w.kernel.refusesWaits = true
    then [i]
    else []
  | _ => []

/-- The loops of which the start has failed in a run. -/
def failedStarts (w : NodeWorld) : List NodeAction → List Nat
  | [] => []
  | a :: as => w.failedStart a ++ (w.step a).failedStarts as

/-- What becomes of the loops over an action that finds those in `new` unable to start. -/
def Fates (w w' : NodeWorld) (new : List Nat) : Prop :=
  ∀ i r, w.loops[i]? = some r → ∃ r', w'.loops[i]? = some r' ∧
    (r' = r ∧ i ∉ new ∨ r.Fate w.session w.kernel r' ∧
      (i ∈ new ↔ r = .starting ∧ w.session.isOpen = true ∧ w.kernel.refusesWaits = true))

variable {w : NodeWorld} {i : Nat} {r : Reader}

theorem turn_fate (hr : w.loops[i]? = some r) :
    ∃ r', (w.turn i).loops = w.loops.set i r' ∧ r.Fate w.session w.kernel r' := by
  let o := (r.step.run w.session).run { w.kernel with thread := .reader }
  obtain ⟨k', hrun, -⟩ := Node.readerStep_effect { w.node with reader := some r } w.kernel rfl
  have hf : r.Fate w.session { w.kernel with thread := .reader } o.1.1.1 := r.step_fate _ _
  refine ⟨o.1.1.1, ?_, hf.of_refusesWaits rfl⟩
  simp only [turn, hr, hrun]
  rfl

theorem mem_failedStart {a : NodeAction} :
    i ∈ w.failedStart a ↔
      a = .loop i ∧ w.loops[i]? = some .starting ∧ w.session.isOpen = true ∧
      w.kernel.refusesWaits = true := by
  cases a with
  | loop j =>
    show i ∈ ite _ [j] [] ↔ _
    by_cases hj : j = i
    · subst hj
      split
      · exact iff_of_true List.mem_cons_self ⟨rfl, ‹_›⟩
      · exact iff_of_false List.not_mem_nil fun h => ‹¬ _› h.2
    · have hne : NodeAction.loop j ≠ .loop i := fun h => hj (NodeAction.loop.inj h)
      refine iff_of_false (fun h => ?_) fun h => hne h.1
      split at h
      · exact hj (List.mem_singleton.mp h).symm
      · cases h
  | _ => simp [failedStart]

/-- It is only its own steps that change a loop. -/
theorem getElem?_step {a : NodeAction} (ha : a ≠ .loop i) (hr : w.loops[i]? = some r) :
    (w.step a).loops[i]? = some r := by
  have hi := (List.getElem?_eq_some_iff.mp hr).1
  cases a with
  | elsewhere k => exact hr
  | call c =>
    rw [step]
    split
    · cases c <;> exact hr
    · exact hr
  | proceed =>
    show w.proceed.loops[i]? = _
    unfold proceed
    split
    · exact hr
    · exact hr
    · split <;> exact hr
    · exact hr
    · exact hr
    · split <;> exact hr
    · exact (List.getElem?_append_left hi).trans hr
  | loop j =>
    have hj : j ≠ i := fun h => ha (congrArg _ h)
    show (w.turn j).loops[i]? = _
    cases hx : w.loops[j]? with
    | none =>
      simp only [turn, hx]
      exact hr
    | some x =>
      obtain ⟨x', hl, -⟩ := turn_fate hx
      rw [hl, List.getElem?_set_ne hj]
      exact hr

theorem step_fates (w : NodeWorld) (a : NodeAction) : w.Fates (w.step a) (w.failedStart a) := by
  intro i r hr
  by_cases ha : a = .loop i
  · subst ha
    obtain ⟨r', hl, hf⟩ := turn_fate hr
    refine ⟨r', ?_, .inr ⟨hf, ?_⟩⟩
    · show (w.turn i).loops[i]? = _
      rw [hl, List.getElem?_set_self (List.getElem?_eq_some_iff.mp hr).1]
    · simp [mem_failedStart, hr]
  · exact ⟨r, getElem?_step ha hr, .inl ⟨rfl, fun hm => ha (mem_failedStart.mp hm).1⟩⟩

end NodeWorld

/-- Without a loop that holds a socket nothing is drained. -/
theorem NodeChange.drainedFrom_eq {w w' : NodeWorld} {es : List NodeEvent} (hc : NodeChange w es w')
    (hq : ∀ r ∈ w.loops, r.socket? = none) (h : List NodeEvent) (c : Handle) :
    drainedFrom c (h ++ es) = drainedFrom c h := by
  have hnone : es.filterMap (drained? c) = [] := by
    cases hc with
    | turned hr ht =>
      rw [hq _ (List.mem_of_getElem? hr)]
      rfl
    | popped => cases w.inbox.pop?.1 <;> rfl
    | _ => rfl
  rw [drainedFrom, List.filterMap_append, hnone, List.append_nil]
  rfl

theorem NodeEvent.socket?_kept {h es : List NodeEvent}
    (hes : ∀ e ∈ es, e.isEnabling = false ∧ e.opened? = none) :
    socket? (h ++ es) = socket? h := by
  induction es generalizing h with
  | nil => rw [List.append_nil]
  | cons e es ih =>
    obtain ⟨he, ho⟩ := hes e List.mem_cons_self
    have hsplit : h ++ e :: es = h ++ [e] ++ es := List.append_cons h e es
    rw [hsplit, ih fun x hx => hes x (List.mem_cons_of_mem _ hx), socket?_snoc h he, ho]
    exact Option.or_none

theorem NodeEvent.drained_kept (s : Option Socket) (f : Socket → Option Datagram) :
    ∀ e ∈ (s.bind fun c => (f c).map fun d => NodeEvent.drained c.handle d).toList,
      e.isEnabling = false ∧ e.opened? = none := by
  intro e he
  rw [Option.mem_toList, Option.bind_eq_some_iff] at he
  obtain ⟨c, -, he⟩ := he
  obtain ⟨d, -, rfl⟩ := Option.map_eq_some_iff.mp he
  exact ⟨rfl, rfl⟩

/-! ## The last loop -/

/-- The loop to be waited for is the last one, and it can read unless its start has failed. Until it
has started, nothing is drained from the socket. -/
def Served (w : NodeWorld) (h : List NodeEvent) (fails : List Nat) (c : Handle) : Prop :=
  ∃ i r, w.handle = some i ∧ i + 1 = w.loops.length ∧ w.loops[i]? = some r ∧
    (r.canRead = false → i ∈ fails) ∧ (r = .starting ∨ i ∈ fails → drainedFrom c h = [])

/-- While the socket that the last enabling has opened is open, there is a loop for it. -/
structure Attended (w : NodeWorld) (h : List NodeEvent) (fails : List Nat) : Prop where
  failed : ∀ i ∈ fails, w.loops[i]? = some (.ended false)
  unread : w.stage = .spawning → ∀ c, socket? h = some c → drainedFrom c h = []
  served : ∀ c, socket? h = some c → w.session.isOpen = true → w.stage ≠ .spawning →
    Served w h fails c

namespace Attended

variable {w w' : NodeWorld} {h es : List NodeEvent} {fails new : List Nat} {c : Handle}

theorem start (s : Session) (k : Kernel) : Attended (NodeWorld.start s k) [] [] :=
  ⟨nofun, nofun, nofun⟩

/-- A loop that has not started, or couldn't, leaves no other to read from a socket. -/
theorem quiet (t : Attended w h fails) (sv : Supervised w) {i : Nat} {r : Reader}
    (hi : w.handle = some i) (hr : w.loops[i]? = some r) (hidle : r = .starting ∨ i ∈ fails) :
    ∀ x ∈ w.loops, x.socket? = none := by
  intro x hx
  cases hsock : x.socket? with
  | none => rfl
  | some s =>
    obtain ⟨j, hj⟩ := List.mem_iff_getElem?.mp hx
    have hij : w.handle = some j := sv.alone j x hj (Reader.canRead_of_socket hsock)
    rw [hi] at hij
    cases hij
    rw [hr] at hj
    cases hj
    rcases hidle with rfl | hmem
    · cases hsock
    · have hended := t.failed i hmem
      rw [hr] at hended
      cases hended
      cases hsock

/-- An action that leaves the session open and starts no loop. -/
theorem served_kept (t : Attended w h fails) (sv : Supervised w) (l : Ledger w h)
    (hf : w.Fates w' new) (hc : NodeChange w es w') (hs : socket? h = some c)
    (ho : w.session.isOpen = true) (hst : w.stage ≠ .spawning) (hh : w'.handle = w.handle)
    (hl : w'.loops.length = w.loops.length) : Served w' (h ++ es) (fails ++ new) c := by
  obtain ⟨i, r, hi, hlast, hr, hend, hdrained⟩ := t.served c hs ho hst
  obtain ⟨r', hr', hfate⟩ := hf i r hr
  refine ⟨i, r', hh.trans hi, hlast.trans hl.symm, hr', fun hx => ?_, fun hx => ?_⟩
  · rcases hfate with ⟨rfl, -⟩ | ⟨hfate, hnew⟩
    · exact List.mem_append_left _ (hend hx)
    rcases hfate.of_ended hx with hx | ⟨hstart, hrefuses⟩ | ⟨s, hsock, hstop⟩
    · exact List.mem_append_left _ (hend hx)
    · exact List.mem_append_right _ (hnew.mpr ⟨hstart, ho, hrefuses ho⟩)
    · -- the loop has the socket that is open, and that is not one it was told to leave
      obtain ⟨hopen, hloops⟩ := l.faithful c hs
      obtain ⟨s₀, hs₀⟩ := Option.isSome_iff_exists.mp ho
      rw [hloops r (List.mem_of_getElem? hr) s hsock, ← hopen s₀ hs₀] at hstop
      exact absurd hstop (sv.sound.notStopped s₀ hs₀)
  · have hidle : r = .starting ∨ i ∈ fails := by
      rcases hx with rfl | hx
      · rcases hfate with ⟨he, -⟩ | ⟨hfate, -⟩
        · exact .inl he.symm
        · exact absurd rfl hfate.ne_starting
      · rcases List.mem_append.mp hx with hx | hx
        · exact .inr hx
        · rcases hfate with ⟨-, hnot⟩ | ⟨-, hnew⟩
          · exact absurd hx hnot
          · exact .inl (hnew.mp hx).1
    rw [hc.drainedFrom_eq (t.quiet sv hi hr hidle)]
    exact hdrained hidle

theorem failed_step (t : Attended w h fails) (sv : Supervised w) (a : NodeAction) {i : Nat}
    (hi : i ∈ fails ++ w.failedStart a) : (w.step a).loops[i]? = some (.ended false) := by
  rcases List.mem_append.mp hi with hi | hi
  · exact NodeWorld.ended_change (sv.step_change a) (t.failed i hi)
  · obtain ⟨-, hstart, ho, hw⟩ := NodeWorld.mem_failedStart.mp hi
    obtain ⟨r', hr', ⟨-, hnot⟩ | ⟨hfate, -⟩⟩ := w.step_fates a i _ hstart
    · exact absurd hi hnot
    · cases hfate with
      | refused => exact hr'
      | took hc hw' =>
        rw [hw] at hw'
        cases hw'

theorem unread_change (t : Attended w h fails) (sv : Supervised w) (l : Ledger w h)
    (hc : NodeChange w es w') (hst : w'.stage = .spawning) (hs : socket? (h ++ es) = some c) :
    drainedFrom c (h ++ es) = [] := by
  have hkept (hst : w.stage = .spawning) (hs : socket? h = some c) :
      drainedFrom c (h ++ es) = [] := by
    have hnone : w.handle = none := sv.joined (by rw [hst]; rfl)
    have hquiet : ∀ r ∈ w.loops, r.socket? = none := by
      intro r hr
      cases hsock : r.socket? with
      | none => rfl
      | some s => exact (sv.unheld hnone hr hsock).elim
    rw [hc.drainedFrom_eq hquiet]
    exact t.unread hst c hs
  cases hc with
  | nothing => exact hkept hst (by rwa [List.append_nil] at hs)
  | aside => exact hkept hst (by rwa [List.append_nil] at hs)
  | popped hfree =>
    dsimp only at hst
    rw [hfree] at hst
    cases hst
  | @joined b => cases b <;> cases hst
  | opened hopening hn ho ha =>
    have hnone : socket? h = none := by
      cases hs' : socket? h with
      | none => rfl
      | some c' => exact absurd hopening (l.balanced c' hs').2.2
    rw [socket?_snoc h rfl, hnone] at hs
    cases hs
    rw [drainedFrom_snoc, l.drainedBelow _ (Nat.le_refl _)]
    rfl
  | turned hr ht =>
    refine hkept hst ?_
    rwa [socket?_kept (drained_kept _ _)] at hs
  | _ => cases hst

theorem served_change (t : Attended w h fails) (sv : Supervised w) (l : Ledger w h)
    (hf : w.Fates w' new) (hc : NodeChange w es w') (hs : socket? (h ++ es) = some c)
    (ho : w'.session.isOpen = true) (hst : w'.stage ≠ .spawning) :
    Served w' (h ++ es) (fails ++ new) c := by
  have hchange := hc
  -- a step that closes the session, or that comes while it is closed, leaves it so
  have hshut (hx : w.stage.isShut = true) (hw : w'.session = w.session) : False := by
    rw [hw, Session.isOpen, sv.shut hx] at ho
    cases ho
  cases hc with
  | nothing =>
    rw [List.append_nil] at hs
    exact t.served_kept sv l hf hchange hs ho hst rfl rfl
  | aside hsess =>
    rw [List.append_nil] at hs
    have ho' : w.session.isOpen = true := by
      dsimp only at ho
      rwa [hsess] at ho
    exact t.served_kept sv l hf hchange hs ho' hst rfl rfl
  | popped hfree =>
    have hkept : ∀ e ∈ w.inbox.pop?.1.toList.map NodeEvent.returned,
        e.isEnabling = false ∧ e.opened? = none := by
      intro e he
      obtain ⟨f, -, rfl⟩ := List.mem_map.mp he
      exact ⟨rfl, rfl⟩
    rw [socket?_kept hkept] at hs
    exact t.served_kept sv l hf hchange hs ho hst rfl rfl
  | enabling =>
    have hnone : socket? (h ++ [.enabling]) = none := by
      rw [socket?, current_snoc]
      rfl
    rw [hnone] at hs
    cases hs
  | closing hfree =>
    rw [List.append_nil] at hs
    exact t.served_kept sv l hf hchange hs ho (by rw [hfree]; rintro ⟨⟩) rfl rfl
  | closed hclosing hop =>
    have hnone := (sv.sound.closed hop).1
    rw [Session.isOpen, hnone] at ho
    cases ho
  | joined hj => exact (hshut (by rw [hj]; rfl) rfl).elim
  | tuned res =>
    rw [Session.isOpen, Session.channel_retuned] at ho
    cases ho
  | cleared hclearing => exact (hshut (by rw [hclearing]; rfl) rfl).elim
  | opened => exact absurd rfl hst
  | refused hopening => exact (hshut (by rw [hopening]; rfl) rfl).elim
  | spawned hspawning =>
    rw [List.append_nil] at hs ⊢
    refine ⟨w.loops.length, .starting, rfl, ?_, ?_, ?_, ?_⟩
    · rw [List.length_append]
      rfl
    · rw [List.getElem?_append_right (Nat.le_refl _), Nat.sub_self]
      rfl
    · rintro ⟨⟩
    · exact fun _ => t.unread hspawning c hs
  | turned hr ht =>
    rw [socket?_kept (drained_kept _ _)] at hs
    have ho' : w.session.isOpen = true := by
      dsimp only at ho
      rwa [ht.session] at ho
    exact t.served_kept sv l hf hchange hs ho' hst rfl (List.length_set ..)

theorem step (t : Attended w h fails) (sv : Supervised w) (l : Ledger w h) (a : NodeAction) :
    Attended (w.step a) (h ++ w.seen a) (fails ++ w.failedStart a) where
  failed _ hi := t.failed_step sv a hi
  unread hst _ hs := t.unread_change sv l (sv.step_change a) hst hs
  served _ hs ho hst := t.served_change sv l (w.step_fates a) (sv.step_change a) hs ho hst

end Attended

namespace NodeWorld

variable {w : NodeWorld}

theorem attended_run {h : List NodeEvent} {fails : List Nat} (sv : Supervised w) (l : Ledger w h)
    (t : Attended w h fails) (as : List NodeAction) :
    Attended (w.run as) (h ++ w.history as) (fails ++ w.failedStarts as) := by
  induction as generalizing w h fails with
  | nil =>
    rw [history, failedStarts, List.append_nil, List.append_nil]
    exact t
  | cons a as ih =>
    rw [history, failedStarts, ← List.append_assoc, ← List.append_assoc]
    exact ih (sv.step a) (l.change sv (sv.step_change a)) (t.step sv l a)

/-- A loop that finds no way to wait when it starts is lost for good, though the enabling succeeded:
nothing is ever read from the open socket. -/
theorem loop_lost_iff_start_failed (name : String) (settings : Settings) (controller : Controller)
    (k : Kernel) (as₀ : List Action) (as : List NodeAction) (c : Handle) :
    let before := (World.start name settings controller k).run as₀
    let w := start before.session before.kernel
    let now := w.run as
    let h := w.history as
    NodeEvent.socket? h = some c → now.session.isOpen = true → now.stage ≠ .spawning →
    ∃ i r, now.handle = some i ∧ i + 1 = now.loops.length ∧ now.loops[i]? = some r ∧
      (r.canRead = false ↔ i ∈ w.failedStarts as) ∧
      (r.canRead = false → r = .ended false ∧ drainedFrom c h = [] ∧ reads h = [] ∧
        now.inbox = [] ∧ ∀ bs, (now.run bs).Silent i) := by
  intro before w now h hc ho hst
  have hs : World.Sound before.session before.kernel :=
    World.sound_run (World.sound_start name settings controller k) as₀
  have sv₀ : Supervised w := .start hs
  have sv : Supervised now := sv₀.run as
  have l : Ledger now h := ledger_run sv₀ (.start _ _) as
  have t : Attended now h (w.failedStarts as) := attended_run sv₀ (.start _ _) (.start _ _) as
  obtain ⟨i, r, hi, hlast, hr, hend, hdrained⟩ := t.served c hc ho hst
  have hfailed (hm : i ∈ w.failedStarts as) : r = .ended false := by
    have hended := t.failed i hm
    rw [hr] at hended
    exact Option.some.inj hended
  refine ⟨i, r, hi, hlast, hr, ⟨hend, fun hm => by rw [hfailed hm]; rfl⟩, fun hx => ?_⟩
  have hm := hend hx
  have hnone : drainedFrom c h = [] := hdrained (.inr hm)
  have hbalanced := (l.balanced c hc).1
  rw [hnone] at hbalanced
  obtain ⟨hreads, hinbox⟩ := List.append_eq_nil_iff.mp hbalanced
  exact ⟨hfailed hm, hnone, hreads, hinbox,
    fun bs => silent_of_ended (ended_run sv (t.failed i hm) bs)⟩

/-- The node is enabled while no descriptor is left for the wait. -/
theorem loop_lost_without_descriptors :
    let k : Kernel :=
      { interfaces := [("can0", 3)], script := override (fun _ => []) .epollCreate [24] }
    let before := World.start "can0" Settings.standard .table k
    let w := start before.session before.kernel
    let as : List NodeAction := [.call (.enable 250000), .proceed, .proceed, .proceed, .proceed,
      .proceed, .proceed, .loop 0]
    let now := w.run as
    (NodeEvent.socket? (w.history as) = some 0 ∧ now.session.isOpen = true ∧
      now.stage ≠ .spawning) ∧
    now.loops = [.ended false] ∧ reads (w.history as) = [] ∧
    ∀ bs, (now.run bs).Silent 0 := by
  intro k before w as now
  have hc : NodeEvent.socket? (w.history as) = some 0 := by decide
  have ho : now.session.isOpen = true := by decide
  have hst : now.stage ≠ .spawning := by decide
  have hl : now.loops = [.ended false] := by decide
  obtain ⟨i, r, -, hlast, hr, -, hlost⟩ :=
    loop_lost_iff_start_failed "can0" Settings.standard .table k [] as 0 hc ho hst
  have hi : i = 0 := by
    have hlength : i + 1 = now.loops.length := hlast
    rw [hl] at hlength
    exact Nat.succ.inj hlength
  have hended : r = .ended false := by
    have hget : now.loops[i]? = some r := hr
    rw [hi, hl] at hget
    exact (Option.some.inj hget).symm
  obtain ⟨-, -, hreads, -, hsilent⟩ := hlost (by rw [hended]; rfl)
  exact ⟨⟨hc, ho, hst⟩, hl, hreads, hi ▸ hsilent⟩

/-- Enabling succeeds, the loop ends for lack of a descriptor, and the frame that comes in
then stays where it is. -/
theorem enabled_without_reader :
    let frame : Datagram := [0x23, 0x01, 0, 0, 1, 0, 0, 0, 0x0A, 0, 0, 0, 0, 0, 0, 0]
    let k : Kernel :=
      { interfaces := [("can0", 3)], script := override (fun _ => []) .epollCreate [24] }
    let n := Node.ofSession (Session.create "can0" Settings.standard .table 0)
    let enabled := ((Node.enable 250000).run n).run k
    let settled := (Node.settle.run enabled.1.2).run enabled.2
    let arrived := settled.2.deliver frame
    let later := ((do Node.settle; Node.read).run settled.1.2).run arrived.2
    enabled.1.1 = .ok () ∧ settled.1.2.session.isOpen = true ∧
      settled.1.2.reader = some (.ended false) ∧ arrived.1 = true ∧
      later.1.1 = none ∧ later.2.inbox 0 = [frame] := by
  intro frame k n enabled settled arrived later
  have hanswer : enabled.1.1 = .ok () := by
    have hok : enabled.1.1.toBool = true := by decide +kernel
    cases h : enabled.1.1 with
    | ok _ => rfl
    | error _ =>
      rw [h] at hok
      cases hok
  exact ⟨hanswer, by decide +kernel, by decide +kernel, by decide +kernel, by decide +kernel,
    by decide +kernel⟩

end NodeWorld

end CanBus
