import CanBus.Proofs.Node.Calls

/-!
The inbox of a node over restarts. `Ledger` balances it: what was read since the last enabling,
together with what is still in the inbox, are the data frames drained from the socket that this
enabling has opened. A stale frame can only come in before the inbox is emptied, since the loop
before has ended by then.
-/

namespace CanBus

open Kernel

namespace NodeEvent

def isEnabling : NodeEvent → Bool
  | .enabling => true
  | _ => false

def opened? : NodeEvent → Option Handle
  | .opened c => some c
  | _ => none

def drained? (c : Handle) : NodeEvent → Option Datagram
  | .drained c' d => if c' = c then some d else none
  | _ => none

def returned? : NodeEvent → Option Frame
  | .returned f => some f
  | _ => none

/-- What was seen since the last enabling, in order; everything if there was none. -/
def current (h : List NodeEvent) : List NodeEvent :=
  (h.reverse.takeWhile fun e => !e.isEnabling).reverse

/-- The socket that the last enabling has opened. -/
def socket? (h : List NodeEvent) : Option Handle := (current h).findSome? opened?

/-- The frames that were returned since the last enabling. -/
def reads (h : List NodeEvent) : List Frame := (current h).filterMap returned?

/-- All that was ever taken off the queue of a socket. -/
def drainedFrom (c : Handle) (h : List NodeEvent) : List Datagram := h.filterMap (drained? c)

theorem current_snoc (h : List NodeEvent) (e : NodeEvent) :
    current (h ++ [e]) = if e.isEnabling then [] else current h ++ [e] := by
  cases he : e.isEnabling <;> simp [current, he]

theorem socket?_snoc (h : List NodeEvent) {e : NodeEvent} (he : e.isEnabling = false) :
    socket? (h ++ [e]) = (socket? h).or e.opened? := by
  rw [socket?, current_snoc, he, if_neg Bool.false_ne_true, List.findSome?_append]
  cases e <;> rfl

theorem reads_snoc (h : List NodeEvent) {e : NodeEvent} (he : e.isEnabling = false) :
    reads (h ++ [e]) = reads h ++ e.returned?.toList := by
  rw [reads, current_snoc, he, if_neg Bool.false_ne_true, List.filterMap_append]
  cases e <;> rfl

theorem opened_snoc (h : List NodeEvent) (e : NodeEvent) :
    (h ++ [e]).filterMap opened? = h.filterMap opened? ++ e.opened?.toList := by
  rw [List.filterMap_append, List.filterMap_cons, List.filterMap_nil]
  cases e.opened? <;> rfl

theorem opened_kept (h : List NodeEvent) {e : NodeEvent} (he : e.opened? = none) :
    (h ++ [e]).filterMap opened? = h.filterMap opened? := by
  rw [opened_snoc, he]
  exact List.append_nil _

theorem drainedFrom_snoc (c : Handle) (h : List NodeEvent) (e : NodeEvent) :
    drainedFrom c (h ++ [e]) = drainedFrom c h ++ (e.drained? c).toList := by
  rw [drainedFrom, List.filterMap_append, List.filterMap_cons, List.filterMap_nil]
  cases e.drained? c <;> rfl

end NodeEvent

open NodeEvent

/-- An `enable` is under way that has not emptied the inbox yet. -/
def Stage.isStale : Stage → Bool
  | .closing (some _) | .joining (some _) | .tuning _ | .clearing => true
  | _ => false

/-- What was seen of a node, balanced against its inbox and its sockets. -/
structure Ledger (w : NodeWorld) (h : List NodeEvent) : Prop where
  openedBelow : ∀ c ∈ h.filterMap opened?, c < w.kernel.opened
  distinct : (h.filterMap opened?).Nodup
  drainedBelow : ∀ c, w.kernel.opened ≤ c → drainedFrom c h = []
  /-- Nothing was opened: nothing comes in that could be returned. -/
  unopened : socket? h = none →
    reads h = [] ∧ w.stage ≠ .spawning ∧
      (w.stage.isStale = false → w.inbox = [] ∧ ∀ r ∈ w.loops, r.canRead = false)
  balanced : ∀ c, socket? h = some c →
    reads h ++ w.inbox = Datagram.frames (drainedFrom c h) ∧
      w.stage.isStale = false ∧ w.stage ≠ .opening
  /-- No loop reads from another socket. -/
  faithful : ∀ c, socket? h = some c →
    (∀ s, w.session.channel = some s → s.handle = c) ∧
      ∀ r ∈ w.loops, ∀ s, r.socket? = some s → s.handle = c

namespace Ledger

variable {w w' : NodeWorld} {h : List NodeEvent} {es : List NodeEvent}

theorem start (s : Session) (k : Kernel) : Ledger (NodeWorld.start s k) [] :=
  ⟨nofun, List.nodup_nil, fun _ _ => rfl, fun _ => ⟨rfl, nofun, fun _ => ⟨rfl, nofun⟩⟩,
    nofun, nofun⟩

/-- Nothing is seen, and the inbox and the loops stay as they are. -/
theorem of_same (l : Ledger w h)
    (hc : ∀ s, w'.session.channel = some s → w.session.channel = some s)
    (ho : w.kernel.opened ≤ w'.kernel.opened) (hi : w'.inbox = w.inbox) (hl : w'.loops = w.loops)
    (hst : w'.stage.isStale = w.stage.isStale)
    (hsp : w'.stage = .spawning → w.stage = .spawning)
    (hop : w'.stage = .opening → w.stage = .opening) : Ledger w' h where
  openedBelow c hc := Nat.lt_of_lt_of_le (l.openedBelow c hc) ho
  distinct := l.distinct
  drainedBelow c hc := l.drainedBelow c (Nat.le_trans ho hc)
  unopened hn := by
    obtain ⟨hr, hne, hq⟩ := l.unopened hn
    rw [hst, hi, hl]
    exact ⟨hr, fun hx => hne (hsp hx), hq⟩
  balanced c hs := by
    obtain ⟨hb, hstale, hopen⟩ := l.balanced c hs
    rw [hst, hi]
    exact ⟨hb, hstale, fun hx => hopen (hop hx)⟩
  faithful c hs := by
    obtain ⟨hch, hloops⟩ := l.faithful c hs
    rw [hl]
    exact ⟨fun s hx => hch s (hc s hx), hloops⟩

/-- While the inbox may hold stale frames, nothing has been opened. -/
theorem socket?_of_stale (l : Ledger w h) (hst : w.stage.isStale = true) : socket? h = none := by
  cases hs : socket? h with
  | none => rfl
  | some c =>
    have := (l.balanced c hs).2.1
    rw [hst] at this
    cases this

/-- From one stale stage to the next, and to the point where the inbox is empty. -/
theorem of_stale (l : Ledger w h) (hst : w.stage.isStale = true)
    (hk : w'.kernel.opened = w.kernel.opened) (hsp : w'.stage ≠ .spawning)
    (hq : w'.stage.isStale = false → w'.inbox = [] ∧ ∀ r ∈ w'.loops, r.canRead = false) :
    Ledger w' h := by
  have hnone := l.socket?_of_stale hst
  refine ⟨hk ▸ l.openedBelow, l.distinct, hk ▸ l.drainedBelow, ?_, ?_, ?_⟩
  · intro hn
    exact ⟨(l.unopened hn).1, hsp, hq⟩
  · intro c hs
    rw [hnone] at hs
    cases hs
  · intro c hs
    rw [hnone] at hs
    cases hs

theorem enabling (l : Ledger w h) (b : UInt32) :
    Ledger { w with stage := .closing (some b) } (h ++ [.enabling]) := by
  have hcur : current (h ++ [.enabling]) = [] := by
    rw [current_snoc]
    rfl
  have hnone : socket? (h ++ [.enabling]) = none := by rw [socket?, hcur]; rfl
  refine ⟨?_, ?_, ?_, ?_, ?_, ?_⟩
  · rw [opened_kept h rfl]
    exact l.openedBelow
  · rw [opened_kept h rfl]
    exact l.distinct
  · intro c hc
    rw [drainedFrom_snoc, l.drainedBelow c hc]
    rfl
  · intro _
    refine ⟨?_, nofun, nofun⟩
    rw [reads, hcur]
    rfl
  · intro c hs
    rw [hnone] at hs
    cases hs
  · intro c hs
    rw [hnone] at hs
    cases hs

theorem opened (l : Ledger w h) (sv : Supervised w) (hst : w.stage = .opening) {s' : Session}
    {k' : Kernel} (hs' : ∀ s, s'.channel = some s → s.handle = w.kernel.opened)
    (ho : k'.opened = w.kernel.opened + 1) :
    Ledger { w with session := s', kernel := k', stage := .spawning }
      (h ++ [.opened w.kernel.opened]) := by
  have hnone : socket? h = none := by
    cases hs : socket? h with
    | none => rfl
    | some c => exact absurd hst (l.balanced c hs).2.2
  have hhandle : w.handle = none := sv.joined (by rw [hst]; rfl)
  obtain ⟨hr, -, hq⟩ := l.unopened hnone
  have hi : w.inbox = [] := (hq (by rw [hst]; rfl)).1
  have hsock : socket? (h ++ [.opened w.kernel.opened]) = some w.kernel.opened := by
    rw [socket?_snoc h rfl, hnone]
    rfl
  refine ⟨?_, ?_, ?_, ?_, ?_, ?_⟩
  · intro c hc
    rw [opened_snoc] at hc
    dsimp only
    rw [ho]
    rcases List.mem_append.mp hc with hc | hc
    · exact Nat.lt_succ_of_lt (l.openedBelow c hc)
    · rw [List.mem_singleton.mp hc]
      exact Nat.lt_succ_self _
  · rw [opened_snoc]
    refine List.nodup_append.mpr
      ⟨l.distinct, List.nodup_cons.mpr ⟨List.not_mem_nil, List.nodup_nil⟩, ?_⟩
    intro a ha b hb hab
    have hlt := l.openedBelow a ha
    rw [hab, List.mem_singleton.mp hb] at hlt
    exact Nat.lt_irrefl _ hlt
  · intro c hc
    dsimp only at hc
    rw [drainedFrom_snoc, l.drainedBelow c (by omega)]
    rfl
  · intro hn
    rw [hsock] at hn
    cases hn
  · intro c hs
    rw [hsock] at hs
    cases hs
    refine ⟨?_, rfl, nofun⟩
    rw [reads_snoc h rfl, hr, drainedFrom_snoc, l.drainedBelow _ (Nat.le_refl _)]
    exact hi
  · intro c hs
    rw [hsock] at hs
    cases hs
    exact ⟨hs', fun r hr s hx => (sv.unheld hhandle hr hx).elim⟩

theorem popped (l : Ledger w h) (hf : w.stage = .free) :
    Ledger { w with inbox := w.inbox.pop?.2 } (h ++ w.inbox.pop?.1.toList.map .returned) := by
  cases hi : w.inbox with
  | nil =>
    rw [show (Inbox.pop? []).1.toList.map NodeEvent.returned = [] from rfl, List.append_nil]
    exact l.of_same (fun _ hx => hx) (Nat.le_refl _) hi.symm rfl rfl id id
  | cons f q =>
    have hsock : socket? (h ++ [.returned f]) = socket? h := by
      rw [socket?_snoc h rfl]
      exact Option.or_none
    show Ledger { w with inbox := q } (h ++ [.returned f])
    refine ⟨?_, ?_, ?_, ?_, ?_, ?_⟩
    · rw [opened_kept h rfl]
      exact l.openedBelow
    · rw [opened_kept h rfl]
      exact l.distinct
    · intro c hc
      rw [drainedFrom_snoc, l.drainedBelow c hc]
      rfl
    · intro hn
      rw [hsock] at hn
      have := ((l.unopened hn).2.2 (by rw [hf]; rfl)).1
      rw [hi] at this
      cases this
    · intro c hs
      rw [hsock] at hs
      obtain ⟨hb, hst⟩ := l.balanced c hs
      refine ⟨?_, hst⟩
      rw [reads_snoc h rfl, drainedFrom_snoc, List.append_assoc]
      rw [hi] at hb
      rw [show (NodeEvent.drained? c (.returned f)).toList = [] from rfl, List.append_nil]
      exact hb
    · intro c hs
      rw [hsock] at hs
      exact l.faithful c hs

theorem spawned (l : Ledger w h) (hst : w.stage = .spawning) :
    Ledger { w with
      loops := w.loops ++ [.starting], handle := some w.loops.length, stage := .free } h where
  openedBelow := l.openedBelow
  distinct := l.distinct
  drainedBelow := l.drainedBelow
  unopened hn := absurd hst (l.unopened hn).2.1
  balanced c hs := ⟨(l.balanced c hs).1, rfl, nofun⟩
  faithful c hs := by
    obtain ⟨hch, hloops⟩ := l.faithful c hs
    refine ⟨hch, fun r hr s hx => ?_⟩
    rcases List.mem_append.mp hr with hr | hr
    · exact hloops r hr s hx
    · rw [List.mem_singleton.mp hr] at hx
      cases hx

section Turn

variable {i : Nat} {r r' : Reader} {fs : List Frame} {s' : Session} {k' : Kernel}

theorem quiet_set (ht : r.Turned w.session w.kernel r' fs s' k') (hr : w.loops[i]? = some r)
    (hq : ∀ x ∈ w.loops, x.canRead = false) :
    ∀ x ∈ w.loops.set i r', x.canRead = false := by
  intro x hx
  rcases List.mem_or_eq_of_mem_set hx with hx | rfl
  · exact hq x hx
  · have hcan := hq r (List.mem_of_getElem? hr)
    exact Bool.eq_false_iff.mpr fun h => Bool.eq_false_iff.mp hcan (ht.canRead h)

theorem faithful_set (l : Ledger w h) (ht : r.Turned w.session w.kernel r' fs s' k')
    (hr : w.loops[i]? = some r) {c : Handle} (hs : NodeEvent.socket? h = some c) :
    (∀ s, s'.channel = some s → s.handle = c) ∧
      ∀ x ∈ w.loops.set i r', ∀ s, x.socket? = some s → s.handle = c := by
  obtain ⟨hch, hloops⟩ := l.faithful c hs
  have hsame : s'.channel = w.session.channel := by
    rw [ht.session]
    rfl
  refine ⟨fun s hx => hch s (hsame ▸ hx), fun x hx s hxs => ?_⟩
  rcases List.mem_or_eq_of_mem_set hx with hx | rfl
  · exact hloops x hx s hxs
  · rcases ht.socket s hxs with hrs | ⟨-, hrs⟩
    · exact hloops r (List.mem_of_getElem? hr) s hrs
    · exact hch s hrs

/-- A turn that reads nothing. -/
theorem turned_silent (l : Ledger w h) (ht : r.Turned w.session w.kernel r' [] s' k')
    (hr : w.loops[i]? = some r) :
    Ledger { w with session := s', inbox := w.inbox ++ [], kernel := k', loops := w.loops.set i r' }
      h where
  openedBelow c hc := by
    dsimp only
    rw [ht.handles.opened]
    exact l.openedBelow c hc
  distinct := l.distinct
  drainedBelow c hc := by
    dsimp only at hc
    rw [ht.handles.opened] at hc
    exact l.drainedBelow c hc
  unopened hn := by
    obtain ⟨hreads, hsp, hq⟩ := l.unopened hn
    refine ⟨hreads, hsp, fun hst => ?_⟩
    obtain ⟨hi, hloops⟩ := hq hst
    exact ⟨(List.append_nil _).trans hi, quiet_set ht hr hloops⟩
  balanced c hs := by
    dsimp only
    rw [List.append_nil]
    exact l.balanced c hs
  faithful c hs := l.faithful_set ht hr hs

/-- A turn that takes a datagram: whatever it holds for the reader goes to the end of the inbox. -/
theorem turned_drained (l : Ledger w h) (sv : Supervised w) {c : Socket} {d : Datagram}
    (hc : r.socket? = some c) (ht : r.Turned w.session w.kernel r' (Datagram.frames [d]) s' k')
    (hr : w.loops[i]? = some r) :
    Ledger
      { w with
        session := s', inbox := w.inbox ++ Datagram.frames [d], kernel := k'
        loops := w.loops.set i r' }
      (h ++ [.drained c.handle d]) := by
  have hmem : r ∈ w.loops := List.mem_of_getElem? hr
  have hbelow : c.handle < w.kernel.opened := by
    rcases sv.held r hmem c hc with hch | ⟨hst, -⟩
    · exact sv.sound.handedOut c hch
    · exact sv.sound.stopped _ hst
  have hsock : NodeEvent.socket? (h ++ [.drained c.handle d]) = NodeEvent.socket? h := by
    rw [socket?_snoc h rfl]
    exact Option.or_none
  have hreads : reads (h ++ [.drained c.handle d]) = reads h := by
    rw [reads_snoc h rfl]
    exact List.append_nil _
  refine ⟨?_, ?_, ?_, ?_, ?_, ?_⟩
  · rw [opened_kept h rfl]
    dsimp only
    rw [ht.handles.opened]
    exact l.openedBelow
  · rw [opened_kept h rfl]
    exact l.distinct
  · intro c' hc'
    dsimp only at hc'
    rw [ht.handles.opened] at hc'
    have hne : c.handle ≠ c' := Nat.ne_of_lt (Nat.lt_of_lt_of_le hbelow hc')
    rw [drainedFrom_snoc, l.drainedBelow c' hc', NodeEvent.drained?, if_neg hne]
    rfl
  · intro hn
    rw [hsock] at hn
    obtain ⟨hreads', hsp, hq⟩ := l.unopened hn
    rw [hreads]
    refine ⟨hreads', hsp, fun hst => ?_⟩
    have := (hq hst).2 r hmem
    rw [Reader.canRead_of_socket hc] at this
    cases this
  · intro c' hs
    rw [hsock] at hs
    obtain ⟨hb, hst⟩ := l.balanced c' hs
    have hcc : c.handle = c' := (l.faithful c' hs).2 r hmem c hc
    refine ⟨?_, hst⟩
    dsimp only
    rw [hreads, ← List.append_assoc, hb, drainedFrom_snoc, NodeEvent.drained?, if_pos hcc,
      Option.toList_some, Datagram.frames_append]
  · intro c' hs
    rw [hsock] at hs
    exact l.faithful_set ht hr hs

end Turn

theorem turned (l : Ledger w h) (sv : Supervised w) {i : Nat} {r r' : Reader} {fs : List Frame}
    {s' : Session} {k' : Kernel} (hr : w.loops[i]? = some r)
    (ht : r.Turned w.session w.kernel r' fs s' k') :
    Ledger
      { w with session := s', inbox := w.inbox ++ fs, kernel := k', loops := w.loops.set i r' }
      (h ++ (r.socket?.bind fun c =>
        (Kernel.taken? c.handle w.kernel k').map fun d => .drained c.handle d).toList) := by
  obtain ⟨d?, hfs, hd⟩ := ht.read
  subst hfs
  cases hc : r.socket? with
  | none =>
    rw [hc] at hd
    obtain ⟨rfl, -⟩ := hd
    show Ledger _ (h ++ [])
    rw [List.append_nil]
    exact l.turned_silent ht hr
  | some c =>
    rw [hc] at hd
    have htaken : Kernel.taken? c.handle w.kernel k' = d? := Session.Took.taken? hd
    rw [Option.bind_some, htaken]
    cases d? with
    | none =>
      show Ledger _ (h ++ [])
      rw [List.append_nil]
      exact l.turned_silent ht hr
    | some d => exact l.turned_drained sv hc ht hr

theorem change (l : Ledger w h) (sv : Supervised w) (hc : NodeChange w es w') :
    Ledger w' (h ++ es) := by
  cases hc with
  | nothing => exact (List.append_nil h).symm ▸ l
  | aside hs hk =>
    rw [List.append_nil]
    refine l.of_same (fun s hx => ?_) (Nat.le_of_eq hk.opened.symm) rfl rfl rfl id id
    rw [hs] at hx
    exact hx
  | popped hf => exact l.popped hf
  | enabling b => exact l.enabling b
  | closing hf =>
    rw [List.append_nil]
    exact l.of_same (fun _ hx => hx) (Nat.le_refl _) rfl rfl (by rw [hf]; rfl) nofun nofun
  | @closed b k' hst ho ha =>
    have hnone : w.session.closed.channel = none := (sv.sound.closed ho).1
    rw [List.append_nil]
    refine l.of_same (fun s hx => ?_) (Nat.le_of_eq ho.symm) rfl rfl ?_ nofun nofun
    · rw [hnone] at hx
      cases hx
    · rw [hst]
      cases b <;> rfl
  | @joined b hst hj =>
    rw [List.append_nil]
    refine l.of_same (fun _ hx => hx) (Nat.le_refl _) rfl rfl ?_ ?_ ?_
    · rw [hst]
      cases b <;> rfl
    · cases b <;> nofun
    · cases b <;> nofun
  | tuned r hst ho =>
    rw [List.append_nil]
    exact l.of_stale (by rw [hst]; rfl) ho nofun nofun
  | cleared hst =>
    have hhandle : w.handle = none := sv.joined (by rw [hst]; rfl)
    rw [List.append_nil]
    exact l.of_stale (by rw [hst]; rfl) rfl nofun fun _ =>
      ⟨rfl, fun r hr => sv.quiet hhandle hr⟩
  | opened hst hc ho ha =>
    refine l.opened sv hst ?_ ho
    rintro s ⟨⟩
    rfl
  | refused hst hc hk =>
    rw [List.append_nil]
    exact l.of_same (fun _ hx => hx) hk.opened rfl rfl (by rw [hst]; rfl) nofun nofun
  | spawned hst =>
    rw [List.append_nil]
    exact l.spawned hst
  | turned hr ht => exact l.turned sv hr ht

end Ledger

/-! ## Loops that have ended -/

namespace NodeWorld

/-- The loop can still read. -/
def Active (w : NodeWorld) (i : Nat) : Prop := ∃ r, w.loops[i]? = some r ∧ r.canRead = true

/-- A step of the loop does nothing to the session, the inbox and the queues. -/
def Silent (w : NodeWorld) (i : Nat) : Prop :=
  (w.step (.loop i)).session = w.session ∧ (w.step (.loop i)).inbox = w.inbox ∧
    (w.step (.loop i)).kernel.inbox = w.kernel.inbox ∧ w.seen (.loop i) = []

variable {w w' : NodeWorld} {i : Nat} {ran : Bool}

theorem silent_of_ended (h : w.loops[i]? = some (.ended ran)) : w.Silent i := by
  obtain ⟨more, r', fs, s', k', hrun, ht, -⟩ :=
    Node.readerStep_turned { w.node with reader := some (.ended ran) } w.kernel rfl
  obtain ⟨d?, hfs, hd, hs, hi⟩ := ht.read
  have hfs : fs = [] := by
    rw [hfs, hd]
    rfl
  have hturn : w.turn i = { w with
      session := s', inbox := w.inbox ++ fs, kernel := k', loops := w.loops.set i r' } := by
    simp only [turn, h, hrun]
    rfl
  have hseen : w.seen (.loop i) = [] := by
    rw [seen, source?, h]
    rfl
  refine ⟨?_, ?_, ?_, hseen⟩
  · show (w.turn i).session = _
    rw [hturn]
    exact hs
  · show (w.turn i).inbox = _
    rw [hturn, hfs]
    exact List.append_nil _
  · show (w.turn i).kernel.inbox = _
    rw [hturn]
    exact hi

theorem ended_change {es : List NodeEvent} (hc : NodeChange w es w')
    (h : w.loops[i]? = some (.ended ran)) : w'.loops[i]? = some (.ended ran) := by
  have hi := (List.getElem?_eq_some_iff.mp h).1
  cases hc with
  | spawned => exact (List.getElem?_append_left hi).trans h
  | @turned j r r' fs s' k' hr ht =>
    dsimp only
    by_cases hij : j = i
    · subst hij
      rw [h] at hr
      cases hr
      rw [List.getElem?_set_self hi, ht.ended ran rfl]
    · rw [List.getElem?_set_ne hij]
      exact h
  | _ => exact h

theorem ended_run (sv : Supervised w) (h : w.loops[i]? = some (.ended ran)) (as : List NodeAction) :
    (w.run as).loops[i]? = some (.ended ran) := by
  induction as generalizing w with
  | nil => exact h
  | cons a as ih => exact ih (sv.step a) (ended_change (sv.step_change a) h)

/-- Once the join is over, no loop does anything any more. -/
theorem silent_of_joined (sv : Supervised w) (hh : w.handle = none) (hi : i < w.loops.length)
    (as : List NodeAction) : (w.run as).Silent i := by
  have hr : w.loops[i]? = some w.loops[i] := List.getElem?_eq_getElem hi
  have hq := sv.quiet hh (List.mem_of_getElem? hr)
  cases he : w.loops[i] with
  | ended ran =>
    rw [he] at hr
    exact silent_of_ended (ended_run sv hr as)
  | starting | running =>
    rw [he] at hq
    cases hq

theorem ledger_run {h : List NodeEvent} (sv : Supervised w) (l : Ledger w h)
    (as : List NodeAction) :
    Ledger (w.run as) (h ++ w.history as) := by
  induction as generalizing w h with
  | nil =>
    rw [history, List.append_nil]
    exact l
  | cons a as ih =>
    rw [history, ← List.append_assoc]
    exact ih (sv.step a) (l.change sv (sv.step_change a))

/-- What is read and what is still in the inbox are the data frames from the socket of the last
enabling and no other, since a loop that was waited for does nothing any more. -/
theorem inbox_over_restarts (name : String) (settings : Settings) (controller : Controller)
    (k : Kernel) (as₀ : List Action) (as : List NodeAction) :
    let before := (World.start name settings controller k).run as₀
    let w := start before.session before.kernel
    let now := w.run as
    let h := w.history as
    (NodeEvent.socket? h = none → reads h = []) ∧
    (∀ c, NodeEvent.socket? h = some c →
      reads h ++ now.inbox = Datagram.frames (drainedFrom c h)) ∧
    (h.filterMap opened?).Nodup ∧
    (∀ i j, now.Active i → now.Active j → i = j) ∧
    (∀ b, now.stage = .joining b → now.proceed.stage ≠ .joining b →
      ∀ i < now.loops.length, ∀ bs, (now.proceed.run bs).Silent i) ∧
    (now.stage = .free → ∀ c : NodeCall, ∃ bs answer,
      (∀ x ∈ bs, x = .proceed ∨ ∃ i, x = .loop i) ∧
      let later := now.run (.call c :: bs)
      later.stage = .free ∧
      (c.perform.run now.node).run now.kernel = ((answer, later.node), later.kernel) ∧
      c.Answered answer (now.history (.call c :: bs))) := by
  intro before w now h
  have hs : World.Sound before.session before.kernel :=
    World.sound_run (World.sound_start name settings controller k) as₀
  have sv₀ : Supervised w := .start hs
  have sv : Supervised now := sv₀.run as
  have l : Ledger now h := ledger_run sv₀ (.start _ _) as
  refine ⟨fun hn => (l.unopened hn).1, fun c hc => (l.balanced c hc).1, l.distinct, ?_, ?_,
    fun hf c => call_run sv hf c⟩
  · rintro i j ⟨r, hr, hcan⟩ ⟨r', hr', hcan'⟩
    have hi := sv.alone i r hr hcan
    rw [sv.alone j r' hr' hcan'] at hi
    exact (Option.some.inj hi).symm
  · intro b hst hleft i hi bs
    have sv' : Supervised now.proceed := sv.step .proceed
    have hproceed : now.proceed =
        if now.joinable then { now with handle := none, stage := b.elim .free .tuning }
        else now := by
      rw [proceed, hst]
    have hj : now.joinable = true := by
      cases hj : now.joinable with
      | true => rfl
      | false =>
        rw [hproceed, hj] at hleft
        exact absurd hst hleft
    rw [hj, if_pos rfl] at hproceed
    refine silent_of_joined sv' ?_ ?_ bs
    · rw [hproceed]
    · rw [hproceed]
      exact hi

-- The frame of the first socket is still in the inbox when the node is enabled again.
example :
    let frame (n : UInt8) : WireFrame := ⟨⟨n.toUInt32⟩, 1, Payload.ofList [n]⟩
    let arriving (n : UInt8) : Kernel :=
      { interfaces := [("can0", 3)], waiting := [(frame n).bytes] }
    let session := Session.create "can0" Settings.standard .table 0
    let enable (b : UInt32) : List NodeAction :=
      [.call (.enable b), .proceed, .loop 0, .loop 0, .proceed, .proceed, .proceed, .proceed,
        .proceed]
    let reading (i : Nat) : List NodeAction := [.loop i, .loop i, .loop i, .loop i]
    (start session (arriving 1)).history
        (enable 500000 ++ reading 0 ++ [.elsewhere (arriving 2)] ++ enable 250000 ++ reading 1 ++
          [.call .read, .call .read]) =
      [.enabling, .opened 0, .drained 0 (frame 1).bytes,
        .enabling, .opened 1, .drained 1 (frame 2).bytes,
        .returned ⟨.standard 2, 1, Payload.ofList [2]⟩] := by
  decide

end NodeWorld

end CanBus
