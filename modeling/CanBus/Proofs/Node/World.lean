import CanBus.Proofs.Node.Effect

/-!
A node over any history. Its longer calls are taken apart: between closing the session, waiting for
the loop, changing the bitrate, emptying the inbox, opening and starting the next loop, every loop
that was ever started may take a step, and anything may happen in the kernel. `NodeChange` says
once what an action can do.
-/

namespace CanBus

open Kernel

/-! ## Calls and their parts -/

/-- What the owner of a node can ask of it. -/
inductive NodeCall
  | enable (bitrate : UInt32)
  | close
  | send (f : Frame)
  | reset
  | read

/-- A whole call, with its answer: a frame, if there is one. -/
def NodeCall.perform : NodeCall → NodeM (Except Failure (Option Frame))
  | .enable b => do return (← Node.enable b).map fun _ => none
  | .close => do
    Node.stop
    return .ok none
  | .send f => do return (← Node.send f).map fun _ => none
  | .reset => do
    Node.reset
    return .ok none
  | .read => do return .ok (← Node.read)

namespace Node

/-- The part of `enable` that changes the bitrate. -/
def retune (bitrate : UInt32) : NodeM Unit := do
  if ← onSession (Session.setBitrate bitrate) then
    onSession (Session.log .info s!"bitrate changed to {bitrate}")
  else
    let current := (← get).session.bitrate
    onSession (Session.log .warn s!"bitrate not changed, still {current}")

/-- The part of `enable` that opens the session. -/
def reopen : NodeM (Except Failure Unit) := onSession Session.tryOpen

/-- Starts the next loop if the session could be opened. -/
def launch : Except Failure Unit → NodeM (Except Failure Unit)
  | .error f => return .error f
  | .ok () => do
    modify fun n => { n with reader := some .starting }
    return .ok ()

theorem enable_eq (bitrate : UInt32) :
    enable bitrate = (do
      stop
      retune bitrate
      clearInbox
      launch (← reopen)) := by
  unfold enable retune reopen clearInbox launch
  simp only [bind_assoc]
  refine bind_congr fun _ => bind_congr fun changed => ?_
  cases changed with
  | true => rfl
  | false => exact (bind_assoc _ _ _).symm

theorem retune_effect (n : Node) (k : Kernel) (bitrate : UInt32) :
    ∃ r k', ((retune bitrate).run n).run k =
        (((), { n with session := n.session.retuned bitrate r }), k') ∧ k'.opened = k.opened := by
  obtain ⟨r, k₁, hr, ho, -⟩ := Session.trySetBitrate_effect n.session bitrate k
  obtain ⟨b, k₂, hr', hk⟩ := Session.setBitrate_effect n.session bitrate k
  rw [hr] at hr' hk
  unfold retune
  rw [Stateful.run_bind, onSession_run, hr']
  cases b with
  | true => exact ⟨r, _, rfl, hk.opened.trans ho⟩
  | false => exact ⟨r, _, rfl, hk.opened.trans ho⟩

end Node

/-- Where the owner is in a call; a bitrate is that of an `enable` under way. -/
inductive Stage
  | free
  | closing (bitrate : Option UInt32)
  | joining (bitrate : Option UInt32)
  | tuning (bitrate : UInt32)
  | clearing
  | opening
  | spawning
  deriving DecidableEq

structure NodeWorld where
  session : Session
  inbox : Inbox
  kernel : Kernel
  /-- Every loop that was ever started, in order. -/
  loops : List Reader
  /-- The loop that is to be waited for. -/
  handle : Option Nat
  stage : Stage

inductive NodeAction
  | call (c : NodeCall)
  /-- The next part of the call under way. -/
  | proceed
  /-- One step of a loop. -/
  | loop (i : Nat)
  /-- Anything else, in the kernel or on the bus. -/
  | elsewhere (k : Kernel)

inductive NodeEvent
  | enabling
  | opened (h : Handle)
  /-- A loop has taken a datagram off the queue of a socket. -/
  | drained (h : Handle) (d : Datagram)
  | returned (f : Frame)
  deriving DecidableEq, Repr

namespace NodeWorld

def start (s : Session) (k : Kernel) : NodeWorld := ⟨s, [], k, [], none, .free⟩

/-- The node as the owner sees it. -/
def node (w : NodeWorld) : Node := ⟨w.session, w.inbox, w.handle.bind fun i => w.loops[i]?⟩

def result {α : Type} (w : NodeWorld) (m : NodeM α) : α := ((m.run w.node).run w.kernel).1.1

def after {α : Type} (w : NodeWorld) (m : NodeM α) : NodeWorld :=
  let o := (m.run w.node).run w.kernel
  { w with session := o.1.2.session, inbox := o.1.2.inbox, kernel := o.2 }

/-- There is no loop to wait for, or it has ended. -/
def joinable (w : NodeWorld) : Bool := !w.node.reader.any Reader.canRead

/-- The first part of a call, which for most calls is all of it. -/
def begin (w : NodeWorld) : NodeCall → NodeWorld
  | .enable b => { w with stage := .closing (some b) }
  | .close => { w with stage := .closing none }
  | c => w.after c.perform

def proceed (w : NodeWorld) : NodeWorld :=
  match w.stage with
  | .free => w
  | .closing b => { w.after (Node.onSession Session.close) with stage := .joining b }
  | .joining b => if w.joinable then { w with handle := none, stage := b.elim .free .tuning } else w
  | .tuning b => { w.after (Node.retune b) with stage := .clearing }
  | .clearing => { w.after Node.clearInbox with stage := .opening }
  | .opening =>
    match w.result Node.reopen with
    | .ok () => { w.after Node.reopen with stage := .spawning }
    | .error _ => { w.after Node.reopen with stage := .free }
  | .spawning =>
    { w with loops := w.loops ++ [.starting], handle := some w.loops.length, stage := .free }

def turn (w : NodeWorld) (i : Nat) : NodeWorld :=
  match w.loops[i]? with
  | none => w
  | some r =>
    let o := (Node.readerStep.run { w.node with reader := some r }).run w.kernel
    { w with
      session := o.1.2.session
      inbox := o.1.2.inbox
      kernel := o.2
      loops := w.loops.set i (o.1.2.reader.getD r) }

def step (w : NodeWorld) : NodeAction → NodeWorld
  | .call c => if w.stage = .free then w.begin c else w
  | .proceed => w.proceed
  | .loop i => w.turn i
  | .elsewhere k =>
    { w with kernel := { k with opened := w.kernel.opened, accepts := w.kernel.accepts } }

def run (w : NodeWorld) (as : List NodeAction) : NodeWorld := as.foldl step w

/-- The socket that a loop reads from. -/
def source? (w : NodeWorld) (i : Nat) : Option Socket := w.loops[i]?.bind Reader.socket?

def seen (w : NodeWorld) : NodeAction → List NodeEvent
  | .call (.enable _) => if w.stage = .free then [.enabling] else []
  | .call .read => if w.stage = .free then (w.result Node.read).toList.map .returned else []
  | .call _ => []
  | .proceed =>
    match w.stage, w.result Node.reopen with
    | .opening, .ok () =>
      ((w.after Node.reopen).session.channel.map fun c => .opened c.handle).toList
    | _, _ => []
  | .loop i =>
    ((w.source? i).bind fun c =>
      (Kernel.taken? c.handle w.kernel (w.turn i).kernel).map (.drained c.handle)).toList
  | .elsewhere _ => []

/-- What is seen of a run, in order. -/
def history (w : NodeWorld) : List NodeAction → List NodeEvent
  | [] => []
  | a :: as => w.seen a ++ (w.step a).history as

end NodeWorld

/-! ## What an action can do -/

/-- Change of a node and its loops, with what is seen of it. -/
inductive NodeChange (w : NodeWorld) : List NodeEvent → NodeWorld → Prop
  | nothing : NodeChange w [] w
  | aside {s' : Session} {k' : Kernel} (hs : s' = w.session.withHealth s'.health)
      (hk : SameHandles w.kernel k') : NodeChange w [] { w with session := s', kernel := k' }
  | popped (hf : w.stage = .free) :
      NodeChange w (w.inbox.pop?.1.toList.map .returned) { w with inbox := w.inbox.pop?.2 }
  | enabling (b : UInt32) (hf : w.stage = .free) :
      NodeChange w [.enabling] { w with stage := .closing (some b) }
  | closing (hf : w.stage = .free) : NodeChange w [] { w with stage := .closing none }
  | closed {b : Option UInt32} {k' : Kernel} (hst : w.stage = .closing b)
      (ho : k'.opened = w.kernel.opened)
      (ha : k'.accepts =
        w.session.channel.elim w.kernel.accepts fun c => override w.kernel.accepts c.handle false) :
      NodeChange w [] { w with session := w.session.closed, kernel := k', stage := .joining b }
  | joined {b : Option UInt32} (hst : w.stage = .joining b) (hj : w.joinable = true) :
      NodeChange w [] { w with handle := none, stage := b.elim .free .tuning }
  | tuned {b : UInt32} {k' : Kernel} (r : Except Failure Unit) (hst : w.stage = .tuning b)
      (ho : k'.opened = w.kernel.opened) :
      NodeChange w [] { w with session := w.session.retuned b r, kernel := k', stage := .clearing }
  | cleared (hst : w.stage = .clearing) : NodeChange w [] { w with inbox := [], stage := .opening }
  | opened {index : UInt32} {k' : Kernel} (hst : w.stage = .opening)
      (hc : w.session.channel = none) (ho : k'.opened = w.kernel.opened + 1)
      (ha : k'.accepts = override w.kernel.accepts w.kernel.opened true) :
      NodeChange w [.opened w.kernel.opened] { w with
        session := { w.session with
          health := w.session.health.restartWindow k'.clock
          channel := some ⟨w.kernel.opened, index⟩ }
        kernel := k'
        stage := .spawning }
  | refused {k' : Kernel} (hst : w.stage = .opening) (hc : w.session.channel = none)
      (hk : Spares w.kernel.opened w.kernel k') :
      NodeChange w [] { w with kernel := k', stage := .free }
  | spawned (hst : w.stage = .spawning) :
      NodeChange w []
        { w with loops := w.loops ++ [.starting], handle := some w.loops.length, stage := .free }
  | turned {i : Nat} {r r' : Reader} {fs : List Frame} {s' : Session} {k' : Kernel}
      (hr : w.loops[i]? = some r) (h : r.Turned w.session w.kernel r' fs s' k') :
      NodeChange w ((r.socket?.bind fun c =>
          (Kernel.taken? c.handle w.kernel k').map fun d => .drained c.handle d).toList)
        { w with session := s', inbox := w.inbox ++ fs, kernel := k', loops := w.loops.set i r' }

namespace NodeWorld

theorem change_begin {w : NodeWorld} (hf : w.stage = .free) (c : NodeCall) :
    NodeChange w (w.seen (.call c)) (w.begin c) := by
  cases c with
  | enable b =>
    rw [seen, if_pos hf]
    exact .enabling b hf
  | close => exact .closing hf
  | send f =>
    obtain ⟨r, s', k', hr, hs, hk⟩ := w.node.send_effect w.kernel f
    simp only [begin, after, NodeCall.perform, Stateful.run_bind, hr]
    exact .aside hs hk
  | reset => exact .aside rfl ⟨rfl, rfl⟩
  | read =>
    rw [seen, if_pos hf]
    exact .popped hf

theorem change_proceed {w : NodeWorld} (hshut : w.stage = .opening → w.session.channel = none) :
    NodeChange w (w.seen .proceed) w.proceed := by
  unfold proceed seen
  cases hst : w.stage with
  | free => exact .nothing
  | closing b =>
    obtain ⟨k', hr, ho, -, ha, -⟩ := Session.close_effect w.session w.kernel
    have hr' : (Session.close.run w.node.session).run w.kernel = (((), w.session.closed), k') := hr
    simp only [after, Node.onSession_run, hr']
    exact .closed hst ho ha
  | joining b =>
    by_cases hj : w.joinable = true
    · simp only [hj, if_true]
      exact .joined hst hj
    · simp only [hj]
      exact .nothing
  | tuning b =>
    obtain ⟨r, k', hr, ho⟩ := w.node.retune_effect w.kernel b
    simp only [after, hr]
    exact .tuned r hst ho
  | clearing => exact .cleared hst
  | opening =>
    have hc := hshut hst
    have hrun : (Node.reopen.run w.node).run w.kernel =
        ((((Session.tryOpen.run w.session).run w.kernel).1.1,
          { w.node with session := ((Session.tryOpen.run w.session).run w.kernel).1.2 }),
          ((Session.tryOpen.run w.session).run w.kernel).2) := Node.onSession_run _ _ _
    simp only [result, after, hrun]
    obtain ⟨f, k', hr, hk⟩ | ⟨index, k', hr, ho, ha⟩ := Session.tryOpen_closed hc w.kernel
    · rw [hr]
      exact .refused hst hc hk
    · rw [hr]
      exact .opened hst hc ho ha
  | spawning => exact .spawned hst

theorem change_turn (w : NodeWorld) (i : Nat) : NodeChange w (w.seen (.loop i)) (w.turn i) := by
  cases hr : w.loops[i]? with
  | none =>
    simp only [seen, source?, turn, hr]
    exact .nothing
  | some r =>
    obtain ⟨more, r', fs, s', k', hrun, ht, -⟩ :=
      Node.readerStep_turned { w.node with reader := some r } w.kernel rfl
    simp only [seen, source?, turn, hr, hrun]
    exact .turned hr ht

theorem step_change {w : NodeWorld} (hshut : w.stage = .opening → w.session.channel = none)
    (a : NodeAction) : NodeChange w (w.seen a) (w.step a) := by
  cases a with
  | call c =>
    by_cases hf : w.stage = .free
    · rw [step, if_pos hf]
      exact change_begin hf c
    · rw [step, if_neg hf]
      have hs : w.seen (.call c) = [] := by
        cases c <;> simp [seen, hf]
      rw [hs]
      exact .nothing
  | proceed => exact change_proceed hshut
  | loop i => exact w.change_turn i
  | elsewhere k => exact .aside rfl ⟨rfl, rfl⟩

end NodeWorld

/-! ## Supervision -/

namespace Stage

/-- The session has been closed for the call under way and not been opened yet. -/
def isShut : Stage → Bool
  | .joining _ | .tuning _ | .clearing | .opening => true
  | _ => false

/-- The loop before has been waited for, and the next one is not started yet. -/
def isJoined : Stage → Bool
  | .tuning _ | .clearing | .opening | .spawning => true
  | _ => false

end Stage

/-- Every loop but the one to be waited for has ended, and a loop has the open socket or one that it
has been told to leave. -/
structure Supervised (w : NodeWorld) : Prop where
  sound : World.Sound w.session w.kernel
  shut : w.stage.isShut = true → w.session.channel = none
  joined : w.stage.isJoined = true → w.handle = none
  alone : ∀ i r, w.loops[i]? = some r → r.canRead = true → w.handle = some i
  held : ∀ r ∈ w.loops, ∀ c, r.socket? = some c →
    w.session.channel = some c ∨
      c.handle ∈ w.session.stopped ∧ w.kernel.accepts c.handle = false
  effort : ∀ r ∈ w.loops, r.effort ≤ 5

theorem Reader.canRead_of_socket {r : Reader} {c : Socket} (h : r.socket? = some c) :
    r.canRead = true := by
  cases r with
  | running => rfl
  | starting | ended => cases h

theorem Session.channel_retuned (s : Session) (b : UInt32) (r : Except Failure Unit) :
    (s.retuned b r).channel = none := by
  have hc : s.closed.channel = none := by
    unfold closed
    cases h : s.channel with
    | none => exact h
    | some c => rfl
  cases r <;> exact hc

namespace Supervised

variable {w w' : NodeWorld} {es : List NodeEvent}

/-- With nothing to wait for, nothing runs. -/
theorem quiet (h : Supervised w) (hh : w.handle = none) {r : Reader} (hr : r ∈ w.loops) :
    r.canRead = false := by
  obtain ⟨i, hi⟩ := List.mem_iff_getElem?.mp hr
  cases hc : r.canRead with
  | false => rfl
  | true =>
    have := h.alone i r hi hc
    rw [hh] at this
    cases this

theorem unheld (h : Supervised w) (hh : w.handle = none) {r : Reader} (hr : r ∈ w.loops)
    {c : Socket} (hc : r.socket? = some c) : False := by
  have := h.quiet hh hr
  rw [Reader.canRead_of_socket hc] at this
  cases this

theorem held_closed (h : Supervised w) {k' : Kernel}
    (ha : k'.accepts =
      w.session.channel.elim w.kernel.accepts fun c => override w.kernel.accepts c.handle false)
    {r : Reader} (hr : r ∈ w.loops) {c : Socket} (hc : r.socket? = some c) :
    c.handle ∈ w.session.closed.stopped ∧ k'.accepts c.handle = false := by
  have hheld := h.held r hr c hc
  unfold Session.closed
  rw [ha]
  cases ho : w.session.channel with
  | none =>
    rcases hheld with hs | hs
    · rw [ho] at hs
      cases hs
    · exact hs
  | some c₀ =>
    rcases hheld with hs | ⟨hs, hx⟩
    · rw [ho] at hs
      cases hs
      exact ⟨List.mem_cons_self, override_self _ _ _⟩
    · refine ⟨List.mem_cons_of_mem _ hs, ?_⟩
      by_cases he : c.handle = c₀.handle
      · rw [he]
        exact override_self _ _ _
      · exact (override_of_ne _ _ he).trans hx

/-- The health of the session plays no part. -/
theorem aside (h : Supervised w) {s' : Session} {k' : Kernel}
    (hs : s' = w.session.withHealth s'.health) (hk : SameHandles w.kernel k') :
    Supervised { w with session := s', kernel := k' } := by
  have hch := congrArg Session.channel hs
  have hst := congrArg Session.stopped hs
  refine ⟨h.sound.of_same hch hst hk, fun hx => hch.trans (h.shut hx), h.joined, h.alone, ?_,
    h.effort⟩
  intro r hr c hc
  dsimp only
  rw [hch, hst, hk.accepts]
  exact h.held r hr c hc

theorem closed (h : Supervised w) {b : Option UInt32} {k' : Kernel}
    (ho : k'.opened = w.kernel.opened)
    (ha : k'.accepts =
      w.session.channel.elim w.kernel.accepts fun c => override w.kernel.accepts c.handle false) :
    Supervised { w with session := w.session.closed, kernel := k', stage := .joining b } where
  sound := (World.Change.closed ho).sound h.sound
  shut _ := (h.sound.closed ho).1
  joined := nofun
  alone := h.alone
  held _ hr _ hc := .inr (h.held_closed ha hr hc)
  effort := h.effort

/-- The only loop that could still run is the one to be waited for. -/
theorem quiet_of_joinable (h : Supervised w) (hj : w.joinable = true) {i : Nat} {r : Reader}
    (hr : w.loops[i]? = some r) : r.canRead = false := by
  cases hcan : r.canRead with
  | false => rfl
  | true =>
    have hreader : w.node.reader = some r := by
      rw [NodeWorld.node, h.alone i r hr hcan]
      exact hr
    simp [NodeWorld.joinable, hreader, hcan] at hj

/-- With nothing to wait for, the session may change in any sound way. -/
theorem of_joined (h : Supervised w) (hh : w.handle = none) {s' : Session} {k' : Kernel}
    {st : Stage} (hs : World.Sound s' k') (hshut : st.isShut = true → s'.channel = none) :
    Supervised { w with session := s', kernel := k', stage := st } where
  sound := hs
  shut := hshut
  joined _ := hh
  alone := h.alone
  held _ hr _ hc := (h.unheld hh hr hc).elim
  effort := h.effort

theorem spawned (h : Supervised w) (hh : w.handle = none) :
    Supervised { w with
      loops := w.loops ++ [.starting], handle := some w.loops.length, stage := .free } where
  sound := h.sound
  shut := nofun
  joined := nofun
  alone i r hr hcan := by
    rcases Nat.lt_or_ge i w.loops.length with hi | hi
    · rw [List.getElem?_append_left hi] at hr
      rw [h.quiet hh (List.mem_of_getElem? hr)] at hcan
      cases hcan
    · have hlt := (List.getElem?_eq_some_iff.mp hr).1
      rw [List.length_append, List.length_singleton] at hlt
      exact congrArg some (show w.loops.length = i by omega)
  held r hr c hc := by
    rcases List.mem_append.mp hr with hr | hr
    · exact h.held r hr c hc
    · rw [List.mem_singleton.mp hr] at hc
      cases hc
  effort r hr := by
    rcases List.mem_append.mp hr with hr | hr
    · exact h.effort r hr
    · rw [List.mem_singleton.mp hr]
      decide

/-- A loop that takes a turn keeps its place, and its socket unless it only now starts to read. -/
theorem turned (h : Supervised w) {i : Nat} {r r' : Reader} {fs : List Frame} {s' : Session}
    {k' : Kernel} (hr : w.loops[i]? = some r) (ht : r.Turned w.session w.kernel r' fs s' k') :
    Supervised { w with
      session := s', inbox := w.inbox ++ fs, kernel := k', loops := w.loops.set i r' } := by
  have hch := congrArg Session.channel ht.session
  have hst := congrArg Session.stopped ht.session
  have hmem : r ∈ w.loops := List.mem_of_getElem? hr
  refine ⟨h.sound.of_same hch hst ht.handles, fun hx => hch.trans (h.shut hx), h.joined, ?_,
    ?_, ?_⟩
  · intro j x hx hcan
    dsimp only at hx
    by_cases hij : i = j
    · subst hij
      rw [List.getElem?_set_self (List.getElem?_eq_some_iff.mp hr).1] at hx
      cases hx
      exact h.alone i r hr (ht.canRead hcan)
    · rw [List.getElem?_set_ne hij] at hx
      exact h.alone j x hx hcan
  · intro x hx c hc
    dsimp only
    rw [hch, hst, ht.handles.accepts]
    rcases List.mem_or_eq_of_mem_set hx with hx | rfl
    · exact h.held x hx c hc
    · rcases ht.socket c hc with hc | ⟨-, hc⟩
      · exact h.held r hmem c hc
      · exact .inl hc
  · intro x hx
    rcases List.mem_or_eq_of_mem_set hx with hx | rfl
    · exact h.effort x hx
    · exact ht.effort (h.effort r hmem)

theorem change (h : Supervised w) (hc : NodeChange w es w') : Supervised w' := by
  cases hc with
  | nothing => exact h
  | aside hs hk => exact h.aside hs hk
  | popped => exact ⟨h.sound, h.shut, h.joined, h.alone, h.held, h.effort⟩
  | enabling | closing => exact ⟨h.sound, nofun, nofun, h.alone, h.held, h.effort⟩
  | closed hst ho ha => exact h.closed ho ha
  | joined hst hj =>
    have hshut : w.session.channel = none := h.shut (by rw [hst]; rfl)
    refine ⟨h.sound, fun _ => hshut, fun _ => rfl, ?_, h.held, h.effort⟩
    intro i r hr hcan
    rw [h.quiet_of_joinable hj hr] at hcan
    cases hcan
  | @tuned b k' r hst ho =>
    exact h.of_joined (h.joined (by rw [hst]; rfl)) ((World.Change.tuned b r ho).sound h.sound)
      fun _ => Session.channel_retuned _ b r
  | cleared hst =>
    exact ⟨h.sound, fun _ => h.shut (by rw [hst]; rfl), fun _ => h.joined (by rw [hst]; rfl),
      h.alone, h.held, h.effort⟩
  | opened hst hc ho ha =>
    exact h.of_joined (h.joined (by rw [hst]; rfl))
      ((World.Change.opened _ hc ho ha).sound h.sound) nofun
  | refused hst hc hk =>
    exact h.of_joined (h.joined (by rw [hst]; rfl))
      ((World.Change.refused hc hk).sound h.sound) nofun
  | spawned hst => exact h.spawned (h.joined (by rw [hst]; rfl))
  | turned hr ht => exact h.turned hr ht

theorem start {s : Session} {k : Kernel} (h : World.Sound s k) : Supervised (NodeWorld.start s k) :=
  ⟨h, nofun, nofun, nofun, nofun, nofun⟩

theorem step_change (h : Supervised w) (a : NodeAction) : NodeChange w (w.seen a) (w.step a) :=
  NodeWorld.step_change (fun hst => h.shut (by rw [hst]; rfl)) a

theorem step (h : Supervised w) (a : NodeAction) : Supervised (w.step a) :=
  h.change (h.step_change a)

theorem run (h : Supervised w) (as : List NodeAction) : Supervised (w.run as) := by
  induction as generalizing w with
  | nil => exact h
  | cons a as ih => exact ih (h.step a)

end Supervised

end CanBus
