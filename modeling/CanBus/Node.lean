import CanBus.Inbox
import CanBus.Session.Reader

/-!
A node of a protocol stack: a session with a reader in the background, which puts the frames it
reads into an inbox. `settle` lets the reader do all that it can do now.
-/

namespace CanBus

structure Node where
  session : Session
  inbox : Inbox
  reader : Option Reader
  deriving DecidableEq, Repr

abbrev NodeM := StateT Node System

namespace Node

def ofSession (s : Session) : Node := ⟨s, [], none⟩

def onSession {α : Type} (m : SessionM α) : NodeM α := do
  let (a, s) ← m.run (← get).session
  modify fun n => { n with session := s }
  return a

/-! ## The reader -/

def push (f : Frame) : NodeM Unit := do
  let n ← get
  let q ← Inbox.push n.session.name n.inbox f
  modify fun n => { n with inbox := q }

/-- One step of the reader, if there is one. False if it has nothing more to do. -/
def readerStep : NodeM Bool := do
  match (← get).reader with
  | none => return false
  | some r =>
    Kernel.setThread .reader
    let (r, p) ← onSession r.step
    modify fun n => { n with reader := some r }
    if let .moved (some f) := p then push f
    Kernel.setThread .owner
    let k ← (get : System Kernel)
    return p != .idle || (r.isWaiting && !(k.script .epollWait).isEmpty)

def settleWithin : Nat → NodeM Unit
  | 0 => return
  | n + 1 => do if ← readerStep then settleWithin n

def settle : NodeM Unit := do
  let k ← (get : System Kernel)
  settleWithin (Reader.budget k)

/-- Closes the session and waits for the reader to end. -/
def stop : NodeM Unit := do
  onSession Session.close
  settle
  modify fun n => { n with reader := none }

/-! ## Operations -/

/-- Stops what runs, changes the bitrate if that is possible, and starts
again with an empty inbox. -/
def enable (bitrate : UInt32) : NodeM (Except Failure Unit) := do
  stop
  if ← onSession (Session.setBitrate bitrate) then
    onSession (Session.log .info s!"bitrate changed to {bitrate}")
  else
    let current := (← get).session.bitrate
    onSession (Session.log .warn s!"bitrate not changed, still {current}")
  modify fun n => { n with inbox := [] }
  match ← onSession Session.tryOpen with
  | .error f => return .error f
  | .ok () =>
    modify fun n => { n with reader := some .starting }
    return .ok ()

/-- Only frames with standard identifiers are sent. -/
def send (f : Frame) : NodeM (Except Failure Unit) := do
  let n ← get
  if n.session.isBusOff then return .error .busOff
  if f.id.isExtended then return .error (.invalidId f.id.raw)
  onSession (Session.trySend f.id.raw false f.len f.payload.bytes)

def read : NodeM (Option Frame) := do
  let n ← get
  let (f, q) := n.inbox.pop?
  set { n with inbox := q }
  return f

/-- The controller recovers on its own, so a reset is only logged. -/
def reset : NodeM Unit := onSession (Session.log .info "reset requested")

def clearInbox : NodeM Unit := modify fun n => { n with inbox := [] }

def drop : NodeM Unit := do
  stop
  onSession Session.drop

end Node

end CanBus
