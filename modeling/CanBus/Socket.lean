import CanBus.Link.Control
import CanBus.Settings

/-!
Raw CAN sockets. One exists only fully set up: bound to its interface, reporting the bus errors
asked for, with a send timeout.
-/

namespace CanBus

structure Socket where
  handle : Handle
  index : UInt32
  deriving DecidableEq, Repr

/-- What one read gave: a frame, or the length of a datagram too short for one. -/
inductive Reading
  | frame (w : WireFrame)
  | short (length : Nat)
  deriving DecidableEq, Repr

namespace Socket

/-- A failed system call as the failure of a step. -/
def setup {α : Type} (step : SetupStep) (m : Syscall α) : Operation α := do
  match ← m.run with
  | .ok a => pure a
  | .error e => throw (.socket step e)

/-- As `setup`, for a step on a socket that goes if the step fails. -/
def setupOn {α : Type} (h : Handle) (step : SetupStep) (m : Syscall α) : Operation α := do
  match ← m.run with
  | .ok a => pure a
  | .error e =>
    Kernel.release h
    throw (.socket step e)

def openAt (index : UInt32) (s : Settings) : Operation Socket := do
  let h ← setup .allocate Kernel.openSocket
  setupOn h .bind (Kernel.bind h ⟨index⟩)
  setupOn h .errorFilter (Kernel.setErrorFilter s.errorMask)
  setupOn h .sendTimeout (Kernel.setSendTimeout s.sendTimeout)
  return ⟨h, index⟩

def openOn (name : String) (s : Settings) : Operation Socket := do
  let index ← setup .lookup (Kernel.indexOf name)
  openAt index s

def write (_s : Socket) (w : WireFrame) : Syscall Unit := Kernel.sendAll w.bytes

def Reading.ofDatagram (d : Datagram) : Reading :=
  if d.length = WireFrame.size then .frame (WireFrame.ofBytes d) else .short d.length

def read (s : Socket) : Syscall Reading :=
  do return Reading.ofDatagram (← Kernel.receive s.handle)

def waitReadable (s : Socket) (nanos : Nat) : Syscall Bool :=
  Kernel.poll s.handle (Settings.waitMillis nanos)

def shutdown (s : Socket) : Syscall Unit := Kernel.shutdown s.handle

def close (s : Socket) : System Unit := Kernel.release s.handle

end Socket

end CanBus
