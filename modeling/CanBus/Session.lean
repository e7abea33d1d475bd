import CanBus.Frame.Text
import CanBus.Socket

/-!
A session owns one CAN interface: it readies the link, holds the socket while open, sends and
receives frames, and keeps the health of the bus. Operations that are named `try…` report
failures, their counterparts log them.
-/

namespace CanBus

structure Session where
  name : String
  settings : Settings
  controller : Controller
  /-- The bitrate that the next open applies. -/
  bitrate : UInt32
  health : Health
  /-- The open socket. -/
  channel : Option Socket
  /-- Sockets whose readers have been told to stop. -/
  stopped : List Handle
  deriving DecidableEq, Repr

abbrev SessionM := StateT Session System

namespace Session

def create (name : String) (settings : Settings) (controller : Controller) (now : Instant) :
    Session where
  name := name
  settings := settings
  controller := controller
  bitrate := settings.bitrate
  health := Health.healthy settings.busOffThreshold now
  channel := none
  stopped := []

def isOpen (s : Session) : Bool := s.channel.isSome

def isBusOff (s : Session) : Bool := s.health.isBusOff

def log (level : LogLevel) (text : String) : SessionM Unit := do
  Kernel.log level s!"{(← get).name}: {text}"

def updateHealth (f : Health → Health) : SessionM Unit :=
  modify fun s => { s with health := f s.health }

/-! ## Opening and closing -/

/-- Readies the link, then opens a socket. A link that can't be readied is no reason to stop, since
it may be usable as it is; a socket that can't be set up is. An open session is left as it is. -/
def tryOpen : SessionM (Except Failure Unit) := do
  let s ← get
  if s.isOpen then return .ok ()
  match ← (Link.prepare s.controller s.name s.bitrate s.settings.queueLength).run with
  | .ok _ => pure ()
  | .error f => log .warn s!"link configuration incomplete: {f.message}"
  match ← (Socket.openOn s.name s.settings).run with
  | .error f => return .error f
  | .ok socket =>
    let now ← Kernel.now
    modify fun s => { s with health := s.health.restartWindow now, channel := some socket }
    log .info s!"open at {s.bitrate} bit/s"
    return .ok ()

def openUp : SessionM Bool := do
  match ← tryOpen with
  | .ok () => return true
  | .error f =>
    log .error s!"unable to open: {f.message}"
    return false

/-- Tells readers of the socket to stop, and lets go of it. -/
def close : SessionM Unit := do
  let s ← get
  match s.channel with
  | none => return
  | some socket =>
    set { s with channel := none, stopped := socket.handle :: s.stopped }
    match ← socket.shutdown.run with
    | .ok () => pure ()
    | .error e => log .trace s!"socket shutdown: {e.message}"
    log .info "closed"

/-- Closes the session and takes the link down to change its bitrate. If that succeeds, the new
bitrate is kept for the next open and the health is cleared. -/
def trySetBitrate (bitrate : UInt32) : SessionM (Except Failure Unit) := do
  close
  let s ← get
  match ← (Link.reconfigure s.controller s.name bitrate s.settings.queueLength).run with
  | .error f => return .error f
  | .ok _ =>
    modify fun s => { s with bitrate := bitrate, health := s.health.cleared }
    return .ok ()

def setBitrate (bitrate : UInt32) : SessionM Bool := do
  match ← trySetBitrate bitrate with
  | .ok () => return true
  | .error f =>
    log .error s!"unable to set bitrate {bitrate}: {f.message}"
    return false

/-- Closes the session and, if the settings say so, takes the link down. -/
def drop : SessionM Unit := do
  close
  let s ← get
  if s.settings.linkDownOnDrop then
    match ← (s.controller.resolve s.name).run with
    | .ok l =>
      let _ ← (Link.setAdmin s.controller l false).run
    | .error f => log .debug s!"link not brought down: {f.message}"

/-! ## Frames -/

/-- Sends the first `len` bytes of the payload. The length is looked at before the bus, and the bus
before the rest. Full transmit buffers count towards bus-off. -/
def trySend (id : UInt32) (extended : Bool) (len : Nat) (payload : List UInt8) :
    SessionM (Except Failure Unit) := do
  let s ← get
  if 8 < len then return .error (.invalidLength len)
  if s.isBusOff then return .error .busOff
  match WireFrame.encode id extended len payload, s.channel with
  | .error f, _ => return .error f
  | .ok _, none => return .error .notOpen
  | .ok w, some socket =>
    match ← (socket.write w).run with
    | .ok () =>
      updateHealth Health.sent
      log .debug s!"TX {w.text}"
      return .ok ()
    | .error e =>
      if e.exhausted then updateHealth Health.overflowed
      log .error s!"send failed (errno {e.number?.getD 0}): {e.message}"
      return .error (.transmit e)

def send (id : UInt32) (extended : Bool) (len : Nat) (payload : List UInt8) : SessionM Bool := do
  match ← trySend id extended len payload with
  | .ok () => return true
  | .error _ => return false

/-- Counts a received frame and takes note of what it says about the bus.
Data frames are returned. -/
def ingest (w : WireFrame) : SessionM (Option Frame) := do
  let bits := Frame.worstCaseBits w.word.isExtended w.len .classic
  updateHealth fun h => h.counted (UInt64.ofNat bits) (UInt64.ofNat (w.len * 8))
  match w.decode with
  | .data f =>
    updateHealth Health.cleared
    log .trace s!"RX {f.text}"
    return some f
  | .error r =>
    log .warn s!"bus error: {r.text}"
    updateHealth fun h => h.reported r
    return none

/-- One read, if the socket is readable within the wait. -/
def tryReceive : SessionM (Except Failure (Option Frame)) := do
  let s ← get
  match s.channel with
  | none => return .error .notOpen
  | some socket =>
    match ← (socket.waitReadable s.settings.receiveWait).run with
    | .error e => return .error (.receive e)
    | .ok false => return .ok none
    | .ok true =>
      match ← socket.read.run with
      | .error e => return .error (.receive e)
      | .ok (.short n) => return .error (.shortRead n)
      | .ok (.frame w) => return .ok (← ingest w)

def receive : SessionM (Option Frame) := do
  match ← tryReceive with
  | .ok f => return f
  | .error f =>
    log .debug s!"receive: {f.message}"
    return none

/-- The load since the last call, in percent. A load that can't be computed is not taken. -/
def busLoad : SessionM (Except ArithmeticFault UInt64) := do
  let s ← get
  match s.health.takeLoad s.bitrate (← Kernel.now) with
  | .error fault => return .error fault
  | .ok (load, health) =>
    set { s with health := health }
    return .ok load

end Session

end CanBus
