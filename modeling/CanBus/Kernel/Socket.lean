import CanBus.Kernel.State
import CanBus.WireFrame

/-!
Calls on interfaces and sockets, with their normal outcomes. A queue that is empty fails with
`EAGAIN` instead of blocking, and `epoll` reports at once whatever there is.
-/

namespace CanBus.Kernel

/-- A name with a NUL in it can't be passed to the kernel. No interface has index 0: an answer of 0
is a failure without an error number. -/
def indexOf (name : String) : Syscall UInt32 := do
  if name.toList.contains '\x00' then throw (.code Errno.invalidArgument)
  let _ ← knownCall (.nameToIndex name)
  match (← get).interfaces.lookup name with
  | some index => if index = 0 then throw (.code 0) else pure index
  | none => throw (.code Errno.noDevice)

/-! ## Setting up -/

def openSocket : Syscall Handle := do
  let _ ← call .socket
  let k ← get
  set { k with opened := k.opened + 1, accepts := override k.accepts k.opened true }
  pure k.opened

def bind (h : Handle) (a : Address) : Syscall Unit := do
  let _ ← call (.bind a)
  modify fun k => { k with
    newest := some h
    inbox := override k.inbox h (k.inbox h ++ k.waiting)
    waiting := [] }

def setErrorFilter (mask : UInt32) : Syscall Unit := do
  let _ ← call (.errorFilter mask)

def setSendTimeout (nanos : Nat) : Syscall Unit := do
  let _ ← call (.sendTimeout nanos)

/-- Ends the life of a socket; no call of its own. -/
def release (h : Handle) : System Unit :=
  modify fun k => { k with accepts := override k.accepts h false }

/-- Raw CAN sockets refuse this, but stop taking frames all the same. -/
def shutdown (h : Handle) : Syscall Unit := do
  let n ← perform .shutdown
  release h
  if 0 < n then throw (.code n)
  if n = 0 then throw (.code Errno.notSupported)

/-! ## Sending -/

/-- How many of `count` bytes a send accepts, or the error it fails with. -/
def accepted (outcome : Int) (count : Nat) : Except Int Nat :=
  if 0 < outcome then .error outcome
  else if outcome = 0 then .ok count
  else if outcome = -1000 then .ok 0
  else .ok (min (-outcome).toNat count)

/-- A run of sends that ends when all bytes are accepted or one fails for good. -/
structure Transmission where
  offers : List (List UInt8)
  unused : List Int
  result : Except SystemError Unit

/-- An interrupted send is repeated, a partial one is continued with the rest. -/
def transmission : List Int → List UInt8 → Transmission
  | [], bs => ⟨[bs], [], .ok ()⟩
  | n :: ns, bs =>
    let more (rest : List UInt8) : Transmission :=
      let t := transmission ns rest
      { t with offers := bs :: t.offers }
    match accepted n bs.length with
    | .error e => if e = Errno.interrupted then more bs else ⟨[bs], ns, .error (.code e)⟩
    | .ok 0 => ⟨[bs], ns, .error .nothingWritten⟩
    | .ok m => if m = bs.length then ⟨[bs], ns, .ok ()⟩ else more (bs.drop m)

def sendAll (bs : List UInt8) : Syscall Unit := do
  let k ← get
  let t := transmission (k.script .send) bs
  set { k with
    script := override k.script .send t.unused
    events := k.events ++ t.offers.map fun o => Event.call k.thread (.send o) }
  t.result

/-! ## Receiving -/

/-- The oldest datagram, cut to the size of a frame. A failure leaves the queue as it is. -/
def receive (h : Handle) : Syscall Datagram := do
  let _ ← call .receive
  let k ← get
  match k.inbox h with
  | [] => throw (.code Errno.tryAgain)
  | d :: ds =>
    set { k with inbox := override k.inbox h ds }
    pure (d.take WireFrame.size)

def poll (h : Handle) (millis : UInt16) : Syscall Bool := do
  let _ ← knownCall (.poll millis)
  return !((← get).inbox h).isEmpty

/-! ## Readiness -/

/-- What a wait reports: data of some other descriptor, or the socket itself. -/
inductive Readiness
  | foreign
  | readable
  deriving DecidableEq, Repr

def epollCreate : Syscall Unit := do
  let _ ← knownCall .epollCreate

def epollAdd : Syscall Unit := do
  let _ ← knownCall .epollAdd

def epollDelete : Syscall Unit := do
  let _ ← knownCall .epollDelete

/-- There is something to report: an outcome that is not the normal one, or a datagram. -/
def hasNews (k : Kernel) (h : Handle) : Bool :=
  (k.script .epollWait).head?.any (· ≠ 0) || !(k.inbox h).isEmpty

def epollWait (h : Handle) (millis : UInt16) : Syscall (List Readiness) := do
  let n ← knownCall (.epollWait millis)
  let own := if ((← get).inbox h).isEmpty then [] else [Readiness.readable]
  return if n < 0 then .foreign :: own else own

end CanBus.Kernel
