import CanBus.Kernel.Socket
import CanBus.Netlink.Message

/-!
Requests sent to the kernel. Each opens a socket of its own and reads one message in reply. A
request fails with the kernel's code if the kernel refused it, and with `-EIO` if anything else went
wrong on the way.
-/

namespace CanBus.Netlink

def localFailure : Int := -Errno.inputOutput

/-- A request that can fail with a code. -/
abbrev Exchange := ExceptT Int System

def nextReply : Syscall (List UInt8) := do
  let _ ← Kernel.call .netlinkReceive
  let k ← get
  match k.replies with
  | [] => throw (.code Errno.tryAgain)
  | r :: rs =>
    set { k with replies := rs }
    match r with
    | .bytes bs => pure bs
    | .error n => throw (.code n)

def roundTrip (r : Request) : Syscall (List UInt8) := do
  let _ ← Kernel.call .netlinkSocket
  let _ ← Kernel.call .netlinkBind
  let _ ← Kernel.call (.netlinkSend r.bytes)
  nextReply

def ask (r : Request) : Exchange Body := do
  match ← (roundTrip r).run with
  | .ok received =>
    match Body.ofReceived? received with
    | some b => pure b
    | none => throw localFailure
  | .error _ => throw localFailure

/-- Succeeds on an acknowledgement only. -/
def submit (r : Request) : Exchange Unit := do
  match ← ask r with
  | .ack => pure ()
  | .refused code _ => throw code
  | _ => throw localFailure

/-- A message without a payload describes nothing. A refusal counts as one only if the request that
it quotes reads as a link. -/
def details (index : UInt32) : Exchange Details := do
  match ← ask (.query index) with
  | .empty => pure {}
  | .ack => throw localFailure
  | .refused code rest => throw (if (InterfaceInfo.parse? rest).isSome then code else localFailure)
  | .payload bs =>
    match (InterfaceInfo.parse? bs).bind Details.ofInfo? with
    | some d => pure d
    | none => throw localFailure

def longestName : Nat := 16

/-- The index of the new interface; the kernel doesn't report it, so it is looked up. -/
def createVirtual (name : String) : Exchange UInt32 := do
  if longestName < name.utf8ByteSize then throw localFailure
  submit (.createVirtual name)
  match ← (Kernel.indexOf name).run with
  | .ok index => pure index
  | .error _ => throw localFailure

end CanBus.Netlink
