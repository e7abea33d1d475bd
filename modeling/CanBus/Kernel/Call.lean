import CanBus.Address
import CanBus.Failure

/-!
The calls that this library makes to the kernel and to a link table, each with its line in the call
trace.
-/

namespace CanBus.Kernel

/-- A kind of call whose outcome can be scripted. -/
inductive Service
  | nameToIndex
  | socket
  | bind
  | errorFilter
  | sendTimeout
  | shutdown
  | send
  | receive
  | poll
  | epollCreate
  | epollAdd
  | epollDelete
  | epollWait
  | netlinkSocket
  | netlinkBind
  | netlinkSend
  | link (request : LinkRequest)
  deriving DecidableEq, Repr

inductive Call
  | nameToIndex (name : String)
  | socket
  | bind (address : Address)
  | errorFilter (mask : UInt32)
  | sendTimeout (nanos : Nat)
  | shutdown
  | send (bytes : List UInt8)
  | receive
  | poll (millis : UInt16)
  | epollCreate
  | epollAdd
  | epollDelete
  | epollWait (millis : UInt16)
  | netlinkSocket
  | netlinkBind
  | netlinkSend (bytes : List UInt8)
  | netlinkReceive
  | linkQuery (name : String)
  | linkAdmin (index : UInt32) (up : Bool)
  | linkBitrate (index : UInt32) (value : UInt32)
  | linkQueueLength (index : UInt32) (value : UInt32)
  deriving DecidableEq, Repr

namespace Call

/-- Netlink replies are scripted as messages, so receiving one is no service. -/
def service? : Call → Option Service
  | .nameToIndex _ => some .nameToIndex
  | .socket => some .socket
  | .bind _ => some .bind
  | .errorFilter _ => some .errorFilter
  | .sendTimeout _ => some .sendTimeout
  | .shutdown => some .shutdown
  | .send _ => some .send
  | .receive => some .receive
  | .poll _ => some .poll
  | .epollCreate => some .epollCreate
  | .epollAdd => some .epollAdd
  | .epollDelete => some .epollDelete
  | .epollWait _ => some .epollWait
  | .netlinkSocket => some .netlinkSocket
  | .netlinkBind => some .netlinkBind
  | .netlinkSend _ => some .netlinkSend
  | .netlinkReceive => none
  | .linkQuery _ => some (.link .query)
  | .linkAdmin _ _ => some (.link .adminState)
  | .linkBitrate _ _ => some (.link .bitrate)
  | .linkQueueLength _ _ => some (.link .queueLength)

def hex (bs : List UInt8) : String := String.ofList (Text.Hex.octets .lower bs)

/-- Seconds and microseconds; what is left of a microsecond is cut off. -/
def timeval (nanos : Nat) : List UInt8 :=
  LittleEndian.bytes 8 (nanos / 1000000000) ++ LittleEndian.bytes 8 (nanos % 1000000000 / 1000)

def text : Call → String
  | .nameToIndex name => s!"if_nametoindex {name}"
  | .socket => "socket 29 3 1"
  | .bind address => s!"bind {hex address.bytes}"
  | .errorFilter mask => s!"setsockopt 101 2 {hex (LittleEndian.word32 mask)}"
  | .sendTimeout nanos => s!"setsockopt 1 21 {hex (timeval nanos)}"
  | .shutdown => "shutdown 2"
  | .send bytes => s!"send {hex bytes}"
  | .receive => "recv 16"
  | .poll millis => s!"poll 1 {millis}"
  | .epollCreate => "epoll_create"
  | .epollAdd => "epoll_add 1 1"
  | .epollDelete => "epoll_del"
  | .epollWait millis => s!"epoll_wait 4 {millis}"
  | .netlinkSocket => "nl_socket 16 3 0"
  | .netlinkBind => "nl_bind own-pid"
  | .netlinkSend bytes => s!"nl_send {hex bytes}"
  | .netlinkReceive => "nl_recv"
  | .linkQuery name => s!"resolve {name}"
  | .linkAdmin index up => s!"admin {index} {up}"
  | .linkBitrate index value => s!"bitrate {index} {value}"
  | .linkQueueLength index value => s!"qlen {index} {value}"

end Call

end CanBus.Kernel
