import CanBus.Errno
import CanBus.Text.Hex

/-!
What can go wrong. `SystemError` is a failed system call, `Failure` is a failed operation of this
library; each has one `message`.
-/

namespace CanBus

inductive SystemError
  | code (n : Int)
  | note (text : String)
  deriving DecidableEq, Repr

namespace SystemError

/-- A write that took nothing can't be retried. -/
def nothingWritten : SystemError := .note "failed to write whole buffer"

def message : SystemError → String
  | .code n => s!"{Errno.describe n} (os error {n})"
  | .note text => text

/-- As `message`, in the form that traces of the reader use. -/
def trace : SystemError → String
  | .code n => Errno.trace n
  | .note text => text

def number? : SystemError → Option Int
  | .code n => some n
  | .note _ => none

/-- The transmit queue or the controller's mailboxes are full. -/
def exhausted (e : SystemError) : Bool :=
  e = .code Errno.noBuffers || e = .code Errno.overflow

end SystemError

/-- The steps of setting up a socket, in order. -/
inductive SetupStep
  | lookup
  | allocate
  | bind
  | errorFilter
  | sendTimeout
  deriving DecidableEq, Repr

def SetupStep.text : SetupStep → String
  | .lookup => "interface lookup"
  | .allocate => "open"
  | .bind => "bind"
  | .errorFilter => "set error filter"
  | .sendTimeout => "set send timeout"

/-- What can be asked of a link. -/
inductive LinkRequest
  | query
  | adminState
  | bitrate
  | queueLength
  deriving DecidableEq, Repr

def LinkRequest.text : LinkRequest → String
  | .query => "query link"
  | .adminState => "set admin state"
  | .bitrate => "set bitrate"
  | .queueLength => "set queue length"

inductive Failure
  | interfaceNotFound (name : String)
  | notCanLink (name : String)
  | rejected (request : LinkRequest) (code : Int)
  | socket (step : SetupStep) (cause : SystemError)
  | notOpen
  | invalidLength (length : Nat)
  | invalidId (id : UInt32)
  | busOff
  | transmit (cause : SystemError)
  | receive (cause : SystemError)
  | shortRead (length : Nat)
  | unreadable (text : String)
  deriving DecidableEq, Repr

namespace Failure

def message : Failure → String
  | .interfaceNotFound name => s!"interface '{name}' not found"
  | .notCanLink name => s!"interface '{name}' is not a CAN link"
  | .rejected request code => s!"{request.text} rejected by the kernel (code {code})"
  | .socket step cause => s!"socket {step.text} failed: {cause.message}"
  | .notOpen => "the CAN socket is not open"
  | .invalidLength length => s!"invalid frame length {length} (max 8)"
  | .invalidId id =>
    "identifier 0x" ++ String.ofList (Text.Hex.natural .upper id.toNat) ++
      " does not fit the frame format"
  | .busOff => "the bus is off"
  | .transmit cause => s!"transmit failed: {cause.message}"
  | .receive cause => s!"receive failed: {cause.message}"
  | .shortRead length => s!"short read of {length} bytes"
  | .unreadable text => s!"invalid frame text: {text}"

/-- The system error underneath, if there is one. -/
def cause? : Failure → Option SystemError
  | .socket _ cause | .transmit cause | .receive cause => some cause
  | _ => none

def code? : Failure → Option Int
  | .rejected _ code => some code
  | f => f.cause?.bind SystemError.number?

def exhausted : Failure → Bool
  | .transmit cause => cause.exhausted
  | _ => false

end Failure

end CanBus
