/-!
The classes of bus errors. An error frame names any number of them by the low bits of its identifier
word.
-/

namespace CanBus

inductive ErrorClass
  | txTimeout
  | lostArbitration
  | controller
  | protocol
  | transceiver
  | noAck
  | busOff
  | busError
  | restarted
  deriving DecidableEq, Repr

namespace ErrorClass

/-- In the order of their bits, which is the order of all texts. -/
def all : List ErrorClass :=
  [txTimeout, lostArbitration, controller, protocol, transceiver, noAck, busOff, busError,
    restarted]

def bit : ErrorClass → UInt32
  | txTimeout => 0x1
  | lostArbitration => 0x2
  | controller => 0x4
  | protocol => 0x8
  | transceiver => 0x10
  | noAck => 0x20
  | busOff => 0x40
  | busError => 0x80
  | restarted => 0x100

def name : ErrorClass → String
  | txTimeout => "TX timeout"
  | lostArbitration => "lost arbitration"
  | controller => "controller fault"
  | protocol => "protocol violation"
  | transceiver => "transceiver fault"
  | noAck => "no ACK on TX"
  | busOff => "bus off"
  | busError => "bus error"
  | restarted => "controller restarted"

/-- All classes at once. -/
def fullMask : UInt32 := 0x1FF

def isIn (c : ErrorClass) (bits : UInt32) : Bool := bits &&& c.bit != 0

def present (bits : UInt32) : List ErrorClass := all.filter (·.isIn bits)

def text (bits : UInt32) : String := ", ".intercalate ((present bits).map name)

theorem mem_all (c : ErrorClass) : c ∈ all := by cases c <;> decide

theorem fullMask_eq : fullMask = all.foldl (fun m c => m ||| c.bit) 0 := by decide

end ErrorClass

end CanBus
