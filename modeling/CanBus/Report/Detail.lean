import CanBus.Text.Hex

/-!
The detail bytes of an error frame: the state of the controller, the kind and place of a protocol
violation, and the wiring faults that a transceiver sees.
-/

namespace CanBus

/-! ## Controller -/

inductive ControllerState
  | rxOverflow
  | txOverflow
  | rxWarning
  | txWarning
  | rxPassive
  | txPassive
  | active
  deriving DecidableEq, Repr

namespace ControllerState

def all : List ControllerState :=
  [rxOverflow, txOverflow, rxWarning, txWarning, rxPassive, txPassive, active]

def bit : ControllerState → UInt8
  | rxOverflow => 0x01
  | txOverflow => 0x02
  | rxWarning => 0x04
  | txWarning => 0x08
  | rxPassive => 0x10
  | txPassive => 0x20
  | active => 0x40

def name : ControllerState → String
  | rxOverflow => "RX buffer overflow"
  | txOverflow => "TX buffer overflow"
  | rxWarning => "RX warning"
  | txWarning => "TX warning"
  | rxPassive => "RX passive error"
  | txPassive => "TX passive error"
  | active => "recovered to active error"

def isIn (s : ControllerState) (status : UInt8) : Bool := status &&& s.bit != 0

def text (status : UInt8) : String :=
  ", ".intercalate ((all.filter (·.isIn status)).map name)

end ControllerState

/-! ## Protocol violations -/

inductive ViolationKind
  | bit
  | form
  | stuff
  | dominant
  | recessive
  | overload
  | active
  | transmission
  deriving DecidableEq, Repr

namespace ViolationKind

def all : List ViolationKind :=
  [bit, form, stuff, dominant, recessive, overload, active, transmission]

def mask : ViolationKind → UInt8
  | bit => 0x01
  | form => 0x02
  | stuff => 0x04
  | dominant => 0x08
  | recessive => 0x10
  | overload => 0x20
  | active => 0x40
  | transmission => 0x80

def name : ViolationKind → String
  | bit => "single bit error"
  | form => "frame format error"
  | stuff => "bit stuffing error"
  | dominant => "unable to send dominant bit"
  | recessive => "unable to send recessive bit"
  | overload => "bus overload"
  | active => "active error announcement"
  | transmission => "TX failure"

def isIn (k : ViolationKind) (kinds : UInt8) : Bool := kinds &&& k.mask != 0

end ViolationKind

/-- Where in a frame a violation was seen. -/
inductive Location
  | startOfFrame
  | id28To21
  | id20To18
  | substituteRtr
  | identifierExtension
  | id17To13
  | id12To5
  | id4To0
  | rtr
  | reserved1
  | reserved0
  | dataLengthCode
  | dataSection
  | crcSequence
  | crcDelimiter
  | ackSlot
  | ackDelimiter
  | endOfFrame
  | intermission
  deriving DecidableEq, Repr

namespace Location

def all : List Location :=
  [startOfFrame, id28To21, id20To18, substituteRtr, identifierExtension, id17To13, id12To5, id4To0,
    rtr, reserved1, reserved0, dataLengthCode, dataSection, crcSequence, crcDelimiter, ackSlot,
    ackDelimiter, endOfFrame, intermission]

def code : Location → UInt8
  | startOfFrame => 0x03
  | id28To21 => 0x02
  | id20To18 => 0x06
  | substituteRtr => 0x04
  | identifierExtension => 0x05
  | id17To13 => 0x07
  | id12To5 => 0x0F
  | id4To0 => 0x0E
  | rtr => 0x0C
  | reserved1 => 0x0D
  | reserved0 => 0x09
  | dataLengthCode => 0x0B
  | dataSection => 0x0A
  | crcSequence => 0x08
  | crcDelimiter => 0x18
  | ackSlot => 0x19
  | ackDelimiter => 0x1B
  | endOfFrame => 0x1A
  | intermission => 0x12

def name : Location → String
  | startOfFrame => "start of frame"
  | id28To21 => "ID [28-21]"
  | id20To18 => "ID [20-18]"
  | substituteRtr => "SRTR"
  | identifierExtension => "ID extension"
  | id17To13 => "ID [17-13]"
  | id12To5 => "ID [12-5]"
  | id4To0 => "ID [4-0]"
  | rtr => "RTR"
  | reserved1 => "reserved 1"
  | reserved0 => "reserved 0"
  | dataLengthCode => "DLC"
  | dataSection => "payload"
  | crcSequence => "CRC"
  | crcDelimiter => "CRC delimiter"
  | ackSlot => "ACK"
  | ackDelimiter => "ACK delimiter"
  | endOfFrame => "end of frame"
  | intermission => "intermission"

def ofCode? (c : UInt8) : Option Location := all.find? fun l => l.code = c

theorem ofCode?_code (l : Location) : ofCode? l.code = some l := by cases l <;> decide

end Location

/-- The kinds of violation as a mask, and the raw code of the place, 0 if none was reported. -/
structure Violation where
  kinds : UInt8
  place : UInt8
  deriving DecidableEq, Repr

namespace Violation

def location? (v : Violation) : Option Location := Location.ofCode? v.place

def placeText (v : Violation) : String :=
  if v.place = 0 then ""
  else match v.location? with
    | some l => " on " ++ l.name
    | none =>
      " on unknown location (0x" ++ String.ofList (Text.Hex.fixed .upper 2 v.place.toNat) ++ ")"

/-- The place is repeated after each kind. -/
def text (v : Violation) : String :=
  ", ".intercalate
    ((ViolationKind.all.filter (·.isIn v.kinds)).map fun k => k.name ++ v.placeText)

end Violation

/-! ## Transceiver -/

inductive WiringFault
  | highNoWire
  | highShortToBattery
  | highShortToSupply
  | highShortToGround
  | lowNoWire
  | lowShortToBattery
  | lowShortToSupply
  | lowShortToGround
  | lowShortToHigh
  deriving DecidableEq, Repr

namespace WiringFault

def all : List WiringFault :=
  [highNoWire, highShortToBattery, highShortToSupply, highShortToGround, lowNoWire,
    lowShortToBattery, lowShortToSupply, lowShortToGround, lowShortToHigh]

/-- The nibble of the status byte that describes the wire. -/
def mask : WiringFault → UInt8
  | highNoWire | highShortToBattery | highShortToSupply | highShortToGround => 0x0F
  | _ => 0xF0

def code : WiringFault → UInt8
  | highNoWire => 0x04
  | highShortToBattery => 0x05
  | highShortToSupply => 0x06
  | highShortToGround => 0x07
  | lowNoWire => 0x40
  | lowShortToBattery => 0x50
  | lowShortToSupply => 0x60
  | lowShortToGround => 0x70
  | lowShortToHigh => 0x80

def name : WiringFault → String
  | highNoWire => "no wire on CAN_H"
  | highShortToBattery => "CAN_H shorted to Vbatt"
  | highShortToSupply => "CAN_H shorted to Vcc"
  | highShortToGround => "CAN_H shorted to ground"
  | lowNoWire => "no wire on CAN_L"
  | lowShortToBattery => "CAN_L shorted to Vbatt"
  | lowShortToSupply => "CAN_L shorted to Vcc"
  | lowShortToGround => "CAN_L shorted to ground"
  | lowShortToHigh => "CAN_L shorted to CAN_H"

/-- At most one fault for each wire; codes that no fault has are passed over. -/
def decode (status : UInt8) : List WiringFault :=
  all.filter fun f => status &&& f.mask == f.code

theorem mem_all (f : WiringFault) : f ∈ all := by cases f <;> decide

theorem mem_decode {f : WiringFault} {status : UInt8} :
    f ∈ decode status ↔ status &&& f.mask = f.code := by
  rw [decode, List.mem_filter, and_iff_right f.mem_all, beq_iff_eq]

theorem decode_code (f : WiringFault) : decode f.code = [f] := by cases f <;> decide

theorem eq_of_mem_decode {f g : WiringFault} {status : UInt8} (hf : f ∈ decode status)
    (hg : g ∈ decode status) (hwire : f.mask = g.mask) : f = g := by
  have hcode : f.code = g.code := by
    rw [← mem_decode.mp hf, ← mem_decode.mp hg, hwire]
  have hsame := decode_code f
  rw [hcode, decode_code] at hsame
  exact (List.head_eq_of_cons_eq hsame).symm

/-- The codes that are passed over. -/
theorem decode_eq_nil_iff {status : UInt8} : decode status = [] ↔
    status &&& 0x0F ∉ [0x04, 0x05, 0x06, 0x07] ∧
      status &&& 0xF0 ∉ [0x40, 0x50, 0x60, 0x70, 0x80] := by
  rw [decode, List.filter_eq_nil_iff]
  simp [all, mask, code, and_assoc]

end WiringFault

end CanBus
