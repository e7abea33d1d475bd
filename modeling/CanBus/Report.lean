import CanBus.Payload
import CanBus.Report.Class
import CanBus.Report.Detail

/-!
Reports of bus errors, as carried by error frames: the classes present and eight bytes of detail. A
detail byte counts only if its class is present, and 0 in it means that nothing was specified.
-/

namespace CanBus

structure Report where
  classes : UInt32
  detail : Payload
  deriving DecidableEq, Repr

/-- The coarse kinds that portable code tells apart. -/
inductive ErrorKind
  | overrun
  | bit
  | stuff
  | crc
  | form
  | acknowledge
  | other
  deriving DecidableEq, Repr

namespace Report

/-- Bits of the word that name no class are dropped. -/
def ofWord (word : UInt32) (detail : Payload) : Report := ⟨word &&& ErrorClass.fullMask, detail⟩

def has (r : Report) (c : ErrorClass) : Bool := c.isIn r.classes

/-- A detail byte, unless it is unspecified or of a class that is absent. -/
def detail? (r : Report) (c : ErrorClass) (i : Nat) : Option UInt8 :=
  if r.has c && r.detail.byte i != 0 then some (r.detail.byte i) else none

def arbitrationBit? (r : Report) : Option UInt8 := r.detail? .lostArbitration 0

def controllerStatus? (r : Report) : Option UInt8 := r.detail? .controller 1

def violation? (r : Report) : Option Violation :=
  (r.detail? .protocol 2).map fun kinds => ⟨kinds, r.detail.byte 3⟩

def wiringFaults? (r : Report) : Option (List WiringFault) :=
  (r.detail? .transceiver 4).map WiringFault.decode

/-- Bus-off itself, or a controller that went error-passive. -/
def isBusOff (r : Report) : Bool :=
  r.has .busOff ||
    (r.has .controller &&
      (ControllerState.txPassive.isIn (r.detail.byte 1) ||
        ControllerState.rxPassive.isIn (r.detail.byte 1)))

/-! ## Text -/

def clause (r : Report) (c : ErrorClass) : String :=
  match c with
  | .lostArbitration =>
    match r.arbitrationBit? with
    | some bit => s!"{c.name} on bit {bit.toNat}"
    | none => s!"{c.name} on unknown bit"
  | .controller =>
    match r.controllerStatus? with
    | some status => s!"{c.name} [{ControllerState.text status}]"
    | none => s!"unspecified {c.name}"
  | .protocol =>
    match r.violation? with
    | some v => s!"{c.name} [{v.text}]"
    | none => s!"unspecified {c.name}"
  | .transceiver =>
    match r.wiringFaults? with
    | some faults => c.name ++ " [" ++ ", ".intercalate (faults.map WiringFault.name) ++ "]"
    | none => s!"unspecified {c.name}"
  | _ => c.name

def text (r : Report) : String :=
  ", ".intercalate ((ErrorClass.present r.classes).map r.clause)

/-! ## Kind -/

def violationKind (v : Violation) : ErrorKind :=
  if ViolationKind.bit.isIn v.kinds || ViolationKind.dominant.isIn v.kinds ||
      ViolationKind.recessive.isIn v.kinds then .bit
  else if ViolationKind.stuff.isIn v.kinds then .stuff
  else if ViolationKind.form.isIn v.kinds then .form
  else if v.location? = some .crcSequence || v.location? = some .crcDelimiter then .crc
  else .other

/-- Overruns come first, then missing acknowledgement, then the violation. -/
def kind (r : Report) : ErrorKind :=
  let overrun := match r.controllerStatus? with
    | some status => ControllerState.rxOverflow.isIn status ||
      ControllerState.txOverflow.isIn status
    | none => false
  if overrun then .overrun
  else if r.has .noAck then .acknowledge
  else match r.violation? with
    | some v => violationKind v
    | none => .other

end Report

end CanBus
