import CanBus.Link
import CanBus.Netlink.Attribute

/-!
Messages of the routing netlink channel: requests about one interface, and the replies to them.
-/

namespace CanBus.Netlink

/-! ## Attribute types and flags -/

def nameType : UInt16 := 3
def queueLengthType : UInt16 := 13
def linkInfoType : UInt16 := 18
def extendedMaskType : UInt16 := 29

/-- Within link information. -/
def kindType : UInt16 := 1
def kindDataType : UInt16 := 2

/-- Within the data of a CAN link. -/
def bitTimingType : UInt16 := 1

def requestFlags : UInt16 := 0x001
def changeFlags : UInt16 := 0x005
def createFlags : UInt16 := 0x605

/-! ## Requests -/

structure Request where
  kind : UInt16
  flags : UInt16
  index : UInt32
  interfaceFlags : UInt32
  changeMask : UInt32
  attributes : List Attribute
  deriving DecidableEq, Repr

namespace Request

def query (index : UInt32) : Request :=
  ⟨18, requestFlags, index, 0, 0, [⟨extendedMaskType, LittleEndian.word32 1⟩]⟩

def change (index : UInt32) (attributes : List Attribute) : Request :=
  ⟨16, changeFlags, index, 0, 0, attributes⟩

def admin (index : UInt32) (up : Bool) : Request :=
  { change index [] with interfaceFlags := if up then 1 else 0, changeMask := 1 }

def queueLength (index value : UInt32) : Request :=
  change index [⟨queueLengthType, LittleEndian.word32 value⟩]

/-- A text attribute ends in a NUL. -/
def textAttribute (kind : UInt16) (s : String) : Attribute :=
  ⟨kind, s.toUTF8.data.toList ++ [0]⟩

/-- Sets one parameter of a link of kind `can`. -/
def parameter (index : UInt32) (kind : UInt16) (payload : List UInt8) : Request :=
  change index [.nested linkInfoType
    [textAttribute kindType "can", .nested kindDataType [⟨kind, payload⟩]]]

/-- The bitrate comes first; then sample point, quantum and segments. -/
def bitTiming (index : UInt32) (fields : List UInt32) : Request :=
  parameter index bitTimingType (fields.flatMap LittleEndian.word32)

/-- With all other timing fields 0, the kernel works them out itself. -/
def bitrate (index value : UInt32) : Request := bitTiming index (value :: List.replicate 7 0)

def delete (index : UInt32) : Request := ⟨17, changeFlags, index, 0, 0, []⟩

def createVirtual (name : String) : Request :=
  ⟨16, createFlags, 0, 0, 0, [textAttribute nameType name,
    .nested linkInfoType [textAttribute kindType "vcan"]]⟩

def ofChange (index : UInt32) : LinkChange → Request
  | .admin up => admin index up
  | .bitrate value => bitrate index value
  | .queueLength value => queueLength index value

def body (r : Request) : List UInt8 :=
  [0, 0, 0, 0] ++ LittleEndian.word32 r.index ++ LittleEndian.word32 r.interfaceFlags ++
    LittleEndian.word32 r.changeMask ++ Attribute.bytesAll r.attributes

def bytes (r : Request) : List UInt8 :=
  LittleEndian.bytes 4 (16 + r.body.length) ++ LittleEndian.word16 r.kind ++
    LittleEndian.word16 r.flags ++ List.replicate 8 0 ++ r.body

end Request

/-! ## Replies -/

/-- The body of a message, by its type. An error message carries what follows the header of the
request that it answers. -/
inductive Body
  | empty
  | ack
  | refused (code : Int) (rest : List UInt8)
  | payload (bs : List UInt8)
  deriving DecidableEq, Repr

def bufferSize : Nat := 32768

/-- The body of a message of a type; an error message of code 0 is an acknowledgement. -/
def Body.ofType? (kind : Nat) (bs : List UInt8) : Option Body :=
  match kind with
  | 3 => some .empty
  | 2 =>
    if bs.length < 20 then none
    else
      let code := Int.bmod (LittleEndian.value (bs.take 4)) 0x100000000
      some (if code = 0 then .ack else .refused code (bs.drop 20))
  | _ => some (.payload bs)

/-- The message is cut out of a buffer of zeros that holds what was received, so that one announced
as longer than that ends in zeros. It has to end on a multiple of four, since padding belongs to it;
an acknowledgement does so with the header that it quotes, and is not read any further. -/
def Body.ofReceived? (received : List UInt8) : Option Body :=
  let len := LittleEndian.value ((received ++ List.replicate 4 0).take 4)
  if received = [] ∨ len < 16 ∨ bufferSize < len then none
  else
    let buffer := received.take bufferSize
    let message := (buffer ++ List.replicate (len - buffer.length) 0).take len
    let kind := LittleEndian.value ((message.drop 4).take 2)
    (ofType? kind (message.drop 16)).filter fun b => b = .ack || len % 4 = 0

/-- Interface flags and attributes, as links are described in messages. -/
structure InterfaceInfo where
  flags : UInt32
  attributes : List Attribute
  deriving DecidableEq, Repr

def InterfaceInfo.parse? (bs : List UInt8) : Option InterfaceInfo :=
  if bs.length < 16 then none
  else (Attribute.parseAll? (bs.drop 16)).map fun as =>
    ⟨UInt32.ofNat (LittleEndian.value ((bs.drop 8).take 4)), as⟩

/-! ## Details of a link -/

structure Details where
  name : Option String := none
  isUp : Bool := false
  kind : Option String := none
  queueLength : Option UInt32 := none
  bitrate : Option UInt32 := none
  deriving DecidableEq, Repr

namespace Details

def bitTimingSize : Nat := 32

/-- A bit timing that is too short is an error; other parameters are passed over. -/
def addParameter (d : Details) (a : Attribute) : Option Details :=
  if a.kind = bitTimingType then
    if a.payload.length < bitTimingSize then none else some { d with bitrate := a.word? }
  else some d

def addLinkInfo (d : Details) (a : Attribute) : Option Details :=
  if a.kind = kindType then some { d with kind := a.text? }
  else if a.kind = kindDataType then do (← Attribute.parseAll? a.payload).foldlM addParameter d
  else some d

def add (d : Details) (a : Attribute) : Option Details :=
  if a.kind = nameType then some { d with name := a.text? }
  else if a.kind = queueLengthType then some { d with queueLength := a.word? }
  else if a.kind = linkInfoType then do (← Attribute.parseAll? a.payload).foldlM addLinkInfo d
  else some d

/-- Attributes are taken in order, the last of a type counting. -/
def ofInfo? (i : InterfaceInfo) : Option Details :=
  i.attributes.foldlM add { isUp := i.flags &&& 1 != 0 }

end Details

end CanBus.Netlink
