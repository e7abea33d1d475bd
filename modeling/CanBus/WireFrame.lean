import CanBus.Frame
import CanBus.LittleEndian
import CanBus.Report

/-!
Frames as they pass through a socket: an identifier word, a length byte and eight data bytes, laid
out in 16 bytes. Nothing about a received one can be relied on, so `decode` accepts them all: the
length is clamped and the identifier is cut to its format.
-/

namespace CanBus

structure WireFrame where
  word : IdWord
  dlc : UInt8
  data : Payload
  deriving DecidableEq, Repr

/-- What a received frame holds. -/
inductive Content
  | data (frame : Frame)
  | error (report : Report)
  deriving DecidableEq, Repr

namespace WireFrame

/-! ## Bytes -/

def size : Nat := 16

def bytes (w : WireFrame) : List UInt8 :=
  LittleEndian.word32 w.word.val ++ w.dlc :: [0, 0, 0] ++ w.data.bytes

/-- What 16 bytes say; the three behind the length are not looked at. -/
def ofBytes (bs : List UInt8) : WireFrame :=
  ⟨⟨UInt32.ofNat (LittleEndian.value (bs.take 4))⟩, bs.getD 4 0, Payload.ofList (bs.drop 8)⟩

theorem length_bytes (w : WireFrame) : w.bytes.length = size := by
  simp [bytes, w.data.length_eq, size]

theorem ofBytes_bytes (w : WireFrame) : ofBytes w.bytes = w := by
  have h4 : (LittleEndian.word32 w.word.val).length = 4 := LittleEndian.length_word32 _
  have ht : w.bytes.take 4 = LittleEndian.word32 w.word.val := by
    rw [bytes, List.append_assoc, List.take_left' h4]
  have hd : w.bytes.drop 8 = w.data.bytes := by
    have hl : (LittleEndian.word32 w.word.val ++ w.dlc :: [0, 0, 0]).length = 8 := by simp
    rw [bytes, List.drop_left' hl]
  have hg : w.bytes.getD 4 0 = w.dlc := by
    simp [bytes, h4]
  unfold ofBytes
  rw [ht, hd, hg, LittleEndian.value_word32, Payload.ofList_bytes, UInt32.ofNat_toNat]

/-! ## Data frames in and out -/

def len (w : WireFrame) : Fin 9 := ⟨min w.dlc.toNat 8, by omega⟩

/-- The first `len` bytes of the payload, under a word without remote and error flags. -/
def encode (id : UInt32) (extended : Bool) (len : Nat) (payload : List UInt8) :
    Except Failure WireFrame :=
  if 8 < len ∨ payload.length < len then .error (.invalidLength len)
  else (IdWord.encode id extended).map fun word =>
    ⟨word, UInt8.ofNat len, Payload.ofList (payload.take len)⟩

/-- The error flag is looked at first; the remote flag is not looked at. -/
def decode (w : WireFrame) : Content :=
  if w.word.isError then .error (Report.ofWord w.word.val w.data)
  else .data ⟨w.word.identifier, w.len, w.data⟩

def report? (w : WireFrame) : Option Report :=
  match w.decode with
  | .error r => some r
  | .data _ => none

/-- All eight bytes of the payload are taken over. -/
def ofFrame (f : Frame) : WireFrame := ⟨f.id.word, UInt8.ofNat f.len, f.payload⟩

/-- The word and the bytes that count, for traces. -/
def text (w : WireFrame) : String :=
  "WireFrame \x7b " ++ String.ofList (Text.Hex.natural .upper w.word.val.toNat) ++ "#" ++
    Text.Hex.dump (w.data.bytes.take w.len) ++ " \x7d"

end WireFrame

end CanBus
