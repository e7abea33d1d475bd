import CanBus.LittleEndian
import CanBus.Text.Utf8

/-!
Netlink attributes: a length that counts its own header, a type, a payload, and zeros up to a
multiple of four. Attributes nest by being payload. Main statement: `parseAll?_bytesAll`, reading
gives back what was written.
-/

namespace CanBus.Netlink

structure Attribute where
  kind : UInt16
  payload : List UInt8
  deriving DecidableEq, Repr

namespace Attribute

/-- The next multiple of four. -/
def padded (n : Nat) : Nat := (n + 3) / 4 * 4

def bytes (a : Attribute) : List UInt8 :=
  let len := 4 + a.payload.length
  LittleEndian.bytes 2 len ++ LittleEndian.word16 a.kind ++ a.payload ++
    List.replicate (padded len - len) 0

def bytesAll (as : List Attribute) : List UInt8 := as.flatMap bytes

def nested (kind : UInt16) (as : List Attribute) : Attribute := ⟨kind, bytesAll as⟩

/-- Attributes fill the bytes exactly, the padding of the last one included. -/
def parseAll? (bs : List UInt8) : Option (List Attribute) :=
  if bs = [] then some []
  else
    let len := LittleEndian.value (bs.take 2)
    if 4 ≤ len ∧ padded len ≤ bs.length then
      let kind := UInt16.ofNat (LittleEndian.value ((bs.drop 2).take 2))
      (parseAll? (bs.drop (padded len))).map fun as => ⟨kind, (bs.take len).drop 4⟩ :: as
    else none
  termination_by bs.length
  decreasing_by
    simp only [padded, List.length_drop] at *
    omega

/-- The first four bytes as a word, if there are four. -/
def word? (a : Attribute) : Option UInt32 :=
  if 4 ≤ a.payload.length then some (UInt32.ofNat (LittleEndian.value (a.payload.take 4)))
  else none

def text? (a : Attribute) : Option String := Text.Utf8.untilNul? a.payload

theorem le_padded (n : Nat) : n ≤ padded n := by unfold padded; omega

theorem length_bytes (a : Attribute) : a.bytes.length = padded (4 + a.payload.length) := by
  have := le_padded (4 + a.payload.length)
  simp [bytes]
  omega

/-- The padding is skipped, whatever it is. -/
theorem parseAll?_cons {kind : UInt16} {payload padding : List UInt8}
    (h : 4 + payload.length < 0x10000)
    (hp : padding.length = padded (4 + payload.length) - (4 + payload.length))
    (rest : List UInt8) :
    parseAll? (LittleEndian.bytes 2 (4 + payload.length) ++ LittleEndian.word16 kind ++ payload ++
      padding ++ rest) = (parseAll? rest).map (⟨kind, payload⟩ :: ·) := by
  let len := 4 + payload.length
  let head := LittleEndian.bytes 2 len ++ LittleEndian.word16 kind
  let field := head ++ payload ++ padding
  have hle : len ≤ padded len := le_padded len
  have hhead : head.length = 4 := by simp [head]
  have hfield : field.length = padded len := by
    simp only [field, List.length_append, hhead, hp]
    exact Nat.add_sub_of_le hle
  have hlen : LittleEndian.value ((field ++ rest).take 2) = len := by
    have h2 : (field ++ rest).take 2 = LittleEndian.bytes 2 len := by
      simp only [field, head, List.append_assoc]
      exact List.take_left' (LittleEndian.length_bytes 2 _)
    rw [h2, LittleEndian.value_bytes]
    exact Nat.mod_eq_of_lt h
  have hkind : UInt16.ofNat (LittleEndian.value (((field ++ rest).drop 2).take 2)) = kind := by
    have h2 : ((field ++ rest).drop 2).take 2 = LittleEndian.word16 kind := by
      simp only [field, head, List.append_assoc]
      exact LittleEndian.take_drop_field (LittleEndian.length_bytes 2 _)
        (LittleEndian.length_word16 _)
    rw [h2, LittleEndian.value_word16, UInt16.ofNat_toNat]
  have hpayload : ((field ++ rest).take len).drop 4 = payload := by
    have hd : len - 4 = payload.length := Nat.add_sub_cancel_left 4 _
    rw [List.drop_take, hd]
    simp only [field, List.append_assoc]
    exact LittleEndian.take_drop_field hhead rfl
  have hne : field ++ rest ≠ [] := List.ne_nil_of_length_pos (by rw [List.length_append]; omega)
  have hfits : 4 ≤ len ∧ padded len ≤ (field ++ rest).length := by
    rw [List.length_append]
    omega
  show parseAll? (field ++ rest) = _
  rw [parseAll?]
  simp only [hne, if_false, hlen, hkind, hpayload]
  rw [if_pos hfits, List.drop_left' hfield]

theorem parseAll?_bytes_append {a : Attribute} (h : 4 + a.payload.length < 0x10000)
    (rest : List UInt8) :
    parseAll? (a.bytes ++ rest) = (parseAll? rest).map (a :: ·) :=
  parseAll?_cons h List.length_replicate rest

theorem parseAll?_bytesAll {as : List Attribute}
    (h : ∀ a ∈ as, 4 + a.payload.length < 0x10000) :
    parseAll? (bytesAll as) = some as := by
  induction as with
  | nil => simp [bytesAll, parseAll?]
  | cons a as ih =>
    have ha := h a (by simp)
    have has := ih fun b hb => h b (by simp [hb])
    simp only [bytesAll, List.flatMap_cons] at has ⊢
    rw [parseAll?_bytes_append ha, has]
    rfl

end Attribute

end CanBus.Netlink
