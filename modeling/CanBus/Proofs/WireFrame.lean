import CanBus.Proofs.Identifier
import CanBus.Socket

/-!
Encoding and decoding of frames, down to the bytes. Main statement: `encode_then_decode`.
-/

namespace CanBus

/-- Few bytes are filled up with zeros. -/
theorem Payload.bytes_ofList {bs : List UInt8} (h : bs.length ≤ 8) :
    (Payload.ofList bs).bytes = bs ++ List.replicate (8 - bs.length) 0 := by
  have hmin : min (8 - bs.length) 8 = 8 - bs.length := Nat.min_eq_left (Nat.sub_le _ _)
  simp only [Payload.ofList]
  rw [List.take_append, List.take_of_length_le h, List.take_replicate, hmin]

theorem LittleEndian.word32_eq (n : UInt32) :
    LittleEndian.word32 n = [UInt8.ofNat n.toNat, UInt8.ofNat (n.toNat / 0x100),
      UInt8.ofNat (n.toNat / 0x10000), UInt8.ofNat (n.toNat / 0x1000000)] := by
  simp only [LittleEndian.word32, LittleEndian.bytes, Nat.div_div_eq_div_mul]

namespace WireFrame

variable {id : UInt32} {extended : Bool} {len : Nat} {payload : List UInt8} {w : WireFrame}

/-! ## Encoding -/

/-- The 16 bytes of a data frame. -/
def layout (id : UInt32) (extended : Bool) (len : Nat) (payload : List UInt8) : List UInt8 :=
  let n := id.toNat + if extended then 0x80000000 else 0
  [UInt8.ofNat n, UInt8.ofNat (n / 0x100), UInt8.ofNat (n / 0x10000), UInt8.ofNat (n / 0x1000000),
    UInt8.ofNat len, 0, 0, 0] ++ payload.take len ++ List.replicate (8 - len) 0

theorem encode_of_misfit (h : 8 < len ∨ payload.length < len) :
    encode id extended len payload = .error (.invalidLength len) := by
  rw [encode, if_pos h]

theorem encode_of_wide (hl : len ≤ 8) (hp : len ≤ payload.length)
    (h : ¬ id.toNat < Identifier.bound extended) :
    encode id extended len payload = .error (.invalidId id) := by
  rw [encode, if_neg (by omega), IdWord.encode_of_not_fits h]
  rfl

/-- What a frame holds that was encoded. -/
structure Encodes (id : UInt32) (extended : Bool) (len : Nat) (payload : List UInt8)
    (w : WireFrame) : Prop where
  word : w.word.val.toNat = IdWord.wordValue id extended
  dlc : w.dlc = UInt8.ofNat len
  data : w.data = Payload.ofList (payload.take len)
  fits : id.toNat < Identifier.bound extended
  short : len ≤ 8
  enough : len ≤ payload.length

theorem encode_of_fits (hl : len ≤ 8) (hp : len ≤ payload.length)
    (h : id.toNat < Identifier.bound extended) :
    ∃ w, encode id extended len payload = .ok w ∧ Encodes id extended len payload w := by
  obtain ⟨word, he, hw⟩ := IdWord.encode_of_fits h
  refine ⟨⟨word, UInt8.ofNat len, Payload.ofList (payload.take len)⟩, ?_, hw, rfl, rfl, h,
    hl, hp⟩
  rw [encode, if_neg (by omega), he]
  rfl

theorem encode_ok_iff :
    (∃ w, encode id extended len payload = .ok w) ↔
      len ≤ 8 ∧ len ≤ payload.length ∧ id.toNat < Identifier.bound extended := by
  constructor
  · rintro ⟨w, hw⟩
    by_cases hl : 8 < len ∨ payload.length < len
    · rw [encode_of_misfit hl] at hw
      cases hw
    by_cases h : id.toNat < Identifier.bound extended
    · omega
    · rw [encode_of_wide (by omega) (by omega) h] at hw
      cases hw
  · rintro ⟨hl, hp, h⟩
    obtain ⟨w, hw, -⟩ := encode_of_fits hl hp h
    exact ⟨w, hw⟩

theorem encodes_of_encode (h : encode id extended len payload = .ok w) :
    Encodes id extended len payload w := by
  obtain ⟨hl, hp, hid⟩ := encode_ok_iff.mp ⟨w, h⟩
  obtain ⟨w', hw', he⟩ := encode_of_fits hl hp hid
  rw [h] at hw'
  cases hw'
  exact he

namespace Encodes

variable (e : Encodes id extended len payload w)
include e

theorem length_take : (payload.take len).length = len := List.length_take_of_le e.enough

theorem length_take_le : (payload.take len).length ≤ 8 :=
  Nat.le_trans (Nat.le_of_eq e.length_take) e.short

theorem bytes_eq :
    w.bytes = LittleEndian.word32 w.word.val ++ UInt8.ofNat len :: [0, 0, 0] ++
      (payload.take len ++ List.replicate (8 - len) 0) := by
  rw [bytes, e.dlc, e.data, Payload.bytes_ofList e.length_take_le, e.length_take]

theorem bytes_eq_layout : w.bytes = layout id extended len payload := by
  rw [e.bytes_eq, LittleEndian.word32_eq, e.word, layout, IdWord.wordValue]
  simp

theorem len_eq : w.len.val = len := by
  have hmod : len % 256 = len := Nat.mod_eq_of_lt (Nat.lt_of_le_of_lt e.short (by decide))
  have hdlc : w.dlc.toNat = len := by rw [e.dlc, UInt8.toNat_ofNat', hmod]
  show min w.dlc.toNat 8 = len
  rw [hdlc, Nat.min_eq_left e.short]

theorem decode_eq :
    ∃ f, w.decode = .data f ∧ f.id.raw = id ∧ f.id.isExtended = extended ∧
      f.len.val = len ∧
      f.data = payload.take len := by
  have herr := (IdWord.flags_of_wordValue e.fits e.word).2.2
  obtain ⟨hraw, hext⟩ := IdWord.identifier_of_wordValue e.fits e.word
  refine ⟨⟨w.word.identifier, w.len, w.data⟩, ?_, hraw, hext, e.len_eq, ?_⟩
  · rw [decode, herr]
    rfl
  · have ht := Payload.take_ofList e.length_take_le
    rw [e.length_take] at ht
    rw [Frame.data, e.len_eq, e.data, ht]

end Encodes

/-- A frame is encoded exactly if it is short enough, has the bytes and has an identifier
of its format. What is sent then is laid out as it should be, and reading it back gives
the same frame, as data. -/
theorem encode_then_decode (id : UInt32) (extended : Bool) (len : Nat) (payload : List UInt8) :
    let n := id.toNat + if extended then 0x80000000 else 0
    let fits := id.toNat < if extended then 0x20000000 else 0x800
    ((∃ w, encode id extended len payload = .ok w) ↔
      len ≤ 8 ∧ len ≤ payload.length ∧ fits) ∧
    (8 < len ∨ payload.length < len →
      encode id extended len payload = .error (.invalidLength len)) ∧
    (len ≤ 8 ∧ len ≤ payload.length ∧ ¬ fits →
      encode id extended len payload = .error (.invalidId id)) ∧
    ∀ w, encode id extended len payload = .ok w →
      w.bytes = [UInt8.ofNat n, UInt8.ofNat (n / 0x100), UInt8.ofNat (n / 0x10000),
          UInt8.ofNat (n / 0x1000000), UInt8.ofNat len, 0, 0, 0] ++ payload.take len ++
          List.replicate (8 - len) 0 ∧
      w.bytes.length = 16 ∧ w.word.isRemote = false ∧ w.word.isError = false ∧
      ∃ w' f, Socket.Reading.ofDatagram w.bytes = .frame w' ∧ w'.decode = .data f ∧
        f.id.raw = id ∧ f.id.isExtended = extended ∧ f.len.val = len ∧
          f.data = payload.take len := by
  intro n fits
  refine ⟨encode_ok_iff, encode_of_misfit, ?_, ?_⟩
  · rintro ⟨hl, hp, h⟩
    exact encode_of_wide hl hp h
  · intro w hw
    have e := encodes_of_encode hw
    obtain ⟨-, hremote, herror⟩ := IdWord.flags_of_wordValue e.fits e.word
    obtain ⟨f, hf⟩ := e.decode_eq
    refine ⟨e.bytes_eq_layout, w.length_bytes, hremote, herror, w, f, ?_, hf⟩
    rw [Socket.Reading.ofDatagram, if_pos w.length_bytes, ofBytes_bytes]

end WireFrame

end CanBus
