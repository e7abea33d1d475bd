import CanBus.Proofs.WireFrame
import CanBus.Proofs.Frame.Text

/-!
Frames in the form in which they are sent. Sending what was received changes the word
and the length of a frame unless they were canonical already: `reencode` says when, and
that the data is kept always.
-/

namespace CanBus

/-! ## The words of identifiers -/

namespace Identifier

theorem raw_lt (i : Identifier) : i.raw.toNat < bound i.isExtended := by
  rw [toNat_raw]
  cases i with
  | standard v => exact v.isLt
  | extended v => exact v.isLt

theorem value_word (i : Identifier) : i.word.val.toNat = IdWord.wordValue i.raw i.isExtended := by
  have hfits := (IdWord.and_not_mask i.raw i.isExtended).mpr i.raw_lt
  obtain ⟨w, he, hw⟩ := IdWord.encode_of_fits i.raw_lt
  rw [IdWord.encode, if_neg (not_not_intro hfits)] at he
  rw [← hw, ← Except.ok.inj he]
  rfl

theorem flags_word (i : Identifier) :
    i.word.isExtended = i.isExtended ∧ i.word.isRemote = false ∧ i.word.isError = false :=
  IdWord.flags_of_wordValue i.raw_lt i.value_word

theorem identifier_word (i : Identifier) : i.word.identifier = i := by
  obtain ⟨hraw, hx⟩ := IdWord.identifier_of_wordValue i.raw_lt i.value_word
  exact ext_raw hraw hx

end Identifier

namespace IdWord

/-- The word for the identifier that was read off `w`: of `w`, the bits of its format
and the flag for that. -/
theorem value_word_identifier (w : IdWord) :
    w.identifier.word.val.toNat =
      if w.isExtended then w.val.toNat % 0x20000000 + 0x80000000 else w.val.toNat % 0x800 := by
  rw [Identifier.value_word, wordValue, Identifier.toNat_raw, identifier]
  cases w.isExtended <;> rfl

theorem word_identifier_of_extended {w : IdWord} (hx : w.isExtended = true)
    (herr : w.isError = false) : w.identifier.word = w ↔ w.isRemote = false := by
  have hlt : w.val.toNat < 0x100000000 := w.val.toNat_lt
  have hval := value_word_identifier w
  have heq : w.identifier.word = w ↔ w.val.toNat % 0x20000000 + 0x80000000 = w.val.toNat := by
    rw [hx, if_pos rfl] at hval
    rw [← hval, UInt32.toNat_inj]
    exact ⟨congrArg val, fun h => by cases w; exact congrArg mk h⟩
  rw [isExtended_eq, Nat.testBit_eq_decide_div_mod_eq, decide_eq_true_eq] at hx
  rw [isError_eq, Nat.testBit_eq_decide_div_mod_eq, decide_eq_false_iff_not] at herr
  rw [heq, isRemote_eq, Nat.testBit_eq_decide_div_mod_eq, decide_eq_false_iff_not]
  omega

theorem word_identifier_of_standard {w : IdWord} (hx : w.isExtended = false)
    (herr : w.isError = false) :
    w.identifier.word = w ↔
      w.isRemote = false ∧ ∀ i, 11 ≤ i → i ≤ 28 → w.val.toNat.testBit i = false := by
  have hval := value_word_identifier w
  have heq : w.identifier.word = w ↔ w.val.toNat < 2 ^ 11 := by
    rw [hx, if_neg Bool.false_ne_true] at hval
    have hmod : w.val.toNat % 0x800 = w.val.toNat ↔ w.val.toNat < 2 ^ 11 := by omega
    rw [← hmod, ← hval, UInt32.toNat_inj]
    exact ⟨congrArg val, fun h => by cases w; exact congrArg mk h⟩
  rw [heq]
  constructor
  · intro hlt
    have hclear : ∀ i, 11 ≤ i → w.val.toNat.testBit i = false := fun i hi =>
      Nat.testBit_lt_two_pow (Nat.lt_of_lt_of_le hlt (Nat.pow_le_pow_right (by decide) hi))
    exact ⟨(isRemote_eq w).trans (hclear 30 (by decide)), fun i hi _ => hclear i hi⟩
  · rintro ⟨hremote, hclear⟩
    apply Nat.lt_pow_two_of_testBit
    intro i hi
    -- bits 11 to 28 by hypothesis, three flags, and nothing in a word above them
    by_cases h28 : i ≤ 28
    · exact hclear i hi h28
    by_cases h29 : i = 29
    · rw [h29, ← isError_eq, herr]
    by_cases h30 : i = 30
    · rw [h30, ← isRemote_eq, hremote]
    by_cases h31 : i = 31
    · rw [h31, ← isExtended_eq, hx]
    have hwide : 2 ^ 32 ≤ 2 ^ i := Nat.pow_le_pow_right (by decide) (by omega)
    exact Nat.testBit_lt_two_pow (Nat.lt_of_lt_of_le w.val.toNat_lt hwide)

theorem word_identifier_eq_iff {w : IdWord} (herr : w.isError = false) :
    w.identifier.word = w ↔ w.isRemote = false ∧
      (w.isExtended = true ∨ ∀ i, 11 ≤ i → i ≤ 28 → w.val.toNat.testBit i = false) := by
  cases hx : w.isExtended with
  | true => simp [word_identifier_of_extended hx herr]
  | false => simp [word_identifier_of_standard hx herr]

end IdWord

/-! ## Frames -/

theorem Frame.toNat_len (f : Frame) : (UInt8.ofNat f.len).toNat = f.len.val :=
  UInt8.toNat_ofNat_of_lt' (Nat.lt_trans f.len.isLt (by decide))

namespace WireFrame

theorem len_ofFrame (f : Frame) : (ofFrame f).len = f.len := by
  apply Fin.ext
  show min (UInt8.ofNat f.len).toNat 8 = f.len.val
  rw [f.toNat_len]
  exact Nat.min_eq_left (Nat.le_of_lt_succ f.len.isLt)

theorem decode_ofFrame (f : Frame) : (ofFrame f).decode = .data f := by
  have herr : (ofFrame f).word.isError = false := f.id.flags_word.2.2
  have hid : (ofFrame f).word.identifier = f.id := f.id.identifier_word
  rw [decode, herr, hid, len_ofFrame]
  rfl

/-- Encoding a frame part by part leaves zeros behind the data. -/
theorem encode_frame (f : Frame) :
    encode f.id.raw f.id.isExtended f.len f.payload.bytes = .ok (ofFrame f.zeroFilled) := by
  have hlen : ¬ (8 < (f.len : Nat) ∨ f.payload.bytes.length < (f.len : Nat)) := by
    have := f.len.isLt
    rw [f.payload.length_eq]
    omega
  have hid := (IdWord.and_not_mask f.id.raw f.id.isExtended).mpr f.id.raw_lt
  rw [encode, if_neg hlen, IdWord.encode, if_neg (not_not_intro hid)]
  rfl

theorem decode_of_not_error {w : WireFrame} (h : w.word.isError = false) :
    w.decode = .data ⟨w.word.identifier, w.len, w.data⟩ := by
  rw [decode, h]
  rfl

theorem dlc_clamped_iff (w : WireFrame) : UInt8.ofNat w.len.val = w.dlc ↔ w.dlc.toNat ≤ 8 := by
  have hlen : w.len.val = min w.dlc.toNat 8 := rfl
  have hlt := w.dlc.toNat_lt
  rw [← UInt8.toNat_inj, UInt8.toNat_ofNat', hlen]
  omega

/-- A frame survives being sent and received. What is received and sent again keeps its data bytes,
but its flags and the bits that a frame has no place for are lost. -/
theorem reencode :
    (∀ f : Frame, (ofFrame f).word.isError = false ∧ (ofFrame f).word.isRemote = false ∧
      (ofFrame f).decode = .data f) ∧
    ∀ w : WireFrame, w.word.isError = false →
      ∃ f, w.decode = .data f ∧ (ofFrame f).data = w.data ∧
        ((ofFrame f).word = w.word ∧ (ofFrame f).dlc = w.dlc ↔
          w.word.isRemote = false ∧ w.dlc.toNat ≤ 8 ∧
          (w.word.isExtended = true ∨
            ∀ i, 11 ≤ i → i ≤ 28 → w.word.val.toNat.testBit i = false)) := by
  refine ⟨fun f => ?_, fun w herr => ⟨_, decode_of_not_error herr, rfl, ?_⟩⟩
  · obtain ⟨-, hremote, herr⟩ := f.id.flags_word
    exact ⟨herr, hremote, decode_ofFrame f⟩
  · have hword := IdWord.word_identifier_eq_iff herr
    have hdlc := dlc_clamped_iff w
    constructor
    · rintro ⟨h1, h2⟩
      obtain ⟨hremote, hbits⟩ := hword.mp h1
      exact ⟨hremote, hdlc.mp h2, hbits⟩
    · rintro ⟨hremote, hshort, hbits⟩
      exact ⟨hword.mpr ⟨hremote, hbits⟩, hdlc.mpr hshort⟩

/-- A remote request is decoded as data and sent on as data. -/
theorem reencode_of_remote :
    let w : WireFrame := ⟨⟨0x40000123⟩, 9, Payload.zero⟩
    w.word.isError = false ∧ ∃ f, w.decode = .data f ∧ (ofFrame f).data = w.data ∧
      ¬ ((ofFrame f).word = w.word ∧ (ofFrame f).dlc = w.dlc) := by
  intro w
  have herr : w.word.isError = false := by decide
  obtain ⟨f, hf, hdata, hiff⟩ := reencode.2 w herr
  exact ⟨herr, f, hf, hdata, fun h => absurd (hiff.mp h).1 (by decide)⟩

end WireFrame

end CanBus
