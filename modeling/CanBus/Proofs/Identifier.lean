import Mathlib.Data.Nat.Bitwise
import CanBus.Identifier

/-!
Identifier words as numbers. A flag is one bit of the word and an identifier is what the flags
leave, so that masking is a remainder and setting a flag is an addition. `encode_of_fits` and
`encode_of_not_fits` say when an identifier gets a word, and which.
-/

namespace CanBus

/-- The first number that is too large for an identifier of the format. -/
def Identifier.bound (extended : Bool) : Nat := if extended then 0x20000000 else 0x800

namespace IdWord

/-! ## Bits -/

theorem and_flag_ne_zero (a b : UInt32) {i : Nat} (hb : b.toNat = 2 ^ i) :
    (a &&& b != 0) = a.toNat.testBit i := by
  have h : (a &&& b).toNat = (a.toNat.testBit i).toNat * 2 ^ i := by
    rw [UInt32.toNat_and, hb, Nat.and_two_pow]
  have hp : 0 < 2 ^ i := Nat.two_pow_pos i
  rw [Bool.eq_iff_iff, bne_iff_ne, ne_eq, ← UInt32.toNat_inj, h]
  cases a.toNat.testBit i <;> simp

theorem isExtended_eq (w : IdWord) : w.isExtended = w.val.toNat.testBit 31 :=
  and_flag_ne_zero _ _ (by decide)

theorem isRemote_eq (w : IdWord) : w.isRemote = w.val.toNat.testBit 30 :=
  and_flag_ne_zero _ _ (by decide)

theorem isError_eq (w : IdWord) : w.isError = w.val.toNat.testBit 29 :=
  and_flag_ne_zero _ _ (by decide)

theorem and_not_eq_zero (a m : UInt32) : a &&& ~~~m = 0 ↔ a &&& m = a := by
  have hsplit : a &&& m ||| a &&& ~~~m = a := by
    apply UInt32.toBitVec_inj.mp
    rw [UInt32.toBitVec_or, UInt32.toBitVec_and, UInt32.toBitVec_and, UInt32.toBitVec_not,
      ← BitVec.and_or_distrib_left, BitVec.or_not_self, BitVec.and_allOnes]
  constructor
  · intro h
    rw [h, UInt32.or_zero] at hsplit
    exact hsplit
  · intro h
    rw [← h, UInt32.and_assoc, UInt32.and_not_self, UInt32.and_zero]

theorem toNat_and_mask (a : UInt32) (extended : Bool) :
    (a &&& mask extended).toNat = a.toNat % Identifier.bound extended := by
  cases extended with
  | false => exact Nat.and_two_pow_sub_one_eq_mod a.toNat 11
  | true => exact Nat.and_two_pow_sub_one_eq_mod a.toNat 29

/-- No bit outside the mask is set if the identifier fits its format. -/
theorem and_not_mask (id : UInt32) (extended : Bool) :
    id &&& ~~~(mask extended) = 0 ↔ id.toNat < Identifier.bound extended := by
  have hpos : 0 < Identifier.bound extended := by cases extended <;> decide
  rw [and_not_eq_zero, ← UInt32.toNat_inj, toNat_and_mask]
  constructor
  · intro h
    rw [← h]
    exact Nat.mod_lt _ hpos
  · exact Nat.mod_eq_of_lt

/-! ## Encoding -/

/-- The word of a data frame, as a number. -/
def wordValue (id : UInt32) (extended : Bool) : Nat := id.toNat + if extended then 0x80000000 else 0

theorem encode_of_fits {id : UInt32} {extended : Bool} (h : id.toNat < Identifier.bound extended) :
    ∃ w, encode id extended = .ok w ∧ w.val.toNat = wordValue id extended := by
  have hm := (and_not_mask id extended).mpr h
  refine ⟨⟨if extended then id ||| extendedFlag else id⟩, ?_, ?_⟩
  · rw [encode, if_neg (not_not_intro hm)]
  · cases extended with
    | false => rfl
    | true =>
      have hlt : id.toNat < 2 ^ 31 := Nat.lt_trans h (by decide)
      have hor := Nat.two_pow_add_eq_or_of_lt hlt 1
      show (id ||| extendedFlag).toNat = id.toNat + 0x80000000
      rw [UInt32.toNat_or, Nat.or_comm]
      exact hor.symm.trans (Nat.add_comm _ _)

theorem encode_of_not_fits {id : UInt32} {extended : Bool}
    (h : ¬ id.toNat < Identifier.bound extended) :
    encode id extended = .error (.invalidId id) := by
  rw [encode, if_pos (mt (and_not_mask id extended).mp h)]

section Word

variable {id : UInt32} {extended : Bool} {w : IdWord}

theorem flags_of_wordValue (h : id.toNat < Identifier.bound extended)
    (hw : w.val.toNat = wordValue id extended) :
    w.isExtended = extended ∧ w.isRemote = false ∧ w.isError = false := by
  rw [isExtended_eq, isRemote_eq, isError_eq, hw]
  cases extended <;>
    simp [Identifier.bound, wordValue, Nat.testBit_eq_decide_div_mod_eq] at h ⊢ <;> omega

theorem identifier_of_wordValue (h : id.toNat < Identifier.bound extended)
    (hw : w.val.toNat = wordValue id extended) :
    w.identifier.raw = id ∧ w.identifier.isExtended = extended := by
  have hx := (flags_of_wordValue h hw).1
  unfold identifier
  rw [hx, hw]
  cases extended with
  | false =>
    have hmod : wordValue id false % 0x800 = id.toNat := Nat.mod_eq_of_lt h
    refine ⟨UInt32.toNat_inj.mp ?_, rfl⟩
    exact (Identifier.toNat_raw _).trans hmod
  | true =>
    have hmod : wordValue id true % 0x20000000 = id.toNat := by
      have : id.toNat < 0x20000000 := h
      simp only [wordValue, if_true]
      omega
    refine ⟨UInt32.toNat_inj.mp ?_, rfl⟩
    exact (Identifier.toNat_raw _).trans hmod

end Word

end IdWord

end CanBus
