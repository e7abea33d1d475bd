import Mathlib.Data.List.Forall2
import Mathlib.Data.Nat.Digits.Defs
import CanBus.Text.Blank
import CanBus.Text.Hex

/-!
Digits read back: `numberFrom?_fixed` for a number written in a fixed count of digits, and what a
digit is not, so that a text around digits can be taken apart. Numbers and bytes are read from just
those texts that stand for them (`number?_eq_some_iff`, `octets?_eq_some_iff`).
-/

namespace CanBus.Text

namespace Hex

/-! ## Characters of digits -/

/-- A digit is no mark: it is not blank, and none of the other characters that a
frame's text may have. -/
theorem digit_plain (c : Case) {n : Nat} (h : n < 16) :
    isBlank (digit c n) = false ∧ digit c n ≠ '#' ∧ digit c n ≠ '.' ∧
    digit c n ≠ '+' := by
  have hall : ∀ c ∈ [Case.lower, Case.upper], ∀ n < 16,
      isBlank (digit c n) = false ∧ digit c n ≠ '#' ∧ digit c n ≠ '.' ∧
        digit c n ≠ '+' := by
    decide
  exact hall c (by cases c <;> simp) n h

theorem utf8Size_digit (c : Case) {n : Nat} (h : n < 16) : (digit c n).utf8Size = 1 := by
  have hall : ∀ c ∈ [Case.lower, Case.upper], ∀ n < 16, (digit c n).utf8Size = 1 := by decide
  exact hall c (by cases c <;> simp) n h

theorem mem_fixed {c : Case} {w n : Nat} {ch : Char} (h : ch ∈ fixed c w n) :
    ∃ d < 16, ch = digit c d := by
  induction w generalizing n with
  | zero => simp [fixed] at h
  | succ w ih =>
    rcases List.mem_append.mp h with h | h
    · exact ih h
    · exact ⟨n % 16, Nat.mod_lt _ (by decide), List.mem_singleton.mp h⟩

theorem mem_octets {c : Case} {bs : List UInt8} {ch : Char} (h : ch ∈ octets c bs) :
    ∃ d < 16, ch = digit c d := by
  obtain ⟨b, -, hb⟩ := List.mem_flatMap.mp h
  exact mem_fixed hb

/-! ## Numbers -/

theorem numberFrom?_append (acc : Nat) (as bs : List Char) :
    numberFrom? acc (as ++ bs) = (numberFrom? acc as).bind fun a => numberFrom? a bs := by
  induction as generalizing acc with
  | nil => rfl
  | cons a as ih => cases h : value? a <;> simp [numberFrom?, h, ih]

/-- The digits go behind those that were read before, and say the number as far as they reach. -/
theorem numberFrom?_fixed (c : Case) (w n acc : Nat) :
    numberFrom? acc (fixed c w n) = some (Nat.pow 16 w * acc + n % Nat.pow 16 w) := by
  induction w generalizing n with
  | zero => simp [fixed, numberFrom?, Nat.pow, Nat.mod_one]
  | succ w ih =>
    have hp : Nat.pow 16 (w + 1) = 16 * Nat.pow 16 w := Nat.mul_comm _ _
    have hlast : n % 16 < 16 := Nat.mod_lt _ (by decide)
    have hsplit : n % Nat.pow 16 (w + 1) = n % 16 + 16 * (n / 16 % Nat.pow 16 w) := by
      rw [hp, Nat.mod_mul]
    rw [fixed, numberFrom?_append, ih, hsplit]
    simp only [Option.bind_some, numberFrom?, value?_digit c hlast]
    rw [hp, Nat.mul_assoc]
    congr 1
    omega

theorem number?_of_ne_nil {cs : List Char} (h : cs ≠ []) : number? cs = numberFrom? 0 cs := by
  cases cs with
  | nil => contradiction
  | cons c cs => rfl

theorem number?_fixed (c : Case) {w n : Nat} (hw : 0 < w) (hn : n < Nat.pow 16 w) :
    number? (fixed c w n) = some n := by
  have hne : fixed c w n ≠ [] := by
    rw [← List.length_pos_iff, length_fixed]
    exact hw
  rw [number?_of_ne_nil hne, numberFrom?_fixed, Nat.mod_eq_of_lt hn, Nat.mul_zero, Nat.zero_add]

/-! ## Texts that can be read -/

/-- A digit of either case, and its value. -/
def IsDigit (ch : Char) (d : Nat) : Prop := d < 16 ∧ ∃ c, ch = digit c d

/-- At least one digit, the most significant first. -/
def IsNumber (cs : List Char) (n : Nat) : Prop :=
  cs ≠ [] ∧ ∃ ds, List.Forall₂ IsDigit cs ds ∧ n = Nat.ofDigits 16 ds.reverse

/-- Two digits for each byte, the higher half first. -/
def IsOctets (cs : List Char) (bs : List UInt8) : Prop :=
  List.Forall₂ IsDigit cs (bs.flatMap fun b => [b.toNat / 16, b.toNat % 16])

theorem value?_eq_some_iff {ch : Char} {d : Nat} : value? ch = some d ↔ IsDigit ch d := by
  constructor
  · intro h
    have hch : Char.ofNat ch.toNat = ch := Char.ofNat_toNat ch
    unfold value? at h
    split at h
    next hr =>
      have hle : 48 ≤ ch.toNat ∧ ch.toNat ≤ 57 := hr
      have hd : ch.toNat - 48 = d := Option.some.inj h
      have hsum : 48 + d = ch.toNat := by omega
      exact ⟨by omega, .lower, by rw [digit, if_pos (by omega), hsum, hch]⟩
    next =>
      split at h
      next hr =>
        have hle : 97 ≤ ch.toNat ∧ ch.toNat ≤ 102 := hr
        have hd : ch.toNat - 87 = d := Option.some.inj h
        have hsum : 87 + d = ch.toNat := by omega
        refine ⟨by omega, .lower, ?_⟩
        rw [digit, if_neg (by omega)]
        simp only [hsum, hch]
      next =>
        split at h
        next hr =>
          have hle : 65 ≤ ch.toNat ∧ ch.toNat ≤ 70 := hr
          have hd : ch.toNat - 55 = d := Option.some.inj h
          have hsum : 55 + d = ch.toNat := by omega
          refine ⟨by omega, .upper, ?_⟩
          rw [digit, if_neg (by omega)]
          simp only [hsum, hch]
        next => cases h
  · rintro ⟨hd, c, rfl⟩
    exact value?_digit c hd

theorem numberFrom?_eq_some_iff {acc n : Nat} {cs : List Char} :
    numberFrom? acc cs = some n ↔
      ∃ ds, List.Forall₂ IsDigit cs ds ∧ n = Nat.ofDigits 16 (ds.reverse ++ [acc]) := by
  induction cs generalizing acc with
  | nil => simp [numberFrom?, List.forall₂_nil_left_iff, eq_comm]
  | cons c cs ih =>
    have hacc (d : Nat) (ds : List Nat) : Nat.ofDigits 16 ((d :: ds).reverse ++ [acc]) =
        Nat.ofDigits 16 (ds.reverse ++ [16 * acc + d]) := by
      simp only [List.reverse_cons, List.append_assoc, List.singleton_append, Nat.ofDigits_append,
        Nat.ofDigits_cons, Nat.ofDigits_nil, Nat.mul_zero, Nat.add_zero, Nat.add_comm (16 * acc)]
    rw [numberFrom?, Option.bind_eq_some_iff]
    simp only [value?_eq_some_iff, ih, List.forall₂_cons_left_iff]
    constructor
    · rintro ⟨d, hd, ds, hds, rfl⟩
      exact ⟨d :: ds, ⟨d, ds, hd, hds, rfl⟩, (hacc d ds).symm⟩
    · rintro ⟨_, ⟨d, ds, hd, hds, rfl⟩, rfl⟩
      exact ⟨d, hd, ds, hds, hacc d ds⟩

theorem number?_eq_some_iff {cs : List Char} {n : Nat} : number? cs = some n ↔ IsNumber cs n := by
  by_cases hnil : cs = []
  · simp [number?, IsNumber, hnil]
  · simp only [number?_of_ne_nil hnil, numberFrom?_eq_some_iff, Nat.ofDigits_append_zero, IsNumber,
      ne_eq, hnil, not_false_eq_true, true_and]

/-- Digits have one value. -/
theorem IsNumber.unique {cs : List Char} {n m : Nat} (hn : IsNumber cs n) (hm : IsNumber cs m) :
    n = m :=
  Option.some.inj ((number?_eq_some_iff.mpr hn).symm.trans (number?_eq_some_iff.mpr hm))

theorem isOctets_nil {bs : List UInt8} : IsOctets [] bs ↔ bs = [] := by
  cases bs <;> simp [IsOctets, List.forall₂_nil_left_iff]

theorem isOctets_cons {a b : Char} {cs : List Char} {x : UInt8} {bs : List UInt8} :
    IsOctets (a :: b :: cs) (x :: bs) ↔
      IsDigit a (x.toNat / 16) ∧ IsDigit b (x.toNat % 16) ∧ IsOctets cs bs := by
  simp only [IsOctets, List.flatMap_cons, List.cons_append, List.nil_append, List.forall₂_cons]

/-- Two digits and the byte that they make. -/
theorem IsOctets.cons {a b : Char} {hi lo : Nat} {cs : List Char} {bs : List UInt8}
    (ha : IsDigit a hi) (hb : IsDigit b lo) (h : IsOctets cs bs) :
    IsOctets (a :: b :: cs) (UInt8.ofNat (16 * hi + lo) :: bs) := by
  have hhi : hi < 16 := ha.1
  have hlo : lo < 16 := hb.1
  have hbyte : (UInt8.ofNat (16 * hi + lo)).toNat = 16 * hi + lo := by
    rw [UInt8.toNat_ofNat']
    omega
  have hhigh : (16 * hi + lo) / 16 = hi := by omega
  have hlow : (16 * hi + lo) % 16 = lo := by omega
  rw [isOctets_cons, hbyte, hhigh, hlow]
  exact ⟨ha, hb, h⟩

theorem octets?_eq_some_iff : ∀ {cs : List Char} {bs : List UInt8},
    octets? cs = some bs ↔ IsOctets cs bs
  | [], bs => by simp [octets?, isOctets_nil, eq_comm]
  | [a], bs => by cases bs <;> simp [octets?, IsOctets]
  | a :: b :: cs, bs => by
    have ih (bs : List UInt8) : octets? cs = some bs ↔ IsOctets cs bs := octets?_eq_some_iff
    constructor
    · intro h
      rw [octets?] at h
      split at h
      next hi lo rest ha hb hcs =>
        cases h
        exact .cons (value?_eq_some_iff.mp ha) (value?_eq_some_iff.mp hb) ((ih rest).mp hcs)
      next => cases h
    · intro h
      cases bs with
      | nil => simp [IsOctets] at h
      | cons x bs =>
        obtain ⟨ha, hb, hcs⟩ := isOctets_cons.mp h
        rw [octets?, value?_eq_some_iff.mpr ha, value?_eq_some_iff.mpr hb, (ih bs).mpr hcs]
        simp only [Nat.div_add_mod, UInt8.ofNat_toNat]

/-- Bytes can be read from an even number of digits, whichever they are. -/
theorem exists_isOctets_iff : ∀ {cs : List Char},
    (∃ bs, IsOctets cs bs) ↔ cs.length % 2 = 0 ∧ ∀ c ∈ cs, ∃ d, IsDigit c d
  | [] => by simp [isOctets_nil]
  | [a] => by
    constructor
    · rintro ⟨bs, h⟩
      cases bs <;> simp [IsOctets] at h
    · simp
  | a :: b :: cs => by
    have ih : (∃ bs, IsOctets cs bs) ↔ _ := exists_isOctets_iff
    have hlen : (a :: b :: cs).length % 2 = cs.length % 2 := by
      simp only [List.length_cons]
      omega
    rw [hlen, List.forall_mem_cons, List.forall_mem_cons]
    constructor
    · rintro ⟨bs, h⟩
      cases bs with
      | nil => simp [IsOctets] at h
      | cons x bs =>
        obtain ⟨ha, hb, hcs⟩ := isOctets_cons.mp h
        obtain ⟨heven, hall⟩ := ih.mp ⟨bs, hcs⟩
        exact ⟨heven, ⟨_, ha⟩, ⟨_, hb⟩, hall⟩
    · rintro ⟨heven, ⟨hi, ha⟩, ⟨lo, hb⟩, hall⟩
      obtain ⟨bs, hcs⟩ := ih.mpr ⟨heven, hall⟩
      exact ⟨_, .cons ha hb hcs⟩

end Hex

end CanBus.Text
