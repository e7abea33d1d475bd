import CanBus.Proofs.Frame.Grammar

/-!
How the identifier of a text is spelled, and the format that this gives to the frame. Eight
digits are to make a frame extended, and so is a value of more than 11 bits; what counts is
eight characters, so that a plus sign stands in for one digit. `extended_by_spelling` says
when that makes a difference.
-/

namespace CanBus.Frame

open CanBus.Text

/-- The identifier of a text is written with this sign and these digits,
and they have this value. -/
structure Spelled (s : String) (sign digits : List Char) (n : Nat) : Prop where
  parts : ∃ dataPart, Parts s (sign ++ digits) dataPart
  sign : sign = [] ∨ sign = ['+']
  number : Hex.IsNumber digits n

/-- The rule for digits: eight of them, or a value that needs more than 11 bits. -/
def CallsForExtended (digits : List Char) (n : Nat) : Prop := digits.length = 8 ∨ 0x7FF < n

/-- A sign is no digit, so that there is one way to tell them apart. -/
theorem sign_append_inj {sign sign' digits digits' : List Char} {n m : Nat}
    (hs : sign = [] ∨ sign = ['+']) (hs' : sign' = [] ∨ sign' = ['+'])
    (hn : Hex.IsNumber digits n) (hm : Hex.IsNumber digits' m)
    (h : sign ++ digits = sign' ++ digits') :
    sign = sign' ∧ digits = digits' := by
  rcases hs with rfl | rfl <;> rcases hs' with rfl | rfl
  · exact ⟨rfl, h⟩
  · rw [List.nil_append] at h
    exact absurd (h ▸ hn) not_isNumber_plus
  · rw [List.nil_append] at h
    exact absurd (h.symm ▸ hm) not_isNumber_plus
  · exact ⟨rfl, List.append_cancel_left h⟩

section Spelled

variable {s : String} {f : Frame} {sign sign' digits digits' : List Char} {n m : Nat}

theorem Spelled.unique (h : Spelled s sign digits n) (h' : Spelled s sign' digits' m) :
    sign' = sign ∧ digits' = digits ∧ m = n := by
  obtain ⟨dataPart, hparts⟩ := h.parts
  obtain ⟨dataPart', hparts'⟩ := h'.parts
  have hsame := (parts_iff.mp hparts').symm.trans (parts_iff.mp hparts)
  have hid : sign' ++ digits' = sign ++ digits := congrArg Prod.fst (Option.some.inj hsame)
  obtain ⟨rfl, rfl⟩ := sign_append_inj h'.sign h.sign h'.number h.number hid
  exact ⟨rfl, rfl, h'.number.unique h.number⟩

/-- A text that is a frame has a spelling of its identifier, and the frame is extended by the count
of the characters in it. -/
theorem spelled_of_parse (hf : parse s = .ok f) :
    ∃ sign digits, Spelled s sign digits f.id.raw.toNat ∧
      (f.id.isExtended = true ↔ sign.length + digits.length = 8 ∨ 0x7FF < f.id.raw.toNat) := by
  have houtcome := parse_outcome s
  rw [hf] at houtcome
  cases houtcome with
  | @frame idPart n bs f h hn hb =>
    rw [parse_of_reads h, build_eq_ok_iff] at hf
    obtain ⟨hraw, hx, -⟩ := hf
    have hvalue : f.id.raw.toNat = n := by rw [hraw, UInt32.toNat_ofNat_of_lt' h.word]
    obtain ⟨dataPart, hparts, -⟩ := h.parts
    obtain ⟨sign, digits, rfl, hsign, hnumber⟩ := h.id
    refine ⟨sign, digits, ⟨⟨dataPart, hparts⟩, hsign, hvalue ▸ hnumber⟩, ?_⟩
    rw [hx, ← hraw, Bool.or_eq_true, decide_eq_true_eq, decide_eq_true_eq, List.length_append,
      UInt32.lt_iff_toNat_lt]
    rfl

end Spelled

/-- The sign counts as a digit. So the rule for the format is broken exactly by small identifiers
with a sign: with seven digits they are extended all the same, and with eight they aren't. -/
theorem extended_by_spelling (s : String) (f : Frame) (hf : parse s = .ok f) :
    ∃ sign digits, Spelled s sign digits f.id.raw.toNat ∧
      (∀ sign' digits' n, Spelled s sign' digits' n →
        sign' = sign ∧ digits' = digits ∧ n = f.id.raw.toNat) ∧
      (sign = [] → (f.id.isExtended = true ↔ CallsForExtended digits f.id.raw.toNat)) ∧
      (sign = ['+'] →
        (f.id.isExtended = true ↔ digits.length = 7 ∨ 0x7FF < f.id.raw.toNat)) ∧
      (¬ (f.id.isExtended = true ↔ CallsForExtended digits f.id.raw.toNat) ↔
        sign = ['+'] ∧ f.id.raw.toNat ≤ 0x7FF ∧
          (digits.length = 7 ∨ digits.length = 8)) := by
  obtain ⟨sign, digits, h, hx⟩ := spelled_of_parse hf
  refine ⟨sign, digits, h, fun sign' digits' n h' => h.unique h', ?_⟩
  rw [hx]
  unfold CallsForExtended
  rcases h.sign with rfl | rfl
  · simp
  · have hlen : ['+'].length + digits.length = 8 ↔ digits.length = 7 := by
      rw [List.length_singleton]
      omega
    simp only [hlen, List.cons_ne_nil, false_imp_iff, true_and, true_imp_iff]
    omega

/-- Seven digits and a sign. -/
theorem extended_by_spelling_of_signed :
    let f : Frame := ⟨.extended 0x123, 1, Payload.ofList [0x0A]⟩
    parse "+0000123#0A" = .ok f ∧
      ∃ sign digits, Spelled "+0000123#0A" sign digits 0x123 ∧
        ¬ (f.id.isExtended = true ↔ CallsForExtended digits 0x123) := by
  intro f
  have hf : parse "+0000123#0A" = .ok f := by rfl
  have hspelled : Spelled "+0000123#0A" ['+'] "0000123".toList 0x123 :=
    ⟨⟨"0A".toList, parts_iff.mpr (by rfl)⟩, .inr rfl, Hex.number?_eq_some_iff.mp (by rfl)⟩
  obtain ⟨sign, digits, h, hunique, -, -, hbroken⟩ := extended_by_spelling _ f hf
  obtain ⟨rfl, rfl, -⟩ := hunique _ _ _ hspelled
  exact ⟨hf, _, _, h, hbroken.mpr ⟨rfl, by decide, .inl (by decide)⟩⟩

/-- The rule for digits doesn't hold: there are texts with seven digits whose frame is extended, and
texts with eight whose frame is not, for the same identifier of 11 bits. -/
theorem sign_counts_as_digit :
    (¬ ∀ s f sign digits n, parse s = .ok f → Spelled s sign digits n →
      (f.id.isExtended = true ↔ CallsForExtended digits n)) ∧
    parse "+0000123#" = .ok ⟨.extended 0x123, 0, Payload.zero⟩ ∧
    parse "+00000123#" = .ok ⟨.standard 0x123, 0, Payload.zero⟩ := by
  have hseven : parse "+0000123#" = .ok ⟨.extended 0x123, 0, Payload.zero⟩ := by rfl
  have height : parse "+00000123#" = .ok ⟨.standard 0x123, 0, Payload.zero⟩ := by rfl
  refine ⟨fun hrule => ?_, hseven, height⟩
  have hspelled : Spelled "+0000123#" ['+'] "0000123".toList 0x123 :=
    ⟨⟨[], parts_iff.mpr (by rfl)⟩, .inr rfl, Hex.number?_eq_some_iff.mp (by rfl)⟩
  rcases (hrule _ _ _ _ _ hseven hspelled).mp rfl with hdigits | hvalue
  · exact absurd hdigits (by decide)
  · exact absurd hvalue (by decide)

end CanBus.Frame
