import CanBus.Proofs.Report.Detail

/-!
The text of a report says neither more nor less than the report. A clause begins with the name of
its class, after a word if nothing was specified, and ends with the detail; `clause_eq` takes it
apart. Main statement: `text_eq_iff_sameDetail`.
-/

namespace CanBus

open Text

namespace ErrorClass

theorem mem_present {c : ErrorClass} {bits : UInt32} :
    c ∈ present bits ↔ c.isIn bits = true := by
  rw [present, List.mem_filter]
  exact and_iff_right c.mem_all

/-- A class by its name, and what stands before the name if no detail was specified. -/
def word : Option ErrorClass → String
  | none => "unspecified "
  | some c => c.name

theorem not_prefix_word {p q : Option ErrorClass} (h : p ≠ q) :
    ¬ (word p).toList <+: (word q).toList := by
  have hnames : ∀ c ∈ all, ∀ d ∈ all, c ≠ d → ¬ c.name.toList <+: d.name.toList := by
    decide
  have hnone : ∀ c ∈ all, ¬ "unspecified ".toList <+: c.name.toList ∧
      ¬ c.name.toList <+: "unspecified ".toList := by decide
  cases p with
  | none =>
    cases q with
    | none => exact absurd rfl h
    | some d => exact (hnone d d.mem_all).1
  | some c =>
    cases q with
    | none => exact (hnone c c.mem_all).2
    | some d => exact hnames c c.mem_all d d.mem_all fun he => h (congrArg some he)

/-- How the clause of a class begins, for a detail that was specified or not. -/
def opening (c : ErrorClass) (specified : Bool) : String :=
  if specified then word (some c) else word none ++ word (some c)

/-- No clause begins like one of another class. -/
theorem opening_append_inj {c d : ErrorClass} {a b : Bool} {x y : String}
    (h : opening c a ++ x = opening d b ++ y) : c = d ∧ a = b ∧ x = y := by
  have hword {p q : Option ErrorClass} {x y : String} (h : word p ++ x = word q ++ y) :
      p = q ∧ x = y := by
    obtain rfl := eq_of_append_eq (fun _ _ => not_prefix_word) h
    exact ⟨rfl, (String.append_right_inj _).mp h⟩
  cases a with
  | true =>
    cases b with
    | true =>
      change word (some c) ++ x = word (some d) ++ y at h
      obtain ⟨hc, hx⟩ := hword h
      exact ⟨Option.some.inj hc, rfl, hx⟩
    | false =>
      change word (some c) ++ x = word none ++ word (some d) ++ y at h
      rw [String.append_assoc] at h
      cases (hword h).1
  | false =>
    cases b with
    | true =>
      change word none ++ word (some c) ++ x = word (some d) ++ y at h
      rw [String.append_assoc] at h
      cases (hword h).1
    | false =>
      change word none ++ word (some c) ++ x = word none ++ word (some d) ++ y at h
      rw [String.append_assoc, String.append_assoc] at h
      obtain ⟨hc, hx⟩ := hword (hword h).2
      exact ⟨Option.some.inj hc, rfl, hx⟩

theorem isItem_opening (c : ErrorClass) (specified : Bool) : IsItem (opening c specified) := by
  have hname : IsItem (word (some c)) := by cases c <;> decide
  have hword : IsItem (word none) := by decide
  cases specified with
  | true => exact hname
  | false => exact isItem_append hword hname.closed

end ErrorClass

namespace Report

/-! ## Clauses -/

/-- Where the detail of a class can be left unspecified, whether it was specified. -/
def isSpecified (r : Report) : ErrorClass → Bool
  | .controller => r.detail.byte 1 != 0
  | .protocol => r.detail.byte 2 != 0
  | .transceiver => r.detail.byte 4 != 0
  | _ => true

/-- A list in brackets, for a byte that is not 0. -/
def bracketed (b : UInt8) (t : String) : String := if b = 0 then "" else " [" ++ t ++ "]"

def bitText (b : UInt8) : String :=
  if b = 0 then " on unknown bit" else " on bit " ++ toString b.toNat

/-- What a clause says after the name of its class. -/
def ending (r : Report) : ErrorClass → String
  | .lostArbitration => bitText (r.detail.byte 0)
  | .controller => bracketed (r.detail.byte 1) (ControllerState.text (r.detail.byte 1))
  | .protocol => bracketed (r.detail.byte 2) (Violation.text ⟨r.detail.byte 2, r.detail.byte 3⟩)
  | .transceiver =>
    bracketed (r.detail.byte 4) (WiringFault.listText (WiringFault.decode (r.detail.byte 4)))
  | _ => ""

theorem detail?_of_has {r : Report} {c : ErrorClass} (h : r.has c = true) (i : Nat) :
    r.detail? c i = if r.detail.byte i = 0 then none else some (r.detail.byte i) := by
  rw [detail?, h, Bool.true_and]
  by_cases hb : r.detail.byte i = 0 <;> simp [hb]

theorem detail?_of_absent {r : Report} {c : ErrorClass} (h : r.has c = false) (i : Nat) :
    r.detail? c i = none := by
  rw [detail?, h, Bool.false_and]
  rfl

theorem append_bracketed {b : UInt8} (h : b ≠ 0) (s t : String) :
    s ++ bracketed b t = s ++ " [" ++ t ++ "]" := by
  rw [bracketed, if_neg h, String.append_assoc, String.append_assoc, String.append_assoc]

theorem clause_eq {r : Report} {c : ErrorClass} (h : r.has c = true) :
    r.clause c = ErrorClass.opening c (r.isSpecified c) ++ r.ending c := by
  unfold clause ending isSpecified
  cases c with
  | lostArbitration =>
    unfold arbitrationBit? bitText
    rw [detail?_of_has h]
    by_cases hb : r.detail.byte 0 = 0
    · rw [if_pos hb, if_pos hb]
      rfl
    · rw [if_neg hb, if_neg hb]
      exact String.append_assoc
  | controller =>
    unfold controllerStatus?
    rw [detail?_of_has h]
    by_cases hb : r.detail.byte 1 = 0
    · rw [if_pos hb, hb]
      rfl
    · rw [if_neg hb, append_bracketed hb, bne_iff_ne.mpr hb]
      rfl
  | protocol =>
    unfold violation?
    rw [detail?_of_has h]
    by_cases hb : r.detail.byte 2 = 0
    · rw [if_pos hb, hb]
      rfl
    · rw [if_neg hb, append_bracketed hb, bne_iff_ne.mpr hb]
      rfl
  | transceiver =>
    unfold wiringFaults?
    rw [detail?_of_has h]
    by_cases hb : r.detail.byte 4 = 0
    · rw [if_pos hb, hb]
      rfl
    · rw [if_neg hb, append_bracketed hb, bne_iff_ne.mpr hb]
      rfl
  | _ => exact (String.append_empty).symm

theorem closed_bitText (b : UInt8) : closed 0 (bitText b).toList = true := by
  have hbit : IsItem " on bit " := by decide
  have hdigits : closed 0 (Nat.repr b.toNat).toList = true := by
    rw [Nat.toList_repr]
    refine closed_of_plain fun c hc => ?_
    have hd := Nat.isDigit_of_mem_toDigits (by decide) (by decide) hc
    refine ⟨?_, ?_, ?_⟩ <;> rintro rfl <;> cases hd
  unfold bitText
  by_cases h : b = 0
  · rw [if_pos h]
    decide
  · rw [if_neg h]
    exact (isItem_append hbit hdigits).closed

theorem closed_bracketed_map {α : Type} {f : α → String} (hf : ∀ a, IsItem (f a)) (b : UInt8)
    (xs : List α) : closed 0 (bracketed b (", ".intercalate (xs.map f))).toList = true := by
  unfold bracketed
  by_cases hb : b = 0
  · rw [if_pos hb]
    rfl
  · rw [if_neg hb]
    exact closed_bracketed fun a _ => hf a

theorem closed_ending (r : Report) (c : ErrorClass) : closed 0 (r.ending c).toList = true := by
  cases c with
  | lostArbitration => exact closed_bitText _
  | controller => exact closed_bracketed_map ControllerState.isItem_name _ _
  | protocol => exact closed_bracketed_map (Violation.isItem_item _) _ _
  | transceiver => exact closed_bracketed_map WiringFault.isItem_name _ _
  | _ => rfl

theorem isItem_clause {r : Report} {c : ErrorClass} (h : r.has c = true) : IsItem (r.clause c) := by
  rw [clause_eq h]
  exact isItem_append (ErrorClass.isItem_opening c _) (r.closed_ending c)

/-! ## What the endings say -/

/-- The detail that counts for a class. -/
def SameDetail (r s : Report) : ErrorClass → Prop
  | .lostArbitration => r.detail.byte 0 = s.detail.byte 0
  | .controller =>
    r.detail.byte 1 &&& 0x7F = s.detail.byte 1 &&& 0x7F ∧
      (r.detail.byte 1 = 0 ↔ s.detail.byte 1 = 0)
  | .protocol =>
    r.detail.byte 2 = s.detail.byte 2 ∧
      (r.detail.byte 2 ≠ 0 → r.detail.byte 3 = s.detail.byte 3)
  | .transceiver =>
    WiringFault.decode (r.detail.byte 4) = WiringFault.decode (s.detail.byte 4) ∧
      (r.detail.byte 4 = 0 ↔ s.detail.byte 4 = 0)
  | _ => True

theorem toString_injective {m n : Nat} (h : toString m = toString n) : m = n := by
  have hl : (Nat.repr m).toList = (Nat.repr n).toList := congrArg String.toList h
  rw [Nat.toList_repr, Nat.toList_repr] at hl
  rw [← Nat.ofDigitChars_ten_toDigits (n := m), hl, Nat.ofDigitChars_ten_toDigits]

theorem bitText_injective {a b : UInt8} (h : bitText a = bitText b) : a = b := by
  have hbit (x : String) : " on unknown bit" ≠ " on bit " ++ x := by
    intro he
    have hl := congrArg String.toList he
    rw [String.toList_append] at hl
    simp at hl
  unfold bitText at h
  by_cases ha : a = 0
  · by_cases hb : b = 0
    · rw [ha, hb]
    · rw [if_pos ha, if_neg hb] at h
      exact absurd h (hbit _)
  · by_cases hb : b = 0
    · rw [if_neg ha, if_pos hb] at h
      exact absurd h.symm (hbit _)
    · rw [if_neg ha, if_neg hb, String.append_right_inj] at h
      exact UInt8.toNat_inj.mp (toString_injective h)

theorem bracketed_eq_iff {a b : UInt8} {s t : String} :
    ((a != 0) = (b != 0) ∧ bracketed a s = bracketed b t) ↔
      (a = 0 ↔ b = 0) ∧ (a ≠ 0 → b ≠ 0 → s = t) := by
  have hz : (a != 0) = (b != 0) ↔ (a = 0 ↔ b = 0) := by
    rw [Bool.eq_iff_iff, bne_iff_ne, bne_iff_ne]
    exact Decidable.not_iff_not
  unfold bracketed
  rw [hz]
  by_cases ha : a = 0 <;> by_cases hb : b = 0 <;>
    simp [ha, hb, String.append_left_inj, String.append_right_inj]

/-- Openings and endings of two clauses of a class agree exactly if the details do. -/
theorem ending_eq_iff (r s : Report) (c : ErrorClass) :
    (r.isSpecified c = s.isSpecified c ∧ r.ending c = s.ending c) ↔ SameDetail r s c := by
  cases c with
  | lostArbitration =>
    constructor
    · rintro ⟨-, h⟩
      exact bitText_injective h
    · intro h
      exact ⟨rfl, congrArg bitText h⟩
  | controller =>
    refine bracketed_eq_iff.trans ?_
    constructor
    · rintro ⟨hz, ht⟩
      refine ⟨?_, hz⟩
      by_cases h : r.detail.byte 1 = 0
      · rw [h, hz.mp h]
      · exact (ControllerState.text_eq_iff _ _).mp (ht h (mt hz.mpr h))
    · rintro ⟨hm, hz⟩
      refine ⟨hz, ?_⟩
      intro _ _
      exact (ControllerState.text_eq_iff _ _).mpr hm
  | protocol =>
    refine bracketed_eq_iff.trans ?_
    constructor
    · rintro ⟨hz, ht⟩
      by_cases h : r.detail.byte 2 = 0
      · exact ⟨h.trans (hz.mp h).symm, fun hne => absurd h hne⟩
      · have hv := Violation.text_injective h (ht h (mt hz.mpr h))
        exact ⟨congrArg Violation.kinds hv, fun _ => congrArg Violation.place hv⟩
    · rintro ⟨hk, hp⟩
      refine ⟨by rw [hk], ?_⟩
      intro h _
      rw [hk, hp h]
  | transceiver =>
    refine bracketed_eq_iff.trans ?_
    constructor
    · rintro ⟨hz, ht⟩
      refine ⟨?_, hz⟩
      by_cases h : r.detail.byte 4 = 0
      · rw [h, hz.mp h]
      · exact WiringFault.listText_injective (ht h (mt hz.mpr h))
    · rintro ⟨hd, hz⟩
      refine ⟨hz, ?_⟩
      intro _ _
      rw [hd]
  | _ => exact ⟨fun _ => trivial, fun _ => ⟨rfl, rfl⟩⟩

theorem clause_eq_iff {r s : Report} {c d : ErrorClass} (hr : r.has c = true)
    (hs : s.has d = true) :
    r.clause c = s.clause d ↔ c = d ∧ SameDetail r s c := by
  rw [clause_eq hr, clause_eq hs]
  constructor
  · intro h
    obtain ⟨rfl, hspec, hend⟩ := ErrorClass.opening_append_inj h
    exact ⟨rfl, (ending_eq_iff r s c).mp ⟨hspec, hend⟩⟩
  · rintro ⟨rfl, h⟩
    obtain ⟨hspec, hend⟩ := (ending_eq_iff r s c).mpr h
    rw [hspec, hend]

/-! ## Texts -/

theorem text_eq_iff (r s : Report) :
    r.text = s.text ↔
      (∀ c, r.has c = s.has c) ∧ ∀ c, r.has c = true → SameDetail r s c := by
  constructor
  · intro h
    have hmap :=
      intercalate_map_injective (fun c hc => isItem_clause (ErrorClass.mem_present.mp hc))
      (fun c hc => isItem_clause (ErrorClass.mem_present.mp hc)) h
    have hpresent : ErrorClass.present r.classes = ErrorClass.present s.classes :=
      eq_of_map_eq (fun c hc d hd hcd =>
        ((clause_eq_iff (ErrorClass.mem_present.mp hc) (ErrorClass.mem_present.mp hd)).mp hcd).1)
        hmap
    have hhas (c : ErrorClass) : r.has c = s.has c := by
      rw [Bool.eq_iff_iff]
      exact ErrorClass.mem_present.symm.trans (hpresent ▸ ErrorClass.mem_present)
    rw [← hpresent, List.map_inj_left] at hmap
    refine ⟨hhas, fun c hc => ?_⟩
    have hc' : s.has c = true := (hhas c).symm.trans hc
    exact ((clause_eq_iff hc hc').mp (hmap c (ErrorClass.mem_present.mpr hc))).2
  · rintro ⟨hhas, hsame⟩
    have hpresent : ErrorClass.present r.classes = ErrorClass.present s.classes :=
      List.filter_congr fun c _ => hhas c
    unfold text
    rw [← hpresent]
    refine congrArg (", ".intercalate ·) (List.map_congr_left fun c hc => ?_)
    have hc := ErrorClass.mem_present.mp hc
    have hc' : s.has c = true := (hhas c).symm.trans hc
    exact (clause_eq_iff hc hc').mpr ⟨rfl, hsame c hc⟩

/-! ## What the text decides -/

theorem isIn_of_same {a b : UInt8} (h : a &&& 0x7F = b &&& 0x7F) (s : ControllerState) :
    s.isIn a = s.isIn b := by
  have hs : 0x7F &&& s.bit = s.bit := by cases s <;> decide
  rw [ControllerState.isIn, ControllerState.isIn, ← hs, ← UInt8.and_assoc,
    ← UInt8.and_assoc, h]

section Agreement

variable {r s : Report} (hhas : ∀ c, r.has c = s.has c)
  (hsame : ∀ c, r.has c = true → SameDetail r s c)
include hhas hsame

theorem isBusOff_of_same : r.isBusOff = s.isBusOff := by
  unfold isBusOff
  rw [hhas .busOff, ← hhas .controller]
  cases hc : r.has .controller with
  | false => rfl
  | true =>
    obtain ⟨hm, -⟩ := hsame .controller hc
    rw [isIn_of_same hm, isIn_of_same hm]

theorem violation?_of_same : r.violation? = s.violation? := by
  unfold violation?
  cases hc : r.has .protocol with
  | false =>
    have hc' := (hhas .protocol).symm.trans hc
    rw [detail?_of_absent hc, detail?_of_absent hc']
    rfl
  | true =>
    have hc' := (hhas .protocol).symm.trans hc
    obtain ⟨hk, hp⟩ := hsame .protocol hc
    rw [detail?_of_has hc, detail?_of_has hc', ← hk]
    by_cases hz : r.detail.byte 2 = 0
    · rw [if_pos hz]
      rfl
    · rw [if_neg hz, hp hz]

theorem controllerStatus?_of_same :
    r.controllerStatus? = none ∧ s.controllerStatus? = none ∨
      ∃ a b, r.controllerStatus? = some a ∧ s.controllerStatus? = some b ∧
        a &&& 0x7F = b &&& 0x7F := by
  unfold controllerStatus?
  cases hc : r.has .controller with
  | false =>
    have hc' := (hhas .controller).symm.trans hc
    exact .inl ⟨detail?_of_absent hc 1, detail?_of_absent hc' 1⟩
  | true =>
    have hc' := (hhas .controller).symm.trans hc
    obtain ⟨hm, hz⟩ := hsame .controller hc
    rw [detail?_of_has hc, detail?_of_has hc']
    by_cases h : r.detail.byte 1 = 0
    · rw [if_pos h, if_pos (hz.mp h)]
      exact .inl ⟨rfl, rfl⟩
    · rw [if_neg h, if_neg (mt hz.mpr h)]
      exact .inr ⟨_, _, rfl, rfl, hm⟩

theorem kind_of_same : r.kind = s.kind := by
  unfold kind
  rw [violation?_of_same hhas hsame, hhas .noAck]
  obtain ⟨h₁, h₂⟩ | ⟨a, b, h₁, h₂, hm⟩ := controllerStatus?_of_same hhas hsame
  · rw [h₁, h₂]
  · rw [h₁, h₂]
    dsimp only
    rw [isIn_of_same hm, isIn_of_same hm]

end Agreement

/-- The class that a detail byte belongs to. -/
def owner : Nat → ErrorClass
  | 0 => .lostArbitration
  | 1 => .controller
  | 2 | 3 => .protocol
  | _ => .transceiver

theorem sameDetail_of_bytes {r s : Report}
    (h : ∀ i < 5, r.has (owner i) = true → s.detail.byte i = r.detail.byte i) {c : ErrorClass}
    (hc : r.has c = true) : SameDetail r s c := by
  cases c with
  | lostArbitration => exact (h 0 (by decide) hc).symm
  | controller =>
    have h₁ := h 1 (by decide) hc
    exact ⟨by rw [h₁], by rw [h₁]⟩
  | protocol => exact ⟨(h 2 (by decide) hc).symm, fun _ => (h 3 (by decide) hc).symm⟩
  | transceiver =>
    have h₄ := h 4 (by decide) hc
    exact ⟨by rw [h₄], by rw [h₄]⟩
  | _ => trivial

/-- Two reports have the same text exactly if they have the same classes, and the same detail for
each of these. So no other byte of detail touches the text, and the text decides whether the bus is
off and which kind of error this is. -/
theorem text_eq_iff_sameDetail (r s : Report) :
    (r.text = s.text ↔ (∀ c, r.has c = s.has c) ∧
      ∀ c, r.has c = true → SameDetail r s c) ∧
    (∀ detail : Payload,
      (∀ i < 5, r.has (owner i) = true → detail.byte i = r.detail.byte i) →
        text ⟨r.classes, detail⟩ = r.text) ∧
    (r.text = s.text → r.isBusOff = s.isBusOff ∧ r.kind = s.kind) := by
  refine ⟨text_eq_iff r s, fun detail h => ?_, fun h => ?_⟩
  · exact ((text_eq_iff r ⟨r.classes, detail⟩).mpr
      ⟨fun _ => rfl, fun c hc => sameDetail_of_bytes h hc⟩).symm
  · obtain ⟨hhas, hsame⟩ := (text_eq_iff r s).mp h
    exact ⟨isBusOff_of_same hhas hsame, kind_of_same hhas hsame⟩

end Report

end CanBus
