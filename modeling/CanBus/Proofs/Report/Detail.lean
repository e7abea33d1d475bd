import CanBus.Proofs.Text.Separated
import CanBus.Report

/-!
What can be read from the texts of the detail bytes. Main statements: `ControllerState.text_eq_iff`,
`Violation.text_injective` and `WiringFault.text_injective`.
-/

namespace CanBus

open Text

/-! ## Names -/

/-- Names of which none begins another can be told apart by the beginning of a text. -/
theorem eq_of_append_eq {α : Type} {name : α → String} {a b : α} {x y : String}
    (hname : ∀ a b, a ≠ b → ¬ (name a).toList <+: (name b).toList)
    (h : name a ++ x = name b ++ y) : a = b := by
  refine Classical.byContradiction fun hne => ?_
  have hl := congrArg String.toList h
  rw [String.toList_append, String.toList_append] at hl
  have ha : (name a).toList <+: (name b).toList ++ y.toList := ⟨x.toList, hl⟩
  rcases List.prefix_or_prefix_of_prefix ha (List.prefix_append _ _) with h | h
  · exact hname a b hne h
  · exact hname b a (Ne.symm hne) h

/-- Two ways to write lists, which agree on no two different elements. -/
theorem eq_of_map_eq {α β : Type} {f g : α → β} {xs ys : List α}
    (hfg : ∀ a ∈ xs, ∀ b ∈ ys, f a = g b → a = b) (h : xs.map f = ys.map g) :
    xs = ys := by
  induction xs generalizing ys with
  | nil => exact (List.map_eq_nil_iff.mp h.symm).symm
  | cons x xs ih =>
    cases ys with
    | nil => cases h
    | cons y ys =>
      obtain ⟨hh, ht⟩ := List.cons.inj h
      have hrest : xs = ys := ih
        (fun a ha b hb => hfg a (List.mem_cons_of_mem _ ha) b (List.mem_cons_of_mem _ hb)) ht
      rw [hfg x List.mem_cons_self y List.mem_cons_self hh, hrest]

/-- Names by which the elements of a list can be found are all different. -/
theorem eq_of_find_eq {α : Type} (all : List α) {name : α → String}
    (hfind : ∀ a, all.find? (fun x => name x = name a) = some a) {a b : α}
    (h : name a = name b) :
    a = b := by
  have ha := hfind a
  rw [h, hfind b] at ha
  exact (Option.some.inj ha).symm

/-! ## Bit masks -/

section Flags

variable {α : Type} (all : List α) (bit : α → UInt8) {full : UInt8}

/-- The elements whose bits are set. -/
def flagged (a : UInt8) : List α := all.filter fun x => a &&& bit x != 0

/-- If the bits of the elements make up a mask, the elements with their bits set say as much as the
masked bits. -/
theorem flagged_eq_iff (hbit : ∀ x ∈ all, full &&& bit x = bit x)
    (hfull : ∀ a, (flagged all bit a).foldl (fun m x => m ||| bit x) 0 = a &&& full)
    (a b : UInt8) :
    flagged all bit a = flagged all bit b ↔ a &&& full = b &&& full := by
  have hmask (a : UInt8) : flagged all bit a = flagged all bit (a &&& full) := by
    refine List.filter_congr fun x hx => ?_
    rw [UInt8.and_assoc, hbit x hx]
  constructor
  · intro h
    rw [← hfull, ← hfull, h]
  · intro h
    rw [hmask a, hmask b, h]

end Flags

theorem forall_byte {p : UInt8 → Prop} (h : ∀ n < 256, p (UInt8.ofNat n)) (b : UInt8) :
    p b := by
  have := h b.toNat b.toNat_lt
  rwa [UInt8.ofNat_toNat] at this

/-! ## Controller -/

namespace ControllerState

theorem isItem_name (s : ControllerState) : IsItem s.name := by cases s <;> decide

theorem name_injective {s t : ControllerState} (h : s.name = t.name) : s = t :=
  eq_of_find_eq all (fun s => by cases s <;> decide) h

/-- The highest bit of the status has no name, and the others can be read back. -/
theorem text_eq_iff (a b : UInt8) : text a = text b ↔ a &&& 0x7F = b &&& 0x7F := by
  have hbit : ∀ s ∈ all, 0x7F &&& s.bit = s.bit := by decide
  have hfull : ∀ a, (flagged all bit a).foldl (fun m s => m ||| s.bit) 0 = a &&& 0x7F :=
    forall_byte (by decide +kernel)
  rw [← flagged_eq_iff all bit hbit hfull]
  constructor
  · intro h
    have hmap := intercalate_map_injective (fun s _ => s.isItem_name) (fun s _ => s.isItem_name) h
    exact (List.map_inj_right fun _ _ => name_injective).mp hmap
  · intro h
    exact congrArg (fun ss => ", ".intercalate (ss.map name)) h

end ControllerState

/-! ## Places -/

namespace Location

theorem closed_name (l : Location) : closed 0 l.name.toList = true := by cases l <;> decide

theorem name_injective {l m : Location} (h : l.name = m.name) : l = m :=
  eq_of_find_eq all (fun l => by cases l <;> decide) h

theorem code_of_ofCode? {c : UInt8} {l : Location} (h : ofCode? c = some l) : l.code = c := by
  simpa using List.find?_some h

end Location

namespace Violation

/-- What stands for a place without a name. -/
def unknownText (place : UInt8) : String :=
  "unknown location (0x" ++ String.ofList (Text.Hex.fixed .upper 2 place.toNat) ++ ")"

/-- The name of a place, or what stands for it. -/
def placeName (place : UInt8) : String :=
  match Location.ofCode? place with
  | some l => l.name
  | none => unknownText place

theorem placeText_zero {v : Violation} (h : v.place = 0) : v.placeText = "" := by
  rw [placeText, if_pos h]

theorem placeText_ne_zero {v : Violation} (h : v.place ≠ 0) :
    v.placeText = " on " ++ placeName v.place := by
  unfold placeText placeName unknownText location?
  rw [if_neg h]
  cases Location.ofCode? v.place with
  | some l => rfl
  | none =>
    apply String.toList_injective
    simp

theorem unknownText_injective {a b : UInt8} (h : unknownText a = unknownText b) : a = b := by
  unfold unknownText at h
  rw [String.append_left_inj, String.append_right_inj, String.ofList_inj] at h
  have hoctets : Text.Hex.octets .upper [a] = Text.Hex.octets .upper [b] := by
    rw [Text.Hex.octets, Text.Hex.octets, List.flatMap_singleton, List.flatMap_singleton, h]
  have hread := congrArg Text.Hex.octets? hoctets
  rw [Text.Hex.octets?_octets, Text.Hex.octets?_octets] at hread
  exact (List.cons.inj (Option.some.inj hread)).1

theorem closed_unknownText (place : UInt8) : closed 0 (unknownText place).toList = true := by
  have hdigits : ∀ m < 16, ∀ n < 16,
      closed 0 [Text.Hex.digit .upper m, Text.Hex.digit .upper n] = true := by decide
  have hhex : closed 0 (Text.Hex.fixed .upper 2 place.toNat) = true :=
    hdigits _ (Nat.mod_lt _ (by decide)) _ (Nat.mod_lt _ (by decide))
  have hitem : IsItem "unknown location (0x" := by decide
  refine (isItem_append (isItem_append hitem ?_) (by decide)).closed
  rw [String.toList_ofList]
  exact hhex

theorem name_ne_unknownText (l : Location) (place : UInt8) : l.name ≠ unknownText place := by
  intro h
  have htext : "unknown location (0x".toList <+: (unknownText place).toList := by
    unfold unknownText
    rw [String.append_assoc, String.toList_append]
    exact List.prefix_append _ _
  have hname : ¬ "unknown location (0x".toList <+: l.name.toList := by cases l <;> decide
  exact hname (h ▸ htext)

theorem placeName_injective {a b : UInt8} (h : placeName a = placeName b) : a = b := by
  unfold placeName at h
  cases ha : Location.ofCode? a with
  | some l =>
    cases hb : Location.ofCode? b with
    | some m =>
      rw [ha, hb] at h
      rw [← Location.code_of_ofCode? ha, ← Location.code_of_ofCode? hb,
        Location.name_injective h]
    | none =>
      rw [ha, hb] at h
      exact absurd h (name_ne_unknownText l b)
  | none =>
    cases hb : Location.ofCode? b with
    | some m =>
      rw [ha, hb] at h
      exact absurd h.symm (name_ne_unknownText m a)
    | none =>
      rw [ha, hb] at h
      exact unknownText_injective h

theorem placeText_injective {v w : Violation} (h : v.placeText = w.placeText) :
    v.place = w.place := by
  have hon (x : String) : " on " ++ x ≠ "" := by
    intro he
    have hl := congrArg String.toList he
    rw [String.toList_append] at hl
    cases hl
  by_cases hv : v.place = 0
  · by_cases hw : w.place = 0
    · rw [hv, hw]
    · rw [placeText_zero hv, placeText_ne_zero hw] at h
      exact absurd h.symm (hon _)
  · by_cases hw : w.place = 0
    · rw [placeText_ne_zero hv, placeText_zero hw] at h
      exact absurd h (hon _)
    · rw [placeText_ne_zero hv, placeText_ne_zero hw] at h
      exact placeName_injective ((String.append_right_inj _).mp h)

theorem closed_placeText (v : Violation) : closed 0 v.placeText.toList = true := by
  have hon : IsItem " on " := by decide
  by_cases h : v.place = 0
  · rw [placeText_zero h]
    rfl
  have hname : closed 0 (placeName v.place).toList = true := by
    unfold placeName
    cases Location.ofCode? v.place with
    | some l => exact l.closed_name
    | none => exact closed_unknownText _
  rw [placeText_ne_zero h]
  exact (isItem_append hon hname).closed

/-! ## Violations -/

/-- What was violated, each with the place. -/
def item (v : Violation) (k : ViolationKind) : String := k.name ++ v.placeText

theorem isItem_item (v : Violation) (k : ViolationKind) : IsItem (v.item k) := by
  have hk : IsItem k.name := by cases k <;> decide
  exact isItem_append hk v.closed_placeText

/-- No kind has a name that another begins with, so an item says its kind and the place. -/
theorem eq_of_item_eq {v w : Violation} {k l : ViolationKind} (h : v.item k = w.item l) :
    k = l ∧ v.place = w.place := by
  have hname : ∀ k l : ViolationKind, k ≠ l → ¬ k.name.toList <+: l.name.toList := by
    intro k l
    cases k <;> cases l <;> decide
  have hk : k = l := eq_of_append_eq hname h
  rw [hk] at h
  exact ⟨hk, placeText_injective ((String.append_right_inj _).mp h)⟩

/-- Every bit has a kind, so the kinds give the mask back. -/
theorem kinds_of_flagged (kinds : UInt8) :
    (flagged ViolationKind.all ViolationKind.mask kinds).foldl (fun m k => m ||| k.mask) 0 =
      kinds :=
  forall_byte (p := fun a =>
    (flagged ViolationKind.all ViolationKind.mask a).foldl (fun m k => m ||| k.mask) 0 = a)
    (by decide +kernel) kinds

/-- With a kind at least, the text says which kinds and where. -/
theorem text_injective {v w : Violation} (hv : v.kinds ≠ 0) (h : v.text = w.text) : v = w := by
  have hmap : (flagged ViolationKind.all ViolationKind.mask v.kinds).map v.item =
      (flagged ViolationKind.all ViolationKind.mask w.kinds).map w.item :=
    intercalate_map_injective (fun k _ => v.isItem_item k) (fun k _ => w.isItem_item k) h
  have hflagged := eq_of_map_eq (fun k _ l _ hkl => (eq_of_item_eq hkl).1) hmap
  have hkinds : v.kinds = w.kinds := by
    rw [← kinds_of_flagged v.kinds, hflagged, kinds_of_flagged]
  have hplace : v.place = w.place := by
    cases hk : flagged ViolationKind.all ViolationKind.mask v.kinds with
    | nil =>
      have hz := kinds_of_flagged v.kinds
      rw [hk] at hz
      exact absurd hz.symm hv
    | cons k ks =>
      rw [← hflagged, hk] at hmap
      exact (eq_of_item_eq (List.cons.inj hmap).1).2
  cases v
  cases w
  cases hkinds
  cases hplace
  rfl

end Violation

/-! ## Transceiver -/

namespace WiringFault

def listText (fs : List WiringFault) : String := ", ".intercalate (fs.map name)

theorem isItem_name (f : WiringFault) : IsItem f.name := by cases f <;> decide

theorem name_injective {f g : WiringFault} (h : f.name = g.name) : f = g :=
  eq_of_find_eq all (fun f => by cases f <;> decide) h

theorem listText_injective {fs gs : List WiringFault} (h : listText fs = listText gs) :
    fs = gs := by
  have hmap := intercalate_map_injective (fun f _ => f.isItem_name) (fun f _ => f.isItem_name) h
  exact (List.map_inj_right fun _ _ => name_injective).mp hmap

end WiringFault

end CanBus
