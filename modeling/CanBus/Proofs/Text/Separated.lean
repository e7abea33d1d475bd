/-!
Lists as text, with a comma and a blank between the items, that can be taken apart again. An item
may have brackets in it, and commas inside of brackets; `IsItem` says so, and
`intercalate_injective` that such items are all that a text can be taken apart into.
`closed_bracketed` makes an item of a list.
-/

namespace CanBus.Text

/-! ## Brackets -/

/-- How deep in brackets one is after a character. -/
def depth (d : Nat) (c : Char) : Nat :=
  if c = '[' then d + 1 else if c = ']' then d - 1 else d

/-- From `d` brackets deep, the brackets match, and there is no comma outside of them. -/
def closed : Nat → List Char → Bool
  | d, [] => d == 0
  | d, c :: cs => (d != 0 || (c != ',' && c != ']')) && closed (depth d c) cs

theorem closed_append {d : Nat} {cs : List Char} (h : closed d cs = true) (e : Nat)
    (rest : List Char) : closed (d + e) (cs ++ rest) = closed e rest := by
  induction cs generalizing d with
  | nil =>
    rw [closed, beq_iff_eq] at h
    rw [h, Nat.zero_add, List.nil_append]
  | cons c cs ih =>
    rw [closed, Bool.and_eq_true] at h
    have hd : depth (d + e) c = depth d c + e := by
      unfold depth
      by_cases ho : c = '['
      · rw [if_pos ho, if_pos ho]
        omega
      · by_cases hc : c = ']'
        · have hpos : d ≠ 0 := by simpa [hc] using h.1
          rw [if_neg ho, if_neg ho, if_pos hc, if_pos hc]
          omega
        · rw [if_neg ho, if_neg ho, if_neg hc, if_neg hc]
    have hok : (d + e != 0 || (c != ',' && c != ']')) = true := by
      rcases Bool.or_eq_true _ _ ▸ h.1 with hne | hc
      · rw [bne_iff_ne] at hne
        simp [hne]
      · rw [hc, Bool.or_true]
    rw [List.cons_append, closed, hok, hd, Bool.true_and]
    exact ih h.2

/-- Text without commas and brackets. -/
theorem closed_of_plain {cs : List Char} (h : ∀ c ∈ cs, c ≠ ',' ∧ c ≠ '[' ∧ c ≠ ']') :
    closed 0 cs = true := by
  induction cs with
  | nil => rfl
  | cons c cs ih =>
    obtain ⟨h₁, h₂, h₃⟩ := h c List.mem_cons_self
    have hd : depth 0 c = 0 := by rw [depth, if_neg h₂, if_neg h₃]
    have hok : (c != ',' && c != ']') = true := by simp [h₁, h₃]
    rw [closed, hd, hok, Bool.or_true, Bool.true_and]
    exact ih fun x hx => h x (List.mem_cons_of_mem _ hx)

/-! ## Taking apart -/

/-- The text before the first comma outside of brackets, and the text from there. -/
def firstItem : Nat → List Char → List Char × List Char
  | _, [] => ([], [])
  | d, c :: cs =>
    if d = 0 ∧ c = ',' then ([], c :: cs)
    else (c :: (firstItem (depth d c) cs).1, (firstItem (depth d c) cs).2)

/-- The items after the first one, each with what separates it from the one before. -/
def trailing (items : List (List Char)) : List Char := items.flatMap fun i => ',' :: ' ' :: i

theorem firstItem_append {d : Nat} {cs : List Char} (h : closed d cs = true)
    (items : List (List Char)) : firstItem d (cs ++ trailing items) = (cs, trailing items) := by
  induction cs generalizing d with
  | nil =>
    rw [closed, beq_iff_eq] at h
    rw [h]
    cases items <;> rfl
  | cons c cs ih =>
    rw [closed, Bool.and_eq_true] at h
    have hc : ¬ (d = 0 ∧ c = ',') := by
      rintro ⟨rfl, rfl⟩
      simp at h
    rw [List.cons_append, firstItem, if_neg hc, ih h.2]

theorem trailing_injective {xs ys : List (List Char)} (hx : ∀ x ∈ xs, closed 0 x = true)
    (hy : ∀ y ∈ ys, closed 0 y = true) (h : trailing xs = trailing ys) : xs = ys := by
  induction xs generalizing ys with
  | nil =>
    cases ys with
    | nil => rfl
    | cons y ys => cases h
  | cons x xs ih =>
    cases ys with
    | nil => cases h
    | cons y ys =>
      have h : x ++ trailing xs = y ++ trailing ys := (List.cons.inj (List.cons.inj h).2).2
      have hfirst := congrArg (firstItem 0) h
      rw [firstItem_append (hx x List.mem_cons_self), firstItem_append (hy y List.mem_cons_self)]
        at hfirst
      obtain ⟨rfl, hrest⟩ := Prod.mk.inj hfirst
      rw [ih (fun z hz => hx z (List.mem_cons_of_mem _ hz))
        (fun z hz => hy z (List.mem_cons_of_mem _ hz)) hrest]

/-! ## Items -/

structure IsItem (s : String) : Prop where
  nonempty : s ≠ ""
  closed : closed 0 s.toList = true

instance (s : String) : Decidable (IsItem s) :=
  decidable_of_iff (s ≠ "" ∧ Text.closed 0 s.toList = true)
    ⟨fun h => ⟨h.1, h.2⟩, fun h => ⟨h.1, h.2⟩⟩

theorem toList_intercalate_cons (x : String) (xs : List String) :
    (", ".intercalate (x :: xs)).toList = x.toList ++ trailing (xs.map String.toList) := by
  induction xs generalizing x with
  | nil => rw [String.intercalate_singleton]; exact (List.append_nil _).symm
  | cons y ys ih =>
    rw [String.intercalate_cons_cons, String.toList_append, String.toList_append, ih,
      List.append_assoc]
    rfl

/-- Joined items say how many there were, and which. -/
theorem intercalate_injective {xs ys : List String} (hx : ∀ x ∈ xs, IsItem x)
    (hy : ∀ y ∈ ys, IsItem y) (h : ", ".intercalate xs = ", ".intercalate ys) : xs = ys := by
  have hne {z : String} {zs : List String} (hz : IsItem z) (he : "" = ", ".intercalate (z :: zs)) :
      False := by
    have hl := congrArg String.toList he
    rw [toList_intercalate_cons] at hl
    exact hz.nonempty (String.toList_injective (List.append_eq_nil_iff.mp hl.symm).1)
  cases xs with
  | nil =>
    cases ys with
    | nil => rfl
    | cons y ys => exact (hne (hy y List.mem_cons_self) h).elim
  | cons x xs =>
    cases ys with
    | nil => exact (hne (hx x List.mem_cons_self) h.symm).elim
    | cons y ys =>
      have hl := congrArg String.toList h
      rw [toList_intercalate_cons, toList_intercalate_cons] at hl
      have ht : trailing ((x :: xs).map String.toList) = trailing ((y :: ys).map String.toList) :=
        congrArg (fun cs => ',' :: ' ' :: cs) hl
      have hclosed {zs : List String} (hz : ∀ z ∈ zs, IsItem z) :
          ∀ cs ∈ zs.map String.toList, closed 0 cs = true := by
        intro cs hcs
        obtain ⟨z, hm, rfl⟩ := List.mem_map.mp hcs
        exact (hz z hm).closed
      have hmap := trailing_injective (hclosed hx) (hclosed hy) ht
      exact (List.map_inj_right fun _ _ => String.toList_injective).mp hmap

theorem intercalate_map_injective {α : Type} {f g : α → String} {xs ys : List α}
    (hf : ∀ a ∈ xs, IsItem (f a)) (hg : ∀ a ∈ ys, IsItem (g a))
    (h : ", ".intercalate (xs.map f) = ", ".intercalate (ys.map g)) : xs.map f = ys.map g :=
  intercalate_injective (List.forall_mem_map.mpr hf) (List.forall_mem_map.mpr hg) h

/-! ## Lists in brackets -/

/-- A list of items in brackets goes by like a single word. -/
theorem closed_trailing {xs : List (List Char)} (hx : ∀ x ∈ xs, closed 0 x = true) (d : Nat)
    (rest : List Char) : closed (d + 1) (trailing xs ++ rest) = closed (d + 1) rest := by
  induction xs with
  | nil => rfl
  | cons x xs ih =>
    have hstep : closed (d + 1) (trailing (x :: xs) ++ rest) =
        closed (d + 1) (x ++ (trailing xs ++ rest)) := by
      rw [← List.append_assoc]
      rfl
    have h := closed_append (hx x List.mem_cons_self) (d + 1) (trailing xs ++ rest)
    rw [Nat.zero_add] at h
    rw [hstep, h]
    exact ih fun z hz => hx z (List.mem_cons_of_mem _ hz)

theorem closed_intercalate {xs : List String} (hx : ∀ x ∈ xs, IsItem x) (d : Nat)
    (rest : List Char) :
    closed (d + 1) ((", ".intercalate xs).toList ++ rest) = closed (d + 1) rest := by
  cases xs with
  | nil => rfl
  | cons x xs =>
    have hxs : ∀ cs ∈ xs.map String.toList, closed 0 cs = true := by
      intro cs hcs
      obtain ⟨z, hm, rfl⟩ := List.mem_map.mp hcs
      exact (hx z (List.mem_cons_of_mem _ hm)).closed
    have h := closed_append (hx x List.mem_cons_self).closed (d + 1)
      (trailing (xs.map String.toList) ++ rest)
    rw [Nat.zero_add] at h
    rw [toList_intercalate_cons, List.append_assoc, h, closed_trailing hxs]

theorem isItem_append {s t : String} (hs : IsItem s) (ht : closed 0 t.toList = true) :
    IsItem (s ++ t) := by
  refine ⟨fun h => ?_, ?_⟩
  · have hl := congrArg String.toList h
    rw [String.toList_append] at hl
    exact hs.nonempty (String.toList_injective (List.append_eq_nil_iff.mp hl).1)
  · have h := closed_append hs.closed 0 t.toList
    rw [String.toList_append]
    exact h.trans ht

theorem closed_bracketed {α : Type} {f : α → String} {xs : List α}
    (hf : ∀ a ∈ xs, IsItem (f a)) :
    closed 0 (" [" ++ ", ".intercalate (xs.map f) ++ "]").toList = true := by
  rw [String.toList_append, String.toList_append, List.append_assoc]
  exact (closed_intercalate (List.forall_mem_map.mpr hf) 0 "]".toList).trans (by decide)

end CanBus.Text
