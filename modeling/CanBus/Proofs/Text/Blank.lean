import Mathlib.Data.List.TakeWhile
import CanBus.Text.Blank

/-!
What trimming leaves: the text between the blanks at both ends, which itself neither starts nor ends
with one (`trim_eq_iff`).
-/

namespace CanBus.Text

/-- Blanks, then `core`, then blanks. -/
structure Trimmed (cs core : List Char) : Prop where
  around : ∃ before after, cs = before ++ core ++ after ∧
    (∀ c ∈ before, isBlank c = true) ∧ ∀ c ∈ after, isBlank c = true
  first : ∀ c ∈ core.head?, isBlank c = false
  last : ∀ c ∈ core.getLast?, isBlank c = false

theorem dropWhile_blanks {bs cs : List Char} (hb : ∀ c ∈ bs, isBlank c = true)
    (hc : ∀ c ∈ cs.head?, isBlank c = false) : (bs ++ cs).dropWhile isBlank = cs := by
  rw [List.dropWhile_append_of_pos hb]
  cases cs with
  | nil => rfl
  | cons c cs =>
    apply List.dropWhile_cons_of_neg
    simp [hc c rfl]

theorem head?_dropWhile_isBlank {cs : List Char} {c : Char}
    (h : c ∈ (cs.dropWhile isBlank).head?) : isBlank c = false := by
  have hnot := List.head?_dropWhile_not isBlank cs
  rw [Option.mem_def.mp h] at hnot
  exact hnot

theorem trimmed_trim (cs : List Char) : Trimmed cs (trim cs) := by
  let tail := cs.dropWhile isBlank
  let kept := tail.reverse.dropWhile isBlank
  have htail : tail = kept.reverse ++ (tail.reverse.takeWhile isBlank).reverse := by
    rw [← List.reverse_append, List.takeWhile_append_dropWhile, List.reverse_reverse]
  refine ⟨⟨cs.takeWhile isBlank, (tail.reverse.takeWhile isBlank).reverse, ?_, ?_, ?_⟩,
    ?_, ?_⟩
  · rw [List.append_assoc]
    exact (List.takeWhile_append_dropWhile.symm.trans (congrArg _ htail))
  · exact fun c hc => List.mem_takeWhile_imp hc
  · exact fun c hc => List.mem_takeWhile_imp (List.mem_reverse.mp hc)
  · -- what is kept starts as the rest of the text does, unless nothing is kept
    intro c hc
    have hhead : ∀ c ∈ tail.head?, isBlank c = false := fun c hc => head?_dropWhile_isBlank hc
    apply hhead
    have hkept : kept.reverse.head? = some c := hc
    rw [htail, List.head?_append, hkept]
    rfl
  · intro c hc
    rw [trim, List.getLast?_reverse] at hc
    exact head?_dropWhile_isBlank hc

theorem Trimmed.trim_eq {cs core : List Char} (h : Trimmed cs core) : trim cs = core := by
  obtain ⟨before, after, rfl, hbefore, hafter⟩ := h.around
  have hback : ∀ c ∈ after.reverse, isBlank c = true :=
    fun c hc => hafter c (List.mem_reverse.mp hc)
  have hlast : ∀ c ∈ core.reverse.head?, isBlank c = false := by
    rw [List.head?_reverse]
    exact h.last
  have hcore : core.reverse.dropWhile isBlank = core.reverse := by
    rw [← List.nil_append core.reverse]
    exact dropWhile_blanks nofun hlast
  rw [trim, List.append_assoc, List.dropWhile_append_of_pos hbefore]
  cases core with
  | nil =>
    have hnone : after.dropWhile isBlank = [] := by
      rw [← List.append_nil after]
      exact dropWhile_blanks hafter nofun
    rw [List.nil_append, hnone]
    rfl
  | cons c core =>
    have hkeep : (c :: core ++ after).dropWhile isBlank = c :: core ++ after :=
      List.dropWhile_cons_of_neg (by simp [h.first c rfl])
    rw [hkeep, List.reverse_append, List.dropWhile_append_of_pos hback, hcore, List.reverse_reverse]

theorem trim_eq_iff {cs core : List Char} : trim cs = core ↔ Trimmed cs core :=
  ⟨fun h => h ▸ trimmed_trim cs, Trimmed.trim_eq⟩

/-- Without blanks there is nothing to trim. -/
theorem trim_of_no_blank {cs : List Char} (h : ∀ c ∈ cs, isBlank c = false) : trim cs = cs := by
  refine trim_eq_iff.mpr ⟨⟨[], [], by simp, by simp, by simp⟩, fun c hc => ?_,
    fun c hc => ?_⟩
  · exact h c (List.mem_of_head? hc)
  · exact h c (List.mem_of_getLast? hc)

end CanBus.Text
