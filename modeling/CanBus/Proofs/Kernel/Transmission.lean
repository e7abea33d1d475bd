import CanBus.Kernel.Socket

/-!
A write of some bytes, in as many sends as it takes. `Written` is the rule for going on: a send that
was interrupted or took only a part is followed by one that offers the rest, and any other send is
the last. The sends of a transmission follow it (`transmission_written`), so the write succeeds
exactly if every byte was accepted (`Written.all_iff`).
-/

namespace CanBus.Kernel

/-- A send, by the bytes that it offers and by its outcome. -/
structure Attempt where
  offer : List UInt8
  outcome : Int
  deriving DecidableEq, Repr

namespace Attempt

/-- The bytes that are accepted. -/
def takes (a : Attempt) : List UInt8 :=
  match accepted a.outcome a.offer.length with
  | .ok m => a.offer.take m
  | .error _ => []

/-- The send was interrupted, or took a part of the bytes. -/
def IsResumed (a : Attempt) : Prop :=
  a.outcome = Errno.interrupted ∨ (a.takes ≠ [] ∧ a.takes ≠ a.offer)

instance (a : Attempt) : Decidable a.IsResumed :=
  inferInstanceAs
    (Decidable (a.outcome = Errno.interrupted ∨ (a.takes ≠ [] ∧ a.takes ≠ a.offer)))

/-- What the write comes to if this was the last send. -/
def verdict (a : Attempt) : Except SystemError Unit :=
  if 0 < a.outcome then .error (.code a.outcome)
  else if a.takes = [] then .error .nothingWritten
  else .ok ()

theorem takes_of_error {a : Attempt} (h : 0 < a.outcome) : a.takes = [] := by
  rw [takes, accepted, if_pos h]

theorem takes_eq_take (a : Attempt) : a.takes = a.offer.take a.takes.length := by
  unfold takes
  cases accepted a.outcome a.offer.length with
  | error e => rfl
  | ok m => simp

theorem takes_append_drop (a : Attempt) : a.takes ++ a.offer.drop a.takes.length = a.offer := by
  have happ := List.take_append_drop a.takes.length a.offer
  rwa [← a.takes_eq_take] at happ

theorem IsResumed.rest_ne_nil {a : Attempt} (h : a.IsResumed) (ho : a.offer ≠ []) :
    a.offer.drop a.takes.length ≠ [] := by
  intro hnil
  have happ := a.takes_append_drop
  rw [hnil, List.append_nil] at happ
  rcases h with h | ⟨-, h⟩
  · have hpos : 0 < a.outcome := by
      rw [h]
      decide
    rw [takes_of_error hpos] at happ
    exact ho happ.symm
  · exact h happ

end Attempt

/-- The sends of a write, one for each offer, with the outcomes that are scripted for them. -/
def attempts : List Int → List (List UInt8) → List Attempt
  | _, [] => []
  | ns, o :: os => ⟨o, ns.headD 0⟩ :: attempts ns.tail os

/-- The sends that it takes to write some bytes, and what comes of it. -/
inductive Written : List UInt8 → List Attempt → Except SystemError Unit → Prop
  | last (a : Attempt) (h : ¬ a.IsResumed) : Written a.offer [a] a.verdict
  | resumed (a : Attempt) {as : List Attempt} {r : Except SystemError Unit} (h : a.IsResumed)
      (hrest : Written (a.offer.drop a.takes.length) as r) : Written a.offer (a :: as) r

namespace Written

variable {bs : List UInt8} {as : List Attempt} {r : Except SystemError Unit}

theorem ne_nil (h : Written bs as r) : as ≠ [] := by
  cases h <;> exact List.cons_ne_nil _ _

/-- Each send offers what those before it have left, and is followed by another
just if it is resumed. -/
theorem offers (h : Written bs as r) {before after : List Attempt} {a : Attempt}
    (has : as = before ++ a :: after) :
    before.flatMap Attempt.takes ++ a.offer = bs ∧ (after ≠ [] ↔ a.IsResumed) := by
  induction h generalizing before with
  | last x hx =>
    cases before with
    | nil =>
      cases has
      exact ⟨rfl, iff_of_false (not_not_intro rfl) hx⟩
    | cons y before => simp at has
  | resumed x hx hrest ih =>
    cases before with
    | nil =>
      cases has
      exact ⟨rfl, iff_of_true hrest.ne_nil hx⟩
    | cons y before =>
      cases has
      obtain ⟨hoffer, hresumed⟩ := ih rfl
      refine ⟨?_, hresumed⟩
      rw [List.flatMap_cons, List.append_assoc, hoffer, x.takes_append_drop]

theorem result (h : Written bs as r) {before : List Attempt} {a : Attempt}
    (has : as = before ++ [a]) :
    r = a.verdict := by
  induction h generalizing before with
  | last x hx =>
    cases before with
    | nil =>
      cases has
      rfl
    | cons y before => simp at has
  | resumed x hx hrest ih =>
    cases before with
    | nil =>
      cases has
      exact absurd rfl hrest.ne_nil
    | cons y before =>
      cases has
      exact ih rfl

/-- The write succeeds if the sends have accepted every byte, and only then. -/
theorem all_iff (h : Written bs as r) (hbs : bs ≠ []) :
    r = .ok () ↔ as.flatMap Attempt.takes = bs := by
  induction h with
  | last a hr =>
    have htakes : [a].flatMap Attempt.takes = a.takes := List.append_nil _
    rw [htakes]
    unfold Attempt.verdict
    by_cases hpos : 0 < a.outcome
    · rw [if_pos hpos, Attempt.takes_of_error hpos]
      exact iff_of_false nofun hbs.symm
    rw [if_neg hpos]
    by_cases hnone : a.takes = []
    · rw [if_pos hnone, hnone]
      exact iff_of_false nofun hbs.symm
    · rw [if_neg hnone]
      refine iff_of_true rfl (Decidable.byContradiction fun hpart => hr (.inr ⟨hnone, hpart⟩))
  | resumed a hr hrest ih =>
    rw [ih (hr.rest_ne_nil hbs), List.flatMap_cons]
    constructor
    · intro hall
      rw [hall, a.takes_append_drop]
    · intro hall
      exact List.append_cancel_left (hall.trans a.takes_append_drop.symm)

end Written

/-- A transmission goes on as a write does. -/
theorem transmission_cons (n : Int) (ns : List Int) (bs : List UInt8) :
    let a : Attempt := ⟨bs, n⟩
    let t := transmission ns (bs.drop a.takes.length)
    transmission (n :: ns) bs =
      if a.IsResumed then { t with offers := bs :: t.offers } else ⟨[bs], ns, a.verdict⟩ := by
  intro a t
  cases hacc : accepted n bs.length with
  | error e =>
    have hpos : 0 < n ∧ n = e := by
      unfold accepted at hacc
      grind
    obtain ⟨hpos, rfl⟩ := hpos
    have htakes : a.takes = [] := Attempt.takes_of_error hpos
    have ht : t = transmission ns bs := by
      show transmission ns (bs.drop a.takes.length) = _
      rw [htakes]
      rfl
    by_cases hi : n = Errno.interrupted
    · rw [if_pos (.inl hi), ht]
      simp only [transmission, hacc, if_pos hi]
    · have hr : ¬ a.IsResumed := by simp [Attempt.IsResumed, htakes, a, hi]
      have hv : a.verdict = .error (.code n) := if_pos hpos
      rw [if_neg hr, hv]
      simp only [transmission, hacc, if_neg hi]
  | ok m =>
    have htakes : a.takes = bs.take m := by rw [Attempt.takes, hacc]
    have hn : ¬ 0 < n ∧ m ≤ bs.length := by
      unfold accepted at hacc
      grind
    obtain ⟨hpos, hm⟩ := hn
    have hni : n ≠ Errno.interrupted := by
      rintro rfl
      exact hpos (by decide)
    have hl : a.takes.length = m := by rw [htakes, List.length_take_of_le hm]
    have ht : t = transmission ns (bs.drop m) := by
      show transmission ns (bs.drop a.takes.length) = _
      rw [hl]
    have hv (hne : a.takes ≠ []) : a.verdict = .ok () := by
      rw [Attempt.verdict, if_neg hpos, if_neg hne]
    cases m with
    | zero =>
      have hr : ¬ a.IsResumed := by simp [Attempt.IsResumed, htakes, a, hni]
      have hv : a.verdict = .error .nothingWritten := by
        have hnone : a.takes = [] := htakes
        rw [Attempt.verdict, if_neg hpos, if_pos hnone]
      rw [if_neg hr, hv]
      simp only [transmission, hacc]
    | succ m =>
      have hne : a.takes ≠ [] := List.ne_nil_of_length_pos (by omega)
      by_cases hall : m + 1 = bs.length
      · have hwhole : a.takes = bs := by rw [htakes, hall, List.take_length]
        have hr : ¬ a.IsResumed := by simp [Attempt.IsResumed, hwhole, a, hni]
        rw [if_neg hr, hv hne]
        simp only [transmission, hacc, if_pos hall]
      · have hr : a.IsResumed := .inr ⟨hne, fun h => hall (by rw [← hl, h])⟩
        rw [if_pos hr, ht]
        simp only [transmission, hacc, if_neg hall]

/-- The sends that a transmission makes are those of a write. -/
theorem transmission_written (ns : List Int) {bs : List UInt8} (hbs : bs ≠ []) :
    Written bs (attempts ns (transmission ns bs).offers) (transmission ns bs).result := by
  induction ns generalizing bs with
  | nil =>
    have htakes : (⟨bs, 0⟩ : Attempt).takes = bs := List.take_length
    have hr : ¬ (⟨bs, 0⟩ : Attempt).IsResumed := by
      simp [Attempt.IsResumed, htakes, Errno.interrupted]
    have hv : (⟨bs, 0⟩ : Attempt).verdict = .ok () := by simp [Attempt.verdict, htakes, hbs]
    have hw := Written.last ⟨bs, 0⟩ hr
    rw [hv] at hw
    exact hw
  | cons n ns ih =>
    rw [transmission_cons n ns bs]
    split
    · rename_i hr
      exact .resumed ⟨bs, n⟩ hr (ih (hr.rest_ne_nil hbs))
    · rename_i hr
      exact .last ⟨bs, n⟩ hr

end CanBus.Kernel
