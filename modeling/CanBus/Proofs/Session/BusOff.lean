import CanBus.Proofs.Session.World

/-!
When the bus counts as off. Two counts of what was seen of a session decide it: reports of bus-off
since the bus was last cleared, and sends that found the buffers full since then or since the last
send that went through. `Tally` ties the health to them. It survives every action because a send is
refused while the bus is off, so neither count is touched then.
-/

namespace CanBus

namespace Occurrence

/-- A data frame, which is one without the error flag, or a restart of the controller. -/
def clears : Occurrence → Bool
  | .received w => !w.word.isError
  | .restarted => true
  | _ => false

/-- Ends a row of failed sends. -/
def relieves : Occurrence → Bool
  | .sent => true
  | o => o.clears

def reportsBusOff : Occurrence → Bool
  | .received w => w.report?.any Report.isBusOff
  | _ => false

/-- What was seen since the last occurrence of a kind, latest first. -/
def since (p : Occurrence → Bool) (h : List Occurrence) : List Occurrence :=
  h.reverse.takeWhile fun o => !p o

theorem since_snoc (p : Occurrence → Bool) (h : List Occurrence) (o : Occurrence) :
    since p (h ++ [o]) = if p o then [] else o :: since p h := by
  cases hp : p o <;> simp [since, hp]

theorem relieves_of_clears {o : Occurrence} (h : o.clears = true) : o.relieves = true := by
  cases o with
  | sent => rfl
  | _ => exact h

end Occurrence

open Occurrence

theorem Health.threshold_note (b : Health) (o : Occurrence) :
    (b.note o).threshold = b.threshold := by
  cases o with
  | received w =>
    rw [note, ingested]
    cases w.decode <;> rfl
  | _ => rfl

/-! ## The invariant -/

/-- The health as a count of what was seen. -/
structure Tally (threshold : UInt32) (h : List Occurrence) (b : Health) : Prop where
  threshold_eq : b.threshold = threshold
  latched_eq : b.latched = (since clears h).any reportsBusOff
  txErrors_eq : b.txErrors.toNat = (since relieves h).count .exhausted
  bounded : b.txErrors.toNat ≤ threshold.toNat + 1

namespace Tally

variable {threshold : UInt32} {h : List Occurrence} {b : Health}

theorem isBusOff_iff (t : Tally threshold h b) :
    b.isBusOff = true ↔ (∃ o ∈ since clears h, o.reportsBusOff = true) ∨
      threshold.toNat < (since relieves h).count .exhausted := by
  rw [Health.isBusOff, Bool.or_eq_true, t.latched_eq, List.any_eq_true, decide_eq_true_eq,
    UInt32.lt_iff_toNat_lt, t.threshold_eq, t.txErrors_eq]

/-- One more exhausted send does not wrap the count: before it the bus was not off. -/
theorem overflowed (t : Tally threshold h b) (hT : threshold.toNat < 0xFFFFFFFF)
    (hb : b.isBusOff = false) : Tally threshold (h ++ [.exhausted]) b.overflowed := by
  have hle : b.txErrors.toNat ≤ threshold.toNat := by
    have := (Bool.or_eq_false_iff.mp hb).2
    rw [decide_eq_false_iff_not, UInt32.lt_iff_toNat_lt, t.threshold_eq] at this
    omega
  have hn : b.overflowed.txErrors.toNat = b.txErrors.toNat + 1 := by
    rw [Health.overflowed, UInt32.toNat_add]
    exact Nat.mod_eq_of_lt (show b.txErrors.toNat + 1 < 4294967296 by omega)
  refine ⟨t.threshold_eq, ?_, ?_, ?_⟩
  · rw [since_snoc]
    exact t.latched_eq
  · rw [since_snoc, hn, t.txErrors_eq]
    exact List.count_cons_self.symm
  · rw [hn]
    omega

/-- Whatever clears the bus starts both counts again. -/
theorem cleared (t : Tally threshold h b) {o : Occurrence} (ho : o.clears = true)
    (hx : (b.note o).txErrors = 0) (hl : (b.note o).latched = false) :
    Tally threshold (h ++ [o]) (b.note o) := by
  refine ⟨?_, ?_, ?_, ?_⟩
  · rw [Health.threshold_note, t.threshold_eq]
  · rw [since_snoc, if_pos ho, hl]
    rfl
  · rw [since_snoc, if_pos (relieves_of_clears ho), hx]
    rfl
  · rw [hx]
    exact Nat.zero_le _

/-- Other frames and events leave the count of failed sends as it is. -/
theorem kept (t : Tally threshold h b) {o : Occurrence} (ho : o.relieves = false)
    (hne : o ≠ .exhausted) (hx : (b.note o).txErrors = b.txErrors)
    (hl : (b.note o).latched = (o.reportsBusOff || b.latched)) :
    Tally threshold (h ++ [o]) (b.note o) := by
  have hc : o.clears = false := by
    cases hc : o.clears with
    | false => rfl
    | true => rw [relieves_of_clears hc] at ho; cases ho
  refine ⟨?_, ?_, ?_, ?_⟩
  · rw [Health.threshold_note, t.threshold_eq]
  · rw [since_snoc, hc, hl, t.latched_eq]
    rfl
  · rw [since_snoc, ho, hx, t.txErrors_eq]
    exact (List.count_cons_of_ne hne).symm
  · rw [hx]
    exact t.bounded

theorem received (t : Tally threshold h b) (w : WireFrame) :
    Tally threshold (h ++ [.received w]) (b.note (.received w)) := by
  cases he : w.word.isError with
  | false =>
    have hd : w.decode = .data ⟨w.word.identifier, w.len, w.data⟩ := by
      simp [WireFrame.decode, he]
    refine t.cleared (by rw [clears, he]; rfl) ?_ ?_
    · rw [Health.note, Health.ingested, hd]
      rfl
    · rw [Health.note, Health.ingested, hd]
      rfl
  | true =>
    have hd : w.decode = .error (Report.ofWord w.word.val w.data) := by simp [WireFrame.decode, he]
    have hne : Occurrence.received w ≠ .exhausted := by
      intro h
      cases h
    refine t.kept (by simp [relieves, clears, he]) hne ?_ ?_
    · rw [Health.note, Health.ingested, hd]
      rfl
    · rw [Health.note, Health.ingested, hd, reportsBusOff, WireFrame.report?, hd]
      exact Bool.or_comm _ _

/-- The step of the induction. Nothing is sent while the bus is off. -/
theorem note (t : Tally threshold h b) (hT : threshold.toNat < 0xFFFFFFFF) {o : Occurrence}
    (hb : b.isBusOff = true → o ≠ .sent ∧ o ≠ .exhausted) :
    Tally threshold (h ++ [o]) (b.note o) := by
  cases o with
  | sent =>
    refine ⟨t.threshold_eq, ?_, ?_, Nat.zero_le _⟩
    · rw [since_snoc]
      exact t.latched_eq
    · rw [since_snoc]
      rfl
  | exhausted =>
    refine t.overflowed hT ?_
    rw [← Bool.not_eq_true]
    intro h
    exact (hb h).2 rfl
  | received w => exact t.received w
  | restarted => exact t.cleared rfl rfl rfl
  | windowRestarted => exact t.kept rfl nofun rfl rfl

end Tally

/-- Nothing but a clearing occurrence ends bus-off. -/
theorem Health.isBusOff_note {b : Health} (hb : b.isBusOff = true) {o : Occurrence}
    (hn : o ≠ .sent ∧ o ≠ .exhausted) (hc : o.clears = false) :
    (b.note o).isBusOff = true := by
  cases o with
  | sent => exact absurd rfl hn.1
  | exhausted => exact absurd rfl hn.2
  | received w =>
    have he : w.word.isError = true := by simpa [clears] using hc
    have hd : w.decode = .error (Report.ofWord w.word.val w.data) := by simp [WireFrame.decode, he]
    rw [note, ingested, hd]
    rcases Bool.or_eq_true _ _ ▸ hb with hl | hx
    · simp [isBusOff, reported, counted, hl]
    · exact Bool.or_eq_true _ _ ▸ .inr hx
  | restarted => cases hc
  | windowRestarted => exact hb

namespace World

theorem tally_run {T : UInt32} (hT : T.toNat < 0xFFFFFFFF) {w : World} {h : List Occurrence}
    (t : Tally T h w.session.health) (as : List Action) :
    Tally T (h ++ w.history as) (w.run as).session.health := by
  induction as generalizing w h with
  | nil =>
    rw [history, List.append_nil]
    exact t
  | cons a as ih =>
    have hb := (w.step_change a).busOff
    rw [history, ← List.append_assoc]
    refine ih ?_
    rw [step_health]
    cases ho : w.occurrence? a with
    | none =>
      rw [Option.toList_none, List.append_nil]
      exact t
    | some o =>
      rw [ho] at hb
      exact t.note hT fun h =>
        ⟨fun he => (hb h).1 (he ▸ rfl), fun he => (hb h).2 (he ▸ rfl)⟩

theorem isBusOff_run {w : World} (hb : w.session.isBusOff = true) (as : List Action)
    (hc : ∀ o ∈ w.history as, o.clears = false) : (w.run as).session.isBusOff = true := by
  induction as generalizing w with
  | nil => exact hb
  | cons a as ih =>
    have hn := (w.step_change a).busOff hb
    rw [history] at hc
    refine ih ?_ fun o ho => hc o (List.mem_append_right _ ho)
    rw [Session.isBusOff, step_health]
    cases ho : w.occurrence? a with
    | none => exact hb
    | some o =>
      rw [ho] at hn
      refine Health.isBusOff_note hb ⟨fun he => hn.1 (he ▸ rfl),
        fun he => hn.2 (he ▸ rfl)⟩ ?_
      exact hc o (by simp [ho])

/-- At every point of every history the bus is off for one of two reasons, and it stays off until
something clears it. The count of failed sends cannot wrap. -/
theorem isBusOff_iff_since (name : String) (settings : Settings) (controller : Controller)
    (k : Kernel) (hT : settings.busOffThreshold.toNat < 0xFFFFFFFF) (as : List Action) :
    let w := start name settings controller k
    let now := w.run as
    (now.session.isBusOff = true ↔
      (∃ o ∈ since clears (w.history as), o.reportsBusOff = true) ∨
      settings.busOffThreshold.toNat < (since relieves (w.history as)).count .exhausted) ∧
    now.session.health.txErrors.toNat ≤ settings.busOffThreshold.toNat + 1 ∧
    (now.session.isBusOff = true → ∀ bs, (∀ o ∈ now.history bs, o.clears = false) →
      (now.run bs).session.isBusOff = true) := by
  intro w now
  have h₀ : Tally settings.busOffThreshold [] w.session.health :=
    ⟨rfl, rfl, rfl, Nat.zero_le _⟩
  have t : Tally settings.busOffThreshold (w.history as) now.session.health := tally_run hT h₀ as
  exact ⟨t.isBusOff_iff, t.bounded, fun hb bs hc => isBusOff_run hb bs hc⟩

/-- With a threshold of 0 one exhausted send is enough. -/
theorem isBusOff_after_exhausted_send :
    let settings := { Settings.standard with busOffThreshold := 0 }
    let k : Kernel :=
      { interfaces := [("can0", 3)], script := override (fun _ => []) .send [Errno.noBuffers] }
    let w := start "can0" settings .table k
    let as := [.tryOpen, .trySend 1 false 0 []]
    settings.busOffThreshold.toNat < 0xFFFFFFFF ∧
      w.history as = [.windowRestarted 0, .exhausted] ∧ (w.run as).session.isBusOff = true := by
  intro settings k w as
  have hT : settings.busOffThreshold.toNat < 0xFFFFFFFF := by decide
  have h := (isBusOff_iff_since "can0" settings .table k hT as).1
  exact ⟨hT, by decide, h.mpr (.inr (by decide))⟩

end World

end CanBus
