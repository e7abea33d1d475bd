import CanBus.Proofs.Health.Failures
import CanBus.Proofs.Session.BusOff
import CanBus.Proofs.Session.Sending

/-!
Rows of failed sends that are long enough to be forgotten, and who can make them. A session sends
nothing while the bus is off, so its rows end one above the threshold. Only with the largest
threshold, which no word is above, does it go on until the count wraps. Main statement:
`failures_forgotten_iff`.
-/

namespace CanBus

open Health Health.Operation

theorem Occurrence.since_of_none {p : Occurrence → Bool} {h : List Occurrence}
    (hp : ∀ o ∈ h, p o = false) : since p h = h.reverse := by
  refine List.takeWhile_eq_self_iff.mpr fun o ho => ?_
  rw [hp o (List.mem_reverse.mp ho)]
  rfl

/-! ## A session that never gives up -/

/-- No count is above the largest threshold. -/
theorem Health.isBusOff_of_largest {h : Health} (ht : h.threshold = 0xFFFFFFFF) :
    h.isBusOff = h.latched := by
  have hmax : ¬ h.threshold < h.txErrors := by
    have hlt := h.txErrors.toNat_lt
    rw [UInt32.lt_iff_toNat_lt, ht]
    show ¬ 0xFFFFFFFF < h.txErrors.toNat
    omega
  rw [isBusOff, decide_eq_false hmax, Bool.or_false]

namespace World

open Occurrence

/-- Here the next send finds the buffers full. -/
def fullBuffers : Kernel := { script := override (fun _ => []) .send [Errno.noBuffers] }

/-- Sends one after another that all find the buffers full. -/
def failingSends : Nat → List Action
  | 0 => []
  | n + 1 => .elsewhere fullBuffers :: .trySend 0 false 0 [] :: failingSends n

theorem step_failingSend {w : World} {c : Socket} (hc : w.session.channel = some c)
    (hb : w.session.isBusOff = false) :
    let full := w.step (.elsewhere fullBuffers)
    full.occurrence? (.trySend 0 false 0 []) = some .exhausted ∧
      (full.step (.trySend 0 false 0 [])).session =
        w.session.withHealth w.session.health.overflowed := by
  intro full
  obtain ⟨f, hf⟩ : ∃ f, WireFrame.encode 0 false 0 [] = .ok f := ⟨_, rfl⟩
  obtain ⟨k', hsend, -, -⟩ := Session.trySend_transmits hc hb (by decide) hf full.kernel
  -- One failure ends the write, so its result doesn't depend on the bytes and can
  -- be read off the script.
  constructor
  · exact congrArg (fun o => ofSend o.1.1) hsend
  · exact congrArg (fun o => o.1.2) hsend

theorem history_failingSends {w : World} {c : Socket} (hc : w.session.channel = some c)
    (ht : w.session.health.threshold = 0xFFFFFFFF) (hl : w.session.health.latched = false)
    (n : Nat) :
    w.history (failingSends n) = List.replicate n .exhausted ∧
      (w.run (failingSends n)).session.isBusOff = false := by
  have hb : w.session.isBusOff = false := (Health.isBusOff_of_largest ht).trans hl
  induction n generalizing w with
  | zero => exact ⟨rfl, hb⟩
  | succ n ih =>
    obtain ⟨hseen, hsession⟩ := step_failingSend hc hb
    let sent := (w.step (.elsewhere fullBuffers)).step (.trySend 0 false 0 [])
    have hc' : sent.session.channel = some c := hsession ▸ hc
    have ht' : sent.session.health.threshold = 0xFFFFFFFF := hsession ▸ ht
    have hl' : sent.session.health.latched = false := hsession ▸ hl
    obtain ⟨hhistory, hrun⟩ := ih hc' ht' hl' ((Health.isBusOff_of_largest ht').trans hl')
    refine ⟨?_, hrun⟩
    rw [failingSends, history, history, hseen, hhistory]
    rfl

/-- Settings with the largest threshold. -/
def tireless : Settings := { Settings.standard with busOffThreshold := 0xFFFFFFFF }

/-- With the largest threshold a row of any length is made, and the bus stays on. -/
theorem exists_failing_row (n : Nat) :
    let w := start "can0" tireless .table { interfaces := [("can0", 3)] }
    ∃ as, (since Occurrence.relieves (w.history as)).count .exhausted = n ∧
      (w.run as).session.isBusOff = false := by
  intro w
  have hopened : w.occurrence? .tryOpen = some (.windowRestarted 0) := by decide
  have hchannel : (w.step .tryOpen).session.channel = some ⟨0, 3⟩ := by decide
  obtain ⟨hhistory, hrun⟩ := history_failingSends hchannel (by decide) (by decide) n
  refine ⟨.tryOpen :: failingSends n, ?_, hrun⟩
  have hseen : w.history (.tryOpen :: failingSends n) =
      .windowRestarted 0 :: List.replicate n .exhausted := by
    rw [history, hopened, hhistory]
    rfl
  have hrow : ∀ o ∈ w.history (.tryOpen :: failingSends n), o.relieves = false := by
    rw [hseen]
    intro o ho
    obtain rfl | ho := List.mem_cons.mp ho
    · rfl
    · rw [List.eq_of_mem_replicate ho]
      rfl
  rw [since_of_none hrow, List.count_reverse, hseen, List.count_cons_of_ne (by decide),
    List.count_replicate_self]

/-- A row above the threshold shows in every session exactly if some word is above the threshold. -/
theorem rows_show_iff (threshold : UInt32) :
    (∀ name settings controller k as, settings.busOffThreshold = threshold →
      let w := start name settings controller k
      threshold.toNat < (since Occurrence.relieves (w.history as)).count .exhausted →
        (w.run as).session.isBusOff = true) ↔ threshold ≠ 0xFFFFFFFF := by
  constructor
  · rintro hshows rfl
    obtain ⟨as, hrow, hon⟩ := exists_failing_row 0x100000000
    have hoff := hshows "can0" tireless .table _ as rfl (by
      rw [hrow]
      decide)
    exact absurd hoff (Bool.eq_false_iff.mp hon)
  · rintro hne name settings controller k as rfl w hrow
    have hT : settings.busOffThreshold.toNat < 0xFFFFFFFF := by
      have hlt := settings.busOffThreshold.toNat_lt
      have hmax : settings.busOffThreshold.toNat ≠ 0xFFFFFFFF :=
        fun h => hne (UInt32.toNat_inj.mp h)
      omega
    have hstart : Tally settings.busOffThreshold [] w.session.health :=
      ⟨rfl, rfl, rfl, Nat.zero_le _⟩
    exact (tally_run hT hstart as).isBusOff_iff.mpr (.inr hrow)

end World

/-- The count of failed sends is a word, so that a row of them that fills it is forgotten, whatever
the threshold. Sessions are spared, since they don't send while the bus is off. -/
theorem Health.failures_forgotten_iff (threshold : UInt32) (now : Instant) (ops : List Operation) :
    let health (done : List Operation) := (healthy threshold now).performAll done
    ((health ops).isBusOff = true ↔
      Reported ops ∨ threshold.toNat < failures ops % 0x100000000) ∧
    (threshold.toNat < failures ops ∧ (health ops).isBusOff = false ↔
      ¬ Reported ops ∧ 0x100000000 ≤ failures ops ∧
      failures ops % 0x100000000 ≤ threshold.toNat) ∧
    (∃ more, threshold.toNat < failures (ops ++ more) ∧
      (health (ops ++ more)).isBusOff = false) ∧
    ((∀ name settings controller k as, settings.busOffThreshold = threshold →
      let w := World.start name settings controller k
      threshold.toNat < (Occurrence.since Occurrence.relieves (w.history as)).count .exhausted →
        (w.run as).session.isBusOff = true) ↔ threshold ≠ 0xFFFFFFFF) :=
  ⟨isBusOff_performAll threshold now ops, forgotten_iff threshold now ops,
    exists_forgotten threshold now ops, World.rows_show_iff threshold⟩

/-- At the standard threshold, one failed send more than the largest word,
and the bus counts as on. -/
theorem Health.row_forgotten :
    (¬ ∀ (threshold : UInt32) (now : Instant) (ops : List Operation),
      threshold.toNat < failures ops →
        ((healthy threshold now).performAll ops).isBusOff = true) ∧
    let h := (healthy defaultThreshold 0).performAll (List.replicate 0xFFFFFFFF .overflowed)
    h.isBusOff = true ∧ h.overflowed.isBusOff = false ∧ h.overflowed.txErrors = 0 := by
  have hnext (h : Health) (n : Nat) : (h.performAll (List.replicate n .overflowed)).overflowed =
      h.performAll (List.replicate (n + 1) .overflowed) := by
    rw [List.replicate_succ', performAll_snoc]
    rfl
  have hforgotten : ((healthy defaultThreshold 0).performAll
      (List.replicate (0xFFFFFFFF + 1) .overflowed)).isBusOff = false := by
    rw [← Bool.not_eq_true, isBusOff_replicate]
    decide
  refine ⟨fun hshows => ?_, ?_, ?_, ?_⟩
  · have hoff := hshows defaultThreshold 0 (List.replicate (0xFFFFFFFF + 1) .overflowed) (by
      rw [failures_replicate]
      decide)
    exact absurd hoff (Bool.eq_false_iff.mp hforgotten)
  · rw [isBusOff_replicate]
    decide
  · rw [hnext, hforgotten]
  · rw [hnext, txErrors_performAll, failures_replicate]
    rfl

end CanBus
