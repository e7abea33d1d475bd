import Mathlib.Data.List.DropRight
import Mathlib.Data.List.Induction
import CanBus.Health

/-!
How many sends have failed in a row, over every use of a bus's health. The count is a word
of 32 bits that wraps, so it tells the length of the row only up to a multiple of the word:
a row that fills it is forgotten, and the next failures count from none again. Main
statements: `isBusOff_performAll`, when the bus is off, and `forgotten_iff`, when a row
above the threshold doesn't show.
-/

namespace CanBus.Health

/-- Whatever changes the health. The window restarts on request, or when its load is taken. -/
inductive Operation
  | sent
  | overflowed
  /-- A data frame came in, or the controller was restarted. -/
  | cleared
  | reported (r : Report)
  | counted (wireBits payloadBits : UInt64)
  | restartWindow (now : Instant)
  deriving DecidableEq, Repr

def perform (h : Health) : Operation → Health
  | .sent => h.sent
  | .overflowed => h.overflowed
  | .cleared => h.cleared
  | .reported r => h.reported r
  | .counted wireBits payloadBits => h.counted wireBits payloadBits
  | .restartWindow now => h.restartWindow now

def performAll (h : Health) (ops : List Operation) : Health := ops.foldl perform h

theorem performAll_snoc (h : Health) (ops : List Operation) (o : Operation) :
    h.performAll (ops ++ [o]) = (h.performAll ops).perform o := List.foldl_concat ..

/-! ## What was done -/

namespace Operation

def clears : Operation → Bool
  | .cleared => true
  | _ => false

/-- Ends a row of failed sends. -/
def relieves : Operation → Bool
  | .sent => true
  | o => o.clears

def reportsBusOff : Operation → Bool
  | .reported r => r.isBusOff
  | _ => false

/-- Sends that failed since the last one that went through, data frame or restart, however many. -/
def failures (ops : List Operation) : Nat := (ops.rtakeWhile fun o => !o.relieves).count .overflowed

/-- Bus-off was reported since the last data frame or restart. -/
def Reported (ops : List Operation) : Prop :=
  ∃ o ∈ ops.rtakeWhile fun o => !o.clears, o.reportsBusOff = true

theorem failures_snoc (ops : List Operation) (o : Operation) :
    failures (ops ++ [o]) = if o.relieves then 0 else failures ops + [o].count .overflowed := by
  unfold failures
  rw [List.rtakeWhile_concat]
  cases o.relieves with
  | true => rfl
  | false => exact List.count_append

theorem reported_snoc (ops : List Operation) (o : Operation) :
    Reported (ops ++ [o]) ↔ o.clears = false ∧ (Reported ops ∨ o.reportsBusOff = true) := by
  unfold Reported
  rw [List.rtakeWhile_concat]
  cases hc : o.clears <;> simp [or_and_right, exists_or]

theorem failures_append_replicate (ops : List Operation) (n : Nat) :
    failures (ops ++ List.replicate n .overflowed) = failures ops + n := by
  induction n with
  | zero => rw [List.replicate_zero, List.append_nil, Nat.add_zero]
  | succ n ih =>
    rw [List.replicate_succ', ← List.append_assoc, failures_snoc, ih]
    rfl

theorem failures_replicate (n : Nat) : failures (List.replicate n .overflowed) = n :=
  (failures_append_replicate [] n).trans (Nat.zero_add n)

theorem reported_append_replicate (ops : List Operation) (n : Nat) :
    Reported (ops ++ List.replicate n .overflowed) ↔ Reported ops := by
  induction n with
  | zero => rw [List.replicate_zero, List.append_nil]
  | succ n ih =>
    rw [List.replicate_succ', ← List.append_assoc, reported_snoc, ih]
    simp [clears, reportsBusOff]

theorem not_reported_replicate (n : Nat) : ¬ Reported (List.replicate n .overflowed) := by
  intro h
  obtain ⟨o, ho, -⟩ := (reported_append_replicate [] n).mp h
  cases ho

end Operation

open Operation

/-! ## What the health makes of it

Rows are told from their end, so the inductions are on the last operation: what it does to the
health, and what it does to the row. -/

theorem threshold_perform (h : Health) (o : Operation) : (h.perform o).threshold = h.threshold := by
  cases o <;> rfl

theorem latched_perform (h : Health) (o : Operation) :
    (h.perform o).latched = true ↔
      o.clears = false ∧ (h.latched = true ∨ o.reportsBusOff = true) := by
  cases o <;>
    simp [perform, sent, overflowed, cleared, reported, counted, restartWindow, clears,
      reportsBusOff]

theorem txErrors_perform (h : Health) (o : Operation) :
    (h.perform o).txErrors =
      if o.relieves then 0 else h.txErrors + UInt32.ofNat ([o].count .overflowed) := by
  cases o with
  | sent => rfl
  | overflowed => rfl
  | cleared => rfl
  | _ => exact (UInt32.add_zero _).symm

section PerformAll

variable (threshold : UInt32) (now : Instant) (ops : List Operation)

theorem threshold_performAll (h : Health) : (h.performAll ops).threshold = h.threshold := by
  induction ops using List.reverseRecOn with
  | nil => rfl
  | append_singleton ops o ih => rw [performAll_snoc, threshold_perform, ih]

theorem latched_performAll :
    ((healthy threshold now).performAll ops).latched = true ↔ Reported ops := by
  induction ops using List.reverseRecOn with
  | nil => simp [performAll, healthy, Reported]
  | append_singleton ops o ih => rw [performAll_snoc, latched_perform, reported_snoc, ih]

/-- The word goes along with the row, each wrap included. -/
theorem txErrors_performAll :
    ((healthy threshold now).performAll ops).txErrors = UInt32.ofNat (failures ops) := by
  induction ops using List.reverseRecOn with
  | nil => rfl
  | append_singleton ops o ih =>
    rw [performAll_snoc, txErrors_perform, failures_snoc, ih]
    split
    · rfl
    · exact (UInt32.ofNat_add _ _).symm

theorem isBusOff_performAll : ((healthy threshold now).performAll ops).isBusOff = true ↔
    Reported ops ∨ threshold.toNat < failures ops % 0x100000000 := by
  have hword : (UInt32.ofNat (failures ops)).toNat = failures ops % 0x100000000 :=
    UInt32.toNat_ofNat'
  rw [isBusOff, Bool.or_eq_true, decide_eq_true_eq, latched_performAll, threshold_performAll,
    txErrors_performAll, UInt32.lt_iff_toNat_lt, hword]
  rfl

/-- Nothing but failures, from the first. -/
theorem isBusOff_replicate (n : Nat) :
    ((healthy threshold now).performAll (List.replicate n .overflowed)).isBusOff = true ↔
      threshold.toNat < n % 0x100000000 := by
  rw [isBusOff_performAll, failures_replicate]
  exact or_iff_right (not_reported_replicate n)

/-- A row shorter than the word always shows. -/
theorem forgotten_iff :
    threshold.toNat < failures ops ∧ ((healthy threshold now).performAll ops).isBusOff = false ↔
      ¬ Reported ops ∧ 0x100000000 ≤ failures ops ∧
      failures ops % 0x100000000 ≤ threshold.toNat := by
  have hmax : threshold.toNat < 0x100000000 := threshold.toNat_lt
  rw [← Bool.not_eq_true, isBusOff_performAll, not_or, Nat.not_lt]
  constructor
  · rintro ⟨hrow, hreported, hle⟩
    refine ⟨hreported, ?_, hle⟩
    by_contra hshort
    -- A row that fills no word is its own remainder, and that is above the threshold.
    rw [Nat.mod_eq_of_lt (Nat.lt_of_not_le hshort)] at hle
    exact absurd hrow (Nat.not_lt.mpr hle)
  · rintro ⟨hreported, hlong, hle⟩
    exact ⟨Nat.lt_of_lt_of_le hmax hlong, hreported, hle⟩

/-- Whatever was done before, a row that fills the word after a restart is forgotten. -/
theorem exists_forgotten : ∃ more, threshold.toNat < failures (ops ++ more) ∧
    ((healthy threshold now).performAll (ops ++ more)).isBusOff = false := by
  let restarted := ops ++ [.cleared]
  have hrelieved : failures restarted = 0 := failures_snoc ops .cleared
  have hrow : failures (restarted ++ List.replicate 0x100000000 .overflowed) = 0x100000000 := by
    rw [failures_append_replicate, hrelieved, Nat.zero_add]
  have hreported : ¬ Reported (restarted ++ List.replicate 0x100000000 .overflowed) := by
    rw [reported_append_replicate, reported_snoc]
    exact fun h => absurd h.1 (by decide)
  refine ⟨[.cleared] ++ List.replicate 0x100000000 .overflowed, ?_⟩
  rw [← List.append_assoc, forgotten_iff, hrow, Nat.mod_self]
  exact ⟨hreported, Nat.le_refl _, Nat.zero_le _⟩

end PerformAll

end CanBus.Health
