import Mathlib.Data.UInt
import CanBus.Health

/-!
The load of a window as a number. It is computed in words of 64 bits: the milliseconds are cut to a
word, the bits saturate, and the divisor has to fit. `exactLoad` is what it is over numbers without
bounds. As long as a hundred times the divisor fits, nothing of this can be seen (`load_exact`),
since bits that saturate are more than enough for all of 100 percent.
-/

namespace CanBus.LoadWindow

/-- Whole milliseconds since the start, however many. -/
def millis (w : LoadWindow) (now : Instant) : Nat := w.age now / 1000000

/-! ## Words as numbers -/

theorem toNat_elapsedMillis (w : LoadWindow) (now : Instant) :
    (w.elapsedMillis now).toNat = w.millis now % 0x10000000000000000 := UInt64.toNat_ofNat'

theorem checkedMul_eq_ok_iff {a b c : UInt64} :
    checkedMul a b = .ok c ↔ c.toNat = a.toNat * b.toNat := by
  unfold checkedMul
  split
  next h =>
    have hmul : (a * b).toNat = a.toNat * b.toNat := by rw [UInt64.toNat_mul, Nat.mod_eq_of_lt h]
    rw [Except.ok.injEq, ← hmul, UInt64.toNat_inj, eq_comm]
  next h =>
    have hlt : c.toNat < 0x10000000000000000 := c.toNat_lt
    exact iff_of_false nofun fun hc => h (hc ▸ hlt)

theorem checkedMul_eq_error_iff {a b : UInt64} {fault : ArithmeticFault} :
    checkedMul a b = .error fault ↔
      fault = .overflow ∧ 0x10000000000000000 ≤ a.toNat * b.toNat := by
  unfold checkedMul
  split
  next h => exact iff_of_false nofun fun hf => absurd hf.2 (Nat.not_le_of_lt h)
  next h =>
    rw [Except.error.injEq, eq_comm]
    exact (and_iff_left (Nat.le_of_not_lt h)).symm

theorem checkedDiv_of_ne_zero {a b : UInt64} (h : b ≠ 0) : checkedDiv a b = .ok (a / b) :=
  if_neg h

theorem toNat_saturatingMul (a b : UInt64) :
    (saturatingMul a b).toNat = min (a.toNat * b.toNat) 0xFFFFFFFFFFFFFFFF := by
  unfold saturatingMul
  split
  next h =>
    rw [UInt64.toNat_mul, Nat.mod_eq_of_lt h]
    exact (Nat.min_eq_left (Nat.le_of_lt_succ h)).symm
  next h => exact (Nat.min_eq_right (Nat.le_of_succ_le (Nat.le_of_not_lt h))).symm

section Cases

variable {w : LoadWindow} {bitrate : UInt32} {now : Instant}

theorem capacity_eq_ok_iff {c : UInt64} :
    w.capacity bitrate now = .ok c ↔ c.toNat = bitrate.toNat * (w.elapsedMillis now).toNat := by
  rw [capacity, checkedMul_eq_ok_iff, UInt32.toNat_toUInt64]

theorem capacity_eq_error_iff {fault : ArithmeticFault} :
    w.capacity bitrate now = .error fault ↔ fault = .overflow ∧
      0x10000000000000000 ≤ bitrate.toNat * (w.elapsedMillis now).toNat := by
  rw [capacity, checkedMul_eq_error_iff, UInt32.toNat_toUInt64]

theorem capacity_of_fits (h : bitrate.toNat * (w.elapsedMillis now).toNat < 0x10000000000000000) :
    ∃ c, w.capacity bitrate now = .ok c ∧
      c.toNat = bitrate.toNat * (w.elapsedMillis now).toNat :=
  ⟨_, capacity_eq_ok_iff.mpr (UInt64.toNat_ofNat_of_lt' h), UInt64.toNat_ofNat_of_lt' h⟩

theorem idle_iff : (w.elapsedMillis now = 0 ∨ bitrate = 0) ↔
    ((w.elapsedMillis now).toNat = 0 ∨ bitrate.toNat = 0) :=
  or_congr UInt64.toNat_inj.symm UInt32.toNat_inj.symm

/-- No time or no bitrate, no load. -/
theorem load_of_idle (h : (w.elapsedMillis now).toNat = 0 ∨ bitrate.toNat = 0) :
    w.load bitrate now = .ok 0 := if_pos (idle_iff.mpr h)

theorem load_of_capacity {c : UInt64}
    (h : ¬ ((w.elapsedMillis now).toNat = 0 ∨ bitrate.toNat = 0))
    (hc : w.capacity bitrate now = .ok c) :
    w.load bitrate now = .ok (min (saturatingMul w.wireBits 100000 / c) 100) := by
  have hne : c ≠ 0 := by
    rintro rfl
    exact h (Nat.mul_eq_zero.mp (capacity_eq_ok_iff.mp hc).symm).symm
  rw [load, if_neg (mt idle_iff.mp h), hc]
  show (checkedDiv _ c >>= _) = _
  rw [checkedDiv_of_ne_zero hne]
  rfl

theorem load_of_overflow
    (h : 0x10000000000000000 ≤ bitrate.toNat * (w.elapsedMillis now).toNat) :
    w.load bitrate now = .error .overflow := by
  have hbusy : ¬ ((w.elapsedMillis now).toNat = 0 ∨ bitrate.toNat = 0) := by
    rintro (hzero | hzero) <;> simp [hzero] at h
  rw [load, if_neg (mt idle_iff.mp hbusy), capacity_eq_error_iff.mpr ⟨rfl, h⟩]
  rfl

variable (w bitrate now) in
/-- There is no division by zero: a divisor that fits is zero only with one of its factors, for which
there is a test. -/
theorem load_cases :
    (∃ percent, w.load bitrate now = .ok percent ∧ percent.toNat ≤ 100) ∨
      (w.load bitrate now = .error .overflow ∧
        0x10000000000000000 ≤ bitrate.toNat * (w.elapsedMillis now).toNat) := by
  by_cases hidle : (w.elapsedMillis now).toNat = 0 ∨ bitrate.toNat = 0
  · exact .inl ⟨0, load_of_idle hidle, Nat.zero_le _⟩
  cases hc : w.capacity bitrate now with
  | ok c =>
    refine .inl ⟨_, load_of_capacity hidle hc, ?_⟩
    rw [UInt64.toNat_min]
    exact Nat.min_le_right _ _
  | error fault =>
    obtain ⟨-, hover⟩ := capacity_eq_error_iff.mp hc
    exact .inr ⟨load_of_overflow hover, hover⟩

theorem load_eq_error_iff {fault : ArithmeticFault} : w.load bitrate now = .error fault ↔
    fault = .overflow ∧ 0x10000000000000000 ≤ bitrate.toNat * (w.elapsedMillis now).toNat := by
  constructor
  · intro h
    obtain ⟨percent, hload, -⟩ | ⟨hload, hover⟩ := w.load_cases bitrate now
    · rw [hload] at h
      cases h
    · rw [hload] at h
      cases h
      exact ⟨rfl, hover⟩
  · rintro ⟨rfl, hover⟩
    exact load_of_overflow hover

theorem le_of_load {load : UInt64} (h : w.load bitrate now = .ok load) : load.toNat ≤ 100 := by
  obtain ⟨percent, hload, hle⟩ | ⟨hload, -⟩ := w.load_cases bitrate now
  · rw [hload] at h
    cases h
    exact hle
  · rw [hload] at h
    cases h

end Cases

theorem millis_mono (w : LoadWindow) {now now' : Instant} (h : now ≤ now') :
    w.millis now ≤ w.millis now' :=
  Nat.div_le_div_right (Int.toNat_le_toNat (Int.sub_le_sub_right h _))

/-! ## The load without bounds -/

/-- The load in percent, at most 100, over numbers of any size. -/
def exactLoad (bits bitrate millis : Nat) : Nat :=
  if millis = 0 ∨ bitrate = 0 then 0 else min 100 (100000 * bits / (bitrate * millis))

theorem exactLoad_le_of_bits {bits bits' : Nat} (h : bits ≤ bits') (bitrate millis : Nat) :
    exactLoad bits bitrate millis ≤ exactLoad bits' bitrate millis := by
  unfold exactLoad
  split
  · exact Nat.le_refl 0
  · have hdiv : 100000 * bits / (bitrate * millis) ≤ 100000 * bits' / (bitrate * millis) :=
      Nat.div_le_div_right (Nat.mul_le_mul_left _ h)
    omega

theorem exactLoad_le_of_capacity (bits : Nat) {bitrate bitrate' millis millis' : Nat}
    (hrate : 1 ≤ bitrate) (hms : 1 ≤ millis) (hrate' : bitrate ≤ bitrate')
    (hms' : millis ≤ millis') :
    exactLoad bits bitrate' millis' ≤ exactLoad bits bitrate millis := by
  have hdiv : 100000 * bits / (bitrate' * millis') ≤ 100000 * bits / (bitrate * millis) :=
    Nat.div_le_div_left (Nat.mul_le_mul hrate' hms') (Nat.mul_pos hrate hms)
  unfold exactLoad
  rw [if_neg (by omega), if_neg (by omega)]
  omega

/-- Bits that saturate give a quotient above 100 just as the true number does. -/
theorem min_saturated_div {n d : Nat} (hpos : 0 < d) (hd : 100 * d < 0x10000000000000000) :
    min (min n 0xFFFFFFFFFFFFFFFF / d) 100 = min 100 (n / d) := by
  by_cases hn : n ≤ 0xFFFFFFFFFFFFFFFF
  · rw [Nat.min_eq_left hn, Nat.min_comm]
  · have hsaturated : 100 ≤ min n 0xFFFFFFFFFFFFFFFF / d :=
      (Nat.le_div_iff_mul_le hpos).mpr (by omega)
    have htrue : 100 ≤ n / d := (Nat.le_div_iff_mul_le hpos).mpr (by omega)
    rw [Nat.min_eq_right hsaturated, Nat.min_eq_left htrue]

/-! ## Where both agree -/

/-- A hundred times the divisor fits in a word. -/
def InRange (w : LoadWindow) (bitrate : UInt32) (now : Instant) : Prop :=
  100 * bitrate.toNat * w.millis now < 0x10000000000000000

section InRange

variable {w : LoadWindow} {bitrate : UInt32} {now : Instant}

theorem InRange.divisor (h : w.InRange bitrate now) :
    100 * (bitrate.toNat * w.millis now) < 0x10000000000000000 := by
  rw [← Nat.mul_assoc]
  exact h

theorem InRange.elapsed (h : w.InRange bitrate now) (hrate : bitrate.toNat ≠ 0) :
    (w.elapsedMillis now).toNat = w.millis now := by
  have hd := h.divisor
  have hle : w.millis now ≤ bitrate.toNat * w.millis now :=
    Nat.le_mul_of_pos_left _ (Nat.pos_of_ne_zero hrate)
  rw [toNat_elapsedMillis]
  exact Nat.mod_eq_of_lt (by omega)

theorem InRange.load (h : w.InRange bitrate now) : ∃ load, w.load bitrate now = .ok load ∧
    load.toNat = exactLoad w.wireBits.toNat bitrate.toNat (w.millis now) := by
  rw [exactLoad]
  by_cases hrate : bitrate.toNat = 0
  · exact ⟨0, load_of_idle (.inr hrate), (if_pos (.inr hrate)).symm⟩
  have helapsed := h.elapsed hrate
  by_cases hms : w.millis now = 0
  · exact ⟨0, load_of_idle (.inl (helapsed.trans hms)), (if_pos (.inl hms)).symm⟩
  have hbusy : ¬ (w.millis now = 0 ∨ bitrate.toNat = 0) := not_or.mpr ⟨hms, hrate⟩
  have hpos : 0 < bitrate.toNat * w.millis now :=
    Nat.mul_pos (Nat.pos_of_ne_zero hrate) (Nat.pos_of_ne_zero hms)
  have hd := h.divisor
  rw [← helapsed] at hbusy hpos hd ⊢
  have hfits : bitrate.toNat * (w.elapsedMillis now).toNat < 0x10000000000000000 := by omega
  obtain ⟨divisor, hcapacity, hdivisor⟩ := capacity_of_fits hfits
  refine ⟨_, load_of_capacity hbusy hcapacity, ?_⟩
  rw [UInt64.toNat_min, UInt64.toNat_div, toNat_saturatingMul, hdivisor, if_neg hbusy,
    Nat.mul_comm 100000]
  exact min_saturated_div hpos hd

/-- A sooner time and a lower bitrate are in range as well. -/
theorem InRange.mono {bitrate' : UInt32} {now' : Instant} (h : w.InRange bitrate now)
    (hrate : bitrate' ≤ bitrate) (hnow : now' ≤ now) : w.InRange bitrate' now' := by
  refine Nat.lt_of_le_of_lt ?_ h
  exact Nat.mul_le_mul (Nat.mul_le_mul_left _ (UInt32.le_iff_toNat_le.mp hrate))
    (millis_mono w hnow)

end InRange

/-! ## Frames one after another -/

/-- Counts frames, each with its bits on the wire and in its payload. -/
def recordAll (w : LoadWindow) (frames : List (UInt64 × UInt64)) : LoadWindow :=
  frames.foldl (fun w f => w.record f.1 f.2) w

def totalBits : List (UInt64 × UInt64) → Nat
  | [] => 0
  | f :: frames => f.1.toNat + totalBits frames

theorem start_recordAll (w : LoadWindow) (frames : List (UInt64 × UInt64)) :
    (w.recordAll frames).start = w.start := by
  induction frames generalizing w with
  | nil => rfl
  | cons f frames ih => exact ih (w.record f.1 f.2)

theorem wireBits_recordAll (w : LoadWindow) (frames : List (UInt64 × UInt64))
    (h : w.wireBits.toNat + totalBits frames < 0x10000000000000000) :
    (w.recordAll frames).wireBits.toNat = w.wireBits.toNat + totalBits frames := by
  induction frames generalizing w with
  | nil => rfl
  | cons f frames ih =>
    rw [totalBits] at h ⊢
    have hone : (w.record f.1 f.2).wireBits.toNat = w.wireBits.toNat + f.1.toNat := by
      rw [record, UInt64.toNat_add]
      exact Nat.mod_eq_of_lt (by omega)
    have hrest := ih (w.record f.1 f.2) (by omega)
    rw [hone, Nat.add_assoc] at hrest
    exact hrest

/-- As long as a hundred times the divisor fits in a word, the load is that of unbounded numbers,
even if the bits saturate. So it never falls as frames are counted, up to what the counter holds,
and never rises with time or bitrate once there is some of both. -/
theorem load_exact (w : LoadWindow) (bitrate : UInt32) (now : Instant)
    (h : 100 * bitrate.toNat * w.millis now < 0x10000000000000000) :
    ∃ load, w.load bitrate now = .ok load ∧
      load.toNat =
        (if w.millis now = 0 ∨ bitrate.toNat = 0 then 0
          else min 100 (100000 * w.wireBits.toNat / (bitrate.toNat * w.millis now))) ∧
      (∀ frames, w.wireBits.toNat + totalBits frames < 0x10000000000000000 →
        ∃ more, (w.recordAll frames).load bitrate now = .ok more ∧ load ≤ more) ∧
      ∀ lower earlier, lower ≤ bitrate → earlier ≤ now → 1 ≤ lower.toNat →
        1 ≤ w.millis earlier →
        ∃ more, w.load lower earlier = .ok more ∧ load ≤ more := by
  have hrange : w.InRange bitrate now := h
  obtain ⟨load, hload, hexact⟩ := hrange.load
  refine ⟨load, hload, hexact, fun frames hsum => ?_,
    fun lower earlier hlower hearlier hrate hms => ?_⟩
  · have hmillis : (w.recordAll frames).millis now = w.millis now := by
      rw [millis, millis, age, age, start_recordAll]
    have hrange' : (w.recordAll frames).InRange bitrate now := by
      rw [InRange, hmillis]
      exact h
    obtain ⟨more, hmore, hexact'⟩ := hrange'.load
    refine ⟨more, hmore, ?_⟩
    rw [UInt64.le_iff_toNat_le, hexact, hexact', hmillis, wireBits_recordAll w frames hsum]
    exact exactLoad_le_of_bits (Nat.le_add_right _ _) _ _
  · obtain ⟨more, hmore, hexact'⟩ := (hrange.mono hlower hearlier).load
    refine ⟨more, hmore, ?_⟩
    rw [UInt64.le_iff_toNat_le, hexact, hexact']
    exact exactLoad_le_of_capacity _ hrate hms (UInt32.le_iff_toNat_le.mp hlower)
      (millis_mono w hearlier)

/-- A counter that is almost full: the bits saturate. -/
theorem load_exact_of_saturated :
    let w : LoadWindow := ⟨7, 0xFFFFFFFFFFFFFF00, 0, 0⟩
    100 * (1000000 : UInt32).toNat * w.millis 2000000000 < 0x10000000000000000 ∧
      saturatingMul w.wireBits 100000 = 0xFFFFFFFFFFFFFFFF ∧
      w.load 1000000 2000000000 = .ok 100 ∧
      (∃ more, (w.recordAll [(135, 64)]).load 1000000 2000000000 = .ok more ∧ 100 ≤ more) ∧
      ∃ more, w.load 500000 1000000000 = .ok more ∧ 100 ≤ more := by
  intro w
  have h : 100 * (1000000 : UInt32).toNat * w.millis 2000000000 < 0x10000000000000000 := by decide
  obtain ⟨load, hload, hexact, hcounted, hlater⟩ := load_exact w 1000000 2000000000 h
  have hfull : load = 100 := UInt64.toNat_inj.mp (hexact.trans (by decide))
  rw [hfull] at hload hcounted hlater
  exact ⟨h, by decide, hload, hcounted [(135, 64)] (by decide),
    hlater 500000 1000000000 (by decide) (by decide) (by decide) (by decide)⟩

end CanBus.LoadWindow
