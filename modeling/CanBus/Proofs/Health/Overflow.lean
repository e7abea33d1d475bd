import Mathlib.Data.Nat.Prime.Basic
import CanBus.Proofs.Health.Load
import CanBus.Proofs.Session.Effect

/-!
Where the arithmetic of the load gives way. The numerator saturates, but the divisor has to fit,
and whoever takes the load of a window that was open for too long is stopped. The test for zero
looks at the factors of the divisor instead of at the product, so without a check of the product
there would be a division by zero as well. Main statement: `load_sound_iff`.
-/

namespace CanBus.LoadWindow

/-- The words hold what they should, and past the test for zero the divisor isn't zero. -/
structure Sound (w : LoadWindow) (bitrate : UInt32) (now : Instant) : Prop where
  elapsed : (w.elapsedMillis now).toNat = w.millis now
  product : ∃ divisor, w.capacity bitrate now = .ok divisor ∧
    divisor.toNat = bitrate.toNat * w.millis now
  divisor : w.elapsedMillis now ≠ 0 → bitrate ≠ 0 → w.capacity bitrate now ≠ .ok 0

/-- The test for zero is passed, and a product that wraps would be zero. -/
def WrapsToZero (w : LoadWindow) (bitrate : UInt32) (now : Instant) : Prop :=
  w.elapsedMillis now ≠ 0 ∧ bitrate ≠ 0 ∧ bitrate.toUInt64 * w.elapsedMillis now = 0

section Overflow

variable {w : LoadWindow} {bitrate : UInt32} {now : Instant}

theorem sound_iff : w.Sound bitrate now ↔
    w.millis now < 0x10000000000000000 ∧
      bitrate.toNat * w.millis now < 0x10000000000000000 := by
  constructor
  · rintro ⟨helapsed, ⟨divisor, -, hproduct⟩, -⟩
    exact ⟨helapsed ▸ UInt64.toNat_lt _, hproduct ▸ UInt64.toNat_lt _⟩
  · rintro ⟨hms, hproduct⟩
    have helapsed : (w.elapsedMillis now).toNat = w.millis now := by
      rw [toNat_elapsedMillis, Nat.mod_eq_of_lt hms]
    refine ⟨helapsed, helapsed ▸ capacity_of_fits (helapsed ▸ hproduct), ?_⟩
    intro hne hrate hzero
    exact absurd (Nat.mul_eq_zero.mp (capacity_eq_ok_iff.mp hzero).symm)
      (fun h => (idle_iff.mpr h.symm).elim hne hrate)

theorem overflow_iff {fault : ArithmeticFault} : w.load bitrate now = .error fault ↔
    fault = .overflow ∧
      0x10000000000000000 ≤ bitrate.toNat * (w.millis now % 0x10000000000000000) := by
  rw [load_eq_error_iff, toNat_elapsedMillis]

theorem wrapsToZero_iff : w.WrapsToZero bitrate now ↔
    bitrate.toNat ≠ 0 ∧ ¬ 0x10000000000000000 ∣ w.millis now ∧
      0x10000000000000000 ∣ bitrate.toNat * w.millis now := by
  have hrate : bitrate = 0 ↔ bitrate.toNat = 0 := UInt32.toNat_inj.symm
  have helapsed : w.elapsedMillis now = 0 ↔ 0x10000000000000000 ∣ w.millis now := by
    rw [← UInt64.toNat_inj, toNat_elapsedMillis]
    exact (Nat.dvd_iff_mod_eq_zero).symm
  have hproduct : bitrate.toUInt64 * w.elapsedMillis now = 0 ↔
      0x10000000000000000 ∣ bitrate.toNat * w.millis now := by
    rw [← UInt64.toNat_inj, UInt64.toNat_mul, UInt32.toNat_toUInt64, toNat_elapsedMillis]
    show _ % 0x10000000000000000 = 0 ↔ _
    rw [Nat.mul_mod_mod]
    exact (Nat.dvd_iff_mod_eq_zero).symm
  rw [WrapsToZero, ne_eq, ne_eq, helapsed, hproduct, hrate, and_left_comm]

/-- The time at which a window is so many milliseconds old. -/
def momentOf (w : LoadWindow) (millis : Nat) : Instant := w.start + millis * 1000000

theorem millis_momentOf (w : LoadWindow) (millis : Nat) :
    w.millis (w.momentOf millis) = millis := by
  have hage : w.age (w.momentOf millis) = millis * 1000000 := by
    unfold age momentOf
    omega
  rw [LoadWindow.millis, hage, Nat.mul_div_cancel _ (by decide)]

/-- The largest word of milliseconds, times one, still fits. -/
theorem exists_overflow_iff :
    (∃ now, w.load bitrate now = .error .overflow) ↔ 2 ≤ bitrate.toNat := by
  constructor
  · rintro ⟨now, h⟩
    obtain ⟨-, hover⟩ := overflow_iff.mp h
    have hmod : w.millis now % 0x10000000000000000 < 0x10000000000000000 :=
      Nat.mod_lt _ (by decide)
    by_contra hsmall
    have hle : bitrate.toNat * (w.millis now % 0x10000000000000000) ≤
        1 * (w.millis now % 0x10000000000000000) := Nat.mul_le_mul_right _ (by omega)
    omega
  · intro h
    refine ⟨w.momentOf 0xFFFFFFFFFFFFFFFF, overflow_iff.mpr ⟨rfl, ?_⟩⟩
    rw [millis_momentOf]
    omega

/-- An even bitrate has a factor of 2 that makes up for the one that half a turn of the word lacks;
an odd one shares no factor with the word. -/
theorem exists_wrapsToZero_iff : (∃ now, w.WrapsToZero bitrate now) ↔
    bitrate.toNat ≠ 0 ∧ bitrate.toNat % 2 = 0 := by
  constructor
  · rintro ⟨now, h⟩
    obtain ⟨hrate, hms, hproduct⟩ := wrapsToZero_iff.mp h
    refine ⟨hrate, ?_⟩
    by_contra hne
    have hodd : Odd bitrate.toNat := Nat.odd_iff.mpr (by omega)
    have hcoprime : Nat.Coprime (2 ^ 64) bitrate.toNat :=
      (Nat.coprime_two_left.mpr hodd).pow_left 64
    exact hms (hcoprime.dvd_of_dvd_mul_left hproduct)
  · rintro ⟨hrate, heven⟩
    refine ⟨w.momentOf 0x8000000000000000, wrapsToZero_iff.mpr ⟨hrate, ?_, ?_⟩⟩
    · rw [millis_momentOf]
      decide
    · rw [millis_momentOf]
      omega

/-- From some time on nothing is sound any more. -/
theorem not_sound_of_late {later : Instant} (h : w.momentOf 0x10000000000000000 ≤ later) :
    ¬ w.Sound bitrate later := by
  have hms := millis_mono w h
  rw [millis_momentOf] at hms
  rw [sound_iff]
  omega

/-- 2 to the power of 32 milliseconds, some 49 days. -/
theorem sound_of_young (h : w.millis now ≤ 0x100000000) : w.Sound bitrate now := by
  have hproduct : bitrate.toNat * w.millis now ≤ 0xFFFFFFFF * 0x100000000 :=
    Nat.mul_le_mul (Nat.le_of_lt_succ bitrate.toNat_lt) h
  exact sound_iff.mpr ⟨by omega, by omega⟩

/-- At the bitrates of the classic format, all of 64 bits of nanoseconds, some 584 years. -/
theorem sound_of_slow (hrate : bitrate.toNat ≤ 1000000) (h : w.age now < 0x10000000000000000) :
    w.Sound bitrate now := by
  have hms : w.millis now ≤ 18446744073709 := by
    unfold LoadWindow.millis
    omega
  have hproduct : bitrate.toNat * w.millis now ≤ 1000000 * 18446744073709 :=
    Nat.mul_le_mul hrate hms
  exact sound_iff.mpr ⟨by omega, by omega⟩

end Overflow

/-- A load is a percentage, unless bitrate times milliseconds is too large for a word: then there is
none, and whoever asks for it is stopped. It fits for 49 days at any bitrate, but not for ever. -/
theorem load_sound_iff (w : LoadWindow) (bitrate : UInt32) (now : Instant) :
    (∀ load, w.load bitrate now = .ok load → load.toNat ≤ 100) ∧
    (∀ fault, w.load bitrate now = .error fault ↔ fault = .overflow ∧
      0x10000000000000000 ≤ bitrate.toNat * (w.millis now % 0x10000000000000000)) ∧
    (w.Sound bitrate now ↔
      w.millis now < 0x10000000000000000 ∧
        bitrate.toNat * w.millis now < 0x10000000000000000) ∧
    (w.WrapsToZero bitrate now ↔
      bitrate.toNat ≠ 0 ∧ ¬ 0x10000000000000000 ∣ w.millis now ∧
        0x10000000000000000 ∣ bitrate.toNat * w.millis now) ∧
    (w.millis now ≤ 0x100000000 → w.Sound bitrate now) ∧
    (bitrate.toNat ≤ 1000000 → w.age now < 0x10000000000000000 → w.Sound bitrate now) ∧
    (∃ late, ∀ later, late ≤ later → ¬ w.Sound bitrate later) ∧
    ((∃ moment, w.load bitrate moment = .error .overflow) ↔ 2 ≤ bitrate.toNat) ∧
    ((∃ moment, w.WrapsToZero bitrate moment) ↔
      bitrate.toNat ≠ 0 ∧ bitrate.toNat % 2 = 0) ∧
    ∀ (s : Session) (k : Kernel),
      s.health.window = w → s.bitrate = bitrate → k.clock = now →
      (Session.busLoad.run s).run k =
        ((w.load bitrate now, s.loaded now (w.load bitrate now)), k) := by
  refine ⟨fun load h => le_of_load h, fun fault => overflow_iff, sound_iff, wrapsToZero_iff,
    sound_of_young, sound_of_slow, ⟨_, fun later h => not_sound_of_late h⟩, exists_overflow_iff,
    exists_wrapsToZero_iff, ?_⟩
  rintro s k rfl rfl rfl
  exact Session.busLoad_effect s k

/-- After 99 days at 2 to the power of 31 bit/s the divisor doesn't fit, and what is left of it in
a word is zero. -/
theorem load_overflows :
    (¬ ∀ (w : LoadWindow) (bitrate : UInt32) (now : Instant),
      (∃ divisor, w.capacity bitrate now = .ok divisor ∧
        divisor.toNat = bitrate.toNat * w.millis now) ∧
      ∃ load, w.load bitrate now = .ok load ∧ load.toNat ≤ 100) ∧
    (LoadWindow.startingAt 0).WrapsToZero 0x80000000 8589934592000000 ∧
    let s := Session.create "can0" { Settings.standard with bitrate := 0x80000000 } .table 0
    let k : Kernel := { clock := 8589934592000000 }
    ((Session.busLoad.run s).run k).1 = (.error .overflow, s) := by
  have hover : (LoadWindow.startingAt 0).load 0x80000000 8589934592000000 = .error .overflow := by
    decide
  refine ⟨fun h => ?_, ⟨by decide, by decide, by decide⟩, by decide⟩
  obtain ⟨-, load, hload, -⟩ := h (.startingAt 0) 0x80000000 8589934592000000
  rw [hover] at hload
  cases hload

end CanBus.LoadWindow
