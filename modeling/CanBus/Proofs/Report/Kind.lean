import CanBus.Proofs.Identifier
import CanBus.Proofs.Report.Detail

/-!
The kind of a report, from the bits of its word and of its detail bytes. `bitsKind` reads each bit
where it stands and knows neither classes nor details. Main statement: `kind_eq_bitsKind`, by which
the kind of a report says the same except for one thing: where nothing is known of a violation but
its place, the place is passed over.
-/

namespace CanBus

/-! ## Bits -/

namespace ErrorClass

/-- The number of the bit of a class. -/
def index : ErrorClass → Nat
  | txTimeout => 0
  | lostArbitration => 1
  | controller => 2
  | protocol => 3
  | transceiver => 4
  | noAck => 5
  | busOff => 6
  | busError => 7
  | restarted => 8

theorem toNat_bit (c : ErrorClass) : c.bit.toNat = 2 ^ c.index := by cases c <;> rfl

theorem isIn_eq (c : ErrorClass) (bits : UInt32) : c.isIn bits = bits.toNat.testBit c.index :=
  IdWord.and_flag_ne_zero bits c.bit c.toNat_bit

theorem isIn_fullMask (c : ErrorClass) (bits : UInt32) :
    c.isIn (bits &&& fullMask) = c.isIn bits := by
  have hc : fullMask &&& c.bit = c.bit := by cases c <;> rfl
  rw [isIn, isIn, UInt32.and_assoc, hc]

end ErrorClass

theorem ControllerState.overflow_eq (status : UInt8) :
    (rxOverflow.isIn status || txOverflow.isIn status) =
      (status.toNat.testBit 0 || status.toNat.testBit 1) :=
  forall_byte (p := fun a => (rxOverflow.isIn a || txOverflow.isIn a) =
    (a.toNat.testBit 0 || a.toNat.testBit 1)) (by decide +kernel) status

namespace ViolationKind

theorem bit_eq (kinds : UInt8) :
    (bit.isIn kinds || dominant.isIn kinds || recessive.isIn kinds) =
      (kinds.toNat.testBit 0 || kinds.toNat.testBit 3 || kinds.toNat.testBit 4) :=
  forall_byte (p := fun a => (bit.isIn a || dominant.isIn a || recessive.isIn a) =
    (a.toNat.testBit 0 || a.toNat.testBit 3 || a.toNat.testBit 4)) (by decide +kernel) kinds

theorem stuff_eq (kinds : UInt8) : stuff.isIn kinds = kinds.toNat.testBit 2 :=
  forall_byte (p := fun a => stuff.isIn a = a.toNat.testBit 2) (by decide +kernel) kinds

theorem form_eq (kinds : UInt8) : form.isIn kinds = kinds.toNat.testBit 1 :=
  forall_byte (p := fun a => form.isIn a = a.toNat.testBit 1) (by decide +kernel) kinds

end ViolationKind

theorem Location.ofCode?_eq_some {c : UInt8} {l : Location} :
    ofCode? c = some l ↔ c = l.code := by
  constructor
  · exact fun h => (code_of_ofCode? h).symm
  · rintro rfl
    exact ofCode?_code l

/-! ## The kind by bits -/

/-- The kind of a violation, by the bits of its kinds and then by its place: 0x08 is the CRC and
0x18 the delimiter after it. -/
def violationBitsKind (kinds place : UInt8) : ErrorKind :=
  if kinds.toNat.testBit 0 || kinds.toNat.testBit 3 || kinds.toNat.testBit 4 then .bit
  else if kinds.toNat.testBit 2 then .stuff
  else if kinds.toNat.testBit 1 then .form
  else if place = 0x08 ∨ place = 0x18 then .crc
  else .other

/-- The kind that a word and its detail bytes stand for. Bit 2 of the word is the controller's, bit
5 a missing acknowledgement and bit 3 a violation. -/
def bitsKind (word : UInt32) (detail : Payload) : ErrorKind :=
  if word.toNat.testBit 2 &&
      ((detail.byte 1).toNat.testBit 0 || (detail.byte 1).toNat.testBit 1) then .overrun
  else if word.toNat.testBit 5 then .acknowledge
  else if word.toNat.testBit 3 then violationBitsKind (detail.byte 2) (detail.byte 3)
  else .other

/-! ## Reports -/

namespace Report

theorem violationKind_eq (v : Violation) : violationKind v = violationBitsKind v.kinds v.place := by
  rw [violationKind, violationBitsKind, ViolationKind.bit_eq, ViolationKind.stuff_eq,
    ViolationKind.form_eq]
  simp only [Violation.location?, Location.ofCode?_eq_some, Bool.or_eq_true, decide_eq_true_eq]
  rfl

/-- A violation of no kind is told by its place only. -/
theorem violationBitsKind_zero (place : UInt8) :
    violationBitsKind 0 place = if place = 0x08 ∨ place = 0x18 then .crc else .other := rfl

theorem has_ofWord (word : UInt32) (detail : Payload) (c : ErrorClass) :
    (ofWord word detail).has c = word.toNat.testBit c.index :=
  (ErrorClass.isIn_fullMask c word).trans (ErrorClass.isIn_eq c word)

/-- Overflow bits of a class that is absent don't count, and a status of 0 has none. -/
theorem overflow_eq (r : Report) :
    (match r.controllerStatus? with
      | some status =>
        ControllerState.rxOverflow.isIn status || ControllerState.txOverflow.isIn status
      | none => false) =
      (r.has .controller &&
        ((r.detail.byte 1).toNat.testBit 0 || (r.detail.byte 1).toNat.testBit 1)) := by
  rw [← ControllerState.overflow_eq, controllerStatus?, detail?]
  cases r.has .controller with
  | false => rfl
  | true =>
    by_cases h : r.detail.byte 1 = 0
    · rw [h]
      rfl
    · rw [Bool.true_and, if_pos (bne_iff_ne.mpr h), Bool.true_and]

theorem violation?_eq (r : Report) :
    r.violation? = if r.has .protocol = true ∧ r.detail.byte 2 ≠ 0
      then some ⟨r.detail.byte 2, r.detail.byte 3⟩ else none := by
  unfold violation? detail?
  cases r.has .protocol <;> by_cases h : r.detail.byte 2 = 0 <;> simp [h]

theorem violation_kind_eq (r : Report) :
    (match r.violation? with
      | some v => violationKind v
      | none => .other) =
      if r.has .protocol = true ∧ r.detail.byte 2 ≠ 0
      then violationBitsKind (r.detail.byte 2) (r.detail.byte 3) else .other := by
  rw [violation?_eq]
  by_cases h : r.has .protocol = true ∧ r.detail.byte 2 ≠ 0
  · rw [if_pos h, if_pos h]
    exact violationKind_eq _
  · rw [if_neg h, if_neg h]

/-- The three steps by which the kind is found, without the details in between. -/
theorem kind_eq (r : Report) :
    r.kind =
      if r.has .controller &&
          ((r.detail.byte 1).toNat.testBit 0 || (r.detail.byte 1).toNat.testBit 1) then .overrun
      else if r.has .noAck then .acknowledge
      else if r.has .protocol = true ∧ r.detail.byte 2 ≠ 0
      then violationBitsKind (r.detail.byte 2) (r.detail.byte 3) else .other := by
  rw [← overflow_eq, ← violation_kind_eq]
  rfl

/-- The kind of a report is that of its bits, except that a CRC error of which the place alone was
specified has no kind of its own. -/
theorem kind_eq_bitsKind (word : UInt32) (detail : Payload) :
    (ofWord word detail).kind =
      if bitsKind word detail = .crc ∧ detail.byte 2 = 0 then .other
      else bitsKind word detail := by
  have hcontroller : (ofWord word detail).has .controller = word.toNat.testBit 2 := has_ofWord _ _ _
  have hnoAck : (ofWord word detail).has .noAck = word.toNat.testBit 5 := has_ofWord _ _ _
  have hprotocol : (ofWord word detail).has .protocol = word.toNat.testBit 3 := has_ofWord _ _ _
  have hdetail : (ofWord word detail).detail = detail := rfl
  rw [kind_eq, hcontroller, hnoAck, hprotocol, hdetail, bitsKind]
  by_cases hover : (word.toNat.testBit 2 &&
      ((detail.byte 1).toNat.testBit 0 || (detail.byte 1).toNat.testBit 1)) = true
  · rw [if_pos hover, if_pos hover]
    rfl
  rw [if_neg hover, if_neg hover]
  by_cases hack : word.toNat.testBit 5 = true
  · rw [if_pos hack, if_pos hack]
    rfl
  rw [if_neg hack, if_neg hack]
  by_cases hviolation : word.toNat.testBit 3 = true
  · by_cases hkinds : detail.byte 2 = 0
    · rw [hkinds, violationBitsKind_zero]
      by_cases hplace : detail.byte 3 = 0x08 ∨ detail.byte 3 = 0x18 <;> simp [hplace]
    · simp [hviolation, hkinds]
  · simp [hviolation]

/-- The CRC as the place of a violation of unspecified kind: the bits say what failed, the kind of
the report doesn't. -/
theorem kind_misses_crc :
    let detail := Payload.ofList [0, 0, 0, 0x08]
    bitsKind 0x20000008 detail = .crc ∧ (ofWord 0x20000008 detail).kind = .other ∧
      (ofWord 0x20000008 (Payload.ofList [0, 0, 0x80, 0x08])).kind = .crc := by
  decide

end Report

end CanBus
