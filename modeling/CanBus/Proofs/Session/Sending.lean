import CanBus.Proofs.Kernel.Transmission
import CanBus.Proofs.Session.Effect
import CanBus.Proofs.WireFrame

/-!
One send of a session, from what is asked for to the bytes on the socket. `sendRefusal?` names the
reasons to send nothing, in the order in which they count; without one the frame is written, and the
count of full buffers follows from how the write ended. Main statement: `trySend_outcome`.
-/

namespace CanBus

open Kernel

theorem SystemError.exhausted_iff (e : SystemError) :
    e.exhausted = true ↔ e = .code 105 ∨ e = .code 75 := by
  rw [exhausted, Bool.or_eq_true, decide_eq_true_eq, decide_eq_true_eq]
  rfl

/-- Only a write can fail for lack of buffers. -/
theorem Failure.exhausted_iff (f : Failure) :
    f.exhausted = true ↔ f = .transmit (.code 105) ∨ f = .transmit (.code 75) := by
  cases f with
  | transmit e => simpa [exhausted] using e.exhausted_iff
  | _ => simp [exhausted]

namespace Session

variable {s : Session} {k : Kernel} {id : UInt32} {extended : Bool} {len : Nat}
    {payload : List UInt8}

/-! ## Refusals -/

/-- Why a frame is not sent, before anything is written. -/
def sendRefusal? (s : Session) (id : UInt32) (extended : Bool) (len : Nat) (payload : List UInt8) :
    Option Failure :=
  if 8 < len then some (.invalidLength len)
  else if s.isBusOff then some .busOff
  else if payload.length < len then some (.invalidLength len)
  else if (if extended then 0x20000000 else 0x800) ≤ id.toNat then some (.invalidId id)
  else if s.isOpen then none
  else some .notOpen

theorem sendRefusal?_eq_none :
    s.sendRefusal? id extended len payload = none ↔
      len ≤ 8 ∧ s.isBusOff = false ∧ len ≤ payload.length ∧
        id.toNat < (if extended then 0x20000000 else 0x800) ∧ s.isOpen = true := by
  unfold sendRefusal?
  grind

theorem exhausted_of_sendRefusal? {f : Failure}
    (h : s.sendRefusal? id extended len payload = some f) : f.exhausted = false := by
  unfold sendRefusal? at h
  grind [Failure.exhausted]

/-- A refusal costs nothing. -/
theorem trySend_refused {f : Failure} (h : s.sendRefusal? id extended len payload = some f) :
    ((trySend id extended len payload).run s).run k = ((.error f, s), k) := by
  unfold sendRefusal? at h
  unfold trySend
  rw [Stateful.run_bind, Stateful.run_get]
  by_cases hlen : 8 < len
  · rw [if_pos hlen] at h ⊢
    cases h
    rfl
  rw [if_neg hlen] at h ⊢
  by_cases hoff : s.isBusOff = true
  · rw [if_pos hoff] at h ⊢
    cases h
    rfl
  rw [if_neg hoff] at h ⊢
  by_cases hshort : payload.length < len
  · rw [if_pos hshort] at h
    cases h
    rw [WireFrame.encode_of_misfit (.inr hshort)]
    rfl
  rw [if_neg hshort] at h
  have hlen : len ≤ 8 := Nat.le_of_not_lt hlen
  have hshort : len ≤ payload.length := Nat.le_of_not_lt hshort
  by_cases hid : (if extended then 0x20000000 else 0x800) ≤ id.toNat
  · rw [if_pos hid] at h
    cases h
    rw [WireFrame.encode_of_wide hlen hshort (Nat.not_lt.mpr hid)]
    rfl
  rw [if_neg hid] at h
  obtain ⟨w, hw, -⟩ := WireFrame.encode_of_fits hlen hshort (Nat.lt_of_not_le hid)
  rw [hw]
  cases hc : s.channel with
  | none =>
    simp only [isOpen, hc] at h
    cases h
    rfl
  | some c =>
    simp only [isOpen, hc] at h
    cases h

/-! ## Writing -/

theorem mapError_eq_ok {r : Except SystemError Unit} :
    r.mapError Failure.transmit = .ok () ↔ r = .ok () := by
  cases r <;> simp [Except.mapError]

/-- An open session on a bus that is on makes one write of a frame that can be encoded. -/
theorem trySend_transmits {c : Socket} (hc : s.channel = some c) (hb : s.isBusOff = false)
    {w : WireFrame} (hlen : len ≤ 8) (hw : WireFrame.encode id extended len payload = .ok w)
    (k : Kernel) :
    let t := transmission (k.script .send) w.bytes
    let r := t.result.mapError Failure.transmit
    ∃ k', ((trySend id extended len payload).run s).run k =
        ((r, s.withHealth (s.health.attempted r)), k') ∧
      k'.calls = k.calls ++ t.offers.map .send ∧ SameSockets k k' := by
  intro t r
  have hcalls := calls_sendAll k w.bytes
  have hsockets : SameSockets k ((sendAll w.bytes).run.run k).2 := keeps_sendAll w.bytes k
  have hresult : ((sendAll w.bytes).run.run k).1 = t.result := by rw [sendAll_run]
  unfold trySend
  rw [Stateful.run_bind, Stateful.run_get, if_neg (Nat.not_lt.mpr hlen), hb, hw, hc]
  simp only [Bool.false_eq_true, if_false, Socket.write, Stateful.run_bind, Stateful.run_lift]
  rcases hrun : (sendAll w.bytes).run.run k with ⟨r', k₁⟩
  rw [hrun] at hcalls hsockets hresult
  have hr : r = r'.mapError Failure.transmit :=
    congrArg (Except.mapError Failure.transmit) hresult.symm
  rw [hr]
  have hlogged (level : LogLevel) (text : String) :
      (k₁.noted (.log k₁.thread level text)).calls = k.calls ++ t.offers.map .send ∧
        SameSockets k (k₁.noted (.log k₁.thread level text)) :=
    ⟨(calls_logged _ _ _ _).trans hcalls, Chained.trans hsockets (sameSockets_noted k₁ _)⟩
  cases r' with
  | ok u => exact ⟨_, rfl, hlogged _ _⟩
  | error e =>
    cases he : e.exhausted with
    | true =>
      have hattempted : s.health.attempted (.error (.transmit e)) = s.health.overflowed := if_pos he
      simp only [he, Except.mapError, hattempted]
      exact ⟨_, rfl, hlogged _ _⟩
    | false =>
      have hattempted : s.health.attempted (.error (.transmit e)) = s.health :=
        if_neg (Bool.eq_false_iff.mp he)
      simp only [he, Except.mapError, hattempted]
      exact ⟨_, rfl, hlogged _ _⟩

/-- Full buffers are found only while the count is within the threshold, so it doesn't wrap below
the largest of all thresholds. -/
theorem overflowed_txErrors (hb : s.isBusOff = false) (ht : s.health.threshold ≠ 0xFFFFFFFF) :
    s.health.overflowed.txErrors.toNat = s.health.txErrors.toNat + 1 := by
  have hle : ¬ s.health.threshold < s.health.txErrors := by
    simp only [isBusOff, Health.isBusOff, Bool.or_eq_false_iff, decide_eq_false_iff_not] at hb
    exact hb.2
  rw [UInt32.lt_iff_toNat_lt] at hle
  have hlt : s.health.threshold.toNat ≠ 0xFFFFFFFF := fun h => ht (UInt32.toNat_inj.mp h)
  have hmax := s.health.threshold.toNat_lt
  have hwrap : s.health.txErrors.toNat + 1 < 4294967296 := by omega
  show (s.health.txErrors + 1).toNat = _
  rw [UInt32.toNat_add]
  exact Nat.mod_eq_of_lt hwrap

/-- A send is refused without a trace, or its 16 bytes are offered until all are taken or a send
fails. Only the count of full buffers ever changes. -/
theorem trySend_outcome (s : Session) (k : Kernel) (id : UInt32) (extended : Bool) (len : Nat)
    (payload : List UInt8) :
    let o := ((trySend id extended len payload).run s).run k
    (o.2.calls ≠ k.calls ↔
      len ≤ 8 ∧ s.isBusOff = false ∧ len ≤ payload.length ∧
        id.toNat < (if extended then 0x20000000 else 0x800) ∧ s.isOpen = true) ∧
    (∀ f, s.sendRefusal? id extended len payload = some f → o = ((.error f, s), k)) ∧
    (s.sendRefusal? id extended len payload = none →
      let bs := WireFrame.layout id extended len payload
      ∃ offers, o.2.calls = k.calls ++ offers.map .send ∧ SameSockets k o.2 ∧
        let sends := attempts (k.script .send) offers
        bs.length = 16 ∧ sends ≠ [] ∧
        (∀ before a after, sends = before ++ a :: after →
          before.flatMap Attempt.takes ++ a.offer = bs ∧ (after ≠ [] ↔ a.IsResumed)) ∧
        (o.1.1 = .ok () ↔ sends.flatMap Attempt.takes = bs) ∧
        ∀ before a, sends = before ++ [a] → o.1.1 = a.verdict.mapError .transmit) ∧
    (o.1.1 = .ok () → o.1.2 = { s with health := { s.health with txErrors := 0 } }) ∧
    ∀ f, o.1.1 = .error f →
      (f.exhausted = true ↔ f = .transmit (.code 105) ∨ f = .transmit (.code 75)) ∧
      (f.exhausted = false → o.1.2 = s) ∧
      (f.exhausted = true →
        o.1.2 = { s with health := { s.health with txErrors := s.health.txErrors + 1 } } ∧
        (s.health.threshold ≠ 0xFFFFFFFF →
          o.1.2.health.txErrors.toNat = s.health.txErrors.toNat + 1)) := by
  intro o
  rw [← sendRefusal?_eq_none]
  cases hrefusal : s.sendRefusal? id extended len payload with
  | some f =>
    have ho : o = ((.error f, s), k) := trySend_refused hrefusal
    have hf := exhausted_of_sendRefusal? hrefusal
    rw [ho]
    refine ⟨?_, ?_, ?_, ?_, ?_⟩
    · exact iff_of_false (fun h => h rfl) (Option.some_ne_none f)
    · rintro _ ⟨⟩
      rfl
    · rintro ⟨⟩
    · rintro ⟨⟩
    · rintro _ ⟨⟩
      refine ⟨f.exhausted_iff, fun _ => rfl, fun h => ?_⟩
      rw [hf] at h
      cases h
  | none =>
    obtain ⟨hlen, hb, hshort, hid, hopen⟩ := sendRefusal?_eq_none.mp hrefusal
    obtain ⟨c, hc⟩ := Option.isSome_iff_exists.mp hopen
    obtain ⟨w, hw, e⟩ := WireFrame.encode_of_fits hlen hshort hid
    obtain ⟨k', hrun, hcalls, hsockets⟩ := trySend_transmits hc hb hlen hw k
    have hne : w.bytes ≠ [] := List.ne_nil_of_length_pos (w.length_bytes ▸ Nat.succ_pos _)
    have hwritten := transmission_written (k.script .send) hne
    generalize transmission (k.script .send) w.bytes = t at hrun hcalls hwritten
    have ho : o = _ := hrun
    rw [ho, ← e.bytes_eq_layout]
    dsimp only
    refine ⟨?_, ?_, fun _ => ⟨t.offers, hcalls, hsockets, w.length_bytes, hwritten.ne_nil,
      fun before a after has => hwritten.offers has, ?_, ?_⟩, ?_, ?_⟩
    · refine iff_of_true (fun h => ?_) rfl
      have hoffers : t.offers = [] := by
        rw [hcalls] at h
        simpa using h
      rw [hoffers] at hwritten
      exact hwritten.ne_nil rfl
    · rintro _ ⟨⟩
    · rw [← hwritten.all_iff hne]
      exact mapError_eq_ok
    · intro before a has
      rw [hwritten.result has]
    · intro hr
      rw [hr]
      rfl
    · intro f hr
      rw [hr]
      refine ⟨f.exhausted_iff, fun hf => ?_, fun hf => ?_⟩
      · simp only [Health.attempted, hf]
        rfl
      · simp only [Health.attempted, hf]
        exact ⟨rfl, overflowed_txErrors hb⟩

/-- An interruption, five of the bytes, and full buffers for the rest. -/
theorem trySend_outcome_with_full_buffers :
    let s : Session :=
      { Session.create "can0" Settings.standard .table 0 with channel := some ⟨0, 3⟩ }
    let k : Kernel := { script := override (fun _ => []) .send [Errno.interrupted, -5, 105] }
    let o := ((trySend 0x123 false 1 [0x0A]).run s).run k
    let bs : List UInt8 := [0x23, 0x01, 0, 0, 1, 0, 0, 0, 0x0A, 0, 0, 0, 0, 0, 0, 0]
    s.sendRefusal? 0x123 false 1 [0x0A] = none ∧ o.1.1 = .error (.transmit (.code 105)) ∧
      o.2.calls = [.send bs, .send bs, .send (bs.drop 5)] ∧ o.1.2.health.txErrors = 1 := by
  intro s k o bs
  obtain ⟨-, -, hwritten, -, hfailed⟩ := trySend_outcome s k 0x123 false 1 [0x0A]
  have hrefusal : s.sendRefusal? 0x123 false 1 [0x0A] = none := by decide
  have hcalls : o.2.calls = [.send bs, .send bs, .send (bs.drop 5)] := by decide
  obtain ⟨offers, ho, -, -, -, -, -, hlast⟩ := hwritten hrefusal
  have hoffers : offers = [bs, bs, bs.drop 5] := by
    have hmap : offers.map Call.send = [bs, bs, bs.drop 5].map Call.send := ho.symm.trans hcalls
    exact (List.map_inj_right fun _ _ h => Call.send.inj h).mp hmap
  have herror : o.1.1 = .error (.transmit (.code 105)) := by
    rw [hoffers] at hlast
    exact hlast [⟨bs, 4⟩, ⟨bs, -5⟩] ⟨bs.drop 5, 105⟩ rfl
  obtain ⟨hexhausted, -, hcounted⟩ := hfailed _ herror
  have hstate := (hcounted (hexhausted.mpr (.inl rfl))).1
  refine ⟨hrefusal, herror, hcalls, ?_⟩
  rw [hstate]
  rfl

end Session

end CanBus
