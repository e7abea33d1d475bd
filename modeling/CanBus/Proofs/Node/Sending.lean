import CanBus.Proofs.Frame.Canonical
import CanBus.Proofs.Node.Effect
import CanBus.Proofs.Session.Sending

/-!
What a node sends for a frame. Only standard frames get as far as the session, which can't find
fault with them any more: they are encoded in any case, with zeros behind the data
(`encode_standard`). So the bytes behind the data of a frame, which may be left over from a
frame that was received, are never sent, nor do they matter to the send otherwise. Main
statement: `send_writes`.
-/

namespace CanBus

open Kernel

/-- The 16 bytes for a frame with a standard identifier. -/
def Frame.standardBytes (f : Frame) : List UInt8 :=
  LittleEndian.word32 f.id.raw ++ [UInt8.ofNat f.len, 0, 0, 0] ++ f.data ++
    List.replicate (8 - f.len) 0

section Standard

variable {f : Frame}

theorem WireFrame.encode_standard (hx : f.id.isExtended = false) :
    encode f.id.raw false f.len f.payload.bytes = .ok (ofFrame f.zeroFilled) := by
  have hw := encode_frame f
  rwa [hx] at hw

/-- The bytes behind the data are not looked at. -/
theorem WireFrame.encode_zeroFilled (hx : f.id.isExtended = false) :
    encode f.id.raw false f.len f.zeroFilled.payload.bytes =
      encode f.id.raw false f.len f.payload.bytes := by
  have hw := encode_standard (f := f.zeroFilled) hx
  rw [Frame.zeroFilled_of_build f.build_parts] at hw
  exact hw.trans (encode_standard hx).symm

theorem WireFrame.bytes_standard (hx : f.id.isExtended = false) :
    (ofFrame f.zeroFilled).bytes = f.standardBytes := by
  rw [(encodes_of_encode (encode_standard hx)).bytes_eq_layout, layout, Frame.standardBytes,
    LittleEndian.word32_eq]
  rfl

theorem Identifier.raw_lt_of_standard {i : Identifier} (hx : i.isExtended = false) :
    i.raw.toNat < 0x800 := by
  have hlt := i.raw_lt
  rwa [hx] at hlt

theorem Frame.length_standardBytes (f : Frame) : f.standardBytes.length = 16 := by
  have hlen := f.len.isLt
  simp only [standardBytes, List.length_append, LittleEndian.length_word32, List.length_cons,
    List.length_nil, f.length_data, List.length_replicate]
  omega

end Standard

namespace Session

/-- All that matters of a payload is what is encoded of it. -/
theorem trySend_of_encode {id : UInt32} {extended : Bool} {len : Nat} {p q : List UInt8}
    (h : WireFrame.encode id extended len p = WireFrame.encode id extended len q) :
    trySend id extended len p = trySend id extended len q := by
  unfold trySend
  rw [h]

section Standard

variable {s : Session} {f : Frame} (hb : s.isBusOff = false) (hx : f.id.isExtended = false)
include hb hx

/-- The session has nothing against a standard frame but that it may be closed. -/
theorem sendRefusal?_standard :
    s.sendRefusal? f.id.raw false f.len f.payload.bytes =
      if s.isOpen then none else some .notOpen := by
  have hlen := f.len.isLt
  have hid : f.id.raw.toNat < 0x800 := Identifier.raw_lt_of_standard hx
  rw [sendRefusal?, if_neg (by omega), hb, if_neg Bool.false_ne_true, f.payload.length_eq,
    if_neg (by omega), if_neg Bool.false_ne_true, if_neg (by omega)]

theorem trySend_standard_closed (ho : s.isOpen = false) (k : Kernel) :
    ((trySend f.id.raw false f.len f.payload.bytes).run s).run k = ((.error .notOpen, s), k) := by
  have hrefusal := sendRefusal?_standard hb hx
  rw [ho, if_neg Bool.false_ne_true] at hrefusal
  exact trySend_refused hrefusal

theorem trySend_standard_open (ho : s.isOpen = true) (k : Kernel) :
    let o := ((trySend f.id.raw false f.len f.payload.bytes).run s).run k
    let t := transmission (k.script .send) f.standardBytes
    o.1.1 = t.result.mapError .transmit ∧ o.2.calls = k.calls ++ t.offers.map .send := by
  obtain ⟨c, hc⟩ := Option.isSome_iff_exists.mp ho
  have hlen : (f.len : Nat) ≤ 8 := Nat.le_of_lt_succ f.len.isLt
  obtain ⟨k', hrun, hcalls, -⟩ := trySend_transmits hc hb hlen (WireFrame.encode_standard hx) k
  rw [WireFrame.bytes_standard hx] at hrun hcalls
  intro o t
  have ho : o = _ := hrun
  rw [ho]
  exact ⟨rfl, hcalls⟩

/-- All that can go wrong with a standard frame. -/
theorem trySend_standard_failure {k : Kernel} {e : Failure}
    (he : (((trySend f.id.raw false f.len f.payload.bytes).run s).run k).1.1 = .error e) :
    (e = .notOpen ∧ s.isOpen = false) ∨ ∃ cause, e = .transmit cause := by
  cases ho : s.isOpen with
  | false =>
    rw [trySend_standard_closed hb hx ho k] at he
    cases he
    exact .inl ⟨rfl, rfl⟩
  | true =>
    rw [(trySend_standard_open hb hx ho k).1] at he
    cases hr : (transmission (k.script .send) f.standardBytes).result with
    | ok u =>
      rw [hr] at he
      cases he
    | error cause =>
      rw [hr] at he
      cases he
      exact .inr ⟨cause, rfl⟩

end Standard

end Session

namespace Node

/-! ## The course of a send -/

section Course

variable {n : Node} {f g : Frame}

theorem send_busOff (hb : n.session.isBusOff = true) (k : Kernel) :
    ((send f).run n).run k = ((.error .busOff, n), k) := by
  unfold send
  rw [Stateful.run_bind, Stateful.run_get, if_pos hb]
  rfl

theorem send_extended (hb : n.session.isBusOff = false) (hx : f.id.isExtended = true) (k : Kernel) :
    ((send f).run n).run k = ((.error (.invalidId f.id.raw), n), k) := by
  unfold send
  rw [Stateful.run_bind, Stateful.run_get, hb, if_neg Bool.false_ne_true, if_pos hx]
  rfl

theorem send_standard (hb : n.session.isBusOff = false) (hx : f.id.isExtended = false)
    (k : Kernel) :
    let t := ((Session.trySend f.id.raw false f.len f.payload.bytes).run n.session).run k
    ((send f).run n).run k = ((t.1.1, { n with session := t.1.2 }), t.2) := by
  unfold send
  rw [Stateful.run_bind, Stateful.run_get, hb, hx, if_neg Bool.false_ne_true,
    if_neg Bool.false_ne_true, onSession_run]

/-- A send doesn't tell a frame from the one with zeros behind the data. -/
theorem send_zeroFilled (f : Frame) : send f.zeroFilled = send f := by
  unfold send
  rw [show f.zeroFilled.id = f.id from rfl, show f.zeroFilled.len = f.len from rfl]
  cases hx : f.id.isExtended with
  | true => simp only [if_true]
  | false =>
    rw [Session.trySend_of_encode (WireFrame.encode_zeroFilled hx)]

theorem send_congr (hid : g.id = f.id) (hdata : g.data = f.data) : send g = send f := by
  have hzeros : g.zeroFilled = f.zeroFilled := (Frame.zeroFilled_eq_iff g f).mpr ⟨hid, hdata⟩
  rw [← send_zeroFilled g, hzeros, send_zeroFilled f]

/-- Nothing is called unless the frame gets as far as an open socket. -/
theorem send_silent
    (h : ¬ (n.session.isBusOff = false ∧ f.id.isExtended = false ∧ n.session.isOpen = true))
    (k : Kernel) : (((send f).run n).run k).2 = k := by
  cases hb : n.session.isBusOff with
  | true => rw [send_busOff hb]
  | false =>
    cases hx : f.id.isExtended with
    | true => rw [send_extended hb hx]
    | false =>
      have ho : n.session.isOpen = false := Bool.eq_false_iff.mpr fun ho => h ⟨hb, hx, ho⟩
      rw [send_standard hb hx, Session.trySend_standard_closed hb hx ho]

/-- An open socket is offered the bytes for the frame, and then what is left of them. -/
theorem send_offered (hb : n.session.isBusOff = false) (hx : f.id.isExtended = false)
    (ho : n.session.isOpen = true) (k : Kernel) :
    ∃ offers, (((send f).run n).run k).2.calls = k.calls ++ offers.map .send ∧
      offers.head? = some f.standardBytes ∧
      ∀ before a after, attempts (k.script .send) offers = before ++ a :: after →
        before.flatMap Attempt.takes ++ a.offer = f.standardBytes := by
  have hne : f.standardBytes ≠ [] :=
    List.ne_nil_of_length_pos (f.length_standardBytes ▸ Nat.succ_pos _)
  have hcalls := (Session.trySend_standard_open hb hx ho k).2
  have hwritten := transmission_written (k.script .send) hne
  generalize transmission (k.script .send) f.standardBytes = t at hcalls hwritten
  refine ⟨t.offers, by rw [send_standard hb hx]; exact hcalls, ?_, fun before a after has =>
    (hwritten.offers has).1⟩
  cases hof : t.offers with
  | nil =>
    rw [hof] at hwritten
    exact absurd rfl hwritten.ne_nil
  | cons bs rest =>
    rw [hof] at hwritten
    -- nothing was taken before the first send
    have has : attempts (k.script .send) (bs :: rest) =
        [] ++ ⟨bs, (k.script .send).headD 0⟩ :: attempts (k.script .send).tail rest := rfl
    exact congrArg some (hwritten.offers has).1

end Course

/-- A node sends standard frames only. It offers their 16 bytes with zeros behind the data, and all
that can go wrong is that there is no socket or that the write fails. -/
theorem send_writes (n : Node) (k : Kernel) (f : Frame) :
    let o := ((send f).run n).run k
    let t := ((Session.trySend f.id.raw false f.len f.payload.bytes).run n.session).run k
    let bs := LittleEndian.word32 f.id.raw ++ [UInt8.ofNat f.len, 0, 0, 0] ++ f.data ++
      List.replicate (8 - f.len) 0
    (n.session.isBusOff = true → o = ((.error .busOff, n), k)) ∧
    (n.session.isBusOff = false → f.id.isExtended = true →
      o = ((.error (.invalidId f.id.raw), n), k)) ∧
    (n.session.isBusOff = false → f.id.isExtended = false →
      o = ((t.1.1, { n with session := t.1.2 }), t.2) ∧
      f.id.raw.toNat ≤ 0x7FF ∧ bs.length = 16 ∧
      ∀ e, t.1.1 = .error e →
        (e = .notOpen ∧ n.session.isOpen = false) ∨ ∃ cause, e = .transmit cause) ∧
    (∃ offers, o.2.calls = k.calls ++ offers.map .send ∧
      offers.head? =
        (if n.session.isBusOff = false ∧ f.id.isExtended = false ∧ n.session.isOpen = true
          then some bs else none) ∧
      ∀ before a after, attempts (k.script .send) offers = before ++ a :: after →
        before.flatMap Attempt.takes ++ a.offer = bs) ∧
    ∀ g : Frame, g.id = f.id → g.data = f.data → send g = send f := by
  intro o t bs
  refine ⟨fun hb => send_busOff hb k, fun hb hx => send_extended hb hx k, fun hb hx => ?_, ?_,
    fun g => send_congr⟩
  · have hid := Identifier.raw_lt_of_standard hx
    exact ⟨send_standard hb hx k, Nat.le_of_lt_succ hid, f.length_standardBytes, fun e =>
      Session.trySend_standard_failure hb hx⟩
  · by_cases h : n.session.isBusOff = false ∧ f.id.isExtended = false ∧ n.session.isOpen = true
    · rw [if_pos h]
      obtain ⟨hb, hx, ho⟩ := h
      exact send_offered hb hx ho k
    · rw [if_neg h]
      refine ⟨[], ?_, rfl, fun before a after has => ?_⟩
      · rw [show o.2 = k from send_silent h k]
        exact (List.append_nil _).symm
      · cases before <;> cases has

/-- A received frame with a stale byte is sent as one without it is. -/
theorem send_writes_of_stale :
    let w : WireFrame := ⟨⟨0x123⟩, 1, Payload.ofList [0x0A, 0xFF]⟩
    let f : Frame := ⟨.standard 0x123, 1, Payload.ofList [0x0A, 0xFF]⟩
    let g : Frame := ⟨.standard 0x123, 1, Payload.ofList [0x0A]⟩
    let n := Node.ofSession
      { Session.create "can0" Settings.standard .table 0 with channel := some ⟨0, 3⟩ }
    let k : Kernel := { script := override (fun _ => []) .send [Errno.interrupted, -5] }
    (w.decode = .data f ∧ f ≠ g) ∧ f.id.raw.toNat ≤ 0x7FF ∧ send g = send f ∧
      (((send f).run n).run k).2.calls.head? =
        some (.send [0x23, 0x01, 0, 0, 1, 0, 0, 0, 0x0A, 0, 0, 0, 0, 0, 0, 0]) := by
  intro w f g n k
  have hnode : n.session.isBusOff = false ∧ f.id.isExtended = false := by decide
  obtain ⟨-, -, hstandard, ⟨offers, hcalls, hfirst, -⟩, hsame⟩ := send_writes n k f
  rw [if_pos ⟨hnode.1, hnode.2, rfl⟩] at hfirst
  refine ⟨by decide, (hstandard hnode.1 hnode.2).2.1, hsame g rfl (by decide), ?_⟩
  rw [hcalls, show k.calls = [] from rfl, List.nil_append, List.head?_map, hfirst]
  decide

end Node

end CanBus
