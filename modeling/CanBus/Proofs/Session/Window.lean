import CanBus.Proofs.Session.BusOff
import CanBus.Proofs.Session.Intake

/-!
What the load window counts. It starts anew when a session is created, when it opens a socket and
when the load is asked for; from there on it counts the whole frames that are read, each once,
whether they hold data or a report, and nothing else touches it (`window_exact`). Whole polls count
among the activities here, next to the actions and the single steps of readers.
-/

namespace CanBus

open Kernel Occurrence

/-! ## Activities -/

/-- What can be done with a session: an action, or a poll in the foreground up to its end. -/
inductive Activity
  | act (a : Action)
  | poll (limit : Option Nat)

/-- The datagrams that have left the queue of a socket. -/
def Kernel.drained (c : Handle) (k k' : Kernel) : List Datagram :=
  (k.inbox c).take ((k.inbox c).length - (k'.inbox c).length)

theorem Consumed.drained {c : Handle} {s s' : Session} {k k' : Kernel} {ds : List Datagram}
    (h : Consumed c s k ds s' k') : Kernel.drained c k k' = ds := by
  rw [Kernel.drained, h.queue, List.length_append, Nat.add_sub_cancel, List.take_left]

namespace World

def perform (w : World) : Activity → World
  | .act a => w.step a
  | .poll limit => w.after (Session.poll limit)

def performAll (w : World) (xs : List Activity) : World := xs.foldl perform w

/-- What is seen of an activity, in order. -/
def seen (w : World) : Activity → List Occurrence
  | .act a => (w.occurrence? a).toList
  | .poll limit =>
    w.session.channel.elim [] fun c =>
      (Kernel.drained c.handle w.kernel (w.perform (.poll limit)).kernel).filterMap ofDatagram

def chronicle (w : World) : List Activity → List Occurrence
  | [] => []
  | x :: xs => w.seen x ++ (w.perform x).chronicle xs

end World

theorem Health.after_note (b : Health) (ds : List Datagram) :
    b.after ds = (ds.filterMap ofDatagram).foldl note b := by
  induction ds generalizing b with
  | nil => rfl
  | cons d ds ih =>
    rw [after, List.filterMap_cons, List.filterMap_cons, ofDatagram]
    cases hf : Datagram.frame? d with
    | none => exact ih b
    | some w => exact ih (b.ingested w)

namespace World

theorem perform_health (w : World) (x : Activity) :
    (w.perform x).session.health = (w.seen x).foldl Health.note w.session.health := by
  cases x with
  | act a =>
    rw [perform, seen, step_health]
    cases w.occurrence? a <;> rfl
  | poll limit =>
    cases hc : w.session.channel with
    | none => simp only [perform, seen, after, Session.poll_closed limit hc, hc]; rfl
    | some c =>
      obtain ⟨ds, a, s', k', hrun, hin⟩ := Session.poll_intake limit hc w.kernel
      simp only [perform, seen, after, hc, hrun, Option.elim_some, hin.drained]
      rw [hin.health, Health.after_note]

theorem performAll_health (w : World) (xs : List Activity) :
    (w.performAll xs).session.health = (w.chronicle xs).foldl Health.note w.session.health := by
  induction xs generalizing w with
  | nil => rfl
  | cons x xs ih =>
    rw [performAll, List.foldl_cons, ← performAll, ih, perform_health, chronicle,
      List.foldl_append]

end World

/-! ## Sums -/

namespace WireFrame

/-- The most bits that the frame can have taken on the wire, with its length clamped. -/
def wireBits (w : WireFrame) : Nat :=
  (if w.word.isExtended then 80 else 55) + 10 * min w.dlc.toNat 8

def payloadBits (w : WireFrame) : Nat := 8 * min w.dlc.toNat 8

def total (bits : WireFrame → Nat) : List WireFrame → Nat
  | [] => 0
  | w :: ws => bits w + total bits ws

theorem payloadBits_le (w : WireFrame) : w.payloadBits ≤ w.wireBits := by
  rw [payloadBits, wireBits]
  split <;> omega

theorem total_payloadBits_le (ws : List WireFrame) :
    total payloadBits ws ≤ total wireBits ws := by
  induction ws with
  | nil => exact Nat.le_refl 0
  | cons w ws ih => exact Nat.add_le_add w.payloadBits_le ih

theorem length_le_total (ws : List WireFrame) : ws.length ≤ total wireBits ws := by
  induction ws with
  | nil => exact Nat.le_refl 0
  | cons w ws ih =>
    have hw : 55 ≤ w.wireBits := by
      rw [wireBits]
      split <;> omega
    rw [List.length_cons, total]
    omega

end WireFrame

/-! ## The window as a count -/

namespace Occurrence

def restartsWindow : Occurrence → Bool
  | .windowRestarted _ => true
  | _ => false

def frame? : Occurrence → Option WireFrame
  | .received w => some w
  | _ => none

/-- The whole frames received since the window was last restarted, latest first. -/
def windowFrames (h : List Occurrence) : List WireFrame := (since restartsWindow h).filterMap frame?

/-- The time of the last restart of the window, which began at `t`. -/
def windowStart (t : Instant) (h : List Occurrence) : Instant :=
  h.foldl (fun t o => match o with | .windowRestarted t' => t' | _ => t) t

end Occurrence

/-- The window as a count of what was seen. The counters wrap. -/
structure Metered (t : Instant) (h : List Occurrence) (w : LoadWindow) : Prop where
  frames : w.frames = .ofNat (windowFrames h).length
  wireBits : w.wireBits = .ofNat (WireFrame.total WireFrame.wireBits (windowFrames h))
  payloadBits : w.payloadBits = .ofNat (WireFrame.total WireFrame.payloadBits (windowFrames h))
  start : w.start = windowStart t h

theorem Health.window_received (b : Health) (w : WireFrame) :
    (b.note (.received w)).window = b.window.record (.ofNat w.wireBits) (.ofNat w.payloadBits) := by
  have hw : Frame.worstCaseBits w.word.isExtended w.len .classic = w.wireBits := by
    rw [Frame.worstCaseBits, WireFrame.wireBits, Nat.mul_comm 10]
    rfl
  have hp : w.len.val * 8 = w.payloadBits := Nat.mul_comm _ _
  rw [note, ingested, hw, hp]
  cases w.decode <;> rfl

/-- What neither is a frame nor restarts the window leaves it alone. -/
theorem Health.window_note {o : Occurrence} (b : Health) (hf : o.frame? = none)
    (hr : o.restartsWindow = false) : (b.note o).window = b.window := by
  cases o with
  | received w => cases hf
  | windowRestarted t => cases hr
  | sent | exhausted | restarted => rfl

namespace Metered

variable {t : Instant} {h : List Occurrence} {b : Health}

theorem received (m : Metered t h b.window) (w : WireFrame) :
    Metered t (h ++ [.received w]) (b.note (.received w)).window := by
  have hfs : windowFrames (h ++ [.received w]) = w :: windowFrames h := by
    rw [windowFrames, since_snoc]
    rfl
  rw [Health.window_received]
  constructor
  · rw [hfs, List.length_cons, UInt64.ofNat_add, ← m.frames]
    rfl
  · rw [hfs, WireFrame.total, Nat.add_comm, UInt64.ofNat_add, ← m.wireBits]
    rfl
  · rw [hfs, WireFrame.total, Nat.add_comm, UInt64.ofNat_add, ← m.payloadBits]
    rfl
  · rw [windowStart, List.foldl_append]
    exact m.start

theorem restarted (t t' : Instant) (h : List Occurrence) (b : Health) :
    Metered t (h ++ [.windowRestarted t']) (b.note (.windowRestarted t')).window := by
  have hfs : windowFrames (h ++ [.windowRestarted t']) = [] := by
    rw [windowFrames, since_snoc]
    rfl
  constructor
  · rw [hfs]
    rfl
  · rw [hfs]
    rfl
  · rw [hfs]
    rfl
  · rw [windowStart, List.foldl_append]
    rfl

theorem kept (m : Metered t h b.window) {o : Occurrence} (hf : o.frame? = none)
    (hr : o.restartsWindow = false) : Metered t (h ++ [o]) (b.note o).window := by
  have hfs : windowFrames (h ++ [o]) = windowFrames h := by
    rw [windowFrames, since_snoc, hr, if_neg Bool.false_ne_true, List.filterMap_cons, hf]
    rfl
  have hst : windowStart t (h ++ [o]) = windowStart t h := by
    rw [windowStart, List.foldl_append]
    cases o with
    | windowRestarted t' => cases hr
    | _ => rfl
  rw [Health.window_note b hf hr]
  exact ⟨hfs ▸ m.frames, hfs ▸ m.wireBits, hfs ▸ m.payloadBits, hst ▸ m.start⟩

/-- The step of the induction. -/
theorem note (m : Metered t h b.window) (o : Occurrence) :
    Metered t (h ++ [o]) (b.note o).window := by
  cases o with
  | received w => exact m.received w
  | windowRestarted t' => exact restarted t t' h b
  | sent | exhausted | restarted => exact m.kept rfl rfl

theorem foldl_note (m : Metered t h b.window) (os : List Occurrence) :
    Metered t (h ++ os) (os.foldl Health.note b).window := by
  induction os generalizing h b with
  | nil =>
    rw [List.append_nil]
    exact m
  | cons o os ih =>
    rw [List.append_cons]
    exact ih (m.note o)

end Metered

/-! ## What is no business of the window -/

namespace World

/-- Whatever leaves the queue that an action reads from is too short for a frame. -/
def ReadsNoFrame (w : World) (a : Action) : Prop :=
  ∀ c, w.source? a = some c →
    ∀ d, Kernel.taken? c.handle w.kernel (w.step a).kernel = some d →
    d.length < WireFrame.size

/-- Activities that the window doesn't count: an open that is redundant or fails, a read that fails
or is short, a load that can't be computed, and all that has to do with none of these. -/
def Unmetered (w : World) : Activity → Prop
  | .act .tryOpen => w.session.isOpen = true ∨ (w.step .tryOpen).session.isOpen = false
  | .act .openUp => w.session.isOpen = true ∨ (w.step .openUp).session.isOpen = false
  | .act .tryReceive => w.ReadsNoFrame .tryReceive
  | .act .receive => w.ReadsNoFrame .receive
  | .act (.stepReader i) => w.ReadsNoFrame (.stepReader i)
  | .act .busLoad => ∃ fault, w.result Session.busLoad = .error fault
  | .act _ => True
  | .poll limit => ∀ c, w.session.channel = some c →
      ∀ d ∈ Kernel.drained c.handle w.kernel (w.perform (.poll limit)).kernel,
        d.length < WireFrame.size

theorem ofDatagram_short {d : Datagram} (h : d.length < WireFrame.size) : ofDatagram d = none := by
  rw [ofDatagram, Datagram.frame?, if_neg (Nat.not_le_of_lt h)]
  rfl

theorem ReadsNoFrame.seen {w : World} {a : Action} (h : w.ReadsNoFrame a) :
    ((w.source? a).bind fun c =>
      (Kernel.taken? c.handle w.kernel (w.step a).kernel).bind ofDatagram) = none := by
  cases hc : w.source? a with
  | none => rfl
  | some c =>
    cases ht : Kernel.taken? c.handle w.kernel (w.step a).kernel with
    | none => simp [ht]
    | some d => simp [ht, ofDatagram_short (h c hc d ht)]

theorem opening_seen {w w' : World} (h : w.session.isOpen = true ∨ w'.session.isOpen = false) :
    (if !w.session.isOpen && w'.session.isOpen then
      some (Occurrence.windowRestarted w'.kernel.clock) else none) = none := by
  rcases h with h | h <;> simp [h]

theorem Unmetered.seen {w : World} {x : Activity} (h : w.Unmetered x) :
    ∀ o ∈ w.seen x, o.frame? = none ∧ o.restartsWindow = false := by
  cases x with
  | poll limit =>
    have hnil : w.seen (.poll limit) = [] := by
      cases hc : w.session.channel with
      | none => rw [World.seen, hc]; rfl
      | some c =>
        rw [World.seen, hc]
        exact List.filterMap_eq_nil_iff.mpr fun d hd => ofDatagram_short (h c hc d hd)
    simp [hnil]
  | act a =>
    cases a with
    | tryOpen | openUp =>
      rw [World.seen, occurrence?, opening_seen h]
      intro o ho
      cases ho
    | tryReceive | receive | stepReader i =>
      simp [World.seen, occurrence?, ReadsNoFrame.seen h]
    | busLoad =>
      obtain ⟨fault, hfault⟩ := h
      simp [World.seen, occurrence?, hfault, ofLoad]
    | close | drop | startReader | elsewhere k => simp [World.seen, occurrence?]
    | trySetBitrate b | setBitrate b =>
      rw [World.seen, occurrence?]
      cases w.result (Session.trySetBitrate b) <;>
        simp [ofTuning, frame?, restartsWindow]
    | trySend id extended len payload | send id extended len payload =>
      rw [World.seen, occurrence?]
      cases w.result (Session.trySend id extended len payload) with
      | ok u => simp [ofSend, frame?, restartsWindow]
      | error f =>
        by_cases hf : f.exhausted = true <;> simp [ofSend, hf, frame?, restartsWindow]

theorem Unmetered.window {w : World} {x : Activity} (h : w.Unmetered x) :
    (w.perform x).session.health.window = w.session.health.window := by
  have hs := h.seen
  rw [perform_health]
  generalize w.session.health = b
  generalize w.seen x = os at hs
  induction os generalizing b with
  | nil => rfl
  | cons o os ih =>
    obtain ⟨hf, hr⟩ := hs o List.mem_cons_self
    rw [List.foldl_cons, ih _ fun o ho => hs o (List.mem_cons_of_mem _ ho),
      Health.window_note b hf hr]

/-- At every point of every history the window has counted exactly the whole frames that were read
since its last restart, and starts there. Nothing else changes it. -/
theorem window_exact (name : String) (settings : Settings) (controller : Controller) (k : Kernel)
    (xs : List Activity)
    (hsum : WireFrame.total WireFrame.wireBits
      (windowFrames ((start name settings controller k).chronicle xs)) < 0x10000000000000000) :
    let w := start name settings controller k
    let now := w.performAll xs
    let frames := windowFrames (w.chronicle xs)
    now.session.health.window.frames.toNat = frames.length ∧
    now.session.health.window.wireBits.toNat = WireFrame.total WireFrame.wireBits frames ∧
    now.session.health.window.payloadBits.toNat = WireFrame.total WireFrame.payloadBits frames ∧
    now.session.health.window.start = windowStart k.clock (w.chronicle xs) ∧
    ∀ x, now.Unmetered x →
      (now.perform x).session.health.window = now.session.health.window := by
  intro w now frames
  have h₀ : Metered k.clock [] w.session.health.window := ⟨rfl, rfl, rfl, rfl⟩
  have m : Metered k.clock (w.chronicle xs) now.session.health.window := by
    rw [show now.session.health = _ from w.performAll_health xs]
    exact h₀.foldl_note (w.chronicle xs)
  have hlen : frames.length < 0x10000000000000000 :=
    Nat.lt_of_le_of_lt (WireFrame.length_le_total frames) hsum
  have hpay : WireFrame.total WireFrame.payloadBits frames < 0x10000000000000000 :=
    Nat.lt_of_le_of_lt (WireFrame.total_payloadBits_le frames) hsum
  refine ⟨?_, ?_, ?_, m.start, fun x h => h.window⟩
  · rw [m.frames]
    exact UInt64.toNat_ofNat_of_lt' hlen
  · rw [m.wireBits]
    exact UInt64.toNat_ofNat_of_lt' hsum
  · rw [m.payloadBits]
    exact UInt64.toNat_ofNat_of_lt' hpay

/-- An extended frame whose length byte is too large, a short datagram and a report,
the last read by a poll. -/
theorem window_exact_of_two_frames :
    let data : WireFrame := ⟨⟨0x80000123⟩, 200, Payload.zero⟩
    let report : WireFrame := ⟨⟨0x20000040⟩, 8, Payload.zero⟩
    let k : Kernel :=
      { interfaces := [("can0", 3)], waiting := [data.bytes, [1, 2], report.bytes], clock := 7 }
    let w := start "can0" Settings.standard .table k
    let xs : List Activity := [.act .tryOpen, .act .tryReceive, .poll none]
    let frames := windowFrames (w.chronicle xs)
    WireFrame.total WireFrame.wireBits frames < 0x10000000000000000 ∧
      frames = [report, data] ∧
      (w.performAll xs).session.health.window.frames.toNat = 2 ∧
      (w.performAll xs).session.health.window.wireBits.toNat = 160 + 135 ∧
      (w.performAll xs).session.health.window.start = 7 := by
  intro data report k w xs frames
  have hf : frames = [report, data] := by decide
  have hsum : WireFrame.total WireFrame.wireBits frames < 0x10000000000000000 := by
    rw [hf]
    decide
  have hstart : windowStart k.clock (w.chronicle xs) = 7 := by decide
  obtain ⟨hn, hw, -, ht, -⟩ := window_exact "can0" Settings.standard .table k xs hsum
  refine ⟨hsum, hf, ?_, ?_, ?_⟩
  · rw [hn]
    exact congrArg List.length hf
  · rw [hw]
    show WireFrame.total WireFrame.wireBits frames = 160 + 135
    rw [hf]
    decide
  · rw [ht]
    exact hstart

end World

end CanBus
