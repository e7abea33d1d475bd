import CanBus.Proofs.Session.Reader

/-!
A session over any history. A `World` is a session with its kernel and its readers; an `Action` is
one operation, one step of a reader, or whatever else goes on in the kernel. `Change` says once what
an action can do; from it follow `step_health`, the health in terms of what can be seen of an
action, and `sound_run`, which ties the open socket to the stop marks and the handles.
-/

namespace CanBus

open Kernel

/-! ## What can be seen of a session -/

inductive Occurrence
  | sent
  /-- A send failed for lack of transmit buffers. -/
  | exhausted
  | received (w : WireFrame)
  /-- The controller was restarted, to change its bitrate. -/
  | restarted
  | windowRestarted (t : Instant)
  deriving DecidableEq, Repr

def Health.note (h : Health) : Occurrence → Health
  | .sent => h.sent
  | .exhausted => h.overflowed
  | .received w => h.ingested w
  | .restarted => h.cleared
  | .windowRestarted t => h.restartWindow t

namespace Occurrence

def ofSend : Except Failure Unit → Option Occurrence
  | .ok () => some .sent
  | .error f => if f.exhausted then some .exhausted else none

def ofTuning : Except Failure Unit → Option Occurrence
  | .ok () => some .restarted
  | .error _ => none

/-- Only a load that is taken restarts the window. -/
def ofLoad (t : Instant) : Except ArithmeticFault UInt64 → Option Occurrence
  | .ok _ => some (.windowRestarted t)
  | .error _ => none

/-- A short datagram passes without notice. -/
def ofDatagram (d : Datagram) : Option Occurrence := (Datagram.frame? d).map received

end Occurrence

/-- The datagram that has left the queue of a socket. -/
def Kernel.taken? (c : Handle) (k k' : Kernel) : Option Datagram :=
  if (k'.inbox c).length < (k.inbox c).length then (k.inbox c).head? else none

theorem Session.Took.taken? {c : Handle} {s s' : Session} {k k' : Kernel} {d? : Option Datagram}
    (h : Took c s k d? s' k') : Kernel.taken? c k k' = d? := by
  cases h with
  | nothing hi => rw [Kernel.taken?, hi, if_neg (Nat.lt_irrefl _)]
  | oldest hq hi => rw [Kernel.taken?, hi, override_self, hq, if_pos (by simp)]; rfl

/-! ## Actions -/

structure World where
  session : Session
  kernel : Kernel
  readers : List Reader

inductive Action
  | tryOpen
  | openUp
  | close
  | trySetBitrate (bitrate : UInt32)
  | setBitrate (bitrate : UInt32)
  | trySend (id : UInt32) (extended : Bool) (len : Nat) (payload : List UInt8)
  | send (id : UInt32) (extended : Bool) (len : Nat) (payload : List UInt8)
  | tryReceive
  | receive
  | busLoad
  | drop
  | startReader
  | stepReader (i : Nat)
  /-- Anything else, in the kernel or on the bus. It is only the session that opens and closes its
  sockets. -/
  | elsewhere (k : Kernel)

namespace World

def start (name : String) (settings : Settings) (controller : Controller) (k : Kernel) : World :=
  ⟨Session.create name settings controller k.clock, k, []⟩

def result {α : Type} (w : World) (m : SessionM α) : α := ((m.run w.session).run w.kernel).1.1

def after {α : Type} (w : World) (m : SessionM α) : World :=
  { w with
    session := ((m.run w.session).run w.kernel).1.2
    kernel := ((m.run w.session).run w.kernel).2 }

def step (w : World) : Action → World
  | .tryOpen => w.after Session.tryOpen
  | .openUp => w.after Session.openUp
  | .close => w.after Session.close
  | .trySetBitrate b => w.after (Session.trySetBitrate b)
  | .setBitrate b => w.after (Session.setBitrate b)
  | .trySend id extended len payload => w.after (Session.trySend id extended len payload)
  | .send id extended len payload => w.after (Session.send id extended len payload)
  | .tryReceive => w.after Session.tryReceive
  | .receive => w.after Session.receive
  | .busLoad => w.after Session.busLoad
  | .drop => w.after Session.drop
  | .startReader => { w with readers := w.readers ++ [.starting] }
  | .stepReader i =>
    match w.readers[i]? with
    | none => w
    | some r => { w.after r.step with readers := w.readers.set i (w.result r.step).1 }
  | .elsewhere k =>
    { w with kernel := { k with opened := w.kernel.opened, accepts := w.kernel.accepts } }

def run (w : World) (as : List Action) : World := as.foldl step w

/-- The socket that an action would read from. -/
def source? (w : World) : Action → Option Socket
  | .tryReceive | .receive => w.session.channel
  | .stepReader i => w.readers[i]?.bind Reader.socket?
  | _ => none

/-- What an action comes to, by its result and by what has left the queue. -/
def occurrence? (w : World) (a : Action) : Option Occurrence :=
  match a with
  | .tryOpen | .openUp =>
    if !w.session.isOpen && (w.step a).session.isOpen then
      some (.windowRestarted (w.step a).kernel.clock)
    else none
  | .trySetBitrate b | .setBitrate b => Occurrence.ofTuning (w.result (Session.trySetBitrate b))
  | .trySend id extended len payload | .send id extended len payload =>
    Occurrence.ofSend (w.result (Session.trySend id extended len payload))
  | .busLoad => Occurrence.ofLoad w.kernel.clock (w.result Session.busLoad)
  | .tryReceive | .receive | .stepReader _ =>
    (w.source? a).bind fun c =>
      (Kernel.taken? c.handle w.kernel (w.step a).kernel).bind Occurrence.ofDatagram
  | .close | .drop | .startReader | .elsewhere _ => none

/-- What is seen of a run, in order. -/
def history (w : World) : List Action → List Occurrence
  | [] => []
  | a :: as => (w.occurrence? a).toList ++ (w.step a).history as

/-! ## What an action can do -/

/-- Change of a session and its kernel, with what was seen of it. -/
inductive Change (s : Session) (k : Kernel) : Option Occurrence → Session → Kernel → Prop
  | nothing {k' : Kernel} (hk : SameHandles k k') : Change s k none s k'
  | window {k' : Kernel} (t : Instant) (hk : SameHandles k k') :
      Change s k (some (.windowRestarted t)) (s.withHealth (s.health.restartWindow t)) k'
  | attempt {k' : Kernel} (r : Except Failure Unit) (hk : SameHandles k k')
      (hb : s.isBusOff = true → ∃ f, r = .error f ∧ f.exhausted = false) :
      Change s k (Occurrence.ofSend r) (s.withHealth (s.health.attempted r)) k'
  | read {c : Handle} {d? : Option Datagram} {s' : Session} {k' : Kernel} (hk : SameHandles k k')
      (ht : Session.Took c s k d? s' k') : Change s k (d?.bind Occurrence.ofDatagram) s' k'
  | refused {k' : Kernel} (hc : s.channel = none) (hk : Spares k.opened k k') : Change s k none s k'
  | opened {k' : Kernel} (index : UInt32) (hc : s.channel = none) (ho : k'.opened = k.opened + 1)
      (ha : k'.accepts = override k.accepts k.opened true) :
      Change s k (some (.windowRestarted k'.clock))
        { s with
          health := s.health.restartWindow k'.clock
          channel := some ⟨k.opened, index⟩ } k'
  | closed {k' : Kernel} (ho : k'.opened = k.opened) : Change s k none s.closed k'
  | tuned {k' : Kernel} (b : UInt32) (r : Except Failure Unit) (ho : k'.opened = k.opened) :
      Change s k (Occurrence.ofTuning r) (s.retuned b r) k'

/-- Sound ties: the open socket is one of those handed out, takes datagrams, and is not among those
that readers have been told to leave. -/
structure Sound (s : Session) (k : Kernel) : Prop where
  handedOut : ∀ c, s.channel = some c → c.handle < k.opened
  accepts : ∀ c, s.channel = some c → k.accepts c.handle = true
  notStopped : ∀ c, s.channel = some c → c.handle ∉ s.stopped
  stopped : ∀ h ∈ s.stopped, h < k.opened

namespace Sound

variable {s s' : Session} {k k' : Kernel}

theorem of_same (h : Sound s k) (hc : s'.channel = s.channel) (ht : s'.stopped = s.stopped)
    (hk : SameHandles k k') : Sound s' k' := by
  constructor
  · intro c h'
    rw [hk.opened]
    exact h.handedOut c (hc ▸ h')
  · intro c h'
    rw [hk.accepts]
    exact h.accepts c (hc ▸ h')
  · intro c h'
    rw [ht]
    exact h.notStopped c (hc ▸ h')
  · intro x hx
    rw [hk.opened]
    exact h.stopped x (ht ▸ hx)

/-- Without an open socket only the stop marks matter. -/
theorem of_shut (hn : s.channel = none) (hs : ∀ h ∈ s.stopped, h < k.opened) : Sound s k :=
  ⟨fun c h => by simp [hn] at h, fun c h => by simp [hn] at h, fun c h => by simp [hn] at h, hs⟩

theorem closed (h : Sound s k) (ho : k'.opened = k.opened) :
    s.closed.channel = none ∧ ∀ x ∈ s.closed.stopped, x < k'.opened := by
  rw [ho]
  unfold Session.closed
  cases hc : s.channel with
  | none => exact ⟨hc, h.stopped⟩
  | some c =>
    refine ⟨rfl, ?_⟩
    intro x hx
    rcases List.mem_cons.mp hx with rfl | hx
    · exact h.handedOut c hc
    · exact h.stopped x hx

end Sound

namespace Change

variable {s s' : Session} {k k' : Kernel} {o : Option Occurrence}

theorem health (h : Change s k o s' k') : s'.health = o.elim s.health s.health.note := by
  cases h with
  | nothing => rfl
  | window => rfl
  | attempt r =>
    cases r with
    | ok u => rfl
    | error f =>
      cases hf : f.exhausted <;>
        simp [Occurrence.ofSend, Session.withHealth, Health.attempted, Health.note, hf]
  | read hk ht =>
    cases ht with
    | nothing => rfl
    | @oldest d =>
      cases hf : Datagram.frame? d with
      | none =>
        rw [Session.afterDatagram_short hf, Option.bind_some, Occurrence.ofDatagram, hf]
        rfl
      | some w =>
        rw [Session.afterDatagram_whole hf, Option.bind_some, Occurrence.ofDatagram, hf]
        rfl
  | refused => rfl
  | opened => rfl
  | closed => unfold Session.closed; cases s.channel <;> rfl
  | tuned b r => cases r <;> (simp only [Session.retuned, Session.closed]; cases s.channel <;> rfl)

/-- While the bus is off, no send gets as far as the buffers. -/
theorem busOff (h : Change s k o s' k') (hb : s.isBusOff = true) :
    o ≠ some .sent ∧ o ≠ some .exhausted := by
  cases h with
  | attempt r hk hr =>
    obtain ⟨f, rfl, hf⟩ := hr hb
    simp [Occurrence.ofSend, hf]
  | read hk ht =>
    cases ht with
    | nothing => simp
    | @oldest d => cases hf : Datagram.frame? d <;> simp [Occurrence.ofDatagram, hf]
  | tuned b r => cases r <;> simp [Occurrence.ofTuning]
  | _ => simp

theorem sound (h : Change s k o s' k') (hs : Sound s k) : Sound s' k' := by
  cases h with
  | nothing hk => exact hs.of_same rfl rfl hk
  | window t hk => exact hs.of_same rfl rfl hk
  | attempt r hk => exact hs.of_same rfl rfl hk
  | read hk ht =>
    cases ht with
    | nothing => exact hs.of_same rfl rfl hk
    | @oldest d =>
      rw [Session.afterDatagram_withHealth]
      exact hs.of_same rfl rfl hk
  | refused hc hk =>
    exact .of_shut hc fun x hx => Nat.lt_of_lt_of_le (hs.stopped x hx) hk.opened
  | opened index hc ho ha =>
    constructor
    · rintro c ⟨⟩
      rw [ho]
      exact Nat.lt_succ_self _
    · rintro c ⟨⟩
      rw [ha]
      exact override_self _ _ _
    · rintro c ⟨⟩ hx
      exact Nat.lt_irrefl _ (hs.stopped _ hx)
    · intro x hx
      rw [ho]
      exact Nat.lt_succ_of_lt (hs.stopped x hx)
  | closed ho =>
    obtain ⟨hn, hx⟩ := hs.closed ho
    exact .of_shut hn hx
  | tuned b r ho =>
    obtain ⟨hn, hx⟩ := hs.closed ho
    cases r <;> exact .of_shut hn hx

end Change

theorem Change.of_sameSockets {s s' : Session} {k k₁ k' : Kernel} {o : Option Occurrence}
    (h : Change s k o s' k₁) (hk : SameSockets k₁ k') : Change s k o s' k' := by
  cases h with
  | nothing h => exact .nothing (Chained.trans h hk.handles)
  | window t h => exact .window t (Chained.trans h hk.handles)
  | attempt r h hb => exact .attempt r (Chained.trans h hk.handles) hb
  | read h ht => exact .read (Chained.trans h hk.handles) (ht.of_inbox hk.inbox)
  | refused hc h => exact .refused hc (Chained.trans h (hk.spares _))
  | opened index hc ho ha =>
    rw [← hk.clock]
    exact .opened index hc (hk.opened.trans ho) (hk.accepts.trans ha)
  | closed ho => exact .closed (hk.opened.trans ho)
  | tuned b r ho => exact .tuned b r (hk.opened.trans ho)

theorem change_tryOpen (w : World) :
    Change w.session w.kernel (w.occurrence? .tryOpen) (w.step .tryOpen).session
      (w.step .tryOpen).kernel := by
  cases hc : w.session.channel with
  | some c =>
    simp only [step, occurrence?, after, Session.tryOpen_open hc, Session.isOpen, hc]
    exact .nothing (Chained.refl _)
  | none =>
    obtain ⟨f, k', hr, hk⟩ | ⟨index, k', hr, ho, ha⟩ := Session.tryOpen_closed hc w.kernel
    · simp only [step, occurrence?, after, hr, Session.isOpen, hc]
      exact .refused hc hk
    · simp only [step, occurrence?, after, hr, Session.isOpen, hc]
      exact .opened index hc ho ha

theorem change_tryReceive (w : World) :
    Change w.session w.kernel (w.occurrence? .tryReceive) (w.step .tryReceive).session
      (w.step .tryReceive).kernel := by
  cases hc : w.session.channel with
  | none =>
    simp only [step, occurrence?, source?, after, Session.tryReceive_closed hc, hc]
    exact .nothing (Chained.refl _)
  | some c =>
    obtain ⟨r, d?, s', k', hr, hk, ht, -⟩ := Session.tryReceive_open hc w.kernel
    simp only [step, occurrence?, source?, after, hr, hc]
    rw [Option.bind_some, ht.taken?]
    exact .read hk ht

theorem step_change (w : World) (a : Action) :
    Change w.session w.kernel (w.occurrence? a) (w.step a).session (w.step a).kernel := by
  cases a with
  | tryOpen => exact w.change_tryOpen
  | openUp =>
    obtain ⟨ok, k', hr, hk⟩ := Session.openUp_effect w.session w.kernel
    have h := w.change_tryOpen
    simp only [step, occurrence?, after, hr] at h ⊢
    rw [hk.clock]
    exact h.of_sameSockets hk
  | close =>
    obtain ⟨k', hr, ho, -⟩ := Session.close_effect w.session w.kernel
    simp only [step, occurrence?, after, hr]
    exact .closed ho
  | drop =>
    obtain ⟨k', hr, ho, -⟩ := Session.drop_effect w.session w.kernel
    simp only [step, occurrence?, after, hr]
    exact .closed ho
  | trySetBitrate b =>
    obtain ⟨r, k', hr, ho, -⟩ := Session.trySetBitrate_effect w.session b w.kernel
    simp only [step, occurrence?, after, result, hr]
    exact .tuned b r ho
  | setBitrate b =>
    obtain ⟨r, k₁, hr, ho, -⟩ := Session.trySetBitrate_effect w.session b w.kernel
    obtain ⟨ok, k', hr', hk⟩ := Session.setBitrate_effect w.session b w.kernel
    rw [hr] at hk
    simp only [step, occurrence?, after, result, hr', hr]
    exact .tuned b r (hk.opened.trans ho)
  | trySend id extended len payload =>
    obtain ⟨r, k', hr, hk, hb⟩ :=
      Session.trySend_effect w.session w.kernel id extended len payload
    simp only [step, occurrence?, after, result, hr]
    exact .attempt r hk.handles hb
  | send id extended len payload =>
    obtain ⟨r, k', hr, hk, hb⟩ :=
      Session.trySend_effect w.session w.kernel id extended len payload
    obtain ⟨ok, k₁, hr', hk'⟩ :=
      Session.send_effect w.session id extended len payload w.kernel
    rw [hr] at hk'
    simp only [step, occurrence?, after, result, hr', hr]
    exact .attempt r (Chained.trans hk hk').handles hb
  | tryReceive => exact w.change_tryReceive
  | receive =>
    obtain ⟨f, k', hr, hk⟩ := Session.receive_effect w.session w.kernel
    have h := w.change_tryReceive
    simp only [step, occurrence?, source?, after, Kernel.taken?, hr] at h ⊢
    rw [hk.inbox]
    exact h.of_sameSockets hk
  | busLoad =>
    simp only [step, occurrence?, after, result, Session.busLoad_effect]
    cases w.session.health.window.load w.session.bitrate w.kernel.clock with
    | ok load => exact .window w.kernel.clock (Chained.refl _)
    | error fault => exact .nothing (Chained.refl _)
  | startReader => exact .nothing (Chained.refl _)
  | stepReader i =>
    cases hr : w.readers[i]? with
    | none =>
      simp only [step, occurrence?, source?, hr]
      exact .nothing (Chained.refl _)
    | some r =>
      obtain ⟨d?, p, s', k', hr', hk, ht⟩ := r.step_effect w.session w.kernel
      simp only [step, occurrence?, source?, after, hr, hr', Option.bind_some]
      cases hc : r.socket? with
      | none =>
        rw [hc] at ht
        obtain ⟨-, rfl⟩ := ht
        exact .nothing hk
      | some c =>
        rw [hc] at ht
        rw [Option.bind_some, ht.taken?]
        exact .read hk ht
  | elsewhere k => exact .nothing ⟨rfl, rfl⟩

/-! ## Runs -/

theorem step_health (w : World) (a : Action) :
    (w.step a).session.health =
      (w.occurrence? a).elim w.session.health w.session.health.note := (w.step_change a).health

theorem run_health (w : World) (as : List Action) :
    (w.run as).session.health = (w.history as).foldl Health.note w.session.health := by
  induction as generalizing w with
  | nil => rfl
  | cons a as ih =>
    rw [run, List.foldl_cons, ← run, ih, step_health, history, List.foldl_append]
    cases w.occurrence? a <;> rfl

theorem sound_run {w : World} (h : Sound w.session w.kernel) (as : List Action) :
    Sound (w.run as).session (w.run as).kernel := by
  induction as generalizing w with
  | nil => exact h
  | cons a as ih => exact ih ((w.step_change a).sound h)

theorem sound_start (name : String) (settings : Settings) (controller : Controller) (k : Kernel) :
    Sound (start name settings controller k).session (start name settings controller k).kernel :=
  .of_shut rfl fun _ h => absurd h List.not_mem_nil

end World

end CanBus
