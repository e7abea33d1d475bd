import CanBus.Proofs.Socket

/-!
What each operation does to a session, given its outcome. `Took` says which datagram an operation
has read and what became of it.
-/

namespace CanBus

open Kernel

/-! ## Health -/

namespace Health

/-- A frame came in: it is counted, and clears the bus or is taken as a report. -/
def ingested (h : Health) (w : WireFrame) : Health :=
  let counted := h.counted (UInt64.ofNat (Frame.worstCaseBits w.word.isExtended w.len .classic))
    (UInt64.ofNat (w.len * 8))
  match w.decode with
  | .data _ => counted.cleared
  | .error r => counted.reported r

/-- A send ended with this result. -/
def attempted (h : Health) (r : Except Failure Unit) : Health :=
  match r with
  | .ok () => h.sent
  | .error f => if f.exhausted then h.overflowed else h

end Health

/-- The data frame in a received one, unless that is a report. -/
def WireFrame.frame? (w : WireFrame) : Option Frame :=
  match w.decode with
  | .data f => some f
  | .error _ => none

/-- The whole frame in a datagram, which is cut to the size of one. -/
def Datagram.frame? (d : Datagram) : Option WireFrame :=
  if WireFrame.size ≤ d.length then some (WireFrame.ofBytes (d.take WireFrame.size)) else none

theorem reading_take (d : Datagram) :
    Socket.Reading.ofDatagram (d.take WireFrame.size) =
      match Datagram.frame? d with
      | some w => .frame w
      | none => .short d.length := by
  unfold Socket.Reading.ofDatagram Datagram.frame?
  by_cases h : WireFrame.size ≤ d.length
  · have hl : (d.take WireFrame.size).length = WireFrame.size := by simp [h]
    simp only [hl, h, if_true]
  · have hl : d.take WireFrame.size = d := List.take_of_length_le (by omega)
    have hne : d.length ≠ WireFrame.size := by omega
    simp only [hl, hne, h, if_false]

namespace Session

def withHealth (s : Session) (h : Health) : Session := { s with health := h }

/-- The session after its socket has been let go. -/
def closed (s : Session) : Session :=
  match s.channel with
  | none => s
  | some c => { s with channel := none, stopped := c.handle :: s.stopped }

/-- The session after a datagram was read; a short one changes nothing. -/
def afterDatagram (s : Session) (d : Datagram) : Session :=
  match Datagram.frame? d with
  | some w => s.withHealth (s.health.ingested w)
  | none => s

/-- The data frame in a datagram. -/
def dataFrame? (d : Datagram) : Option Frame := (Datagram.frame? d).bind WireFrame.frame?

theorem afterDatagram_short {d : Datagram} (h : Datagram.frame? d = none) (s : Session) :
    s.afterDatagram d = s := by
  simp only [afterDatagram, h]

theorem afterDatagram_whole {d : Datagram} {w : WireFrame} (h : Datagram.frame? d = some w)
    (s : Session) : s.afterDatagram d = s.withHealth (s.health.ingested w) := by
  simp only [afterDatagram, h]

theorem afterDatagram_withHealth (s : Session) (d : Datagram) :
    s.afterDatagram d = s.withHealth (s.afterDatagram d).health := by
  cases hf : Datagram.frame? d with
  | none => rw [afterDatagram_short hf]; rfl
  | some w => rw [afterDatagram_whole hf]; rfl

theorem dataFrame?_short {d : Datagram} (h : Datagram.frame? d = none) : dataFrame? d = none := by
  rw [dataFrame?, h, Option.bind_none]

theorem dataFrame?_whole {d : Datagram} {w : WireFrame} (h : Datagram.frame? d = some w) :
    dataFrame? d = w.frame? := by
  rw [dataFrame?, h, Option.bind_some]

theorem closed_eq (s : Session) :
    s.closed = { s with channel := none, stopped := s.closed.stopped } := by
  unfold closed
  cases hc : s.channel with
  | none =>
    show s = { s with channel := none }
    rw [← hc]
  | some c => rfl

theorem closed_of_closed {s : Session} (hc : s.channel = none) : s.closed = s := by
  rw [closed, hc]

theorem channel_closed (s : Session) : s.closed.channel = none := by rw [closed_eq s]

theorem name_closed (s : Session) : s.closed.name = s.name := by rw [closed_eq s]

theorem settings_closed (s : Session) : s.closed.settings = s.settings := by rw [closed_eq s]

theorem controller_closed (s : Session) : s.closed.controller = s.controller := by rw [closed_eq s]

/-! ## Closing and receiving -/

theorem close_effect (s : Session) (k : Kernel) :
    ∃ k', (close.run s).run k = (((), s.closed), k') ∧ k'.opened = k.opened ∧
      k'.inbox = k.inbox ∧
      k'.accepts = s.channel.elim k.accepts (fun c => override k.accepts c.handle false) ∧
      ∀ v, v ≠ .shutdown → k'.script v = k.script v := by
  unfold close closed
  rw [Stateful.run_bind, Stateful.run_get]
  cases hc : s.channel with
  | none => exact ⟨k, rfl, rfl, rfl, rfl, fun _ _ => rfl⟩
  | some c =>
    simp only [Stateful.run_bind, Stateful.run_set, Stateful.run_lift, Socket.shutdown,
      shutdown_run]
    split <;> refine ⟨_, rfl, rfl, rfl, rfl, fun v hv => override_of_ne _ _ hv⟩

theorem calls_close (s : Session) (k : Kernel) :
    ((close.run s).run k).2.calls = k.calls ++ if s.isOpen then [.shutdown] else [] := by
  unfold close isOpen
  rw [Stateful.run_bind, Stateful.run_get]
  cases s.channel with
  | none => exact (List.append_nil _).symm
  | some c =>
    have hcalled : (k.called .shutdown .shutdown).calls = k.calls ++ [.shutdown] :=
      calls_called _ _ _
    simp only [Stateful.run_bind, Stateful.run_set, Stateful.run_lift, Socket.shutdown,
      shutdown_run]
    split
    · exact (calls_logged _ _ _ _).trans hcalled
    · exact (calls_logged _ _ _ _).trans ((calls_logged _ _ _ _).trans hcalled)

theorem ingest_effect (s : Session) (k : Kernel) (w : WireFrame) :
    ∃ e, ((ingest w).run s).run k =
      ((w.frame?, s.withHealth (s.health.ingested w)), k.noted e) := by
  unfold ingest WireFrame.frame? Health.ingested
  cases hd : w.decode with
  | data f => exact ⟨_, by rw [Stateful.run_bind]; rfl⟩
  | error r => exact ⟨_, by rw [Stateful.run_bind]; rfl⟩

/-- At most one datagram was taken, the oldest of a socket, and the session took note of it. -/
inductive Took (c : Handle) (s : Session) (k : Kernel) :
    Option Datagram → Session → Kernel → Prop
  | nothing {k' : Kernel} (hi : k'.inbox = k.inbox) : Took c s k none s k'
  | oldest {d : Datagram} {ds : List Datagram} {k' : Kernel} (hq : k.inbox c = d :: ds)
      (hi : k'.inbox = override k.inbox c ds) : Took c s k (some d) (s.afterDatagram d) k'

theorem Took.of_inbox {c : Handle} {s s' : Session} {k k₁ k' : Kernel} {d? : Option Datagram}
    (h : Took c s k d? s' k₁) (hi : k'.inbox = k₁.inbox) : Took c s k d? s' k' := by
  cases h with
  | nothing h => exact .nothing (hi.trans h)
  | oldest hq h => exact .oldest hq (hi.trans h)

theorem Took.withHealth {c : Handle} {s s' : Session} {k k' : Kernel} {d? : Option Datagram}
    (h : Took c s k d? s' k') : s' = s.withHealth s'.health := by
  cases h with
  | nothing => rfl
  | oldest => exact afterDatagram_withHealth s _

theorem read_cases (c : Socket) (k : Kernel) :
    (∃ e, (0 < k.nextOutcome .receive ∨ k.inbox c.handle = []) ∧
      c.read.run.run k = (.error e, k.called .receive .receive)) ∨
    (∃ d ds, ¬ 0 < k.nextOutcome .receive ∧ k.inbox c.handle = d :: ds ∧
      c.read.run.run k = (.ok (Socket.Reading.ofDatagram (d.take WireFrame.size)),
        (k.called .receive .receive).withInbox c.handle ds)) := by
  simp only [Socket.read, Fallible.run_bind, receive_run]
  by_cases hn : 0 < k.nextOutcome .receive
  · simp only [hn, if_true]
    exact .inl ⟨_, .inl trivial, rfl⟩
  · simp only [hn, if_false]
    cases hq : k.inbox c.handle with
    | nil => exact .inl ⟨_, .inr rfl, rfl⟩
    | cons d ds => exact .inr ⟨d, ds, not_false, rfl, rfl⟩

theorem readOne_effect (c : Socket) (s : Session) (k : Kernel) :
    ∃ d? s' k', ((Reader.readOne c).run s).run k = ((d?.bind dataFrame?, s'), k') ∧
      SameHandles k k' ∧ Took c.handle s k d? s' k' ∧
      k'.script = override k.script .receive (k.script .receive).tail ∧
      (d? = none ↔ 0 < k.nextOutcome .receive ∨ k.inbox c.handle = []) := by
  unfold Reader.readOne
  rw [Stateful.run_bind, Stateful.run_lift]
  obtain ⟨e, he, hr⟩ | ⟨d, ds, hn, hq, hr⟩ := read_cases c k
  · rw [hr]
    exact ⟨none, s, (k.called .receive .receive).noted _, rfl, ⟨rfl, rfl⟩, .nothing rfl, rfl,
      iff_of_true rfl he⟩
  · let k₁ := (k.called .receive .receive).withInbox c.handle ds
    have ht (v : Event) : Took c.handle s k (some d) (s.afterDatagram d) (k₁.noted v) :=
      .oldest hq rfl
    have hsome : some d = none ↔ 0 < k.nextOutcome .receive ∨ k.inbox c.handle = [] := by
      simp [hn, hq]
    cases hf : Datagram.frame? d with
    | none =>
      rw [hr, reading_take, hf]
      rw [afterDatagram_short hf] at ht
      exact ⟨some d, s, k₁.noted _,
        by rw [Option.bind_some, dataFrame?_short hf]; rfl, ⟨rfl, rfl⟩, ht _, rfl, hsome⟩
    | some w =>
      obtain ⟨v, hv⟩ := ingest_effect s k₁ w
      rw [hr, reading_take, hf]
      rw [afterDatagram_whole hf] at ht
      exact ⟨some d, _, k₁.noted v,
        by rw [Option.bind_some, dataFrame?_whole hf]; exact hv, ⟨rfl, rfl⟩, ht v, rfl, hsome⟩

theorem tryReceive_closed {s : Session} (hc : s.channel = none) (k : Kernel) :
    (tryReceive.run s).run k = ((.error .notOpen, s), k) := by
  unfold tryReceive
  rw [Stateful.run_bind, Stateful.run_get, hc]
  rfl

/-- How an attempt to receive used the script: a look at the queue, and a read
if that found something. -/
inductive Looked (h : Handle) (k : Kernel) : Option Datagram → Kernel → Prop
  | only {k' : Kernel} (hx : k'.script = override k.script .poll (k.script .poll).tail)
      (hn : 0 < k.nextOutcome .poll ∨ k.inbox h = []) : Looked h k none k'
  | read {d? : Option Datagram} {k' : Kernel} (hq : k.inbox h ≠ [])
      (hx : k'.script = override (override k.script .poll (k.script .poll).tail) .receive
        (k.script .receive).tail)
      (hn : d? = none ↔ 0 < k.nextOutcome .receive) : Looked h k d? k'

theorem tryReceive_open {s : Session} {c : Socket} (hc : s.channel = some c) (k : Kernel) :
    ∃ r d? s' k', (tryReceive.run s).run k = ((r, s'), k') ∧ SameHandles k k' ∧
      Took c.handle s k d? s' k' ∧ (∀ f, r = .ok (some f) ↔ d?.bind dataFrame? = some f) ∧
      Looked c.handle k d? k' := by
  let k₁ := k.called (.poll (Settings.waitMillis s.settings.receiveWait)) .poll
  have hwait : (c.waitReadable s.settings.receiveWait).run.run k = _ := poll_run k c.handle _
  unfold tryReceive
  rw [Stateful.run_bind, Stateful.run_get, hc]
  dsimp only
  rw [Stateful.run_bind, Stateful.run_lift, hwait]
  by_cases hp : 0 < k.nextOutcome .poll
  · rw [if_pos hp]
    exact ⟨_, none, s, k₁, rfl, ⟨rfl, rfl⟩, .nothing rfl, by simp, .only rfl (.inl hp)⟩
  rw [if_neg hp]
  cases he : (k.inbox c.handle).isEmpty with
  | true =>
    exact ⟨_, none, s, k₁, rfl, ⟨rfl, rfl⟩, .nothing rfl, by simp,
      .only rfl (.inr (List.isEmpty_iff.mp he))⟩
  | false =>
    have hq : k.inbox c.handle ≠ [] := by simpa using he
    have hx₁ : k₁.script .receive = k.script .receive := script_called_of_ne k _ (by decide)
    have hn₁ : k₁.nextOutcome .receive = k.nextOutcome .receive := by
      rw [nextOutcome, hx₁]
      rfl
    rw [Bool.not_false]
    dsimp only
    rw [Stateful.run_bind, Stateful.run_lift]
    obtain ⟨e, hfail, hr⟩ | ⟨d, ds, hpos, hd, hr⟩ := read_cases c k₁
    · have hpos : 0 < k.nextOutcome .receive := by
        rw [← hn₁]
        exact hfail.resolve_right hq
      rw [hr]
      exact ⟨_, none, s, k₁.called .receive .receive, rfl, ⟨rfl, rfl⟩, .nothing rfl,
        by simp, .read hq (by rw [← hx₁]; rfl) (iff_of_true rfl hpos)⟩
    · let k₂ := (k₁.called .receive .receive).withInbox c.handle ds
      have hx : k₂.script = override (override k.script .poll (k.script .poll).tail) .receive
          (k.script .receive).tail := by
        rw [← hx₁]
        rfl
      have ht : Took c.handle s k (some d) (s.afterDatagram d) k₂ := .oldest hd rfl
      have hsome : some d = none ↔ 0 < k.nextOutcome .receive := by simp [← hn₁, hpos]
      cases hf : Datagram.frame? d with
      | none =>
        rw [afterDatagram_short hf] at ht
        rw [hr, reading_take, hf]
        exact ⟨_, some d, s, k₂, rfl, ⟨rfl, rfl⟩, ht, by simp [dataFrame?_short hf],
          .read hq hx hsome⟩
      | some w =>
        obtain ⟨v, hv⟩ := ingest_effect s k₂ w
        rw [afterDatagram_whole hf] at ht
        rw [hr, reading_take, hf]
        refine ⟨.ok w.frame?, some d, _, k₂.noted v, ?_, ⟨rfl, rfl⟩, ht.of_inbox rfl, ?_,
          .read hq hx hsome⟩
        · dsimp only
          rw [Stateful.run_bind, hv]
          rfl
        · simp [dataFrame?_whole hf]

/-! ## Sending -/

theorem exhausted_of_encode {id : UInt32} {extended : Bool} {len : Nat} {payload : List UInt8}
    {f : Failure} (h : WireFrame.encode id extended len payload = .error f) :
    f.exhausted = false := by
  unfold WireFrame.encode IdWord.encode at h
  split at h
  · cases h; rfl
  · split at h
    · cases h; rfl
    · cases h

theorem trySend_effect (s : Session) (k : Kernel) (id : UInt32) (extended : Bool) (len : Nat)
    (payload : List UInt8) :
    ∃ r k', ((trySend id extended len payload).run s).run k =
        ((r, s.withHealth (s.health.attempted r)), k') ∧ SameSockets k k' ∧
      (s.isBusOff = true → ∃ f, r = .error f ∧ f.exhausted = false) := by
  unfold trySend
  rw [Stateful.run_bind, Stateful.run_get]
  by_cases hl : 8 < len
  · rw [if_pos hl]
    exact ⟨_, k, rfl, Chained.refl k, fun _ => ⟨_, rfl, rfl⟩⟩
  by_cases hb : s.isBusOff = true
  · rw [if_neg hl, if_pos hb]
    exact ⟨_, k, rfl, Chained.refl k, fun _ => ⟨_, rfl, rfl⟩⟩
  rw [if_neg hl, if_neg hb]
  cases he : WireFrame.encode id extended len payload with
  | error f =>
    have hf := exhausted_of_encode he
    refine ⟨.error f, k, ?_, Chained.refl k, fun h => absurd h hb⟩
    simp only [Health.attempted, hf]
    rfl
  | ok w =>
    cases hc : s.channel with
    | none => exact ⟨.error .notOpen, k, rfl, Chained.refl k, fun h => absurd h hb⟩
    | some c =>
      have hk : SameSockets k ((sendAll w.bytes).run.run k).2 := keeps_sendAll w.bytes k
      simp only [Socket.write, Stateful.run_bind, Stateful.run_lift]
      rcases hw : (sendAll w.bytes).run.run k with ⟨e | u, k₁⟩
      · rw [hw] at hk
        have hk' (v : Event) := Chained.trans hk (sameSockets_noted k₁ v)
        cases hx : e.exhausted with
        | true =>
          exact ⟨.error (.transmit e), _,
            by simp only [hx, Health.attempted, Failure.exhausted]; rfl, hk' _,
            fun h => absurd h hb⟩
        | false =>
          exact ⟨.error (.transmit e), _,
            by simp only [hx, Health.attempted, Failure.exhausted]; rfl, hk' _,
            fun h => absurd h hb⟩
      · rw [hw] at hk
        exact ⟨.ok (), _, rfl, Chained.trans hk (sameSockets_noted k₁ _),
          fun h => absurd h hb⟩

/-! ## Load -/

/-- A load that can't be computed leaves the window as it is. -/
def loaded (s : Session) (now : Instant) (r : Except ArithmeticFault UInt64) : Session :=
  match r with
  | .ok _ => s.withHealth (s.health.restartWindow now)
  | .error _ => s

theorem busLoad_effect (s : Session) (k : Kernel) :
    let load := s.health.window.load s.bitrate k.clock
    (busLoad.run s).run k = ((load, s.loaded k.clock load), k) := by
  intro load
  have htake : s.health.takeLoad s.bitrate (Kernel.now.run k).1 =
      load.map fun percent => (percent, s.health.restartWindow k.clock) := rfl
  unfold busLoad
  rw [Stateful.run_bind, Stateful.run_get, Stateful.run_bind, Stateful.run_lift, htake]
  cases load <;> rfl

/-! ## Opening and tuning -/

theorem tryOpen_open {s : Session} {c : Socket} (hc : s.channel = some c) (k : Kernel) :
    (tryOpen.run s).run k = ((.ok (), s), k) := by
  unfold tryOpen
  rw [Stateful.run_bind, Stateful.run_get, if_pos (by simp [isOpen, hc])]
  rfl

/-- The half of opening that comes after the link: the socket is what decides. -/
def attach (s : Session) : SessionM (Except Failure Unit) := do
  match ← (Socket.openOn s.name s.settings).run with
  | .error f => return .error f
  | .ok socket =>
    let now ← Kernel.now
    modify fun s => { s with health := s.health.restartWindow now, channel := some socket }
    log .info s!"open at {s.bitrate} bit/s"
    return .ok ()

/-- The kernel when the link has been seen to, or what could be done of that. -/
def linked (s : Session) (k : Kernel) : Kernel :=
  ((Link.prepare s.controller s.name s.bitrate s.settings.queueLength).run.run k).2

theorem sameSockets_linked (s : Session) (k : Kernel) : SameSockets k (s.linked k) :=
  Link.keeps_prepare s.controller.keeping_sameSockets s.name s.bitrate s.settings.queueLength k

/-- A failure of the link leaves no trace but a warning. -/
theorem tryOpen_linked {s : Session} (hc : s.channel = none) (k : Kernel) :
    (tryOpen.run s).run k = ((attach s).run s).run (s.linked k) ∨
    ∃ text, (tryOpen.run s).run k =
      ((attach s).run s).run ((s.linked k).noted (.log (s.linked k).thread .warn text)) := by
  unfold linked tryOpen
  rw [Stateful.run_bind, Stateful.run_get, if_neg (by simp [isOpen, hc])]
  rw [Stateful.run_bind, Stateful.run_lift]
  rcases (Link.prepare s.controller s.name s.bitrate s.settings.queueLength).run.run k with
    ⟨f | l, k₁⟩
  · exact .inr ⟨_, rfl⟩
  · exact .inl rfl

theorem attach_effect (s : Session) (k : Kernel) :
    (∃ f k', ((attach s).run s).run k = ((.error f, s), k') ∧ Spares k.opened k k') ∨
    (∃ index k', ((attach s).run s).run k = ((.ok (), { s with
        health := s.health.restartWindow k'.clock, channel := some ⟨k.opened, index⟩ }), k') ∧
      k'.opened = k.opened + 1 ∧ k'.accepts = override k.accepts k.opened true) := by
  unfold attach
  rw [Stateful.run_bind, Stateful.run_lift]
  obtain ⟨f, k₁, hr, hk⟩ | ⟨index, k₁, hr, ho, ha⟩ :=
    Socket.openOn_cases k s.name s.settings
  · rw [hr]
    exact .inl ⟨f, k₁, rfl, hk⟩
  · rw [hr]
    exact .inr ⟨index, k₁.noted _, rfl, ho, ha⟩

/-- Opening a closed session changes it only if the socket could be set up. -/
theorem tryOpen_closed {s : Session} (hc : s.channel = none) (k : Kernel) :
    (∃ f k', (tryOpen.run s).run k = ((.error f, s), k') ∧ Spares k.opened k k') ∨
    (∃ index k', (tryOpen.run s).run k = ((.ok (), { s with
        health := s.health.restartWindow k'.clock, channel := some ⟨k.opened, index⟩ }), k') ∧
      k'.opened = k.opened + 1 ∧ k'.accepts = override k.accepts k.opened true) := by
  have hrun : ∃ k₁, SameSockets k k₁ ∧
      (tryOpen.run s).run k = ((attach s).run s).run k₁ := by
    obtain h | ⟨text, h⟩ := tryOpen_linked hc k
    · exact ⟨_, s.sameSockets_linked k, h⟩
    · exact ⟨_, Chained.trans (s.sameSockets_linked k) (sameSockets_noted _ _), h⟩
  obtain ⟨k₁, hk, hrun⟩ := hrun
  rw [hrun, ← hk.opened, ← hk.accepts]
  obtain ⟨f, k', hr, hs⟩ | h := attach_effect s k₁
  · refine .inl ⟨f, k', hr, Chained.trans ?_ hs⟩
    rw [hk.opened]
    exact hk.spares _
  · exact .inr h

/-- A change of bitrate closes the session; the bitrate and the health follow if it succeeds. -/
def retuned (s : Session) (bitrate : UInt32) (r : Except Failure Unit) : Session :=
  match r with
  | .ok () => { s.closed with bitrate := bitrate, health := s.closed.health.cleared }
  | .error _ => s.closed

/-- The link is not touched before the session is closed. -/
theorem trySetBitrate_run (s : Session) (bitrate : UInt32) (k : Kernel) :
    ((trySetBitrate bitrate).run s).run k =
      let o := (Link.reconfigure s.controller s.name bitrate s.settings.queueLength).run.run
        ((close.run s).run k).2
      ((o.1.map fun _ => (), s.retuned bitrate (o.1.map fun _ => ())), o.2) := by
  obtain ⟨k₁, hr, -⟩ := close_effect s k
  unfold trySetBitrate
  rw [Stateful.run_bind, hr]
  dsimp only
  rw [Stateful.run_bind, Stateful.run_get]
  dsimp only
  rw [Stateful.run_bind, Stateful.run_lift, controller_closed, name_closed, settings_closed]
  rcases (Link.reconfigure s.controller s.name bitrate s.settings.queueLength).run.run k₁ with
    ⟨f | l, k₂⟩ <;> rfl

theorem trySetBitrate_effect (s : Session) (bitrate : UInt32) (k : Kernel) :
    ∃ r k', ((trySetBitrate bitrate).run s).run k = ((r, s.retuned bitrate r), k') ∧
      k'.opened = k.opened ∧
      k'.accepts = s.channel.elim k.accepts (fun c => override k.accepts c.handle false) := by
  obtain ⟨k₁, hr, ho, -, ha, -⟩ := close_effect s k
  have hl := Link.keeps_reconfigure s.controller.keeping_sameSockets s.name bitrate
    s.settings.queueLength k₁
  have hrun := trySetBitrate_run s bitrate k
  rw [hr] at hrun
  exact ⟨_, _, hrun, hl.opened.trans ho, hl.accepts.trans ha⟩

theorem drop_effect (s : Session) (k : Kernel) :
    ∃ k', (drop.run s).run k = (((), s.closed), k') ∧ k'.opened = k.opened ∧
      k'.accepts = s.channel.elim k.accepts (fun c => override k.accepts c.handle false) := by
  obtain ⟨k₁, hr, ho, -, ha, -⟩ := close_effect s k
  unfold drop
  rw [Stateful.run_bind, hr]
  dsimp only
  rw [Stateful.run_bind, Stateful.run_get]
  dsimp only
  by_cases hd : s.closed.settings.linkDownOnDrop = true
  · rw [if_pos hd, Stateful.run_bind, Stateful.run_lift]
    have hl := s.closed.controller.keeping_sameSockets.resolve s.closed.name k₁
    rcases h : (s.closed.controller.resolve s.closed.name).run.run k₁ with ⟨f | l, k₂⟩ <;>
      rw [h] at hl
    · exact ⟨_, rfl, hl.opened.trans ho, hl.accepts.trans ha⟩
    · have hc := Link.keeps_change s.closed.controller.keeping_sameSockets l (.admin false) k₂
      exact ⟨_, rfl, (hc.opened.trans hl.opened).trans ho,
        (hc.accepts.trans hl.accepts).trans ha⟩
  · rw [if_neg hd]
    exact ⟨k₁, rfl, ho, ha⟩

/-! ## Operations that log their failures -/

/-- The rest of an operation that logs the failure of the first part, if at all. -/
def Reports {α β : Type} (rest : α → SessionM β) : Prop :=
  ∀ a s k, ∃ b k', ((rest a).run s).run k = ((b, s), k') ∧ SameSockets k k'

theorem bind_effect {α β : Type} (m : SessionM α) {rest : α → SessionM β} (h : Reports rest)
    (s : Session) (k : Kernel) :
    ∃ b k', ((m >>= rest).run s).run k = ((b, ((m.run s).run k).1.2), k') ∧
      SameSockets ((m.run s).run k).2 k' := by
  rw [Stateful.run_bind]
  exact h _ _ _

theorem openUp_effect (s : Session) (k : Kernel) :
    ∃ b k', (openUp.run s).run k = ((b, ((tryOpen.run s).run k).1.2), k') ∧
      SameSockets ((tryOpen.run s).run k).2 k' := by
  refine bind_effect tryOpen (fun r s k => ?_) s k
  cases r with
  | error f => exact ⟨_, _, rfl, sameSockets_noted k _⟩
  | ok u => exact ⟨_, _, rfl, Chained.refl k⟩

theorem setBitrate_effect (s : Session) (bitrate : UInt32) (k : Kernel) :
    ∃ b k', ((setBitrate bitrate).run s).run k =
        ((b, (((trySetBitrate bitrate).run s).run k).1.2), k') ∧
      SameSockets (((trySetBitrate bitrate).run s).run k).2 k' := by
  refine bind_effect (trySetBitrate bitrate) (fun r s k => ?_) s k
  cases r with
  | error f => exact ⟨_, _, rfl, sameSockets_noted k _⟩
  | ok u => exact ⟨_, _, rfl, Chained.refl k⟩

theorem send_effect (s : Session) (id : UInt32) (extended : Bool) (len : Nat)
    (payload : List UInt8) (k : Kernel) :
    ∃ b k', ((send id extended len payload).run s).run k =
        ((b, (((trySend id extended len payload).run s).run k).1.2), k') ∧
      SameSockets (((trySend id extended len payload).run s).run k).2 k' := by
  refine bind_effect (trySend id extended len payload) (fun r s k => ?_) s k
  cases r <;> exact ⟨_, _, rfl, Chained.refl k⟩

theorem receive_effect (s : Session) (k : Kernel) :
    ∃ b k', (receive.run s).run k = ((b, ((tryReceive.run s).run k).1.2), k') ∧
      SameSockets ((tryReceive.run s).run k).2 k' := by
  refine bind_effect tryReceive (fun r s k => ?_) s k
  cases r with
  | error f => exact ⟨_, _, rfl, sameSockets_noted k _⟩
  | ok f => exact ⟨_, _, rfl, Chained.refl k⟩

end Session

end CanBus
