import CanBus.Command
import CanBus.Proofs.Frame.Canonical
import CanBus.Proofs.Kernel.Made
import CanBus.Proofs.Session.Opening
import CanBus.Proofs.Session.Sending

/-!
The command that sends a frame, from its text to the bytes on the socket (`send_outcome`). A text
that doesn't parse costs no call, a socket that can't be set up costs no write, and after that
nothing but the write itself can fail: a parsed frame always has a length and an identifier that can
be encoded, and a new session finds the bus on.
-/

namespace CanBus

open Kernel

/-- What is sent for a frame with nothing but zeros behind its data. -/
theorem WireFrame.bytes_ofFrame {f : Frame} (hf : f.zeroFilled = f) :
    let n := f.id.raw.toNat + if f.id.isExtended then 0x80000000 else 0
    (ofFrame f).bytes = [UInt8.ofNat n, UInt8.ofNat (n / 0x100), UInt8.ofNat (n / 0x10000),
        UInt8.ofNat (n / 0x1000000), UInt8.ofNat f.len, 0, 0, 0] ++ f.data ++
      List.replicate (8 - f.len) 0 := by
  intro n
  have hw := encode_frame f
  rw [hf] at hw
  exact (encodes_of_encode hw).bytes_eq_layout

namespace Session

/-! ## Parts of the command -/

/-- A session that is to leave its link up is just closed when it is dropped. -/
theorem calls_drop {s : Session} (hs : s.settings.linkDownOnDrop = false) (k : Kernel) :
    ((drop.run s).run k).2.calls = k.calls ++ if s.isOpen then [.shutdown] else [] := by
  have hclosed : s.closed.settings.linkDownOnDrop = false := by
    unfold closed
    cases s.channel <;> exact hs
  have hcalls := calls_close s k
  obtain ⟨k₁, hr, -⟩ := close_effect s k
  rw [hr] at hcalls
  unfold drop
  rw [Stateful.run_bind, hr]
  dsimp only
  rw [Stateful.run_bind, Stateful.run_get, hclosed]
  exact hcalls

end Session

theorem SetupStep.sparesLink {name : String} {index : UInt32} {s : Settings} {step : SetupStep}
    {c : Kernel.Call} (h : step.call? name index s = some c) : c.SparesLink := by
  cases step with
  | lookup =>
    rw [call?] at h
    split at h
    · cases h
    · cases h
      exact ⟨rfl, id⟩
  | _ =>
    cases h
    exact ⟨rfl, id⟩

namespace Command

/-- What the command ends with when this has come of the write. -/
def sent : Except SystemError Unit → Outcome
  | .ok () => succeeded ""
  | .error e => failed (chain (.transmit e))

theorem sent_eq_succeeded (r : Except SystemError Unit) : sent r = succeeded "" ↔ r = .ok () := by
  cases r with
  | ok u => exact iff_of_true rfl rfl
  | error e =>
    refine iff_of_false (fun h => ?_) nofun
    have hexit : (1 : UInt32) = 0 := congrArg Outcome.exit h
    exact absurd hexit (by decide)

/-! ## The whole command -/

/-- What is done with a session before it is dropped. -/
def openThen (name : String) (m : SessionM Outcome) : SessionM Outcome := do
  match ← Session.tryOpen with
  | .error f => return failed s!"Unable to open '{name}': {chain f}"
  | .ok () => m

theorem withSession_run (name : String) (bitrate : Option UInt32) (m : SessionM Outcome)
    (k : Kernel) :
    (withSession name bitrate m).run k =
      let o := ((openThen name m).run (session name bitrate k.clock)).run k
      (o.1.1, ((Session.drop.run o.1.2).run o.2).2) := rfl

theorem openThen_refused {name : String} {s s' : Session} {k k' : Kernel} {f : Failure}
    (h : (Session.tryOpen.run s).run k = ((.error f, s'), k')) (m : SessionM Outcome) :
    ((openThen name m).run s).run k =
      ((failed s!"Unable to open '{name}': {chain f}", s'), k') := by
  rw [openThen, Stateful.run_bind, h]
  rfl

theorem openThen_opened {name : String} {s s' : Session} {k k' : Kernel}
    (h : (Session.tryOpen.run s).run k = ((.ok (), s'), k')) (m : SessionM Outcome) :
    ((openThen name m).run s).run k = (m.run s').run k' := by
  rw [openThen, Stateful.run_bind, h]

/-- A frame that was parsed is written by any open session on a bus that is on. -/
theorem send_written {f : Frame} (hf : f.zeroFilled = f) {s : Session} {c : Socket}
    (hc : s.channel = some c) (hb : s.isBusOff = false) (k : Kernel) :
    let t := transmission (k.script .send) (WireFrame.ofFrame f).bytes
    ∃ s' k', ((send f).run s).run k = ((sent t.result, s'), k') ∧
      s'.channel = some c ∧ s'.settings = s.settings ∧
        k'.calls = k.calls ++ t.offers.map .send := by
  intro t
  have hw := WireFrame.encode_frame f
  rw [hf] at hw
  obtain ⟨k', hr, hcalls, -⟩ :=
    Session.trySend_transmits hc hb (Nat.le_of_lt_succ f.len.isLt) hw k
  refine ⟨s.withHealth (s.health.attempted (t.result.mapError .transmit)), k', ?_, hc, rfl,
    hcalls⟩
  unfold send
  rw [Stateful.run_bind, hr]
  cases t.result <;> rfl

/-- Until the socket is set up, nothing is written, and what is scripted for
writes is not touched. -/
theorem SparesLink.not_send {c : Kernel.Call} (h : c.SparesLink) : c.service? ≠ some .send := by
  intro hs
  cases c with
  | send bs => exact nomatch h.1
  | _ => cases hs

/-- The calls up to the end of the steps that are taken on a socket. -/
theorem opening_calls {name : String} {bitrate : Option UInt32} {k k' : Kernel}
    {steps : List SetupStep}
    (h : Stepped name (session name bitrate k.clock).settings
      ((session name bitrate k.clock).linked k) steps k') :
    ∃ cs, k'.calls = k.calls ++ cs ∧ (∀ c ∈ cs, c.SparesLink) ∧
      k'.script .send = k.script .send := by
  let s := session name bitrate k.clock
  obtain ⟨cs, hc, hp, hs⟩ := Link.makes_prepare name s.bitrate s.settings.queueLength k
  have hlinked : (s.linked k).calls = k.calls ++ cs := hc
  have hscript : (s.linked k).script .send = k.script .send :=
    hs .send fun c hc => SparesLink.not_send (hp c hc)
  refine ⟨cs ++ steps.filterMap (SetupStep.call? name ((s.linked k).indexFor name) s.settings),
    ?_, ?_, ?_⟩
  · rw [h.calls, hlinked, List.append_assoc]
  · intro c hc
    rcases List.mem_append.mp hc with hc | hc
    · exact hp c hc
    · obtain ⟨step, -, hstep⟩ := List.mem_filterMap.mp hc
      exact SetupStep.sparesLink hstep
  · rw [h.script .send, hscript]
    intro hm
    obtain ⟨step, -, hstep⟩ := List.mem_map.mp hm
    cases step <;> cases hstep

theorem sent?_of_sparesLink {cs : List Kernel.Call} (h : ∀ c ∈ cs, c.SparesLink) :
    cs.filterMap Call.sent? = [] := List.filterMap_eq_nil_iff.mpr fun c hc => (h c hc).1

/-- The calls of a command that has opened a socket: the sends stand out among them. -/
theorem sent?_of_opened {cs : List Kernel.Call} (h : ∀ c ∈ cs, c.SparesLink)
    (offers : List (List UInt8)) :
    (cs ++ offers.map Call.send ++ [Call.shutdown]).filterMap Call.sent? = offers := by
  have hsends : (offers.map Call.send).filterMap Call.sent? = offers := by
    rw [List.filterMap_map]
    exact List.filterMap_some
  rw [List.filterMap_append, List.filterMap_append, sent?_of_sparesLink h, hsends]
  exact List.append_nil _

theorem not_takesDown_of_opened {cs : List Kernel.Call} (h : ∀ c ∈ cs, c.SparesLink)
    {offers : List (List UInt8)} {c : Kernel.Call}
    (hc : c ∈ cs ++ offers.map Call.send ++ [Call.shutdown]) : ¬ c.TakesDown := by
  rcases List.mem_append.mp hc with hc | hc
  · rcases List.mem_append.mp hc with hc | hc
    · exact (h c hc).2
    · obtain ⟨bs, -, rfl⟩ := List.mem_map.mp hc
      exact id
  · rw [List.mem_singleton.mp hc]
    exact id

/-- The socket could not be set up. -/
theorem send_refused {name text : String} {bitrate : Option UInt32} {f : Frame} {k k' : Kernel}
    {e : Failure} (hf : Frame.parse text = .ok f)
    (hg : Socket.GaveUp name (session name bitrate k.clock).settings
      ((session name bitrate k.clock).linked k) e k')
    (hr : (Session.tryOpen.run (session name bitrate k.clock)).run k =
      ((.error e, session name bitrate k.clock), k')) :
    let o := (perform name (.send text bitrate)).run k
    o.1 = failed s!"Unable to open '{name}': {chain e}" ∧
      ∃ cs, o.2.calls = k.calls ++ cs ∧ ∀ c ∈ cs, c.SparesLink := by
  intro o
  obtain ⟨before, step, after, cause, -, -, -, -, hsteps⟩ := hg.first
  obtain ⟨cs, hcs, hp, -⟩ := opening_calls hsteps
  have ho : o = (failed s!"Unable to open '{name}': {chain e}",
      ((Session.drop.run (session name bitrate k.clock)).run k').2) := by
    show (perform name (.send text bitrate)).run k = _
    rw [perform, hf]
    dsimp only
    rw [withSession_run, openThen_refused hr]
  rw [ho]
  refine ⟨rfl, cs, ?_, hp⟩
  dsimp only
  rw [Session.calls_drop rfl, hcs]
  exact List.append_nil _

/-- The socket was set up, and the frame is written. -/
theorem send_opened {name text : String} {bitrate : Option UInt32} {f : Frame} {k k' : Kernel}
    {s' : Session} {c : Socket} (hf : Frame.parse text = .ok f)
    (hs : Stepped name (session name bitrate k.clock).settings
      ((session name bitrate k.clock).linked k) SetupStep.all k')
    (hc : s'.channel = some c) (hb : s'.isBusOff = false)
    (hd : s'.settings.linkDownOnDrop = false)
    (hr : (Session.tryOpen.run (session name bitrate k.clock)).run k = ((.ok (), s'), k')) :
    let o := (perform name (.send text bitrate)).run k
    let t := transmission (k.script .send) (WireFrame.ofFrame f).bytes
    o.1 = sent t.result ∧
      ∃ cs, o.2.calls = k.calls ++ (cs ++ t.offers.map .send ++ [.shutdown]) ∧
        ∀ c ∈ cs, c.SparesLink := by
  intro o t
  obtain ⟨cs, hcs, hp, hscript⟩ := opening_calls hs
  obtain ⟨s'', k'', hsend, hc', hset, hcalls⟩ :=
    send_written (Frame.zeroFilled_of_parse hf) hc hb k'
  rw [hscript] at hsend hcalls
  have ho : o = (sent t.result, ((Session.drop.run s'').run k'').2) := by
    show (perform name (.send text bitrate)).run k = _
    rw [perform, hf]
    dsimp only
    rw [withSession_run, openThen_opened hr, hsend]
  have hopen : s''.isOpen = true := by rw [Session.isOpen, hc']; rfl
  rw [ho]
  refine ⟨rfl, cs, ?_, hp⟩
  dsimp only
  rw [Session.calls_drop (hset ▸ hd), hopen, hcalls, hcs]
  simp only [if_true, List.append_assoc, t]

/-- A text that doesn't parse, a socket that can't be set up and a write that fails are reported in
this order. Otherwise the 16 bytes of the frame go out, and the link is never taken down. -/
theorem send_outcome (name text : String) (bitrate : Option UInt32) (k : Kernel) :
    let o := (perform name (.send text bitrate)).run k
    let linked := (session name bitrate k.clock).linked k
    (∀ args, read none args = .ok ⟨name, some (.send text bitrate)⟩ →
      (run args).run k = o) ∧
    (∀ f, Frame.parse text = .error f → o = (failed (chain f), k)) ∧
    ∀ f, Frame.parse text = .ok f →
      ∃ cs, o.2.calls = k.calls ++ cs ∧ (∀ c ∈ cs, ¬ c.TakesDown) ∧
      ((¬ ∀ step, linked.setupError? name step = none) →
        cs.filterMap Call.sent? = [] ∧
        ∃ before step after e, SetupStep.all = before ++ step :: after ∧
          (∀ b ∈ before, linked.setupError? name b = none) ∧
          linked.setupError? name step = some e ∧
          o.1 = failed s!"Unable to open '{name}': {chain (.socket step e)}") ∧
      ((∀ step, linked.setupError? name step = none) →
        let n := f.id.raw.toNat + if f.id.isExtended then 0x80000000 else 0
        let w := WireFrame.ofFrame f
        let sends := attempts (k.script .send) (cs.filterMap Call.sent?)
        w.bytes = [UInt8.ofNat n, UInt8.ofNat (n / 0x100), UInt8.ofNat (n / 0x10000),
            UInt8.ofNat (n / 0x1000000), UInt8.ofNat f.len, 0, 0, 0] ++ f.data ++
            List.replicate (8 - f.len) 0 ∧
        w.bytes.length = 16 ∧ Socket.Reading.ofDatagram w.bytes = .frame w ∧
          w.decode = .data f ∧
        sends ≠ [] ∧
        (∀ before a after, sends = before ++ a :: after →
          before.flatMap Attempt.takes ++ a.offer = w.bytes ∧ (after ≠ [] ↔ a.IsResumed)) ∧
        (o.1 = succeeded "" ↔ sends.flatMap Attempt.takes = w.bytes) ∧
        ∀ before a, sends = before ++ [a] → o.1 = sent a.verdict) := by
  intro o linked
  refine ⟨?_, ?_, fun f hf => ?_⟩
  · intro args h
    rw [run, h]
  · intro f hf
    show (perform name (.send text bitrate)).run k = _
    rw [perform, hf]
    rfl
  have hz := Frame.zeroFilled_of_parse hf
  have ha : Session.Attached (session name bitrate k.clock) linked
      ((Session.tryOpen.run (session name bitrate k.clock)).run k) := Session.tryOpen_attached rfl k
  generalize hr : (Session.tryOpen.run (session name bitrate k.clock)).run k = t at ha
  cases ha with
  | gaveUp hg =>
    obtain ⟨ho, cs, hcs, hp⟩ := send_refused hf hg hr
    obtain ⟨before, step, after, e, hall, hb, he, rfl, -⟩ := hg.first
    refine ⟨cs, hcs, fun c hc => (hp c hc).2, fun _ => ?_, fun hfine => ?_⟩
    · exact ⟨sent?_of_sparesLink hp, before, step, after, e, hall, hb, he, ho⟩
    · exact absurd (he.symm.trans (hfine step)) (Option.some_ne_none e)
  | opened hfine hs =>
    obtain ⟨ho, cs, hcs, hp⟩ := send_opened hf hs rfl rfl rfl hr
    let w := WireFrame.ofFrame f
    have hne : w.bytes ≠ [] := List.ne_nil_of_length_pos (w.length_bytes ▸ Nat.succ_pos _)
    have hwritten := transmission_written (k.script .send) hne
    refine ⟨_, hcs, fun c hc => not_takesDown_of_opened hp hc, fun h => absurd hfine h,
      fun _ => ?_⟩
    rw [sent?_of_opened hp]
    refine ⟨WireFrame.bytes_ofFrame hz, w.length_bytes, ?_, WireFrame.decode_ofFrame f,
      hwritten.ne_nil, fun before a after has => hwritten.offers has, ?_, ?_⟩
    · rw [Socket.Reading.ofDatagram, if_pos w.length_bytes, WireFrame.ofBytes_bytes]
    · exact (ho ▸ sent_eq_succeeded _).trans (hwritten.all_iff hne)
    · intro before a has
      exact ho.trans (congrArg sent (hwritten.result has))

/-- An interruption, five of the bytes, and the rest. -/
theorem send_outcome_after_interruption :
    let k : Kernel :=
      { interfaces := [("can0", 3)],
        script := override (fun _ => []) .send [Errno.interrupted, -5] }
    let o := (run ["can0", "send", "-b", "250000", "123#0A"]).run k
    let bs : List UInt8 := [0x23, 0x01, 0, 0, 1, 0, 0, 0, 0x0A, 0, 0, 0, 0, 0, 0, 0]
    o.1 = succeeded "" ∧ o.2.calls.filterMap Call.sent? = [bs, bs, bs.drop 5] := by
  intro k o bs
  obtain ⟨hrun, -, hparsed⟩ := send_outcome "can0" "123#0A" (some 250000) k
  have hread : read none ["can0", "send", "-b", "250000", "123#0A"] =
      .ok ⟨"can0", some (.send "123#0A" (some 250000))⟩ := by decide
  have hparse : Frame.parse "123#0A" = .ok ⟨.standard 0x123, 1, Payload.ofList [0x0A]⟩ := by rfl
  have hfine (step : SetupStep) :
      ((session "can0" (some 250000) k.clock).linked k).setupError? "can0" step = none := by
    cases step <;> decide
  have hsent : o.2.calls.filterMap Call.sent? = [bs, bs, bs.drop 5] := by decide
  obtain ⟨cs, hcs, -, -, hopened⟩ := hparsed _ hparse
  obtain ⟨-, -, -, -, -, -, hall, -⟩ := hopened hfine
  rw [← hrun _ hread] at hcs hall
  have hcs : o.2.calls = cs := hcs
  rw [← hcs, hsent] at hall
  exact ⟨hall.mpr (by decide), hsent⟩

end Command

end CanBus
