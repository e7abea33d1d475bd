import CanBus.Proofs.Link.Reconfigure
import CanBus.Proofs.Node.Effect

/-!
What a session asks of the link table. Only three operations ask anything of it: opening, changing
the bitrate and dropping (`tryOpen_asks`, `trySetBitrate_asks`, `drop_asks`). Everything else that
goes on in sessions and readers leaves the table alone, and so does the netlink controller.
-/

namespace CanBus

open Kernel

/-! ## Calls -/

namespace Kernel

theorem asks_setThread (t : Thread) : Keeps (Asks []) (setThread t) := fun _ => .of_same rfl rfl

theorem asks_release (h : Handle) : Keeps (Asks []) (release h) := fun _ => .of_same rfl rfl

theorem asks_outcome {s : Service} (hs : ∀ r, s ≠ .link r) : Keeps (Asks []) (outcome s) := by
  intro k
  rw [outcome_run]
  exact Lenient.scripted k s _ hs

theorem asks_openSocket : Keeps (Asks []) openSocket.run :=
  Keeps.bind_run (keeps_call nofun) fun _ _ => .of_same rfl rfl

theorem asks_bind (h : Handle) (a : Address) : Keeps (Asks []) (bind h a).run :=
  Keeps.bind_run (keeps_call nofun) fun _ _ => .of_same rfl rfl

theorem asks_shutdown (h : Handle) : Keeps (Asks []) (shutdown h).run := by
  intro k
  rw [shutdown_run]
  have hcalled : Asks [] k (k.called .shutdown .shutdown) := Lenient.called k rfl nofun
  exact Chained.trans hcalled (Asks.of_same rfl rfl)

theorem asks_receive (h : Handle) : Keeps (Asks []) (receive h).run := by
  intro k
  have hcalled : Asks [] k (k.called .receive .receive) := Lenient.called k rfl nofun
  rw [receive_run]
  split
  · exact hcalled
  · split
    · exact hcalled
    · exact Chained.trans hcalled (Asks.of_same rfl rfl)

theorem asks_poll (h : Handle) (millis : UInt16) : Keeps (Asks []) (poll h millis).run :=
  Keeps.bind_run (keeps_knownCall nofun) fun _ =>
    Keeps.bind_run Keeps.get_run fun _ => Keeps.pure_run _

theorem asks_epollWait (h : Handle) (millis : UInt16) : Keeps (Asks []) (epollWait h millis).run :=
  Keeps.bind_run (keeps_knownCall nofun) fun _ =>
    Keeps.bind_run Keeps.get_run fun _ => Keeps.pure_run _

/-- A call of which only the failure counts. -/
theorem asks_done {c : Call} (h : ∀ r, c.service? ≠ some (.link r)) :
    Keeps (Asks []) (knownCall c >>= fun _ => pure () : Syscall Unit).run :=
  Keeps.bind_run (keeps_knownCall h) fun _ => Keeps.pure_run _

end Kernel

/-! ## Sockets -/

namespace Socket

theorem asks_setup {α : Type} (step : SetupStep) {m : Syscall α} (h : Keeps (Asks []) m.run) :
    Keeps (Asks []) (setup step m).run := by
  refine Keeps.bind_run (Keeps.lift_run h) fun r => ?_
  split
  · exact Keeps.pure_run _
  · exact Keeps.throw_run _

theorem asks_setupOn {α : Type} (s : Handle) (step : SetupStep) {m : Syscall α}
    (h : Keeps (Asks []) m.run) : Keeps (Asks []) (setupOn s step m).run := by
  refine Keeps.bind_run (Keeps.lift_run h) fun r => ?_
  split
  · exact Keeps.pure_run _
  · exact Keeps.bind_run (Keeps.lift_run (asks_release s)) fun _ => Keeps.throw_run _

theorem asks_openOn (name : String) (s : Settings) : Keeps (Asks []) (openOn name s).run := by
  have hoption {c : Kernel.Call} (h : ∀ r, c.service? ≠ some (.link r)) :
      Keeps (Asks []) (do let _ ← Kernel.call c : Syscall Unit).run :=
    Keeps.bind_run (keeps_call h) fun _ => Keeps.pure_run _
  refine Keeps.bind_run (asks_setup _ (keeps_indexOf name)) fun index => ?_
  refine Keeps.bind_run (asks_setup _ asks_openSocket) fun h => ?_
  refine Keeps.bind_run (asks_setupOn h _ (asks_bind h _)) fun _ => ?_
  refine Keeps.bind_run (asks_setupOn h _ (hoption (by nofun))) fun _ => ?_
  exact Keeps.bind_run (asks_setupOn h _ (hoption (by nofun))) fun _ => Keeps.pure_run _

theorem asks_read (c : Socket) : Keeps (Asks []) c.read.run :=
  Keeps.bind_run (asks_receive c.handle) fun _ => Keeps.pure_run _

end Socket

/-! ## Sessions -/

namespace Session

theorem asks_log (level : LogLevel) (text : String) : Steady (Asks []) (log level text) :=
  Steady.bind Steady.get fun _ => Steady.lift (keeps_log _ _)

theorem asks_logThen {α : Type} (level : LogLevel) (text : String) (a : α) :
    Steady (Asks []) (do
      log level text
      return a) := Steady.bind (asks_log _ _) fun _ => Steady.pure _

theorem asks_close : Steady (Asks []) close := by
  refine Steady.bind Steady.get fun s => ?_
  cases s.channel with
  | none => exact Steady.pure _
  | some socket =>
    refine Steady.bind (Steady.set _) fun _ => ?_
    refine Steady.bind (Steady.lift (asks_shutdown socket.handle)) fun r => ?_
    cases r with
    | ok u => exact asks_log _ _
    | error e => exact Steady.bind (asks_log _ _) fun _ => asks_log _ _

theorem asks_ingest (w : WireFrame) : Steady (Asks []) (ingest w) := by
  refine Steady.bind (Steady.modify _) fun _ => ?_
  cases w.decode with
  | data f =>
    exact Steady.bind (Steady.modify _) fun _ => asks_logThen _ _ _
  | error r =>
    exact Steady.bind (asks_log _ _) fun _ => Steady.bind (Steady.modify _) fun _ => Steady.pure _

theorem asks_trySend (id : UInt32) (extended : Bool) (len : Nat) (payload : List UInt8) :
    Steady (Asks []) (trySend id extended len payload) := by
  refine Steady.bind Steady.get fun s => ?_
  by_cases hlen : 8 < len
  · simp only [hlen, if_true]
    exact Steady.pure _
  by_cases hoff : s.isBusOff = true
  · simp only [hlen, hoff, if_true, if_false]
    exact Steady.pure _
  simp only [hlen, hoff, if_false]
  cases WireFrame.encode id extended len payload with
  | error f => exact Steady.pure _
  | ok w =>
    cases s.channel with
    | none => exact Steady.pure _
    | some socket =>
      refine Steady.bind (Steady.lift (keeps_sendAll _)) fun r => ?_
      cases r with
      | ok u =>
        exact Steady.bind (Steady.modify _) fun _ => asks_logThen _ _ _
      | error e =>
        dsimp only
        split
        · exact Steady.bind (Steady.modify _) fun _ => asks_logThen _ _ _
        · exact asks_logThen _ _ _

theorem asks_tryReceive : Steady (Asks []) tryReceive := by
  refine Steady.bind Steady.get fun s => ?_
  cases s.channel with
  | none => exact Steady.pure _
  | some socket =>
    refine Steady.bind (Steady.lift (asks_poll socket.handle _)) fun r => ?_
    match r with
    | .error e => exact Steady.pure _
    | .ok false => exact Steady.pure _
    | .ok true =>
      refine Steady.bind (Steady.lift socket.asks_read) fun r => ?_
      match r with
      | .error e => exact Steady.pure _
      | .ok (.short n) => exact Steady.pure _
      | .ok (.frame w) => exact Steady.bind (asks_ingest w) fun _ => Steady.pure _

theorem asks_send (id : UInt32) (extended : Bool) (len : Nat) (payload : List UInt8) :
    Steady (Asks []) (send id extended len payload) := by
  refine Steady.bind (asks_trySend id extended len payload) fun r => ?_
  cases r with
  | ok u => exact Steady.pure _
  | error f => exact Steady.pure _

theorem asks_receive : Steady (Asks []) receive := by
  refine Steady.bind asks_tryReceive fun r => ?_
  cases r with
  | ok f => exact Steady.pure _
  | error f => exact asks_logThen _ _ _

theorem asks_busLoad : Steady (Asks []) busLoad := by
  intro s k
  rw [busLoad_effect]
  exact .refl k

end Session

/-! ## Readers -/

namespace Reader

theorem asks_start : Steady (Asks []) start := by
  refine Steady.bind Steady.get fun s => ?_
  cases s.channel with
  | none => exact Steady.pure _
  | some socket =>
    have hsetup : Keeps (Asks []) (do
        Kernel.epollCreate
        Kernel.epollAdd : Syscall Unit).run :=
      Keeps.bind_run (asks_done nofun) fun _ => asks_done nofun
    refine Steady.bind (Steady.lift hsetup) fun r => ?_
    cases r with
    | error e => exact Session.asks_logThen _ _ _
    | ok u => exact Session.asks_logThen _ _ _

theorem asks_check (socket : Socket) : Steady (Asks []) (check socket) := by
  refine Steady.bind Steady.get fun s => ?_
  split
  · refine Steady.bind (Steady.lift (asks_done (by nofun))) fun r => ?_
    cases r with
    | ok u => exact Session.asks_logThen _ _ _
    | error e => exact Steady.bind (Session.asks_log _ _) fun _ => Session.asks_logThen _ _ _
  · exact Steady.pure _

theorem asks_wait (socket : Socket) : Steady (Asks []) (wait socket) := by
  refine Steady.bind (Steady.lift Keeps.get) fun k => ?_
  split
  · refine Steady.bind Steady.get fun s => ?_
    refine Steady.bind (Steady.lift (asks_epollWait socket.handle _)) fun r => ?_
    cases r with
    | ok news => exact Steady.pure _
    | error e => exact Session.asks_logThen _ _ _
  · refine Steady.bind (Steady.lift (asks_outcome nofun)) fun _ => ?_
    split
    · exact Steady.pure _
    · exact Steady.pure _

theorem asks_readOne (socket : Socket) : Steady (Asks []) (readOne socket) := by
  refine Steady.bind (Steady.lift socket.asks_read) fun r => ?_
  match r with
  | .ok (.frame w) => exact Session.asks_ingest w
  | .ok (.short n) => exact Session.asks_logThen _ _ _
  | .error e => exact Session.asks_logThen _ _ _

theorem asks_step (r : Reader) : Steady (Asks []) r.step := by
  match r with
  | .starting => exact Steady.bind asks_start fun _ => Steady.pure _
  | .running socket .check => exact Steady.bind (asks_check socket) fun _ => Steady.pure _
  | .running socket .wait => exact asks_wait socket
  | .running socket (.serve []) => exact Steady.pure _
  | .running socket (.serve (.foreign :: news)) => exact Steady.pure _
  | .running socket (.serve (.readable :: news)) =>
    exact Steady.bind (asks_readOne socket) fun _ => Steady.pure _
  | .ended ran => exact Steady.pure _

theorem asks_drain (limit : Option Nat) (n : Nat) (r : Reader) (fs : List Frame) :
    Steady (Asks []) (drain limit n r fs) := by
  induction n generalizing r fs with
  | zero => exact Steady.pure _
  | succ n ih =>
    refine Steady.bind r.asks_step fun ⟨r', p⟩ => ?_
    match p with
    | .idle => exact Steady.pure _
    | .moved none => exact ih r' fs
    | .moved (some f) =>
      dsimp only
      split
      · exact Steady.bind Session.asks_close fun _ => ih r' _
      · exact ih r' _

theorem asks_run (limit : Option Nat) (r : Reader) : Steady (Asks []) (run limit r) :=
  Steady.bind (Steady.lift Keeps.get) fun _ => asks_drain limit _ r []

end Reader

theorem Session.asks_poll (limit : Option Nat) : Steady (Asks []) (poll limit) := by
  refine Steady.bind (Reader.asks_run limit .starting) fun ⟨r, fs⟩ => ?_
  cases r with
  | ended ran => exact Steady.pure _
  | starting | running =>
    refine Steady.bind asks_close fun _ => ?_
    exact Steady.bind (Reader.asks_run none _) fun _ => Steady.pure _

/-! ## Links, by any controller -/

theorem Controller.asks_resolve (ctl : Controller) (name : String) :
    Keeps (Asks []) (ctl.resolve name).run := by
  cases ctl with
  | table => exact fun k => resolve_asks k name
  | netlink => exact keeping_netlink.resolve name

namespace Link

theorem setAdmin_safe (ctl : Controller) (l : Link) (up : Bool) :
    Keeps (AsksOnly Asking.IsSafe) (setAdmin ctl l up).run := by
  cases ctl with
  | table => exact asksOnly_change fun _ => nofun
  | netlink => exact (keeps_change Controller.keeping_netlink l _).asksOnly _

theorem reconfigure_safe (ctl : Controller) {k : Kernel} (hd : k.links.Distinct) (name : String)
    (b q : UInt32) : AsksOnly Asking.IsSafe k ((reconfigure ctl name b q).run.run k).2 := by
  cases ctl with
  | table => exact reconfigure_asks hd name b q
  | netlink => exact ((keeps_reconfigure Controller.keeping_netlink name b q).asksOnly _) k

end Link

/-! ## Opening, reconfiguring, dropping -/

namespace Session

/-- The requests for a bitrate that opening comes to. An open session is left as it is. -/
def openingAskings (s : Session) (k : Kernel) : List Asking :=
  match s.channel, s.controller with
  | none, .table => k.openingAskings s.name s.bitrate
  | _, _ => []

/-- If opening the session would change the bitrate of a link, then that link is down. -/
def OpensDown (s : Session) (k : Kernel) : Prop :=
  s.channel = none → s.controller = .table → k.refusal? .query = none →
    ∀ l, k.links.find? s.name = some l → l.isCan = true → l.bitrate ≠ some s.bitrate →
      l.isUp = false

theorem openingAskings_safe (s : Session) {k : Kernel} (hd : k.links.Distinct) :
    BitratesFindDown (s.openingAskings k) ↔ s.OpensDown k := by
  unfold openingAskings OpensDown
  cases s.channel with
  | some c => simp [BitratesFindDown]
  | none =>
    cases s.controller with
    | netlink => simp [BitratesFindDown]
    | table => simpa using Link.openingAskings_safe hd s.name s.bitrate

theorem linked_asks (s : Session) (hc : s.channel = none) (k : Kernel) :
    AsksBitrates (s.openingAskings k) k (s.linked k) := by
  unfold openingAskings linked
  rw [hc]
  cases s.controller with
  | netlink =>
    have hkeeps : Asks [] k ((Link.prepare .netlink s.name s.bitrate
        s.settings.queueLength).run.run k).2 :=
      Link.keeps_prepare Controller.keeping_netlink _ _ _ k
    exact ⟨[], hkeeps, rfl⟩
  | table => exact Link.prepare_asks k s.name s.bitrate s.settings.queueLength

theorem asks_attach (s : Session) : Steady (Asks []) (attach s) := by
  refine Steady.bind (Steady.lift (Socket.asks_openOn _ _)) fun r => ?_
  cases r with
  | error f => exact Steady.pure _
  | ok socket =>
    refine Steady.bind (Steady.lift fun k => .refl k) fun now => ?_
    exact Steady.bind (Steady.modify _) fun _ => asks_logThen _ _ _

/-- Once the link has been seen to, opening asks for nothing more. -/
theorem asks_opening {s : Session} (hc : s.channel = none) (k : Kernel) :
    Asks [] (s.linked k) ((tryOpen.run s).run k).2 := by
  obtain h | ⟨text, h⟩ := tryOpen_linked hc k
  · rw [h]
    exact asks_attach s s _
  · rw [h]
    exact Chained.trans (Asks.logged _ _ _ _) (asks_attach s s _)

theorem tryOpen_asks (s : Session) (k : Kernel) :
    AsksBitrates (s.openingAskings k) k ((tryOpen.run s).run k).2 := by
  cases hc : s.channel with
  | some c =>
    rw [tryOpen_open hc]
    refine ⟨[], .refl k, ?_⟩
    simp [openingAskings, hc]
  | none => exact (linked_asks s hc k).extend (asks_opening hc k)

theorem openUp_asks (s : Session) (k : Kernel) :
    AsksBitrates (s.openingAskings k) k ((openUp.run s).run k).2 := by
  unfold openUp
  rw [Stateful.run_bind]
  refine (tryOpen_asks s k).extend ?_
  cases ((tryOpen.run s).run k).1.1 with
  | ok u => exact .refl _
  | error f => exact .logged _ _ _ _

/-- Changing the bitrate of the link is safe, however far it gets. -/
theorem trySetBitrate_asks (s : Session) (b : UInt32) {k : Kernel} (hd : k.links.Distinct) :
    AsksOnly Asking.IsSafe k (((trySetBitrate b).run s).run k).2 := by
  have hclose := asks_close s k
  rw [trySetBitrate_run]
  refine Chained.trans (hclose.only _) ?_
  exact Link.reconfigure_safe s.controller (hclose.distinct hd) s.name b s.settings.queueLength

theorem setBitrate_asks (s : Session) (b : UInt32) {k : Kernel} (hd : k.links.Distinct) :
    AsksOnly Asking.IsSafe k (((setBitrate b).run s).run k).2 := by
  unfold setBitrate
  rw [Stateful.run_bind]
  refine Chained.trans (trySetBitrate_asks s b hd) (Asks.only ?_ _)
  cases (((trySetBitrate b).run s).run k).1.1 with
  | ok u => exact .refl _
  | error f => exact .logged _ _ _ _

theorem drop_asks : Steady (AsksOnly Asking.IsSafe) drop := by
  refine Steady.bind (fun s => (asks_close s).asksOnly _) fun _ =>
    Steady.bind Steady.get fun s => ?_
  split
  · refine Steady.bind (Steady.lift ((s.controller.asks_resolve s.name).asksOnly _)) fun r => ?_
    cases r with
    | ok l =>
      exact Steady.bind (Steady.lift (Link.setAdmin_safe s.controller l false)) fun _ =>
        Steady.pure _
    | error f => exact fun s => (asks_log _ _ s).asksOnly _
  · exact Steady.pure _

end Session

end CanBus
