import CanBus.Proofs.Execution

/-!
What the calls of this library do to the kernel: exact results for the calls on sockets, and
frames for everything that only looks up names or deals with links. A netlink exchange keeps what
its calls keep (`Netlink.Serving`), and so every `Lenient` relation; `SameSockets` is kept
whatever controls the links.
-/

namespace CanBus

theorem override_apply_self {α β : Type} [DecidableEq α] (f : α → β) (a : α) :
    override f a (f a) = f := by
  funext x
  by_cases h : x = a <;> simp [override, h]

namespace Kernel

/-! ## Calls -/

def noted (k : Kernel) (e : Event) : Kernel := { k with events := k.events ++ [e] }

/-- What the script has for the next call of a service. -/
def nextOutcome (k : Kernel) (s : Service) : Int := (k.script s).headD 0

/-- The kernel after a call: the call is recorded and its outcome used up. -/
def called (k : Kernel) (c : Call) (s : Service) : Kernel :=
  { k.noted (.call k.thread c) with script := override k.script s (k.script s).tail }

/-- The calls that were made, in order. -/
def calls (k : Kernel) : List Call :=
  k.events.filterMap fun
    | .call _ c => some c
    | .log _ _ _ => none

@[simp] theorem calls_called (k : Kernel) (c : Call) (s : Service) :
    (k.called c s).calls = k.calls ++ [c] := by
  simp [calls, called, noted, List.filterMap_append]

@[simp] theorem calls_logged (k : Kernel) (t : Thread) (level : LogLevel) (text : String) :
    (k.noted (.log t level text)).calls = k.calls := by
  simp [calls, noted, List.filterMap_append]

theorem script_called_of_ne (k : Kernel) (c : Call) {s v : Service} (h : v ≠ s) :
    (k.called c s).script v = k.script v := override_of_ne k.script _ h

theorem outcome_run (k : Kernel) (s : Service) :
    (outcome s).run k =
      (k.nextOutcome s, { k with script := override k.script s (k.script s).tail }) := by
  cases h : k.script s with
  | nil =>
    have hs : override k.script s [] = k.script := by rw [← h, override_apply_self]
    simp [outcome, StateT.run, nextOutcome, h, hs]
  | cons n ns => simp [outcome, StateT.run, nextOutcome, h]

theorem perform_run (k : Kernel) {c : Call} {s : Service} (h : c.service? = some s) :
    (perform c).run k = (k.nextOutcome s, k.called c s) := by
  simp only [perform, h, System.run_bind, outcome_run]
  rfl

theorem call_run (k : Kernel) {c : Call} {s : Service} (h : c.service? = some s) :
    (call c).run.run k =
      (if 0 < k.nextOutcome s then .error (.code (k.nextOutcome s)) else .ok (k.nextOutcome s),
        k.called c s) := by
  simp only [call, Fallible.run_bind, Fallible.run_lift, perform_run k h]
  split <;> rfl

theorem call_succeeds {k : Kernel} {c : Call} {s : Service} (hc : c.service? = some s)
    (h : k.nextOutcome s ≤ 0) : (call c).run.run k = (.ok (k.nextOutcome s), k.called c s) := by
  rw [call_run k hc, if_neg (Int.not_lt.mpr h)]

theorem call_ok {k k' : Kernel} {c : Call} {s : Service} {n : Int} (hc : c.service? = some s)
    (h : (call c).run.run k = (.ok n, k')) : k.nextOutcome s ≤ 0 ∧ k.called c s = k' := by
  rw [call_run k hc] at h
  by_cases hn : 0 < k.nextOutcome s
  · rw [if_pos hn] at h
    cases h
  · exact ⟨Int.not_lt.mp hn, (Prod.mk.inj h).2⟩

theorem knownCall_run (k : Kernel) {c : Call} {s : Service} (h : c.service? = some s) :
    (knownCall c).run.run k =
      (if 0 < k.nextOutcome s then .error (.code (Errno.known (k.nextOutcome s)))
        else .ok (k.nextOutcome s), k.called c s) := by
  simp only [knownCall, Fallible.run_bind, Fallible.run_lift, perform_run k h]
  split <;> rfl

/-- A call of which only the failure counts. -/
theorem knownCall_done (k : Kernel) {c : Call} {s : Service} (h : c.service? = some s) :
    (knownCall c >>= fun _ => pure () : Syscall Unit).run.run k =
      (if 0 < k.nextOutcome s then .error (.code (Errno.known (k.nextOutcome s))) else .ok (),
        k.called c s) := by
  rw [Fallible.run_bind, knownCall_run k h]
  by_cases hn : 0 < k.nextOutcome s
  · simp only [hn, if_true]
  · simp only [hn, if_false]; rfl

/-! ## Sockets -/

def withInbox (k : Kernel) (h : Handle) (ds : List Datagram) : Kernel :=
  { k with inbox := override k.inbox h ds }

def refusing (k : Kernel) (h : Handle) : Kernel := { k with accepts := override k.accepts h false }

theorem release_run (k : Kernel) (h : Handle) : (release h).run k = ((), k.refusing h) := rfl

/-- A read that fails leaves the queue alone; one that succeeds takes the oldest datagram. -/
theorem receive_run (k : Kernel) (h : Handle) :
    (receive h).run.run k =
      if 0 < k.nextOutcome .receive then
        (.error (.code (k.nextOutcome .receive)), k.called .receive .receive)
      else match k.inbox h with
        | [] => (.error (.code Errno.tryAgain), k.called .receive .receive)
        | d :: ds =>
          (.ok (d.take WireFrame.size), (k.called .receive .receive).withInbox h ds) := by
  have hc := call_run k (rfl : Call.receive.service? = some .receive)
  simp only [receive, Fallible.run_bind, hc]
  by_cases hn : 0 < k.nextOutcome .receive
  · simp only [hn, if_true]
  · have hi : (k.called .receive .receive).inbox h = k.inbox h := rfl
    simp only [hn, if_false, Fallible.run_get, hi]
    cases k.inbox h with
    | nil => rfl
    | cons d ds => rfl

/-- A look at the queue, which takes nothing from it. -/
theorem poll_run (k : Kernel) (h : Handle) (millis : UInt16) :
    (poll h millis).run.run k =
      (if 0 < k.nextOutcome .poll then .error (.code (Errno.known (k.nextOutcome .poll)))
        else .ok !(k.inbox h).isEmpty, k.called (.poll millis) .poll) := by
  have hc := knownCall_run k (rfl : (Call.poll millis).service? = some .poll)
  simp only [poll, Fallible.run_bind, hc]
  by_cases hn : 0 < k.nextOutcome .poll
  · simp only [hn, if_true]
  · simp only [hn, if_false]; rfl

theorem sendAll_run (k : Kernel) (bs : List UInt8) :
    (sendAll bs).run.run k =
      ((transmission (k.script .send) bs).result, { k with
        script := override k.script .send (transmission (k.script .send) bs).unused
        events := k.events ++
          (transmission (k.script .send) bs).offers.map fun o => .call k.thread (.send o) }) := by
  simp only [sendAll, Fallible.run_bind, Fallible.run_get, Fallible.run_set]
  cases (transmission (k.script .send) bs).result <;> rfl

theorem calls_sendAll (k : Kernel) (bs : List UInt8) :
    ((sendAll bs).run.run k).2.calls =
      k.calls ++ (transmission (k.script .send) bs).offers.map .send := by
  rw [sendAll_run]
  simp only [calls, List.filterMap_append, List.filterMap_map]
  exact congrArg (k.calls ++ ·) (congrFun List.filterMap_eq_map _)

/-- Whatever a shutdown reports, the socket takes no more datagrams. -/
theorem shutdown_run (k : Kernel) (h : Handle) :
    (shutdown h).run.run k =
      (if 0 < k.nextOutcome .shutdown then .error (.code (k.nextOutcome .shutdown))
        else if k.nextOutcome .shutdown = 0 then .error (.code Errno.notSupported) else .ok (),
        (k.called .shutdown .shutdown).refusing h) := by
  have hp := perform_run k (rfl : Call.shutdown.service? = some .shutdown)
  simp only [shutdown, Fallible.run_bind, Fallible.run_lift, hp, release_run]
  by_cases hn : 0 < k.nextOutcome .shutdown
  · simp only [hn, if_true]; rfl
  · by_cases hz : k.nextOutcome .shutdown = 0
    · simp [hz]; rfl
    · simp only [hn, hz, if_false]; rfl

theorem epollCreate_run (k : Kernel) :
    epollCreate.run.run k =
      (if 0 < k.nextOutcome .epollCreate then
          .error (.code (Errno.known (k.nextOutcome .epollCreate)))
        else .ok (), k.called .epollCreate .epollCreate) := knownCall_done k rfl

theorem epollAdd_run (k : Kernel) :
    epollAdd.run.run k =
      (if 0 < k.nextOutcome .epollAdd then .error (.code (Errno.known (k.nextOutcome .epollAdd)))
        else .ok (), k.called .epollAdd .epollAdd) := knownCall_done k rfl

theorem epollDelete_run (k : Kernel) :
    epollDelete.run.run k =
      (if 0 < k.nextOutcome .epollDelete then
          .error (.code (Errno.known (k.nextOutcome .epollDelete)))
        else .ok (), k.called .epollDelete .epollDelete) := knownCall_done k rfl

/-- What a wait that succeeds reports of a socket. -/
def news (k : Kernel) (h : Handle) : List Readiness :=
  let own := if (k.inbox h).isEmpty then [] else [Readiness.readable]
  if k.nextOutcome .epollWait < 0 then .foreign :: own else own

theorem epollWait_run (k : Kernel) (h : Handle) (millis : UInt16) :
    (epollWait h millis).run.run k =
      (if 0 < k.nextOutcome .epollWait then .error (.code (Errno.known (k.nextOutcome .epollWait)))
        else .ok (k.news h), k.called (.epollWait millis) .epollWait) := by
  have hc := knownCall_run k (rfl : (Call.epollWait millis).service? = some .epollWait)
  simp only [epollWait, Fallible.run_bind, hc]
  by_cases hn : 0 < k.nextOutcome .epollWait
  · simp only [hn, if_true]
  · simp only [hn, if_false]; rfl

/-! ## Frames -/

/-- The same sockets, interfaces and time. Scripts, replies, links and the record may differ. -/
structure SameSockets (k k' : Kernel) : Prop where
  interfaces : k'.interfaces = k.interfaces
  opened : k'.opened = k.opened
  inbox : k'.inbox = k.inbox
  accepts : k'.accepts = k.accepts
  newest : k'.newest = k.newest
  waiting : k'.waiting = k.waiting
  clock : k'.clock = k.clock
  thread : k'.thread = k.thread

instance : Chained SameSockets where
  refl _ := ⟨rfl, rfl, rfl, rfl, rfl, rfl, rfl, rfl⟩
  trans h₁ h₂ :=
    ⟨h₂.1.trans h₁.1, h₂.2.trans h₁.2, h₂.3.trans h₁.3, h₂.4.trans h₁.4,
      h₂.5.trans h₁.5, h₂.6.trans h₁.6, h₂.7.trans h₁.7, h₂.8.trans h₁.8⟩

/-- The same handles given out, and the same sockets alive; the queues may differ too. -/
structure SameHandles (k k' : Kernel) : Prop where
  opened : k'.opened = k.opened
  accepts : k'.accepts = k.accepts

instance : Chained SameHandles where
  refl _ := ⟨rfl, rfl⟩
  trans h₁ h₂ := ⟨h₂.1.trans h₁.1, h₂.2.trans h₁.2⟩

theorem SameSockets.handles {k k' : Kernel} (h : SameSockets k k') : SameHandles k k' :=
  ⟨h.opened, h.accepts⟩

/-- Scripts, replies, links and the record are no business of the sockets. -/
theorem sameSockets_with (k : Kernel) (script : Service → List Int) (replies : List Reply)
    (links : LinkTable) (events : List Event) :
    SameSockets k
      { k with script := script, replies := replies, links := links, events := events } :=
  ⟨rfl, rfl, rfl, rfl, rfl, rfl, rfl, rfl⟩

theorem sameSockets_noted (k : Kernel) (e : Event) : SameSockets k (k.noted e) :=
  sameSockets_with k _ _ _ _

theorem sameSockets_called (k : Kernel) (c : Call) (s : Service) : SameSockets k (k.called c s) :=
  sameSockets_with k _ _ _ _

/-- A relation that minds neither the record nor netlink replies nor scripts, as long as it is not
the link table that is called. -/
class Lenient (R : Kernel → Kernel → Prop) : Prop extends Chained R where
  logged : ∀ k t level text, R k (k.noted (.log t level text))
  recorded : ∀ k t c, (∀ r, c.service? ≠ some (.link r)) → R k (k.noted (.call t c))
  scripted : ∀ k s ns, (∀ r, s ≠ .link r) → R k { k with script := override k.script s ns }
  replied : ∀ k rs, R k { k with replies := rs }

instance : Lenient SameSockets where
  logged k _ _ _ := sameSockets_noted k _
  recorded k _ _ _ := sameSockets_noted k _
  scripted k _ _ _ := sameSockets_with k _ _ _ _
  replied k _ := sameSockets_with k _ _ _ _

section Chained

variable {R : Kernel → Kernel → Prop} [Chained R]

/-- What is kept by a call is kept by what becomes of its outcome. -/
theorem keeps_call_of {c : Call} (h : Keeps R (perform c)) : Keeps R (call c).run := by
  refine Keeps.bind_run (Keeps.lift_run h) fun n => ?_
  split
  · exact Keeps.throw_run _
  · exact Keeps.pure_run _

theorem keeps_knownCall_of {c : Call} (h : Keeps R (perform c)) : Keeps R (knownCall c).run := by
  refine Keeps.bind_run (Keeps.lift_run h) fun n => ?_
  split
  · exact Keeps.throw_run _
  · exact Keeps.pure_run _

theorem keeps_indexOf_of {name : String} (h : Keeps R (perform (.nameToIndex name))) :
    Keeps R (indexOf name).run := by
  unfold indexOf
  split
  · exact Keeps.throw_run _
  · refine Keeps.bind_run (keeps_knownCall_of h) fun _ => ?_
    refine Keeps.bind_run Keeps.get_run fun k => ?_
    split
    · split
      · exact Keeps.throw_run _
      · exact Keeps.pure_run _
    · exact Keeps.throw_run _

end Chained

section Lenient

variable {R : Kernel → Kernel → Prop} [Lenient R]

theorem Lenient.called (k : Kernel) {c : Call} {s : Service} (hc : c.service? = some s)
    (hs : ∀ r, s ≠ .link r) : R k (k.called c s) := by
  have hrecorded : R k (k.noted (.call k.thread c)) := Lenient.recorded k _ c fun r h => by
    rw [hc] at h
    exact hs r (Option.some.inj h)
  exact Chained.trans hrecorded (Lenient.scripted (k.noted (.call k.thread c)) s _ hs)

theorem keeps_log (level : LogLevel) (text : String) : Keeps R (log level text) :=
  fun k => Lenient.logged k _ _ _

theorem keeps_perform {c : Call} (h : ∀ r, c.service? ≠ some (.link r)) :
    Keeps R (perform c) := by
  intro k
  cases hc : c.service? with
  | none =>
    simp only [perform, hc, System.run_bind]
    exact Lenient.recorded k _ c h
  | some s =>
    rw [perform_run k hc]
    exact Lenient.called k hc fun r hr => h r (hr ▸ hc)

theorem keeps_call {c : Call} (h : ∀ r, c.service? ≠ some (.link r)) : Keeps R (call c).run :=
  keeps_call_of (keeps_perform h)

theorem keeps_knownCall {c : Call} (h : ∀ r, c.service? ≠ some (.link r)) :
    Keeps R (knownCall c).run := keeps_knownCall_of (keeps_perform h)

theorem keeps_sendAll (bs : List UInt8) : Keeps R (sendAll bs).run := by
  have hsends (k : Kernel) (t : Thread) (os : List (List UInt8)) :
      R k { k with events := k.events ++ os.map fun o => .call t (.send o) } := by
    induction os generalizing k with
    | nil => simpa using Chained.refl k
    | cons o os ih =>
      have hfirst : R k (k.noted (.call t (.send o))) := Lenient.recorded k t _ nofun
      simpa [noted] using Chained.trans hfirst (ih _)
  intro k
  rw [sendAll_run]
  refine Chained.trans (hsends k k.thread (transmission (k.script .send) bs).offers) ?_
  exact Lenient.scripted (R := R) { k with events := _ } .send _ nofun

theorem keeps_indexOf (name : String) : Keeps R (indexOf name).run :=
  keeps_indexOf_of (keeps_perform nofun)

end Lenient

end Kernel

/-! ## Netlink -/

namespace Netlink

open Kernel

variable {R : Kernel → Kernel → Prop}

/-- The relation holds over each call of an exchange, and over the loss of
a reply that was taken. -/
structure Serving (R : Kernel → Kernel → Prop) (r : Request) : Prop where
  socket : Keeps R (perform .netlinkSocket)
  bind : Keeps R (perform .netlinkBind)
  send : Keeps R (perform (.netlinkSend r.bytes))
  receive : Keeps R (perform .netlinkReceive)
  replied : ∀ k rs, R k { k with replies := rs }

theorem serving_of_lenient [Lenient R] (r : Request) : Serving R r :=
  ⟨keeps_perform nofun, keeps_perform nofun, keeps_perform nofun, keeps_perform nofun,
    Lenient.replied⟩

namespace Serving

variable [Chained R] {r : Request} (h : Serving R r)
include h

theorem nextReply : Keeps R nextReply.run := by
  refine Keeps.bind_run (keeps_call_of h.receive) fun _ => ?_
  intro k
  simp only [Fallible.run_bind, Fallible.run_get]
  cases k.replies with
  | nil => exact Chained.refl k
  | cons r rs => cases r <;> exact h.replied k rs

theorem roundTrip : Keeps R (roundTrip r).run :=
  Keeps.bind_run (keeps_call_of h.socket) fun _ => Keeps.bind_run (keeps_call_of h.bind) fun _ =>
    Keeps.bind_run (keeps_call_of h.send) fun _ => h.nextReply

theorem ask : Keeps R (ask r).run := by
  refine Keeps.bind_run (Keeps.lift_run h.roundTrip) fun received => ?_
  split
  · split
    · exact Keeps.pure_run _
    · exact Keeps.throw_run _
  · exact Keeps.throw_run _

theorem submit : Keeps R (submit r).run := by
  refine Keeps.bind_run h.ask fun body => ?_
  split
  · exact Keeps.pure_run _
  · exact Keeps.throw_run _
  · exact Keeps.throw_run _

end Serving

theorem keeps_details [Chained R] {index : UInt32} (h : Serving R (.query index)) :
    Keeps R (details index).run := by
  refine Keeps.bind_run h.ask fun body => ?_
  split
  · exact Keeps.pure_run _
  · exact Keeps.throw_run _
  · exact Keeps.throw_run _
  · split
    · exact Keeps.pure_run _
    · exact Keeps.throw_run _

end Netlink

/-! ## Links -/

open Kernel

namespace Controller

/-- What the controller does keeps the relation. -/
structure Keeping (R : Kernel → Kernel → Prop) (ctl : Controller) : Prop where
  resolve : ∀ name, Keeps R (ctl.resolve name).run
  apply : ∀ l c, Keeps R (ctl.apply l c).run

theorem keeps_netlinkResolve {R : Kernel → Kernel → Prop} [Chained R] {name : String}
    (hn : Keeps R (perform (.nameToIndex name)))
    (hq : ∀ index, Netlink.Serving R (.query index)) :
    Keeps R (netlink.resolve name).run := by
  refine Keeps.bind_run (Keeps.lift_run (keeps_indexOf_of hn)) fun index => ?_
  split
  · exact Keeps.throw_run _
  · refine Keeps.bind_run (Keeps.lift_run (Netlink.keeps_details (hq _))) fun d => ?_
    split
    · exact Keeps.throw_run _
    · exact Keeps.pure_run _

theorem keeps_netlinkApply {R : Kernel → Kernel → Prop} [Chained R] {l : Link} {c : LinkChange}
    (h : Netlink.Serving R (.ofChange l.index c)) : Keeps R (netlink.apply l c).run := by
  refine Keeps.bind_run (Keeps.lift_run h.submit) fun r => ?_
  split
  · exact Keeps.throw_run _
  · exact Keeps.pure_run _

theorem keeping_netlink {R : Kernel → Kernel → Prop} [Lenient R] : netlink.Keeping R where
  resolve _ := keeps_netlinkResolve (keeps_perform nofun) fun _ => Netlink.serving_of_lenient _
  apply _ _ := keeps_netlinkApply (Netlink.serving_of_lenient _)

theorem sameSockets_tableCall {r : LinkRequest} {c : Kernel.Call}
    (h : c.service? = some (.link r)) : Keeps SameSockets (tableCall r c).run := by
  refine Keeps.bind_run (Keeps.lift_run fun k => ?_) fun n => ?_
  · rw [perform_run k h]
    exact sameSockets_called k c _
  dsimp only
  have hpos : Keeps SameSockets
      (if 0 < n then throw .notOpen else pure () : Operation Unit).run := by
    split
    · exact Keeps.throw_run _
    · exact Keeps.pure_run _
  by_cases hn : n < 0
  · simp only [hn, if_true]
    exact Keeps.bind_run (Keeps.throw_run _) fun _ => hpos
  · simp only [hn, if_false]
    exact hpos

theorem service_callOf (index : UInt32) (c : LinkChange) :
    (callOf index c).service? = some (.link (requestOf c)) := by
  cases c <;> rfl

/-- Links are no business of the sockets. -/
theorem keeping_sameSockets : ∀ ctl : Controller, ctl.Keeping SameSockets
  | .netlink => keeping_netlink
  | .table =>
    { resolve := fun name => by
        refine Keeps.bind_run (sameSockets_tableCall rfl) fun _ => ?_
        refine Keeps.bind_run Keeps.get_run fun k => ?_
        split
        · exact Keeps.pure_run _
        · exact Keeps.throw_run _
      apply := fun l c => by
        refine Keeps.bind_run (sameSockets_tableCall (service_callOf _ _)) fun _ => ?_
        intro k
        simp only [Fallible.run_bind, Fallible.run_get]
        cases k.links.change? l.index c with
        | none => exact Chained.refl k
        | some t => exact sameSockets_with k _ _ _ _ }

end Controller

namespace Link

theorem setBitrate_of_foreign {l : Link} (h : l.isCan = false) (ctl : Controller) (value : UInt32) :
    setBitrate ctl l value = throw (.notCanLink l.name) := by
  rw [setBitrate, h]
  rfl

section Chained

variable {R : Kernel → Kernel → Prop} [Chained R] {ctl : Controller}

/-- Apart from the request only the log changes. -/
theorem keeps_change_of (hlog : ∀ level text, Keeps R (log level text)) {l : Link}
    {c : LinkChange} (h : Keeps R (ctl.apply l c).run) : Keeps R (change ctl l c).run := by
  unfold change
  split
  · exact Keeps.pure_run _
  · refine Keeps.bind_run (Keeps.tryCatch_run h fun f => ?_) fun _ => ?_
    · refine Keeps.bind_run (Keeps.lift_run ?_) fun _ => Keeps.throw_run _
      cases c <;> first | exact hlog _ _ | exact Keeps.pure _
    · refine Keeps.bind_run (Keeps.lift_run ?_) fun _ => Keeps.pure_run _
      cases c <;> exact hlog _ _

theorem keeps_setBitrate_of {l : Link} {value : UInt32}
    (h : Keeps R (change ctl l (.bitrate value)).run) : Keeps R (setBitrate ctl l value).run := by
  unfold setBitrate
  split
  · exact h
  · exact Keeps.throw_run _

theorem keeps_attempt (l : Link) {step : Operation (Link × Bool)} (h : Keeps R step.run) :
    Keeps R (attempt l step) :=
  Keeps.bind h fun r => match r with
    | .ok _ => Keeps.pure _
    | .error _ => Keeps.pure _

/-- To ready a link is to look it up and to make three kinds of changes. -/
theorem keeps_prepare_of {name : String} {bitrate queueLength : UInt32}
    (hr : Keeps R (ctl.resolve name).run)
    (hb : ∀ l, Keeps R (change ctl l (.bitrate bitrate)).run)
    (hq : ∀ l, Keeps R (change ctl l (.queueLength queueLength)).run)
    (hu : ∀ l, Keeps R (change ctl l (.admin true)).run) :
    Keeps R (prepare ctl name bitrate queueLength).run := by
  refine Keeps.bind_run hr fun l => ?_
  refine Keeps.bind_run (Keeps.lift_run (keeps_attempt _ (keeps_setBitrate_of (hb _)))) fun p => ?_
  refine Keeps.bind_run (Keeps.lift_run (keeps_attempt _ (hq _))) fun q => ?_
  refine Keeps.bind_run (Keeps.lift_run (keeps_attempt _ (hu _))) fun ⟨l', f⟩ => ?_
  dsimp only
  split
  · exact Keeps.throw_run _
  · exact Keeps.pure_run _

end Chained

variable {R : Kernel → Kernel → Prop} [Lenient R] {ctl : Controller}

theorem keeps_change (h : ctl.Keeping R) (l : Link) (c : LinkChange) :
    Keeps R (change ctl l c).run := keeps_change_of keeps_log (h.apply l c)

theorem keeps_prepare (h : ctl.Keeping R) (name : String) (bitrate queueLength : UInt32) :
    Keeps R (prepare ctl name bitrate queueLength).run :=
  keeps_prepare_of (h.resolve name) (fun l => keeps_change h l _) (fun l => keeps_change h l _)
    fun l => keeps_change h l _

theorem keeps_reconfigure (h : ctl.Keeping R) (name : String) (bitrate queueLength : UInt32) :
    Keeps R (reconfigure ctl name bitrate queueLength).run := by
  refine Keeps.bind_run (h.resolve name) fun l => ?_
  refine Keeps.bind_run (keeps_change h _ _) fun p => ?_
  refine Keeps.bind_run (keeps_setBitrate_of (keeps_change h _ _)) fun q => ?_
  exact Keeps.bind_run (keeps_change h _ _) fun r => Keeps.pure_run _

end Link

end CanBus
