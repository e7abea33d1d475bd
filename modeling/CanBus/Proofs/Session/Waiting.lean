import CanBus.Proofs.Session.World

/-!
How long a session waits. A wait of so many nanoseconds becomes a timeout in milliseconds;
`ceilMillis` is the rounding of the whole, and `waitMillis_add_lost` says where the timeout falls
short of it. `Waits` follows the timeouts through a program. Main statement: `waits_lose_nanos`,
over any history of a session.
-/

namespace CanBus

open Kernel

/-! ## Milliseconds -/

namespace Settings

/-- The least whole number of milliseconds that is no shorter, up to the longest timeout. -/
def ceilMillis (nanos : Nat) : Nat := min ((nanos + 999999) / 1000000) 65535

/-- What goes beyond whole milliseconds is less than a microsecond. -/
def FallsShort (nanos : Nat) : Prop :=
  0 < nanos % 1000000 ∧ nanos % 1000000 < 1000 ∧ nanos < 65535000000

instance (nanos : Nat) : Decidable (FallsShort nanos) :=
  inferInstanceAs (Decidable (_ ∧ _ ∧ _))

theorem toNat_waitMillis (nanos : Nat) :
    (waitMillis nanos).toNat = min ((nanos / 1000 + 999) / 1000) 65535 := by
  have hlt : min ((nanos / 1000 + 999) / 1000) 65535 < UInt16.size :=
    Nat.lt_of_le_of_lt (Nat.min_le_right _ _) (by decide)
  exact UInt16.toNat_ofNat_of_lt' hlt

theorem waitMillis_add_lost (nanos : Nat) :
    (waitMillis nanos).toNat + (if FallsShort nanos then 1 else 0) = ceilMillis nanos := by
  rw [toNat_waitMillis, ceilMillis]
  by_cases h : FallsShort nanos
  · obtain ⟨hpos, hlt, hcap⟩ := h
    rw [if_pos ⟨hpos, hlt, hcap⟩]
    omega
  · rw [if_neg h]
    simp only [FallsShort] at h
    omega

theorem waitMillis_eq_zero_iff (nanos : Nat) : waitMillis nanos = 0 ↔ nanos < 1000 := by
  rw [← UInt16.toNat_inj, toNat_waitMillis, UInt16.toNat_zero]
  omega

/-- Up to the longest timeout, less than a microsecond is missing. -/
theorem lt_waitMillis (nanos : Nat) :
    min nanos 65535000000 < (waitMillis nanos).toNat * 1000000 + 1000 := by
  rw [toNat_waitMillis]
  omega

end Settings

/-! ## Timeouts of a program -/

/-- The call says how long it may take. -/
def Kernel.Call.isTimed : Kernel.Call → Bool
  | .poll _ | .epollWait _ => true
  | _ => false

/-- The calls with a timeout among those made since. -/
def Kernel.timedSince (k k' : Kernel) : List Kernel.Call :=
  (k'.calls.drop k.calls.length).filter Call.isTimed

/-- Calls were made, and those with a timeout are `cs`. -/
def Waits (cs : List Kernel.Call) (k k' : Kernel) : Prop :=
  ∃ ds, k'.calls = k.calls ++ ds ∧ ds.filter Call.isTimed = cs

namespace Waits

variable {k k₁ k' : Kernel} {cs cs' : List Kernel.Call}

theorem of_same (h : k'.calls = k.calls) : Waits [] k k' :=
  ⟨[], h.trans (List.append_nil _).symm, rfl⟩

theorem append (h : Waits cs k k₁) (h' : Waits cs' k₁ k') : Waits (cs ++ cs') k k' := by
  obtain ⟨ds, hd, rfl⟩ := h
  obtain ⟨ds', hd', rfl⟩ := h'
  exact ⟨ds ++ ds', by rw [hd', hd, List.append_assoc], List.filter_append _ _⟩

theorem extend (h : Waits cs k k₁) (h' : Waits [] k₁ k') : Waits cs k k' := by
  rw [← List.append_nil cs]
  exact h.append h'

theorem timedSince (h : Waits cs k k') : k.timedSince k' = cs := by
  obtain ⟨ds, hd, rfl⟩ := h
  rw [Kernel.timedSince, hd, List.drop_left]

theorem called (k : Kernel) (c : Kernel.Call) (s : Service) :
    Waits ([c].filter Call.isTimed) k (k.called c s) := ⟨[c], calls_called k c s, rfl⟩

end Waits

instance : Chained (Waits []) where
  refl _ := .of_same rfl
  trans := Waits.extend

theorem Kernel.waits_done {c : Kernel.Call} {s : Service} (hc : c.service? = some s)
    (ht : c.isTimed = false) :
    Keeps (Waits []) (knownCall c >>= fun _ => pure () : Syscall Unit).run := by
  intro k
  have hcalled := Waits.called k c s
  rw [List.filter_cons, ht] at hcalled
  rw [knownCall_done k hc]
  exact hcalled

namespace Session

theorem waits_log (level : LogLevel) (text : String) : Steady (Waits []) (log level text) :=
  fun _ k => .of_same (calls_logged k _ _ _)

theorem waits_logThen {α : Type} (level : LogLevel) (text : String) (a : α) :
    Steady (Waits []) (do log level text; return a : SessionM α) :=
  Steady.bind (waits_log level text) fun _ => Steady.pure a

theorem waits_close : Steady (Waits []) close := by
  have hshut (h : Handle) : Keeps (Waits []) (shutdown h).run := by
    intro k
    rw [shutdown_run]
    exact Waits.called k .shutdown .shutdown
  refine Steady.bind Steady.get fun s => ?_
  cases s.channel with
  | none => exact Steady.pure _
  | some c =>
    refine Steady.bind (Steady.set _) fun _ => Steady.bind (Steady.lift (hshut _)) fun r => ?_
    cases r with
    | ok u => exact waits_log _ _
    | error e => exact Steady.bind (waits_log _ _) fun _ => waits_log _ _

theorem waits_read (c : Socket) : Keeps (Waits []) c.read.run := by
  intro k
  obtain ⟨e, -, hr⟩ | ⟨d, ds, -, -, hr⟩ := read_cases c k
  · rw [hr]
    exact Waits.called k .receive .receive
  · rw [hr]
    exact Waits.called k .receive .receive

theorem waits_ingest (w : WireFrame) : Steady (Waits []) (ingest w) := by
  refine Steady.bind (Steady.modify _) fun _ => ?_
  cases w.decode with
  | data f => exact Steady.bind (Steady.modify _) fun _ => waits_logThen _ _ _
  | error r =>
    exact Steady.bind (waits_log _ _) fun _ => Steady.bind (Steady.modify _) fun _ => Steady.pure _

/-- One wait before the read, if there is a socket to read from. -/
theorem waits_tryReceive (s : Session) (k : Kernel) :
    Waits (if s.isOpen then [.poll (Settings.waitMillis s.settings.receiveWait)] else []) k
      ((tryReceive.run s).run k).2 := by
  unfold tryReceive isOpen
  rw [Stateful.run_bind, Stateful.run_get]
  cases hc : s.channel with
  | none => exact .of_same rfl
  | some c =>
    let millis := Settings.waitMillis s.settings.receiveWait
    have hwait : (c.waitReadable s.settings.receiveWait).run.run k = _ :=
      Kernel.poll_run k c.handle millis
    have hpolled : Waits [.poll millis] k (k.called (.poll millis) .poll) := .called k _ _
    dsimp only
    rw [Stateful.run_bind, Stateful.run_lift, hwait]
    refine hpolled.extend ?_
    dsimp only
    split
    · exact .of_same rfl
    · exact .of_same rfl
    · refine Steady.bind (Steady.lift (waits_read c)) (fun r => ?_) s _
      match r with
      | .error e => exact Steady.pure _
      | .ok (.short n) => exact Steady.pure _
      | .ok (.frame w) => exact Steady.bind (waits_ingest w) fun _ => Steady.pure _

theorem waits_receive (s : Session) (k : Kernel) :
    Waits (if s.isOpen then [.poll (Settings.waitMillis s.settings.receiveWait)] else []) k
      ((receive.run s).run k).2 := by
  unfold receive
  rw [Stateful.run_bind]
  refine (waits_tryReceive s k).extend ?_
  cases ((tryReceive.run s).run k).1.1 with
  | ok f => exact .of_same rfl
  | error f => exact waits_logThen _ _ _ _ _

end Session

namespace Reader

/-- The next step is a wait that has something to report. -/
def looks (k : Kernel) : Reader → Bool
  | .running c .wait => k.hasNews c.handle
  | _ => false

theorem waits_start : Steady (Waits []) start := by
  refine Steady.bind Steady.get fun s => ?_
  cases s.channel with
  | none => exact Steady.pure _
  | some c =>
    have hsetup : Keeps (Waits []) (do epollCreate; epollAdd : Syscall Unit).run :=
      Keeps.bind_run (waits_done rfl rfl) fun _ => waits_done rfl rfl
    refine Steady.bind (Steady.lift hsetup) fun r => ?_
    cases r with
    | error e => exact Session.waits_logThen _ _ _
    | ok u => exact Session.waits_logThen _ _ _

theorem waits_check (c : Socket) : Steady (Waits []) (check c) := by
  refine Steady.bind Steady.get fun s => ?_
  split
  · refine Steady.bind (Steady.lift (waits_done rfl rfl)) fun r => ?_
    cases r with
    | ok u => exact Session.waits_logThen _ _ _
    | error e => exact Steady.bind (Session.waits_log _ _) fun _ => Session.waits_logThen _ _ _
  · exact Steady.pure _

theorem waits_wait (c : Socket) (s : Session) (k : Kernel) :
    Waits
      (if k.hasNews c.handle then [.epollWait (Settings.waitMillis s.settings.pollWait)] else [])
      k (((wait c).run s).run k).2 := by
  unfold wait
  rw [Stateful.run_bind, Stateful.run_lift, System.run_get]
  dsimp only
  by_cases hn : k.hasNews c.handle = true
  · let millis := Settings.waitMillis s.settings.pollWait
    have hwaited : Waits [.epollWait millis] k (k.called (.epollWait millis) .epollWait) :=
      .called k _ _
    rw [if_pos hn, if_pos hn, Stateful.run_bind, Stateful.run_get]
    dsimp only
    rw [Stateful.run_bind, Stateful.run_lift, epollWait_run]
    refine hwaited.extend ?_
    dsimp only
    split
    · exact .of_same rfl
    · exact Session.waits_logThen _ _ _ _ _
  · rw [if_neg hn, if_neg hn, Stateful.run_bind, Stateful.run_lift, outcome_run]
    dsimp only
    split <;> exact .of_same rfl

theorem waits_readOne (c : Socket) : Steady (Waits []) (readOne c) := by
  refine Steady.bind (Steady.lift (Session.waits_read c)) fun r => ?_
  match r with
  | .ok (.frame w) => exact Session.waits_ingest w
  | .ok (.short n) => exact Session.waits_logThen _ _ _
  | .error e => exact Session.waits_logThen _ _ _

theorem waits_step (r : Reader) (s : Session) (k : Kernel) :
    Waits (if r.looks k then [.epollWait (Settings.waitMillis s.settings.pollWait)] else []) k
      ((r.step.run s).run k).2 := by
  match r with
  | .starting => exact Steady.bind waits_start (fun _ => Steady.pure _) s k
  | .running c .check => exact Steady.bind (waits_check c) (fun _ => Steady.pure _) s k
  | .running c .wait => exact waits_wait c s k
  | .running c (.serve []) => exact .of_same rfl
  | .running c (.serve (.foreign :: news)) => exact .of_same rfl
  | .running c (.serve (.readable :: news)) =>
    exact Steady.bind (waits_readOne c) (fun _ => Steady.pure _) s k
  | .ended ran => exact .of_same rfl

end Reader

/-! ## Settings -/

namespace World

theorem Change.settings {s s' : Session} {k k' : Kernel} {o : Option Occurrence}
    (h : Change s k o s' k') : s'.settings = s.settings := by
  cases h with
  | read hk ht =>
    rw [ht.withHealth]
    rfl
  | closed ho => exact s.settings_closed
  | tuned b r ho => cases r <;> exact s.settings_closed
  | _ => rfl

theorem settings_run (w : World) (as : List Action) :
    (w.run as).session.settings = w.session.settings := by
  induction as generalizing w with
  | nil => rfl
  | cons a as ih => exact (ih (w.step a)).trans (w.step_change a).settings

end World

/-! ## Whole polls -/

/-- Whatever it does, the program waits with the timeout of a poll only, and keeps the settings. -/
def PollsBy {α : Type} (settings : Settings) (m : SessionM α) : Prop :=
  ∀ s k, s.settings = settings → ((m.run s).run k).1.2.settings = settings ∧
    ∃ n, Waits (List.replicate n (.epollWait (Settings.waitMillis settings.pollWait))) k
      ((m.run s).run k).2

namespace PollsBy

variable {α β : Type} {settings : Settings}

theorem pure (a : α) : PollsBy settings (Pure.pure a : SessionM α) :=
  fun _ _ h => ⟨h, 0, .of_same rfl⟩

theorem bind {m : SessionM α} {f : α → SessionM β} (hm : PollsBy settings m)
    (hf : ∀ a, PollsBy settings (f a)) : PollsBy settings (m >>= f) := by
  intro s k h
  rw [Stateful.run_bind]
  obtain ⟨h₁, n, hn⟩ := hm s k h
  obtain ⟨h₂, n', hn'⟩ :=
    hf ((m.run s).run k).1.1 ((m.run s).run k).1.2 ((m.run s).run k).2 h₁
  refine ⟨h₂, n + n', ?_⟩
  rw [← List.replicate_append_replicate]
  exact hn.append hn'

end PollsBy

theorem Session.pollsBy_close (settings : Settings) : PollsBy settings close := by
  intro s k h
  have hsettings := (World.step_change ⟨s, k, []⟩ .close).settings
  exact ⟨hsettings.trans h, 0, waits_close s k⟩

namespace Reader

variable (settings : Settings)

theorem pollsBy_step (r : Reader) : PollsBy settings r.step := by
  intro s k h
  have hsettings := (World.step_change ⟨s, k, [r]⟩ (.stepReader 0)).settings
  have hwaits := r.waits_step s k
  rw [h] at hwaits
  refine ⟨hsettings.trans h, ?_⟩
  cases hl : r.looks k with
  | false => exact ⟨0, by rwa [hl] at hwaits⟩
  | true => exact ⟨1, by rwa [hl] at hwaits⟩

theorem pollsBy_drain (limit : Option Nat) (n : Nat) (r : Reader) (fs : List Frame) :
    PollsBy settings (drain limit n r fs) := by
  induction n generalizing r fs with
  | zero => exact .pure _
  | succ n ih =>
    refine (pollsBy_step settings r).bind fun ⟨r', p⟩ => ?_
    match p with
    | .idle => exact .pure _
    | .moved none => exact ih r' fs
    | .moved (some f) =>
      dsimp only
      split
      · exact (Session.pollsBy_close settings).bind fun _ => ih r' _
      · exact ih r' _

theorem pollsBy_run (limit : Option Nat) (r : Reader) : PollsBy settings (run limit r) :=
  PollsBy.bind (fun _ _ h => ⟨h, 0, .of_same rfl⟩) fun _ => pollsBy_drain settings limit _ r []

end Reader

theorem Session.pollsBy_poll (settings : Settings) (limit : Option Nat) :
    PollsBy settings (poll limit) := by
  refine (Reader.pollsBy_run settings limit .starting).bind fun ⟨r, fs⟩ => ?_
  cases r with
  | ended ran => exact .pure _
  | starting | running =>
    refine (pollsBy_close settings).bind fun _ => ?_
    exact (Reader.pollsBy_run settings none _).bind fun _ => .pure _

/-! ## Waits of a session -/

namespace World

/-- Waits are rounded up to milliseconds, but from whole microseconds: the rest below one is lost,
so that a timeout can be a millisecond short and a short wait none at all. -/
theorem waits_lose_nanos (name : String) (settings : Settings) (controller : Controller)
    (k : Kernel) (as : List Action) :
    let w := (start name settings controller k).run as
    let receiving := if w.session.isOpen then [.poll (Settings.waitMillis settings.receiveWait)]
      else []
    let polling := Kernel.Call.epollWait (Settings.waitMillis settings.pollWait)
    (∀ nanos, (Settings.waitMillis nanos).toNat + (if Settings.FallsShort nanos then 1 else 0) =
        Settings.ceilMillis nanos ∧
      (Settings.waitMillis nanos = 0 ↔ nanos < 1000) ∧
      min nanos 65535000000 < (Settings.waitMillis nanos).toNat * 1000000 + 1000) ∧
    w.kernel.timedSince (w.step .tryReceive).kernel = receiving ∧
    w.kernel.timedSince (w.step .receive).kernel = receiving ∧
    (∀ i, w.kernel.timedSince (w.step (.stepReader i)).kernel =
      if w.readers[i]?.any (·.looks w.kernel) then [polling] else []) ∧
    ∀ limit, ∃ n, w.kernel.timedSince (((Session.poll limit).run w.session).run w.kernel).2 =
      List.replicate n polling := by
  intro w receiving polling
  have hsettings : w.session.settings = settings := settings_run _ as
  refine ⟨fun nanos => ⟨?_, ?_, ?_⟩, ?_, ?_, ?_, ?_⟩
  · exact Settings.waitMillis_add_lost nanos
  · exact Settings.waitMillis_eq_zero_iff nanos
  · exact Settings.lt_waitMillis nanos
  · have h := (Session.waits_tryReceive w.session w.kernel).timedSince
    rwa [hsettings] at h
  · have h := (Session.waits_receive w.session w.kernel).timedSince
    rwa [hsettings] at h
  · intro i
    cases hr : w.readers[i]? with
    | none =>
      have hstep : w.step (.stepReader i) = w := by simp only [step, hr]
      rw [hstep]
      exact (Waits.of_same rfl).timedSince
    | some r =>
      have hstep : (w.step (.stepReader i)).kernel = ((r.step.run w.session).run w.kernel).2 := by
        simp only [step, hr, after]
      have h := (r.waits_step w.session w.kernel).timedSince
      rw [hsettings] at h
      rw [hstep]
      exact h
  · intro limit
    obtain ⟨-, n, hn⟩ := Session.pollsBy_poll settings limit w.session w.kernel hsettings
    exact ⟨n, hn.timedSince⟩

/-- With waits of a nanosecond a session looks whether there is a frame,
and doesn't wait for one. -/
theorem short_wait_is_none :
    let settings := { Settings.standard with receiveWait := 1, pollWait := 1 }
    let k : Kernel := { interfaces := [("can0", 3)], waiting := [[], []] }
    let w := (start "can0" settings .table k).run [.tryOpen]
    Settings.ceilMillis 1 = 1 ∧ Settings.waitMillis 1 = 0 ∧
      w.kernel.timedSince (w.step .tryReceive).kernel = [.poll 0] ∧
      w.kernel.timedSince (((Session.poll none).run w.session).run w.kernel).2 =
        [.epollWait 0, .epollWait 0] := by
  decide +kernel

end World

end CanBus
