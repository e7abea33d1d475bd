import CanBus.Proofs.Link.Own
import CanBus.Proofs.Node.Requests
import CanBus.Proofs.Session.Window

/-!
The links that a session changes. Every operation looks its link up anew before it asks for changes,
so with distinct indices it changes no entry but the one that has the name of the session at that
time, however the table may have been shuffled since the operation before (`own_link_only`).
-/

namespace CanBus

open Kernel

/-! ## Names -/

/-- No action gives a session another name. -/
theorem World.Change.name {s s' : Session} {k k' : Kernel} {o : Option Occurrence}
    (h : Change s k o s' k') : s'.name = s.name := by
  cases h with
  | read hk ht =>
    rw [ht.withHealth]
    rfl
  | closed ho => exact s.name_closed
  | tuned b r ho => cases r <;> exact s.name_closed
  | _ => rfl

theorem World.name_step (w : World) (a : Action) : (w.step a).session.name = w.session.name :=
  (w.step_change a).name

/-! ## Programs with a name in their state -/

/-- From whatever state it starts, the program keeps the name in it, and of the links it changes
only the one that has this name. -/
def Minds {σ α : Type} (nameOf : σ → String) (m : StateT σ System α) : Prop :=
  ∀ s k, nameOf ((m.run s).run k).1.2 = nameOf s ∧ Tends (nameOf s) k ((m.run s).run k).2

namespace Minds

variable {σ α β : Type} {nameOf : σ → String}

theorem pure (a : α) : Minds nameOf (Pure.pure a : StateT σ System α) :=
  fun _ _ => ⟨rfl, .of_same rfl⟩

theorem get : Minds nameOf (MonadState.get : StateT σ System σ) :=
  fun _ _ => ⟨rfl, .of_same rfl⟩

theorem modify {f : σ → σ} (h : ∀ s, nameOf (f s) = nameOf s) :
    Minds nameOf (modify f : StateT σ System Unit) := fun s _ => ⟨h s, .of_same rfl⟩

theorem of_asks {m : StateT σ System α} (h : Steady (Asks []) m)
    (hn : ∀ s k, nameOf ((m.run s).run k).1.2 = nameOf s) : Minds nameOf m :=
  fun s k => ⟨hn s k, (h s k).tends _⟩

theorem bind {m : StateT σ System α} {f : α → StateT σ System β} (hm : Minds nameOf m)
    (hf : ∀ a, Minds nameOf (f a)) : Minds nameOf (m >>= f) := by
  intro s k
  rw [Stateful.run_bind]
  obtain ⟨hn, ht⟩ := hm s k
  obtain ⟨hn', ht'⟩ := hf ((m.run s).run k).1.1 ((m.run s).run k).1.2 ((m.run s).run k).2
  rw [hn] at hn' ht'
  exact ⟨hn', ht.trans ht'⟩

end Minds

/-! ## Sessions -/

namespace Session

theorem minds_log (level : LogLevel) (text : String) : Minds Session.name (log level text) :=
  .of_asks (asks_log level text) fun _ _ => rfl

theorem minds_close : Minds Session.name close :=
  .of_asks asks_close fun s k => World.name_step ⟨s, k, []⟩ .close

theorem minds_trySend (id : UInt32) (extended : Bool) (len : Nat) (payload : List UInt8) :
    Minds Session.name (trySend id extended len payload) :=
  .of_asks (asks_trySend id extended len payload)
    fun s k => World.name_step ⟨s, k, []⟩ (.trySend id extended len payload)

theorem minds_tryReceive : Minds Session.name tryReceive :=
  .of_asks asks_tryReceive fun s k => World.name_step ⟨s, k, []⟩ .tryReceive

theorem minds_busLoad : Minds Session.name busLoad :=
  .of_asks asks_busLoad fun s k => World.name_step ⟨s, k, []⟩ .busLoad

theorem minds_readerStep (r : Reader) : Minds Session.name r.step :=
  .of_asks r.asks_step fun s k => World.name_step ⟨s, k, [r]⟩ (.stepReader 0)

theorem tends_linked (s : Session) (k : Kernel) : Tends s.name k (s.linked k) :=
  Link.tends_prepare s.controller s.name s.bitrate s.settings.queueLength k

theorem minds_tryOpen : Minds Session.name tryOpen := by
  intro s k
  refine ⟨World.name_step ⟨s, k, []⟩ .tryOpen, ?_⟩
  cases hc : s.channel with
  | some c =>
    rw [tryOpen_open hc]
    exact .of_same rfl
  | none =>
    have hattach (k₁ : Kernel) : Tends s.name k₁ (((attach s).run s).run k₁).2 :=
      (asks_attach s s k₁).tends s.name
    obtain h | ⟨text, h⟩ := tryOpen_linked hc k
    · rw [h]
      exact (s.tends_linked k).trans (hattach _)
    · rw [h]
      refine (s.tends_linked k).trans (Tends.trans ?_ (hattach _))
      exact .of_same rfl

theorem minds_trySetBitrate (b : UInt32) : Minds Session.name (trySetBitrate b) := by
  intro s k
  refine ⟨World.name_step ⟨s, k, []⟩ (.trySetBitrate b), ?_⟩
  rw [trySetBitrate_run]
  exact (minds_close s k).2.trans (Link.tends_reconfigure _ _ _ _ _)

theorem minds_drop : Minds Session.name drop := by
  intro s k
  refine ⟨World.name_step ⟨s, k, []⟩ .drop, ?_⟩
  obtain ⟨-, hclose⟩ := minds_close s k
  obtain ⟨k₁, hr, -⟩ := close_effect s k
  rw [hr] at hclose
  refine hclose.trans ?_
  unfold drop
  rw [Stateful.run_bind, hr]
  dsimp only
  rw [Stateful.run_bind, Stateful.run_get]
  dsimp only
  split
  · rw [Stateful.run_bind, Stateful.run_lift, name_closed]
    have hl := (s.closed.controller.asks_resolve s.name).tends s.name k₁
    rcases h : (s.closed.controller.resolve s.name).run.run k₁ with ⟨f | l, k₂⟩
    · rw [h] at hl
      exact hl
    · exact Link.tends_takeDown s.closed.controller h
  · exact .of_same rfl

theorem minds_openUp : Minds Session.name openUp := by
  refine minds_tryOpen.bind fun r => ?_
  cases r with
  | ok u => exact .pure _
  | error f => exact (minds_log _ _).bind fun _ => .pure _

theorem minds_setBitrate (b : UInt32) : Minds Session.name (setBitrate b) := by
  refine (minds_trySetBitrate b).bind fun r => ?_
  cases r with
  | ok u => exact .pure _
  | error f => exact (minds_log _ _).bind fun _ => .pure _

theorem minds_send (id : UInt32) (extended : Bool) (len : Nat) (payload : List UInt8) :
    Minds Session.name (send id extended len payload) := by
  refine (minds_trySend id extended len payload).bind fun r => ?_
  cases r <;> exact .pure _

theorem minds_receive : Minds Session.name receive := by
  refine minds_tryReceive.bind fun r => ?_
  cases r with
  | ok f => exact .pure _
  | error f => exact (minds_log _ _).bind fun _ => .pure _

end Session

namespace Reader

theorem minds_drain (limit : Option Nat) (n : Nat) (r : Reader) (fs : List Frame) :
    Minds Session.name (drain limit n r fs) := by
  induction n generalizing r fs with
  | zero => exact .pure _
  | succ n ih =>
    refine (Session.minds_readerStep r).bind fun ⟨r', p⟩ => ?_
    match p with
    | .idle => exact .pure _
    | .moved none => exact ih r' fs
    | .moved (some f) =>
      dsimp only
      split
      · exact Session.minds_close.bind fun _ => ih r' _
      · exact ih r' _

theorem minds_run (limit : Option Nat) (r : Reader) : Minds Session.name (run limit r) :=
  Minds.bind (fun _ _ => ⟨rfl, .of_same rfl⟩) fun _ => minds_drain limit _ r []

end Reader

theorem Session.minds_poll (limit : Option Nat) : Minds Session.name (poll limit) := by
  refine (Reader.minds_run limit .starting).bind fun ⟨r, fs⟩ => ?_
  cases r with
  | ended ran => exact .pure _
  | starting | running =>
    exact minds_close.bind fun _ => (Reader.minds_run none _).bind fun _ => .pure _

/-! ## Nodes -/

namespace Node

/-- The name of the session of a node. -/
def name (n : Node) : String := n.session.name

theorem minds_onSession {α : Type} {m : SessionM α} (h : Minds Session.name m) :
    Minds Node.name (onSession m) := fun n => h n.session

theorem minds_readerStep : Minds Node.name readerStep := by
  refine .of_asks asks_readerStep fun n k => ?_
  cases hr : n.reader with
  | none =>
    rw [readerStep, Stateful.run_bind, Stateful.run_get, hr]
    rfl
  | some r =>
    obtain ⟨more, r', fs, s', k', hrun, ht, -⟩ := readerStep_turned n k hr
    rw [hrun]
    show s'.name = n.session.name
    rw [ht.session]
    rfl

theorem minds_settleWithin (n : Nat) : Minds Node.name (settleWithin n) := by
  induction n with
  | zero => exact .pure _
  | succ n ih =>
    refine minds_readerStep.bind fun more => ?_
    split
    · exact ih
    · exact .pure _

theorem minds_stop : Minds Node.name stop :=
  (minds_onSession Session.minds_close).bind fun _ =>
    (Minds.bind (fun _ _ => ⟨rfl, .of_same rfl⟩) fun _ => minds_settleWithin _).bind fun _ =>
      .modify fun _ => rfl

theorem minds_retune (b : UInt32) : Minds Node.name (retune b) := by
  refine (minds_onSession (Session.minds_setBitrate b)).bind fun changed => ?_
  cases changed with
  | true => exact minds_onSession (Session.minds_log _ _)
  | false => exact Minds.get.bind fun _ => minds_onSession (Session.minds_log _ _)

theorem minds_reopen : Minds Node.name reopen := minds_onSession Session.minds_tryOpen

theorem minds_enable (b : UInt32) : Minds Node.name (enable b) := by
  rw [enable_eq]
  refine minds_stop.bind fun _ => (minds_retune b).bind fun _ => ?_
  refine Minds.bind (Minds.modify fun _ => rfl) fun _ => minds_reopen.bind fun r => ?_
  cases r with
  | error f => exact .pure _
  | ok u => exact Minds.bind (Minds.modify fun _ => rfl) fun _ => .pure _

theorem minds_send (f : Frame) : Minds Node.name (send f) := by
  refine Minds.get.bind fun n => ?_
  split
  · exact .pure _
  · split
    · exact .pure _
    · exact minds_onSession (Session.minds_trySend _ _ _ _)

theorem minds_read : Minds Node.name read := fun _ _ => ⟨rfl, .of_same rfl⟩

theorem minds_drop : Minds Node.name drop :=
  minds_stop.bind fun _ => minds_onSession Session.minds_drop

theorem minds_perform (c : NodeCall) : Minds Node.name c.perform := by
  cases c with
  | enable b => exact (minds_enable b).bind fun _ => .pure _
  | close => exact minds_stop.bind fun _ => .pure _
  | send f => exact (minds_send f).bind fun _ => .pure _
  | reset => exact (minds_onSession (Session.minds_log _ _)).bind fun _ => .pure _
  | read => exact minds_read.bind fun _ => .pure _

end Node

/-! ## Histories -/

namespace World

/-- What an activity leaves of the name and of the table. -/
theorem perform_minds (w : World) (x : Activity) :
    (w.perform x).session.name = w.session.name ∧
      ((∀ k, x ≠ .act (.elsewhere k)) →
        Tends w.session.name w.kernel (w.perform x).kernel) := by
  have hafter {α : Type} {m : SessionM α} (h : Minds Session.name m) :
      (w.after m).session.name = w.session.name ∧
        ((∀ k, x ≠ .act (.elsewhere k)) → Tends w.session.name w.kernel (w.after m).kernel) :=
    ⟨(h w.session w.kernel).1, fun _ => (h w.session w.kernel).2⟩
  cases x with
  | poll limit => exact hafter (Session.minds_poll limit)
  | act a =>
    cases a with
    | tryOpen => exact hafter Session.minds_tryOpen
    | openUp => exact hafter Session.minds_openUp
    | close => exact hafter Session.minds_close
    | trySetBitrate b => exact hafter (Session.minds_trySetBitrate b)
    | setBitrate b => exact hafter (Session.minds_setBitrate b)
    | trySend id extended len payload =>
      exact hafter (Session.minds_trySend id extended len payload)
    | send id extended len payload => exact hafter (Session.minds_send id extended len payload)
    | tryReceive => exact hafter Session.minds_tryReceive
    | receive => exact hafter Session.minds_receive
    | busLoad => exact hafter Session.minds_busLoad
    | drop => exact hafter Session.minds_drop
    | startReader => exact ⟨rfl, fun _ => .of_same rfl⟩
    | stepReader i =>
      simp only [perform, step]
      cases w.readers[i]? with
      | none => exact ⟨rfl, fun _ => .of_same rfl⟩
      | some r => exact hafter (Session.minds_readerStep r)
    | elsewhere k => exact ⟨rfl, fun h => absurd rfl (h k)⟩

theorem name_performAll (w : World) (xs : List Activity) :
    (w.performAll xs).session.name = w.session.name := by
  induction xs generalizing w with
  | nil => rfl
  | cons x xs ih => exact (ih (w.perform x)).trans (w.perform_minds x).1

end World

namespace NodeWorld

/-- What an action leaves of the name and of the table. -/
theorem step_minds (w : NodeWorld) (a : NodeAction) :
    (w.step a).session.name = w.session.name ∧
      ((∀ k, a ≠ .elsewhere k) → Tends w.session.name w.kernel (w.step a).kernel) := by
  have hafter {α : Type} {m : NodeM α} (h : Minds Node.name m) :
      (w.after m).session.name = w.session.name ∧
        ((∀ k, a ≠ .elsewhere k) → Tends w.session.name w.kernel (w.after m).kernel) :=
    ⟨(h w.node w.kernel).1, fun _ => (h w.node w.kernel).2⟩
  have hsame : w.session.name = w.session.name ∧
      ((∀ k, a ≠ .elsewhere k) → Tends w.session.name w.kernel w.kernel) :=
    ⟨rfl, fun _ => .of_same rfl⟩
  cases a with
  | elsewhere k => exact ⟨rfl, fun h => absurd rfl (h k)⟩
  | loop i =>
    simp only [step, turn]
    cases w.loops[i]? with
    | none => exact hsame
    | some r =>
      have h := Node.minds_readerStep { w.node with reader := some r } w.kernel
      exact ⟨h.1, fun _ => h.2⟩
  | call c =>
    simp only [step]
    split
    · cases c with
      | enable b => exact hsame
      | close => exact hsame
      | send f => exact hafter (Node.minds_perform (.send f))
      | reset => exact hafter (Node.minds_perform .reset)
      | read => exact hafter (Node.minds_perform .read)
    · exact hsame
  | proceed =>
    simp only [step, proceed]
    cases w.stage with
    | free => exact hsame
    | closing b => exact hafter (Node.minds_onSession Session.minds_close)
    | joining b =>
      dsimp only
      split <;> exact hsame
    | tuning b => exact hafter (Node.minds_retune b)
    | clearing => exact hsame
    | opening =>
      have hopen := hafter Node.minds_reopen
      cases w.result Node.reopen with
      | ok u => exact hopen
      | error f => exact hopen
    | spawning => exact hsame

theorem name_run (w : NodeWorld) (as : List NodeAction) :
    (w.run as).session.name = w.session.name := by
  induction as generalizing w with
  | nil => rfl
  | cons a as ih => exact (ih (w.step a)).trans (w.step_minds a).1

end NodeWorld

/-- However the links are changed, renamed or renumbered from elsewhere, a session and a node leave
alone every entry that does not have their name, and the identity of the one that has it. -/
theorem own_link_only (w : World) (v : NodeWorld) :
    (∀ (past : List Activity) (x : Activity), (∀ k, x ≠ .act (.elsewhere k)) →
      (w.performAll past).kernel.links.Distinct →
      (w.performAll past).kernel.links.Tended w.session.name
        ((w.performAll past).perform x).kernel.links) ∧
    (∀ (past : List NodeAction) (a : NodeAction), (∀ k, a ≠ .elsewhere k) →
      (v.run past).kernel.links.Distinct →
      (v.run past).kernel.links.Tended v.session.name ((v.run past).step a).kernel.links) ∧
    ∀ (n : Node) (k : Kernel), k.links.Distinct →
      (∀ c : NodeCall, k.links.Tended n.session.name ((c.perform.run n).run k).2.links) ∧
      k.links.Tended n.session.name ((Node.drop.run n).run k).2.links := by
  refine ⟨fun past x hx hd => ?_, fun past a ha hd => ?_, fun n k hd => ⟨fun c => ?_, ?_⟩⟩
  · rw [← w.name_performAll past]
    exact ((w.performAll past).perform_minds x).2 hx hd
  · rw [← v.name_run past]
    exact ((v.run past).step_minds a).2 ha hd
  · exact (Node.minds_perform c n k).2 hd
  · exact (Node.minds_drop n k).2 hd

/-- Two links swap their indices while a session is open on one of them, and right before a node
changes the bitrate of that one: drop and change both reach it under its new index. -/
theorem own_link_only_after_swap :
    let l : Link := ⟨"can0", 3, true, some "can", some 250000, some 1000⟩
    let m : Link := ⟨"can1", 4, true, some "can", some 500000, some 10⟩
    let k : Kernel := { interfaces := [("can0", 3), ("can1", 4)], links := [l, m] }
    let swapped : LinkTable := [{ l with index := 4 }, { m with index := 3 }]
    let w := World.start "can0" Settings.standard .table k
    let past := [.act .openUp, .act (.elsewhere { k with links := swapped })]
    let v := NodeWorld.start w.session k
    let started :=
      [.call (.enable 125000), .proceed, .proceed, .elsewhere { k with links := swapped }]
    ((w.performAll past).kernel.links = swapped ∧ (v.run started).kernel.links = swapped ∧
      swapped.Distinct) ∧
    (swapped.Tended "can0" ((w.performAll past).perform (.act .drop)).kernel.links ∧
      ((w.performAll past).perform (.act .drop)).kernel.links =
        [{ l with index := 4, isUp := false }, { m with index := 3 }]) ∧
    swapped.Tended "can0" ((v.run started).step .proceed).kernel.links ∧
      ((v.run started).step .proceed).kernel.links =
        [{ l with index := 4, isUp := false, bitrate := some 125000 }, { m with index := 3 }] := by
  intro l m k swapped w past v started
  have hd : swapped.Distinct := by
    unfold LinkTable.Distinct
    decide
  have hw : (w.performAll past).kernel.links = swapped := by decide +kernel
  have hv : (v.run started).kernel.links = swapped := by decide +kernel
  obtain ⟨hsession, hnode, -⟩ := own_link_only w v
  have hdrop := hsession past (.act .drop) nofun (by rw [hw]; exact hd)
  have htune := hnode started .proceed nofun (by rw [hv]; exact hd)
  rw [hw] at hdrop
  rw [hv] at htune
  exact ⟨⟨hw, hv, hd⟩, ⟨hdrop, by decide +kernel⟩, htune, by decide +kernel⟩

end CanBus
