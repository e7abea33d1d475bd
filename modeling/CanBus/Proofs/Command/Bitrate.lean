import CanBus.Command
import CanBus.Proofs.Kernel.Made
import CanBus.Proofs.Netlink.Reply
import CanBus.Proofs.Session.Requests

/-!
Changing the bitrate of a link that has none, since it is of another kind than `can`. The link is
taken down before its kind is looked at, so a link that is up doesn't stay so (`bitrate_declined`);
its bitrate and its queue length are never asked for.
-/

namespace CanBus

open Kernel

/-- All but which links are up. -/
def LinkTable.parameters (t : LinkTable) : List Link := t.map fun l => { l with isUp := false }

theorem LinkTable.parameters_change? {t t' : LinkTable} {index : UInt32} {up : Bool}
    (h : t.change? index (.admin up) = some t') : t'.parameters = t.parameters := by
  induction t generalizing t' with
  | nil => cases h
  | cons l t ih =>
    rw [change?] at h
    split at h
    · cases h
      rfl
    · obtain ⟨t₁, ht, rfl⟩ := Option.map_eq_some_iff.mp h
      exact congrArg ({ l with isUp := false } :: ·) (ih ht)

namespace Controller

/-! ## Requests -/

/-- The calls of one request for a change. -/
def exchange (ctl : Controller) (index : UInt32) (c : LinkChange) : List Kernel.Call :=
  match ctl with
  | .table => [callOf index c]
  | .netlink => (Netlink.Request.ofChange index c).exchange

/-- The table after a request that was granted; one over netlink goes elsewhere. -/
def reach? (ctl : Controller) (t : LinkTable) (index : UInt32) (c : LinkChange) :
    Option LinkTable :=
  match ctl with
  | .table => t.change? index c
  | .netlink => some t

theorem parameters_reach? {ctl : Controller} {t t' : LinkTable} {index : UInt32} {up : Bool}
    (h : ctl.reach? t index (.admin up) = some t') : t'.parameters = t.parameters := by
  cases ctl with
  | table => exact LinkTable.parameters_change? h
  | netlink =>
    cases h
    rfl

theorem follows_apply (ctl : Controller) (l : Link) (c : LinkChange) :
    Follows (ctl.exchange l.index c) (ctl.apply l c) := by
  cases ctl with
  | netlink => exact follows_netlinkApply l c
  | table =>
    intro k
    have hcalls : (k.called (callOf l.index c) (.link (requestOf c))).calls =
        k.calls ++ [callOf l.index c] := calls_called _ _ _
    refine ⟨_, List.prefix_rfl, ?_, fun _ _ => rfl⟩
    rw [apply_run]
    cases k.refusal? (requestOf c) with
    | some f => exact hcalls
    | none => cases k.links.change? l.index c <;> exact hcalls

theorem links_apply (ctl : Controller) (l : Link) (c : LinkChange) (k : Kernel) :
    let o := (ctl.apply l c).run.run k
    (∀ f, o.1 = .error f → o.2.links = k.links) ∧
      (o.1 = .ok () → ctl.reach? k.links l.index c = some o.2.links) := by
  intro o
  cases ctl with
  | netlink =>
    have hasks : Asks [] k o.2 := keeping_netlink.apply l c k
    exact ⟨fun _ _ => hasks.links, fun _ => congrArg some hasks.links.symm⟩
  | table =>
    rw [show o = _ from apply_run k l c]
    cases k.refusal? (requestOf c) with
    | some f => exact ⟨fun _ _ => rfl, nofun⟩
    | none =>
      cases ht : k.links.change? l.index c with
      | none => exact ⟨fun _ _ => rfl, nofun⟩
      | some t => exact ⟨nofun, fun _ => ht⟩

/-- The calls of a look-up that finds the link with this index. -/
def lookup (ctl : Controller) (name : String) (index : UInt32) : List Kernel.Call :=
  match ctl with
  | .table => [.linkQuery name]
  | .netlink => .nameToIndex name :: (Netlink.Request.query index).exchange

theorem found_by {ctl : Controller} {name : String} {l : Link} {k k₁ : Kernel}
    (hr : (ctl.resolve name).run.run k = (.ok l, k₁)) :
    k₁.calls = k.calls ++ ctl.lookup name l.index ∧ k₁.links = k.links := by
  cases ctl with
  | table => exact ⟨Link.calls_of_resolve hr, Link.links_of_resolve hr⟩
  | netlink =>
    have hasks : Asks [] k ((netlink.resolve name).run.run k).2 := keeping_netlink.resolve name k
    rw [hr] at hasks
    refine ⟨?_, hasks.links⟩
    obtain ⟨r, k₂, hindex, hr⟩ :=
      Fallible.bind_ok (show (netlinkResolve name).run.run k = _ from hr)
    cases r with
    | error e => cases hr
    | ok index =>
      obtain ⟨r, k₃, hdetails, hr⟩ := Fallible.bind_ok hr
      cases r with
      | error code => cases hr
      | ok d =>
        cases hr
        rw [(Netlink.follows_details index).calls_of_ok (Fallible.of_lift hdetails),
          (follows_indexOf name).calls_of_ok (Fallible.of_lift hindex), List.append_assoc]
        rfl

end Controller

namespace Link

/-! ## Declining -/

/-- What changing the bitrate of the link `l` has come to: this failure. A link that is down was
looked up and left alone. One that is up has been requested to go down, and nothing else: the
failure is that of the request or, if the link is down by now, that it isn't a CAN link. -/
structure Declined (ctl : Controller) (name : String) (l : Link) (k : Kernel) (f : Failure)
    (k' : Kernel) : Prop where
  parameters : k'.links.parameters = k.links.parameters
  down : l.isUp = false → f = .notCanLink l.name ∧
    k'.calls = k.calls ++ ctl.lookup name l.index ∧ k'.links = k.links
  up : l.isUp = true →
    let request := (ctl.apply l (.admin false)).run.run ((ctl.resolve name).run.run k).2
    ∃ made, made <+: ctl.exchange l.index (.admin false) ∧
      k'.calls = k.calls ++ ctl.lookup name l.index ++ made ∧
      (∀ g, request.1 = .error g → f = g ∧ k'.links = k.links) ∧
      (request.1 = .ok () → f = .notCanLink l.name ∧
        made = ctl.exchange l.index (.admin false) ∧
        ctl.reach? k.links l.index (.admin false) = some k'.links ∧
        (ctl = .table → k.links.Distinct → k'.links.find? name = some { l with isUp := false }))

variable {ctl : Controller} {name : String} {l : Link} {k k₁ : Kernel}

/-- A change that is called for: its calls, and the table after it. -/
theorem change_requested (ctl : Controller) {l : Link} {c : LinkChange} (h : c.isIdle l = false)
    (k : Kernel) :
    let request := (ctl.apply l c).run.run k
    ∃ k' made, (change ctl l c).run.run k = (request.1.map fun _ => (c.apply l, true), k') ∧
      made <+: ctl.exchange l.index c ∧ k'.calls = k.calls ++ made ∧
      (∀ f, request.1 = .error f → k'.links = k.links) ∧
      (request.1 = .ok () →
        made = ctl.exchange l.index c ∧ ctl.reach? k.links l.index c = some k'.links) := by
  intro request
  obtain ⟨made, hmade, hcalls, hall⟩ := Controller.follows_apply ctl l c k
  obtain ⟨hfailed, hdone⟩ := Controller.links_apply ctl l c k
  obtain ⟨k', hrun, hlog⟩ := change_run ctl h k
  have hsame : k'.calls = request.2.calls ∧ k'.links = request.2.links := by
    rcases hlog with rfl | ⟨level, text, rfl⟩
    · exact ⟨rfl, rfl⟩
    · exact ⟨calls_logged _ _ _ _, rfl⟩
  refine ⟨k', made, hrun, hmade, hsame.1.trans hcalls,
    fun f hf => hsame.2.trans (hfailed f hf), ?_⟩
  intro hok
  exact ⟨hall () hok, hsame.2 ▸ hdone hok⟩

/-- A bitrate that doesn't fit ends the row. -/
theorem steps_misfit (h : l.isCan = false) (b : UInt32) (cs : List LinkChange) :
    (steps ctl l (.bitrate b :: cs)).run.run k = (.error (.notCanLink l.name), k) := by
  have hc : (LinkChange.bitrate b).fits l = false := h
  rw [steps, Fallible.run_bind, step_of_misfit ctl hc]
  rfl

theorem reconfigure_declined (hr : (ctl.resolve name).run.run k = (.ok l, k₁))
    (hkind : l.kind ≠ some "can") (b q : UInt32) :
    ∃ f k', (reconfigure ctl name b q).run.run k = (.error f, k') ∧
      Declined ctl name l k f k' := by
  obtain ⟨hcalls, hlinks⟩ := Controller.found_by hr
  have hmisfit (m : Link) (hm : m.kind = l.kind) : m.isCan = false := by
    simpa [isCan, hm] using hkind
  have hrun : (reconfigure ctl name b q).run.run k =
      (steps ctl l (reconfiguration b q)).run.run k₁ := by
    rw [reconfigure_eq, Fallible.run_bind, hr]
  have hsteps : (steps ctl l (reconfiguration b q)).run.run k₁ = _ := Fallible.run_bind k₁ _ _
  rw [hsteps] at hrun
  cases hu : l.isUp with
  | false =>
    have hidle : (step ctl l (.admin false)).run.run k₁ = (.ok (l, false), k₁) := by
      rw [step, setAdmin, change, if_pos (by simp [LinkChange.isIdle, hu])]
      rfl
    rw [hidle] at hrun
    refine ⟨_, k₁, hrun.trans (steps_misfit (hmisfit l rfl) b _), congrArg _ hlinks, ?_, ?_⟩
    · exact fun _ => ⟨rfl, hcalls, hlinks⟩
    · exact fun h => Bool.noConfusion (hu.symm.trans h)
  | true =>
    -- the kind is not looked at before the link is down, so the row gets past
    -- this step if it is granted
    have hidle : (LinkChange.admin false).isIdle l = false := by simp [LinkChange.isIdle, hu]
    obtain ⟨k₂, made, hstep, hmade, hmore, hfailed, hdone⟩ := change_requested ctl hidle k₁
    rw [hlinks] at hfailed hdone
    rw [hcalls] at hmore
    rw [show (step ctl l (.admin false)).run.run k₁ = _ from hstep] at hrun
    cases ho : ((ctl.apply l (.admin false)).run.run k₁).1 with
    | error g =>
      rw [ho] at hrun
      have hsame : k₂.links = k.links := hfailed g ho
      refine ⟨g, k₂, hrun, congrArg _ hsame, fun h => Bool.noConfusion (hu.symm.trans h),
        fun _ => ?_⟩
      rw [hr]
      refine ⟨made, hmade, hmore, fun _ h => ⟨Except.error.inj (ho.symm.trans h), hsame⟩,
        fun h => ?_⟩
      cases ho.symm.trans h
    | ok =>
      rw [ho] at hrun
      obtain ⟨hall, hreach⟩ := hdone ho
      have hdown : (LinkChange.apply l (.admin false)).isCan = false := hmisfit _ rfl
      refine ⟨.notCanLink l.name, k₂, hrun.trans (steps_misfit hdown b _),
        Controller.parameters_reach? hreach, fun h => Bool.noConfusion (hu.symm.trans h),
        fun _ => ?_⟩
      rw [hr]
      refine ⟨made, hmade, hmore, fun _ h => ?_, fun _ => ⟨rfl, hall, hreach, ?_⟩⟩
      · cases ho.symm.trans h
      rintro rfl hd
      obtain ⟨-, hf⟩ := found_of_resolve hr
      have hput : k.links.change? l.index (.admin false) = _ :=
        LinkTable.change?_eq_put hd (List.mem_of_find?_eq_some hf) _
      rw [Option.some.inj (hreach.symm.trans hput)]
      exact LinkTable.find?_put hf rfl rfl hd

/-- The link goes down although nothing comes of it. -/
theorem reconfigure_takes_vcan_down :
    let l : Link := ⟨"vcan0", 8, true, some "vcan", none, some 1000⟩
    let k : Kernel := { links := [l] }
    let o := (reconfigure .table "vcan0" 250000 1000).run.run k
    l.kind ≠ some "can" ∧ k.links.Distinct ∧ o.1 = .error (.notCanLink "vcan0") ∧
      o.2.calls = [.linkQuery "vcan0", .linkAdmin 8 false] ∧
      o.2.links = [{ l with isUp := false }] ∧ o.2.links ≠ k.links := by
  intro l k o
  refine ⟨by decide, ?_, rfl, rfl, rfl, by decide⟩
  unfold LinkTable.Distinct
  decide

end Link

theorem Session.trySetBitrate_declined {s : Session} {l : Link} {k k₁ : Kernel}
    (hr : (s.controller.resolve s.name).run.run ((close.run s).run k).2 = (.ok l, k₁))
    (hkind : l.kind ≠ some "can") (b : UInt32) :
    ∃ f k', ((trySetBitrate b).run s).run k = ((.error f, s.closed), k') ∧
      Link.Declined s.controller s.name l ((close.run s).run k).2 f k' := by
  obtain ⟨f, k', hrun, hdeclined⟩ := Link.reconfigure_declined hr hkind b s.settings.queueLength
  have hset := trySetBitrate_run s b k
  rw [hrun] at hset
  exact ⟨f, k', hset, hdeclined⟩

theorem Command.run_bitrate_declined {args : List String} {name : String} {b : UInt32} {l : Link}
    {k k₁ : Kernel} (hread : read none args = .ok ⟨name, some (.bitrate b)⟩)
    (hr : (Controller.netlink.resolve name).run.run k = (.ok l, k₁))
    (hkind : l.kind ≠ some "can") :
    ∃ f k', (run args).run k = (failed (chain f), k') ∧
      Link.Declined .netlink name l k f k' := by
  obtain ⟨f, k', hrun, hdeclined⟩ :=
    Link.reconfigure_declined hr hkind b Settings.defaultQueueLength
  refine ⟨f, k', ?_, hdeclined⟩
  have hset : (setBitrate name b).run.run k = (.error f, k') := by
    rw [setBitrate, Fallible.run_bind, hrun]
  rw [run, hread]
  show (report (setBitrate name b)).run k = _
  rw [report, System.run_bind, hset]
  rfl

/-- Whoever asks for a bitrate of a link of another kind is declined, and the session and the link
keep theirs. -/
theorem bitrate_declined {l : Link} (hkind : l.kind ≠ some "can") (b : UInt32) :
    (∀ ctl name q k k₁, (Controller.resolve ctl name).run.run k = (.ok l, k₁) →
      ∃ f k', (Link.reconfigure ctl name b q).run.run k = (.error f, k') ∧
        Link.Declined ctl name l k f k') ∧
    (∀ (s : Session) k k₁, let closing := ((Session.close.run s).run k).2
      (s.controller.resolve s.name).run.run closing = (.ok l, k₁) →
      closing.links = k.links ∧
        closing.calls = k.calls ++ (if s.isOpen then [.shutdown] else []) ∧
      ∃ f k', ((Session.trySetBitrate b).run s).run k = ((.error f, s.closed), k') ∧
        Link.Declined s.controller s.name l closing f k') ∧
    ∀ args name k k₁, Command.read none args = .ok ⟨name, some (.bitrate b)⟩ →
      (Controller.netlink.resolve name).run.run k = (.ok l, k₁) →
      ∃ f k', (Command.run args).run k = (Command.failed (Command.chain f), k') ∧
        Link.Declined .netlink name l k f k' := by
  refine ⟨fun _ _ q _ _ hr => Link.reconfigure_declined hr hkind b q, fun s k _ hr => ?_,
    fun _ _ _ _ hread hr => Command.run_bitrate_declined hread hr hkind⟩
  exact ⟨(Session.asks_close s k).links, Session.calls_close s k,
    Session.trySetBitrate_declined hr hkind b⟩

/-- In the table, an open session of which the request to go down is refused. Over netlink, a link
of which nothing is known but that it is up, and which is taken down by the command. -/
theorem bitrate_declined_of_refused_and_granted :
    let l : Link := ⟨"vcan0", 8, true, some "vcan", none, some 1000⟩
    let s : Session :=
      { Session.create "vcan0" Settings.standard .table 0 with channel := some ⟨0, 8⟩ }
    let k : Kernel := { links := [l], script := override (fun _ => []) (.link .adminState) [-1] }
    let o := ((Session.trySetBitrate 500000).run s).run k
    let m : Link := ⟨"vcan0", 8, true, none, none, none⟩
    let header (length kind : UInt8) : List UInt8 := [length, 0, 0, 0, kind] ++ List.replicate 11 0
    let k₂ : Kernel :=
      { interfaces := [("vcan0", 8)]
        replies := [.bytes (header 32 16 ++ (List.replicate 8 0 ++ [1] ++ List.replicate 7 0)),
          .bytes (header 36 2 ++ List.replicate 20 0)] }
    let o₂ := (Command.run ["vcan0", "bitrate", "500000"]).run k₂
    (l.kind ≠ some "can" ∧ m.kind ≠ some "can") ∧
      o.1.1 = .error (.rejected .adminState (-1)) ∧ o.2.links = [l] ∧
      o.2.calls = [.shutdown, .linkQuery "vcan0", .linkAdmin 8 false] ∧
      o₂.1 = Command.failed (Command.chain (.notCanLink "vcan0")) ∧
      o₂.2.calls = .nameToIndex "vcan0" :: (Netlink.Request.query 8).exchange ++
        (Netlink.Request.admin 8 false).exchange := by
  intro l s k o m header k₂ o₂
  have hl : l.kind ≠ some "can" := by decide
  have hm : m.kind ≠ some "can" := by decide
  have hr : ((Controller.table.resolve "vcan0").run.run ((Session.close.run s).run k).2).1 =
      .ok l := rfl
  obtain ⟨-, -, f, k', hrun, hf⟩ := (bitrate_declined hl 500000).2.1 s k _ (Prod.ext hr rfl)
  obtain ⟨-, -, -, hrefused, -⟩ := hf.up rfl
  obtain ⟨rfl, hlinks⟩ := hrefused (.rejected .adminState (-1)) rfl
  have hread : Command.read none ["vcan0", "bitrate", "500000"] =
      .ok ⟨"vcan0", some (.bitrate 500000)⟩ := rfl
  have hr₂ : ((Controller.netlink.resolve "vcan0").run.run k₂).1 = .ok m := by decide +kernel
  have hok : ((Controller.netlink.apply m (.admin false)).run.run
      ((Controller.netlink.resolve "vcan0").run.run k₂).2).1 = .ok () := by decide +kernel
  obtain ⟨f₂, k₂', hrun₂, hf₂⟩ :=
    (bitrate_declined hm 500000).2.2 _ _ k₂ _ hread (Prod.ext hr₂ rfl)
  obtain ⟨made, -, hcalls, -, hgranted⟩ := hf₂.up rfl
  obtain ⟨rfl, rfl, -⟩ := hgranted hok
  refine ⟨⟨hl, hm⟩, congrArg (·.1.1) hrun, ?_, rfl, congrArg (·.1) hrun₂, ?_⟩
  · exact (congrArg (·.2.links) hrun).trans hlinks
  · exact (congrArg (·.2.calls) hrun₂).trans hcalls

end CanBus
