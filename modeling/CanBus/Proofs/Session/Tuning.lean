import CanBus.Proofs.Session.Requests

/-!
Changing the bitrate of a session (`trySetBitrate_commits`). The session is closed before
the link is touched. Then either the link is reconfigured, and the bitrate and the health
follow, or both stay as they were. Opening the session again finds the bitrate in place, and
has only to bring the link up.
-/

namespace CanBus

open Kernel

namespace Session

/-! ## Closing first -/

theorem refusal?_close (s : Session) (k : Kernel) (r : LinkRequest) :
    ((close.run s).run k).2.refusal? r = k.refusal? r := by
  obtain ⟨k', hr, -, -, -, hscript⟩ := close_effect s k
  rw [hr]
  exact refusal?_of_script (hscript _ nofun)

theorem obstacle?_close (s : Session) (k : Kernel) (l : Link) (c : LinkChange) :
    l.obstacle? ((close.run s).run k).2 c = l.obstacle? k c := by
  rw [Link.obstacle?, Link.obstacle?, refusal?_close]

/-- The rest of the change is that of the closed session. -/
theorem trySetBitrate_closed (s : Session) (b : UInt32) (k : Kernel) :
    ((trySetBitrate b).run s).run k =
      ((trySetBitrate b).run s.closed).run ((close.run s).run k).2 := by
  have hclosed : s.closed.closed = s.closed := closed_of_closed s.channel_closed
  have hclose : (close.run s.closed).run ((close.run s).run k).2 =
      (((), s.closed), ((close.run s).run k).2) := by
    unfold close
    rw [Stateful.run_bind, Stateful.run_get, channel_closed]
    rfl
  have hretuned : s.closed.retuned b = s.retuned b := by
    funext r
    cases r <;> rw [retuned, retuned, hclosed]
  rw [trySetBitrate_run, trySetBitrate_run, hclose, controller_closed, name_closed, settings_closed,
    hretuned]

/-! ## Opening again -/

/-- Of a link that has the bitrate and the queue length of the session, opening asks
nothing but to come up. -/
theorem tryOpen_brings_up {s : Session} (hs : s.controller = .table) (hc : s.channel = none)
    {k : Kernel} (hd : k.links.Distinct) {l : Link} (hf : k.links.find? s.name = some l)
    (hb : l.bitrate = some s.bitrate) (hq : l.queueLength = some s.settings.queueLength)
    (hdown : l.isUp = false) (hquery : k.refusal? .query = none)
    (hadmin : k.refusal? .adminState = none) :
    let o := (tryOpen.run s).run k
    k.changesSince o.2 = [(l.index, .admin true)] ∧
      o.2.links.find? s.name = some { l with isUp := true } := by
  intro o
  have hwanted : l.wanted s.bitrate s.settings.queueLength = [.admin true] := by
    simp [Link.wanted, hb, hq, hdown]
  have hready : l.readied k s.bitrate s.settings.queueLength = { l with isUp := true } := by
    have hgranted : k.granted [.admin true] = [.admin true] := by
      simp [granted, Controller.requestOf, hadmin]
    rw [Link.readied, hwanted, hgranted]
    rfl
  obtain ⟨k₁, hrun, hcalls, hlinks⟩ :=
    Link.prepare_table hd hquery hf s.bitrate s.settings.queueLength
  have hlinked : s.linked k = k₁ := by rw [linked, hs, hrun]
  have hasks : Asks [] k₁ o.2 := hlinked ▸ asks_opening hc k
  rw [hwanted] at hcalls
  rw [hready] at hlinks
  refine ⟨Asks.changes hcalls hasks, ?_⟩
  rw [hasks.links, hlinks]
  exact LinkTable.find?_put hf rfl rfl hd

/-! ## The change -/

theorem retuned_ok (s : Session) (b : UInt32) :
    s.retuned b (.ok ()) = { s.closed with bitrate := b, health := s.health.cleared } := by
  rw [retuned, closed_eq s]

/-- The result is that of the steps, each of which the entry and the script
before the change decide. -/
theorem trySetBitrate_table {s : Session} (hs : s.controller = .table) (b : UInt32) {k : Kernel}
    (hd : k.links.Distinct) :
    (∃ f k', ((trySetBitrate b).run s).run k = ((.error f, s.closed), k') ∧
      ¬ (k.refusal? .query = none ∧ ∃ l, k.links.find? s.name = some l ∧
        ∀ c ∈ Link.reconfiguration b s.settings.queueLength, l.obstacle? k c = none)) ∨
    ∃ l k', ((trySetBitrate b).run s).run k = ((.ok (), s.retuned b (.ok ())), k') ∧
      k.refusal? .query = none ∧ k.links.find? s.name = some l ∧
      (∀ c ∈ Link.reconfiguration b s.settings.queueLength, l.obstacle? k c = none) ∧
      k'.links.Distinct ∧ ∃ m, k'.links.find? s.name = some m ∧
        ∀ c ∈ Link.reconfiguration b s.settings.queueLength, c.isIdle m = true := by
  let k₁ := ((close.run s).run k).2
  have hlinks : k₁.links = k.links := (asks_close s k).links
  have hrun := trySetBitrate_run s b k
  rw [hs] at hrun
  rcases hr : (Controller.table.resolve s.name).run.run k₁ with ⟨f | l, k₂⟩
  · left
    rw [show ((close.run s).run k).2 = k₁ from rfl, Link.reconfigure_lost hr] at hrun
    refine ⟨f, k₂, hrun, fun ⟨hq, l, hf, _⟩ => ?_⟩
    rw [Link.resolve_of_found ((refusal?_close s k _).trans hq) (hlinks ▸ hf)] at hr
    cases hr
  obtain ⟨hq, hf⟩ := Link.found_of_resolve hr
  obtain ⟨made, f?, k', hreconf, hcourse, -, hput, hfind, hidle⟩ :=
    Link.reconfigure_table (hlinks ▸ hd) hq hf b s.settings.queueLength
  rw [show ((close.run s).run k).2 = k₁ from rfl, hreconf] at hrun
  rw [hlinks] at hf
  have hnone : f? = none ↔
      ∀ c ∈ Link.reconfiguration b s.settings.queueLength, l.obstacle? k c = none := by
    rw [hcourse.eq_none_iff]
    exact forall₂_congr fun c _ => by rw [obstacle?_close]
  cases f? with
  | some f =>
    refine .inl ⟨f, k', hrun, fun ⟨_, m, hm, hall⟩ => ?_⟩
    rw [hf] at hm
    cases hm
    cases hnone.mpr hall
  | none =>
    have hd' : k'.links.Distinct := by
      rw [hput]
      exact LinkTable.Distinct.put (hlinks ▸ hd) _
    exact .inr ⟨l, k', hrun, (refusal?_close s k _).symm.trans hq, hf, hnone.mp rfl, hd', _,
      hfind, hidle rfl⟩

/-- The session is closed first, and keeps the new bitrate only if every step succeeds. Opening it
later then requests nothing but to bring the link up. -/
theorem trySetBitrate_commits (s : Session) (hs : s.controller = .table) (b : UInt32) (k : Kernel)
    (hd : k.links.Distinct) :
    let q := s.settings.queueLength
    let closing := (close.run s).run k
    let o := ((trySetBitrate b).run s).run k
    let s' := o.1.2
    (closing.1.2.channel = none ∧
      (∀ c, s.channel = some c → c.handle ∈ closing.1.2.stopped) ∧
      closing.2.calls = k.calls ++ (if s.isOpen then [.shutdown] else []) ∧
      o = ((trySetBitrate b).run closing.1.2).run closing.2) ∧
    (s'.channel = none ∧ s'.health.window = s.health.window) ∧
    (o.1.1 = .ok () ↔ k.refusal? .query = none ∧ ∃ l, k.links.find? s.name = some l ∧
      ∀ c ∈ Link.reconfiguration b q, l.obstacle? k c = none) ∧
    (∀ f, o.1.1 = .error f → s'.bitrate = s.bitrate ∧ s'.health = s.health) ∧
    (o.1.1 = .ok () →
      s'.bitrate = b ∧ s'.health.latched = false ∧ s'.health.txErrors = 0 ∧
      ∃ l, o.2.links.find? s.name = some l ∧
        l.isUp = false ∧ l.bitrate = some b ∧ l.queueLength = some q ∧
        ∀ k₂ : Kernel, k₂.links = o.2.links →
          k₂.refusal? .query = none → k₂.refusal? .adminState = none →
          let o₂ := (tryOpen.run s').run k₂
          k₂.changesSince o₂.2 = [(l.index, .admin true)] ∧
            o₂.2.links.find? s.name = some { l with isUp := true }) := by
  intro q closing o s'
  have hclosing : closing.1.2 = s.closed := by
    obtain ⟨k₁, hr, -⟩ := close_effect s k
    rw [show closing = _ from hr]
  have hstopped : ∀ c, s.channel = some c → c.handle ∈ s.closed.stopped := by
    intro c hc
    rw [closed, hc]
    exact List.mem_cons_self
  rw [hclosing]
  refine ⟨⟨s.channel_closed, hstopped, calls_close s k, trySetBitrate_closed s b k⟩, ?_⟩
  rcases trySetBitrate_table hs b hd with
    ⟨f, k', hrun, hnot⟩ | ⟨l, k', hrun, hq, hf, hnone, hd', m, hm, hidle⟩
  · have hs' : s' = s.closed := congrArg (·.1.2) hrun
    have hr : o.1.1 = .error f := congrArg (·.1.1) hrun
    rw [hs', hr, closed_eq s]
    refine ⟨⟨rfl, rfl⟩, ⟨?_, fun h => absurd h hnot⟩, fun _ _ => ⟨rfl, rfl⟩, ?_⟩
    · rintro ⟨⟩
    · rintro ⟨⟩
  · have hs' : s' = { s.closed with bitrate := b, health := s.health.cleared } :=
      (congrArg (·.1.2) hrun).trans (s.retuned_ok b)
    have hr : o.1.1 = .ok () := congrArg (·.1.1) hrun
    have hk' : o.2 = k' := congrArg (·.2) hrun
    obtain ⟨hdown, hrate, hqueue⟩ := Link.tuned_of_isIdle hidle
    rw [hr, hk', hs']
    refine ⟨⟨s.channel_closed, rfl⟩, ⟨fun _ => ⟨hq, l, hf, hnone⟩, fun _ => rfl⟩, ?_,
      fun _ => ?_⟩
    · rintro f ⟨⟩
    refine ⟨rfl, rfl, rfl, m, hm, hdown, hrate, hqueue, fun k₂ hk₂ hquery hadmin => ?_⟩
    rw [← hk₂] at hm hd'
    have hopen :=
      tryOpen_brings_up (s := { s.closed with bitrate := b, health := s.health.cleared })
      (s.controller_closed.trans hs) s.channel_closed hd' (s.name_closed ▸ hm) hrate
      (s.settings_closed ▸ hqueue) hdown hquery hadmin
    rw [name_closed] at hopen
    exact hopen

/-- A bus that is off. The bitrate is refused at first, which leaves the link down and
the bus off; the next attempt clears it, and the link comes up with the next open, though
its interface is gone. -/
theorem trySetBitrate_commits_at_second_attempt :
    let s : Session :=
      { Session.create "can0" Settings.standard .table 0 with
        health := { Health.healthy 10 0 with latched := true }
        channel := some ⟨0, 7⟩ }
    let k : Kernel :=
      { links := [⟨"can0", 7, true, some "can", some 250000, some 1000⟩]
        script := override (fun _ => []) (.link .bitrate) [-22] }
    let o := ((trySetBitrate 500000).run s).run k
    let o₂ := ((trySetBitrate 500000).run o.1.2).run o.2
    let o₃ := (tryOpen.run o₂.1.2).run o₂.2
    let tuned : Link := ⟨"can0", 7, false, some "can", some 500000, some 1000⟩
    (s.controller = .table ∧ k.links.Distinct ∧ o.2.links.Distinct) ∧
      o.1.1 = .error (.rejected .bitrate (-22)) ∧
      o.1.2.bitrate = 250000 ∧ o.1.2.isBusOff = true ∧
      o.2.links = [⟨"can0", 7, false, some "can", some 250000, some 1000⟩] ∧
      o₂.1.1 = .ok () ∧ o₂.1.2.bitrate = 500000 ∧ o₂.1.2.health.latched = false ∧
      o₂.2.changesSince o₃.2 = [(7, .admin true)] ∧
      o₃.2.links.find? "can0" = some { tuned with isUp := true } := by
  intro s k o o₂ o₃ tuned
  have hd : k.links.Distinct := by
    unfold LinkTable.Distinct
    decide
  have hlinks : o.2.links = [⟨"can0", 7, false, some "can", some 250000, some 1000⟩] := rfl
  have hd₂ : o.2.links.Distinct := by
    rw [hlinks]
    unfold LinkTable.Distinct
    decide
  obtain ⟨-, -, -, hkept, -⟩ := trySetBitrate_commits s rfl 500000 k hd
  obtain ⟨hrate, hhealth⟩ := hkept _ rfl
  obtain ⟨-, -, -, -, hdone⟩ := trySetBitrate_commits o.1.2 rfl 500000 o.2 hd₂
  obtain ⟨hrate₂, hlatch₂, -, l, hl, -, -, -, hopen⟩ := hdone rfl
  obtain rfl : l = tuned := Option.some.inj (hl.symm.trans rfl)
  obtain ⟨hchanges, hup⟩ := hopen o₂.2 rfl rfl rfl
  have hname : o.1.2.name = "can0" := rfl
  rw [hname] at hup
  refine ⟨⟨rfl, hd, hd₂⟩, rfl, hrate, ?_, hlinks, rfl, hrate₂, hlatch₂, hchanges, ?_⟩
  · rw [isBusOff, hhealth]
    rfl
  · -- otherwise the two runs are compared by evaluating them
    with_reducible exact hup

end Session

end CanBus
