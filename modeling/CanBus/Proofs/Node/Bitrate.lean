import CanBus.Proofs.Node.Requests
import CanBus.Proofs.Session.Window

/-!
When the bitrate of a link is asked for. A change of the bitrate takes the link down first; an
opening asks for the bitrate of the link as it is. So over any history of a session, or of a node
with its loops, every such request finds the link down just if that is so at each opening
(`bitrates_find_down_iff`).
-/

namespace CanBus

open Kernel

/-! ## Along a run -/

section Along

variable {σ ι : Type}

/-- The requests that are made along a run, where `asked` has those of a single step. -/
def askedAlong (step : σ → ι → σ) (asked : σ → ι → List Asking) :
    σ → List ι → List Asking
  | _, [] => []
  | s, i :: is => asked s i ++ askedAlong step asked (step s i) is

/-- A run is safe just if each of its steps is, in the state that it is taken in. -/
theorem askedAlong_safe {step : σ → ι → σ} {asked : σ → ι → List Asking}
    {Fit : σ → Prop} {Fits : ι → Prop} {Calm : σ → ι → Prop}
    (hstep : ∀ s i, Fit s → Fits i →
      Fit (step s i) ∧ (BitratesFindDown (asked s i) ↔ Calm s i))
    {s : σ} (hs : Fit s) {is : List ι} (hi : ∀ i ∈ is, Fits i) :
    BitratesFindDown (askedAlong step asked s is) ↔
      ∀ past i later, is = past ++ i :: later → Calm (past.foldl step s) i := by
  induction is generalizing s with
  | nil => simp [askedAlong, BitratesFindDown]
  | cons i is ih =>
    obtain ⟨hi, his⟩ := List.forall_mem_cons.mp hi
    obtain ⟨hs', hasked⟩ := hstep s i hs hi
    rw [askedAlong, bitratesFindDown_append, hasked, ih hs' his]
    constructor
    · rintro ⟨hfirst, hrest⟩ past j later h
      cases past with
      | nil =>
        cases h
        exact hfirst
      | cons i' past =>
        cases h
        exact hrest past j later rfl
    · intro h
      refine ⟨h [] i is rfl, fun past j later his => ?_⟩
      rw [his] at h
      exact h (i :: past) j later rfl

end Along

/-- All that is asked for is safe. -/
theorem AsksOnly.safe {k k' : Kernel} (h : AsksOnly Asking.IsSafe k k') (hd : k.links.Distinct) :
    k'.links.Distinct ∧ (BitratesFindDown (k.askedSince k') ↔ True) := by
  obtain ⟨rs, hrs, hsafe⟩ := h
  rw [hrs.askedSince]
  exact ⟨hrs.distinct hd, iff_true_intro hsafe⟩

theorem Asks.safe {k k' : Kernel} (h : Asks [] k k') (hd : k.links.Distinct) :
    k'.links.Distinct ∧ (BitratesFindDown (k.askedSince k') ↔ True) := (h.only _).safe hd

/-- What an opening asks for is safe if the link happens to be down. -/
theorem AsksBitrates.safe {s : Session} {k k' : Kernel}
    (h : AsksBitrates (s.openingAskings k) k k') (hd : k.links.Distinct) :
    k'.links.Distinct ∧ (BitratesFindDown (k.askedSince k') ↔ s.OpensDown k) := by
  obtain ⟨rs, hrs, hfilter⟩ := h
  rw [hrs.askedSince, ← bitratesFindDown_filter, hfilter]
  exact ⟨hrs.distinct hd, s.openingAskings_safe hd⟩

/-! ## Sessions -/

/-- Links that come from elsewhere have indices of their own. -/
def Activity.Fits : Activity → Prop
  | .act (.elsewhere k) => k.links.Distinct
  | _ => True

namespace World

/-- The requests that an activity makes. -/
def asked (w : World) : Activity → List Asking
  | .act (.elsewhere _) => []
  | x => w.kernel.askedSince (w.perform x).kernel

/-- If the activity opens the session, it asks for no bitrate of a link that is up. -/
def Calm (w : World) : Activity → Prop
  | .act .tryOpen | .act .openUp => w.session.OpensDown w.kernel
  | _ => True

theorem asked_safe (w : World) (x : Activity) (hd : w.kernel.links.Distinct) (hx : x.Fits) :
    (w.perform x).kernel.links.Distinct ∧ (BitratesFindDown (w.asked x) ↔ w.Calm x) := by
  have hnothing {α : Type} {m : SessionM α} (hm : Steady (Asks []) m) :
      Asks [] w.kernel (w.after m).kernel := hm w.session w.kernel
  cases x with
  | poll limit => exact (hnothing (Session.asks_poll limit)).safe hd
  | act a =>
    cases a with
    | tryOpen => exact (Session.tryOpen_asks w.session w.kernel).safe hd
    | openUp => exact (Session.openUp_asks w.session w.kernel).safe hd
    | close => exact (hnothing Session.asks_close).safe hd
    | trySetBitrate b => exact (Session.trySetBitrate_asks w.session b hd).safe hd
    | setBitrate b => exact (Session.setBitrate_asks w.session b hd).safe hd
    | trySend id extended len payload =>
      exact (hnothing (Session.asks_trySend id extended len payload)).safe hd
    | send id extended len payload =>
      exact (hnothing (Session.asks_send id extended len payload)).safe hd
    | tryReceive => exact (hnothing Session.asks_tryReceive).safe hd
    | receive => exact (hnothing Session.asks_receive).safe hd
    | busLoad => exact (hnothing Session.asks_busLoad).safe hd
    | drop => exact (Session.drop_asks w.session w.kernel).safe hd
    | startReader => exact (Asks.refl _).safe hd
    | stepReader i =>
      have hstep : Asks [] w.kernel (w.step (.stepReader i)).kernel := by
        simp only [step]
        cases w.readers[i]? with
        | none => exact .refl _
        | some r => exact hnothing r.asks_step
      exact hstep.safe hd
    | elsewhere k => exact ⟨hx, by simp [asked, Calm, BitratesFindDown]⟩

end World

/-! ## Nodes and their loops -/

def NodeAction.Fits : NodeAction → Prop
  | .elsewhere k => k.links.Distinct
  | _ => True

namespace NodeWorld

def asked (w : NodeWorld) : NodeAction → List Asking
  | .elsewhere _ => []
  | a => w.kernel.askedSince (w.step a).kernel

def Calm (w : NodeWorld) (a : NodeAction) : Prop :=
  match a, w.stage with
  | .proceed, .opening => w.session.OpensDown w.kernel
  | _, _ => True

theorem asked_safe (w : NodeWorld) (a : NodeAction) (hd : w.kernel.links.Distinct) (ha : a.Fits) :
    (w.step a).kernel.links.Distinct ∧ (BitratesFindDown (w.asked a) ↔ w.Calm a) := by
  have hnothing {α : Type} {m : NodeM α} (hm : Steady (Asks []) m) :
      Asks [] w.kernel (w.after m).kernel := hm w.node w.kernel
  cases a with
  | elsewhere k => exact ⟨ha, by simp [asked, Calm, BitratesFindDown]⟩
  | loop i =>
    have hturn : Asks [] w.kernel (w.turn i).kernel := by
      unfold turn
      cases w.loops[i]? with
      | none => exact .refl _
      | some r => exact Node.asks_readerStep _ w.kernel
    exact hturn.safe hd
  | call c =>
    have hcall : Asks [] w.kernel (w.step (.call c)).kernel := by
      simp only [step]
      split
      · cases c with
        | enable b => exact .refl _
        | close => exact .refl _
        | send f => exact hnothing (Steady.bind (Node.asks_send f) fun _ => Steady.pure _)
        | reset => exact hnothing (Steady.bind Node.asks_reset fun _ => Steady.pure _)
        | read => exact hnothing (Steady.bind Node.asks_read fun _ => Steady.pure _)
      · exact .refl _
    exact hcall.safe hd
  | proceed =>
    simp only [step, asked, Calm, proceed]
    cases w.stage with
    | free => exact (Asks.refl _).safe hd
    | closing b => exact (hnothing (Node.steady_onSession Session.asks_close)).safe hd
    | joining b =>
      have hkernel : (if w.joinable then { w with handle := none, stage := b.elim .free .tuning }
          else w).kernel = w.kernel := by
        split <;> rfl
      dsimp only
      rw [hkernel]
      exact (Asks.refl _).safe hd
    | tuning b => exact (w.node.retune_asks b hd).safe hd
    | clearing => exact (Asks.refl _).safe hd
    | opening =>
      have hopen := (Session.tryOpen_asks w.session w.kernel).safe hd
      cases w.result Node.reopen with
      | ok u => exact hopen
      | error f => exact hopen
    | spawning => exact (Asks.refl _).safe hd

end NodeWorld

/-! ## Every bitrate that is asked for -/

/-- Every bitrate that is asked for finds its link down, unless an opening asks for another bitrate
of a link that is up: over any history of a session, over any history of a node with all of its
loops, and when a node is dropped. -/
theorem bitrates_find_down_iff (w : World) (xs : List Activity) (v : NodeWorld)
    (as : List NodeAction) (hw : w.kernel.links.Distinct) (hx : ∀ x ∈ xs, x.Fits)
    (hv : v.kernel.links.Distinct) (ha : ∀ a ∈ as, a.Fits) :
    (BitratesFindDown (askedAlong World.perform World.asked w xs) ↔
      ∀ past x later, xs = past ++ x :: later → (w.performAll past).Calm x) ∧
    (BitratesFindDown (askedAlong NodeWorld.step NodeWorld.asked v as) ↔
      ∀ past a later, as = past ++ a :: later → (v.run past).Calm a) ∧
    BitratesFindDown (v.kernel.askedSince ((Node.drop.run v.node).run v.kernel).2) :=
  ⟨askedAlong_safe World.asked_safe hw hx, askedAlong_safe NodeWorld.asked_safe hv ha,
    ((Node.drop_asks v.node v.kernel).safe hv).2.mpr trivial⟩

/-- A link that is up at another bitrate, and a change of the bitrate before the session
is opened, by its owner or by a node: when it comes to the opening, the link is down, and
then it has that bitrate. -/
theorem bitrates_find_down_after_change :
    let l : Link := ⟨"can0", 3, true, some "can", some 125000, some 10⟩
    let k : Kernel := { interfaces := [("can0", 3)], links := [l] }
    let w := World.start "can0" Settings.standard .table k
    let xs : List Activity := [.act (.setBitrate 500000), .act .tryOpen]
    let v := NodeWorld.start w.session k
    let as : List NodeAction :=
      [.call (.enable 500000), .proceed, .proceed, .proceed, .proceed, .proceed]
    (w.kernel.links.Distinct ∧ (∀ x ∈ xs, x.Fits) ∧ v.kernel.links.Distinct ∧
      ∀ a ∈ as, a.Fits) ∧
    (askedAlong World.perform World.asked w xs).map Asking.change =
      [.admin false, .bitrate 500000, .queueLength 1000, .admin true] ∧
    (askedAlong NodeWorld.step NodeWorld.asked v as).map Asking.change =
      [.admin false, .bitrate 500000, .queueLength 1000, .admin true] ∧
    (w.performAll (xs.take 1)).Calm (.act .tryOpen) ∧ (v.run (as.take 5)).Calm .proceed := by
  intro l k w xs v as
  have hd : k.links.Distinct := by simp [k, LinkTable.Distinct]
  have hx : ∀ x ∈ xs, x.Fits := by simp [xs, Activity.Fits]
  have ha : ∀ a ∈ as, a.Fits := by simp [as, NodeAction.Fits]
  have hdown : BitratesFindDown (askedAlong World.perform World.asked w xs) := by decide +kernel
  have hdown' : BitratesFindDown (askedAlong NodeWorld.step NodeWorld.asked v as) := by
    decide +kernel
  obtain ⟨hsession, hnode, -⟩ := bitrates_find_down_iff w xs v as hd hx hd ha
  refine ⟨⟨hd, hx, hd, ha⟩, by decide +kernel, by decide +kernel, ?_, ?_⟩
  · exact hsession.mp hdown (xs.take 1) _ [] rfl
  · exact hnode.mp hdown' (as.take 5) _ [] rfl

/-- A link that is up at another bitrate, and a session that is opened right away: the link is asked
for the bitrate of the session while it is up. -/
theorem opening_finds_link_up :
    let l : Link := ⟨"can0", 3, true, some "can", some 125000, some 10⟩
    let k : Kernel := { interfaces := [("can0", 3)], links := [l] }
    let w := World.start "can0" Settings.standard .table k
    w.asked (.act .tryOpen) = [⟨3, .bitrate 250000, [l]⟩,
      ⟨3, .queueLength 1000, [{ l with bitrate := some 250000 }]⟩] ∧
    ¬ BitratesFindDown (askedAlong World.perform World.asked w [.act .tryOpen]) := by
  intro l k w
  exact ⟨by decide +kernel, by decide +kernel⟩

end CanBus
