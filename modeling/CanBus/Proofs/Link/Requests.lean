import CanBus.Proofs.Link.Prepare

/-!
Requests for changes, each with the link table that it found. A `Desk` is the part of the kernel
that such requests depend on, and `Desk.asked` reads them off a record of calls; `Asks` says that a
record accounts for a change of the kernel in this way. `prepare_asks` gives the requests for a
bitrate that readying a link comes to: they find the link as it is, up or down.
-/

namespace CanBus

open Kernel

/-- A request to change the link with an index, and the table that it found. -/
structure Asking where
  index : UInt32
  change : LinkChange
  found : LinkTable
  deriving DecidableEq, Repr

namespace Asking

def isBitrate (r : Asking) : Bool :=
  match r.change with
  | .bitrate _ => true
  | _ => false

/-- The link that is to be changed is down at that moment. -/
def FindsDown (r : Asking) : Prop := ∀ l ∈ r.found, l.index = r.index → l.isUp = false

/-- If it is a bitrate that is asked for, the link is down. -/
def IsSafe (r : Asking) : Prop := r.isBitrate = true → r.FindsDown

instance (r : Asking) : Decidable r.FindsDown :=
  inferInstanceAs (Decidable (∀ l ∈ r.found, l.index = r.index → l.isUp = false))

instance (r : Asking) : Decidable r.IsSafe :=
  inferInstanceAs (Decidable (r.isBitrate = true → r.FindsDown))

end Asking

/-- Every bitrate that is asked for finds its link down. -/
def BitratesFindDown (rs : List Asking) : Prop := ∀ r ∈ rs, r.IsSafe

instance (rs : List Asking) : Decidable (BitratesFindDown rs) :=
  inferInstanceAs (Decidable (∀ r ∈ rs, r.IsSafe))

theorem bitratesFindDown_append (rs qs : List Asking) :
    BitratesFindDown (rs ++ qs) ↔ BitratesFindDown rs ∧ BitratesFindDown qs := by
  unfold BitratesFindDown
  simp only [List.mem_append, or_imp, forall_and]

/-- Only the requests for a bitrate count. -/
theorem bitratesFindDown_filter (rs : List Asking) :
    BitratesFindDown (rs.filter Asking.isBitrate) ↔ BitratesFindDown rs := by
  unfold BitratesFindDown Asking.IsSafe
  simp only [List.mem_filter, and_imp]
  exact ⟨fun h r hr hb => h r hr hb hb, fun h r hr hb _ => h r hr hb⟩

/-! ## Records of calls -/

/-- The link and the change that a call asks for. -/
def Kernel.Call.change? : Kernel.Call → Option (UInt32 × LinkChange)
  | .linkAdmin index up => some (index, .admin up)
  | .linkBitrate index value => some (index, .bitrate value)
  | .linkQueueLength index value => some (index, .queueLength value)
  | _ => none

/-- The link table, with the outcomes that are scripted for requests to it. -/
structure Desk where
  links : LinkTable
  script : LinkRequest → List Int

def Kernel.desk (k : Kernel) : Desk := ⟨k.links, fun r => k.script (.link r)⟩

namespace Desk

/-- The desk after a call. A request uses up its outcome, and the normal one grants the change. -/
def after (d : Desk) (c : Kernel.Call) : Desk :=
  match c.service? with
  | some (.link r) =>
    { links := match c.change? with
        | some (index, change) =>
          if (d.script r).headD 0 = 0 then (d.links.change? index change).getD d.links else d.links
        | none => d.links
      script := override d.script r (d.script r).tail }
  | _ => d

/-- The requests in a record of calls. -/
def asked (d : Desk) : List Kernel.Call → List Asking
  | [] => []
  | c :: cs => (c.change?.map fun p => ⟨p.1, p.2, d.links⟩).toList ++ (d.after c).asked cs

theorem asked_append (d : Desk) (cs cs' : List Kernel.Call) :
    d.asked (cs ++ cs') = d.asked cs ++ (cs.foldl after d).asked cs' := by
  induction cs generalizing d with
  | nil => rfl
  | cons c cs ih => rw [List.cons_append, asked, asked, ih, List.append_assoc, List.foldl_cons]

theorem map_asked (d : Desk) (cs : List Kernel.Call) :
    (d.asked cs).map (fun r => (r.index, r.change)) = cs.filterMap Kernel.Call.change? := by
  induction cs generalizing d with
  | nil => rfl
  | cons c cs ih =>
    rw [asked, List.map_append, ih, List.filterMap_cons]
    cases c.change? <;> rfl

end Desk

/-- The requests that were made between two states of the kernel. -/
def Kernel.askedSince (k k' : Kernel) : List Asking :=
  k.desk.asked (k'.calls.drop k.calls.length)

/-- These requests were made, and account for what has become of the table and its script. -/
def Asks (rs : List Asking) (k k' : Kernel) : Prop :=
  ∃ cs, k'.calls = k.calls ++ cs ∧ k.desk.asked cs = rs ∧ cs.foldl Desk.after k.desk = k'.desk

namespace Asks

variable {rs qs : List Asking} {k k₁ k' : Kernel}

theorem refl (k : Kernel) : Asks [] k k := ⟨[], (List.append_nil _).symm, rfl, rfl⟩

theorem append (h₁ : Asks rs k k₁) (h₂ : Asks qs k₁ k') : Asks (rs ++ qs) k k' := by
  obtain ⟨cs, hc, ha, hd⟩ := h₁
  obtain ⟨cs', hc', ha', hd'⟩ := h₂
  refine ⟨cs ++ cs', ?_, ?_, ?_⟩
  · rw [hc', hc, List.append_assoc]
  · rw [Desk.asked_append, ha, hd, ha']
  · rw [List.foldl_append, hd, hd']

/-- Nothing more is asked for. -/
theorem extend (h : Asks rs k k₁) (h' : Asks [] k₁ k') : Asks rs k k' := by
  have happ := h.append h'
  rwa [List.append_nil] at happ

theorem askedSince (h : Asks rs k k') : k.askedSince k' = rs := by
  obtain ⟨cs, hc, ha, -⟩ := h
  rw [Kernel.askedSince, hc, List.drop_left, ha]

/-- Nothing that has to do with requests is different. -/
theorem of_same (hc : k'.calls = k.calls) (hd : k'.desk = k.desk) : Asks [] k k' :=
  ⟨[], by rw [hc, List.append_nil], rfl, hd.symm⟩

theorem logged (k : Kernel) (t : Thread) (level : LogLevel) (text : String) :
    Asks [] k (k.noted (.log t level text)) := .of_same (calls_logged _ _ _ _) rfl

end Asks

instance : Chained (Asks []) where
  refl := Asks.refl
  trans h₁ h₂ := h₁.append h₂

theorem Desk.links_of_asked {d : Desk} {cs : List Kernel.Call} (h : d.asked cs = []) :
    (cs.foldl after d).links = d.links := by
  induction cs generalizing d with
  | nil => rfl
  | cons c cs ih =>
    obtain ⟨hc, hcs⟩ := List.append_eq_nil_iff.mp h
    have hnone : c.change? = none := by
      cases hch : c.change? with
      | none => rfl
      | some p => simp [hch] at hc
    rw [List.foldl_cons, ih hcs, after]
    split
    · simp only [hnone]
    · rfl

theorem Asks.links {k k' : Kernel} (h : Asks [] k k') : k'.links = k.links := by
  obtain ⟨cs, -, ha, hd⟩ := h
  have hlinks : (cs.foldl Desk.after k.desk).links = k'.links := congrArg Desk.links hd
  rw [← hlinks, Desk.links_of_asked ha]
  rfl

/-- The changes that were requested between two states of the kernel. -/
def Kernel.changesSince (k k' : Kernel) : List (UInt32 × LinkChange) :=
  (k'.calls.drop k.calls.length).filterMap Call.change?

theorem Asks.changes {k k₁ k' : Kernel} {cs : List Kernel.Call} (hc : k₁.calls = k.calls ++ cs)
    (h : Asks [] k₁ k') : k.changesSince k' = cs.filterMap Kernel.Call.change? := by
  obtain ⟨cs', hc', ha, -⟩ := h
  have hnone : cs'.filterMap Kernel.Call.change? = [] := by rw [← Desk.map_asked, ha]; rfl
  rw [Kernel.changesSince, hc', hc, List.append_assoc, List.drop_left, List.filterMap_append, hnone,
    List.append_nil]

theorem LinkTable.indices_change? {t t' : LinkTable} {index : UInt32} {c : LinkChange}
    (h : t.change? index c = some t') : t'.map Link.index = t.map Link.index := by
  induction t generalizing t' with
  | nil => cases h
  | cons l t ih =>
    rw [change?] at h
    split at h
    · cases h
      simp
    · obtain ⟨t₁, ht, rfl⟩ := Option.map_eq_some_iff.mp h
      simp [ih ht]

/-- Requests add no link and remove none. -/
theorem Desk.indices_after (d : Desk) (c : Kernel.Call) :
    (d.after c).links.map Link.index = d.links.map Link.index := by
  unfold after
  split
  · dsimp only
    split
    · split
      · rename_i index change _ _
        cases ht : d.links.change? index change with
        | none => rfl
        | some t => exact LinkTable.indices_change? ht
      · rfl
    · rfl
  · rfl

theorem Desk.indices_foldl (d : Desk) (cs : List Kernel.Call) :
    (cs.foldl after d).links.map Link.index = d.links.map Link.index := by
  induction cs generalizing d with
  | nil => rfl
  | cons c cs ih => rw [List.foldl_cons, ih, indices_after]

theorem Asks.distinct {rs : List Asking} {k k' : Kernel} (h : Asks rs k k')
    (hd : k.links.Distinct) : k'.links.Distinct := by
  obtain ⟨cs, -, -, hdesk⟩ := h
  have hlinks : (cs.foldl Desk.after k.desk).links = k'.links := congrArg Desk.links hdesk
  rw [LinkTable.Distinct, ← hlinks, Desk.indices_foldl]
  exact hd

/-! ## Calls -/

theorem Kernel.Call.change?_eq_none {c : Kernel.Call} (h : ∀ r, c.service? ≠ some (.link r)) :
    c.change? = none := by
  cases c with
  | linkAdmin | linkBitrate | linkQueueLength => exact absurd rfl (h _)
  | _ => rfl

theorem Kernel.Call.change?_callOf (index : UInt32) (c : LinkChange) :
    (Controller.callOf index c).change? = some (index, c) := by
  cases c <;> rfl

/-- Calls of other services leave the desk alone. -/
theorem Desk.others (d : Desk) {cs : List Kernel.Call}
    (h : ∀ c ∈ cs, ∀ r, c.service? ≠ some (.link r)) :
    d.asked cs = [] ∧ cs.foldl after d = d := by
  induction cs with
  | nil => exact ⟨rfl, rfl⟩
  | cons c cs ih =>
    obtain ⟨hc, hcs⟩ := List.forall_mem_cons.mp h
    have hafter : d.after c = d := by
      unfold after
      split
      · exact absurd ‹_› (hc _)
      · rfl
    rw [asked, List.foldl_cons, hafter, Kernel.Call.change?_eq_none hc]
    exact ih hcs

theorem Asks.others {k k' : Kernel} {cs : List Kernel.Call} (hc : k'.calls = k.calls ++ cs)
    (h : ∀ c ∈ cs, ∀ r, c.service? ≠ some (.link r)) (hd : k'.desk = k.desk) :
    Asks [] k k' := by
  obtain ⟨ha, hf⟩ := k.desk.others h
  exact ⟨cs, hc, ha, hf.trans hd.symm⟩

/-- The scripts of other services are not on the desk. -/
theorem Kernel.desk_override (k : Kernel) {s : Service} (hs : ∀ r, s ≠ .link r)
    (ns : List Int) :
    { k with script := override k.script s ns }.desk = k.desk := by
  have hscript : (fun r => override k.script s ns (.link r)) = fun r => k.script (.link r) :=
    funext fun r => override_of_ne _ _ (hs r).symm
  rw [desk, hscript]
  rfl

instance : Lenient (Asks []) where
  logged := Asks.logged
  recorded k t c h := by
    have hcalls : (k.noted (.call t c)).calls = k.calls ++ [c] := by
      simp [calls, noted, List.filterMap_append]
    refine .others hcalls (fun c' hc' => ?_) rfl
    rw [List.mem_singleton.mp hc']
    exact h
  scripted k s ns hs := .of_same rfl (desk_override k hs ns)
  replied k rs := .of_same rfl rfl

/-- The scripts for requests after a call that uses one of them. -/
theorem script_linkCalled (k : Kernel) (c : Kernel.Call) (r : LinkRequest) :
    (fun r' => (k.called c (.link r)).script (.link r')) =
      override k.desk.script r (k.desk.script r).tail := by
  funext r'
  by_cases h : r' = r
  · subst h
    rw [override_self]
    exact override_self _ _ _
  · rw [override_of_ne _ _ h]
    exact script_called_of_ne k c (by simpa using h)

theorem Asks.queried (k : Kernel) (name : String) :
    Asks [] k (k.called (.linkQuery name) (.link .query)) := by
  refine ⟨[.linkQuery name], calls_called _ _ _, rfl, ?_⟩
  have hafter : k.desk.after (.linkQuery name) =
      ⟨k.links, fun r => (k.called (.linkQuery name) (.link .query)).script (.link r)⟩ := by
    rw [script_linkCalled]
    rfl
  exact hafter

theorem Kernel.refusal?_eq_none (k : Kernel) (r : LinkRequest) :
    k.refusal? r = none ↔ (k.desk.script r).headD 0 = 0 := by
  show k.refusal? r = none ↔ k.nextOutcome (.link r) = 0
  unfold refusal?
  grind

namespace Controller

theorem resolve_asks (k : Kernel) (name : String) :
    Asks [] k ((table.resolve name).run.run k).2 := by
  rw [tableResolve_run]
  exact .queried k name

/-- Whatever comes of it, a request is made once. -/
theorem apply_asks (k : Kernel) (l : Link) (c : LinkChange) :
    Asks [⟨l.index, c, k.links⟩] k ((table.apply l c).run.run k).2 := by
  let k₁ := k.called (callOf l.index c) (.link (requestOf c))
  have hcalls : k₁.calls = k.calls ++ [callOf l.index c] := calls_called _ _ _
  have hasked : k.desk.asked [callOf l.index c] = [⟨l.index, c, k.links⟩] := by
    rw [Desk.asked, Kernel.Call.change?_callOf]
    rfl
  have hafter : k.desk.after (callOf l.index c) =
      ⟨if k.refusal? (requestOf c) = none then (k.links.change? l.index c).getD k.links
        else k.links, fun r => k₁.script (.link r)⟩ := by
    rw [script_linkCalled, Desk.after, service_callOf, Kernel.Call.change?_callOf]
    simp only [refusal?_eq_none]
    rfl
  rw [apply_run]
  cases hf : k.refusal? (requestOf c) with
  | some f =>
    rw [hf] at hafter
    exact ⟨[callOf l.index c], hcalls, hasked, hafter⟩
  | none =>
    rw [hf] at hafter
    cases ht : k.links.change? l.index c with
    | none =>
      rw [ht] at hafter
      exact ⟨[callOf l.index c], hcalls, hasked, hafter⟩
    | some t =>
      rw [ht] at hafter
      exact ⟨[callOf l.index c], hcalls, hasked, hafter⟩

end Controller

/-! ## Readying -/

/-- Only requests of which `P` holds were made. -/
def AsksOnly (P : Asking → Prop) (k k' : Kernel) : Prop :=
  ∃ rs, Asks rs k k' ∧ ∀ r ∈ rs, P r

instance (P : Asking → Prop) : Chained (AsksOnly P) where
  refl k := ⟨[], .refl k, nofun⟩
  trans := by
    rintro a b c ⟨rs, h₁, hp₁⟩ ⟨qs, h₂, hp₂⟩
    exact ⟨rs ++ qs, h₁.append h₂,
      fun r hr => (List.mem_append.mp hr).elim (hp₁ r) (hp₂ r)⟩

theorem Asks.only {k k' : Kernel} (h : Asks [] k k') (P : Asking → Prop) : AsksOnly P k k' :=
  ⟨[], h, nofun⟩

theorem Keeps.asksOnly {α : Type} {m : System α} (h : Keeps (Asks []) m) (P : Asking → Prop) :
    Keeps (AsksOnly P) m := fun k => (h k).only P

/-- What was asked for between two states of the kernel, of which these are the
requests for a bitrate. -/
def AsksBitrates (rs : List Asking) (k k' : Kernel) : Prop :=
  ∃ qs, Asks qs k k' ∧ qs.filter Asking.isBitrate = rs

theorem AsksBitrates.extend {rs : List Asking} {k k₁ k' : Kernel} (h : AsksBitrates rs k k₁)
    (h' : Asks [] k₁ k') : AsksBitrates rs k k' := by
  obtain ⟨qs, hqs, hf⟩ := h
  exact ⟨qs, hqs.extend h', hf⟩

namespace Link

/-- The requests for some changes of a link, all of which find the same table. -/
def askings (l : Link) (t : LinkTable) (cs : List LinkChange) : List Asking :=
  cs.map fun c => ⟨l.index, c, t⟩

theorem change_asks (k : Kernel) (l : Link) (c : LinkChange) :
    Asks (l.askings k.links (l.issued c)) k ((change .table l c).run.run k).2 := by
  unfold issued
  cases hi : c.isIdle l with
  | true =>
    unfold change
    rw [hi]
    exact .refl k
  | false =>
    have ha : Asks (l.askings k.links [c]) k ((Controller.table.apply l c).run.run k).2 :=
      Controller.apply_asks k l c
    obtain ⟨k', hrun, hlog⟩ := change_run .table hi k
    rw [hrun]
    rcases hlog with rfl | ⟨level, text, rfl⟩
    · exact ha
    · exact ha.extend (.logged _ _ _ _)

theorem setBitrate_asks (k : Kernel) (l : Link) (b : UInt32) :
    Asks (l.askings k.links (l.issuedBitrate b)) k ((setBitrate .table l b).run.run k).2 := by
  unfold setBitrate issuedBitrate
  cases l.isCan with
  | true => exact change_asks k l _
  | false => exact .refl k

/-- An attempt does what its step does. -/
theorem attempt_kernel (l : Link) (step : Operation (Link × Bool)) (k : Kernel) :
    ((attempt l step).run k).2 = (step.run.run k).2 := by
  rw [attempt, System.run_bind]
  rcases step.run.run k with ⟨f | r, k₁⟩ <;> rfl

section Only

variable {P : Asking → Prop}

theorem asksOnly_change {l : Link} {c : LinkChange} (h : ∀ t, P ⟨l.index, c, t⟩) :
    Keeps (AsksOnly P) (change .table l c).run := by
  intro k
  refine ⟨_, change_asks k l c, fun r hr => ?_⟩
  obtain ⟨c', hc, rfl⟩ := List.mem_map.mp hr
  unfold issued at hc
  split at hc
  · cases hc
  · rw [List.mem_singleton.mp hc]
    exact h _

theorem asksOnly_attempt {l : Link} {step : Operation (Link × Bool)}
    (h : Keeps (AsksOnly P) step.run) : Keeps (AsksOnly P) (attempt l step) := by
  intro k
  rw [attempt_kernel]
  exact h k

end Only

theorem isBitrate_of_issuedBitrate {l : Link} {t : LinkTable} {b : UInt32} {r : Asking}
    (h : r ∈ l.askings t (l.issuedBitrate b)) : r.isBitrate = true := by
  obtain ⟨c, hc, rfl⟩ := List.mem_map.mp h
  unfold issuedBitrate issued at hc
  split at hc
  · split at hc
    · cases hc
    · rw [List.mem_singleton.mp hc]
      rfl
  · cases hc

end Link

/-- What readying a link by its name asks for its bitrate. -/
def Kernel.openingAskings (k : Kernel) (name : String) (b : UInt32) : List Asking :=
  match k.refusal? .query, k.links.find? name with
  | none, some l => l.askings k.links (l.issuedBitrate b)
  | _, _ => []

namespace Link

theorem openingAskings_found {k : Kernel} {name : String} {l : Link} (hq : k.refusal? .query = none)
    (hf : k.links.find? name = some l) (b : UInt32) :
    k.openingAskings name b = l.askings k.links (l.issuedBitrate b) := by
  simp only [openingAskings, hq, hf]

theorem openingAskings_lost {k k₁ : Kernel} {name : String} {f : Failure}
    (hr : (Controller.table.resolve name).run.run k = (.error f, k₁)) (b : UInt32) :
    k.openingAskings name b = [] := by
  rw [Controller.tableResolve_run] at hr
  unfold openingAskings
  cases hq : k.refusal? .query with
  | some g => rfl
  | none =>
    cases hf : k.links.find? name with
    | none => rfl
    | some l =>
      rw [hq, hf] at hr
      cases hr

/-- Readying a link asks for no bitrate, unless it is one that is another than the link has; that
request is safe only if the link happens to be down. -/
theorem openingAskings_safe {k : Kernel} (hd : k.links.Distinct) (name : String) (b : UInt32) :
    BitratesFindDown (k.openingAskings name b) ↔
      (k.refusal? .query = none → ∀ l, k.links.find? name = some l → l.isCan = true →
        l.bitrate ≠ some b → l.isUp = false) := by
  unfold openingAskings
  cases hq : k.refusal? .query with
  | some f => simp [BitratesFindDown]
  | none =>
    cases hf : k.links.find? name with
    | none => simp [BitratesFindDown]
    | some l =>
      have hl : l ∈ k.links := List.mem_of_find?_eq_some hf
      have hdown : (∀ m ∈ k.links, m.index = l.index → m.isUp = false) ↔
          l.isUp = false := by
        refine ⟨fun h => h l hl rfl, fun h m hm hi => ?_⟩
        rwa [hd.eq_of_index hl hm hi]
      cases hcan : l.isCan <;> by_cases hb : l.bitrate = some b <;>
        simp [BitratesFindDown, Asking.IsSafe, Asking.FindsDown, Asking.isBitrate, askings,
          issuedBitrate, issued, LinkChange.isIdle, hcan, hb, hdown]

/-- Readying a link asks for its bitrate as it was found, whether it is up or down. -/
theorem prepare_asks (k : Kernel) (name : String) (b q : UInt32) :
    AsksBitrates (k.openingAskings name b) k ((prepare .table name b q).run.run k).2 := by
  have hresolve := Controller.resolve_asks k name
  rcases hr : (Controller.table.resolve name).run.run k with ⟨f | l, k₁⟩ <;>
    rw [hr] at hresolve
  · refine ⟨[], ?_, (openingAskings_lost hr b).symm⟩
    rw [(prepare_lost hr b q).1]
    exact hresolve
  · obtain ⟨hq, hf⟩ := found_of_resolve hr
    have hfirst := setBitrate_asks k₁ l b
    rw [links_of_resolve hr, ← attempt_kernel l] at hfirst
    have hrest : AsksOnly (fun r => r.isBitrate = false)
        ((attempt l (setBitrate .table l b)).run k₁).2
          ((prepare .table name b q).run.run k).2 := by
      rw [prepare, Fallible.run_bind, hr]
      dsimp only
      rw [Fallible.run_bind, Fallible.run_lift]
      refine Keeps.bind_run (Keeps.lift_run (asksOnly_attempt (asksOnly_change fun _ => rfl)))
        (fun p => ?_) _
      refine Keeps.bind_run (Keeps.lift_run (asksOnly_attempt (asksOnly_change fun _ => rfl)))
        fun p => ?_
      split
      · exact Keeps.throw_run _
      · exact Keeps.pure_run _
    obtain ⟨qs, hqs, hp⟩ := hrest
    refine ⟨_, (hresolve.append hfirst).append hqs, ?_⟩
    rw [openingAskings_found hq hf, List.nil_append, List.filter_append,
      List.filter_eq_self.mpr fun r => isBitrate_of_issuedBitrate,
      List.filter_eq_nil_iff.mpr fun r hr => by simp [hp r hr], List.append_nil]

end Link

end CanBus
