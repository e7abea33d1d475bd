import CanBus.Proofs.Link.Requests

/-!
Reconfiguring a link, one step after the other. What a step does depends on the entry and the script
alone (`step_table`), and a row of steps goes on until one fails (`Course`); so what was requested
is the first part of what is needed, the link is down by the time that its parameters are changed,
and after a success there is nothing left to request (`reconfigure_until_failure`).
-/

namespace CanBus

open Kernel

/-- A change that can be made of the link: only a CAN link has a bitrate. -/
def LinkChange.fits (l : Link) : LinkChange → Bool
  | .bitrate _ => l.isCan
  | _ => true

namespace Link

/-! ## Steps -/

def step (ctl : Controller) (l : Link) : LinkChange → Operation (Link × Bool)
  | .admin up => setAdmin ctl l up
  | .bitrate value => setBitrate ctl l value
  | .queueLength value => setQueueLength ctl l value

/-- Each step starts from the link as the one before it left it. -/
def steps (ctl : Controller) : Link → List LinkChange → Operation Link
  | l, [] => pure l
  | l, c :: cs => do
    let (l, _) ← step ctl l c
    steps ctl l cs

def reconfiguration (b q : UInt32) : List LinkChange := [.admin false, .bitrate b, .queueLength q]

theorem nodup_reconfiguration (b q : UInt32) :
    ((reconfiguration b q).map Controller.requestOf).Nodup := by
  show [LinkRequest.adminState, .bitrate, .queueLength].Nodup
  decide

theorem reconfigure_eq (ctl : Controller) (name : String) (b q : UInt32) :
    reconfigure ctl name b q = (do
      let l ← ctl.resolve name
      steps ctl l (reconfiguration b q)) := rfl

theorem step_of_fits (ctl : Controller) {l : Link} {c : LinkChange} (h : c.fits l = true) :
    step ctl l c = change ctl l c := by
  cases c with
  | admin | queueLength => rfl
  | bitrate value =>
    have hk : l.isCan = true := h
    simp only [step, setBitrate, hk, if_true]

theorem step_of_misfit (ctl : Controller) {l : Link} {c : LinkChange} (h : c.fits l = false) :
    step ctl l c = throw (.notCanLink l.name) := by
  cases c with
  | admin | queueLength => cases h
  | bitrate value => exact setBitrate_of_foreign h ctl value

/-- The request that a step comes to. -/
def request (l : Link) (c : LinkChange) : List LinkChange := if c.fits l then l.issued c else []

/-- Why a step fails: a change that doesn't fit always does, and one that is called for if
the request is refused. -/
def obstacle? (l : Link) (k : Kernel) (c : LinkChange) : Option Failure :=
  if c.fits l then
    if c.isIdle l then none else k.refusal? (Controller.requestOf c)
  else some (.notCanLink l.name)

theorem obstacle?_of_fits {l : Link} {c : LinkChange} (h : c.fits l = true) (k : Kernel) :
    l.obstacle? k c = (k.refused (l.issued c)).head? := by
  unfold obstacle? issued
  rw [if_pos h]
  cases c.isIdle l with
  | true => rfl
  | false =>
    cases hr : k.refusal? (Controller.requestOf c) <;> simp [refused, hr]

theorem fits_of_obstacle? {l : Link} {k : Kernel} {c : LinkChange} (h : l.obstacle? k c = none) :
    c.fits l = true := by
  unfold obstacle? at h
  split at h
  · assumption
  · cases h

theorem eq_of_mem_request {l : Link} {c d : LinkChange} (h : d ∈ l.request c) : d = c := by
  unfold request at h
  split at h
  · exact eq_of_mem_issued h
  · cases h

theorem step_table {k : Kernel} {l : Link} (hd : k.links.Distinct) (hl : l ∈ k.links)
    (c : LinkChange) :
    ∃ p k', (step .table l c).run.run k = ((l.obstacle? k c).elim (.ok p) .error, k') ∧
      Carried l k (l.request c) p.1 k' := by
  cases hc : c.fits l with
  | true =>
    obtain ⟨l', k', hr, h⟩ := change_table hd hl c
    refine ⟨(l', !c.isIdle l), k', ?_, ?_⟩
    · rw [step_of_fits _ hc, hr, obstacle?_of_fits hc]
    · rw [request, if_pos hc]
      exact h
  | false =>
    refine ⟨(l, false), k, ?_, ?_⟩
    · rw [step_of_misfit _ hc, obstacle?, hc]
      rfl
    · rw [request, hc]
      exact .nothing hd hl

/-- A step that is passed leaves the link as it was to be. -/
theorem isIdle_of_passed {l l' : Link} {k k' : Kernel} {c : LinkChange}
    (h : Carried l k (l.request c) l' k') (ho : l.obstacle? k c = none) : c.isIdle l' = true := by
  have hc := fits_of_obstacle? ho
  rw [obstacle?_of_fits hc, List.head?_eq_none_iff] at ho
  rw [h.link, request, if_pos hc, granted_of_refused_nil ho, issued]
  cases hi : c.isIdle l with
  | true => simpa using hi
  | false => exact LinkChange.isIdle_apply l c

/-! ## Rows of steps -/

/-- What becomes of a row of steps for the entry `l`: these requests are
made, until a step fails. -/
inductive Course (l : Link) (k : Kernel) :
    List LinkChange → List LinkChange → Option Failure → Prop
  | done : Course l k [] [] none
  | failed {c : LinkChange} {cs : List LinkChange} {f : Failure} (h : l.obstacle? k c = some f) :
      Course l k (c :: cs) (l.request c) (some f)
  | passed {c : LinkChange} {cs made : List LinkChange} {f? : Option Failure}
      (h : l.obstacle? k c = none) (rest : Course l k cs made f?) :
      Course l k (c :: cs) (l.request c ++ made) f?

namespace Course

variable {l l' : Link} {k k' : Kernel} {cs made : List LinkChange} {f? : Option Failure}

/-- Only the entry and the outcomes of the steps count. -/
theorem congr (h : Course l' k' cs made f?) (ho : ∀ c ∈ cs, l'.obstacle? k' c = l.obstacle? k c)
    (hr : ∀ c ∈ cs, l'.request c = l.request c) : Course l k cs made f? := by
  induction h with
  | done => exact .done
  | failed hf =>
    rw [hr _ List.mem_cons_self]
    exact .failed (ho _ List.mem_cons_self ▸ hf)
  | passed hp _ ih =>
    rw [hr _ List.mem_cons_self]
    exact .passed (ho _ List.mem_cons_self ▸ hp) (ih
      (fun c hc => ho c (List.mem_cons_of_mem _ hc)) fun c hc => hr c (List.mem_cons_of_mem _ hc))

/-- The first step that fails is the last one taken. -/
theorem ended {f : Failure} (h : Course l k cs made (some f)) :
    ∃ before c after, cs = before ++ c :: after ∧ (∀ d ∈ before, l.obstacle? k d = none) ∧
      l.obstacle? k c = some f ∧ made = (before ++ [c]).flatMap l.request := by
  generalize hf? : some f = f? at h
  induction h with
  | done => cases hf?
  | @failed c cs g hf =>
    cases hf?
    exact ⟨[], c, cs, rfl, nofun, hf, by simp⟩
  | @passed c cs made f? hp _ ih =>
    obtain ⟨before, d, after, rfl, hb, hd, rfl⟩ := ih hf?
    refine ⟨c :: before, d, after, rfl, ?_, hd, rfl⟩
    exact List.forall_mem_cons.mpr ⟨hp, hb⟩

theorem through (h : Course l k cs made f?) (hf : f? = none) :
    (∀ c ∈ cs, l.obstacle? k c = none) ∧ made = cs.flatMap l.request := by
  induction h with
  | done => exact ⟨nofun, rfl⟩
  | failed => cases hf
  | passed hp _ ih =>
    obtain ⟨ho, rfl⟩ := ih hf
    exact ⟨List.forall_mem_cons.mpr ⟨hp, ho⟩, rfl⟩

theorem eq_none_iff (h : Course l k cs made f?) :
    f? = none ↔ ∀ c ∈ cs, l.obstacle? k c = none := by
  refine ⟨fun hf => (h.through hf).1, fun ho => ?_⟩
  cases f? with
  | none => rfl
  | some f =>
    obtain ⟨before, c, after, rfl, -, hc, -⟩ := h.ended
    rw [ho c (by simp)] at hc
    cases hc

/-- The requests made are the first of those that are called for. -/
theorem isPrefix (h : Course l k cs made f?) : made <+: cs.flatMap l.issued := by
  induction h with
  | done => exact List.prefix_rfl
  | @failed c cs f hf =>
    refine List.IsPrefix.trans ?_ (List.prefix_append _ _)
    unfold request
    split
    · exact List.prefix_rfl
    · exact List.nil_prefix
  | @passed c cs made f? hp _ ih =>
    rw [request, if_pos (fits_of_obstacle? hp), List.flatMap_cons]
    exact (List.prefix_append_right_inj _).mpr ih

theorem mem (h : Course l k cs made f?) {d : LinkChange} (hd : d ∈ made) : d ∈ cs := by
  obtain ⟨c, hc, hd⟩ := List.mem_flatMap.mp (h.isPrefix.subset hd)
  rwa [eq_of_mem_issued hd]

end Course

theorem fits_of_carried {l l' : Link} {k k' : Kernel} {cs : List LinkChange}
    (h : Carried l k cs l' k') (c : LinkChange) : c.fits l' = c.fits l := by
  have hkind : l'.kind = l.kind := by rw [h.link, LinkChange.kind_foldl]
  cases c with
  | admin | queueLength => rfl
  | bitrate value => rw [LinkChange.fits, LinkChange.fits, isCan, isCan, hkind]

theorem request_of_carried {l l' : Link} {k k' : Kernel} {cs : List LinkChange} {c : LinkChange}
    (h : Carried l k cs l' k') (hc : Controller.requestOf c ∉ cs.map Controller.requestOf) :
    l'.request c = l.request c := by
  rw [request, request, fits_of_carried h, issued_of_carried h hc]

/-- Requests of other kinds put nothing in the way of a step, and take nothing out of it. -/
theorem obstacle?_of_carried {l l' : Link} {k k' : Kernel} {cs : List LinkChange} {c : LinkChange}
    (h : Carried l k cs l' k') (hc : Controller.requestOf c ∉ cs.map Controller.requestOf) :
    l'.obstacle? k' c = l.obstacle? k c := by
  have hname : l'.name = l.name := by rw [h.link, LinkChange.name_foldl]
  rw [obstacle?, obstacle?, fits_of_carried h, h.isIdle hc, h.refusal? hc, hname]

/-- A row of steps of different kinds: the entry and the script at the start decide on each. -/
theorem steps_table {k : Kernel} {l : Link} (hd : k.links.Distinct) (hl : l ∈ k.links)
    {cs : List LinkChange} (hn : (cs.map Controller.requestOf).Nodup) :
    ∃ made f? l' k', (steps .table l cs).run.run k = (f?.elim (.ok l') .error, k') ∧
      Carried l k made l' k' ∧ Course l k cs made f? ∧
      (f? = none → ∀ c ∈ cs, c.isIdle l' = true) := by
  induction cs generalizing l k with
  | nil => exact ⟨[], none, l, k, rfl, .nothing hd hl, .done, fun _ => nofun⟩
  | cons c cs ih =>
    obtain ⟨p, k₁, hr, hc⟩ := step_table hd hl c
    have hrun : (steps .table l (c :: cs)).run.run k = _ := Fallible.run_bind k _ _
    rw [hr] at hrun
    cases ho : l.obstacle? k c with
    | some f =>
      rw [ho] at hrun
      exact ⟨l.request c, some f, p.1, k₁, hrun, hc, .failed ho, nofun⟩
    | none =>
      rw [ho] at hrun
      rw [List.map_cons, List.nodup_cons] at hn
      -- the steps to come are of other kinds than this one
      have hother : ∀ d ∈ cs,
          Controller.requestOf d ∉ (l.request c).map Controller.requestOf := by
        intro d hd hm
        obtain ⟨x, hx, he⟩ := List.mem_map.mp hm
        rw [eq_of_mem_request hx] at he
        exact hn.1 (he ▸ List.mem_map_of_mem hd)
      obtain ⟨made, f?, l', k', hr', hc', hcourse, hidle⟩ :=
        ih (hc.distinct hd) (hc.mem hl) hn.2
      refine ⟨l.request c ++ made, f?, l', k', hrun.trans hr', ?_, .passed ho ?_, fun hf => ?_⟩
      · exact hc.append hc' fun d hd => hother d (hcourse.mem hd)
      · exact hcourse.congr (fun d hd => obstacle?_of_carried hc (hother d hd))
          fun d hd => request_of_carried hc (hother d hd)
      · refine List.forall_mem_cons.mpr ⟨?_, hidle hf⟩
        rw [hc'.isIdle fun hm => ?_]
        · exact isIdle_of_passed hc ho
        · obtain ⟨d, hd, he⟩ := List.mem_map.mp hm
          exact hn.1 (he ▸ List.mem_map_of_mem (hcourse.mem hd))

/-! ## The tables that requests find -/

theorem step_asks (k : Kernel) (l : Link) (c : LinkChange) :
    Asks (l.askings k.links (l.request c)) k ((step .table l c).run.run k).2 := by
  unfold request
  cases hc : c.fits l with
  | true =>
    rw [step_of_fits _ hc]
    exact change_asks k l c
  | false =>
    rw [step_of_misfit _ hc]
    exact .refl k

/-- Steps that leave the admin state alone find a link that is down as it is. -/
theorem steps_find_down {k : Kernel} {l : Link} (hd : k.links.Distinct) (hl : l ∈ k.links)
    (hdown : (LinkChange.admin false).isIdle l = true) {cs : List LinkChange}
    (hcs : ∀ c ∈ cs, Controller.requestOf c ≠ .adminState) :
    AsksOnly Asking.FindsDown k ((steps .table l cs).run.run k).2 := by
  induction cs generalizing l k with
  | nil => exact Chained.refl k
  | cons c cs ih =>
    obtain ⟨hc, hcs⟩ := List.forall_mem_cons.mp hcs
    have hstep : AsksOnly Asking.FindsDown k ((step .table l c).run.run k).2 := by
      refine ⟨_, step_asks k l c, fun r hr m hm hi => ?_⟩
      obtain ⟨d, -, rfl⟩ := List.mem_map.mp hr
      rw [hd.eq_of_index hl hm hi]
      simpa [LinkChange.isIdle] using hdown
    obtain ⟨p, k₁, hr, hcarried⟩ := step_table hd hl c
    have hrun : (steps .table l (c :: cs)).run.run k = _ := Fallible.run_bind k _ _
    rw [hr] at hstep hrun
    rw [hrun]
    cases l.obstacle? k c with
    | some f => exact hstep
    | none =>
      refine Chained.trans hstep (ih (hcarried.distinct hd) (hcarried.mem hl) ?_ hcs)
      rw [hcarried.isIdle fun hm => ?_]
      · exact hdown
      · obtain ⟨d, hd, he⟩ := List.mem_map.mp hm
        rw [eq_of_mem_request hd] at he
        exact hc he

end Link

theorem AsksOnly.mono {P Q : Asking → Prop} {k k' : Kernel} (h : AsksOnly P k k')
    (hpq : ∀ r, P r → Q r) : AsksOnly Q k k' := by
  obtain ⟨rs, hrs, hp⟩ := h
  exact ⟨rs, hrs, fun r hr => hpq r (hp r hr)⟩

/-- If it is not the admin state that is to be changed, the link is down. -/
def Asking.IsSettled (r : Asking) : Prop := (∀ up, r.change ≠ .admin up) → r.FindsDown

theorem Asking.IsSettled.isSafe {r : Asking} (h : r.IsSettled) : r.IsSafe := by
  intro hb
  refine h fun up hr => ?_
  rw [isBitrate, hr] at hb
  cases hb

namespace Link

/-- With distinct indices, a link is down before anything else is changed of it. -/
theorem reconfigure_settled {k : Kernel} (hd : k.links.Distinct) (name : String) (b q : UInt32) :
    AsksOnly Asking.IsSettled k ((reconfigure .table name b q).run.run k).2 := by
  have hresolve := Controller.resolve_asks k name
  rw [reconfigure_eq, Fallible.run_bind]
  rcases hr : (Controller.table.resolve name).run.run k with ⟨f | l, k₁⟩ <;>
    rw [hr] at hresolve
  · exact hresolve.only _
  obtain ⟨-, hf⟩ := found_of_resolve hr
  have hl : l ∈ k₁.links := links_of_resolve hr ▸ List.mem_of_find?_eq_some hf
  have hd₁ : k₁.links.Distinct := hresolve.distinct hd
  refine Chained.trans (hresolve.only _) ?_
  have hadmin : AsksOnly Asking.IsSettled k₁ ((step .table l (.admin false)).run.run k₁).2 := by
    refine ⟨_, step_asks k₁ l _, fun r hr h => ?_⟩
    obtain ⟨c, hc, rfl⟩ := List.mem_map.mp hr
    exact absurd (eq_of_mem_request hc) (h false)
  obtain ⟨p, k₂, hstep, hc⟩ := step_table hd₁ hl (.admin false)
  have hrun : (steps .table l (reconfiguration b q)).run.run k₁ = _ := Fallible.run_bind k₁ _ _
  rw [hstep] at hadmin hrun
  dsimp only
  rw [hrun]
  cases ho : l.obstacle? k₁ (.admin false) with
  | some f => exact hadmin
  | none =>
    have hothers : ∀ c ∈ [LinkChange.bitrate b, .queueLength q],
        Controller.requestOf c ≠ .adminState := by simp [Controller.requestOf]
    have hrest := steps_find_down (hc.distinct hd₁) (hc.mem hl) (isIdle_of_passed hc ho) hothers
    exact Chained.trans hadmin (hrest.mono fun r h _ => h)

theorem reconfigure_asks {k : Kernel} (hd : k.links.Distinct) (name : String) (b q : UInt32) :
    AsksOnly Asking.IsSafe k ((reconfigure .table name b q).run.run k).2 :=
  (reconfigure_settled hd name b q).mono fun _ => Asking.IsSettled.isSafe

/-! ## The whole of it -/

/-- A look-up that fails is all there is. -/
theorem reconfigure_lost {k k₁ : Kernel} {name : String} {f : Failure}
    (hr : (Controller.table.resolve name).run.run k = (.error f, k₁)) (b q : UInt32) :
    (reconfigure .table name b q).run.run k = (.error f, k₁) := by
  rw [reconfigure_eq, Fallible.run_bind, hr]

/-- What it takes to reconfigure a link, in order. -/
def needed (l : Link) (b q : UInt32) : List LinkChange :=
  (if l.isUp then [.admin false] else []) ++
    ((if l.bitrate ≠ some b then [.bitrate b] else []) ++
      if l.queueLength ≠ some q then [.queueLength q] else [])

theorem flatMap_issued (l : Link) (b q : UInt32) :
    (reconfiguration b q).flatMap l.issued = l.needed b q := by
  cases hu : l.isUp <;> by_cases hb : l.bitrate = some b <;>
    by_cases hq : l.queueLength = some q <;>
    simp [reconfiguration, needed, issued, LinkChange.isIdle, hu, hb, hq]

/-- The entry with what was granted of these requests. -/
def granting (l : Link) (k : Kernel) (made : List LinkChange) : Link :=
  (k.granted made).foldl LinkChange.apply l

theorem reconfigure_table {k : Kernel} {name : String} {l : Link} (hd : k.links.Distinct)
    (hq : k.refusal? .query = none) (hf : k.links.find? name = some l) (b q : UInt32) :
    ∃ made f? k', (reconfigure .table name b q).run.run k =
        (f?.elim (.ok (l.granting k made)) .error, k') ∧
      Course l k (reconfiguration b q) made f? ∧
      k'.calls = k.calls ++ .linkQuery name :: made.map (Controller.callOf l.index) ∧
      k'.links = k.links.put (l.granting k made) ∧
      k'.links.find? name = some (l.granting k made) ∧
      (f? = none → ∀ c ∈ reconfiguration b q, c.isIdle (l.granting k made) = true) := by
  let k₁ := k.called (.linkQuery name) (.link .query)
  have hr : (Controller.table.resolve name).run.run k = (.ok l, k₁) := resolve_of_found hq hf
  have hl : l ∈ k.links := List.mem_of_find?_eq_some hf
  obtain ⟨made, f?, l', k', hrun, hc, hcourse, hidle⟩ :=
    steps_table (k := k₁) hd hl (nodup_reconfiguration b q)
  have he : l' = l.granting k made := by rw [hc.link, granting, granted_called]
  have hput : k'.links = k.links.put l' := hc.links
  have hobstacle (c : LinkChange) : l.obstacle? k₁ c = l.obstacle? k c := by
    rw [obstacle?, obstacle?, refusal?_called]
  subst he
  refine ⟨made, f?, k', ?_, hcourse.congr (fun c _ => hobstacle c) fun _ _ => rfl, ?_, hput, ?_,
    hidle⟩
  · rw [reconfigure_eq, Fallible.run_bind, hr]
    exact hrun
  · rw [hc.calls, calls_called, List.append_assoc]
    rfl
  · rw [hput]
    exact LinkTable.find?_put hf (LinkChange.index_foldl _ _) (LinkChange.name_foldl _ _) hd

/-- A link that already is so calls for nothing. -/
theorem request_of_isIdle {l : Link} {c : LinkChange} (h : c.isIdle l = true) :
    l.request c = [] := by
  simp [request, issued, h]

theorem tuned_of_isIdle {l : Link} {b q : UInt32}
    (h : ∀ c ∈ reconfiguration b q, c.isIdle l = true) :
    l.isUp = false ∧ l.bitrate = some b ∧ l.queueLength = some q := by
  simpa [reconfiguration, LinkChange.isIdle] using h

/-- Another reconfiguration to the same finds nothing to do. -/
theorem reconfigure_again {k : Kernel} {name : String} {l : Link} (hd : k.links.Distinct)
    (hf : k.links.find? name = some l) {b q : UInt32} (hk : l.isCan = true)
    (hidle : ∀ c ∈ reconfiguration b q, c.isIdle l = true) :
    let again := (reconfigure .table name b q).run.run k
    again.2.calls = k.calls ++ [.linkQuery name] ∧ again.2.links = k.links ∧
      again.1 = (k.refusal? .query).elim (.ok l) .error := by
  intro again
  cases hq : k.refusal? .query with
  | some f =>
    have hr : (Controller.table.resolve name).run.run k =
        (.error f, k.called (.linkQuery name) (.link .query)) := by
      rw [Controller.tableResolve_run, hq]
    rw [show again = _ from reconfigure_lost hr b q]
    exact ⟨calls_called _ _ _, rfl, rfl⟩
  | none =>
    obtain ⟨made, f?, k', hrun, hcourse, hcalls, hlinks, -, -⟩ := reconfigure_table hd hq hf b q
    have hnone : f? = none := by
      refine hcourse.eq_none_iff.mpr fun c hc => ?_
      have hfits : c.fits l = true := by cases c <;> first | rfl | exact hk
      rw [obstacle?, if_pos hfits, if_pos (hidle c hc)]
    have hmade : made = [] := by
      rw [(hcourse.through hnone).2, List.flatMap_eq_nil_iff]
      exact fun c hc => request_of_isIdle (hidle c hc)
    have hsame : l.granting k [] = l := rfl
    rw [hmade] at hcalls hlinks
    rw [hmade, hnone] at hrun
    rw [hsame, LinkTable.put_self hd (List.mem_of_find?_eq_some hf)] at hlinks
    rw [show again = _ from hrun]
    exact ⟨hcalls, hlinks, rfl⟩

/-- The requests needed go on until one fails. If none does, the link is down with what was asked
for, and reconfiguring it again requests nothing. -/
theorem reconfigure_until_failure (k : Kernel) (hd : k.links.Distinct) (name : String)
    (b q : UInt32) :
    let o := (reconfigure .table name b q).run.run k
    (∀ f k₁, (Controller.table.resolve name).run.run k = (.error f, k₁) →
      o = (.error f, k₁) ∧ k₁.calls = k.calls ++ [.linkQuery name] ∧
      k₁.links = k.links) ∧
    ∀ l k₁, (Controller.table.resolve name).run.run k = (.ok l, k₁) →
      k.links.find? name = some l ∧
      ∃ made, made <+: l.needed b q ∧
        o.2.calls = k.calls ++ .linkQuery name :: made.map (Controller.callOf l.index) ∧
        o.2.links = k.links.put ((k.granted made).foldl LinkChange.apply l) ∧
        o.2.links.find? name = some ((k.granted made).foldl LinkChange.apply l) ∧
        (∀ r ∈ k.askedSince o.2, (∀ up, r.change ≠ .admin up) → r.FindsDown) ∧
        (∀ f, o.1 = .error f →
          ∃ before c after, reconfiguration b q = before ++ c :: after ∧
            (∀ d ∈ before, l.obstacle? k d = none) ∧ l.obstacle? k c = some f ∧
            made = (before ++ [c]).flatMap l.request) ∧
        ((∃ m, o.1 = .ok m) ↔ ∀ c ∈ reconfiguration b q, l.obstacle? k c = none) ∧
        ∀ m, o.1 = .ok m →
          o.2.links.find? name = some m ∧ made = l.needed b q ∧
          m.isUp = false ∧ m.bitrate = some b ∧ m.queueLength = some q ∧
          let again := (reconfigure .table name b q).run.run o.2
          again.2.calls = o.2.calls ++ [.linkQuery name] ∧ again.2.links = o.2.links ∧
          again.1 = (o.2.refusal? .query).elim (.ok m) .error := by
  intro o
  constructor
  · intro f k₁ hr
    exact ⟨reconfigure_lost hr b q, calls_of_resolve hr, links_of_resolve hr⟩
  intro l k₁ hr
  obtain ⟨hq, hf⟩ := found_of_resolve hr
  obtain ⟨made, f?, k', hrun, hcourse, hcalls, hlinks, hfind, hidle⟩ :=
    reconfigure_table hd hq hf b q
  obtain ⟨rs, hrs, hsettled⟩ := reconfigure_settled hd name b q
  have hasked : k.askedSince o.2 = rs := hrs.askedSince
  have ho : o = (f?.elim (.ok (l.granting k made)) .error, k') := hrun
  rw [hasked, ho]
  refine ⟨hf, made, flatMap_issued l b q ▸ hcourse.isPrefix, hcalls, hlinks, hfind, hsettled,
    fun f hfail => ?_, ?_, fun m hm => ?_⟩
  · cases f? with
    | none => cases hfail
    | some g =>
      cases hfail
      exact hcourse.ended
  · rw [← hcourse.eq_none_iff]
    cases f? <;> simp
  cases f? with
  | some f => cases hm
  | none =>
    cases hm
    obtain ⟨hnone, hmade⟩ := hcourse.through rfl
    obtain ⟨hdown, hrate, hqueue⟩ := tuned_of_isIdle (hidle rfl)
    have hkind : (l.granting k made).isCan = true := by
      have hc : l.isCan = true := fits_of_obstacle? (hnone (.bitrate b) (by simp [reconfiguration]))
      rw [isCan, granting, LinkChange.kind_foldl]
      exact hc
    have hd' : k'.links.Distinct := by
      rw [hlinks]
      exact hd.put _
    refine ⟨hfind, ?_, hdown, hrate, hqueue, reconfigure_again hd' hfind hkind (hidle rfl)⟩
    rw [hmade, ← flatMap_issued, List.flatMap_def, List.flatMap_def]
    refine congrArg List.flatten (List.map_congr_left fun c hc => ?_)
    rw [request, if_pos (fits_of_obstacle? (hnone c hc))]

/-- The bitrate is refused at first, so that the queue length is not asked for. The next time both
are requested of the link that is down by then, and after that nothing. -/
theorem reconfigure_until_failure_of_bitrate :
    let l : Link := ⟨"can0", 7, true, some "can", some 125000, some 10⟩
    let k : Kernel :=
      { links := [l, ⟨"vcan0", 8, true, some "vcan", none, none⟩]
        script := override (fun _ => []) (.link .bitrate) [-22] }
    let o := (reconfigure .table "can0" 500000 1000).run.run k
    let o₂ := (reconfigure .table "can0" 500000 1000).run.run o.2
    let o₃ := (reconfigure .table "can0" 500000 1000).run.run o₂.2
    let tuned : Link := ⟨"can0", 7, false, some "can", some 500000, some 1000⟩
    (k.links.Distinct ∧ o.2.links.Distinct) ∧
      o.1 = .error (.rejected .bitrate (-22)) ∧
      o.2.calls = [.linkQuery "can0", .linkAdmin 7 false, .linkBitrate 7 500000] ∧
      o.2.links.find? "can0" = some { l with isUp := false } ∧
      o₂.2.calls = o.2.calls ++
        [.linkQuery "can0", .linkBitrate 7 500000, .linkQueueLength 7 1000] ∧
      o₂.1 = .ok tuned ∧ o₃.2.calls = o₂.2.calls ++ [.linkQuery "can0"] ∧
        o₃.1 = .ok tuned := by
  intro l k o o₂ o₃ tuned
  have hd : k.links.Distinct := by
    unfold LinkTable.Distinct
    decide
  have hd₂ : o.2.links.Distinct := by
    unfold LinkTable.Distinct
    decide
  obtain ⟨-, made, -, hcalls, -, -, -, -, -, hok⟩ :=
    (reconfigure_until_failure o.2 hd₂ "can0" 500000 1000).2 { l with isUp := false } _ rfl
  obtain ⟨-, hmade, -, -, -, hcalls₃, -, hrun₃⟩ := hok tuned rfl
  rw [hmade] at hcalls
  exact ⟨⟨hd, hd₂⟩, rfl, rfl, rfl, hcalls, rfl, hcalls₃, hrun₃⟩

end Link

end CanBus
