import CanBus.Proofs.Kernel

/-!
Changes through a link table. With distinct indices a change reaches the entry that was looked up
and no other (`change?_eq_put`). `Carried` says what a row of requests does to the entry, the
record of calls and the script; each request of the row is refused or granted by the outcome that
is scripted for its kind.
-/

namespace CanBus

open Kernel

/-! ## Entries -/

namespace LinkChange

@[simp] theorem index_apply (l : Link) (c : LinkChange) : (c.apply l).index = l.index := by
  cases c <;> rfl

@[simp] theorem name_apply (l : Link) (c : LinkChange) : (c.apply l).name = l.name := by
  cases c <;> rfl

end LinkChange

namespace LinkTable

/-- Puts a link in the place of the one that has its index. -/
def put (t : LinkTable) (l : Link) : LinkTable := t.map fun m => if m.index = l.index then l else m

theorem indices_put (t : LinkTable) (l : Link) : (t.put l).map Link.index = t.map Link.index := by
  rw [put, List.map_map]
  refine List.map_congr_left fun m _ => ?_
  by_cases h : m.index = l.index <;> simp [h]

theorem put_put (t : LinkTable) {l l' : Link} (h : l'.index = l.index) :
    (t.put l).put l' = t.put l' := by
  rw [put, put, put, List.map_map]
  refine List.map_congr_left fun m _ => ?_
  by_cases hm : m.index = l.index <;> simp [h, hm]

/-- Indices are distinct. -/
def Distinct (t : LinkTable) : Prop := (t.map Link.index).Nodup

theorem Distinct.put {t : LinkTable} (h : t.Distinct) (l : Link) : (t.put l).Distinct := by
  rw [Distinct, indices_put]
  exact h

theorem put_of_forall_ne {t : LinkTable} {l : Link} (h : ∀ m ∈ t, m.index ≠ l.index) :
    t.put l = t := by
  refine (List.map_congr_left fun m hm => ?_).trans (List.map_id t)
  simp [h m hm]

variable {t : LinkTable} {name : String} {l : Link}

/-- What is said of the head of a table: no entry behind it has its index. -/
theorem Distinct.head_ne {m : Link} (h : Distinct (m :: t)) : ∀ x ∈ t, x.index ≠ m.index := by
  intro x hx he
  rw [Distinct, List.map_cons, List.nodup_cons] at h
  exact h.1 (he ▸ List.mem_map_of_mem hx)

theorem Distinct.tail {m : Link} (h : Distinct (m :: t)) : Distinct t := by
  rw [Distinct, List.map_cons, List.nodup_cons] at h
  exact h.2

theorem put_self (hd : t.Distinct) (hl : l ∈ t) : t.put l = t := by
  induction t with
  | nil => cases hl
  | cons m t ih =>
    rcases List.mem_cons.mp hl with rfl | hl
    · have ht := put_of_forall_ne hd.head_ne
      simp only [put, List.map_cons, if_true] at ht ⊢
      rw [ht]
    · have hne : m.index ≠ l.index := fun h => hd.head_ne l hl h.symm
      have ht := ih hd.tail hl
      simp only [put, List.map_cons, hne, if_false] at ht ⊢
      rw [ht]

theorem eq_of_mem_put {m : Link} (h : m ∈ t.put l) (hi : m.index = l.index) : m = l := by
  obtain ⟨x, -, rfl⟩ := List.mem_map.mp h
  split at hi
  · rw [if_pos ‹_›]
  · exact absurd hi ‹_›

theorem Distinct.eq_of_index {m : Link} (hd : t.Distinct) (hl : l ∈ t) (hm : m ∈ t)
    (hi : m.index = l.index) : m = l := by
  rw [← put_self hd hl] at hm
  exact eq_of_mem_put hm hi

/-- The change of an index reaches the entry that has it. -/
theorem change?_eq_put (hd : t.Distinct) (hl : l ∈ t) (c : LinkChange) :
    t.change? l.index c = some (t.put (c.apply l)) := by
  induction t with
  | nil => cases hl
  | cons m t ih =>
    rcases List.mem_cons.mp hl with rfl | hl
    · have ht : put t (c.apply l) = t := put_of_forall_ne (by simpa using hd.head_ne)
      rw [put, LinkChange.index_apply] at ht
      simp [change?, put, ht]
    · have hne : m.index ≠ l.index := fun h => hd.head_ne l hl h.symm
      simp [change?, put, hne, ih hd.tail hl]

/-- A look-up by name finds the entry that was put in place of the one found before. -/
theorem find?_put (hf : t.find? name = some l) {l' : Link} (hi : l'.index = l.index)
    (hn : l'.name = l.name) (hd : t.Distinct) : (t.put l').find? name = some l' := by
  induction t with
  | nil => cases hf
  | cons m t ih =>
    by_cases hm : m.name = name
    · have hml : m = l := by simpa [find?, hm] using hf
      subst hml
      simp [find?, put, hi, hn, hm]
    · have hl : find? t name = some l := by simpa [find?, hm] using hf
      have hmem : l ∈ t := List.mem_of_find?_eq_some hl
      have hne : m.index ≠ l'.index := fun h => hd.head_ne l hmem (hi ▸ h.symm)
      have ht := ih hl hd.tail
      simp only [find?, put, List.map_cons, hne, if_false, List.find?_cons, hm,
        decide_false] at ht ⊢
      exact ht

end LinkTable

/-! ## Requests -/

namespace Kernel

/-- The failure that the next outcome for a kind of request stands for. -/
def refusal? (k : Kernel) (request : LinkRequest) : Option Failure :=
  let n := k.nextOutcome (.link request)
  if n < 0 then some (.rejected request n) else if 0 < n then some .notOpen else none

/-- Those of a row of requests that succeed. -/
def granted (k : Kernel) (cs : List LinkChange) : List LinkChange :=
  cs.filter fun c => (k.refusal? (Controller.requestOf c)).isNone

/-- The failures of the others. -/
def refused (k : Kernel) (cs : List LinkChange) : List Failure :=
  cs.filterMap fun c => k.refusal? (Controller.requestOf c)

theorem refused_append (k : Kernel) (cs ds : List LinkChange) :
    k.refused (cs ++ ds) = k.refused cs ++ k.refused ds := List.filterMap_append

theorem granted_of_refused_nil {k : Kernel} {cs : List LinkChange} (h : k.refused cs = []) :
    k.granted cs = cs := by
  rw [refused, List.filterMap_eq_nil_iff] at h
  rw [granted, List.filter_eq_self]
  intro c hc
  rw [h c hc]
  rfl

theorem refusal?_of_script {k k' : Kernel} {r : LinkRequest}
    (h : k'.script (.link r) = k.script (.link r)) : k'.refusal? r = k.refusal? r := by
  rw [refusal?, refusal?, nextOutcome, nextOutcome, h]

end Kernel

namespace Controller

theorem tableCall_run (k : Kernel) {request : LinkRequest} {c : Kernel.Call}
    (hc : c.service? = some (.link request)) :
    (tableCall request c).run.run k =
      ((k.refusal? request).elim (.ok ()) .error, k.called c (.link request)) := by
  simp only [tableCall, Fallible.run_bind, Fallible.run_lift, perform_run k hc, refusal?]
  by_cases hn : k.nextOutcome (.link request) < 0
  · simp only [hn, if_true]
    rfl
  · by_cases hp : 0 < k.nextOutcome (.link request)
    · simp only [hn, hp, if_true, if_false]
      rfl
    · simp only [hn, hp, if_false]
      rfl

/-- A look-up in the table is refused by its outcome, or finds the entry with the name. -/
theorem tableResolve_run (k : Kernel) (name : String) :
    (table.resolve name).run.run k =
      (match k.refusal? .query with
        | some f => .error f
        | none => (k.links.find? name).elim (.error (.interfaceNotFound name)) .ok,
        k.called (.linkQuery name) (.link .query)) := by
  have hq : (Call.linkQuery name).service? = some (.link .query) := rfl
  simp only [resolve, tableResolve, Fallible.run_bind, tableCall_run k hq]
  cases k.refusal? .query with
  | some f => rfl
  | none =>
    have hl : (k.called (.linkQuery name) (.link .query)).links = k.links := rfl
    simp only [Option.elim, Fallible.run_get, hl]
    cases k.links.find? name <;> rfl

/-- A request to the table is refused by its outcome, or carried out if there is such a link. -/
theorem apply_run (k : Kernel) (l : Link) (c : LinkChange) :
    (table.apply l c).run.run k =
      let k₁ := k.called (callOf l.index c) (.link (requestOf c))
      match k.refusal? (requestOf c), k.links.change? l.index c with
      | some f, _ => (.error f, k₁)
      | none, some t => (.ok (), { k₁ with links := t })
      | none, none => (.error (.interfaceNotFound l.name), k₁) := by
  simp only [apply, tableApply, Fallible.run_bind, tableCall_run k (service_callOf l.index c)]
  cases k.refusal? (requestOf c) with
  | some f => rfl
  | none =>
    have hk : (k.called (callOf l.index c) (.link (requestOf c))).links = k.links := rfl
    simp only [Option.elim, Fallible.run_get, hk]
    cases k.links.change? l.index c <;> rfl

theorem tableApply_run {k : Kernel} {l : Link} (hd : k.links.Distinct) (hl : l ∈ k.links)
    (c : LinkChange) :
    (table.apply l c).run.run k =
      let k₁ := k.called (callOf l.index c) (.link (requestOf c))
      match k.refusal? (requestOf c) with
      | some f => (.error f, k₁)
      | none => (.ok (), { k₁ with links := k.links.put (c.apply l) }) := by
  rw [apply_run, LinkTable.change?_eq_put hd hl]
  cases k.refusal? (requestOf c) <;> rfl

end Controller

/-! ## Rows of requests -/

/-- A row of requests was issued for the entry `l`, which those that were granted have made `l'`. -/
structure Carried (l : Link) (k : Kernel) (cs : List LinkChange) (l' : Link) (k' : Kernel) :
    Prop where
  link : l' = (k.granted cs).foldl LinkChange.apply l
  links : k'.links = k.links.put l'
  calls : k'.calls = k.calls ++ cs.map (Controller.callOf l.index)
  script : ∀ r, r ∉ cs.map Controller.requestOf → k'.script (.link r) = k.script (.link r)

namespace LinkChange

theorem index_foldl (l : Link) (cs : List LinkChange) : (cs.foldl apply l).index = l.index := by
  induction cs generalizing l with
  | nil => rfl
  | cons c cs ih => rw [List.foldl_cons, ih, index_apply]

theorem name_foldl (l : Link) (cs : List LinkChange) : (cs.foldl apply l).name = l.name := by
  induction cs generalizing l with
  | nil => rfl
  | cons c cs ih => rw [List.foldl_cons, ih, name_apply]

theorem kind_foldl (l : Link) (cs : List LinkChange) : (cs.foldl apply l).kind = l.kind := by
  induction cs generalizing l with
  | nil => rfl
  | cons c cs ih =>
    rw [List.foldl_cons, ih]
    cases c <;> rfl

/-- A change of one kind makes no difference to whether one of another kind is called for. -/
theorem isIdle_foldl (c : LinkChange) (l : Link) {cs : List LinkChange}
    (h : ∀ d ∈ cs, Controller.requestOf d ≠ Controller.requestOf c) :
    c.isIdle (cs.foldl apply l) = c.isIdle l := by
  induction cs generalizing l with
  | nil => rfl
  | cons d cs ih =>
    have hd := h d List.mem_cons_self
    rw [List.foldl_cons, ih _ fun x hx => h x (List.mem_cons_of_mem _ hx)]
    cases c <;> cases d <;> first | rfl | exact absurd rfl hd

end LinkChange

namespace Carried

variable {l l₁ l' : Link} {k k₁ k' : Kernel} {cs ds : List LinkChange}

theorem nothing (hd : k.links.Distinct) (hl : l ∈ k.links) : Carried l k [] l k where
  link := rfl
  links := (LinkTable.put_self hd hl).symm
  calls := (List.append_nil _).symm
  script _ _ := rfl

theorem index (h : Carried l k cs l' k') : l'.index = l.index := by
  rw [h.link, LinkChange.index_foldl]

theorem distinct (h : Carried l k cs l' k') (hd : k.links.Distinct) : k'.links.Distinct := by
  rw [h.links]
  exact hd.put l'

theorem mem (h : Carried l k cs l' k') (hl : l ∈ k.links) : l' ∈ k'.links := by
  rw [h.links, LinkTable.put, List.mem_map]
  exact ⟨l, hl, by rw [if_pos h.index.symm]⟩

theorem refusal? (h : Carried l k cs l' k') {r : LinkRequest}
    (hr : r ∉ cs.map Controller.requestOf) : k'.refusal? r = k.refusal? r :=
  refusal?_of_script (h.script r hr)

theorem granted (h : Carried l k cs l' k')
    (hd : ∀ d ∈ ds, Controller.requestOf d ∉ cs.map Controller.requestOf) :
    k'.granted ds = k.granted ds :=
  List.filter_congr fun d hm => by rw [h.refusal? (hd d hm)]

theorem refused (h : Carried l k cs l' k')
    (hd : ∀ d ∈ ds, Controller.requestOf d ∉ cs.map Controller.requestOf) :
    k'.refused ds = k.refused ds := by
  rw [Kernel.refused, Kernel.refused]
  induction ds with
  | nil => rfl
  | cons d ds ih =>
    have hds := ih fun x hx => hd x (List.mem_cons_of_mem _ hx)
    rw [List.filterMap_cons, List.filterMap_cons, h.refusal? (hd d List.mem_cons_self), hds]

/-- The requests of the second row are of other kinds than those of the first. -/
theorem append (h₁ : Carried l k cs l₁ k₁) (h₂ : Carried l₁ k₁ ds l' k')
    (hd : ∀ d ∈ ds, Controller.requestOf d ∉ cs.map Controller.requestOf) :
    Carried l k (cs ++ ds) l' k' where
  link := by
    rw [h₂.link, h₁.granted hd, h₁.link, Kernel.granted, Kernel.granted, Kernel.granted,
      List.filter_append, List.foldl_append]
  links := by rw [h₂.links, h₁.links, LinkTable.put_put _ h₂.index]
  calls := by rw [h₂.calls, h₁.calls, h₁.index, List.map_append, List.append_assoc]
  script r hr := by
    rw [List.map_append, List.mem_append, not_or] at hr
    rw [h₂.script r hr.2, h₁.script r hr.1]

theorem isIdle (h : Carried l k cs l' k') {c : LinkChange}
    (hc : Controller.requestOf c ∉ cs.map Controller.requestOf) : c.isIdle l' = c.isIdle l := by
  rw [h.link]
  refine c.isIdle_foldl l fun d hm he => hc ?_
  exact he ▸ List.mem_map_of_mem (List.mem_filter.mp hm).1

/-- What is logged in between makes no difference. -/
theorem noted (h : Carried l k cs l' k') (t : Thread) (level : LogLevel) (text : String) :
    Carried l k cs l' (k'.noted (.log t level text)) :=
  ⟨h.link, h.links, by rw [calls_logged]; exact h.calls, h.script⟩

end Carried

namespace Link

/-- The request that a change comes to, if it makes a difference. -/
def issued (l : Link) (c : LinkChange) : List LinkChange := if c.isIdle l then [] else [c]

theorem eq_of_mem_issued {l : Link} {c d : LinkChange} (h : d ∈ l.issued c) : d = c := by
  unfold issued at h
  split at h
  · cases h
  · exact List.mem_singleton.mp h

theorem logDone_run (l : Link) (c : LinkChange) (k : Kernel) :
    ∃ level text, (logDone l c).run k = ((), k.noted (.log k.thread level text)) := by
  cases c <;> exact ⟨_, _, rfl⟩

theorem logFailed_run (l : Link) (f : Failure) (c : LinkChange) (k : Kernel) :
    (logFailed l f c).run k = ((), k) ∨
      ∃ level text, (logFailed l f c).run k = ((), k.noted (.log k.thread level text)) := by
  cases c with
  | queueLength value => exact .inl rfl
  | _ => exact .inr ⟨_, _, rfl⟩

/-- One request through the table. -/
theorem apply_table {k : Kernel} {l : Link} (hd : k.links.Distinct) (hl : l ∈ k.links)
    (c : LinkChange) :
    ∃ k', (Controller.table.apply l c).run.run k =
        ((k.refusal? (Controller.requestOf c)).elim (.ok ()) .error, k') ∧
      Carried l k [c]
        (if (k.refusal? (Controller.requestOf c)).isNone then c.apply l else l) k' := by
  let k₁ := k.called (Controller.callOf l.index c) (.link (Controller.requestOf c))
  have hcalls : k₁.calls = k.calls ++ [Controller.callOf l.index c] := calls_called _ _ _
  have hs : ∀ r, r ∉ [c].map Controller.requestOf →
      k₁.script (.link r) = k.script (.link r) := by
    intro r hr
    exact script_called_of_ne k _ (by simpa using hr)
  rw [Controller.tableApply_run hd hl c]
  cases hf : k.refusal? (Controller.requestOf c) with
  | some f =>
    refine ⟨k₁, rfl, ?_, (LinkTable.put_self hd hl).symm, hcalls, hs⟩
    simp [Kernel.granted, hf]
  | none =>
    refine ⟨{ k₁ with links := k.links.put (c.apply l) }, rfl, ?_, rfl, hcalls, hs⟩
    simp [Kernel.granted, hf]

/-- A change that is called for is a request, of which the outcome is logged. -/
theorem change_run (ctl : Controller) {l : Link} {c : LinkChange} (h : c.isIdle l = false)
    (k : Kernel) :
    let o := (ctl.apply l c).run.run k
    ∃ k', (change ctl l c).run.run k = (o.1.map fun _ => (c.apply l, true), k') ∧
      (k' = o.2 ∨ ∃ level text, k' = o.2.noted (.log o.2.thread level text)) := by
  intro o
  simp only [change, h, Bool.false_eq_true, if_false]
  rw [Fallible.run_bind, ExceptT.run_tryCatch, System.run_bind]
  rcases ho : o with ⟨f | u, k₁⟩ <;> rw [show (ctl.apply l c).run.run k = _ from ho]
  · refine ⟨((logFailed l f c).run k₁).2, rfl, ?_⟩
    obtain hlog | ⟨level, text, hlog⟩ := logFailed_run l f c k₁
    · rw [hlog]
      exact .inl rfl
    · rw [hlog]
      exact .inr ⟨level, text, rfl⟩
  · obtain ⟨level, text, hlog⟩ := logDone_run l c k₁
    refine ⟨k₁.noted (.log k₁.thread level text), ?_, .inr ⟨level, text, rfl⟩⟩
    show (liftM (logDone l c) >>= fun _ =>
      pure (c.apply l, true) : Operation (Link × Bool)).run.run k₁ = _
    rw [Fallible.run_bind, Fallible.run_lift, hlog]
    rfl

/-- One change through the table: no request if the entry already is so. -/
theorem change_table {k : Kernel} {l : Link} (hd : k.links.Distinct) (hl : l ∈ k.links)
    (c : LinkChange) :
    ∃ l' k', (change .table l c).run.run k =
        ((k.refused (l.issued c)).head?.elim (.ok (l', !c.isIdle l)) .error, k') ∧
      Carried l k (l.issued c) l' k' := by
  cases hi : c.isIdle l with
  | true =>
    unfold change issued
    rw [hi]
    exact ⟨l, k, rfl, .nothing hd hl⟩
  | false =>
    obtain ⟨k₁, hr, hc⟩ := apply_table hd hl c
    obtain ⟨k', hrun, hlog⟩ := change_run .table hi k
    rw [hr] at hrun hlog
    have hissued : l.issued c = [c] := by rw [issued, hi]; rfl
    have hrefused : (k.refused [c]).head? = k.refusal? (Controller.requestOf c) := by
      cases hf : k.refusal? (Controller.requestOf c) <;> simp [Kernel.refused, hf]
    refine ⟨if (k.refusal? (Controller.requestOf c)).isNone then c.apply l else l, k', ?_, ?_⟩
    · rw [hrun, hissued, hrefused]
      cases k.refusal? (Controller.requestOf c) <;> rfl
    · rw [hissued]
      rcases hlog with rfl | ⟨level, text, rfl⟩
      · exact hc
      · exact hc.noted _ _ _

end Link

end CanBus
