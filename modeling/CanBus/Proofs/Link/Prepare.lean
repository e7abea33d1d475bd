import CanBus.Proofs.Link.Table

/-!
Readying a link. Every request that is called for is issued, whatever becomes of those before it;
the entry takes on what was granted, the first failure is the one that is reported, and after a
success there is nothing left to request (`prepare_converges`).
-/

namespace CanBus

open Kernel

namespace Link

/-- The requests that it takes to ready a link, in order. -/
def wanted (l : Link) (bitrate queueLength : UInt32) : List LinkChange :=
  (if l.isCan ∧ l.bitrate ≠ some bitrate then [.bitrate bitrate] else []) ++
    ((if l.queueLength ≠ some queueLength then [.queueLength queueLength] else []) ++
      if l.isUp then [] else [.admin true])

/-- What fails of them, in order. On a link of another kind the bitrate fails before any request. -/
def failures (l : Link) (k : Kernel) (bitrate queueLength : UInt32) : List Failure :=
  (if l.isCan then [] else [.notCanLink l.name]) ++ k.refused (l.wanted bitrate queueLength)

/-- The entry with what was granted of them. -/
def readied (l : Link) (k : Kernel) (bitrate queueLength : UInt32) : Link :=
  (k.granted (l.wanted bitrate queueLength)).foldl LinkChange.apply l

/-! ## Steps -/

theorem eq_of_refused {l l' : Link} {k k' : Kernel} {c : LinkChange} {f : Failure}
    (h : Carried l k (l.issued c) l' k') (hf : (k.refused (l.issued c)).head? = some f) :
    l' = l := by
  rw [h.link]
  unfold issued at hf ⊢
  cases hi : c.isIdle l with
  | true => rfl
  | false =>
    rw [hi] at hf
    cases hr : k.refusal? (Controller.requestOf c) with
    | none => simp [Kernel.refused, hr] at hf
    | some g => simp [Kernel.granted, hr]

/-- The link as it is after the attempt, with the failure that there was, if any. -/
theorem attempt_change {k : Kernel} {l : Link} (hd : k.links.Distinct) (hl : l ∈ k.links)
    (c : LinkChange) :
    ∃ l' k', (attempt l (change .table l c)).run k =
      ((l', (k.refused (l.issued c)).head?), k') ∧
      Carried l k (l.issued c) l' k' := by
  obtain ⟨l', k', hr, hc⟩ := change_table hd hl c
  refine ⟨l', k', ?_, hc⟩
  rw [attempt, System.run_bind, hr]
  cases hf : (k.refused (l.issued c)).head? with
  | none => rfl
  | some f =>
    rw [eq_of_refused hc hf]
    rfl

/-- The request that the step for the bitrate comes to. -/
def issuedBitrate (l : Link) (bitrate : UInt32) : List LinkChange :=
  if l.isCan then l.issued (.bitrate bitrate) else []

theorem attempt_setBitrate {k : Kernel} {l : Link} (hd : k.links.Distinct) (hl : l ∈ k.links)
    (b : UInt32) :
    ∃ l' k', (attempt l (setBitrate .table l b)).run k =
        ((l', ((if l.isCan then [] else [Failure.notCanLink l.name]) ++
          k.refused (l.issuedBitrate b)).head?), k') ∧
      Carried l k (l.issuedBitrate b) l' k' := by
  unfold setBitrate issuedBitrate
  cases hk : l.isCan with
  | true => exact attempt_change hd hl _
  | false => exact ⟨l, k, rfl, .nothing hd hl⟩

theorem wanted_eq (l : Link) (b q : UInt32) :
    l.wanted b q = l.issuedBitrate b ++ (l.issued (.queueLength q) ++ l.issued (.admin true)) := by
  cases hk : l.isCan <;> cases hu : l.isUp <;> by_cases hb : l.bitrate = some b <;>
    by_cases hq : l.queueLength = some q <;>
    simp [wanted, issuedBitrate, issued, LinkChange.isIdle, hk, hu, hb, hq]

/-- A row of one kind holds no request of another. -/
theorem requestOf_issued {l : Link} {c d : LinkChange} (h : d ∈ l.issued c) :
    Controller.requestOf d = Controller.requestOf c := congrArg _ (eq_of_mem_issued h)

theorem requestOf_issuedBitrate {l : Link} {b : UInt32} {d : LinkChange}
    (h : d ∈ l.issuedBitrate b) : Controller.requestOf d = .bitrate := by
  unfold issuedBitrate at h
  split at h
  · exact requestOf_issued h
  · cases h

theorem issued_of_carried {l l' : Link} {k k' : Kernel} {cs : List LinkChange} {c : LinkChange}
    (h : Carried l k cs l' k') (hc : Controller.requestOf c ∉ cs.map Controller.requestOf) :
    l'.issued c = l.issued c := by
  rw [issued, issued, h.isIdle hc]

/-- A link that was looked up is readied in three attempts. -/
theorem prepare_found {k k₀ : Kernel} {name : String} {l : Link} (hd : k.links.Distinct)
    (hl : l ∈ k.links) (hr : (Controller.table.resolve name).run.run k₀ = (.ok l, k))
    (b q : UInt32) :
    ∃ l' k', (prepare .table name b q).run.run k₀ =
        ((l.failures k b q).head?.elim (.ok l') .error, k') ∧
        Carried l k (l.wanted b q) l' k' := by
  let row₁ := l.issuedBitrate b
  let row₂ := l.issued (.queueLength q)
  let row₃ := l.issued (.admin true)
  have hq : LinkRequest.queueLength ∉ row₁.map Controller.requestOf := by
    intro hm
    obtain ⟨d, hd, he⟩ := List.mem_map.mp hm
    rw [requestOf_issuedBitrate hd] at he
    cases he
  have ha : LinkRequest.adminState ∉ (row₁ ++ row₂).map Controller.requestOf := by
    intro hm
    obtain ⟨d, hd, he⟩ := List.mem_map.mp hm
    rcases List.mem_append.mp hd with hd | hd
    · rw [requestOf_issuedBitrate hd] at he
      cases he
    · rw [requestOf_issued hd] at he
      cases he
  have hq' : ∀ d ∈ row₂, Controller.requestOf d ∉ row₁.map Controller.requestOf :=
    fun d hd => requestOf_issued hd ▸ hq
  have ha' : ∀ d ∈ row₃,
      Controller.requestOf d ∉ (row₁ ++ row₂).map Controller.requestOf :=
    fun d hd => requestOf_issued hd ▸ ha
  obtain ⟨l₁, k₁, h₁, c₁⟩ := attempt_setBitrate hd hl b
  obtain ⟨l₂, k₂, h₂, c₂⟩ :=
    attempt_change (c₁.distinct hd) (c₁.mem hl) (.queueLength q)
  rw [issued_of_carried (c := .queueLength q) c₁ hq] at h₂ c₂
  rw [c₁.refused hq'] at h₂
  have c₁₂ := c₁.append c₂ hq'
  obtain ⟨l₃, k₃, h₃, c₃⟩ :=
    attempt_change (c₁₂.distinct hd) (c₁₂.mem hl) (.admin true)
  rw [issued_of_carried (c := .admin true) c₁₂ ha] at h₃ c₃
  rw [c₁₂.refused ha'] at h₃
  have c := c₁₂.append c₃ ha'
  rw [List.append_assoc, ← wanted_eq] at c
  refine ⟨l₃, k₃, ?_, c⟩
  have hf : (l.failures k b q).head? =
      (((if l.isCan then [] else [Failure.notCanLink l.name]) ++ k.refused row₁).head?).or
        ((k.refused row₂).head?.or (k.refused row₃).head?) := by
    rw [failures, wanted_eq, refused_append, refused_append, ← List.append_assoc,
      ← List.head?_append, ← List.head?_append]
  rw [prepare, Fallible.run_bind, hr, hf]
  dsimp only
  rw [Fallible.run_bind, Fallible.run_lift, h₁]
  dsimp only
  rw [Fallible.run_bind, Fallible.run_lift, setQueueLength, h₂]
  dsimp only
  rw [Fallible.run_bind, Fallible.run_lift, setAdmin, h₃]
  dsimp only
  split
  · rename_i h
    rw [h]
    rfl
  · rename_i h
    rw [h]
    rfl

/-- The outcome of a look-up has no bearing on the requests that follow. -/
theorem refusal?_called (k : Kernel) (name : String) (c : LinkChange) :
    (k.called (.linkQuery name) (.link .query)).refusal? (Controller.requestOf c) =
      k.refusal? (Controller.requestOf c) :=
  refusal?_of_script (script_called_of_ne k _ (by cases c <;> simp [Controller.requestOf]))

theorem granted_called (k : Kernel) (name : String) :
    (k.called (.linkQuery name) (.link .query)).granted = k.granted := funext fun cs => by
  rw [granted, granted, List.filter_congr fun c _ => by rw [refusal?_called k name c]]

theorem refused_called (k : Kernel) (name : String) :
    (k.called (.linkQuery name) (.link .query)).refused = k.refused :=
  funext fun cs => congrArg (List.filterMap · cs) (funext fun c => refusal?_called k name c)

theorem calls_of_resolve {k : Kernel} {name : String} {r : Except Failure Link × Kernel}
    (hr : (Controller.table.resolve name).run.run k = r) :
    r.2.calls = k.calls ++ [.linkQuery name] := by
  rw [← hr, Controller.tableResolve_run, calls_called]

theorem links_of_resolve {k : Kernel} {name : String} {r : Except Failure Link × Kernel}
    (hr : (Controller.table.resolve name).run.run k = r) : r.2.links = k.links := by
  rw [← hr, Controller.tableResolve_run]
  rfl

theorem resolve_of_found {k : Kernel} {name : String} {l : Link} (hq : k.refusal? .query = none)
    (hf : k.links.find? name = some l) :
    (Controller.table.resolve name).run.run k =
      (.ok l, k.called (.linkQuery name) (.link .query)) := by
  rw [Controller.tableResolve_run, hq, hf]
  rfl

theorem prepare_table {k : Kernel} {name : String} {l : Link} (hd : k.links.Distinct)
    (hq : k.refusal? .query = none) (hf : k.links.find? name = some l) (b q : UInt32) :
    ∃ k', (prepare .table name b q).run.run k =
        ((l.failures k b q).head?.elim (.ok (l.readied k b q)) .error, k') ∧
      k'.calls = k.calls ++ .linkQuery name :: (l.wanted b q).map (Controller.callOf l.index) ∧
      k'.links = k.links.put (l.readied k b q) := by
  let k₁ := k.called (.linkQuery name) (.link .query)
  have hr : (Controller.table.resolve name).run.run k = (.ok l, k₁) := resolve_of_found hq hf
  have hl : l ∈ k.links := List.mem_of_find?_eq_some hf
  have hg : k₁.granted = k.granted := granted_called k name
  have hx : k₁.refused = k.refused := refused_called k name
  obtain ⟨l', k', hrun, hc⟩ := prepare_found (k := k₁) hd hl hr b q
  have he : l' = l.readied k b q := by rw [hc.link, hg, readied]
  refine ⟨k', ?_, ?_, ?_⟩
  · rw [hrun, he, failures, failures, hx]
  · rw [hc.calls, calls_called, List.append_assoc]
    rfl
  · rw [hc.links, he]
    rfl

/-- A look-up that fails is all there is. -/
theorem prepare_lost {k k₁ : Kernel} {name : String} {f : Failure}
    (hr : (Controller.table.resolve name).run.run k = (.error f, k₁)) (b q : UInt32) :
    (prepare .table name b q).run.run k = (.error f, k₁) ∧
      k₁.calls = k.calls ++ [.linkQuery name] ∧ k₁.links = k.links := by
  refine ⟨?_, calls_of_resolve hr, links_of_resolve hr⟩
  rw [prepare, Fallible.run_bind, hr]

theorem found_of_resolve {k k₁ : Kernel} {name : String} {l : Link}
    (hr : (Controller.table.resolve name).run.run k = (.ok l, k₁)) :
    k.refusal? .query = none ∧ k.links.find? name = some l := by
  rw [Controller.tableResolve_run] at hr
  cases hq : k.refusal? .query with
  | some f =>
    rw [hq] at hr
    cases hr
  | none =>
    cases hf : k.links.find? name with
    | none =>
      rw [hq, hf] at hr
      cases hr
    | some m =>
      rw [hq, hf] at hr
      cases hr
      exact ⟨rfl, rfl⟩

theorem index_readied (l : Link) (k : Kernel) (b q : UInt32) : (l.readied k b q).index = l.index :=
  LinkChange.index_foldl _ _

theorem name_readied (l : Link) (k : Kernel) (b q : UInt32) : (l.readied k b q).name = l.name :=
  LinkChange.name_foldl _ _

/-! ## After a success -/

/-- Without a failure everything called for was granted. -/
theorem readied_of_granted {l : Link} {k : Kernel} {b q : UInt32}
    (hf : (l.failures k b q).head? = none) :
    (l.readied k b q).isCan = true ∧ (l.readied k b q).bitrate = some b ∧
      (l.readied k b q).queueLength = some q ∧ (l.readied k b q).isUp = true := by
  rw [List.head?_eq_none_iff, failures, List.append_eq_nil_iff] at hf
  rw [readied, granted_of_refused_nil hf.2]
  have hc : l.isCan = true := by
    cases hc : l.isCan with
    | true => rfl
    | false => simp [hc] at hf
  have hk : l.kind = some "can" := by simpa [isCan] using hc
  cases hu : l.isUp <;> by_cases hb : l.bitrate = some b <;>
    by_cases hq : l.queueLength = some q <;>
    simp [wanted, hu, hb, hq, LinkChange.apply, isCan, hk]

/-- A link that is ready calls for nothing and fails nowhere. -/
theorem wanted_of_ready {l : Link} {b q : UInt32} (hb : l.bitrate = some b)
    (hq : l.queueLength = some q) (hu : l.isUp = true) : l.wanted b q = [] := by
  simp [wanted, hb, hq, hu]

/-- Every request called for is issued, whatever fails of them. If none does, the entry is ready,
and readying it again requests nothing. -/
theorem prepare_converges (k : Kernel) (hd : k.links.Distinct) (name : String) (b q : UInt32) :
    let o := (prepare .table name b q).run.run k
    (∀ f k₁, (Controller.table.resolve name).run.run k = (.error f, k₁) →
      o = (.error f, k₁) ∧ k₁.calls = k.calls ++ [.linkQuery name] ∧
      k₁.links = k.links) ∧
    ∀ l k₁, (Controller.table.resolve name).run.run k = (.ok l, k₁) →
      k.links.find? name = some l ∧
      o.2.calls = k.calls ++ .linkQuery name :: (l.wanted b q).map (Controller.callOf l.index) ∧
      o.2.links = k.links.put (l.readied k b q) ∧
      o.2.links.find? name = some (l.readied k b q) ∧
      o.1 = (l.failures k b q).head?.elim (.ok (l.readied k b q)) .error ∧
      ∀ m, o.1 = .ok m →
        m.bitrate = some b ∧ m.queueLength = some q ∧ m.isUp = true ∧
        let again := (prepare .table name b q).run.run o.2
        again.2.calls = o.2.calls ++ [.linkQuery name] ∧ again.2.links = o.2.links ∧
        again.1 = (o.2.refusal? .query).elim (.ok m) .error := by
  intro o
  constructor
  · intro f k₁ hr
    exact prepare_lost hr b q
  · intro l k₁ hr
    obtain ⟨hq, hf⟩ := found_of_resolve hr
    obtain ⟨k', hrun, hcalls, hlinks⟩ := prepare_table hd hq hf b q
    have hfind : k'.links.find? name = some (l.readied k b q) := by
      rw [hlinks]
      exact LinkTable.find?_put hf (index_readied l k b q) (name_readied l k b q) hd
    have ho : o = ((l.failures k b q).head?.elim (.ok (l.readied k b q)) .error, k') := hrun
    rw [ho]
    refine ⟨hf, hcalls, hlinks, hfind, rfl, ?_⟩
    intro m hm
    cases hh : (l.failures k b q).head? with
    | some f => simp [hh] at hm
    | none =>
      have he : m = l.readied k b q := by simpa [hh] using hm.symm
      obtain ⟨hc, hb, hqueue, hu⟩ := readied_of_granted hh
      rw [← he] at hc hb hqueue hu hfind hlinks
      refine ⟨hb, hqueue, hu, ?_⟩
      intro again
      cases ha : k'.refusal? .query with
      | some f =>
        have hlost : (Controller.table.resolve name).run.run k' =
            (.error f, k'.called (.linkQuery name) (.link .query)) := by
          rw [Controller.tableResolve_run, ha]
        obtain ⟨hrun', hcalls', hlinks'⟩ := prepare_lost hlost b q
        rw [show again = _ from hrun']
        exact ⟨hcalls', hlinks', rfl⟩
      | none =>
        have hd' : k'.links.Distinct := by
          rw [hlinks]
          exact hd.put m
        have hw := wanted_of_ready hb hqueue hu
        have hnone : m.failures k' b q = [] := by simp [failures, hc, hw, refused]
        have hsame : m.readied k' b q = m := by simp [readied, hw, granted]
        obtain ⟨k₂, hrun', hcalls', hlinks'⟩ := prepare_table hd' ha hfind b q
        rw [hnone, hsame] at hrun'
        rw [hw] at hcalls'
        rw [hsame, LinkTable.put_self hd' (List.mem_of_find?_eq_some hfind)] at hlinks'
        rw [show again = _ from hrun']
        exact ⟨hcalls', hlinks', rfl⟩

/-- The bitrate is refused at first, and the link is brought up all the same. The next time the
bitrate is all that is requested, and then it is granted. -/
theorem prepare_converges_after_refusal :
    let l : Link := ⟨"can0", 7, false, some "can", some 125000, some 10⟩
    let k : Kernel :=
      { links := [l, ⟨"vcan0", 8, true, some "vcan", none, none⟩]
        script := override (fun _ => []) (.link .bitrate) [-16] }
    let o := (prepare .table "can0" 250000 1000).run.run k
    let o₂ := (prepare .table "can0" 250000 1000).run.run o.2
    let o₃ := (prepare .table "can0" 250000 1000).run.run o₂.2
    let ready : Link := ⟨"can0", 7, true, some "can", some 250000, some 1000⟩
    (k.links.Distinct ∧ o.2.links.Distinct) ∧
      o.1 = .error (.rejected .bitrate (-16)) ∧
      o.2.calls = [.linkQuery "can0", .linkBitrate 7 250000, .linkQueueLength 7 1000,
        .linkAdmin 7 true] ∧
      o.2.links.find? "can0" = some { ready with bitrate := some 125000 } ∧
      o₂.2.calls = o.2.calls ++ [.linkQuery "can0", .linkBitrate 7 250000] ∧
      o₂.1 = .ok ready ∧ o₃.2.calls = o₂.2.calls ++ [.linkQuery "can0"] ∧
        o₃.1 = .ok ready := by
  intro l k o o₂ o₃ ready
  have hd : k.links.Distinct := by
    unfold LinkTable.Distinct
    decide
  have hd₂ : o.2.links.Distinct := by
    unfold LinkTable.Distinct
    decide
  obtain ⟨-, hcalls, -, hfind, hrun, -⟩ := (prepare_converges k hd "can0" 250000 1000).2 l _ rfl
  obtain ⟨-, hcalls₂, -, -, hrun₂, hagain⟩ :=
    (prepare_converges o.2 hd₂ "can0" 250000 1000).2 { ready with bitrate := some 125000 } _ rfl
  obtain ⟨-, -, -, hcalls₃, -, hrun₃⟩ := hagain ready hrun₂
  exact ⟨⟨hd, hd₂⟩, hrun, hcalls, hfind, hcalls₂, hrun₂, hcalls₃, hrun₃⟩

end Link

end CanBus
