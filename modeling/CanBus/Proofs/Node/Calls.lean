import CanBus.Proofs.Node.World

/-!
The calls of a node, as they are run, are among the histories of a `NodeWorld`: each is one in which
the owner goes through all parts of the call, and between the close and the join the loop comes to
its end (`call_run`). So what holds of all histories holds of all sequences of calls.
-/

namespace CanBus

open Kernel

namespace NodeWorld

variable {w : NodeWorld}

theorem run_append (w : NodeWorld) (as bs : List NodeAction) :
    w.run (as ++ bs) = (w.run as).run bs := List.foldl_append

theorem history_append (w : NodeWorld) (as bs : List NodeAction) :
    w.history (as ++ bs) = w.history as ++ (w.run as).history bs := by
  induction as generalizing w with
  | nil => rfl
  | cons a as ih =>
    rw [List.cons_append, history, ih, history, List.append_assoc]
    rfl

/-- What leaves the reader alone leaves the loops alone. -/
theorem after_run {α : Type} (w : NodeWorld) (m : NodeM α)
    (h : ((m.run w.node).run w.kernel).1.2.reader = w.node.reader) :
    (m.run w.node).run w.kernel = ((w.result m, (w.after m).node), (w.after m).kernel) := by
  have hnode : (w.after m).node = ((m.run w.node).run w.kernel).1.2 := by
    rw [node, after]
    dsimp only
    rw [show w.handle.bind (fun i => w.loops[i]?) = w.node.reader from rfl, ← h]
  rw [hnode]
  rfl

/-- The program, run on the node, is what the owner and the loops do in `bs`. -/
structure Plays {α : Type} (w : NodeWorld) (m : NodeM α) (a : α) (bs : List NodeAction) :
    Prop where
  underway : ∀ x ∈ bs, x = .proceed ∨ ∃ i, x = .loop i
  run : (m.run w.node).run w.kernel = ((a, (w.run bs).node), (w.run bs).kernel)

theorem Plays.bind {α β : Type} {m : NodeM α} {f : α → NodeM β} {a : α} {b : β}
    {bs cs : List NodeAction} (hm : Plays w m a bs) (hf : Plays (w.run bs) (f a) b cs) :
    Plays w (m >>= f) b (bs ++ cs) := by
  refine ⟨fun x hx => (List.mem_append.mp hx).elim (hm.underway x) (hf.underway x), ?_⟩
  rw [Stateful.run_bind, hm.run, run_append]
  exact hf.run

theorem Plays.andThen {β : Type} {m : NodeM Unit} {m' : NodeM β} {b : β}
    {bs cs : List NodeAction} (hm : Plays w m () bs) (hm' : Plays (w.run bs) m' b cs) :
    Plays w (do m; m') b (bs ++ cs) :=
  hm.bind hm'

/-- A part of a call that the owner takes at once. -/
theorem plays_part {α : Type} {m : NodeM α} {st : Stage}
    (hstep : w.proceed = { w.after m with stage := st })
    (h : ((m.run w.node).run w.kernel).1.2.reader = w.node.reader) :
    Plays w m (w.result m) [.proceed] := by
  refine ⟨fun x hx => .inl (List.mem_singleton.mp hx), ?_⟩
  have hrun : w.run [.proceed] = { w.after m with stage := st } := hstep
  rw [w.after_run m h, hrun]
  rfl

/-! ## Waiting for the loop -/

theorem turn_node {i : Nat} {r : Reader} (hh : w.handle = some i) (hr : w.loops[i]? = some r) :
    ∃ more r', (Node.readerStep.run w.node).run w.kernel =
        ((more, (w.turn i).node), (w.turn i).kernel) ∧
      (w.turn i).loops[i]? = some r' ∧ (w.turn i).handle = some i ∧
      (w.turn i).stage = w.stage ∧
      (r.canRead = false → more = false ∧ r' = r) ∧
      (r.canRead = true → r.Dismissed w.session w.kernel →
        more = true ∧ r'.Dismissed (w.turn i).session (w.turn i).kernel ∧
          r'.effort < r.effort) := by
  have hn : { w.node with reader := some r } = w.node := by
    rw [node, hh]
    simp [hr]
  obtain ⟨more, r', fs, s', k', hrun, ht, hover, hdis⟩ :=
    Node.readerStep_turned { w.node with reader := some r } w.kernel rfl
  have hw : w.turn i = { w with
      session := s', inbox := w.inbox ++ fs, kernel := k', loops := w.loops.set i r' } := by
    simp only [turn, hr, hrun]
    rfl
  have hget : (w.turn i).loops[i]? = some r' := by
    rw [hw]
    exact List.getElem?_set_self (List.getElem?_eq_some_iff.mp hr).1
  have hhandle : (w.turn i).handle = some i := by
    rw [hw]
    exact hh
  have hnode : (w.turn i).node = ⟨s', w.inbox ++ fs, some r'⟩ := by
    rw [node, hhandle, Option.bind_some, hget, hw]
  refine ⟨more, r', ?_, hget, hhandle, by rw [hw], ?_, ?_⟩
  · rw [← hn, hrun, hnode, hw]
    rfl
  · intro hc
    refine ⟨hover hc, ?_⟩
    cases r with
    | ended ran => exact ht.ended ran rfl
    | starting | running => cases hc
  · intro hc hd
    rw [hw]
    exact hdis hc hd

/-- A settling node takes steps of its loop, and if that has been dismissed, up to its end. -/
theorem settleWithin_run {i : Nat} (n : Nat) {w : NodeWorld} {r : Reader} (hh : w.handle = some i)
    (hr : w.loops[i]? = some r) (hd : r.Dismissed w.session w.kernel) (hn : r.effort ≤ n) :
    ∃ m, let w' := w.run (List.replicate m (.loop i))
      ((Node.settleWithin n).run w.node).run w.kernel = (((), w'.node), w'.kernel) ∧
      (∃ ran, w'.loops[i]? = some (.ended ran)) ∧ w'.handle = some i ∧
        w'.stage = w.stage := by
  induction n generalizing w r with
  | zero =>
    have he : ∃ ran, r = .ended ran := by
      cases r with
      | ended ran => exact ⟨ran, rfl⟩
      | starting => simp [Reader.effort] at hn
      | running c phase => cases phase <;> simp [Reader.effort] at hn
    obtain ⟨ran, rfl⟩ := he
    exact ⟨0, rfl, ⟨ran, hr⟩, hh, rfl⟩
  | succ n ih =>
    obtain ⟨more, r', hrun, hr', hh', hst, hover, hmore⟩ := turn_node hh hr
    rw [Node.settleWithin, Stateful.run_bind, hrun]
    cases hc : r.canRead with
    | false =>
      obtain ⟨rfl, rfl⟩ := hover hc
      have he : ∃ ran, r' = .ended ran := by
        cases r' with
        | ended ran => exact ⟨ran, rfl⟩
        | starting | running => cases hc
      obtain ⟨ran, rfl⟩ := he
      exact ⟨1, rfl, ⟨ran, hr'⟩, hh', hst⟩
    | true =>
      obtain ⟨rfl, hd', he⟩ := hmore hc hd
      obtain ⟨m, hm, hran, hh'', hst'⟩ := ih hh' hr' hd' (by omega)
      exact ⟨m + 1, hm, hran, hh'', hst'.trans hst⟩

theorem seen_loop (w : NodeWorld) (i : Nat) :
    ∀ e ∈ w.seen (.loop i), ∃ c d, e = .drained c d := by
  intro e he
  rw [seen, Option.mem_toList, Option.bind_eq_some_iff] at he
  obtain ⟨c, -, he⟩ := he
  obtain ⟨d, -, rfl⟩ := Option.map_eq_some_iff.mp he
  exact ⟨c.handle, d, rfl⟩

theorem history_loops (w : NodeWorld) (i m : Nat) :
    ∀ e ∈ w.history (List.replicate m (.loop i)), ∃ c d, e = .drained c d := by
  induction m generalizing w with
  | zero =>
    intro e he
    cases he
  | succ m ih =>
    intro e he
    rw [List.replicate_succ, history] at he
    rcases List.mem_append.mp he with he | he
    · exact w.seen_loop i e he
    · exact ih _ e he

theorem settle_plays (h : Supervised w) (hst : w.stage.isShut = true) :
    ∃ i m, Plays w Node.settle () (List.replicate m (.loop i)) ∧
      (w.run (List.replicate m (.loop i))).joinable = true ∧
      (w.run (List.replicate m (.loop i))).stage = w.stage := by
  have hb : 5 ≤ Reader.budget w.kernel := by
    simp only [Reader.budget]
    omega
  have hsettle : (Node.settle.run w.node).run w.kernel =
      ((Node.settleWithin (Reader.budget w.kernel)).run w.node).run w.kernel := by
    rw [Node.settle, Stateful.run_bind, Stateful.run_lift, System.run_get]
  cases hn : w.node.reader with
  | none =>
    obtain ⟨n, hn'⟩ : ∃ n, Reader.budget w.kernel = n + 1 :=
      ⟨Reader.budget w.kernel - 1, by omega⟩
    have hstep : (Node.readerStep.run w.node).run w.kernel = ((false, w.node), w.kernel) := by
      rw [Node.readerStep, Stateful.run_bind, Stateful.run_get, hn]
      rfl
    refine ⟨0, 0, ⟨fun x hx => absurd hx List.not_mem_nil, ?_⟩, ?_, rfl⟩
    · rw [hsettle, hn', Node.settleWithin, Stateful.run_bind, hstep]
      rfl
    · simp [joinable, run, hn]
  | some r =>
    obtain ⟨i, hi, hr⟩ := Option.bind_eq_some_iff.mp hn
    have hmem : r ∈ w.loops := List.mem_of_getElem? hr
    have hshut : w.session.channel = none := h.shut hst
    have hd : r.Dismissed w.session w.kernel := by
      cases r with
      | starting => exact hshut
      | ended => trivial
      | running c phase =>
        refine (h.held _ hmem c rfl).resolve_left ?_
        rw [hshut]
        rintro ⟨⟩
    obtain ⟨m, hrun, ⟨ran, hran⟩, hi', hst'⟩ :=
      settleWithin_run _ hi hr hd (Nat.le_trans (h.effort r hmem) hb)
    refine ⟨i, m, ⟨fun x hx => .inr ⟨i, List.eq_of_mem_replicate hx⟩, hsettle.trans hrun⟩,
      ?_, hst'⟩
    simp [joinable, node, hi', hran, Reader.canRead]

/-- A stop is the close, the last steps of the loop, and the join. -/
theorem stop_plays (h : Supervised w) {b : Option UInt32} (hst : w.stage = .closing b) :
    ∃ bs, Plays w Node.stop () bs ∧ (w.run bs).stage = b.elim .free .tuning ∧
      ∀ e ∈ w.history bs, ∃ c d, e = .drained c d := by
  have hclose : Plays w (Node.onSession Session.close) () [.proceed] :=
    plays_part (by rw [proceed, hst]) rfl
  let w₁ := w.run [.proceed]
  have hst₁ : w₁.stage = .joining b := by
    show w.proceed.stage = _
    rw [proceed, hst]
  obtain ⟨i, m, hsettle, hj, hst₂⟩ := settle_plays (h.run [.proceed]) (by
    show w₁.stage.isShut = true
    rw [hst₁]
    rfl)
  let w₂ := w₁.run (List.replicate m (.loop i))
  have hst₂ : w₂.stage = .joining b := hst₂.trans hst₁
  have hw₃ : w₂.run [.proceed] =
      { w₂ with handle := none, stage := b.elim .free .tuning } := by
    show w₂.proceed = _
    rw [proceed, hst₂]
    dsimp only
    rw [if_pos hj]
  have hjoin : Plays w₂ (modify fun n : Node => { n with reader := none }) () [.proceed] := by
    refine ⟨fun x hx => .inl (List.mem_singleton.mp hx), ?_⟩
    rw [hw₃]
    rfl
  have hrest : Plays w₁ (do Node.settle; modify fun n => { n with reader := none }) ()
      (List.replicate m (.loop i) ++ [.proceed]) := hsettle.andThen hjoin
  have hstop : Plays w Node.stop () ([.proceed] ++ (List.replicate m (.loop i) ++ [.proceed])) :=
    hclose.andThen hrest
  refine ⟨_, hstop, ?_, ?_⟩
  · rw [run_append, run_append, hw₃]
  · intro e he
    have hs : w.history [.proceed] = [] := by
      rw [history, history, seen, hst]
      rfl
    have hs₂ : w₂.history [.proceed] = [] := by
      rw [history, history, seen, hst₂]
      rfl
    rw [history_append, history_append, hs, hs₂, List.nil_append, List.append_nil] at he
    exact w₁.history_loops i m e he

/-- Changing the bitrate and emptying the inbox. -/
theorem tune_plays {b : UInt32} (hst : w.stage = .tuning b) :
    Plays w (do Node.retune b; Node.clearInbox) () [.proceed, .proceed] ∧
      (w.run [.proceed, .proceed]).stage = .opening ∧ w.history [.proceed, .proceed] = [] := by
  let w₁ : NodeWorld := { w.after (Node.retune b) with stage := .clearing }
  have hw₁ : w.proceed = w₁ := by rw [proceed, hst]
  have hrun₁ : w.run [.proceed] = w₁ := hw₁
  have hretune : Plays w (Node.retune b) () [.proceed] := by
    obtain ⟨r, k', hr, -⟩ := w.node.retune_effect w.kernel b
    exact plays_part hw₁ (by rw [hr])
  have hclear : Plays (w.run [.proceed]) Node.clearInbox () [.proceed] := by
    rw [hrun₁]
    exact plays_part rfl rfl
  refine ⟨hretune.andThen hclear, ?_, ?_⟩
  · show (w.proceed.proceed).stage = _
    rw [hw₁]
    rfl
  · rw [history, history, seen, hst]
    show w.proceed.seen .proceed ++ _ = _
    rw [hw₁]
    rfl

/-- Opening the session, and starting the next loop if that succeeds. -/
theorem restart_plays (h : Supervised w) (hst : w.stage = .opening) :
    ∃ bs r, Plays w (do Node.launch (← Node.reopen)) r bs ∧ (w.run bs).stage = .free ∧
      (r = .ok () ↔ ∃ c, .opened c ∈ w.history bs) := by
  have hshut : w.session.channel = none := h.shut (by rw [hst]; rfl)
  obtain ⟨f, k', hr, -⟩ | ⟨index, k', hr, -⟩ := Session.tryOpen_closed hshut w.kernel
  · have hres : w.result Node.reopen = .error f := congrArg (·.1.1) hr
    have hw : w.proceed = { w.after Node.reopen with stage := .free } := by
      rw [proceed, hst]
      dsimp only
      rw [hres]
    refine ⟨[.proceed] ++ [], .error f, (plays_part hw rfl).bind ?_, ?_, ?_⟩
    · rw [hres]
      exact ⟨fun x hx => absurd hx List.not_mem_nil, rfl⟩
    · show w.proceed.stage = _
      rw [hw]
    · have hs : w.history [.proceed] = [] := by
        rw [history, history, seen, hst, hres]
        rfl
      rw [List.append_nil, hs]
      constructor
      · rintro ⟨⟩
      · rintro ⟨c, hc⟩
        cases hc
  · have hres : w.result Node.reopen = .ok () := congrArg (·.1.1) hr
    have hopen : (w.after Node.reopen).session.channel = some ⟨w.kernel.opened, index⟩ :=
      congrArg (·.1.2.channel) hr
    let w₁ : NodeWorld := { w.after Node.reopen with stage := .spawning }
    have hw : w.proceed = w₁ := by
      rw [proceed, hst]
      dsimp only
      rw [hres]
    have hrun : w.run [.proceed] = w₁ := hw
    refine ⟨[.proceed] ++ [.proceed], .ok (), (plays_part hw rfl).bind ?_, ?_, fun _ => ?_,
      fun _ => rfl⟩
    · rw [hres, hrun]
      refine ⟨fun x hx => .inl (List.mem_singleton.mp hx), ?_⟩
      have hnode : (w₁.run [.proceed]).node = { w₁.node with reader := some .starting } := by
        simp [run, step, proceed, node, w₁]
      rw [hnode]
      rfl
    · rw [run_append, hrun]
      rfl
    · refine ⟨w.kernel.opened, ?_⟩
      rw [history_append, history, seen, hst, hres, hopen]
      exact List.mem_append_left _ (List.mem_append_left _ List.mem_cons_self)

/-! ## Whole calls -/

end NodeWorld

/-- The answer to a call is what was seen of it: an `enable` succeeds if a socket was opened, and a
`read` answers with the frame that was returned. -/
def NodeCall.Answered (c : NodeCall) (answer : Except Failure (Option Frame))
    (es : List NodeEvent) : Prop :=
  match c with
  | .enable _ => answer = .ok none ↔ ∃ h, .opened h ∈ es
  | .read => ∃ f, answer = .ok f ∧ es = f.toList.map .returned
  | _ => True

namespace NodeWorld

theorem enable_plays (h : Supervised w) {b : UInt32} (hst : w.stage = .closing (some b)) :
    ∃ bs r, Plays w (Node.enable b) r bs ∧ (w.run bs).stage = .free ∧
      (r = .ok () ↔ ∃ c, .opened c ∈ w.history bs) := by
  obtain ⟨bs, hstop, hst₁, hdrained⟩ := stop_plays h hst
  obtain ⟨htune, hst₂, hs₂⟩ := tune_plays hst₁
  obtain ⟨cs, r, hstart, hst₃, hr⟩ :=
    restart_plays ((h.run bs).run [.proceed, .proceed]) hst₂
  have henable : Plays w (Node.enable b) r (bs ++ ([.proceed, .proceed] ++ cs)) := by
    have hparts := hstop.andThen (htune.andThen hstart)
    rw [Node.enable_eq]
    simpa only [bind_assoc] using hparts
  refine ⟨_, r, henable, ?_, ?_⟩
  · rw [run_append, run_append]
    exact hst₃
  · rw [hr, history_append, history_append, hs₂, List.nil_append]
    constructor
    · rintro ⟨c, hc⟩
      exact ⟨c, List.mem_append_right _ hc⟩
    · rintro ⟨c, hc⟩
      refine ⟨c, (List.mem_append.mp hc).resolve_left fun hc => ?_⟩
      obtain ⟨c', d, hd⟩ := hdrained _ hc
      cases hd

/-- Every call, as it is run, is one of the histories. -/
theorem call_run (h : Supervised w) (hf : w.stage = .free) (c : NodeCall) :
    ∃ bs answer, (∀ x ∈ bs, x = .proceed ∨ ∃ i, x = .loop i) ∧
      let w' := w.run (.call c :: bs)
      w'.stage = .free ∧
      (c.perform.run w.node).run w.kernel = ((answer, w'.node), w'.kernel) ∧
      c.Answered answer (w.history (.call c :: bs)) := by
  have hstep (c : NodeCall) : w.step (.call c) = w.begin c := if_pos hf
  have hrun (c : NodeCall) (bs : List NodeAction) :
      w.run (.call c :: bs) = (w.begin c).run bs := by
    rw [run, List.foldl_cons, hstep]
    rfl
  cases c with
  | enable b =>
    have h₀ : Supervised (w.begin (.enable b)) := hstep (.enable b) ▸ h.step _
    obtain ⟨bs, r, hp, hst, hr⟩ := enable_plays h₀ (b := b) rfl
    refine ⟨bs, r.map fun _ => none, hp.underway, ?_⟩
    rw [hrun]
    refine ⟨hst, ?_, ?_⟩
    · have hp' : ((Node.enable b).run w.node).run w.kernel = _ := hp.run
      rw [NodeCall.perform, Stateful.run_bind, hp']
      rfl
    · rw [history, seen, if_pos hf, hstep]
      have hmap : (r.map fun _ => (none : Option Frame)) = .ok none ↔ r = .ok () := by
        cases r <;> simp [Except.map]
      refine hmap.trans (hr.trans ⟨?_, ?_⟩)
      · rintro ⟨c, hc⟩
        exact ⟨c, List.mem_cons_of_mem _ hc⟩
      · rintro ⟨c, hc⟩
        rcases List.mem_cons.mp hc with hc | hc
        · cases hc
        · exact ⟨c, hc⟩
  | close =>
    have h₀ : Supervised (w.begin .close) := hstep .close ▸ h.step _
    obtain ⟨bs, hp, hst, -⟩ := stop_plays h₀ (b := none) rfl
    refine ⟨bs, .ok none, hp.underway, ?_⟩
    rw [hrun]
    refine ⟨hst, ?_, trivial⟩
    have hp' : (Node.stop.run w.node).run w.kernel = _ := hp.run
    rw [NodeCall.perform, Stateful.run_bind, hp']
    rfl
  | send f =>
    refine ⟨[], w.result (NodeCall.send f).perform, fun x hx => absurd hx List.not_mem_nil, ?_⟩
    rw [hrun]
    refine ⟨hf, w.after_run _ ?_, trivial⟩
    obtain ⟨r, s', k', hr, -⟩ := w.node.send_effect w.kernel f
    rw [NodeCall.perform, Stateful.run_bind, hr]
    rfl
  | reset =>
    refine ⟨[], .ok none, fun x hx => absurd hx List.not_mem_nil, ?_⟩
    rw [hrun]
    exact ⟨hf, w.after_run _ rfl, trivial⟩
  | read =>
    refine ⟨[], .ok (w.result Node.read), fun x hx => absurd hx List.not_mem_nil, ?_⟩
    rw [hrun]
    refine ⟨hf, w.after_run _ rfl, w.result Node.read, rfl, ?_⟩
    rw [history, history, seen, if_pos hf, List.append_nil]

end NodeWorld

end CanBus
