import CanBus.Proofs.Session.Poll

/-!
Two ways to read a queue: `Session.receive` again and again, and a whole poll. `Intake` says what
reads have come to, down to the outcomes they leave in the script; every `receive` and every step of
a reader is an intake of at most one datagram (`receive_intake`, `Reader.Moved.intake`). Two intakes
of a whole queue are the same, which is why both ways agree (`World.receive_agrees_with_poll`).
-/

namespace CanBus

open Kernel

/-! ## Intakes -/

/-- The outcomes that are left once a queue has been read. A datagram needs an outcome that is no
failure, so that each failure on the way costs one more. -/
def leftover : List Int → List Datagram → List Int
  | ns, [] => ns
  | [], _ :: _ => []
  | n :: ns, d :: ds => if 0 < n then leftover ns (d :: ds) else leftover ns ds

theorem leftover_failed {ns : List Int} (h : 0 < ns.headD 0) {ds : List Datagram} (hd : ds ≠ []) :
    leftover ns.tail ds = leftover ns ds := by
  cases ns with
  | nil => exact absurd h (Int.lt_irrefl 0)
  | cons n ns =>
    cases ds with
    | nil => contradiction
    | cons d ds => exact (if_pos h).symm

theorem leftover_taken {ns : List Int} (h : ¬ 0 < ns.headD 0) (d : Datagram) (ds : List Datagram) :
    leftover ns.tail ds = leftover ns (d :: ds) := by
  cases ns with
  | nil => cases ds <;> rfl
  | cons n ns => exact (if_neg h).symm

/-- The outcomes of reads that will be left when a socket's queue has been read. -/
def Kernel.outcomesLeft (k : Kernel) (h : Handle) : List Int :=
  leftover (k.script .receive) (k.inbox h)

/-- Datagrams were read from the head of a queue. The session has taken note of them, no other queue
is touched, and no more outcomes were used than it takes to read the queue. -/
structure Intake (c : Handle) (s : Session) (k : Kernel) (ds : List Datagram) (s' : Session)
    (k' : Kernel) : Prop extends Consumed c s k ds s' k' where
  others : ∀ h, h ≠ c → k'.inbox h = k.inbox h
  outcomes : k'.outcomesLeft c = k.outcomesLeft c

namespace Intake

variable {c : Handle} {s s₁ s₂ s' : Session} {k k₁ k₂ k' : Kernel} {ds es : List Datagram}

theorem nothing (hi : k'.inbox = k.inbox) (hx : k'.script .receive = k.script .receive) :
    Intake c s k [] s k' :=
  ⟨.nothing hi, fun h _ => by rw [hi], by rw [outcomesLeft, outcomesLeft, hi, hx]⟩

theorem append (h₁ : Intake c s k ds s₁ k₁) (h₂ : Intake c s₁ k₁ es s' k') :
    Intake c s k (ds ++ es) s' k' :=
  ⟨h₁.toConsumed.append h₂.toConsumed,
    fun h hh => (h₂.others h hh).trans (h₁.others h hh), h₂.outcomes.trans h₁.outcomes⟩

theorem of_close (s : Session) (k : Kernel) :
    Intake c s k [] ((Session.close.run s).run k).1.2 ((Session.close.run s).run k).2 := by
  have hc : Consumed c s k [] _ _ := .of_close s k
  obtain ⟨k', hr, -, hi, -, hx⟩ := Session.close_effect s k
  rw [hr] at hc ⊢
  exact ⟨hc, fun h _ => by rw [hi], by rw [outcomesLeft, outcomesLeft, hi, hx _ (by decide)]⟩

/-- A read of a queue that isn't empty takes its oldest datagram, or fails by the script. -/
theorem of_read {d? : Option Datagram} (ht : Session.Took c s k d? s' k') (hq : k.inbox c ≠ [])
    (hx : k'.script .receive = (k.script .receive).tail)
    (hn : d? = none ↔ 0 < k.nextOutcome .receive) : Intake c s k d?.toList s' k' := by
  refine ⟨.of_took ht, ?_, ?_⟩
  · intro h hh
    cases ht with
    | nothing hi => rw [hi]
    | oldest _ hi => rw [hi, override_of_ne _ _ hh]
  · rw [outcomesLeft, outcomesLeft, hx]
    cases ht with
    | nothing hi => rw [hi, leftover_failed (hn.mp rfl) hq]
    | oldest hd hi =>
      have hpos : ¬ 0 < k.nextOutcome .receive := fun h => nomatch hn.mpr h
      rw [hi, override_self, hd, ← leftover_taken hpos]

/-- What was read of a whole queue is settled by the start. -/
theorem of_empty (h : Intake c s k ds s' k') (he : k'.inbox c = []) :
    ds = k.inbox c ∧ s'.health = s.health.after (k.inbox c) ∧
      k'.inbox = override k.inbox c [] ∧ k'.script .receive = k.outcomesLeft c := by
  have hds : ds = k.inbox c := by rw [h.queue, he, List.append_nil]
  refine ⟨hds, by rw [h.health, hds], ?_, ?_⟩
  · funext x
    by_cases hx : x = c
    · rw [hx, he, override_self]
    · rw [override_of_ne _ _ hx, h.others x hx]
  · rw [← h.outcomes, outcomesLeft, he]
    cases k'.script .receive <;> rfl

end Intake

/-! ## A whole poll -/

namespace Reader

/-- The reader is where it finds what it was told of, on the socket `c`, or it has ended. -/
def Fitting (c : Socket) (k : Kernel) (r : Reader) : Prop :=
  (∃ phase, r = .running c phase ∧ Fits c.handle k phase) ∨ ∃ ran, r = .ended ran

theorem Fitting.of_inbox {c : Socket} {k k' : Kernel} {r : Reader} (h : r.Fitting c k)
    (hi : k'.inbox = k.inbox) : r.Fitting c k' := by
  rcases h with ⟨phase, rfl, hf⟩ | ⟨ran, rfl⟩
  · refine .inl ⟨phase, rfl, ?_⟩
    cases phase with
    | check | wait => trivial
    | serve news =>
      unfold Fits at hf ⊢
      rwa [hi]
  · exact .inr ⟨ran, rfl⟩

theorem Fitting.woken {c : Socket} {k : Kernel} {r : Reader} (h : r.Fitting c k) :
    r.woken.Fitting c k := by
  rcases h with ⟨phase, rfl, hf⟩ | ⟨ran, rfl⟩
  · cases phase with
    | wait => exact .inl ⟨.check, rfl, trivial⟩
    | check | serve => exact .inl ⟨_, rfl, hf⟩
  · exact .inr ⟨ran, rfl⟩

section Step

variable {c : Socket} {s s' : Session} {k k' : Kernel} {phase : Phase} {r : Reader} {p : Progress}

theorem Moved.fitting (h : Moved c s k phase r p s' k') (hf : Fits c.handle k phase) :
    r.Fitting c k' := by
  cases h with
  | passed | served => exact .inl ⟨_, rfl, trivial⟩
  | left => exact .inr ⟨true, rfl⟩
  | waited hk =>
    unfold afterWait
    by_cases hn : k.hasNews c.handle = true
    · rw [if_pos hn]
      refine .inl ⟨_, rfl, ?_⟩
      split
      · trivial
      · unfold Fits
        rw [hk.inbox]
        exact fits_news k c.handle
    · rw [if_neg hn]
      split <;> exact .inl ⟨_, rfl, trivial⟩
  | skipped => exact .inl ⟨_, rfl, hf.tail⟩
  | read => exact .inl ⟨_, rfl, .of_notMem hf.notMem _ _⟩

/-- A step of a reader is an intake of one datagram at most, and hands out the data frame in it. -/
theorem Moved.intake (h : Moved c s k phase r p s' k') (hf : Fits c.handle k phase) :
    ∃ ds, Intake c.handle s k ds s' k' ∧ p.handed = Datagram.frames ds := by
  cases h with
  | passed | served | skipped => exact ⟨[], .nothing rfl rfl, rfl⟩
  | left _ hk hx => exact ⟨[], .nothing hk.inbox (hx _ (by decide)), rfl⟩
  | waited hk hx =>
    obtain ⟨phase', -, hp⟩ := afterWait_running c k
    exact ⟨[], .nothing hk.inbox (by rw [hx]; exact override_of_ne _ _ (by decide)), hp⟩
  | @read news d? s' k' hk ht hx hn =>
    have hq : k.inbox c.handle ≠ [] := hf.2 List.mem_cons_self
    refine ⟨d?.toList, .of_read ht hq (by rw [hx, override_self]) ?_,
      (Datagram.frames_toList d?).symm⟩
    rw [hn, or_iff_left hq]

end Step

theorem drain_intake (limit : Option Nat) {c : Socket} (n : Nat) {r : Reader} {k : Kernel}
    (h : r.Fitting c k) (fs : List Frame) (s : Session) :
    ∃ ds r' s' k', ((drain limit n r fs).run s).run k =
      (((r', fs ++ Datagram.frames ds), s'), k') ∧
      r'.Fitting c k' ∧ Intake c.handle s k ds s' k' := by
  have still (fs : List Frame) : fs ++ Datagram.frames [] = fs := List.append_nil fs
  induction n generalizing r k fs s with
  | zero => exact ⟨[], r, s, k, by rw [still]; rfl, h, .nothing rfl rfl⟩
  | succ n ih =>
    rcases h with ⟨phase, rfl, hf⟩ | ⟨ran, rfl⟩
    · obtain ⟨r₁, p, s₁, k₁, hr, hm⟩ := step_moved c phase s k
      obtain ⟨ds, hin, hp⟩ := hm.intake hf
      have h₁ : r₁.Fitting c k₁ := hm.fitting hf
      match p with
      | .idle =>
        have hds : fs ++ Datagram.frames ds = fs := by rw [← hp]; exact List.append_nil fs
        exact ⟨ds, r₁, s₁, k₁, by rw [drain_idle hr, hds], h₁, hin⟩
      | .moved none =>
        rw [drain_none hr]
        obtain ⟨es, r', s', k', hrun, h', hin'⟩ := ih h₁ fs s₁
        exact ⟨ds ++ es, r', s', k',
          by rw [hrun, Datagram.frames_append, ← hp]; rfl, h', hin.append hin'⟩
      | .moved (some f) =>
        have hds (es : List Datagram) :
            fs ++ [f] ++ Datagram.frames es = fs ++ Datagram.frames (ds ++ es) := by
          rw [Datagram.frames_append, ← hp, List.append_assoc]
          rfl
        rw [drain_some hr]
        split
        · obtain ⟨k₂, hcl, -, hi, -⟩ := Session.close_effect s₁ k₁
          have hin₂ := hin.append (.of_close s₁ k₁)
          rw [List.append_nil, hcl] at hin₂
          rw [hcl]
          obtain ⟨es, r', s', k', hrun, h', hin'⟩ := ih (h₁.of_inbox hi) (fs ++ [f]) _
          exact ⟨ds ++ es, r', s', k', by rw [hrun, hds], h', hin₂.append hin'⟩
        · obtain ⟨es, r', s', k', hrun, h', hin'⟩ := ih h₁ (fs ++ [f]) s₁
          exact ⟨ds ++ es, r', s', k', by rw [hrun, hds], h', hin.append hin'⟩
    · exact ⟨[], _, s, k, by rw [drain_ended, still], .inr ⟨ran, rfl⟩, .nothing rfl rfl⟩

/-- The same from the start of a reader. -/
theorem run_intake {c : Socket} (limit : Option Nat) {s : Session} (hc : s.channel = some c)
    (k : Kernel) :
    ∃ ds r' s' k', ((run limit .starting).run s).run k = (((r', Datagram.frames ds), s'), k') ∧
      r'.Fitting c k' ∧ Intake c.handle s k ds s' k' := by
  obtain ⟨n, hn⟩ : ∃ n, budget k = n + 1 := ⟨budget k - 1, by simp only [budget]; omega⟩
  obtain ⟨k₁, hstart, hk, hx⟩ := start_open hc k
  have hstep : ((step .starting).run s).run k =
      (((((start.run s).run k).1.1, .moved none), s), k₁) := by
    rw [step, Stateful.run_bind, hstart]
    rfl
  have h₁ : ((start.run s).run k).1.1.Fitting c k₁ := by
    rw [hstart]
    by_cases hp : 0 < k.nextOutcome .epollCreate ∨ 0 < k.nextOutcome .epollAdd
    · exact .inr ⟨false, if_pos hp⟩
    · exact .inl ⟨.check, if_neg hp, trivial⟩
  rw [run_run, hn, drain_none hstep]
  obtain ⟨ds, r', s', k', hrun, h', hin⟩ := drain_intake limit n h₁ [] s
  have hin₁ : Intake c.handle s k [] s k₁ := .nothing hk.inbox (hx _ (by decide) (by decide))
  exact ⟨[] ++ ds, r', s', k', by rw [hrun]; rfl, h', hin₁.append hin⟩

end Reader

namespace Session

theorem poll_closed (limit : Option Nat) {s : Session} (hc : s.channel = none) (k : Kernel) :
    ((poll limit).run s).run k = (((false, []), s), k) := by
  obtain ⟨n, hn⟩ : ∃ n, Reader.budget k = n + 1 :=
    ⟨Reader.budget k - 1, by simp only [Reader.budget]; omega⟩
  have hstep : (Reader.step .starting |>.run s).run k = (((.ended false, .moved none), s), k) := by
    rw [Reader.step, Stateful.run_bind, Reader.start_closed hc]
    rfl
  rw [poll, Stateful.run_bind, Reader.run_run, hn, Reader.drain_none hstep, Reader.drain_ended]
  rfl

/-- However a poll goes, it hands out the data frames of what it takes from the open socket. -/
theorem poll_handed (limit : Option Nat) {s : Session} {c : Socket} (hc : s.channel = some c)
    (k : Kernel) :
    ∃ ds ran s' k', ((poll limit).run s).run k = (((ran, Datagram.frames ds), s'), k') ∧
      Intake c.handle s k ds s' k' := by
  obtain ⟨ds, r, s₁, k₁, hrun, hr, hin⟩ := Reader.run_intake limit hc k
  rw [poll, Stateful.run_bind, hrun]
  cases r with
  | starting => rcases hr with ⟨_, h, -⟩ | ⟨_, h⟩ <;> cases h
  | ended ran => exact ⟨ds, _, s₁, k₁, rfl, hin⟩
  | running c' phase =>
    obtain ⟨k₂, hcl, -, hi, -⟩ := close_effect s₁ k₁
    have hin₂ := hin.append (.of_close s₁ k₁)
    obtain ⟨es, r', s', k', hrun', -, hin'⟩ :=
      Reader.drain_intake none (Reader.budget k₂) (hr.woken.of_inbox hi) [] s₁.closed
    rw [List.append_nil, hcl] at hin₂
    dsimp only
    rw [Stateful.run_bind, Stateful.run_bind, hcl, Reader.run_run, hrun']
    exact ⟨ds ++ es, _, s', k', by rw [Datagram.frames_append]; rfl, hin₂.append hin'⟩

theorem poll_intake (limit : Option Nat) {s : Session} {c : Socket} (hc : s.channel = some c)
    (k : Kernel) :
    ∃ ds a s' k', ((poll limit).run s).run k = ((a, s'), k') ∧
      Intake c.handle s k ds s' k' := by
  obtain ⟨ds, ran, s', k', hrun, hin⟩ := poll_handed limit hc k
  exact ⟨ds, _, s', k', hrun, hin⟩

/-! ## One receive after another -/

/-- The frames that so many calls return. -/
def receiveTimes : Nat → SessionM (List Frame)
  | 0 => return []
  | n + 1 => do
    let f ← receive
    return f.toList ++ (← receiveTimes n)

/-- What calls of `receive` can use up: scripted outcomes and datagrams. -/
def supply (k : Kernel) (h : Handle) : Nat :=
  (k.script .poll).length + (k.script .receive).length + (k.inbox h).length

theorem Looked.of_script {h : Handle} {k k₁ k' : Kernel} {d? : Option Datagram}
    (hl : Looked h k d? k₁) (hx : k'.script = k₁.script) : Looked h k d? k' := by
  cases hl with
  | only hx' hn => exact .only (hx.trans hx') hn
  | read hq hx' hn => exact .read hq (hx.trans hx') hn

section Attempt

variable {h : Handle} {s s' : Session} {k k' : Kernel} {d? : Option Datagram}

theorem Looked.intake (hl : Looked h k d? k') (ht : Took h s k d? s' k') :
    Intake h s k d?.toList s' k' := by
  cases hl with
  | only hx =>
    cases ht with
    | nothing hi => exact .nothing hi (by rw [hx]; exact override_of_ne _ _ (by decide))
  | read hq hx hn => exact .of_read ht hq (by rw [hx, override_self]) hn

/-- While there is a datagram, each attempt uses up something. -/
theorem Looked.supply_lt (hl : Looked h k d? k') (ht : Took h s k d? s' k')
    (hq : k.inbox h ≠ []) :
    supply k' h < supply k h := by
  unfold supply
  cases hl with
  | only hx hn =>
    have hpos : 0 < k.nextOutcome .poll := hn.resolve_right hq
    have hlen := Reader.length_pos_of_nextOutcome (Int.ne_of_gt hpos)
    cases ht with
    | nothing hi =>
      rw [hx, override_self, override_of_ne _ _ (by decide), hi, List.length_tail]
      omega
  | read _ hx hn =>
    have hp : (k'.script .poll).length ≤ (k.script .poll).length := by
      rw [hx, override_of_ne _ _ (by decide), override_self, List.length_tail]
      omega
    have hr : (k'.script .receive).length = (k.script .receive).length - 1 := by
      rw [hx, override_self, List.length_tail]
    cases ht with
    | nothing hi =>
      have hlen := Reader.length_pos_of_nextOutcome (Int.ne_of_gt (hn.mp rfl))
      rw [hi]
      omega
    | oldest hd hi =>
      rw [hi, override_self, hd, List.length_cons]
      omega

end Attempt

/-- A call is an intake of one datagram at most, and uses up something while there is any. -/
theorem receive_intake {s : Session} {c : Socket} (hc : s.channel = some c) (k : Kernel) :
    ∃ (d? : Option Datagram) (s' : Session) (k' : Kernel),
      (receive.run s).run k = ((d?.bind dataFrame?, s'), k') ∧
      Intake c.handle s k d?.toList s' k' ∧ s'.channel = some c ∧
      (k.inbox c.handle ≠ [] → supply k' c.handle < supply k c.handle) := by
  obtain ⟨r, d?, s', k₁, hr, -, ht, hf, hlook⟩ := tryReceive_open hc k
  -- a failure is logged, and apart from that the call returns what the attempt does
  have hrun : ∃ k', (receive.run s).run k = ((d?.bind dataFrame?, s'), k') ∧
      k'.inbox = k₁.inbox ∧ k'.script = k₁.script := by
    rw [receive, Stateful.run_bind, hr]
    cases r with
    | error f =>
      have hnone : d?.bind dataFrame? = none :=
        Option.eq_none_iff_forall_ne_some.mpr fun g hg => nomatch (hf g).mpr hg
      exact ⟨k₁.noted _, by rw [hnone]; rfl, rfl, rfl⟩
    | ok f =>
      have hsome : f = d?.bind dataFrame? := by
        ext g
        rw [← hf g, Except.ok.injEq]
      exact ⟨k₁, by rw [hsome]; rfl, rfl, rfl⟩
  obtain ⟨k', hrun, hi, hx⟩ := hrun
  have ht' := ht.of_inbox hi
  have hlook' := hlook.of_script hx
  exact ⟨d?, s', k', hrun, hlook'.intake ht',
    by rw [ht.withHealth]; exact hc, hlook'.supply_lt ht'⟩

theorem receiveTimes_intake (n : Nat) {s : Session} {c : Socket} (hc : s.channel = some c)
    (k : Kernel) :
    ∃ ds s' k', ((receiveTimes n).run s).run k = ((Datagram.frames ds, s'), k') ∧
      Intake c.handle s k ds s' k' := by
  induction n generalizing s k with
  | zero => exact ⟨[], s, k, rfl, .nothing rfl rfl⟩
  | succ n ih =>
    obtain ⟨d?, s₁, k₁, hr, hin, hc₁, -⟩ := receive_intake hc k
    obtain ⟨ds, s', k', hr', hin'⟩ := ih hc₁ k₁
    refine ⟨d?.toList ++ ds, s', k', ?_, hin.append hin'⟩
    rw [receiveTimes, Stateful.run_bind, hr, Datagram.frames_append, Datagram.frames_toList]
    dsimp only
    rw [Stateful.run_bind, hr']
    rfl

/-- Enough calls empty the queue, whatever fails on the way. -/
theorem receiveTimes_empties {s : Session} {c : Socket} (hc : s.channel = some c) (k : Kernel) :
    ∃ n, (((receiveTimes n).run s).run k).2.inbox c.handle = [] := by
  induction hm : supply k c.handle using Nat.strongRecOn generalizing s k with
  | _ m ih =>
    by_cases hq : k.inbox c.handle = []
    · exact ⟨0, hq⟩
    · obtain ⟨d?, s₁, k₁, hr, -, hc₁, hlt⟩ := receive_intake hc k
      obtain ⟨n, hn⟩ := ih _ (hm ▸ hlt hq) hc₁ k₁ rfl
      refine ⟨n + 1, ?_⟩
      rw [receiveTimes, Stateful.run_bind, hr]
      exact hn

end Session

/-! ## Agreement -/

namespace World

/-- Receiving until nothing is left and polling once take the same datagrams off the queue, hand
out the same frames, and leave the same health. -/
theorem receive_agrees_with_poll (name : String) (settings : Settings) (controller : Controller)
    (k : Kernel) (as : List Action) {c : Socket}
    (hc : ((start name settings controller k).run as).session.channel = some c)
    (hcreate : ((start name settings controller k).run as).kernel.nextOutcome .epollCreate ≤ 0)
    (hadd : ((start name settings controller k).run as).kernel.nextOutcome .epollAdd ≤ 0) :
    let w := (start name settings controller k).run as
    ∃ fs, w.result (Session.poll none) = (true, fs) ∧
      (w.after (Session.poll none)).kernel.inbox c.handle = [] ∧
      (∃ n, (w.after (Session.receiveTimes n)).kernel.inbox c.handle = []) ∧
      ∀ n, (w.after (Session.receiveTimes n)).kernel.inbox c.handle = [] →
        w.result (Session.receiveTimes n) = fs ∧
        (w.after (Session.receiveTimes n)).kernel.inbox =
          (w.after (Session.poll none)).kernel.inbox ∧
        (w.after (Session.receiveTimes n)).kernel.script .receive =
          (w.after (Session.poll none)).kernel.script .receive ∧
        (w.after (Session.receiveTimes n)).session.health =
          (w.after (Session.poll none)).session.health := by
  intro w
  have hopen : w.session.channel = some c := hc
  have hs : Sound w.session w.kernel := sound_run (sound_start name settings controller k) as
  obtain ⟨ds, s₁, k₁, hpoll, hcons, hend⟩ :=
    Session.poll_run none (ready hs hopen) (hs.handedOut c hopen) hcreate hadd
  have hempty : k₁.inbox c.handle = [] := hend.elim (fun h => h.1) nofun
  have hin : ∃ es, Intake c.handle w.session w.kernel es s₁ k₁ := by
    obtain ⟨es, a, s', k', hrun, hin⟩ := Session.poll_intake none hopen w.kernel
    rw [hpoll] at hrun
    cases hrun
    exact ⟨es, hin⟩
  obtain ⟨es, hin⟩ := hin
  obtain ⟨-, hh, hi, hx⟩ := hin.of_empty hempty
  have hds : ds = w.kernel.inbox c.handle := by rw [hcons.queue, hempty, List.append_nil]
  refine ⟨Datagram.frames ds, by rw [result, hpoll], by rw [after, hpoll]; exact hempty,
    Session.receiveTimes_empties hopen w.kernel, ?_⟩
  intro n hn
  obtain ⟨ds', s₂, k₂, hrun, hin'⟩ := Session.receiveTimes_intake n hopen w.kernel
  simp only [after, result, hrun, hpoll] at hn ⊢
  obtain ⟨hds', hh', hi', hx'⟩ := hin'.of_empty hn
  exact ⟨by rw [hds', hds], by rw [hi', hi], by rw [hx', hx], by rw [hh', hh]⟩

/-- A short datagram, a data frame and a report that the bus is off: with a failed look and a
failed read it takes five calls to return the frame, and a poll hands it out past a failed wait
and the same failed read. -/
theorem receive_agrees_through_failures :
    let data : WireFrame := ⟨⟨0x123⟩, 2, Payload.ofList [0xDE, 0xAD]⟩
    let report : WireFrame := ⟨⟨0x20000040⟩, 8, Payload.zero⟩
    let outcomes : Service → List Int
      | .epollWait => [4, -1]
      | .poll => [4]
      | .receive => [0, 5]
      | _ => []
    let k : Kernel :=
      { interfaces := [("can0", 3)], waiting := [[1, 2], data.bytes, report.bytes],
        script := outcomes }
    let w := (start "can0" Settings.standard .table k).run [.tryOpen]
    (w.session.channel = some ⟨0, 3⟩ ∧ w.kernel.nextOutcome .epollCreate ≤ 0 ∧
      w.kernel.nextOutcome .epollAdd ≤ 0 ∧
      (w.after (Session.receiveTimes 5)).kernel.inbox 0 = []) ∧
    w.result (Session.poll none) = (true, w.result (Session.receiveTimes 5)) ∧
    (w.after (Session.receiveTimes 5)).session.health =
      (w.after (Session.poll none)).session.health ∧
    (w.after (Session.receiveTimes 5)).session.isBusOff = true := by
  intro data report outcomes k
  dsimp only
  obtain ⟨fs, hpoll, -, -, hagree⟩ := receive_agrees_with_poll "can0" Settings.standard .table k
    [.tryOpen] (c := ⟨0, 3⟩) (by decide) (by decide) (by decide)
  obtain ⟨hfs, -, -, hhealth⟩ := hagree 5 (by decide +kernel)
  refine ⟨⟨by decide, by decide, by decide, by decide +kernel⟩, ?_, hhealth,
    by decide +kernel⟩
  rw [hfs, hpoll]

end World

end CanBus
