import CanBus.Proofs.Session.Delivery

/-!
A whole poll. Each round of a reader uses up a scripted outcome or a datagram, which `distance`
measures; so a poll has steps enough to empty the queue, unless its limit comes first.
`poll_delivers` puts this together with what holds at every turn of a reader.
-/

namespace CanBus

open Kernel

/-! ## Steps left -/

/-- Outcomes and datagrams that the rounds of a reader have to use up. -/
def Kernel.pending (k : Kernel) (h : Handle) : Nat :=
  (k.script .epollWait).length + (k.script .receive).length + (k.inbox h).length

namespace Reader

theorem le_sum_range (f : Nat → Nat) {n i : Nat} (h : i < n) :
    f i ≤ (List.range n).foldl (fun a j => a + f j) 0 := by
  induction n with
  | zero => exact absurd h (Nat.not_lt_zero i)
  | succ n ih =>
    rw [List.range_succ, List.foldl_append, List.foldl_cons, List.foldl_nil]
    rcases Nat.lt_succ_iff_lt_or_eq.mp h with h | rfl
    · exact Nat.le_trans (ih h) (Nat.le_add_right _ _)
    · exact Nat.le_add_left _ _

theorem pending_le_budget {k : Kernel} {h : Handle} (ho : h < k.opened) :
    5 * (k.pending h + 3) ≤ budget k := by
  have hq := le_sum_range (fun x => (k.inbox x).length) ho
  exact Nat.mul_le_mul_left 5 (Nat.add_le_add_right (Nat.add_le_add_left hq _) 3)

/-- Steps to the next use of a datagram or outcome, within five. What is
served reads at most once. -/
def lag : Phase → Nat
  | .check => 2
  | .wait => 1
  | .serve news => if .readable ∈ news then news.length - 1 else news.length + 3

def distance (h : Handle) (k : Kernel) (phase : Phase) : Nat := 5 * k.pending h + lag phase

/-- Before a read there is something to read. -/
def Fits (h : Handle) (k : Kernel) : Phase → Prop
  | .serve news => news.count .readable ≤ 1 ∧ (.readable ∈ news → k.inbox h ≠ [])
  | _ => True

/-- The socket is open, and its readers have not been told to stop. -/
structure Ready (c : Socket) (s : Session) (k : Kernel) : Prop where
  channel : s.channel = some c
  notStopped : c.handle ∉ s.stopped
  accepts : k.accepts c.handle = true

/-- Nothing is left to read before the next look at the stop mark. -/
def Quiet : Phase → Prop
  | .check => True
  | .wait => False
  | .serve news => .readable ∉ news

theorem fits_news (k : Kernel) (h : Handle) : Fits h k (.serve (k.news h)) := by
  unfold Fits news
  cases k.inbox h <;> by_cases hn : k.nextOutcome .epollWait < 0 <;> simp [hn]

theorem Fits.tail {h : Handle} {k : Kernel} {news : List Readiness}
    (hf : Fits h k (.serve (.foreign :: news))) : Fits h k (.serve news) := by
  obtain ⟨hc, hi⟩ := hf
  rw [List.count_cons_of_ne (by decide)] at hc
  exact ⟨hc, fun hm => hi (List.mem_cons_of_mem _ hm)⟩

/-- What is served reads once. -/
theorem Fits.notMem {h : Handle} {k : Kernel} {news : List Readiness}
    (hf : Fits h k (.serve (.readable :: news))) : .readable ∉ news := by
  have hc := hf.1
  rw [List.count_cons_self] at hc
  exact List.count_eq_zero.mp (by omega)

theorem Fits.of_notMem {news : List Readiness} (hm : .readable ∉ news) (h : Handle) (k : Kernel) :
    Fits h k (.serve news) :=
  ⟨by rw [List.count_eq_zero.mpr hm]; exact Nat.zero_le _, fun h => absurd h hm⟩

theorem lag_news (k : Kernel) (h : Handle) : lag (.serve (k.news h)) ≤ 4 := by
  unfold lag news
  cases k.inbox h <;> by_cases hn : k.nextOutcome .epollWait < 0 <;> simp [hn]

section Progress

variable {c : Socket} {s s' : Session} {k k' : Kernel} {phase : Phase} {r : Reader} {p : Progress}

theorem length_pos_of_nextOutcome {v : Service} (h : k.nextOutcome v ≠ 0) :
    0 < (k.script v).length := by
  cases hs : k.script v with
  | nil => simp [nextOutcome, hs] at h
  | cons n ns => exact Nat.succ_pos _

theorem pending_of_waited (hi : k'.inbox = k.inbox)
    (hx : k'.script = override k.script .epollWait (k.script .epollWait).tail) (h : Handle) :
    k'.pending h + (k.script .epollWait).length =
      k.pending h + (k.script .epollWait).tail.length := by
  have hr : k'.script .receive = k.script .receive := by
    rw [hx]
    exact override_of_ne _ _ (by decide)
  rw [pending, pending, hr, hi, hx, override_self]
  omega

/-- A read that finds a datagram uses up that or an outcome. -/
theorem pending_of_read {d? : Option Datagram} (hq : k.inbox c.handle ≠ [])
    (ht : Session.Took c.handle s k d? s' k')
    (hx : k'.script = override k.script .receive (k.script .receive).tail)
    (hn : d? = none → 0 < k.nextOutcome .receive ∨ k.inbox c.handle = []) :
    k'.pending c.handle < k.pending c.handle := by
  have hw : k'.script .epollWait = k.script .epollWait := by
    rw [hx]
    exact override_of_ne _ _ (by decide)
  have hr : (k'.script .receive).length = (k.script .receive).length - 1 := by
    rw [hx, override_self, List.length_tail]
  unfold pending
  cases ht with
  | nothing hi =>
    have hpos : 0 < k.nextOutcome .receive := (hn rfl).resolve_right hq
    have hlen := length_pos_of_nextOutcome (Int.ne_of_gt hpos)
    rw [hw, hr, hi]
    omega
  | oldest hd hi =>
    rw [hw, hr, hd, hi, override_self, List.length_cons]
    omega

/-- A wait with something to report leads on. -/
theorem wait_ready (hn : k.hasNews c.handle = true) (hi : k'.inbox = k.inbox)
    (hx : k'.script = override k.script .epollWait (k.script .epollWait).tail) :
    ∃ phase', (afterWait c k).1 = .running c phase' ∧ (afterWait c k).2 = .moved none ∧
      Fits c.handle k' phase' ∧ distance c.handle k' phase' < distance c.handle k .wait := by
  have hp := pending_of_waited hi hx c.handle
  rw [List.length_tail] at hp
  unfold afterWait distance
  rw [if_pos hn]
  by_cases ho : 0 < k.nextOutcome .epollWait
  · have hlen := length_pos_of_nextOutcome (Int.ne_of_gt ho)
    rw [if_pos ho]
    exact ⟨.check, rfl, rfl, trivial, by simp only [lag]; omega⟩
  · have hf : Fits c.handle k' (.serve (k.news c.handle)) := by
      unfold Fits
      rw [hi]
      exact fits_news k c.handle
    have hlag := lag_news k c.handle
    rw [if_neg ho]
    refine ⟨_, rfl, rfl, hf, ?_⟩
    rw [show lag .wait = 1 from rfl]
    cases hs : k.script .epollWait with
    | cons n ns =>
      rw [hs, List.length_cons] at hp
      omega
    | nil =>
      -- Nothing is used up, but then there is a datagram and the next step reads it.
      have hz : k.nextOutcome .epollWait = 0 := by rw [nextOutcome, hs]; rfl
      have hq : (k.inbox c.handle).isEmpty = false := by simpa [hasNews, hs] using hn
      have hl : lag (.serve (k.news c.handle)) = 0 := by simp [lag, news, hq, hz]
      rw [hs] at hp
      rw [hl]
      simp only [List.length_nil] at hp
      omega

theorem Ready.of_withHealth (h : Ready c s k) (hs : s' = s.withHealth s'.health)
    (ha : k'.accepts = k.accepts) : Ready c s' k' := by
  rw [hs]
  exact ⟨h.channel, h.notStopped, by rw [ha]; exact h.accepts⟩

theorem distance_pos (hf : Fits c.handle k phase) : 0 < distance c.handle k phase := by
  unfold distance
  cases phase with
  | check => exact Nat.succ_pos _
  | wait => exact Nat.succ_pos _
  | serve news =>
    by_cases hm : .readable ∈ news
    · have hq := List.length_pos_iff.mpr (hf.2 hm)
      simp only [pending]
      omega
    · rw [lag, if_neg hm]
      omega

/-- While the socket is open, a step either finds nothing to do or comes closer to that. -/
theorem Moved.ready (h : Moved c s k phase r p s' k') (hr : Ready c s k)
    (hf : Fits c.handle k phase) :
    (p = .idle ∧ r = .running c .wait ∧ s' = s ∧ k.inbox c.handle = [] ∧
      SameSockets k k') ∨
    ∃ phase' f, r = .running c phase' ∧ p = .moved f ∧ Fits c.handle k' phase' ∧
      distance c.handle k' phase' < distance c.handle k phase ∧
      (f ≠ none → Quiet phase') := by
  unfold distance
  cases h with
  | passed => exact .inr ⟨_, none, rfl, rfl, trivial, by simp [lag], fun h => absurd rfl h⟩
  | left hs => exact absurd hs hr.notStopped
  | waited hk hx =>
    by_cases hn : k.hasNews c.handle = true
    · obtain ⟨phase', h₁, h₂, hf', hd⟩ := wait_ready hn hk.inbox hx
      exact .inr ⟨phase', none, h₁, h₂, hf', hd, fun h => absurd rfl h⟩
    · have hi : k.inbox c.handle = [] := by
        rw [hasNews, Bool.or_eq_true, not_or] at hn
        simpa using hn.2
      rw [afterWait, if_neg hn, if_pos hr.accepts]
      exact .inl ⟨rfl, rfl, rfl, hi, hk⟩
  | served => exact .inr ⟨_, none, rfl, rfl, trivial, by simp [lag], fun h => absurd rfl h⟩
  | @skipped news =>
    refine .inr ⟨_, none, rfl, rfl, hf.tail, ?_, fun h => absurd rfl h⟩
    by_cases hm : .readable ∈ news
    · have hpos := List.length_pos_of_mem hm
      simp [lag, hm]
      omega
    · simp [lag, hm]
  | @read news d? s' k' hk ht hx hn =>
    have hp := pending_of_read (hf.2 List.mem_cons_self) ht hx hn.mp
    have hm := hf.notMem
    refine .inr ⟨_, _, rfl, rfl, .of_notMem hm _ _, ?_, fun _ => hm⟩
    simp [lag, hm]
    omega

end Progress

/-! ## Draining -/

section Drain

variable {limit : Option Nat} {n : Nat} {r r' : Reader} {s s' : Session} {k k' : Kernel}
  {fs : List Frame}

theorem drain_idle (h : (r.step.run s).run k = (((r', .idle), s'), k')) :
    ((drain limit (n + 1) r fs).run s).run k = (((r', fs), s'), k') := by
  unfold drain
  rw [Stateful.run_bind, h]
  rfl

theorem drain_none (h : (r.step.run s).run k = (((r', .moved none), s'), k')) :
    ((drain limit (n + 1) r fs).run s).run k = ((drain limit n r' fs).run s').run k' := by
  rw [drain, Stateful.run_bind, h]

theorem drain_some {f : Frame} (h : (r.step.run s).run k = (((r', .moved (some f)), s'), k')) :
    ((drain limit (n + 1) r fs).run s).run k =
      if limit = some (fs ++ [f]).length then
        ((drain limit n r' (fs ++ [f])).run ((Session.close.run s').run k').1.2).run
          ((Session.close.run s').run k').2
      else ((drain limit n r' (fs ++ [f])).run s').run k' := by
  rw [drain, Stateful.run_bind, h]
  dsimp only
  by_cases hl : limit = some (fs ++ [f]).length
  · rw [if_pos hl, if_pos hl, Stateful.run_bind]
  · rw [if_neg hl, if_neg hl]

theorem drain_ended (ran : Bool) :
    ((drain limit n (.ended ran) fs).run s).run k = (((.ended ran, fs), s), k) := by
  cases n <;> rfl

end Drain

/-- A reader whose socket has been stopped leaves the loop without another read. -/
theorem drain_stopped (limit : Option Nat) {c : Socket} {s : Session} (hs : c.handle ∈ s.stopped)
    {phase : Phase} (hq : Quiet phase) {n : Nat} {k : Kernel} (hn : lag phase ≤ n)
    (fs : List Frame) :
    ∃ k', ((drain limit n (.running c phase) fs).run s).run k = (((.ended true, fs), s), k') ∧
      k'.inbox = k.inbox := by
  induction n generalizing phase with
  | zero =>
    cases phase with
    | check => cases hn
    | wait => cases hn
    | serve news =>
      rw [lag, if_neg hq] at hn
      cases hn
  | succ n ih =>
    obtain ⟨r, p, s', k', hr, hm⟩ := step_moved c phase s k
    cases hm with
    | passed h => exact absurd hs h
    | left _ hk =>
      rw [drain_none hr, drain_ended]
      exact ⟨k', rfl, hk.inbox⟩
    | waited => exact hq.elim
    | served =>
      rw [drain_none hr]
      have hcheck : Quiet .check := trivial
      exact ih hcheck (by simp [lag] at hn ⊢; omega)
    | @skipped news =>
      have hnews : Quiet (.serve news) := fun h => hq (List.mem_cons_of_mem _ h)
      rw [drain_none hr]
      refine ih hnews ?_
      rw [lag, if_neg hq, List.length_cons] at hn
      rw [lag, if_neg hnews]
      omega
    | read => exact absurd List.mem_cons_self hq

/-- Closing the session ends its reader, and nothing more is read. -/
theorem drain_closed (limit : Option Nat) {c : Socket} {s : Session} {k : Kernel} (hr : Ready c s k)
    {phase : Phase} (hq : Quiet phase) {n : Nat} (hn : lag phase ≤ n) (fs : List Frame) :
    ∃ s' k', ((drain limit n (.running c phase) fs).run ((Session.close.run s).run k).1.2).run
        ((Session.close.run s).run k).2 = (((.ended true, fs), s'), k') ∧
      Consumed c.handle s k [] s' k' ∧ c.handle ∈ s'.stopped := by
  have hc := Consumed.of_close (c := c.handle) s k
  have hs : c.handle ∈ ((Session.close.run s).run k).1.2.stopped := by
    obtain ⟨k₁, hcl, -⟩ := Session.close_effect s k
    rw [hcl, Session.closed, hr.channel]
    exact List.mem_cons_self
  obtain ⟨k', hrun, hi⟩ :=
    drain_stopped limit hs hq (k := ((Session.close.run s).run k).2) hn fs
  exact ⟨_, k', hrun, hc.append (.nothing hi), hs⟩

/-- How a drain of an open socket ends: asleep over an empty queue, or stopped at the limit. -/
inductive Drained (limit : Option Nat) (c : Socket) (s : Session) (k : Kernel) (fs : List Frame) :
    Reader → Prop
  | asleep (hr : Ready c s k) (hi : k.inbox c.handle = [])
      (hl : ∀ l, limit = some l → fs.length < l ∨ l = 0) :
      Drained limit c s k fs (.running c .wait)
  | stopped (hs : c.handle ∈ s.stopped) (hl : limit = some fs.length) :
      Drained limit c s k fs (.ended true)

/-- Within its distance a reader gets to an end, with the data frames of all that it has read. -/
theorem drain_ready {limit : Option Nat} {c : Socket} {phase : Phase} {n : Nat} {s : Session}
    {k : Kernel} {fs : List Frame} (hr : Ready c s k) (hf : Fits c.handle k phase)
    (hn : distance c.handle k phase ≤ n)
    (hl : ∀ l, limit = some l → fs.length < l ∨ l = 0) :
    ∃ ds r s' k', ((drain limit n (.running c phase) fs).run s).run k =
        (((r, fs ++ Datagram.frames ds), s'), k') ∧
      Consumed c.handle s k ds s' k' ∧ Drained limit c s' k' (fs ++ Datagram.frames ds) r := by
  induction n generalizing phase s k fs with
  | zero => exact absurd hn (Nat.not_le_of_gt (distance_pos hf))
  | succ n ih =>
    obtain ⟨r, p, s', k', hrun, hm⟩ := step_moved c phase s k
    obtain ⟨d?, ht, hk, hg⟩ := hm.took
    have hc := Consumed.of_took ht
    have hr' : Ready c s' k' := hr.of_withHealth ht.withHealth hk.accepts
    obtain ⟨rfl, rfl, rfl, hi, hk⟩ | ⟨phase', f, rfl, rfl, hf', hd, hquiet⟩ :=
      hm.ready hr hf
    · have hi' : k'.inbox c.handle = [] := by rw [hk.inbox, hi]
      rw [drain_idle hrun]
      refine ⟨[], _, s', k', by rw [Datagram.frames_nil, List.append_nil], .nothing hk.inbox,
        ?_⟩
      rw [Datagram.frames_nil, List.append_nil]
      exact .asleep hr' hi' hl
    have hn' : distance c.handle k' phase' ≤ n := by omega
    have hfs : Datagram.frames d?.toList = f.toList := by
      rw [Datagram.frames_toList, ← hg]
      rfl
    cases f with
    | none =>
      obtain ⟨ds, r, s₂, k₂, hrun', hc', hdr⟩ := ih hr' hf' hn' hl
      rw [drain_none hrun]
      refine ⟨d?.toList ++ ds, r, s₂, k₂, ?_, hc.append hc', ?_⟩
      · rw [Datagram.frames_append, hfs, hrun']
        rfl
      · rw [Datagram.frames_append, hfs]
        exact hdr
    | some f =>
      rw [drain_some hrun]
      by_cases hlim : limit = some (fs ++ [f]).length
      · have hlag : lag phase' ≤ n := Nat.le_trans (Nat.le_add_left _ _) hn'
        obtain ⟨s₂, k₂, hrun', hc', hs⟩ :=
          drain_closed limit hr' (hquiet nofun) hlag (fs ++ [f])
        rw [if_pos hlim, hrun']
        refine ⟨d?.toList ++ [], .ended true, s₂, k₂, ?_, hc.append hc', ?_⟩
        · rw [List.append_nil, hfs]
          rfl
        · rw [List.append_nil, hfs]
          exact .stopped hs hlim
      · have hl' : ∀ l, limit = some l → (fs ++ [f]).length < l ∨ l = 0 := by
          intro l h
          have hne : l ≠ (fs ++ [f]).length := fun h' => hlim (h' ▸ h)
          have := hl l h
          rw [List.length_append, List.length_singleton] at hne ⊢
          omega
        obtain ⟨ds, r, s₂, k₂, hrun', hc', hdr⟩ := ih hr' hf' hn' hl'
        rw [if_neg hlim]
        refine ⟨d?.toList ++ ds, r, s₂, k₂, ?_, hc.append hc', ?_⟩
        · rw [Datagram.frames_append, hfs, hrun', List.append_assoc]
          rfl
        · rw [Datagram.frames_append, hfs, ← List.append_assoc]
          exact hdr

theorem run_run (limit : Option Nat) (r : Reader) (s : Session) (k : Kernel) :
    ((run limit r).run s).run k = ((drain limit (budget k) r []).run s).run k := by
  rw [run, Stateful.run_bind, Stateful.run_lift, System.run_get]

/-- From its start a reader has steps enough to get to an end. -/
theorem run_starting (limit : Option Nat) {c : Socket} {s : Session} {k : Kernel} (hr : Ready c s k)
    (ho : c.handle < k.opened) (hcreate : k.nextOutcome .epollCreate ≤ 0)
    (hadd : k.nextOutcome .epollAdd ≤ 0) :
    ∃ ds r s' k', ((run limit .starting).run s).run k = (((r, Datagram.frames ds), s'), k') ∧
      Consumed c.handle s k ds s' k' ∧ Drained limit c s' k' (Datagram.frames ds) r := by
  obtain ⟨k₁, hstart, hk, hx⟩ := start_open hr.channel k
  rw [if_neg (by omega)] at hstart
  have hstep : (step .starting |>.run s).run k = (((.running c .check, .moved none), s), k₁) := by
    rw [step, Stateful.run_bind, hstart]
    rfl
  have hr₁ : Ready c s k₁ := hr.of_withHealth rfl hk.accepts
  have hp : k₁.pending c.handle = k.pending c.handle := by
    rw [pending, pending, hx _ (by decide) (by decide), hx _ (by decide) (by decide), hk.inbox]
  have hb := pending_le_budget ho
  obtain ⟨n, hn⟩ : ∃ n, budget k = n + 1 := ⟨budget k - 1, by omega⟩
  have hdist : distance c.handle k₁ .check ≤ n := by
    rw [distance, hp, lag]
    omega
  have hfits : Fits c.handle k₁ .check := trivial
  have hlim : ∀ l, limit = some l → ([] : List Frame).length < l ∨ l = 0 :=
    fun l _ => (Nat.eq_zero_or_pos l).symm
  obtain ⟨ds, r, s', k', hrun, hc, hd⟩ := drain_ready hr₁ hfits hdist hlim
  rw [run_run, hn, drain_none hstep]
  exact ⟨ds, r, s', k', hrun, (Consumed.nothing hk.inbox).append hc, hd⟩

end Reader

/-- A poll hands out what it reads, and ends with an empty queue or at its limit. -/
theorem Session.poll_run (limit : Option Nat) {c : Socket} {s : Session} {k : Kernel}
    (hr : Reader.Ready c s k) (ho : c.handle < k.opened)
    (hcreate : k.nextOutcome .epollCreate ≤ 0) (hadd : k.nextOutcome .epollAdd ≤ 0) :
    ∃ ds s' k', ((poll limit).run s).run k = (((true, Datagram.frames ds), s'), k') ∧
      Consumed c.handle s k ds s' k' ∧
      (k'.inbox c.handle = [] ∧
        (∀ l, limit = some l → (Datagram.frames ds).length < l ∨ l = 0) ∨
        limit = some (Datagram.frames ds).length) := by
  obtain ⟨ds, r, s₁, k₁, hrun, hc, hd⟩ := Reader.run_starting limit hr ho hcreate hadd
  unfold poll
  rw [Stateful.run_bind, hrun]
  cases hd with
  | stopped hs hl => exact ⟨ds, s₁, k₁, rfl, hc, .inr hl⟩
  | asleep hr₁ hi hl =>
    let k₂ := ((Session.close.run s₁).run k₁).2
    have hlag : Reader.lag .check ≤ Reader.budget k₂ := by
      simp only [Reader.lag, Reader.budget]
      omega
    have hquiet : Reader.Quiet .check := trivial
    obtain ⟨s', k', hend, hc', -⟩ := Reader.drain_closed none hr₁ hquiet hlag []
    have hwoken : (Reader.running c .wait).woken = .running c .check := rfl
    dsimp only
    rw [Stateful.run_bind, Stateful.run_bind, Reader.run_run, hwoken, hend]
    refine ⟨ds ++ [], s', k', ?_, hc.append hc', .inl ⟨?_, ?_⟩⟩
    · dsimp only
      rw [List.append_nil, List.append_nil, decide_eq_true rfl, Stateful.run_pure]
    · rw [← hi, hc'.queue]
      rfl
    · rw [List.append_nil]
      exact hl

namespace World

theorem ready {w : World} (h : Sound w.session w.kernel) {c : Socket}
    (hc : w.session.channel = some c) :
    Reader.Ready c w.session w.kernel := ⟨hc, h.notStopped c hc, h.accepts c hc⟩

/-- At every turn a reader has handed out the data frames of what has left the queue, and nothing
but its stop mark ends it. -/
theorem poll_delivers (name : String) (settings : Settings) (controller : Controller) (k : Kernel)
    (as : List Action) {c : Socket}
    (hc : ((start name settings controller k).run as).session.channel = some c)
    (hcreate : ((start name settings controller k).run as).kernel.nextOutcome .epollCreate ≤ 0)
    (hadd : ((start name settings controller k).run as).kernel.nextOutcome .epollAdd ≤ 0) :
    let w := (start name settings controller k).run as
    let queue := w.kernel.inbox c.handle
    (∀ ts, let p := (Polling.start w).run (.step :: ts)
      (∃ ds, Consumed c.handle w.session w.kernel ds p.session p.kernel ∧
        p.handed = Datagram.frames ds) ∧
      p.handed <+: Datagram.frames queue ∧
      (p.kernel.inbox c.handle = [] → p.handed = Datagram.frames queue) ∧
      p.Holds c ∧
      ∀ t ran, (p.turn t).reader = .ended ran →
        p.reader = .ended ran ∨
        p.reader = .running c .check ∧ c.handle ∈ p.session.stopped) ∧
    ∀ limit, ∃ ds s' k',
      ((Session.poll limit).run w.session).run w.kernel = (((true, Datagram.frames ds), s'), k') ∧
      Consumed c.handle w.session w.kernel ds s' k' ∧
      (limit = none → k'.inbox c.handle = [] ∧ Datagram.frames ds = Datagram.frames queue) ∧
      ∀ l > 0, limit = some l → Datagram.frames ds = (Datagram.frames queue).take l := by
  intro w queue
  have hs : Sound w.session w.kernel := sound_run (sound_start name settings controller k) as
  have hr : Reader.Ready c w.session w.kernel := ready hs hc
  constructor
  · intro ts p
    obtain ⟨ds, hcons, hh, hholds⟩ := Polling.run_start hc hcreate hadd ts
    have hq := hcons.frames
    rw [← hh] at hq
    refine ⟨⟨ds, hcons, hh⟩, ⟨_, hq.symm⟩, ?_, hholds, ?_⟩
    · intro he
      rw [he] at hq
      exact (List.append_nil _ ▸ hq).symm
    · intro t ran
      exact Polling.turn_ended hholds t
  · intro limit
    obtain ⟨ds, s', k', hrun, hcons, hend⟩ :=
      Session.poll_run limit hr (hs.handedOut c hc) hcreate hadd
    have hq := hcons.frames
    refine ⟨ds, s', k', hrun, hcons, ?_, ?_⟩
    · intro hl
      rcases hend with ⟨hi, -⟩ | hlim
      · rw [hi] at hq
        exact ⟨hi, (List.append_nil _ ▸ hq).symm⟩
      · rw [hl] at hlim
        cases hlim
    · intro l hpos hl
      rw [hq]
      rcases hend with ⟨hi, hlen⟩ | hlim
      · have hle : (Datagram.frames ds).length ≤ l := by
          have := hlen l hl
          omega
        rw [hi, Datagram.frames_nil, List.append_nil, List.take_of_length_le hle]
      · have hle : l = (Datagram.frames ds).length := Option.some.inj (hl.symm.trans hlim)
        rw [hle, List.take_left]

/-- A short datagram, an error frame and a data frame, with a failed wait and a failed read on the
way: the data frame is handed out. -/
theorem poll_delivers_through_failures :
    let data : WireFrame := ⟨⟨0x123⟩, 2, Payload.ofList [0xDE, 0xAD]⟩
    let report : WireFrame := ⟨⟨0x20000040⟩, 8, Payload.zero⟩
    let k : Kernel :=
      { interfaces := [("can0", 3)], waiting := [[1, 2], report.bytes, data.bytes]
        script := override (override (fun _ => []) .epollWait [4, -1]) .receive [0, 5] }
    let w := (start "can0" Settings.standard .table k).run [.tryOpen]
    (w.session.channel = some ⟨0, 3⟩ ∧ w.kernel.nextOutcome .epollCreate ≤ 0 ∧
      w.kernel.nextOutcome .epollAdd ≤ 0) ∧
    ∃ s' k', ((Session.poll none).run w.session).run w.kernel =
      (((true, [⟨.standard 0x123, 2, Payload.ofList [0xDE, 0xAD]⟩]), s'), k') := by
  intro data report k w
  have hc : w.session.channel = some ⟨0, 3⟩ := by decide
  have hcreate : w.kernel.nextOutcome .epollCreate ≤ 0 := by decide
  have hadd : w.kernel.nextOutcome .epollAdd ≤ 0 := by decide
  have hq : Datagram.frames (w.kernel.inbox 0) =
      [⟨.standard 0x123, 2, Payload.ofList [0xDE, 0xAD]⟩] := by decide
  obtain ⟨ds, s', k', hrun, -, hall, -⟩ :=
    (poll_delivers "can0" Settings.standard .table k [.tryOpen] hc hcreate hadd).2 none
  refine ⟨⟨hc, hcreate, hadd⟩, s', k', ?_⟩
  rw [← hq, ← (hall rfl).2]
  exact hrun

end World

end CanBus
