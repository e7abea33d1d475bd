import CanBus.Proofs.Session.Beside
import CanBus.Proofs.Session.Poll

/-!
Loops and the open they belong to. `deeds` is what one reader's loop does over a run, step by step,
while the session opens, closes and changes its bitrate and other loops run beside it. `Course` says
once what a move can do to a loop, and `Turnover` what it can do to the open socket and the stop
marks. From both follow `loops_belong_to_opens`: a loop keeps to the socket that was open when it
started, ends at its first check after the close of that socket, and at no check before.
-/

namespace CanBus

open Kernel

/-! ## Deeds -/

/-- What a step of a loop does to its socket. -/
inductive Deed
  | checked (h : Handle)
  | waited (h : Handle)
  | read (h : Handle) (f : Option Frame)
  deriving DecidableEq, Repr

namespace Deed

def socket : Deed → Handle
  | .checked h => h
  | .waited h => h
  | .read h _ => h

def isRead : Deed → Bool
  | .read _ _ => true
  | _ => false

/-- Nothing is done after a check. -/
def ChecksLast (ds : List Deed) : Prop := ∀ p h q, ds = p ++ .checked h :: q → q = []

theorem checksLast_nil : ChecksLast [] := by
  intro p h q heq
  cases p <;> cases heq

theorem checksLast_single (d : Deed) : ChecksLast [d] := by
  intro p h q heq
  cases p with
  | nil => cases heq; rfl
  | cons a p => cases p <;> cases heq

theorem ChecksLast.cons {d : Deed} {ds : List Deed} (hd : ∀ h, d ≠ .checked h)
    (hds : ChecksLast ds) : ChecksLast (d :: ds) := by
  intro p h q heq
  cases p with
  | nil =>
    cases heq
    exact absurd rfl (hd h)
  | cons a p =>
    cases heq
    exact hds p h q rfl

end Deed

/-- What a reader does in a step that made this progress. -/
def Reader.deed? : Reader → Progress → Option Deed
  | .running c .check, _ => some (.checked c.handle)
  | .running c .wait, _ => some (.waited c.handle)
  | .running c (.serve (.readable :: _)), .moved f => some (.read c.handle f)
  | _, _ => none

namespace World

/-- An action, or a wait that runs out of time. -/
inductive Move
  | act (a : Action)
  | timeout (i : Nat)

def move (w : World) : Move → World
  | .act a => w.step a
  | .timeout i => { w with readers := w.readers.modify i Reader.woken }

def moves (w : World) (ms : List Move) : World := ms.foldl move w

/-- The loop of a reader is under way, and holds this socket. -/
def Runs (w : World) (i : Nat) (c : Socket) : Prop :=
  ∃ phase, w.readers[i]? = some (.running c phase)

/-- One socket kept, and other ones put in place of the rest. -/
def beside (w : World) (h : Handle) (other : Kernel) : World :=
  { w with kernel := w.kernel.beside h other }

/-- What the loop of a reader does in a move. -/
def deed? (w : World) (i : Nat) : Move → Option Deed
  | .act (.stepReader j) =>
    if j = i then w.readers[i]?.bind fun r => r.deed? (w.result r.step).2 else none
  | _ => none

/-- What the loop of a reader does over a run, in order. -/
def deeds (w : World) (i : Nat) : List Move → List Deed
  | [] => []
  | m :: ms => (w.deed? i m).toList ++ (w.move m).deeds i ms

end World

/-! ## What a move does to the open socket -/

/-- The open socket stays, or it is a new one with the next handle, or it goes and its readers are
told to stop. Nothing else sets a stop mark. -/
inductive Turnover (s : Session) (k : Kernel) (s' : Session) (k' : Kernel) : Prop
  | kept (hc : s'.channel = s.channel) (ht : s'.stopped = s.stopped) (ho : k.opened ≤ k'.opened)
  | opened (index : UInt32) (hc : s.channel = none) (hc' : s'.channel = some ⟨k.opened, index⟩)
      (ht : s'.stopped = s.stopped) (ho : k.opened ≤ k'.opened)
  | closed (c : Socket) (hc : s.channel = some c) (hc' : s'.channel = none)
      (ht : s'.stopped = c.handle :: s.stopped) (ho : k.opened ≤ k'.opened)

section Turnover

variable {s s' : Session} {k k' : Kernel}

theorem Turnover.of_closed (s : Session) (ho : k'.opened = k.opened) :
    Turnover s k s.closed k' := by
  have hle : k.opened ≤ k'.opened := Nat.le_of_eq ho.symm
  unfold Session.closed
  cases hc : s.channel with
  | none => exact .kept rfl rfl hle
  | some c => exact .closed c hc rfl rfl hle

theorem World.Change.turnover {o : Option Occurrence} (h : Change s k o s' k') :
    Turnover s k s' k' := by
  cases h with
  | nothing hk | window _ hk | attempt _ hk => exact .kept rfl rfl (Nat.le_of_eq hk.opened.symm)
  | read hk ht =>
    rw [ht.withHealth]
    exact .kept rfl rfl (Nat.le_of_eq hk.opened.symm)
  | refused hc hk => exact .kept rfl rfl hk.opened
  | opened index hc ho => exact .opened index hc rfl rfl (by rw [ho]; exact Nat.le_succ _)
  | closed ho => exact .of_closed s ho
  | tuned b r ho =>
    have hclosed := Turnover.of_closed s ho
    cases r with
    | error f => exact hclosed
    | ok u =>
      cases hclosed with
      | kept hc ht ho => exact .kept hc ht ho
      | opened index hc hc' ht ho => exact .opened index hc hc' ht ho
      | closed c hc hc' ht ho => exact .closed c hc hc' ht ho

theorem Turnover.subset (h : Turnover s k s' k') : s.stopped ⊆ s'.stopped := by
  cases h with
  | kept _ ht | opened _ _ _ ht =>
    rw [ht]
    exact List.Subset.refl _
  | closed c _ _ ht =>
    rw [ht]
    exact List.subset_cons_self _ _

theorem Turnover.opened_le (h : Turnover s k s' k') : k.opened ≤ k'.opened := by
  cases h with
  | kept _ _ ho => exact ho
  | opened _ _ _ _ ho => exact ho
  | closed _ _ _ _ ho => exact ho

end Turnover

/-! ## What a move does to a loop -/

/-- How often a loop can read before its next check. -/
def Phase.reads : Phase → Nat
  | .check => 0
  | .wait => 1
  | .serve news => news.count .readable

/-- What can become of the loop of a reader in one move, and what the loop does in it. -/
inductive Course (s : Session) : Option Reader → Option Deed → Option Reader → Prop
  | same {r? : Option Reader} : Course s r? none r?
  | spawned : Course s none none (some .starting)
  | failed : Course s (some .starting) none (some (.ended false))
  | took {c : Socket} (hc : s.channel = some c) :
      Course s (some .starting) none (some (.running c .check))
  | passed {c : Socket} (hs : c.handle ∉ s.stopped) :
      Course s (some (.running c .check)) (some (.checked c.handle)) (some (.running c .wait))
  | left {c : Socket} (hs : c.handle ∈ s.stopped) :
      Course s (some (.running c .check)) (some (.checked c.handle)) (some (.ended true))
  | waited {c : Socket} {phase : Phase} (hp : phase.reads ≤ 1) :
      Course s (some (.running c .wait)) (some (.waited c.handle)) (some (.running c phase))
  | woken {c : Socket} : Course s (some (.running c .wait)) none (some (.running c .check))
  | served {c : Socket} : Course s (some (.running c (.serve []))) none (some (.running c .check))
  | skipped {c : Socket} {news : List Readiness} :
      Course s (some (.running c (.serve (.foreign :: news)))) none
        (some (.running c (.serve news)))
  | read {c : Socket} {news : List Readiness} (f : Option Frame) :
      Course s (some (.running c (.serve (.readable :: news)))) (some (.read c.handle f))
        (some (.running c (.serve news)))

theorem Reader.reads_afterWait (c : Socket) (k : Kernel) :
    ∃ phase, (afterWait c k).1 = .running c phase ∧ phase.reads ≤ 1 := by
  unfold afterWait
  by_cases hn : k.hasNews c.handle = true
  · rw [if_pos hn]
    refine ⟨_, rfl, ?_⟩
    split
    · exact Nat.zero_le 1
    · exact (fits_news k c.handle).1
  · rw [if_neg hn]
    split
    · exact ⟨.wait, rfl, Nat.le_refl 1⟩
    · exact ⟨.check, rfl, Nat.zero_le 1⟩

theorem Reader.Stepping.course {s s' : Session} {k k' : Kernel} {r r' : Reader} {p : Progress}
    (h : Stepping s k r r' p s' k') : Course s (some r) (r.deed? p) (some r') := by
  cases h with
  | failed => exact .failed
  | took hc => exact .took hc
  | finished => exact .same
  | @ran c phase r p s' k' h =>
    cases h with
    | passed hs => exact .passed hs
    | left hs => exact .left hs
    | waited =>
      obtain ⟨phase', hr, hp⟩ := reads_afterWait c k
      rw [hr]
      exact .waited hp
    | served => exact .served
    | skipped => exact .skipped
    | read => exact .read _

theorem Reader.course_woken (s : Session) (r : Reader) : Course s (some r) none (some r.woken) := by
  cases r with
  | starting => exact .same
  | ended ran => exact .same
  | running c phase =>
    cases phase with
    | check => exact .same
    | wait => exact .woken
    | serve news => exact .same

namespace Course

variable {s : Session} {r? r'? : Option Reader} {d? : Option Deed} {c : Socket} {phase : Phase}

/-- A loop that runs after a move ran before it, on the same socket, or took
the one that was open. -/
theorem running (h : Course s r? d? r'?) (hr : r'? = some (.running c phase)) :
    (∃ phase', r? = some (.running c phase') ∧ (phase'.reads ≤ 1 → phase.reads ≤ 1)) ∨
      r? = some .starting ∧ s.channel = some c ∧ phase = .check := by
  cases h with
  | same => exact .inl ⟨phase, hr, id⟩
  | spawned | failed | left => cases hr
  | took hc =>
    cases hr
    exact .inr ⟨rfl, hc, rfl⟩
  | passed | woken | served =>
    cases hr
    exact .inl ⟨_, rfl, fun _ => by simp [Phase.reads]⟩
  | waited hp =>
    cases hr
    exact .inl ⟨_, rfl, fun _ => hp⟩
  | skipped =>
    cases hr
    exact .inl ⟨_, rfl, fun h => by simpa [Phase.reads] using h⟩
  | read =>
    cases hr
    refine .inl ⟨_, rfl, fun h => ?_⟩
    simp only [Phase.reads, List.count_cons_self] at h ⊢
    omega

/-- A running loop acts on its socket, and goes on unless that has a stop mark. -/
theorem of_running (h : Course s (some (.running c phase)) d? r'?) :
    (∀ d ∈ d?, d.socket = c.handle) ∧
      (r'? = some (.ended true) ∧ c.handle ∈ s.stopped ∨
        ∃ phase', r'? = some (.running c phase')) := by
  cases h with
  | same => exact ⟨nofun, .inr ⟨phase, rfl⟩⟩
  | left hs => exact ⟨by simp [Deed.socket], .inl ⟨rfl, hs⟩⟩
  | woken | served | skipped => exact ⟨nofun, .inr ⟨_, rfl⟩⟩
  | passed | waited | read => exact ⟨by simp [Deed.socket], .inr ⟨_, rfl⟩⟩

end Course

namespace World

variable {w : World}

theorem course_move (w : World) (i : Nat) (m : Move) :
    Course w.session w.readers[i]? (w.deed? i m) (w.move m).readers[i]? := by
  cases m with
  | timeout j =>
    simp only [move, deed?, List.getElem?_modify]
    by_cases hj : j = i
    · subst hj
      cases hr : w.readers[j]? with
      | none => simp; exact .same
      | some r => simpa using r.course_woken w.session
    · simp [hj]; exact .same
  | act a =>
    cases a with
    | stepReader j =>
      by_cases hj : j = i
      · subst hj
        cases hr : w.readers[j]? with
        | none =>
          simp only [move, step, deed?, hr, if_true, Option.bind_none]
          exact .same
        | some r =>
          obtain ⟨r', p, s', k', hrun, hs⟩ := r.step_stepping w.session w.kernel
          have hlt : j < w.readers.length := (List.getElem?_eq_some_iff.mp hr).1
          simp only [move, step, deed?, result, after, hr, hrun, if_true, Option.bind_some,
            List.getElem?_set_self hlt]
          exact hs.course
      · have hother : (w.move (.act (.stepReader j))).readers[i]? = w.readers[i]? := by
          simp only [move, step]
          cases w.readers[j]? with
          | none => rfl
          | some r => exact List.getElem?_set_ne hj
        rw [hother]
        simp only [deed?, if_neg hj]
        exact .same
    | startReader =>
      simp only [move, step, deed?]
      by_cases hi : i < w.readers.length
      · rw [List.getElem?_append_left hi]
        exact .same
      · have hnone : w.readers[i]? = none := List.getElem?_eq_none (Nat.le_of_not_lt hi)
        rw [hnone, List.getElem?_append_right (Nat.le_of_not_lt hi)]
        cases i - w.readers.length with
        | zero => exact .spawned
        | succ n => exact .same
    | _ => exact .same

theorem turnover_move (w : World) (m : Move) :
    Turnover w.session w.kernel (w.move m).session (w.move m).kernel := by
  cases m with
  | act a => exact (w.step_change a).turnover
  | timeout i => exact .kept rfl rfl (Nat.le_refl _)

/-! ## Over a run -/

/-- Sound ties, also of the sockets that loops hold; and no loop reads twice
before its next check. -/
structure Orderly (w : World) : Prop where
  sound : Sound w.session w.kernel
  held : ∀ {i : Nat} {c : Socket} {phase : Phase},
    w.readers[i]? = some (.running c phase) → c.handle < w.kernel.opened
  reads : ∀ {i : Nat} {c : Socket} {phase : Phase},
    w.readers[i]? = some (.running c phase) → phase.reads ≤ 1

theorem orderly_move (h : w.Orderly) (m : Move) : (w.move m).Orderly := by
  have hopened := (w.turnover_move m).opened_le
  refine ⟨?_, ?_, ?_⟩
  · cases m with
    | act a => exact (w.step_change a).sound h.sound
    | timeout i => exact h.sound
  · intro i c phase hr
    rcases (w.course_move i m).running hr with ⟨phase', hr', -⟩ | ⟨-, hc, -⟩
    · exact Nat.lt_of_lt_of_le (h.held hr') hopened
    · exact Nat.lt_of_lt_of_le (h.sound.handedOut c hc) hopened
  · intro i c phase hr
    rcases (w.course_move i m).running hr with ⟨phase', hr', hp⟩ | ⟨-, -, rfl⟩
    · exact hp (h.reads hr')
    · exact Nat.zero_le 1

theorem orderly_moves (h : w.Orderly) (ms : List Move) : (w.moves ms).Orderly := by
  induction ms generalizing w with
  | nil => exact h
  | cons m ms ih => exact ih (orderly_move h m)

theorem orderly_start (name : String) (settings : Settings) (controller : Controller) (k : Kernel) :
    (start name settings controller k).Orderly :=
  ⟨sound_start name settings controller k, fun h => by simp [start] at h,
    fun h => by simp [start] at h⟩

/-- A loop that has ended does nothing any more. -/
theorem deeds_ended {i : Nat} {ran : Bool} (h : w.readers[i]? = some (.ended ran))
    (ms : List Move) :
    w.deeds i ms = [] := by
  induction ms generalizing w with
  | nil => rfl
  | cons m ms ih =>
    have hc := w.course_move i m
    rw [h] at hc
    rw [deeds]
    generalize hd : w.deed? i m = d? at hc ⊢
    generalize hr : (w.move m).readers[i]? = r? at hc
    cases hc
    exact ih hr

/-- A loop keeps to its socket. -/
theorem deeds_socket {i : Nat} {c : Socket} {phase : Phase}
    (h : w.readers[i]? = some (.running c phase)) (ms : List Move) :
    ∀ d ∈ w.deeds i ms, d.socket = c.handle := by
  induction ms generalizing w phase with
  | nil => exact fun d hd => absurd hd List.not_mem_nil
  | cons m ms ih =>
    have hc := w.course_move i m
    rw [h] at hc
    obtain ⟨hd, hr⟩ := hc.of_running
    intro d hmem
    rcases List.mem_append.mp hmem with hmem | hmem
    · exact hd d (Option.mem_toList.mp hmem)
    · rcases hr with ⟨hr, -⟩ | ⟨phase', hr⟩
      · rw [deeds_ended hr] at hmem
        exact absurd hmem List.not_mem_nil
      · exact ih hr d hmem

/-- A loop whose socket has been let go makes at most the reads that were left to it,
and then one last check. -/
theorem deeds_dismissed {i : Nat} {c : Socket} {phase : Phase}
    (h : w.readers[i]? = some (.running c phase)) (hs : c.handle ∈ w.session.stopped)
    (hp : phase.reads ≤ 1) (ms : List Move) :
    Deed.ChecksLast (w.deeds i ms) ∧ (w.deeds i ms).countP Deed.isRead ≤ phase.reads := by
  induction ms generalizing w phase with
  | nil => exact ⟨Deed.checksLast_nil, Nat.zero_le _⟩
  | cons m ms ih =>
    have hs' : c.handle ∈ (w.move m).session.stopped := (w.turnover_move m).subset hs
    have hc := w.course_move i m
    rw [h] at hc
    rw [deeds]
    generalize hd : w.deed? i m = d? at hc ⊢
    generalize hr : (w.move m).readers[i]? = r? at hc
    cases hc with
    | same => exact ih hr hs' hp
    | passed hn => exact absurd hs hn
    | left =>
      rw [deeds_ended hr]
      exact ⟨Deed.checksLast_single _, Nat.le_refl 0⟩
    | waited hp' =>
      obtain ⟨hlast, hcount⟩ := ih hr hs' hp'
      refine ⟨hlast.cons nofun, ?_⟩
      rw [Option.toList_some, List.singleton_append, List.countP_cons_of_neg Bool.false_ne_true]
      exact Nat.le_trans hcount hp'
    | woken | served =>
      obtain ⟨hlast, hcount⟩ := ih hr hs' (Nat.zero_le 1)
      exact ⟨hlast, Nat.le_trans hcount (Nat.zero_le _)⟩
    | @skipped c news =>
      have hreads : (Phase.serve (.foreign :: news)).reads = (Phase.serve news).reads := by
        simp [Phase.reads]
      rw [hreads] at hp ⊢
      exact ih hr hs' hp
    | @read c news f =>
      have hreads : (Phase.serve (.readable :: news)).reads = (Phase.serve news).reads + 1 := by
        simp [Phase.reads]
      rw [hreads] at hp ⊢
      obtain ⟨hlast, hcount⟩ := ih hr hs' (Nat.le_of_succ_le hp)
      refine ⟨hlast.cons nofun, ?_⟩
      rw [Option.toList_some, List.singleton_append, List.countP_cons_of_pos rfl]
      exact Nat.succ_le_succ hcount

/-- The loop of a running reader sees nothing of the other sockets, and leaves them as they are. -/
theorem step_beside {i : Nat} {c : Socket} (h : w.Runs i c) (other : Kernel) :
    (w.beside c.handle other).step (.stepReader i) =
      (w.step (.stepReader i)).beside c.handle other := by
  obtain ⟨phase, h⟩ := h
  simp only [step, after, result, beside, h]
  rw [Reader.confined_step c phase w.session w.kernel other]

/-- The loop of a reader belongs to the socket that was open when it started. Once that is closed,
it reads at most once before its next check and does nothing after it, whatever is opened since. -/
theorem loops_belong_to_opens (name : String) (settings : Settings) (controller : Controller)
    (k : Kernel) (past : List Move) :
    let w := (start name settings controller k).moves past
    ((∀ i c, w.readers[i]? = some .starting → (w.move (.act (.stepReader i))).Runs i c →
        w.session.channel = some c) ∧
      ∀ i c, w.Runs i c →
        (∀ ms, ∀ d ∈ w.deeds i ms, d.socket = c.handle) ∧
        ∀ other, (w.beside c.handle other).step (.stepReader i) =
          (w.step (.stepReader i)).beside c.handle other) ∧
    (∀ i c m, w.Runs i c → w.session.channel = some c →
      (w.move m).session.channel ≠ some c →
      ∀ ms, Deed.ChecksLast ((w.move m).deeds i ms) ∧
      ((w.move m).deeds i ms).countP Deed.isRead ≤ 1) ∧
    (∀ m, (w.move m).session.stopped = w.session.stopped ∨
      ∃ c, w.session.channel = some c ∧ (w.move m).session.channel = none ∧
        (w.move m).session.stopped = c.handle :: w.session.stopped) ∧
    (∀ m c, w.session.channel = none → (w.move m).session.channel = some c →
      c.handle ∉ (w.move m).session.stopped ∧
      ∀ i c', w.Runs i c' → c'.handle ≠ c.handle) ∧
    ∀ c, w.session.channel = some c →
      c.handle ∉ w.session.stopped ∧ ∀ i m, w.Runs i c → (w.move m).Runs i c := by
  intro w
  have ho : w.Orderly := orderly_moves (orderly_start name settings controller k) past
  have hgoes : ∀ i c m, w.session.channel = some c → w.Runs i c → (w.move m).Runs i c := by
    rintro i c m hc ⟨phase, hr⟩
    have hcourse := w.course_move i m
    rw [hr] at hcourse
    rcases hcourse.of_running.2 with ⟨-, hs⟩ | hr'
    · exact absurd hs (ho.sound.notStopped c hc)
    · exact hr'
  refine ⟨⟨?_, ?_⟩, ?_, ?_, ?_, ?_⟩
  · rintro i c hr ⟨phase, hr'⟩
    rcases (w.course_move i _).running hr' with ⟨phase', h, -⟩ | ⟨-, hc, -⟩
    · rw [hr] at h
      cases h
    · exact hc
  · intro i c hr
    exact ⟨fun ms => hr.elim fun phase h => deeds_socket h ms, step_beside hr⟩
  · intro i c m hr hc hclosed ms
    have ho' := orderly_move ho m
    obtain ⟨phase, hr'⟩ := hgoes i c m hc hr
    have hs : c.handle ∈ (w.move m).session.stopped := by
      cases w.turnover_move m with
      | kept hc' => exact absurd (hc'.trans hc) hclosed
      | opened _ hn => rw [hn] at hc; cases hc
      | closed c' hc' _ ht =>
        rw [hc'] at hc
        cases hc
        rw [ht]
        exact List.mem_cons_self
    obtain ⟨hlast, hcount⟩ := deeds_dismissed hr' hs (ho'.reads hr') ms
    exact ⟨hlast, Nat.le_trans hcount (ho'.reads hr')⟩
  · intro m
    cases w.turnover_move m with
    | kept _ ht | opened _ _ _ ht => exact .inl ht
    | closed c hc hc' ht => exact .inr ⟨c, hc, hc', ht⟩
  · intro m c hn hc
    have ho' := orderly_move ho m
    refine ⟨ho'.sound.notStopped c hc, ?_⟩
    rintro i c' ⟨phase, hr⟩
    cases w.turnover_move m with
    | kept hc' => rw [hc', hn] at hc; cases hc
    | closed _ _ hc' => rw [hc'] at hc; cases hc
    | opened index _ hc' =>
      rw [hc'] at hc
      cases hc
      exact Nat.ne_of_lt (ho.held hr)
  · intro c hc
    exact ⟨ho.sound.notStopped c hc, fun i m hr => hgoes i c m hc hr⟩

/-- A loop that is past its check when its socket is closed: it still reads a frame, although the
session is open again and another loop runs by then, and then ends. -/
theorem loop_ends_after_reopening :
    let data : WireFrame := ⟨⟨0x123⟩, 2, Payload.ofList [0xDE, 0xAD]⟩
    let k : Kernel := { interfaces := [("can0", 3)], waiting := [data.bytes] }
    let past : List Move :=
      [.act .tryOpen, .act .startReader, .act (.stepReader 0), .act (.stepReader 0)]
    let later : List Move :=
      [.act .tryOpen, .act .startReader, .act (.stepReader 1), .act (.stepReader 0),
        .act (.stepReader 1), .act (.stepReader 0), .act (.stepReader 0), .act (.stepReader 0)]
    let w := (start "can0" Settings.standard .table k).moves past
    let w' := w.move (.act .close)
    (w.readers[0]? = some (.running ⟨0, 3⟩ .wait) ∧ w.session.channel = some ⟨0, 3⟩ ∧
      w'.session.channel = none) ∧
    w'.deeds 0 later =
      [.waited 0, .read 0 (some ⟨.standard 0x123, 2, Payload.ofList [0xDE, 0xAD]⟩),
        .checked 0] ∧
    w'.deeds 1 later = [.checked 1] ∧
    ∀ more, Deed.ChecksLast (w'.deeds 0 (later ++ more)) ∧
      (w'.deeds 0 (later ++ more)).countP Deed.isRead ≤ 1 := by
  intro data k past later
  dsimp only
  have hruns : ((start "can0" Settings.standard .table k).moves past).Runs 0 ⟨0, 3⟩ :=
    ⟨.wait, by decide +kernel⟩
  have hloops := loops_belong_to_opens "can0" Settings.standard .table k past
  refine ⟨⟨by decide +kernel, by decide +kernel, by decide +kernel⟩, by decide +kernel,
    by decide +kernel, ?_⟩
  exact fun more =>
    hloops.2.1 0 ⟨0, 3⟩ (.act .close) hruns (by decide +kernel) (by decide +kernel) _

end World

end CanBus
