import CanBus.Proofs.Session.World

/-!
What a reader hands out. Whatever fails between, the frames that it has handed out are the data
frames of the datagrams that have left the queue, in order (`Polling.run_consumed`), and nothing but
the stop mark ends it (`Polling.turn_ended`).
-/

namespace CanBus

open Kernel

/-- The data frames in some datagrams. -/
def Datagram.frames (ds : List Datagram) : List Frame := ds.filterMap Session.dataFrame?

/-- The health after some datagrams; only whole frames count. -/
def Health.after (h : Health) (ds : List Datagram) : Health :=
  (ds.filterMap Datagram.frame?).foldl Health.ingested h

/-- Some datagrams have left the head of a queue, and the session has taken note of them. -/
structure Consumed (c : Handle) (s : Session) (k : Kernel) (ds : List Datagram) (s' : Session)
    (k' : Kernel) : Prop where
  queue : k.inbox c = ds ++ k'.inbox c
  health : s'.health = s.health.after ds
  stopped : s.stopped ⊆ s'.stopped

namespace Consumed

variable {c : Handle} {s s₁ s' : Session} {k k₁ k' : Kernel} {ds es : List Datagram}

theorem nothing (hi : k'.inbox = k.inbox) : Consumed c s k [] s k' :=
  ⟨by rw [hi]; rfl, rfl, List.Subset.refl _⟩

theorem append (h₁ : Consumed c s k ds s₁ k₁) (h₂ : Consumed c s₁ k₁ es s' k') :
    Consumed c s k (ds ++ es) s' k' := by
  refine ⟨?_, ?_, List.Subset.trans h₁.stopped h₂.stopped⟩
  · rw [h₁.queue, h₂.queue, List.append_assoc]
  · rw [h₂.health, h₁.health, Health.after, Health.after, Health.after, List.filterMap_append,
      List.foldl_append]

theorem of_took {d? : Option Datagram} (h : Session.Took c s k d? s' k') :
    Consumed c s k d?.toList s' k' := by
  cases h with
  | nothing hi => exact .nothing hi
  | @oldest d ds k' hq hi =>
    refine ⟨?_, ?_, ?_⟩
    · rw [hq, hi, override_self]
      rfl
    · rw [Option.toList_some, Health.after, List.filterMap_cons, List.filterMap_nil]
      cases hf : Datagram.frame? d with
      | none => rw [Session.afterDatagram_short hf]; rfl
      | some w => rw [Session.afterDatagram_whole hf]; rfl
    · rw [Session.afterDatagram_withHealth]
      exact List.Subset.refl _

theorem of_close (s : Session) (k : Kernel) :
    Consumed c s k [] ((Session.close.run s).run k).1.2 ((Session.close.run s).run k).2 := by
  obtain ⟨k', hr, -, hi, -⟩ := Session.close_effect s k
  rw [hr]
  refine ⟨by rw [hi]; rfl, ?_, ?_⟩
  · rw [Session.closed]
    cases s.channel <;> rfl
  · rw [Session.closed]
    cases s.channel with
    | none => exact List.Subset.refl _
    | some c => exact List.subset_cons_self _ _

end Consumed

theorem Datagram.frames_nil : frames [] = [] := rfl

theorem Datagram.frames_append (ds es : List Datagram) :
    frames (ds ++ es) = frames ds ++ frames es := List.filterMap_append

theorem Datagram.frames_toList (d? : Option Datagram) :
    frames d?.toList = (d?.bind Session.dataFrame?).toList := by
  cases d? with
  | none => rfl
  | some d =>
    rw [Option.toList_some, frames, List.filterMap_cons, Option.bind_some]
    cases Session.dataFrame? d <;> rfl

theorem Consumed.frames {c : Handle} {s s' : Session} {k k' : Kernel} {ds : List Datagram}
    (h : Consumed c s k ds s' k') :
    Datagram.frames (k.inbox c) = Datagram.frames ds ++ Datagram.frames (k'.inbox c) := by
  rw [h.queue, Datagram.frames_append]

/-! ## A reader beside the owner -/

/-- A reader at work, with the frames that it has handed out. -/
structure Polling where
  session : Session
  kernel : Kernel
  reader : Reader
  handed : List Frame

/-- Either the reader takes a step, or the owner closes the session. -/
inductive Turn
  | step
  | close

namespace Polling

def start (w : World) : Polling := ⟨w.session, w.kernel, .starting, []⟩

def turn (p : Polling) : Turn → Polling
  | .step =>
    let o := (p.reader.step.run p.session).run p.kernel
    ⟨o.1.2, o.2, o.1.1.1, p.handed ++ o.1.1.2.handed⟩
  | .close =>
    let o := (Session.close.run p.session).run p.kernel
    { p with session := o.1.2, kernel := o.2 }

def run (p : Polling) (ts : List Turn) : Polling := ts.foldl turn p

/-- The reader holds the socket `c`, or has left the loop at its stop mark. -/
def Holds (c : Socket) (p : Polling) : Prop :=
  (∃ phase, p.reader = .running c phase) ∨
    p.reader = .ended true ∧ c.handle ∈ p.session.stopped

theorem turn_consumed {c : Socket} {p : Polling} (h : p.Holds c) (t : Turn) :
    ∃ ds, Consumed c.handle p.session p.kernel ds (p.turn t).session (p.turn t).kernel ∧
      (p.turn t).handed = p.handed ++ Datagram.frames ds ∧ (p.turn t).Holds c := by
  cases t with
  | close =>
    have hc : Consumed c.handle p.session p.kernel [] (p.turn .close).session
        (p.turn .close).kernel :=
      .of_close p.session p.kernel
    refine ⟨[], hc, (List.append_nil _).symm, ?_⟩
    exact h.imp id fun h => ⟨h.1, hc.stopped h.2⟩
  | step =>
    rcases h with ⟨phase, hp⟩ | ⟨hp, hs⟩
    · obtain ⟨r, g, s', k', hr, hm⟩ := Reader.step_moved c phase p.session p.kernel
      obtain ⟨d?, ht, -, hg⟩ := hm.took
      have hc := Consumed.of_took ht
      simp only [turn, hp, hr]
      refine ⟨d?.toList, hc, by rw [hg, Datagram.frames_toList], ?_⟩
      rcases hm.ended_or_running with ⟨rfl, -, hs⟩ | ⟨phase', rfl⟩
      · exact .inr ⟨rfl, hc.stopped hs⟩
      · exact .inl ⟨phase', rfl⟩
    · simp only [turn, hp]
      exact ⟨[], .nothing rfl, rfl, .inr ⟨rfl, hs⟩⟩

theorem run_consumed {c : Socket} {p : Polling} (h : p.Holds c) (ts : List Turn) :
    ∃ ds, Consumed c.handle p.session p.kernel ds (p.run ts).session (p.run ts).kernel ∧
      (p.run ts).handed = p.handed ++ Datagram.frames ds ∧ (p.run ts).Holds c := by
  induction ts generalizing p with
  | nil => exact ⟨[], .nothing rfl, (List.append_nil _).symm, h⟩
  | cons t ts ih =>
    obtain ⟨ds, hc, hf, h'⟩ := turn_consumed h t
    obtain ⟨es, hc', hf', h''⟩ := ih h'
    refine ⟨ds ++ es, hc.append hc', ?_, h''⟩
    rw [run, List.foldl_cons, ← run, hf', hf, Datagram.frames_append, List.append_assoc]

/-- A reader that has left the loop did so at the stop mark. -/
theorem turn_ended {c : Socket} {p : Polling} (h : p.Holds c) (t : Turn) {ran : Bool}
    (he : (p.turn t).reader = .ended ran) :
    p.reader = .ended ran ∨ p.reader = .running c .check ∧ c.handle ∈ p.session.stopped := by
  cases t with
  | close => exact .inl he
  | step =>
    rcases h with ⟨phase, hp⟩ | ⟨hp, -⟩
    · obtain ⟨r, g, s', k', hr, hm⟩ := Reader.step_moved c phase p.session p.kernel
      simp only [turn, hp, hr] at he
      rcases hm.ended_or_running with ⟨-, rfl, hs⟩ | ⟨phase', rfl⟩
      · exact .inr ⟨hp, hs⟩
      · cases he
    · simp only [turn, hp] at he
      exact .inl (hp.trans he)

/-- A reader that starts on an open socket takes hold of it, if there is a way to wait. -/
theorem turn_start {w : World} {c : Socket} (hc : w.session.channel = some c)
    (hcreate : w.kernel.nextOutcome .epollCreate ≤ 0)
    (hadd : w.kernel.nextOutcome .epollAdd ≤ 0) :
    ∃ k', (start w).turn .step = ⟨w.session, k', .running c .check, []⟩ ∧
      k'.inbox = w.kernel.inbox := by
  obtain ⟨k', hr, hk, -⟩ := Reader.start_open hc w.kernel
  rw [if_neg (by omega)] at hr
  refine ⟨k', ?_, hk.inbox⟩
  simp only [turn, start, Reader.step, Stateful.run_bind, hr]
  rfl

theorem run_start {w : World} {c : Socket} (hc : w.session.channel = some c)
    (hcreate : w.kernel.nextOutcome .epollCreate ≤ 0)
    (hadd : w.kernel.nextOutcome .epollAdd ≤ 0) (ts : List Turn) :
    ∃ ds, Consumed c.handle w.session w.kernel ds ((start w).run (.step :: ts)).session
        ((start w).run (.step :: ts)).kernel ∧
      ((start w).run (.step :: ts)).handed = Datagram.frames ds ∧
      ((start w).run (.step :: ts)).Holds c := by
  obtain ⟨k', hstart, hi⟩ := turn_start hc hcreate hadd
  have hholds : Holds c ⟨w.session, k', .running c .check, []⟩ := .inl ⟨.check, rfl⟩
  obtain ⟨ds, hds, hh, hend⟩ := run_consumed hholds ts
  rw [run, List.foldl_cons, ← run, hstart]
  exact ⟨ds, (Consumed.nothing hi).append hds, hh, hend⟩

end Polling

end CanBus
