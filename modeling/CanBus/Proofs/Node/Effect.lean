import CanBus.Node
import CanBus.Proofs.Session.Poll

/-!
What the operations of a node do: to its session just what the operations of the session do, and to
the inbox what the reader hands out. Once its session has been closed a reader ends within a few
steps (`Stepping.dismissed`), which is what a stop waits for.
-/

namespace CanBus

open Kernel

namespace Node

variable (n : Node) (k : Kernel)

theorem onSession_run {α : Type} (m : SessionM α) :
    ((onSession m).run n).run k =
      ((((m.run n.session).run k).1.1, { n with session := ((m.run n.session).run k).1.2 }),
        ((m.run n.session).run k).2) := rfl

/-- The inbox grows at its end; a warning may be logged. -/
theorem push_effect (f : Frame) :
    ∃ k', ((push f).run n).run k = (((), { n with inbox := n.inbox ++ [f] }), k') ∧
      SameSockets k k' := by
  unfold push Inbox.push
  rw [Stateful.run_bind, Stateful.run_get]
  dsimp only
  rw [Stateful.run_bind, Stateful.run_lift]
  by_cases hl : Inbox.warnLength < (n.inbox ++ [f]).length
  · simp only [hl, if_true]
    exact ⟨_, rfl, sameSockets_noted k _⟩
  · simp only [hl, if_false]
    exact ⟨k, rfl, Chained.refl k⟩

theorem send_effect (f : Frame) :
    ∃ r s' k', ((send f).run n).run k = ((r, { n with session := s' }), k') ∧
      s' = n.session.withHealth s'.health ∧ SameHandles k k' := by
  unfold send
  rw [Stateful.run_bind, Stateful.run_get]
  by_cases hb : n.session.isBusOff = true
  · rw [if_pos hb]
    exact ⟨_, n.session, k, rfl, rfl, Chained.refl k⟩
  rw [if_neg hb]
  by_cases hx : f.id.isExtended = true
  · rw [if_pos hx]
    exact ⟨_, n.session, k, rfl, rfl, Chained.refl k⟩
  rw [if_neg hx, onSession_run]
  obtain ⟨r, k', hr, hk, -⟩ :=
    Session.trySend_effect n.session k f.id.raw false f.len f.payload.bytes
  dsimp only
  rw [hr]
  exact ⟨r, _, k', rfl, rfl, hk.handles⟩

end Node

/-! ## The end of a reader -/

namespace Reader

def canRead : Reader → Bool
  | .ended _ => false
  | _ => true

/-- Steps that are left to a reader once it has been dismissed. -/
def effort : Reader → Nat
  | .starting => 1
  | .running _ .check => 1
  | .running _ .wait => 5
  | .running _ (.serve news) => news.length + 2
  | .ended _ => 0

/-- The reader has been told to stop, or finds no socket to start with. -/
def Dismissed (s : Session) (k : Kernel) : Reader → Prop
  | .starting => s.channel = none
  | .running c _ => c.handle ∈ s.stopped ∧ k.accepts c.handle = false
  | .ended _ => True

/-- A wait reports at most the socket and something else. -/
theorem length_news (k : Kernel) (h : Handle) : (k.news h).length ≤ 2 := by
  unfold news
  by_cases hi : (k.inbox h).isEmpty = true <;> by_cases hn : k.nextOutcome .epollWait < 0 <;>
    simp [hi, hn]

namespace Stepping

variable {s s' : Session} {k k' : Kernel} {r r' : Reader} {p : Progress}

theorem withHealth (h : Stepping s k r r' p s' k') : s' = s.withHealth s'.health := by
  cases h with
  | failed | took | finished => rfl
  | ran h =>
    obtain ⟨d?, ht, -, -⟩ := h.took
    exact ht.withHealth

theorem handles (h : Stepping s k r r' p s' k') : SameHandles k k' := by
  cases h with
  | failed hk | took _ hk => exact hk.handles
  | finished => exact Chained.refl k
  | ran h =>
    obtain ⟨d?, -, hk, -⟩ := h.took
    exact hk

/-- A reader has the socket that it had, or the one that was open when it started. -/
theorem socket (h : Stepping s k r r' p s' k') {c : Socket} (hc : r'.socket? = some c) :
    r.socket? = some c ∨ r = .starting ∧ s.channel = some c := by
  cases h with
  | failed => cases hc
  | took hc' => exact .inr ⟨rfl, hc'.trans hc⟩
  | finished => cases hc
  | ran h =>
    rcases h.ended_or_running with ⟨rfl, -⟩ | ⟨phase, rfl⟩
    · cases hc
    · exact .inl hc

theorem effort_le (h : Stepping s k r r' p s' k') (hr : r.effort ≤ 5) : r'.effort ≤ 5 := by
  cases h with
  | failed | took | finished => simp [effort]
  | @ran c phase r p s' k' h =>
    cases h with
    | passed | left | served => simp [effort]
    | waited =>
      have hn := length_news k c.handle
      unfold afterWait
      split
      · split
        · simp [effort]
        · simp only [effort]
          omega
      · split <;> simp [effort]
    | skipped | read =>
      simp only [effort, List.length_cons] at hr ⊢
      omega

/-- A dismissed reader doesn't sleep, and comes to its end. -/
theorem dismissed (h : Stepping s k r r' p s' k') (hd : r.Dismissed s k) (hr : r.canRead = true) :
    p ≠ .idle ∧ r'.Dismissed s' k' ∧ r'.effort < r.effort := by
  cases h with
  | failed => exact ⟨nofun, trivial, Nat.zero_lt_one⟩
  | took hc => simp [Dismissed, hc] at hd
  | finished => cases hr
  | @ran c phase r p s' k' h =>
    obtain ⟨hs, ha⟩ := hd
    obtain ⟨d?, ht, hk, -⟩ := h.took
    have hs' : c.handle ∈ s'.stopped := by
      rw [ht.withHealth]
      exact hs
    have ha' : k'.accepts c.handle = false := by
      rw [hk.accepts]
      exact ha
    cases h with
    | passed h => exact absurd hs h
    | left => exact ⟨nofun, trivial, Nat.zero_lt_one⟩
    | waited =>
      have hn := length_news k c.handle
      unfold afterWait
      by_cases hw : k.hasNews c.handle = true
      · simp only [hw, if_true]
        by_cases ho : 0 < k.nextOutcome .epollWait
        · simp only [ho, if_true]
          exact ⟨nofun, ⟨hs', ha'⟩, by simp [effort]⟩
        · simp only [ho, if_false]
          exact ⟨nofun, ⟨hs', ha'⟩, by simp only [effort]; omega⟩
      · simp only [hw, ha, if_false, Bool.false_eq_true]
        exact ⟨nofun, ⟨hs', ha'⟩, by simp [effort]⟩
    | served => exact ⟨nofun, ⟨hs', ha'⟩, by simp [effort]⟩
    | skipped | read => exact ⟨nofun, ⟨hs', ha'⟩, by simp [effort]⟩

end Stepping

/-- What a turn of a reader comes to, whatever thread it runs in: it reads from its own socket at
most, and hands out the data frame in what it has read. -/
structure Turned (s : Session) (k : Kernel) (r r' : Reader) (fs : List Frame) (s' : Session)
    (k' : Kernel) : Prop where
  session : s' = s.withHealth s'.health
  handles : SameHandles k k'
  socket : ∀ c, r'.socket? = some c →
    r.socket? = some c ∨ r = .starting ∧ s.channel = some c
  read : ∃ d?, fs = Datagram.frames d?.toList ∧
    r.socket?.elim (d? = none ∧ s' = s ∧ k'.inbox = k.inbox) fun c =>
      Session.Took c.handle s k d? s' k'
  effort : r.effort ≤ 5 → r'.effort ≤ 5
  ended : ∀ ran, r = .ended ran → r' = .ended ran

theorem Stepping.turned {s s' : Session} {k k' : Kernel} {r r' : Reader} {p : Progress}
    (h : Stepping s k r r' p s' k') : Turned s k r r' p.handed s' k' := by
  refine ⟨h.withHealth, h.handles, fun c => h.socket, ?_, h.effort_le, ?_⟩
  · cases h with
    | failed hk | took _ hk => exact ⟨none, rfl, rfl, rfl, hk.inbox⟩
    | finished => exact ⟨none, rfl, rfl, rfl, rfl⟩
    | ran h =>
      obtain ⟨d?, ht, -, hp⟩ := h.took
      exact ⟨d?, hp.trans (Datagram.frames_toList d?).symm, ht⟩
  · rintro ran rfl
    cases h
    rfl

/-- A reader that has ended stays so. -/
theorem Turned.canRead {s s' : Session} {k k' : Kernel} {r r' : Reader} {fs : List Frame}
    (h : Turned s k r r' fs s' k') (hcan : r'.canRead = true) : r.canRead = true := by
  cases r with
  | starting | running => rfl
  | ended ran => rwa [h.ended ran rfl] at hcan

/-- Nothing but queues and handles matters to a turn. -/
theorem Turned.of_frames {s s' : Session} {k k₁ k₂ k' : Kernel} {r r' : Reader}
    {fs : List Frame} (h : Turned s k₁ r r' fs s' k₂) (hi₁ : k₁.inbox = k.inbox)
    (hk₁ : SameHandles k k₁) (hi₂ : k'.inbox = k₂.inbox) (hk₂ : SameHandles k₂ k') :
    Turned s k r r' fs s' k' := by
  refine ⟨h.session, Chained.trans hk₁ (Chained.trans h.handles hk₂), h.socket, ?_, h.effort,
    h.ended⟩
  obtain ⟨d?, hfs, hd⟩ := h.read
  refine ⟨d?, hfs, ?_⟩
  cases hc : r.socket? with
  | none =>
    rw [hc] at hd
    obtain ⟨hd, hs, hi⟩ := hd
    exact ⟨hd, hs, hi₂.trans (hi.trans hi₁)⟩
  | some c =>
    rw [hc] at hd
    have hd : Session.Took c.handle s k₁ d? s' k' := hd.of_inbox hi₂
    cases hd with
    | nothing hi => exact .nothing (hi.trans hi₁)
    | oldest hq hi => exact .oldest (hi₁ ▸ hq) (hi₁ ▸ hi)

end Reader

/-! ## A turn of the reader -/

namespace Node

variable (n : Node) (k : Kernel)

/-- A step of the reader is one on the session, and what it hands out goes to the inbox. -/
theorem readerStep_effect {r : Reader} (hr : n.reader = some r) :
    let o := (r.step.run n.session).run { k with thread := .reader }
    ∃ k', (readerStep.run n).run k =
        ((o.1.1.2 != .idle || (o.1.1.1.isWaiting && !(k'.script .epollWait).isEmpty),
          ⟨o.1.2, n.inbox ++ o.1.1.2.handed, some o.1.1.1⟩), k') ∧
      k'.inbox = o.2.inbox ∧ SameHandles o.2 k' := by
  intro o
  unfold readerStep
  rw [Stateful.run_bind, Stateful.run_get, hr]
  dsimp only
  rw [Stateful.run_bind, Stateful.run_lift, Stateful.run_bind, onSession_run]
  rcases ho : o with ⟨⟨⟨r', p⟩, s'⟩, k₁⟩
  have ho' : (r.step.run n.session).run ((setThread .reader).run k).2 = (((r', p), s'), k₁) := ho
  rw [ho']
  dsimp only
  rw [Stateful.run_bind, Stateful.run_modify]
  match p with
  | .idle =>
    rw [show n.inbox ++ Progress.idle.handed = n.inbox from List.append_nil _]
    exact ⟨{ k₁ with thread := .owner }, rfl, rfl, rfl, rfl⟩
  | .moved none =>
    rw [show n.inbox ++ (Progress.moved none).handed = n.inbox from List.append_nil _]
    exact ⟨{ k₁ with thread := .owner }, rfl, rfl, rfl, rfl⟩
  | .moved (some f) =>
    obtain ⟨k₂, hp, hk⟩ := push_effect ⟨s', n.inbox, some r'⟩ k₁ f
    dsimp only
    rw [Stateful.run_bind, hp]
    exact ⟨{ k₂ with thread := .owner }, rfl, hk.inbox, hk.opened, hk.accepts⟩

/-- There is more to do until the reader is asleep or has ended. A
dismissed reader doesn't sleep. -/
theorem readerStep_turned {r : Reader} (hr : n.reader = some r) :
    ∃ more r' fs s' k', (readerStep.run n).run k =
      ((more, ⟨s', n.inbox ++ fs, some r'⟩), k') ∧
      r.Turned n.session k r' fs s' k' ∧ (r.canRead = false → more = false) ∧
      (r.canRead = true → r.Dismissed n.session k →
        more = true ∧ r'.Dismissed s' k' ∧ r'.effort < r.effort) := by
  obtain ⟨k', hrun, hi, hk⟩ := readerStep_effect n k hr
  obtain ⟨r', p, s', k₁, hstep, hs⟩ :=
    Reader.step_stepping r n.session { k with thread := .reader }
  rw [hstep] at hrun hi hk
  refine ⟨_, r', p.handed, s', k', hrun, hs.turned.of_frames rfl ⟨rfl, rfl⟩ hi hk, ?_, ?_⟩
  · intro hc
    cases hs with
    | finished => rfl
    | failed | took | ran => cases hc
  · intro hc hd
    have hd' : r.Dismissed n.session { k with thread := .reader } := by
      cases r <;> exact hd
    obtain ⟨hp, hd', he⟩ := hs.dismissed hd' hc
    refine ⟨by simp [hp], ?_, he⟩
    cases r' with
    | starting | ended => exact hd'
    | running c phase => exact ⟨hd'.1, by rw [hk.accepts]; exact hd'.2⟩

end Node

end CanBus
