import CanBus.Proofs.Session.Effect
import CanBus.Proofs.Socket.Setup

/-!
Opening a session is all or nothing (`tryOpen_all_or_nothing`). Whatever becomes of the link, the
socket decides: either all of its steps succeed, or the first that fails is reported and the
session is left as it was.
-/

namespace CanBus

open Kernel

theorem setupError?_noted (k : Kernel) (e : Event) (name : String) (step : SetupStep) :
    (k.noted e).setupError? name step = k.setupError? name step := by
  cases step <;> rfl

theorem Stepped.of_logged {name : String} {s : Settings} {k k' : Kernel} {steps : List SetupStep}
    {t : Thread} {level : LogLevel} {text : String}
    (h : Stepped name s (k.noted (.log t level text)) steps k') : Stepped name s k steps k' :=
  ⟨by rw [← calls_logged k t level text]; exact h.calls, h.script, h.interfaces⟩

namespace Session

theorem linked_indexFor (s : Session) (k : Kernel) (name : String) :
    (s.linked k).indexFor name = k.indexFor name := by
  rw [indexFor, indexFor, (s.sameSockets_linked k).interfaces]

/-- What an attempt at a socket comes to. -/
inductive Attached (s : Session) (k : Kernel) : (Except Failure Unit × Session) × Kernel → Prop
  | opened {k' : Kernel} (hf : ∀ step, k.setupError? s.name step = none)
      (hs : Stepped s.name s.settings k SetupStep.all k') :
      Attached s k ((.ok (), { s with
        channel := some ⟨k.opened, k.indexFor s.name⟩
        health := { s.health with window := .startingAt k'.clock } }), k')
  | gaveUp {f : Failure} {k' : Kernel} (hg : Socket.GaveUp s.name s.settings k f k') :
      Attached s k ((.error f, s), k')

theorem attach_attached (s : Session) (k : Kernel) : Attached s k (((attach s).run s).run k) := by
  unfold attach
  rw [Stateful.run_bind, Stateful.run_lift]
  obtain ⟨k', hr, hf, hs⟩ | ⟨f, k', hr, hg⟩ := Socket.openOn_steps k s.name s.settings
  · rw [hr]
    have hs' (t : Event) (ht : (k'.noted t).calls = k'.calls) :
        Stepped s.name s.settings k SetupStep.all (k'.noted t) :=
      ⟨ht.trans hs.calls, hs.script, hs.interfaces⟩
    exact .opened hf (hs' _ (calls_logged _ _ _ _))
  · rw [hr]
    exact .gaveUp hg

/-- A warning before it makes no difference. -/
theorem Attached.of_logged {s : Session} {k : Kernel} {t : Thread} {level : LogLevel}
    {text : String} {o : (Except Failure Unit × Session) × Kernel}
    (h : Attached s (k.noted (.log t level text)) o) : Attached s k o := by
  have he (step : SetupStep) := setupError?_noted k (.log t level text) s.name step
  cases h with
  | opened hf hs => exact .opened (fun step => (he step).symm.trans (hf step)) hs.of_logged
  | gaveUp hg =>
    obtain ⟨before, step, after, e, hall, hb, hs, rfl, hk⟩ := hg.first
    refine .gaveUp
      ⟨⟨before, step, after, e, hall, ?_, (he step).symm.trans hs, rfl, hk.of_logged⟩,
      hg.released⟩
    intro b hm
    exact (he b).symm.trans (hb b hm)

theorem tryOpen_attached {s : Session} (hc : s.channel = none) (k : Kernel) :
    Attached s (s.linked k) ((tryOpen.run s).run k) := by
  obtain h | ⟨text, h⟩ := tryOpen_linked hc k
  · rw [h]
    exact attach_attached s _
  · rw [h]
    exact (attach_attached s _).of_logged

/-- A session opens exactly if every step of setting up the socket succeeds. Otherwise the first
that fails is reported, and neither the session nor the kernel holds a socket of it. -/
theorem tryOpen_all_or_nothing (s : Session) (k : Kernel) :
    let linked := s.linked k
    let o := (tryOpen.run s).run k
    (s.isOpen = true → o = ((.ok (), s), k)) ∧
    (s.isOpen = false →
      (o.1.1 = .ok () ↔ ∀ step, linked.setupError? s.name step = none) ∧
      (o.1.1 = .ok () →
        o.1.2 = { s with
          channel := some ⟨k.opened, k.indexFor s.name⟩
          health := { s.health with window := .startingAt o.2.clock } } ∧
        o.2.calls = linked.calls ++
          SetupStep.all.filterMap (SetupStep.call? s.name (k.indexFor s.name) s.settings)) ∧
      ∀ f, o.1.1 = .error f →
        (∃ before step after e, SetupStep.all = before ++ step :: after ∧
          (∀ b ∈ before, linked.setupError? s.name b = none) ∧
          linked.setupError? s.name step = some e ∧ f = .socket step e ∧
          o.2.calls = linked.calls ++ (before ++ [step]).filterMap
            (SetupStep.call? s.name (k.indexFor s.name) s.settings)) ∧
        o.1.2 = s ∧ ∀ h, o.2.accepts h = true → k.accepts h = true) := by
  intro linked o
  have hsame : SameSockets k linked := s.sameSockets_linked k
  have hindex : linked.indexFor s.name = k.indexFor s.name := s.linked_indexFor k s.name
  constructor
  · intro ho
    obtain ⟨c, hc⟩ := Option.isSome_iff_exists.mp ho
    exact tryOpen_open hc k
  intro ho
  have hc : s.channel = none := by simpa [isOpen] using ho
  have ha : Attached s linked o := tryOpen_attached hc k
  rw [← hindex, ← hsame.opened, ← hsame.accepts]
  generalize o = o at ha
  cases ha with
  | opened hf hs =>
    refine ⟨⟨fun _ => hf, fun _ => rfl⟩, fun _ => ⟨rfl, hs.calls⟩, ?_⟩
    rintro f ⟨⟩
  | @gaveUp f k' hg =>
    obtain ⟨before, step, after, e, hall, hb, hs, rfl, hk⟩ := hg.first
    have hnot : ¬∀ step, linked.setupError? s.name step = none := by
      intro h
      rw [h step] at hs
      cases hs
    refine ⟨⟨?_, fun h => absurd h hnot⟩, ?_, ?_⟩
    · rintro ⟨⟩
    · rintro ⟨⟩
    · rintro f ⟨⟩
      exact ⟨⟨before, step, after, e, hall, hb, hs, rfl, hk.calls⟩, rfl, hg.released⟩

end Session

end CanBus
