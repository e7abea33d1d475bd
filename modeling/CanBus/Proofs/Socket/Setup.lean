import CanBus.Proofs.Socket

/-!
The steps of setting up a socket. They are taken in order up to the first that fails, each with its
one call, and the first failure is the one reported; a socket that could not be set up does not stay
(`openOn_steps`).
-/

namespace CanBus

open Kernel

namespace SetupStep

def all : List SetupStep := [.lookup, .allocate, .bind, .errorFilter, .sendTimeout]

theorem mem_all (step : SetupStep) : step ∈ all := by cases step <;> decide

/-- The calls whose outcomes decide over a step. -/
def service : SetupStep → Kernel.Service
  | .lookup => .nameToIndex
  | .allocate => .socket
  | .bind => .bind
  | .errorFilter => .errorFilter
  | .sendTimeout => .sendTimeout

/-- The call of a step. A name with a NUL in it is refused without one. -/
def call? (name : String) (index : UInt32) (s : Settings) : SetupStep → Option Kernel.Call
  | .lookup => if name.toList.contains '\x00' then none else some (.nameToIndex name)
  | .allocate => some .socket
  | .bind => some (.bind ⟨index⟩)
  | .errorFilter => some (.errorFilter s.errorMask)
  | .sendTimeout => some (.sendTimeout s.sendTimeout)

end SetupStep

namespace Kernel

/-- The index that the kernel has for a name; 0 is no index. -/
def indexFor (k : Kernel) (name : String) : UInt32 := (k.interfaces.lookup name).getD 0

/-- Why the look-up of an interface fails, if it does. -/
def lookupError? (k : Kernel) (name : String) : Option SystemError :=
  if name.toList.contains '\x00' then some (.code Errno.invalidArgument)
  else if 0 < k.nextOutcome .nameToIndex then
    some (.code (Errno.known (k.nextOutcome .nameToIndex)))
  else match k.interfaces.lookup name with
    | none => some (.code Errno.noDevice)
    | some index => if index = 0 then some (.code 0) else none

/-- Why a step of setting up a socket fails, if it does. -/
def setupError? (k : Kernel) (name : String) : SetupStep → Option SystemError
  | .lookup => k.lookupError? name
  | step =>
    if 0 < k.nextOutcome step.service then some (.code (k.nextOutcome step.service)) else none

theorem indexOf_run (k : Kernel) (name : String) :
    (indexOf name).run.run k =
      ((k.lookupError? name).elim (.ok (k.indexFor name)) .error,
        if name.toList.contains '\x00' then k else k.called (.nameToIndex name) .nameToIndex) := by
  have hc := knownCall_run k (rfl : (Call.nameToIndex name).service? = some .nameToIndex)
  unfold indexOf lookupError? indexFor
  cases hz : name.toList.contains '\x00' with
  | true => rfl
  | false =>
    simp only [Bool.false_eq_true, if_false, Fallible.run_bind, hc]
    by_cases hn : 0 < k.nextOutcome .nameToIndex
    · simp only [hn, if_true, Option.elim]
    · have hi : (k.called (.nameToIndex name) .nameToIndex).interfaces = k.interfaces := rfl
      simp only [hn, if_false, Fallible.run_get, hi]
      cases k.interfaces.lookup name with
      | none => rfl
      | some index => by_cases h0 : index = 0 <;> simp [h0] <;> rfl

theorem indexOf_found {k : Kernel} {name : String} (h : k.lookupError? name = none) :
    (indexOf name).run.run k =
      (.ok (k.indexFor name), k.called (.nameToIndex name) .nameToIndex) := by
  have hnul : name.toList.contains '\x00' = false := by
    unfold lookupError? at h
    split at h
    · cases h
    · rename_i hnul
      exact Bool.eq_false_iff.mpr hnul
  rw [indexOf_run, h, hnul]
  rfl

end Kernel

/-- Some steps were taken, each with its call; no other outcome was used up. -/
structure Stepped (name : String) (s : Settings) (k : Kernel) (steps : List SetupStep)
    (k' : Kernel) : Prop where
  calls : k'.calls = k.calls ++ steps.filterMap (SetupStep.call? name (k.indexFor name) s)
  script : ∀ v, v ∉ steps.map SetupStep.service → k'.script v = k.script v
  interfaces : k'.interfaces = k.interfaces

namespace Stepped

variable {name : String} {s : Settings} {k k₁ k' : Kernel} {steps more : List SetupStep}

theorem append (h₁ : Stepped name s k steps k₁) (h₂ : Stepped name s k₁ more k') :
    Stepped name s k (steps ++ more) k' where
  calls := by
    have hi : k₁.indexFor name = k.indexFor name := by rw [indexFor, indexFor, h₁.interfaces]
    rw [h₂.calls, h₁.calls, hi, List.filterMap_append, List.append_assoc]
  script v hv := by
    rw [List.map_append, List.mem_append, not_or] at hv
    rw [h₂.script v hv.2, h₁.script v hv.1]
  interfaces := h₂.interfaces.trans h₁.interfaces

/-- The steps before have no bearing on whether a step fails. -/
theorem setupError? (h : Stepped name s k steps k') {step : SetupStep} (hs : step ∉ steps) :
    k'.setupError? name step = k.setupError? name step := by
  have hv : step.service ∉ steps.map SetupStep.service := by
    intro hm
    obtain ⟨x, hx, he⟩ := List.mem_map.mp hm
    have : x = step := by revert he; cases x <;> cases step <;> simp [SetupStep.service]
    exact hs (this ▸ hx)
  have ho : k'.nextOutcome step.service = k.nextOutcome step.service := by
    rw [nextOutcome, nextOutcome, h.script _ hv]
  cases step with
  | lookup =>
    have ho : k'.nextOutcome .nameToIndex = k.nextOutcome .nameToIndex := ho
    simp only [Kernel.setupError?, lookupError?, h.interfaces, ho]
  | _ => simp only [Kernel.setupError?, ho]

end Stepped

namespace Socket

/-! ## Step by step -/

/-- What a step comes to, by what is scripted for it. -/
def stepResult {α : Type} (k : Kernel) (name : String) (step : SetupStep) (a : α) :
    Except Failure α :=
  (k.setupError? name step).elim (.ok a) fun e => .error (.socket step e)

theorem lookup_stepped (k : Kernel) (name : String) (s : Settings) :
    ∃ k', (setup .lookup (indexOf name)).run.run k =
        (stepResult k name .lookup (k.indexFor name), k') ∧
      Stepped name s k [.lookup] k' ∧ k'.opened = k.opened ∧ k'.accepts = k.accepts := by
  rw [setup_run, indexOf_run, stepResult, setupError?]
  refine ⟨if name.toList.contains '\x00' then k else k.called (.nameToIndex name) .nameToIndex,
    ?_, ?_, ?_⟩
  · cases k.lookupError? name <;> rfl
  · cases hz : name.toList.contains '\x00' with
    | true =>
      have hc : SetupStep.call? name (k.indexFor name) s .lookup = none := by
        rw [SetupStep.call?, hz]
        rfl
      refine ⟨?_, fun _ _ => rfl, rfl⟩
      simp [hc]
    | false =>
      have hc : SetupStep.call? name (k.indexFor name) s .lookup = some (.nameToIndex name) := by
        rw [SetupStep.call?, hz]
        rfl
      refine ⟨?_, fun v hv => ?_, rfl⟩
      · simp [hc]
      · exact script_called_of_ne k _ (by simpa [SetupStep.service] using hv)
  · cases name.toList.contains '\x00' <;> exact ⟨rfl, rfl⟩

theorem allocate_stepped (k : Kernel) (name : String) (s : Settings) :
    ∃ k', (setup .allocate openSocket).run.run k = (stepResult k name .allocate k.opened, k') ∧
      Stepped name s k [.allocate] k' ∧
      k'.accepts =
        if (k.setupError? name .allocate).isNone then override k.accepts k.opened true
        else k.accepts := by
  have hcalls : (k.called .socket .socket).calls = k.calls ++ [.socket] := calls_called _ _ _
  have hv : ∀ v, v ∉ [SetupStep.allocate].map SetupStep.service →
      (k.called .socket .socket).script v = k.script v := by
    intro v hv
    exact script_called_of_ne k _ (by simpa [SetupStep.service] using hv)
  rw [setup_run, openSocket_run, stepResult]
  simp only [setupError?, SetupStep.service]
  by_cases hn : 0 < k.nextOutcome .socket
  · simp only [hn, if_true]
    exact ⟨_, rfl, ⟨hcalls, hv, rfl⟩, rfl⟩
  · simp only [hn, if_false]
    exact ⟨_, rfl, ⟨hcalls, hv, rfl⟩, rfl⟩

/-- A step on a socket that is one call and what comes of its success. -/
theorem setupOn_stepped (after : Kernel → Kernel) {k : Kernel} {h : Handle} {name : String}
    {s : Settings} {step : SetupStep} {c : Kernel.Call} {m : Syscall Unit} (hs : step ≠ .lookup)
    (hc : step.call? name (k.indexFor name) s = some c)
    (hm : m.run.run k =
      if 0 < k.nextOutcome step.service then
        (.error (.code (k.nextOutcome step.service)), k.called c step.service)
      else (.ok (), after (k.called c step.service)))
    (ha : ∀ k, (after k).events = k.events ∧ (after k).script = k.script ∧
      (after k).interfaces = k.interfaces ∧ (after k).accepts = k.accepts) :
    ∃ k', (setupOn h step m).run.run k = (stepResult k name step (), k') ∧
      Stepped name s k [step] k' ∧
      k'.accepts =
        if (k.setupError? name step).isNone then k.accepts else override k.accepts h false := by
  let k₁ := k.called c step.service
  obtain ⟨he, hx, hi, hacc⟩ := ha k₁
  have hcalls : k₁.calls = k.calls ++ [c] := calls_called _ _ _
  have hv : ∀ v, v ∉ [step].map SetupStep.service → k₁.script v = k.script v := by
    intro v hv
    exact script_called_of_ne k _ (by simpa using hv)
  have hrow : [step].filterMap (SetupStep.call? name (k.indexFor name) s) = [c] := by simp [hc]
  have herr : k.setupError? name step =
      if 0 < k.nextOutcome step.service then some (.code (k.nextOutcome step.service))
      else none := by
    cases step with
    | lookup => exact absurd rfl hs
    | _ => rfl
  rw [setupOn_run, hm, stepResult, herr]
  by_cases hn : 0 < k.nextOutcome step.service
  · simp only [hn, if_true]
    exact ⟨k₁.refusing h, rfl, ⟨by rw [hrow]; exact hcalls, hv, rfl⟩, rfl⟩
  · simp only [hn, if_false]
    refine ⟨after k₁, rfl, ⟨?_, fun v h => by rw [hx]; exact hv v h, hi⟩, hacc⟩
    rw [hrow, ← hcalls, Kernel.calls, Kernel.calls, he]

theorem bind_stepped (k : Kernel) (h : Handle) (name : String) (s : Settings) :
    ∃ k', (setupOn h .bind (Kernel.bind h ⟨k.indexFor name⟩)).run.run k =
        (stepResult k name .bind (), k') ∧ Stepped name s k [.bind] k' ∧
      k'.accepts =
        if (k.setupError? name .bind).isNone then k.accepts else override k.accepts h false := by
  let after (k : Kernel) : Kernel :=
    { k with newest := some h, inbox := override k.inbox h (k.inbox h ++ k.waiting), waiting := [] }
  refine setupOn_stepped after nofun rfl ?_ fun k => ⟨rfl, rfl, rfl, rfl⟩
  have hc := call_run k (rfl : (Call.bind ⟨k.indexFor name⟩).service? = some .bind)
  simp only [Kernel.bind, Fallible.run_bind, hc, SetupStep.service]
  by_cases hn : 0 < k.nextOutcome .bind
  · simp only [hn, if_true]
  · simp only [hn, if_false]
    rfl

theorem setting_stepped (k : Kernel) (h : Handle) (name : String) (s : Settings) {step : SetupStep}
    {c : Kernel.Call} (hs : step ≠ .lookup) (hv : c.service? = some step.service)
    (hc : step.call? name (k.indexFor name) s = some c) :
    ∃ k', (setupOn h step (do let _ ← Kernel.call c)).run.run k =
      (stepResult k name step (), k') ∧
      Stepped name s k [step] k' ∧
      k'.accepts =
        if (k.setupError? name step).isNone then k.accepts else override k.accepts h false := by
  refine setupOn_stepped id hs hc ?_ fun k => ⟨rfl, rfl, rfl, rfl⟩
  simp only [Fallible.run_bind, call_run k hv]
  by_cases hn : 0 < k.nextOutcome step.service
  · simp only [hn, if_true]
  · simp only [hn, if_false]
    rfl

/-! ## All steps -/

/-- The opening of a socket came to nothing at the first step that fails. No socket is left over. -/
structure GaveUp (name : String) (s : Settings) (k : Kernel) (f : Failure) (k' : Kernel) :
    Prop where
  first : ∃ before step after e, SetupStep.all = before ++ step :: after ∧
    (∀ b ∈ before, k.setupError? name b = none) ∧ k.setupError? name step = some e ∧
    f = .socket step e ∧ Stepped name s k (before ++ [step]) k'
  released : ∀ h, k'.accepts h = true → k.accepts h = true

/-- The handle that was given out at first is taken back. -/
theorem accepts_of_released {f : Handle → Bool} {n : Handle} :
    ∀ h, override (override f n true) n false h = true → f h = true := by
  intro h
  by_cases hn : h = n <;> simp [override, hn]

/-- On the way through the steps: those so far have succeeded, and there is a new socket. -/
structure Underway (name : String) (s : Settings) (k : Kernel) (done : List SetupStep)
    (k₁ : Kernel) : Prop where
  fine : ∀ b ∈ done, k.setupError? name b = none
  stepped : Stepped name s k done k₁
  accepts : k₁.accepts = override k.accepts k.opened true

/-- One step further, or the end of it. -/
theorem Underway.next {α : Type} {name : String} {s : Settings} {k k₁ : Kernel}
    {done : List SetupStep} {step : SetupStep} {m : Operation Unit} {rest : Unit → Operation α}
    (h : Underway name s k done k₁) (after : List SetupStep)
    (hall : SetupStep.all = done ++ step :: after) (hnew : step ∉ done)
    (hm : ∃ k', m.run.run k₁ = (stepResult k₁ name step (), k') ∧
      Stepped name s k₁ [step] k' ∧
      k'.accepts =
        if (k₁.setupError? name step).isNone then k₁.accepts
        else override k₁.accepts k.opened false) :
    (∃ f k', (m >>= rest).run.run k₁ = (.error f, k') ∧ GaveUp name s k f k') ∨
    ∃ k', (m >>= rest).run.run k₁ = (rest ()).run.run k' ∧
      Underway name s k (done ++ [step]) k' := by
  obtain ⟨k', hr, hs, ha⟩ := hm
  rw [stepResult, h.stepped.setupError? hnew] at hr
  rw [h.stepped.setupError? hnew, h.accepts] at ha
  rw [Fallible.run_bind, hr]
  cases he : k.setupError? name step with
  | some e =>
    rw [he] at ha
    refine .inl ⟨_, k', rfl,
      ⟨done, step, after, e, hall, h.fine, he, rfl, h.stepped.append hs⟩, ?_⟩
    rw [ha]
    exact accepts_of_released
  | none =>
    rw [he] at ha
    refine .inr ⟨k', rfl, ?_, h.stepped.append hs, ha⟩
    intro b hb
    rcases List.mem_append.mp hb with hb | hb
    · exact h.fine b hb
    · rw [List.mem_singleton.mp hb]
      exact he

theorem openAt_steps {name : String} {s : Settings} {k k₁ : Kernel}
    (hk : Stepped name s k [.lookup] k₁) (he : k.setupError? name .lookup = none)
    (ho : k₁.opened = k.opened) (ha : k₁.accepts = k.accepts) :
    (∃ k', (openAt (k.indexFor name) s).run.run k₁ =
      (.ok ⟨k.opened, k.indexFor name⟩, k') ∧
      (∀ step, k.setupError? name step = none) ∧ Stepped name s k SetupStep.all k') ∨
    ∃ f k', (openAt (k.indexFor name) s).run.run k₁ = (.error f, k') ∧
      GaveUp name s k f k' := by
  have hindex {steps : List SetupStep} {k' : Kernel} (h : Stepped name s k steps k') :
      k'.indexFor name = k.indexFor name := by rw [indexFor, indexFor, h.interfaces]
  obtain ⟨k₂, h₂, s₂, a₂⟩ := allocate_stepped k₁ name s
  rw [stepResult, hk.setupError? (by decide)] at h₂
  rw [hk.setupError? (by decide), ho, ha] at a₂
  rw [openAt, Fallible.run_bind, h₂]
  cases e₂ : k.setupError? name .allocate with
  | some e =>
    rw [e₂] at a₂
    refine .inr ⟨_, k₂, rfl, ⟨[.lookup], _, _, e, rfl, ?_, e₂, rfl, hk.append s₂⟩,
      fun h hh => ?_⟩
    · intro b hb
      rw [List.mem_singleton.mp hb]
      exact he
    · rw [a₂] at hh
      exact hh
  | none =>
    rw [e₂] at a₂
    rw [ho]
    have u₂ : Underway name s k [.lookup, .allocate] k₂ := by
      refine ⟨?_, hk.append s₂, a₂⟩
      intro b hb
      rcases List.mem_cons.mp hb with rfl | hb
      · exact he
      · rw [List.mem_singleton.mp hb]
        exact e₂
    have hbind := bind_stepped k₂ k.opened name s
    rw [hindex u₂.stepped] at hbind
    dsimp only [Option.elim]
    obtain h | ⟨k₃, h₃, u₃⟩ :=
      u₂.next [.errorFilter, .sendTimeout] rfl (by decide) hbind
    · exact .inr h
    rw [h₃]
    have hfilter :=
      setting_stepped k₃ k.opened name s (by decide : SetupStep.errorFilter ≠ .lookup) rfl rfl
    obtain h | ⟨k₄, h₄, u₄⟩ := u₃.next [.sendTimeout] rfl (by decide) hfilter
    · exact .inr h
    have htimeout :=
      setting_stepped k₄ k.opened name s (by decide : SetupStep.sendTimeout ≠ .lookup) rfl rfl
    obtain h | ⟨k₅, h₅, u₅⟩ := u₄.next [] rfl (by decide) htimeout
    · exact .inr (h₄ ▸ h)
    refine .inl ⟨k₅, (h₄.trans h₅).trans rfl, fun step => ?_, u₅.stepped⟩
    exact u₅.fine step (SetupStep.mem_all step)

theorem openOn_steps (k : Kernel) (name : String) (s : Settings) :
    (∃ k', (openOn name s).run.run k = (.ok ⟨k.opened, k.indexFor name⟩, k') ∧
      (∀ step, k.setupError? name step = none) ∧ Stepped name s k SetupStep.all k') ∨
    ∃ f k', (openOn name s).run.run k = (.error f, k') ∧ GaveUp name s k f k' := by
  obtain ⟨k₁, h₁, s₁, o₁, a₁⟩ := lookup_stepped k name s
  rw [openOn, Fallible.run_bind, h₁, stepResult]
  cases e₁ : k.setupError? name .lookup with
  | some e =>
    refine .inr ⟨_, k₁, rfl,
      ⟨[], _, _, e, rfl, fun b hb => absurd hb List.not_mem_nil, e₁, rfl, s₁⟩, ?_⟩
    intro h hh
    rw [← a₁]
    exact hh
  | none => exact openAt_steps s₁ e₁ o₁ a₁

end Socket

end CanBus
