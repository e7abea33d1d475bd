import CanBus.Proofs.Kernel.Made
import CanBus.Proofs.Link.Reconfigure
import CanBus.Proofs.Netlink.Reply

/-!
Changing a link over netlink. A request succeeds if it is acknowledged, and nothing else that is
received passes for an acknowledgement (`submit_ok_iff`); the link is taken to have changed just
then (`step_acknowledged`).
-/

namespace CanBus

open Kernel Netlink

/-- The next request is sent, and what comes back opens with an error message of this code. -/
def Kernel.Reported (k : Kernel) (code : Int32) : Prop :=
  ∃ received rest, k.Answers received ∧ Reports received code rest

namespace Netlink

variable {k : Kernel} {code : Int32}

theorem submit_reported (h : k.Reported code) (r : Request) :
    ((submit r).run.run k).1 = if code = 0 then .ok () else .error code.toInt := by
  obtain ⟨received, rest, hanswers, hreports⟩ := h
  obtain ⟨k', hask⟩ := ask_answered hanswers (.report hreports) r
  rw [submit, Fallible.run_bind, hask]
  by_cases h0 : code = 0 <;> simp only [Body.ofCode, h0, if_true, if_false] <;> rfl

/-- All other messages, and whatever else may go wrong, count as a failure on this side. -/
theorem submit_unreported (h : ∀ code, ¬ k.Reported code) (r : Request) :
    ((submit r).run.run k).1 = .error localFailure := by
  rw [submit, Fallible.run_bind]
  obtain ⟨received, b, k', hanswers, hsays, hask⟩ | ⟨k', hask⟩ := ask_cases r k
  · rw [hask]
    cases hsays with
    | report hreports => exact absurd ⟨received, _, hanswers, hreports⟩ (h _)
    | done | payload => rfl
  · rw [hask]

theorem submit_ok_iff (r : Request) : ((submit r).run.run k).1 = .ok () ↔ k.Reported 0 := by
  constructor
  · intro hok
    by_contra h0
    by_cases h : ∃ code, k.Reported code
    · obtain ⟨code, hcode⟩ := h
      have hne : code ≠ 0 := fun h => h0 (h ▸ hcode)
      rw [submit_reported hcode, if_neg hne] at hok
      cases hok
    · rw [submit_unreported (not_exists.mp h)] at hok
      cases hok
  · exact fun h => submit_reported h r

end Netlink

namespace Controller

variable {k : Kernel}

theorem netlinkApply_result (l : Link) (c : LinkChange) :
    ((netlink.apply l c).run.run k).1 =
      ((submit (.ofChange l.index c)).run.run k).1.mapError (.rejected (requestOf c)) := by
  show ((netlinkApply l c).run.run k).1 = _
  rw [netlinkApply, Fallible.run_bind, Fallible.run_lift]
  dsimp only
  cases ((submit (.ofChange l.index c)).run.run k).1 <;> rfl

end Controller

namespace Link

theorem attempt_result (l : Link) (m : Operation (Link × Bool)) (k : Kernel) :
    ((attempt l m).run k).1.1 = match (m.run.run k).1 with
      | .ok (l', _) => l'
      | .error _ => l := by
  rw [attempt, System.run_bind]
  cases (m.run.run k).1 <;> rfl

section Requested

variable {l : Link} {c : LinkChange} {k : Kernel}

theorem step_idle (hc : c.fits l = true) (h : c.isIdle l = true) :
    (step .netlink l c).run.run k = (.ok (l, false), k) := by
  rw [step_of_fits .netlink hc, change, if_pos h]
  rfl

theorem step_result (hc : c.fits l = true) (h : c.isIdle l = false) :
    ((step .netlink l c).run.run k).1 = (((submit (.ofChange l.index c)).run.run k).1.mapError
      (.rejected (Controller.requestOf c))).map fun _ => (c.apply l, true) := by
  obtain ⟨k', hrun, -⟩ := change_run .netlink h k
  rw [step_of_fits .netlink hc, hrun, Controller.netlinkApply_result]

theorem step_reported (hc : c.fits l = true) (h : c.isIdle l = false) {code : Int32}
    (hcode : k.Reported code) :
    ((step .netlink l c).run.run k).1 = if code = 0 then .ok (c.apply l, true)
      else .error (.rejected (Controller.requestOf c) code.toInt) := by
  rw [step_result hc h, submit_reported hcode]
  split <;> rfl

theorem step_unreported (hc : c.fits l = true) (h : c.isIdle l = false)
    (hcode : ∀ code, ¬ k.Reported code) :
    ((step .netlink l c).run.run k).1 =
      .error (.rejected (Controller.requestOf c) localFailure) := by
  rw [step_result hc h, submit_unreported hcode]
  rfl

theorem step_fails (hc : c.fits l = true) (h : c.isIdle l = false) (h0 : ¬ k.Reported 0) :
    ∃ f, ((step .netlink l c).run.run k).1 = .error f := by
  rw [step_result hc h]
  cases hs : ((submit (.ofChange l.index c)).run.run k).1 with
  | ok => exact absurd ((submit_ok_iff _).mp hs) h0
  | error code => exact ⟨_, rfl⟩

/-- The calls of the one request, and all of them if it succeeds. -/
theorem step_calls (hc : c.fits l = true) (h : c.isIdle l = false) :
    ∃ made, ((step .netlink l c).run.run k).2.calls = k.calls ++ made ∧
      made <+: (Request.ofChange l.index c).exchange ∧
      ∀ a, ((step .netlink l c).run.run k).1 = .ok a →
        made = (Request.ofChange l.index c).exchange := by
  obtain ⟨made, hmade, hcalls, hall⟩ := Controller.follows_netlinkApply l c k
  obtain ⟨k', hrun, hlog⟩ := change_run .netlink h k
  rw [step_of_fits .netlink hc, hrun]
  refine ⟨made, ?_, hmade, fun a ha => ?_⟩
  · rw [← hcalls]
    rcases hlog with rfl | ⟨level, text, rfl⟩
    · rfl
    · exact calls_logged _ _ _ _
  · cases hr : ((Controller.netlink.apply l c).run.run k).1 with
    | ok => exact hall () hr
    | error f =>
      rw [hr] at ha
      cases ha

end Requested

/-- A change takes one message at most, and succeeds exactly if what comes back opens with an
acknowledgement; otherwise the link stays what it was taken for. -/
theorem step_acknowledged (l : Link) (c : LinkChange) (k : Kernel) (hc : c.fits l = true) :
    let m := (Request.ofChange l.index c).bytes
    let calls : List Kernel.Call := [.netlinkSocket, .netlinkBind, .netlinkSend m, .netlinkReceive]
    let o := (step .netlink l c).run.run k
    let after := ((attempt l (step .netlink l c)).run k).1.1
    (c.isIdle l = true → o = (.ok (l, false), k)) ∧
      (c.isIdle l = false →
        (∃ made, o.2.calls = k.calls ++ made ∧ made <+: calls ∧
          ∀ a, o.1 = .ok a → made = calls) ∧
        ((∃ l', o.1 = .ok (l', true)) ↔ k.Reported 0) ∧
        (k.Reported 0 → o.1 = .ok (c.apply l, true) ∧ after = c.apply l) ∧
        (¬ k.Reported 0 → after = l) ∧
        (∀ code, code ≠ 0 → k.Reported code →
          o.1 = .error (.rejected (Controller.requestOf c) code.toInt)) ∧
        ((∀ code, ¬ k.Reported code) →
          o.1 = .error (.rejected (Controller.requestOf c) (-5)))) := by
  intro m calls o after
  refine ⟨step_idle hc, fun h =>
    ⟨step_calls hc h, ⟨?_, ?_⟩, fun h0 => ?_, fun h0 => ?_, ?_, ?_⟩⟩
  · rintro ⟨l', hl'⟩
    by_contra h0
    obtain ⟨f, hf⟩ := step_fails hc h h0
    cases hl'.symm.trans hf
  · exact fun h0 => ⟨_, step_reported hc h h0⟩
  · have hok : o.1 = .ok (c.apply l, true) := step_reported hc h h0
    refine ⟨hok, (attempt_result l _ k).trans ?_⟩
    rw [show ((step .netlink l c).run.run k).1 = _ from hok]
  · obtain ⟨f, hf⟩ := step_fails hc h h0
    refine (attempt_result l _ k).trans ?_
    rw [hf]
  · intro code hne hcode
    exact (step_reported hc h hcode).trans (if_neg hne)
  · exact step_unreported hc h

/-- One request for a bitrate, acknowledged or refused as busy. -/
theorem step_acknowledged_of_bitrate :
    let l : Link := ⟨"can0", 3, false, some "can", some 500000, none⟩
    let reply (code : Int32) := message 2 (List.replicate 10 0)
      (LittleEndian.word32 code.toUInt32 ++ List.replicate 16 0 ++ [])
    let k (code : Int32) : Kernel := { replies := [.bytes (reply code)] }
    let o (code : Int32) := (step .netlink l (.bitrate 250000)).run.run (k code)
    (o 0).1 = .ok ({ l with bitrate := some 250000 }, true) ∧
      (o (-16)).1 = .error (.rejected .bitrate (-16)) := by
  intro l reply k o
  have hfits : (LinkChange.bitrate 250000).fits l = true := by decide
  have hidle : (LinkChange.bitrate 250000).isIdle l = false := by decide
  have hreported (code : Int32) : (k code).Reported code := by
    have hreply : (reply code).take 32768 = reply code ++ [] := by
      rw [List.append_nil]
      apply List.take_of_length_le
      simp [reply, message]
    have hopens : Opens (reply code) 2 _ := opens_message hreply (by decide) List.length_replicate
    exact ⟨reply code, [], ⟨Int.le_refl 0, Int.le_refl 0, Int.le_refl 0, rfl⟩,
      ⟨List.replicate 16 0, List.length_replicate, hopens⟩, .inr rfl⟩
  obtain ⟨-, hchange⟩ := step_acknowledged l (.bitrate 250000) (k 0) hfits
  obtain ⟨-, -, hok, -⟩ := hchange hidle
  obtain ⟨-, hchange⟩ := step_acknowledged l (.bitrate 250000) (k (-16)) hfits
  obtain ⟨-, -, -, -, hrefused, -⟩ := hchange hidle
  exact ⟨(hok (hreported 0)).1, hrefused (-16) (by decide) (hreported (-16))⟩

end Link

end CanBus
