import CanBus.Proofs.Netlink.Reply

/-!
Looking up a link over netlink, whatever comes back (`resolve_by_reply`). The state of the link is
the one that the reply describes, except that a message which ends a series, and so has no payload,
passes for a link that is down and of which nothing else is known (`resolve_invents_link`).
-/

namespace CanBus

open Kernel Netlink Attribute

namespace Kernel

/-- The answer is a message with the flags and attributes of a link. Its type
may be any but 2 and 3. -/
def Described (k : Kernel) (flags : UInt32) (as : List Attribute) : Prop :=
  ∃ received kind body, k.Answers received ∧ Opens received kind body ∧
    kind ≠ 2 ∧ kind ≠ 3 ∧ LinkBody flags as body

/-- The answer is a message of type 3, which ends a series. -/
def Finished (k : Kernel) : Prop :=
  ∃ received body, k.Answers received ∧ Opens received 3 body ∧ body.length % 4 = 0

/-- The answer is an error message that quotes a request about a link. -/
def Refused (k : Kernel) (code : Int32) : Prop :=
  code ≠ 0 ∧ ∃ received rest, k.Answers received ∧ Reports received code rest ∧
    ∃ flags as, LinkBody flags as rest

end Kernel

namespace Netlink

variable {k : Kernel} {index : UInt32}

theorem details_described {flags : UInt32} {as : List Attribute} (h : k.Described flags as) :
    ((details index).run.run k).1 =
      (Details.ofInfo? ⟨flags, as⟩).elim (.error localFailure) .ok := by
  obtain ⟨received, kind, body, hanswers, hopens, h2, h3, hbody⟩ := h
  have hb : Body.ofReceived? received = some (.payload body) :=
    Body.ofReceived?_iff_says.mpr (.payload hopens h2 h3 hbody.length_mod)
  exact details_read hanswers hb (InterfaceInfo.parse?_eq_some_iff.mpr hbody)

theorem details_finished (h : k.Finished) : ((details index).run.run k).1 = .ok {} := by
  obtain ⟨received, body, hanswers, hopens, hmod⟩ := h
  obtain ⟨k', hask⟩ := ask_answered hanswers (.done hopens hmod) (.query index)
  rw [details, Fallible.run_bind, hask]
  rfl

theorem details_refused {code : Int32} (h : k.Refused code) :
    ((details index).run.run k).1 = .error code.toInt := by
  obtain ⟨hne, received, rest, hanswers, hreports, flags, as, hrest⟩ := h
  obtain ⟨k', hask⟩ := ask_answered hanswers (.report hreports) (.query index)
  rw [details, Fallible.run_bind, hask, Body.ofCode, if_neg hne]
  dsimp only
  rw [InterfaceInfo.parse?_eq_some_iff.mpr hrest]
  rfl

/-- Everything else is a failure on this side. -/
theorem details_cases (index : UInt32) (k : Kernel) :
    (∃ flags as, k.Described flags as) ∨ k.Finished ∨ (∃ code, k.Refused code) ∨
      ((details index).run.run k).1 = .error localFailure := by
  rw [details, Fallible.run_bind]
  obtain ⟨received, b, k', hanswers, hsays, hask⟩ | ⟨k', hask⟩ := ask_cases (.query index) k
  · rw [hask]
    cases hsays with
    | @report code rest hreports =>
      by_cases h0 : code = 0
      · rw [Body.ofCode, if_pos h0]
        exact .inr (.inr (.inr rfl))
      rw [Body.ofCode, if_neg h0]
      dsimp only
      cases hi : InterfaceInfo.parse? rest with
      | none => exact .inr (.inr (.inr rfl))
      | some i =>
        have hrest : LinkBody i.flags i.attributes rest := InterfaceInfo.parse?_eq_some_iff.mp hi
        exact .inr (.inr (.inl ⟨code, h0, received, rest, hanswers, hreports, _, _, hrest⟩))
    | done hopens hmod => exact .inr (.inl ⟨received, _, hanswers, hopens, hmod⟩)
    | @payload kind body hopens h2 h3 hmod =>
      dsimp only
      cases hi : InterfaceInfo.parse? body with
      | none => exact .inr (.inr (.inr rfl))
      | some i =>
        have hbody : LinkBody i.flags i.attributes body := InterfaceInfo.parse?_eq_some_iff.mp hi
        exact .inl ⟨_, _, received, kind, body, hanswers, hopens, h2, h3, hbody⟩
  · rw [hask]
    exact .inr (.inr (.inr rfl))

end Netlink

namespace Controller

/-! ## The link -/

section Found

variable {name : String} {k : Kernel}

theorem resolve_not_found (h : k.lookupError? name ≠ none) :
    ((netlink.resolve name).run.run k).1 = .error (.interfaceNotFound name) := by
  obtain ⟨e, he⟩ := Option.ne_none_iff_exists'.mp h
  show ((netlinkResolve name).run.run k).1 = _
  rw [netlinkResolve, Fallible.run_bind, Fallible.run_lift, indexOf_run, he]
  rfl

theorem resolve_described (hname : k.lookupError? name = none) {flags : UInt32}
    {as : List Attribute} (h : k.Described flags as) :
    ((netlink.resolve name).run.run k).1 =
      (Details.ofInfo? ⟨flags, as⟩).elim (.error (.rejected .query localFailure)) fun d =>
        .ok ⟨d.name.getD name, k.indexFor name, d.isUp, d.kind, d.bitrate, d.queueLength⟩ := by
  have hk : (k.called (.nameToIndex name) .nameToIndex).Described flags as := by
    simpa only [Described, answers_looked_up] using h
  rw [resolve_found hname, details_described hk]
  cases Details.ofInfo? ⟨flags, as⟩ <;> rfl

theorem resolve_finished (hname : k.lookupError? name = none) (h : k.Finished) :
    ((netlink.resolve name).run.run k).1 =
      .ok ⟨name, k.indexFor name, false, none, none, none⟩ := by
  have hk : (k.called (.nameToIndex name) .nameToIndex).Finished := by
    simpa only [Finished, answers_looked_up] using h
  rw [resolve_found hname, details_finished hk]
  rfl

theorem resolve_refused (hname : k.lookupError? name = none) {code : Int32} (h : k.Refused code) :
    ((netlink.resolve name).run.run k).1 = .error (.rejected .query code.toInt) := by
  have hk : (k.called (.nameToIndex name) .nameToIndex).Refused code := by
    simpa only [Refused, answers_looked_up] using h
  rw [resolve_found hname, details_refused hk]

/-- All that can come of a query. -/
theorem resolve_cases (hname : k.lookupError? name = none) :
    let o := (netlink.resolve name).run.run k
    (∃ flags as d, k.Described flags as ∧ Details.ofInfo? ⟨flags, as⟩ = some d ∧
        o.1 =
          .ok ⟨d.name.getD name, k.indexFor name, d.isUp, d.kind, d.bitrate, d.queueLength⟩) ∨
      (k.Finished ∧ o.1 = .ok ⟨name, k.indexFor name, false, none, none, none⟩) ∨
      (∃ code, k.Refused code ∧ o.1 = .error (.rejected .query code.toInt)) ∨
      o.1 = .error (.rejected .query localFailure) := by
  intro o
  have h := details_cases (k.indexFor name) (k.called (.nameToIndex name) .nameToIndex)
  simp only [Described, Finished, Refused, answers_looked_up] at h
  obtain ⟨flags, as, h⟩ | h | ⟨code, h⟩ | h := h
  · have ho : o.1 = _ := resolve_described hname h
    cases hd : Details.ofInfo? ⟨flags, as⟩ with
    | none =>
      rw [hd] at ho
      exact .inr (.inr (.inr ho))
    | some d =>
      rw [hd] at ho
      exact .inl ⟨flags, as, d, h, hd, ho⟩
  · exact .inr (.inl ⟨h, resolve_finished hname h⟩)
  · exact .inr (.inr (.inl ⟨code, h, resolve_refused hname h⟩))
  · have ho : o.1 = _ := resolve_found hname
    rw [h] at ho
    exact .inr (.inr (.inr ho))

end Found

/-- Besides a readable description of a link, the end of a series is taken for one: of a link that
is down, with nothing else known of it. -/
theorem resolve_by_reply (name : String) (k : Kernel) :
    let o := (netlink.resolve name).run.run k
    let infos (as : List Attribute) := within 18 children as
    let parameters (as : List Attribute) := within 2 children (infos as)
    let link (flags : UInt32) (as : List Attribute) : Link := {
      name := ((last? 3 as).bind text?).getD name
      index := k.indexFor name
      isUp := flags.toNat.testBit 0
      kind := (last? 1 (infos as)).bind text?
      bitrate := (last? 1 (parameters as)).map word
      queueLength := (last? 13 as).bind word? }
    (k.lookupError? name ≠ none → o.1 = .error (.interfaceNotFound name)) ∧
      (k.lookupError? name = none →
        (∀ l, o.1 = .ok l ↔
          (∃ flags as, k.Described flags as ∧ (∀ a ∈ as, Details.Nested children a) ∧
            Details.Timed (parameters as) ∧ l = link flags as) ∨
          k.Finished ∧ l = ⟨name, k.indexFor name, false, none, none, none⟩) ∧
        (∀ code, k.Refused code → o.1 = .error (.rejected .query code.toInt)) ∧
        ∀ f, o.1 = .error f →
          (∃ code, k.Refused code ∧ f = .rejected .query code.toInt) ∨
          f = .rejected .query (-5)) := by
  intro o infos parameters link
  refine ⟨resolve_not_found,
    fun hname => ⟨fun l => ⟨fun hl => ?_, ?_⟩, ?_, fun f hf => ?_⟩⟩
  · obtain ⟨flags, as, d, h, hd, ho⟩ | ⟨h, ho⟩ | ⟨code, -, ho⟩ | ho :=
      resolve_cases hname
    · cases hl.symm.trans ho
      obtain ⟨hnested, htimed, rfl⟩ := Details.ofInfo?_eq_some_iff.mp hd
      exact .inl ⟨flags, as, h, hnested, htimed, rfl⟩
    · cases hl.symm.trans ho
      exact .inr ⟨h, rfl⟩
    · cases hl.symm.trans ho
    · cases hl.symm.trans ho
  · rintro (⟨flags, as, h, hnested, htimed, rfl⟩ | ⟨h, rfl⟩)
    · have ho : o.1 = _ := resolve_described hname h
      rw [Details.ofInfo?_eq_some_iff.mpr ⟨hnested, htimed, rfl⟩] at ho
      exact ho
    · exact resolve_finished hname h
  · exact fun code => resolve_refused hname
  · obtain ⟨flags, as, d, -, -, ho⟩ | ⟨-, ho⟩ | ⟨code, h, ho⟩ | ho :=
      resolve_cases hname
    · cases hf.symm.trans ho
    · cases hf.symm.trans ho
    · cases hf.symm.trans ho
      exact .inl ⟨code, h, rfl⟩
    · cases hf.symm.trans ho
      exact .inr rfl

/-- Nothing but the end of a series is received, which says nothing of any link. -/
theorem resolve_invents_link :
    let done := message 3 (List.replicate 10 0) []
    let k : Kernel := { interfaces := [("can0", 3)], replies := [.bytes done] }
    ((netlink.resolve "can0").run.run k).1 = .ok ⟨"can0", 3, false, none, none, none⟩ ∧
      ∀ flags as, ¬ k.Described flags as := by
  intro done k
  refine ⟨by decide +kernel, ?_⟩
  rintro flags as ⟨received, kind, body, hanswers, hopens, -, h3, -⟩
  have hwhole : done.take bufferSize = message 3 (List.replicate 10 0) [] ++ [] := by decide
  have hdone : Opens done 3 [] := opens_message hwhole (by decide) List.length_replicate
  cases hanswers.reply
  exact h3 (hopens.unique hdone).1

end Controller

end CanBus
