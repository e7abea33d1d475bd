import CanBus.Proofs.Kernel
import CanBus.Proofs.Netlink.Message

/-!
The calls that a program makes. `Makes P` says that all of them satisfy `P`, and that no outcome was
used up but those of their services; `Follows cs` says which ones they are, in order. What readies a
link over netlink is spelled out down to the bytes of its requests, none of which would take the
link down (`makes_prepare`).
-/

namespace CanBus

open Kernel

/-- Calls that satisfy `P` were made, and only outcomes scripted for such calls were used up. -/
def Makes (P : Kernel.Call → Prop) (k k' : Kernel) : Prop :=
  ∃ cs, k'.calls = k.calls ++ cs ∧ (∀ c ∈ cs, P c) ∧
    ∀ v, (∀ c ∈ cs, c.service? ≠ some v) → k'.script v = k.script v

variable {P : Kernel.Call → Prop}

instance : Chained (Makes P) where
  refl _ := ⟨[], (List.append_nil _).symm, nofun, fun _ _ => rfl⟩
  trans := by
    rintro a b c ⟨cs, hc, hp, hs⟩ ⟨cs', hc', hp', hs'⟩
    refine ⟨cs ++ cs', ?_, ?_, ?_⟩
    · rw [hc', hc, List.append_assoc]
    · exact fun x hx => (List.mem_append.mp hx).elim (hp x) (hp' x)
    · intro v hv
      rw [hs' v fun x hx => hv x (List.mem_append_right _ hx),
        hs v fun x hx => hv x (List.mem_append_left _ hx)]

theorem makes_log (level : LogLevel) (text : String) : Keeps (Makes P) (log level text) :=
  fun _ => ⟨[], (calls_logged _ _ _ _).trans (List.append_nil _).symm, nofun, fun _ _ => rfl⟩

theorem makes_perform {c : Kernel.Call} (h : P c) : Keeps (Makes P) (perform c) := by
  intro k
  have hp : ∀ x ∈ [c], P x := fun x hx => List.mem_singleton.mp hx ▸ h
  cases hc : c.service? with
  | none =>
    simp only [perform, hc, System.run_bind]
    refine ⟨[c], ?_, hp, fun _ _ => rfl⟩
    exact List.filterMap_append
  | some s =>
    rw [perform_run k hc]
    refine ⟨[c], calls_called _ _ _, hp, fun v hv => script_called_of_ne k c ?_⟩
    rintro rfl
    exact hv c List.mem_cons_self hc

/-! ## Calls in a given order -/

/-- The program makes these calls until it fails, and all of them if it succeeds. -/
def Follows {ε α : Type} (cs : List Kernel.Call) (m : ExceptT ε System α) : Prop :=
  ∀ k, ∃ made, made <+: cs ∧ (m.run.run k).2.calls = k.calls ++ made ∧
    ∀ a, (m.run.run k).1 = .ok a → made = cs

namespace Follows

variable {α β δ ε : Type} {cs ds : List Kernel.Call}

theorem pure (a : α) : Follows [] (Pure.pure a : ExceptT ε System α) :=
  fun _ => ⟨[], List.prefix_rfl, (List.append_nil _).symm, fun _ _ => rfl⟩

theorem throw (e : ε) : Follows cs (throw e : ExceptT ε System α) :=
  fun _ => ⟨[], List.nil_prefix, (List.append_nil _).symm, nofun⟩

theorem calls_of_ok {m : ExceptT ε System α} {k k' : Kernel} {a : α} (hm : Follows cs m)
    (h : m.run.run k = (.ok a, k')) : k'.calls = k.calls ++ cs := by
  obtain ⟨made, -, hc, hall⟩ := hm k
  rw [h] at hc hall
  rw [hc, hall a rfl]

/-- One call, the outcome of which is only looked at. -/
theorem performed (c : Kernel.Call) {f : Int → ExceptT ε System α}
    (hf : ∀ n, Follows [] (f n)) :
    Follows [c] (liftM (perform c) >>= f) := by
  intro k
  have hperform : ((perform c).run k).2.calls = k.calls ++ [c] := by
    cases hc : c.service? with
    | none =>
      simp only [perform, hc, System.run_bind]
      exact List.filterMap_append
    | some s => rw [perform_run k hc, calls_called]
  rw [Fallible.run_bind, Fallible.run_lift]
  dsimp only
  obtain ⟨made, hp, hc, -⟩ := hf ((perform c).run k).1 ((perform c).run k).2
  rw [List.prefix_nil.mp hp, List.append_nil] at hc
  exact ⟨[c], List.prefix_rfl, hc.trans hperform, fun _ _ => rfl⟩

theorem call (c : Kernel.Call) : Follows [c] (Kernel.call c) := by
  refine performed c fun n => ?_
  split
  · exact throw _
  · exact pure _

theorem knownCall (c : Kernel.Call) : Follows [c] (Kernel.knownCall c) := by
  refine performed c fun n => ?_
  split
  · exact throw _
  · exact pure _

theorem bind {m : ExceptT ε System α} {f : α → ExceptT ε System β} (hm : Follows cs m)
    (hf : ∀ a, Follows ds (f a)) : Follows (cs ++ ds) (m >>= f) := by
  intro k
  obtain ⟨made, hp, hc, hall⟩ := hm k
  rw [Fallible.run_bind]
  rcases hr : m.run.run k with ⟨e | a, k₁⟩ <;> rw [hr] at hc hall
  · exact ⟨made, hp.trans (List.prefix_append _ _), hc, nofun⟩
  · obtain ⟨made', hp', hc', hall'⟩ := hf a k₁
    rw [hall a rfl] at hc
    refine ⟨cs ++ made', (List.prefix_append_right_inj _).mpr hp', ?_, fun b hb => ?_⟩
    · rw [hc', hc, List.append_assoc]
    · rw [hall' b hb]

theorem get : Follows [] (MonadState.get : ExceptT ε System Kernel) :=
  fun _ => ⟨[], List.prefix_rfl, (List.append_nil _).symm, fun _ _ => rfl⟩

/-- The result of the last call is only looked at. -/
theorem looked {m : ExceptT ε System α} {f : α → ExceptT ε System β} (hm : Follows cs m)
    (hf : ∀ a, Follows [] (f a)) : Follows cs (m >>= f) := by
  have h := hm.bind hf
  rwa [List.append_nil] at h

/-- As `looked`, where a failure is turned into one of another kind. -/
theorem handled {m : ExceptT δ System α} {f : Except δ α → ExceptT ε System β}
    (hm : Follows cs m) (hok : ∀ a, Follows [] (f (.ok a)))
    (herr : ∀ e, ∃ e', f (.error e) = MonadExcept.throw e') :
    Follows cs (liftM m.run >>= f) := by
  intro k
  obtain ⟨made, hp, hc, hall⟩ := hm k
  rw [Fallible.run_bind, Fallible.run_lift]
  dsimp only
  cases hr : (m.run.run k).1 with
  | error e =>
    obtain ⟨e', he⟩ := herr e
    rw [he]
    exact ⟨made, hp, hc, nofun⟩
  | ok a =>
    obtain ⟨made', hp', hc', -⟩ := hok a (m.run.run k).2
    rw [List.prefix_nil.mp hp', List.append_nil] at hc'
    exact ⟨made, hp, hc'.trans hc, fun _ _ => hall a hr⟩

end Follows

theorem Kernel.follows_indexOf (name : String) : Follows [.nameToIndex name] (indexOf name) := by
  unfold indexOf
  split
  · exact .throw _
  · refine Follows.looked (.knownCall _) fun _ => .looked .get fun k => ?_
    split
    · split
      · exact .throw _
      · exact .pure _
    · exact .throw _

namespace Netlink

variable (r : Request)

/-- The calls of one request over netlink. -/
def Request.exchange : List Kernel.Call :=
  [.netlinkSocket, .netlinkBind, .netlinkSend r.bytes, .netlinkReceive]

theorem follows_nextReply : Follows [.netlinkReceive] nextReply := by
  refine Follows.looked (.call _) fun _ k => ?_
  rw [Fallible.run_bind, Fallible.run_get]
  dsimp only
  cases k.replies with
  | nil => exact Follows.throw _ k
  | cons r rs =>
    rw [Fallible.run_bind, Fallible.run_set]
    cases r with
    | bytes bs => exact Follows.pure _ k
    | error n => exact Follows.throw _ k

theorem follows_roundTrip : Follows r.exchange (roundTrip r) :=
  .bind (.call _) fun _ => .bind (.call _) fun _ => .bind (.call _) fun _ => follows_nextReply

theorem follows_ask : Follows r.exchange (ask r) := by
  refine Follows.handled (follows_roundTrip r) (fun received => ?_) fun e => ⟨_, rfl⟩
  dsimp only
  split
  · exact .pure _
  · exact .throw _

theorem follows_submit : Follows r.exchange (submit r) := by
  refine Follows.looked (follows_ask r) fun body => ?_
  split
  · exact .pure _
  · exact .throw _
  · exact .throw _

theorem follows_details (index : UInt32) :
    Follows (Request.query index).exchange (details index) := by
  refine Follows.looked (follows_ask _) fun body => ?_
  split
  · exact .pure _
  · exact .throw _
  · exact .throw _
  · split
    · exact .pure _
    · exact .throw _

end Netlink

theorem Controller.follows_netlinkApply (l : Link) (c : LinkChange) :
    Follows (Netlink.Request.ofChange l.index c).exchange (netlink.apply l c) :=
  Follows.handled (Netlink.follows_submit _) (fun _ => .pure _) fun _ => ⟨_, rfl⟩

/-! ## Requests that spare the link -/

/-- The call asks for a link to be taken down, or deleted: by the type of a netlink message, and by
bit 0 of the flags and of the mask of those to be changed. -/
def Kernel.Call.TakesDown : Kernel.Call → Prop
  | .linkAdmin _ up => up = false
  | .netlinkSend bs =>
    let field (start length : Nat) : Nat := LittleEndian.value ((bs.drop start).take length)
    field 4 2 = 17 ∨ (field 4 2 = 16 ∨ field 4 2 = 19) ∧
      (field 28 4).testBit 0 = true ∧ (field 24 4).testBit 0 = false
  | _ => False

/-- The bytes that are written to a CAN socket. -/
def Kernel.Call.sent? : Kernel.Call → Option (List UInt8)
  | .send bs => some bs
  | _ => none

/-- A call that has to do with the link alone, and doesn't take it down. -/
def Kernel.Call.SparesLink (c : Kernel.Call) : Prop := c.sent? = none ∧ ¬ c.TakesDown

namespace Netlink

theorem Request.takesDown_iff (r : Request) :
    (Call.netlinkSend r.bytes).TakesDown ↔
      r.kind = 17 ∨ (r.kind = 16 ∨ r.kind = 19) ∧
        r.changeMask.toNat.testBit 0 = true ∧ r.interfaceFlags.toNat.testBit 0 = false := by
  simp only [Call.TakesDown, r.kind_field, r.flags_field, r.mask_field, LittleEndian.value_word16,
    LittleEndian.value_word32, ← UInt16.toNat_inj]
  rfl

/-- Whether it is a query or a change, nothing but taking a link down takes it down. -/
theorem sparesLink_query (index : UInt32) :
    (Call.netlinkSend (Request.query index).bytes).SparesLink := by
  refine ⟨rfl, fun h => ?_⟩
  rw [Request.takesDown_iff] at h
  simp [Request.query] at h

theorem sparesLink_ofChange (index : UInt32) {c : LinkChange} (hc : c ≠ .admin false) :
    (Call.netlinkSend (Request.ofChange index c).bytes).SparesLink := by
  refine ⟨rfl, fun h => ?_⟩
  rw [Request.takesDown_iff] at h
  cases c with
  | admin up =>
    cases up with
    | false => exact hc rfl
    | true => simp [Request.ofChange, Request.admin, Request.change] at h
  | bitrate value =>
    simp [Request.ofChange, Request.bitrate, Request.bitTiming, Request.parameter,
      Request.change] at h
  | queueLength value => simp [Request.ofChange, Request.queueLength, Request.change] at h

theorem serving_sparesLink {r : Request} (h : (Call.netlinkSend r.bytes).SparesLink) :
    Serving (Makes Call.SparesLink) r where
  socket := makes_perform ⟨rfl, id⟩
  bind := makes_perform ⟨rfl, id⟩
  send := makes_perform h
  receive := makes_perform ⟨rfl, id⟩
  replied _ _ := ⟨[], (List.append_nil _).symm, nofun, fun _ _ => rfl⟩

end Netlink

/-- Readying a link over netlink writes to no CAN socket and doesn't take the link down. -/
theorem Link.makes_prepare (name : String) (bitrate queueLength : UInt32) :
    Keeps (Makes Call.SparesLink) (prepare .netlink name bitrate queueLength).run := by
  have hchange (l : Link) {c : LinkChange} (hc : c ≠ .admin false) :
      Keeps (Makes Call.SparesLink) (change .netlink l c).run :=
    keeps_change_of makes_log
      (Controller.keeps_netlinkApply
        (Netlink.serving_sparesLink (Netlink.sparesLink_ofChange _ hc)))
  refine keeps_prepare_of ?_ (fun l => hchange l nofun) (fun l => hchange l nofun)
    fun l => hchange l nofun
  exact Controller.keeps_netlinkResolve (makes_perform ⟨rfl, id⟩) fun index =>
    Netlink.serving_sparesLink (Netlink.sparesLink_query index)

end CanBus
