import CanBus.Proofs.Netlink.Message
import CanBus.Proofs.Socket.Setup

/-!
A link looked up over netlink, from the bytes of the reply to the link (`resolve_reads_reply`).
-/

namespace CanBus

open Kernel

/-! ## The exchange -/

/-- The next request is sent, and this comes back. -/
structure Kernel.Answers (k : Kernel) (received : List UInt8) : Prop where
  socket : k.nextOutcome .netlinkSocket ≤ 0
  bind : k.nextOutcome .netlinkBind ≤ 0
  send : k.nextOutcome .netlinkSend ≤ 0
  reply : k.replies.head? = some (.bytes received)

namespace Netlink

variable {k : Kernel} {received : List UInt8}

theorem nextReply_ok_iff :
    (nextReply.run.run k).1 = .ok received ↔ k.replies.head? = some (.bytes received) := by
  let k' := k.noted (.call k.thread .netlinkReceive)
  have hcall : (call .netlinkReceive).run.run k = (.ok 0, k') := rfl
  have hreplies : k'.replies = k.replies := rfl
  rw [nextReply, Fallible.run_bind, hcall]
  dsimp only
  rw [Fallible.run_bind, Fallible.run_get]
  dsimp only
  rw [hreplies]
  cases k.replies with
  | nil => exact ⟨nofun, nofun⟩
  | cons r rs =>
    rw [Fallible.run_bind, Fallible.run_set]
    cases r with
    | bytes bs =>
      show (Except.ok bs : Except SystemError _) = .ok received ↔ some _ = _
      simp
    | error n => exact ⟨nofun, nofun⟩

theorem roundTrip_answered (h : k.Answers received) (r : Request) :
    ((roundTrip r).run.run k).1 = .ok received := by
  let k₁ := k.called .netlinkSocket .netlinkSocket
  let k₂ := k₁.called .netlinkBind .netlinkBind
  let k₃ := k₂.called (.netlinkSend r.bytes) .netlinkSend
  have h₁ : (call .netlinkSocket).run.run k = (.ok _, k₁) := call_succeeds rfl h.socket
  have h₂ : (call .netlinkBind).run.run k₁ = (.ok _, k₂) := call_succeeds rfl h.bind
  have h₃ : (call (.netlinkSend r.bytes)).run.run k₂ = (.ok _, k₃) := call_succeeds rfl h.send
  have h₄ : (nextReply.run.run k₃).1 = .ok received := nextReply_ok_iff.mpr h.reply
  rw [roundTrip, Fallible.run_bind, h₁]
  dsimp only
  rw [Fallible.run_bind, h₂]
  dsimp only
  rw [Fallible.run_bind, h₃]
  exact h₄

/-- Nothing else is taken for a reply. -/
theorem answers_of_roundTrip {r : Request} (h : ((roundTrip r).run.run k).1 = .ok received) :
    k.Answers received := by
  obtain ⟨k', hrun⟩ : ∃ k', (roundTrip r).run.run k = (.ok received, k') :=
    ⟨_, Prod.ext h rfl⟩
  obtain ⟨n, k₁, h₁, hrun⟩ := Fallible.bind_ok hrun
  obtain ⟨hsocket, rfl⟩ := call_ok rfl h₁
  obtain ⟨n, k₂, h₂, hrun⟩ := Fallible.bind_ok hrun
  obtain ⟨hbind, rfl⟩ := call_ok rfl h₂
  obtain ⟨n, k₃, h₃, hrun⟩ := Fallible.bind_ok hrun
  obtain ⟨hsend, rfl⟩ := call_ok rfl h₃
  have hreply := nextReply_ok_iff.mp (congrArg Prod.fst hrun)
  exact ⟨hsocket, hbind, hsend, hreply⟩

theorem ask_answered {b : Body} (h : k.Answers received) (hb : Says received b) (r : Request) :
    ∃ k', (ask r).run.run k = (.ok b, k') := by
  rw [ask, Fallible.run_bind, Fallible.run_lift, roundTrip_answered h]
  dsimp only
  rw [Body.ofReceived?_iff_says.mpr hb]
  exact ⟨_, rfl⟩

/-- A request without a reply that can be read fails, whatever the reason. -/
theorem ask_cases (r : Request) (k : Kernel) :
    (∃ received b k', k.Answers received ∧ Says received b ∧
      (ask r).run.run k = (.ok b, k')) ∨
      ∃ k', (ask r).run.run k = (.error localFailure, k') := by
  rw [ask, Fallible.run_bind, Fallible.run_lift]
  dsimp only
  cases hr : ((roundTrip r).run.run k).1 with
  | error e => exact .inr ⟨_, rfl⟩
  | ok received =>
    dsimp only
    cases hb : Body.ofReceived? received with
    | some b =>
      exact .inl ⟨received, b, _, answers_of_roundTrip hr, Body.ofReceived?_iff_says.mp hb, rfl⟩
    | none => exact .inr ⟨_, rfl⟩

theorem details_read {index : UInt32} {bs : List UInt8} {i : InterfaceInfo} (h : k.Answers received)
    (hb : Body.ofReceived? received = some (.payload bs)) (hi : InterfaceInfo.parse? bs = some i) :
    ((details index).run.run k).1 = (Details.ofInfo? i).elim (.error localFailure) .ok := by
  obtain ⟨k', hask⟩ := ask_answered h (Body.ofReceived?_iff_says.mp hb) (.query index)
  have hread : (InterfaceInfo.parse? bs).bind Details.ofInfo? = Details.ofInfo? i := by rw [hi]; rfl
  rw [details, Fallible.run_bind, hask]
  dsimp only
  rw [hread]
  cases Details.ofInfo? i <;> rfl

theorem details_answered {index : UInt32} {bs : List UInt8} {i : InterfaceInfo} {d : Details}
    (h : k.Answers received) (hb : Body.ofReceived? received = some (.payload bs))
    (hi : InterfaceInfo.parse? bs = some i) (hd : Details.ofInfo? i = some d) :
    ((details index).run.run k).1 = .ok d := by
  rw [details_read h hb hi, hd]
  rfl

end Netlink

/-! ## The link -/

namespace Controller

open Netlink Attribute

/-- The index is found, and the details are asked for. -/
theorem resolve_found {name : String} {k : Kernel} (h : k.lookupError? name = none) :
    ((netlink.resolve name).run.run k).1 =
      match ((details (k.indexFor name)).run.run (k.called (.nameToIndex name) .nameToIndex)).1 with
      | .ok d =>
        .ok ⟨d.name.getD name, k.indexFor name, d.isUp, d.kind, d.bitrate, d.queueLength⟩
      | .error code => .error (.rejected .query code) := by
  show ((netlinkResolve name).run.run k).1 = _
  rw [netlinkResolve, Fallible.run_bind, Fallible.run_lift, indexOf_found h]
  dsimp only
  rw [Fallible.run_bind, Fallible.run_lift]
  dsimp only
  cases ((details (k.indexFor name)).run.run (k.called (.nameToIndex name) .nameToIndex)).1 <;> rfl

theorem answers_looked_up {name : String} {k : Kernel} {received : List UInt8} :
    (k.called (.nameToIndex name) .nameToIndex).Answers received ↔ k.Answers received :=
  ⟨fun h => ⟨h.socket, h.bind, h.send, h.reply⟩,
    fun h => ⟨h.socket, h.bind, h.send, h.reply⟩⟩

/-- Attributes come in any number and order, and the last one of its type counts. A text without a
NUL is none. -/
theorem resolve_reads_reply {name : String} {k : Kernel} {received m rest : List UInt8}
    {flags : UInt32} {as : List Attribute} {inner : Attribute → List Attribute}
    (hname : k.lookupError? name = none) (hanswers : k.Answers received)
    (hreceived : received.take 32768 = m ++ rest) (hmessage : NewLink flags as m)
    (has : ∀ a ∈ as, Details.Readable inner a) :
    let infos := within 18 inner as
    let parameters := within 2 inner infos
    let text (a : Attribute) : Option String :=
      if 0 ∈ a.payload then some (Text.Utf8.text (a.payload.takeWhile (· != 0))) else none
    let word (a : Attribute) : UInt32 := UInt32.ofNat (LittleEndian.value (a.payload.take 4))
    ((Controller.netlink.resolve name).run.run k).1 = .ok {
      name := ((last? 3 as).bind text).getD name
      index := k.indexFor name
      isUp := flags.toNat.testBit 0
      kind := (last? 1 infos).bind text
      bitrate := (last? 1 parameters).map word
      queueLength := (last? 13 as).map word } := by
  intro infos parameters text word
  have htext : text? = text := by
    funext a
    simp [text?, Text.Utf8.untilNul?, text]
  let k' := k.called (.nameToIndex name) .nameToIndex
  have hanswers' : k'.Answers received :=
    ⟨hanswers.socket, hanswers.bind, hanswers.send, hanswers.reply⟩
  obtain ⟨bs, hb, hi⟩ := hmessage.ofReceived? hreceived
  have hdetails : ((Netlink.details (k.indexFor name)).run.run k').1 = .ok _ :=
    details_answered hanswers' hb hi (Details.ofInfo?_readable has flags)
  rw [htext] at hdetails
  show ((netlinkResolve name).run.run k).1 = _
  rw [netlinkResolve, Fallible.run_bind, Fallible.run_lift, indexOf_found hname]
  dsimp only
  rw [Fallible.run_bind, Fallible.run_lift, hdetails]
  rfl

/-- Attributes that are repeated, of no known type or without a NUL, in no particular order. -/
theorem resolve_reads_reply_of_repeated :
    let slow : Attribute := ⟨1, LittleEndian.word32 125000 ++ List.replicate 28 0xFF⟩
    let fast : Attribute := ⟨1, LittleEndian.word32 500000 ++ List.replicate 28 0xFF⟩
    let data : Attribute := ⟨2, field 1 slow.payload [] ++ (field 1 fast.payload [] ++ [])⟩
    let can : Attribute := ⟨1, [0x63, 0x61, 0x6E, 0]⟩
    let unfinished : Attribute := ⟨1, [0x63, 0x61, 0x6E]⟩
    let first : Attribute := ⟨18, field 2 data.payload [] ++ (field 1 can.payload [] ++ [])⟩
    let last : Attribute := ⟨18, field 1 unfinished.payload [0xFF] ++ []⟩
    let attributes := field 13 (LittleEndian.word32 10) [] ++ (field 18 first.payload [] ++
      (field 99 [3] [1, 2, 3] ++ (field 18 last.payload [] ++
      (field 3 [0x63, 0x61, 0x6E, 0x30, 0, 0x78] [7, 7] ++
      (field 13 (LittleEndian.word32 1000) [] ++ [])))))
    let m := message 16 (List.replicate 10 0)
      (List.replicate 8 0 ++ LittleEndian.word32 0x1043 ++ List.replicate 4 0 ++ attributes)
    let k : Kernel := { interfaces := [("can0", 3)], replies := [.bytes m] }
    ((Controller.netlink.resolve "can0").run.run k).1 =
      .ok ⟨"can0", 3, true, none, some 500000, some 1000⟩ := by
  intro slow fast data can unfinished first last attributes m k
  let inner (a : Attribute) : List Attribute :=
    if a.kind = 2 then [slow, fast] else if a.payload.length = 8 then [unfinished] else [data, can]
  let as : List Attribute := [⟨13, LittleEndian.word32 10⟩, first, ⟨99, [3]⟩, last,
    ⟨3, [0x63, 0x61, 0x6E, 0x30, 0, 0x78]⟩, ⟨13, LittleEndian.word32 1000⟩]
  have hdata : Laid [slow, fast] data.payload :=
    .cons (by decide) (by decide) (by decide) (.cons (by decide) (by decide) (by decide) .nil)
  have hfirst : Laid [data, can] first.payload :=
    .cons (by decide) (by decide) (by decide) (.cons (by decide) (by decide) (by decide) .nil)
  have hlast : Laid [unfinished] last.payload := .cons (by decide) (by decide) (by decide) .nil
  have hlaid : Laid as attributes :=
    .cons (by decide) (by decide) (by decide) <| .cons (by decide) (by decide) (by decide) <|
    .cons (by decide) (by decide) (by decide) <| .cons (by decide) (by decide) (by decide) <|
    .cons (by decide) (by decide) (by decide) <| .cons (by decide) (by decide) (by decide) .nil
  have hplain {a : Attribute} (hq : a.kind = 13 → a.payload.length = 4) (hi : a.kind ≠ 18) :
      Details.Readable inner a := ⟨hq, fun h => absurd h hi, fun h => absurd h hi⟩
  have hkind {a : Attribute} (h : a.kind ≠ 2) : Details.ReadableInfo inner a :=
    ⟨fun hd => absurd hd h, fun hd => absurd hd h⟩
  have hbits : Details.ReadableInfo inner data := ⟨fun _ => hdata, fun _ => by decide⟩
  have hreadable : ∀ a ∈ as, Details.Readable inner a := by
    simp only [as, List.forall_mem_cons, List.not_mem_nil]
    refine ⟨hplain (by decide) (by decide), ⟨by decide, fun _ => hfirst, fun _ => ?_⟩,
      hplain (by decide) (by decide), ⟨by decide, fun _ => hlast, fun _ => ?_⟩,
      hplain (by decide) (by decide), hplain (by decide) (by decide), nofun⟩
    · show ∀ i ∈ [data, can], Details.ReadableInfo inner i
      simp only [List.forall_mem_cons]
      exact ⟨hbits, hkind (by decide), nofun⟩
    · show ∀ i ∈ [unfinished], Details.ReadableInfo inner i
      simp only [List.forall_mem_cons]
      exact ⟨hkind (by decide), nofun⟩
  have hmessage : NewLink 0x1043 as m :=
    .intro List.length_replicate List.length_replicate List.length_replicate hlaid
  have hreceived : m.take 32768 = m ++ [] := by
    rw [List.append_nil]
    apply List.take_of_length_le
    simp [m, message, attributes, field, first, last, data, can, unfinished, slow, fast]
  have hname : k.lookupError? "can0" = none := by decide
  have hanswers : k.Answers m := ⟨by decide, by decide, by decide, rfl⟩
  have hread : Text.Utf8.text [0x63, 0x61, 0x6E, 0x30] = "can0" := by
    simp [Text.Utf8.text, Text.Utf8.decode]
  have hlink : ((Controller.netlink.resolve "can0").run.run k).1 =
      .ok ⟨Text.Utf8.text [0x63, 0x61, 0x6E, 0x30], 3, true, none, some 500000, some 1000⟩ :=
    resolve_reads_reply hname hanswers hreceived hmessage hreadable
  rwa [hread] at hlink

end Controller

end CanBus
