import CanBus.Proofs.Kernel.Made
import CanBus.Proofs.Netlink.Reply

/-!
Requests to change a link, and what they would say of a link if they came as a reply: just what they
ask for (`change_reads_back`).
-/

namespace CanBus

open Kernel Netlink Attribute

/-- What is known of a link if nothing but the change is. A bitrate goes with the kind
of links that have one. -/
def LinkChange.described : LinkChange → Details
  | .admin _ => {}
  | .bitrate value => { kind := some "can", bitrate := some value }
  | .queueLength value => { queueLength := some value }

namespace Netlink

/-! ## Attributes of requests -/

/-- The attributes of a request for a bitrate, from the inside out. -/
def timing (value : UInt32) : Attribute :=
  ⟨bitTimingType, (value :: List.replicate 7 0).flatMap LittleEndian.word32⟩

def canKind : Attribute := Request.textAttribute kindType "can"

def timingData (value : UInt32) : Attribute := .nested kindDataType [timing value]

def timingInfo (value : UInt32) : Attribute := .nested linkInfoType [canKind, timingData value]

theorem kind_timingInfo (value : UInt32) : (timingInfo value).kind = linkInfoType := rfl

theorem kind_timingData (value : UInt32) : (timingData value).kind = kindDataType := rfl

theorem length_timing (value : UInt32) : (timing value).payload.length = 32 := by
  simp [timing]

theorem payload_canKind : canKind.payload = [0x63, 0x61, 0x6E, 0] := by decide

theorem laid_timingData (value : UInt32) : Laid [timing value] (timingData value).payload :=
  laid_bytesAll (by simp [length_timing])

theorem length_timingData (value : UInt32) : (timingData value).payload.length = 36 := by
  simp [timingData, nested, bytesAll, length_bytes, length_timing, padded]

theorem laid_timingInfo (value : UInt32) :
    Laid [canKind, timingData value] (timingInfo value).payload :=
  laid_bytesAll (by simp [length_timingData, payload_canKind])

theorem length_timingInfo (value : UInt32) : (timingInfo value).payload.length = 48 := by
  simp [timingInfo, nested, bytesAll, length_bytes, length_timingData, payload_canKind, padded]

theorem word_eq {a : Attribute} {value : UInt32} {rest : List UInt8}
    (h : a.payload = LittleEndian.word32 value ++ rest) : a.word = value := by
  rw [word, h, List.take_left' (LittleEndian.length_word32 value), LittleEndian.value_word32,
    UInt32.ofNat_toNat]

theorem text?_canKind : canKind.text? = some "can" := by
  rw [text?, payload_canKind]
  decide +kernel

theorem readable_timingInfo (value : UInt32) : Details.Readable children (timingInfo value) := by
  have hkind : Details.ReadableInfo children canKind :=
    ⟨fun h => absurd h (by decide), fun h => absurd h (by decide)⟩
  have hdata : Details.ReadableInfo children (timingData value) := by
    refine ⟨fun _ => laid_children (laid_timingData value), fun _ p hp _ => ?_⟩
    rw [children_of_laid (laid_timingData value), List.mem_singleton] at hp
    rw [hp, length_timing]
  refine ⟨fun h => ?_, fun _ => laid_children (laid_timingInfo value), fun _ => ?_⟩
  · rw [kind_timingInfo] at h
    exact absurd h (by decide)
  rw [children_of_laid (laid_timingInfo value)]
  exact List.forall_mem_cons.mpr ⟨hkind, List.forall_mem_singleton.mpr hdata⟩

/-- What is nested in a request for a bitrate. -/
theorem within_timingInfo (value : UInt32) :
    within linkInfoType children [timingInfo value] = [canKind, timingData value] ∧
      within kindDataType children [canKind, timingData value] = [timing value] := by
  constructor
  · rw [within_cons_of_eq (kind_timingInfo value), children_of_laid (laid_timingInfo value)]
    rfl
  · rw [within_cons_of_ne (by decide), within_cons_of_eq (kind_timingData value),
      children_of_laid (laid_timingData value)]
    rfl

theorem laid_ofChange (index : UInt32) (c : LinkChange) :
    Laid (Request.ofChange index c).attributes
      (bytesAll (Request.ofChange index c).attributes) := by
  apply laid_bytesAll
  cases c with
  | admin up => exact fun a ha => absurd ha List.not_mem_nil
  | bitrate value =>
    refine List.forall_mem_singleton.mpr ?_
    show 4 + (timingInfo value).payload.length < 0x10000
    rw [length_timingInfo]
    decide
  | queueLength value => exact List.forall_mem_singleton.mpr (by simp)

theorem ofInfo?_ofChange (index : UInt32) (c : LinkChange) (flags : UInt32) :
    Details.ofInfo? ⟨flags, (Request.ofChange index c).attributes⟩ =
      some { c.described with isUp := flags.toNat.testBit 0 } := by
  have hread {as : List Attribute} (h : ∀ a ∈ as, Details.Readable children a) :
      Details.ofInfo? ⟨flags, as⟩ = _ := Details.ofInfo?_readable h flags
  cases c with
  | admin up => exact hread fun a ha => absurd ha List.not_mem_nil
  | bitrate value =>
    obtain ⟨hinfo, hdata⟩ := within_timingInfo value
    have hrate := hread (List.forall_mem_singleton.mpr (readable_timingInfo value))
    rw [hinfo, hdata] at hrate
    refine hrate.trans ?_
    have hkind : (last? kindType [canKind, timingData value]).bind text? = some "can" :=
      text?_canKind
    have hword : (last? bitTimingType [timing value]).map word = some value :=
      congrArg some (word_eq rfl)
    rw [hkind, hword]
    rfl
  | queueLength value =>
    let a : Attribute := ⟨queueLengthType, LittleEndian.word32 value⟩
    have hne : a.kind ≠ linkInfoType := (by decide : queueLengthType ≠ linkInfoType)
    have ha : Details.Readable children a :=
      ⟨fun _ => LittleEndian.length_word32 value, fun h => absurd h hne, fun h => absurd h hne⟩
    refine (hread (List.forall_mem_singleton.mpr ha)).trans ?_
    have hword : (last? queueLengthType [a]).map word = some value :=
      congrArg some (word_eq (List.append_nil _).symm)
    rw [hword]
    rfl

theorem length_ofChange_lt (index : UInt32) (c : LinkChange) :
    (Request.ofChange index c).bytes.length < 0x100000000 := by
  have hattributes : (bytesAll (Request.ofChange index c).attributes).length ≤ 64 := by
    cases c with
    | admin up => exact Nat.zero_le _
    | bitrate value =>
      show (bytesAll [timingInfo value]).length ≤ 64
      simp [bytesAll, length_bytes, length_timingInfo, padded]
    | queueLength value =>
      simp [Request.ofChange, Request.queueLength, Request.change, bytesAll, length_bytes, padded]
  rw [Request.bytes_eq]
  simp only [List.length_append, Request.length_start, LittleEndian.length_word32]
  omega

end Netlink

/-- The bytes of a request say just what it is for: whoever reads them as a description finds that
bitrate or that queue length, and nothing else but the flag for being up. -/
theorem change_reads_back (index : UInt32) (c : LinkChange) :
    let m := (Request.ofChange index c).bytes
    let field (start length : Nat) : List UInt8 := (m.drop start).take length
    LittleEndian.value (field 0 4) = m.length ∧ field 20 4 = LittleEndian.word32 index ∧
      ((∀ up, c ≠ .admin up) → field 24 4 = [0, 0, 0, 0] ∧ field 28 4 = [0, 0, 0, 0]) ∧
      (∀ (l : Link) (k : Kernel), l.index = index →
        let calls : List Kernel.Call :=
          [.netlinkSocket, .netlinkBind, .netlinkSend m, .netlinkReceive]
        let o := (Controller.netlink.apply l c).run.run k
        ∃ made, o.2.calls = k.calls ++ made ∧ made <+: calls ∧
          (o.1 = .ok () → made = calls)) ∧
      ∀ (k : Kernel) (i flags : UInt32) (received header interface mask rest : List UInt8),
        k.Answers received → header.length = 10 → interface.length = 8 → mask.length = 4 →
        received.take 32768 = message 16 header
          (interface ++ LittleEndian.word32 flags ++ mask ++ m.drop 32) ++ rest →
        ((details i).run.run k).1 = .ok { c.described with isUp := flags.toNat.testBit 0 } := by
  intro m field
  have hindex : (Request.ofChange index c).index = index := by cases c <;> rfl
  refine ⟨?_, ?_, fun hc => ?_, ?_, ?_⟩
  · show LittleEndian.value (m.take 4) = m.length
    rw [Request.take_length, LittleEndian.value_bytes]
    exact Nat.mod_eq_of_lt (length_ofChange_lt index c)
  · show (m.drop 20).take 4 = _
    rw [Request.index_field, hindex]
  · show (m.drop 24).take 4 = _ ∧ (m.drop 28).take 4 = _
    have hzero : LittleEndian.word32 0 = [0, 0, 0, 0] := by decide
    rw [Request.flags_field, Request.mask_field]
    cases c with
    | admin up => exact absurd rfl (hc up)
    | bitrate value => exact ⟨hzero, hzero⟩
    | queueLength value => exact ⟨hzero, hzero⟩
  · rintro l k rfl
    obtain ⟨made, hmade, hcalls, hall⟩ := Controller.follows_netlinkApply l c k
    exact ⟨made, hcalls, hmade, hall ()⟩
  · intro k i flags received header interface mask rest hanswers hheader hinterface hmask hreceived
    rw [Request.drop_attributes] at hreceived
    obtain ⟨bs, hb, hi⟩ :=
      (NewLink.intro hheader hinterface hmask (laid_ofChange index c)).ofReceived? hreceived
    exact details_answered hanswers hb hi (ofInfo?_ofChange index c flags)

/-- The request itself, taken for a reply. -/
theorem change_reads_back_of_bitrate :
    let m := (Request.ofChange 3 (.bitrate 500000)).bytes
    let k : Kernel := { replies := [.bytes m] }
    k.Answers m ∧ LittleEndian.value (m.take 4) = m.length ∧
      ((details 3).run.run k).1 = .ok { kind := some "can", bitrate := some 500000 } := by
  intro m k
  have hanswers : k.Answers m := ⟨by decide, by decide, by decide, rfl⟩
  obtain ⟨hlength, -, -, -, hread⟩ := change_reads_back 3 (.bitrate 500000)
  have hm : m.take 32768 = message 16 (LittleEndian.word16 changeFlags ++ List.replicate 8 0)
      ([0, 0, 0, 0] ++ LittleEndian.word32 3 ++ LittleEndian.word32 0 ++ [0, 0, 0, 0] ++
        m.drop 32) ++
        [] := by
    decide +kernel
  exact ⟨hanswers, hlength, hread k 3 0 m _ _ _ _ hanswers (by simp) (by simp) (by simp) hm⟩

end CanBus
