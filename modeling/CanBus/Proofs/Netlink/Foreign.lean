import CanBus.Proofs.Netlink.Reply

/-!
Links of other kinds than `can`, looked up over netlink. What their drivers put into the data of the
link information is read as if it came from a CAN driver (`resolve_of_other_kind`): an attribute
that has the number of the bit timing passes for one, and makes the look-up fail if it is too short.
-/

namespace CanBus

open Kernel Netlink Attribute

namespace Controller

section Nested

variable {name : String} {k : Kernel} {received m rest : List UInt8} {flags : UInt32}
  {as : List Attribute} {inner : Attribute → List Attribute}

/-- The look-up comes to what can be read of the attributes. -/
theorem resolve_nested (hname : k.lookupError? name = none) (hanswers : k.Answers received)
    (hreceived : received.take bufferSize = m ++ rest) (hmessage : NewLink flags as m)
    (hnested : ∀ a ∈ as, Details.Nested inner a) :
    let infos := within linkInfoType inner as
    let parameters := within kindDataType inner infos
    ((netlink.resolve name).run.run k).1 =
      if Details.Timed parameters then .ok {
        name := ((last? nameType as).bind text?).getD name
        index := k.indexFor name
        isUp := flags.toNat.testBit 0
        kind := (last? kindType infos).bind text?
        bitrate := (last? bitTimingType parameters).map word
        queueLength := (last? queueLengthType as).bind word? }
      else .error (.rejected .query localFailure) := by
  intro infos parameters
  obtain ⟨bs, hb, hi⟩ := hmessage.ofReceived? hreceived
  rw [resolve_found hname, details_read (answers_looked_up.mpr hanswers) hb hi,
    Details.ofInfo?_nested hnested]
  by_cases ht : Details.Timed parameters
  · rw [if_pos ht, if_pos ht]
    rfl
  · rw [if_neg ht, if_neg ht]
    rfl

/-- The attributes in the data of another kind are its driver's own, but those of type 1 are taken
for bit timings: too short a one fails the look-up, and the last one gives a bitrate. -/
theorem resolve_of_other_kind (hname : k.lookupError? name = none) (hanswers : k.Answers received)
    (hreceived : received.take 32768 = m ++ rest) (hmessage : NewLink flags as m)
    (hnested : ∀ a ∈ as, Details.Nested inner a)
    (hkind : (last? 1 (within 18 inner as)).bind text? ≠ some "can") :
    let parameters := within 2 inner (within 18 inner as)
    let word (a : Attribute) : UInt32 := UInt32.ofNat (LittleEndian.value (a.payload.take 4))
    let o := (netlink.resolve name).run.run k
    (o.1 = .error (.rejected .query (-5)) ↔
      ∃ p ∈ parameters, p.kind = 1 ∧ p.payload.length < 32) ∧
      ((∀ p ∈ parameters, p.kind = 1 → 32 ≤ p.payload.length) →
        ∃ l, o.1 = .ok l ∧ l.bitrate = (last? 1 parameters).map word) ∧
      ((∃ l, o.1 = .ok l ∧ l.bitrate = none) ↔ ∀ p ∈ parameters, p.kind ≠ 1) ∧
      ∀ l, o.1 = .ok l → l.kind ≠ some "can" ∧
        ∀ b k', (Link.setBitrate .netlink l b).run.run k' =
          (.error (.notCanLink l.name), k') := by
  intro parameters word o
  have hread : o.1 = if Details.Timed parameters then _ else _ :=
    resolve_nested hname hanswers hreceived hmessage hnested
  by_cases ht : Details.Timed parameters
  · rw [if_pos ht] at hread
    have hlong : ∀ p ∈ parameters, p.kind = 1 → 32 ≤ p.payload.length := ht
    rw [hread]
    refine ⟨⟨nofun, fun ⟨p, hp, hk, hshort⟩ => ?_⟩, fun _ => ⟨_, rfl, rfl⟩, ?_,
      fun l hl => ?_⟩
    · exact absurd (hlong p hp hk) (Nat.not_le.mpr hshort)
    · rw [← last?_eq_none_iff]
      constructor
      · rintro ⟨l, ⟨⟩, hl⟩
        exact Option.map_eq_none_iff.mp hl
      · exact fun hnone => ⟨_, rfl, Option.map_eq_none_iff.mpr hnone⟩
    · cases hl
      refine ⟨hkind, fun b k' => ?_⟩
      rw [Link.setBitrate_of_foreign (decide_eq_false hkind)]
      rfl
  · rw [if_neg ht] at hread
    simp only [Details.Timed, not_forall, Nat.not_le] at ht
    obtain ⟨p, hp, hk, hshort⟩ := ht
    rw [hread]
    refine ⟨⟨fun _ => ⟨p, hp, hk, hshort⟩, fun _ => rfl⟩, fun hlong => ?_, ?_, nofun⟩
    · exact absurd (hlong p hp hk) (Nat.not_le.mpr hshort)
    · constructor
      · rintro ⟨l, ⟨⟩, -⟩
      · exact fun hnone => absurd hk (hnone p hp)

end Nested

/-- The id of a VLAN has the number of the bit timing, and two bytes. -/
theorem resolve_fails_on_vlan :
    let vlan := Attribute.nested 18
      [⟨1, [0x76, 0x6C, 0x61, 0x6E, 0]⟩, Attribute.nested 2 [⟨1, LittleEndian.word16 5⟩]]
    let m := message 16 (List.replicate 10 0)
      (List.replicate 8 0 ++ LittleEndian.word32 1 ++ List.replicate 4 0 ++ vlan.bytes)
    let k : Kernel := { interfaces := [("vlan0", 5)], replies := [.bytes m] }
    ((netlink.resolve "vlan0").run.run k).1 = .error (.rejected .query (-5)) := by
  decide +kernel

/-- The kind stands behind the data. Under another number the same attribute does no harm. -/
theorem resolve_of_other_kind_of_vlan :
    let data (n : UInt16) : Attribute := ⟨2, field n [5, 0] [0, 0] ++ []⟩
    let kind : Attribute := ⟨1, [0x76, 0x6C, 0x61, 0x6E, 0]⟩
    let info (n : UInt16) : Attribute :=
      ⟨18, field 2 (data n).payload [] ++ (field 1 kind.payload [0, 0, 0] ++ [])⟩
    let m (n : UInt16) := message 16 (List.replicate 10 0)
      (List.replicate 8 0 ++ LittleEndian.word32 1 ++ List.replicate 4 0 ++
        (field 18 (info n).payload [] ++ []))
    let k (n : UInt16) : Kernel := { interfaces := [("vlan0", 5)], replies := [.bytes (m n)] }
    let o (n : UInt16) := (netlink.resolve "vlan0").run.run (k n)
    (o 1).1 = .error (.rejected .query (-5)) ∧ ∃ l, (o 3).1 = .ok l ∧ l.bitrate = none ∧
      (Link.setBitrate .netlink l 250000).run.run (o 3).2 =
        (.error (.notCanLink l.name), (o 3).2) := by
  intro data kind info m k o
  let inner (n : UInt16) (a : Attribute) : List Attribute :=
    if a.kind = 2 then [⟨n, [5, 0]⟩] else [data n, kind]
  have hdata (n : UInt16) : Laid [⟨n, [5, 0]⟩] (data n).payload :=
    .cons (by decide) (by decide) (by decide) .nil
  have hinfo (n : UInt16) : Laid [data n, kind] (info n).payload :=
    .cons (by simp [field]) (by decide) (by simp [field])
      (.cons (by decide) (by decide) (by decide) .nil)
  have hlaid (n : UInt16) : Laid [info n] (field 18 (info n).payload [] ++ []) :=
    .cons (by simp [data, field, kind]) (by decide) (by simp [data, field, kind]) .nil
  have hnested (n : UInt16) : ∀ a ∈ [info n], Details.Nested (inner n) a := by
    refine List.forall_mem_singleton.mpr ⟨fun _ => hinfo n, fun _ => ?_⟩
    show ∀ i ∈ [data n, kind], i.kind = 2 → Laid (inner n i) i.payload
    exact List.forall_mem_cons.mpr ⟨fun _ => hdata n,
      List.forall_mem_singleton.mpr fun h => absurd h (by decide)⟩
  have hmessage (n : UInt16) : NewLink 1 [info n] (m n) :=
    .intro List.length_replicate List.length_replicate List.length_replicate (hlaid n)
  have hreceived (n : UInt16) : (m n).take 32768 = m n ++ [] := by
    rw [List.append_nil]
    apply List.take_of_length_le
    simp [m, message, field, info, data, kind]
  have hanswers (n : UInt16) : (k n).Answers (m n) :=
    ⟨Int.le_refl 0, Int.le_refl 0, Int.le_refl 0, rfl⟩
  have hkind (n : UInt16) : (last? 1 (within 18 (inner n) [info n])).bind text? ≠ some "can" := by
    show kind.text? ≠ some "can"
    decide +kernel
  have hname (n : UInt16) : (k n).lookupError? "vlan0" = none := rfl
  obtain ⟨hfails, -, -, -⟩ :=
    resolve_of_other_kind (hname 1) (hanswers 1) (hreceived 1) (hmessage 1) (hnested 1) (hkind 1)
  obtain ⟨-, -, hfound, hset⟩ :=
    resolve_of_other_kind (hname 3) (hanswers 3) (hreceived 3) (hmessage 3) (hnested 3) (hkind 3)
  obtain ⟨l, hl, hrate⟩ := hfound.mpr (by decide)
  exact ⟨hfails.mpr ⟨⟨1, [5, 0]⟩, by decide, rfl, by decide⟩, l, hl, hrate,
    (hset l hl).2 _ _⟩

end Controller

end CanBus
