import CanBus.Proofs.Netlink.Details
import CanBus.Proofs.Netlink.Received

/-!
What messages hold: the fields of a request, and the flags and attributes of a
link (`NewLink.ofReceived?`).
-/

namespace CanBus.Netlink

/-! ## Requests -/

namespace Request

variable (r : Request)

theorem bytes_eq_message : r.bytes =
    message r.kind.toNat (LittleEndian.word16 r.flags ++ List.replicate 8 0) r.body := by
  simp only [bytes, message, LittleEndian.word16, List.append_assoc]

/-- All that stands before the index. -/
def start : List UInt8 :=
  LittleEndian.bytes 4 (16 + r.body.length) ++ LittleEndian.word16 r.kind ++
    (LittleEndian.word16 r.flags ++ List.replicate 8 0 ++ [0, 0, 0, 0])

theorem length_start : r.start.length = 20 := by
  simp [start]

theorem bytes_eq : r.bytes = r.start ++ (LittleEndian.word32 r.index ++
    (LittleEndian.word32 r.interfaceFlags ++ (LittleEndian.word32 r.changeMask ++
      Attribute.bytesAll r.attributes))) := by
  simp only [bytes, body, start, List.append_assoc]

theorem take_length : r.bytes.take 4 = LittleEndian.bytes 4 r.bytes.length := by
  have hlength : r.bytes.length = 16 + r.body.length := by
    rw [bytes_eq_message]
    exact length_message _ (by simp) _
  rw [hlength, bytes]
  simp only [List.append_assoc]
  exact List.take_left' (LittleEndian.length_bytes 4 _)

theorem kind_field : (r.bytes.drop 4).take 2 = LittleEndian.word16 r.kind := by
  rw [bytes_eq_message]
  exact kind_message _ _ _

theorem index_field : (r.bytes.drop 20).take 4 = LittleEndian.word32 r.index := by
  rw [bytes_eq]
  exact LittleEndian.take_drop_field r.length_start (LittleEndian.length_word32 _)

theorem flags_field : (r.bytes.drop 24).take 4 = LittleEndian.word32 r.interfaceFlags := by
  rw [bytes_eq, ← List.append_assoc]
  exact LittleEndian.take_drop_field (by simp [length_start]) (LittleEndian.length_word32 _)

theorem mask_field : (r.bytes.drop 28).take 4 = LittleEndian.word32 r.changeMask := by
  rw [bytes_eq, ← List.append_assoc, ← List.append_assoc]
  exact LittleEndian.take_drop_field (by simp [length_start]) (LittleEndian.length_word32 _)

theorem drop_attributes : r.bytes.drop 32 = Attribute.bytesAll r.attributes := by
  rw [bytes_eq, ← List.append_assoc, ← List.append_assoc, ← List.append_assoc]
  exact List.drop_left' (by simp [length_start])

end Request

/-! ## Messages about links -/

/-- A message of type 16 with the flags and attributes of a link. All else in its two headers may be
anything. -/
inductive NewLink (flags : UInt32) (as : List Attribute) : List UInt8 → Prop
  | intro {header interface mask attributes : List UInt8} (hheader : header.length = 10)
      (hinterface : interface.length = 8) (hmask : mask.length = 4)
      (hlaid : Attribute.Laid as attributes) :
      NewLink flags as
        (message 16 header (interface ++ LittleEndian.word32 flags ++ mask ++ attributes))

theorem InterfaceInfo.parse?_fields {flags : UInt32} {as : List Attribute}
    {interface mask attributes : List UInt8} (hinterface : interface.length = 8)
    (hmask : mask.length = 4) (hlaid : Attribute.Laid as attributes) :
    parse? (interface ++ LittleEndian.word32 flags ++ mask ++ attributes) =
      some ⟨flags, as⟩ := by
  have hhead : (interface ++ LittleEndian.word32 flags ++ mask).length = 16 := by
    simp [hinterface, hmask]
  have hlong : ¬ (interface ++ LittleEndian.word32 flags ++ mask ++ attributes).length < 16 := by
    rw [List.length_append, hhead]
    exact Nat.not_lt.mpr (Nat.le_add_right _ _)
  have hflags : ((interface ++ LittleEndian.word32 flags ++ mask ++ attributes).drop 8).take 4 =
      LittleEndian.word32 flags := by
    rw [List.append_assoc, List.append_assoc]
    exact LittleEndian.take_drop_field hinterface (LittleEndian.length_word32 _)
  rw [parse?, if_neg hlong, hflags, LittleEndian.value_word32, UInt32.ofNat_toNat,
    List.drop_left' hhead, hlaid.parseAll?]
  rfl

/-- The flags and attributes of a link, in the body of a message. -/
def LinkBody (flags : UInt32) (as : List Attribute) (body : List UInt8) : Prop :=
  ∃ interface mask attributes, interface.length = 8 ∧ mask.length = 4 ∧
    Attribute.Laid as attributes ∧
      body = interface ++ LittleEndian.word32 flags ++ mask ++ attributes

theorem LinkBody.length_mod {flags : UInt32} {as : List Attribute} {body : List UInt8}
    (h : LinkBody flags as body) : body.length % 4 = 0 := by
  obtain ⟨interface, mask, attributes, hinterface, hmask, hlaid, rfl⟩ := h
  have hpadded := hlaid.length_mod
  simp only [List.length_append, LittleEndian.length_word32, hinterface, hmask]
  omega

theorem InterfaceInfo.parse?_eq_some_iff {flags : UInt32} {as : List Attribute}
    {body : List UInt8} :
    parse? body = some ⟨flags, as⟩ ↔ LinkBody flags as body := by
  constructor
  · intro h
    rw [parse?] at h
    by_cases hshort : body.length < 16
    · rw [if_pos hshort] at h
      cases h
    rw [if_neg hshort] at h
    obtain ⟨attributes, hparse, hinfo⟩ := Option.map_eq_some_iff.mp h
    cases hinfo
    have hlaid := Attribute.laid_of_parseAll? hparse
    have hflags : ((body.drop 8).take 4).length = 4 := by
      rw [List.length_take, List.length_drop]
      omega
    refine ⟨body.take 8, (body.take 16).drop 12, body.drop 16, ?_, ?_, hlaid, ?_⟩
    · rw [List.length_take]
      omega
    · rw [List.length_drop, List.length_take]
      omega
    · have hslice : (body.drop 8).take 4 = (body.take 12).drop 8 :=
        (List.drop_take (i := 8) (j := 12)).symm
      rw [LittleEndian.word32_value hflags, hslice, LittleEndian.take_append_slice (by decide),
        LittleEndian.take_append_slice (by decide), List.take_append_drop]
  · rintro ⟨interface, mask, attributes, hinterface, hmask, hlaid, rfl⟩
    exact parse?_fields hinterface hmask hlaid

theorem NewLink.ofReceived? {flags : UInt32} {as : List Attribute} {received m rest : List UInt8}
    (hm : NewLink flags as m) (hr : received.take bufferSize = m ++ rest) :
    ∃ bs, Body.ofReceived? received = some (.payload bs) ∧
      InterfaceInfo.parse? bs = some ⟨flags, as⟩ := by
  obtain ⟨hheader, hinterface, hmask, hlaid⟩ := hm
  have hbody : LinkBody flags as _ := ⟨_, _, _, hinterface, hmask, hlaid, rfl⟩
  exact ⟨_, Body.ofReceived?_message hr (by decide) hheader hbody.length_mod,
    InterfaceInfo.parse?_eq_some_iff.mpr hbody⟩

end CanBus.Netlink
