import CanBus.Proofs.Frame.Equality
import CanBus.Proofs.Frame.Grammar

/-!
Frames as bare fields. In a `Frame` identifier and length are bounded by their types. Here they are
words, as they are kept, and it is for whatever makes a frame to keep them small: by a test for bits
outside of a mask, by a mask, by clamping, or because the identifier came with its format.
`made_iff_kept` says that they all do, and that nothing else can be said of the fields. Main
statement: `fields_keep_promise`.
-/

namespace CanBus.Frame

open CanBus.Text

/-- The fields of a frame, with nothing to bound them. -/
structure Fields where
  id : UInt32
  extended : Bool
  len : UInt8
  payload : Payload
  deriving DecidableEq, Repr

def fields (f : Frame) : Fields := ⟨f.id.raw, f.id.isExtended, UInt8.ofNat f.len, f.payload⟩

/-- Reads a text as a frame is read from it, and makes of the parts what `make` does. -/
def readWith {α : Type} (make : UInt32 → Bool → List UInt8 → Except Failure α)
    (s : String) :
    Except Failure α :=
  match splitHash? (trim s.toList) with
  | none => .error (.unreadable s)
  | some (idPart, dataPart) =>
    match readId? idPart, readData? dataPart with
    | some id, some data => make id (idPart.length = 8 || 0x7FF < id) data
    | _, _ => .error (.unreadable s)

namespace Fields

/-- The promise: no more than eight bytes, and an identifier that fits its format. -/
structure Kept (x : Fields) : Prop where
  len : x.len.toNat ≤ 8
  id : x.id.toNat < Identifier.bound x.extended

/-! ## Ways to make them -/

def blank : Fields := ⟨0, false, 0, Payload.zero⟩

/-- Tests the length first, then the bits of the identifier that are outside of the mask. -/
def build (id : UInt32) (extended : Bool) (data : List UInt8) : Except Failure Fields :=
  if 8 < data.length then .error (.invalidLength data.length)
  else (IdWord.encode id extended).map fun _ =>
    ⟨id, extended, UInt8.ofNat data.length, Payload.ofList data⟩

/-- Masks the word and clamps the length. -/
def received (w : WireFrame) : Fields :=
  ⟨w.word.raw, w.word.isExtended, UInt8.ofNat (min w.dlc.toNat 8), w.data⟩

def ofOrigin? : Origin → Option Fields
  | .built id extended data => (build id extended data).toOption
  | .identified id data => (build id.raw id.isExtended data).toOption
  | .parsed s => (readWith build s).toOption
  | .received w => if w.word.isError then none else some (received w)

/-- Some way to come by a frame gives these fields. -/
def Made (x : Fields) : Prop := x = blank ∨ ∃ o, ofOrigin? o = some x

/-! ## Ways to look at them -/

/-- The bytes that count, if there are as many as the length says. -/
def data? (x : Fields) : Option (List UInt8) :=
  if x.len.toNat ≤ x.payload.bytes.length then some (x.payload.bytes.take x.len.toNat) else none

/-- The identifier, or that of the standard format with the value 0 if there
is none in the fields. -/
def identifier (x : Fields) : Identifier :=
  (Identifier.ofRaw? x.id x.extended).getD (.standard ⟨0, Nat.succ_pos _⟩)

end Fields

/-! ## Fields of frames -/

section Fields

variable {f : Frame} {x : Fields}

theorem toNat_len_fields (f : Frame) : f.fields.len.toNat = f.len.val := f.toNat_len

theorem fields_kept (f : Frame) : f.fields.Kept :=
  ⟨f.toNat_len_fields ▸ Nat.le_of_lt_succ f.len.isLt, f.id.raw_lt⟩

theorem exists_fields_of_kept (h : x.Kept) : ∃ f : Frame, f.fields = x := by
  obtain ⟨id, extended, len, payload⟩ := x
  obtain ⟨i, hi⟩ : ∃ i, Identifier.ofRaw? id extended = some i :=
    Option.ne_none_iff_exists'.mp (mt ofRaw?_eq_none_iff.mp (not_not_intro h.id))
  obtain ⟨hraw, hx⟩ := Identifier.raw_of_ofRaw? hi
  refine ⟨⟨i, ⟨len.toNat, Nat.lt_succ_of_le h.len⟩, payload⟩, ?_⟩
  simp only [fields, hraw, hx, UInt8.ofNat_toNat]

theorem data?_fields (f : Frame) : f.fields.data? = some f.data := by
  have hlen : f.len.val ≤ f.payload.bytes.length := by
    rw [f.payload.length_eq]
    exact Nat.le_of_lt_succ f.len.isLt
  rw [Fields.data?, toNat_len_fields]
  exact if_pos hlen

theorem ofRaw?_fields (f : Frame) : Identifier.ofRaw? f.fields.id f.fields.extended = some f.id :=
  Identifier.ofRaw?_raw f.id

theorem identifier_fields (f : Frame) : f.fields.identifier = f.id := by
  rw [Fields.identifier, ofRaw?_fields]
  rfl

/-! ## Every way makes the fields of a frame -/

theorem fields_build (id : UInt32) (extended : Bool) (data : List UInt8) :
    Fields.build id extended data = (build id extended data).map fields := by
  by_cases hlen : 8 < data.length
  · rw [Fields.build, if_pos hlen, build_of_long hlen]
    rfl
  · rw [Fields.build, if_neg hlen]
    by_cases hid : id.toNat < Identifier.bound extended
    · obtain ⟨w, hw, -⟩ := IdWord.encode_of_fits hid
      obtain ⟨f, hf⟩ := build_of_fits (Nat.le_of_not_lt hlen) hid
      obtain ⟨hraw, hx, hdata, hzeros⟩ := build_eq_ok_iff.mp hf
      have hlength : f.len.val = data.length := by rw [← length_data, hdata]
      have hpayload : f.payload = Payload.ofList data := by rw [← hzeros, zeroFilled, hdata]
      rw [hw, hf]
      simp only [Except.map, fields, hraw, hx, hlength, hpayload]
    · rw [IdWord.encode_of_not_fits hid, build_of_wide (Nat.le_of_not_lt hlen) hid]
      rfl

theorem readWith_map {α β : Type} (make : UInt32 → Bool → List UInt8 → Except Failure α)
    (g : α → β) (s : String) :
    readWith (fun id extended data => (make id extended data).map g) s =
      (readWith make s).map g := by
  unfold readWith
  split
  · rfl
  · split <;> rfl

theorem fields_parse (s : String) : readWith Fields.build s = (parse s).map fields := by
  have hbuild : Fields.build = fun id extended data => (build id extended data).map fields := by
    funext id extended data
    exact fields_build id extended data
  rw [hbuild, readWith_map]
  rfl

/-- A masked word is an identifier of the format that the word announces. -/
theorem fields_received (w : WireFrame) :
    fields ⟨w.word.identifier, w.len, w.data⟩ = Fields.received w := by
  have hx : w.word.identifier.isExtended = w.word.isExtended := by
    unfold IdWord.identifier
    cases w.word.isExtended <;> rfl
  have hraw : w.word.identifier.raw = w.word.raw := by
    rw [← UInt32.toNat_inj, IdWord.raw, IdWord.toNat_and_mask, Identifier.toNat_raw,
      IdWord.identifier]
    cases w.word.isExtended <;> rfl
  rw [fields, Fields.received, hx, hraw]
  rfl

theorem toOption_map_eq_some_iff {α β : Type} {r : Except Failure α} {g : α → β} {b : β} :
    (r.map g).toOption = some b ↔ ∃ a, r = .ok a ∧ g a = b := by
  cases r <;> simp [Except.map, Except.toOption]

theorem ofOrigin?_eq_some_iff {o : Origin} :
    Fields.ofOrigin? o = some x ↔ ∃ f, o.Yields f ∧ f.fields = x := by
  cases o with
  | built id extended data => rw [Fields.ofOrigin?, fields_build, toOption_map_eq_some_iff]; rfl
  | identified id data =>
    rw [Fields.ofOrigin?, fields_build, toOption_map_eq_some_iff]
    simp only [← ofIdentifier?_eq_some_iff_build]
    rfl
  | parsed s => rw [Fields.ofOrigin?, fields_parse, toOption_map_eq_some_iff]; rfl
  | received w =>
    rw [Fields.ofOrigin?]
    cases herr : w.word.isError with
    | true =>
      have hnone (f : Frame) : ¬ w.decode = .data f := by
        intro h
        rw [WireFrame.decode, herr] at h
        cases h
      simp [Origin.Yields, hnone]
    | false =>
      simp [Origin.Yields, WireFrame.decode_of_not_error herr, fields_received]

/-- What can be made keeps the promise, and what keeps it can be made: whatever it
is, it can be received. -/
theorem made_iff_kept : x.Made ↔ x.Kept := by
  constructor
  · rintro (rfl | ⟨o, ho⟩)
    · exact fields_kept blank
    · obtain ⟨f, -, rfl⟩ := ofOrigin?_eq_some_iff.mp ho
      exact fields_kept f
  · intro h
    obtain ⟨f, rfl⟩ := exists_fields_of_kept h
    exact .inr ⟨.received (WireFrame.ofFrame f),
      ofOrigin?_eq_some_iff.mpr ⟨f, WireFrame.decode_ofFrame f, rfl⟩⟩

/-! ## Identifiers that come with their format -/

theorem ofRaw?_isSome_iff {id : UInt32} {extended : Bool} :
    (Identifier.ofRaw? id extended).isSome ↔ ∃ w, IdWord.encode id extended = .ok w := by
  rw [Option.isSome_iff_ne_none, ne_eq, ofRaw?_eq_none_iff, not_not]
  constructor
  · intro h
    obtain ⟨w, hw, -⟩ := IdWord.encode_of_fits h
    exact ⟨w, hw⟩
  · rintro ⟨w, hw⟩
    by_contra h
    rw [IdWord.encode_of_not_fits h] at hw
    cases hw

theorem ofIdentifier?_eq_some_iff {i : Identifier} {data : List UInt8} :
    ofIdentifier? i data = some f ↔ f.id = i ∧ f.data = data ∧ f.zeroFilled = f := by
  rw [ofIdentifier?_eq_some_iff_build, build_eq_ok_iff]
  constructor
  · rintro ⟨hraw, hx, hrest⟩
    exact ⟨Identifier.ext_raw hraw hx, hrest⟩
  · rintro ⟨rfl, hrest⟩
    exact ⟨rfl, rfl, hrest⟩

theorem exists_ofIdentifier?_iff {i : Identifier} {data : List UInt8} :
    (∃ f, ofIdentifier? i data = some f) ↔ data.length ≤ 8 := by
  constructor
  · rintro ⟨f, hf⟩
    obtain ⟨-, rfl, -⟩ := ofIdentifier?_eq_some_iff.mp hf
    exact length_data_le f
  · intro h
    obtain ⟨f, hf⟩ := build_of_fits h i.raw_lt
    exact ⟨f, by rw [ofIdentifier?, hf]; rfl⟩

end Fields

/-- Bare fields come about and are looked at just as frames are, and only those with eight bytes at
most and an identifier that fits come about at all. -/
theorem fields_keep_promise :
    (Fields.blank = blank.fields ∧
      (∀ o x, Fields.ofOrigin? o = some x ↔ ∃ f, o.Yields f ∧ f.fields = x) ∧
      ∀ f : Frame, f.fields.data? = some f.data ∧ f.fields.identifier = f.id) ∧
    (∀ x : Fields, x.Made ↔
      x.len.toNat ≤ 8 ∧ x.id.toNat < if x.extended then 0x20000000 else 0x800) ∧
    (∀ x : Fields, x.Made → ∃ data, x.data? = some data ∧ data.length = x.len.toNat ∧
      Identifier.ofRaw? x.id x.extended = some x.identifier ∧
      x.identifier.raw = x.id ∧ x.identifier.isExtended = x.extended ∧
      ∃ g, ofIdentifier? x.identifier data = some g ∧
        g.fields.id = x.id ∧ g.fields.extended = x.extended ∧ g.fields.data? = some data) ∧
    (∀ i data, ((∃ f, ofIdentifier? i data = some f) ↔ data.length ≤ 8) ∧
      ∀ f, ofIdentifier? i data = some f → f.id = i ∧ f.data = data) ∧
    ∀ id extended, (Identifier.ofRaw? id extended).isSome ↔
      ∃ w, IdWord.encode id extended = .ok w := by
  refine ⟨⟨rfl, fun o x => ofOrigin?_eq_some_iff,
    fun f => ⟨data?_fields f, identifier_fields f⟩⟩,
    fun x => made_iff_kept.trans ⟨fun h => ⟨h.len, h.id⟩, fun h => ⟨h.1, h.2⟩⟩,
    fun x hx => ?_, fun i data => ⟨exists_ofIdentifier?_iff, fun f hf => ?_⟩,
    fun id extended => ofRaw?_isSome_iff⟩
  · obtain ⟨f, rfl⟩ := exists_fields_of_kept (made_iff_kept.mp hx)
    have hmade : ∃ g, ofIdentifier? f.id f.data = some g :=
      exists_ofIdentifier?_iff.mpr (length_data_le f)
    obtain ⟨g, hg⟩ := hmade
    obtain ⟨hid, hdata, -⟩ := ofIdentifier?_eq_some_iff.mp hg
    refine ⟨f.data, data?_fields f, by rw [length_data, toNat_len_fields], ?_⟩
    rw [identifier_fields]
    refine ⟨ofRaw?_fields f, rfl, rfl, g, hg, congrArg Identifier.raw hid,
      congrArg Identifier.isExtended hid, ?_⟩
    rw [data?_fields, hdata]
  · obtain ⟨hid, hdata, -⟩ := ofIdentifier?_eq_some_iff.mp hf
    exact ⟨hid, hdata⟩

/-- Beyond the promise the number is no identifier, and the length reaches behind the payload. -/
example : (⟨0x800, false, 9, Payload.zero⟩ : Fields).data? = none ∧
    Identifier.ofRaw? 0x800 false = none := by decide

end CanBus.Frame
