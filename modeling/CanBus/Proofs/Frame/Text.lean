import CanBus.Frame.Text
import CanBus.Proofs.Text.Blank
import CanBus.Proofs.Text.Hex

/-!
A frame's text read back. `parse_text` gives the frame with zeros behind its data (`zeroFilled`),
the only part of a frame that its text leaves out. A parsed frame has zeros there already, so that
`parse_text_round_trip` makes the texts of frames one canonical form for all the texts that parse.
-/

namespace CanBus

theorem Identifier.ext_raw {i j : Identifier} (hr : i.raw = j.raw)
    (hx : i.isExtended = j.isExtended) : i = j := by
  have hi := ofRaw?_raw i
  rw [hr, hx, ofRaw?_raw j] at hi
  exact (Option.some.inj hi).symm

namespace Frame

open CanBus.Text

/-! ## What a text keeps of a frame -/

/-- The frame with zeros in place of the bytes that do not count. -/
def zeroFilled (f : Frame) : Frame := ⟨f.id, f.len, Payload.ofList f.data⟩

theorem data_zeroFilled (f : Frame) : f.zeroFilled.data = f.data := by
  show (Payload.ofList f.data).bytes.take f.len = f.data
  rw [← length_data f, Payload.take_ofList (length_data_le f)]

theorem rest_zeroFilled (f : Frame) {b : UInt8}
    (h : b ∈ f.zeroFilled.payload.bytes.drop f.len) : b = 0 := by
  have hall : f.zeroFilled.payload.bytes = (f.data ++ List.replicate 8 0).take 8 := rfl
  rw [hall, ← length_data f, List.drop_take, List.drop_left] at h
  exact List.eq_of_mem_replicate (List.mem_of_mem_take h)

theorem zeroFilled_eq_iff (f g : Frame) :
    f.zeroFilled = g.zeroFilled ↔ f.id = g.id ∧ f.data = g.data := by
  constructor
  · intro h
    refine ⟨(Frame.mk.inj h).1, ?_⟩
    rw [← data_zeroFilled f, h, data_zeroFilled]
  · rintro ⟨hid, hdata⟩
    have hlen : f.len = g.len := by
      apply Fin.ext
      rw [← length_data f, hdata, length_data]
    rw [zeroFilled, zeroFilled, hid, hdata, hlen]

/-- Building a frame anew from its parts gives zeros behind the data. -/
theorem build_parts (f : Frame) : build f.id.raw f.id.isExtended f.data = .ok f.zeroFilled := by
  have hlen := length_data f
  have hlt : f.data.length < 9 := hlen ▸ f.len.isLt
  have hfin : (⟨f.data.length, hlt⟩ : Fin 9) = f.len := Fin.ext hlen
  rw [build, dif_pos hlt, Identifier.ofRaw?_raw]
  simp only [hfin, zeroFilled]

theorem zeroFilled_of_build {id : UInt32} {extended : Bool} {data : List UInt8} {f : Frame}
    (h : build id extended data = .ok f) : f.zeroFilled = f := by
  have hdata := data_of_build h
  unfold build at h
  split at h
  · split at h <;> simp only [Except.ok.injEq, reduceCtorEq] at h
    rw [zeroFilled, hdata, ← h]
  · simp at h

/-! ## The parts of a text -/

theorem mem_idDigits {i : Identifier} {ch : Char} (h : ch ∈ idDigits i) :
    ∃ d < 16, ch = Hex.digit .upper d := by
  cases i <;> exact Hex.mem_fixed h

/-- The first hash is the one between identifier and data. -/
theorem splitHash?_append {as : List Char} (h : ∀ c ∈ as, c ≠ '#') (bs : List Char) :
    splitHash? (as ++ '#' :: bs) = some (as, bs) := by
  induction as with
  | nil => rfl
  | cons a as ih =>
    have ha : a ≠ '#' := h a List.mem_cons_self
    have has := ih fun c hc => h c (List.mem_cons_of_mem _ hc)
    rw [List.cons_append, splitHash?, if_neg ha, has]
    rfl

/-- No digit is blank, and neither is the hash. -/
theorem trim_chars (f : Frame) : trim f.chars = f.chars := by
  apply trim_of_no_blank
  intro c hc
  rcases List.mem_append.mp hc with hc | hc
  · obtain ⟨d, hd, rfl⟩ := mem_idDigits hc
    exact (Hex.digit_plain _ hd).1
  · rcases List.mem_cons.mp hc with rfl | hc
    · decide
    · obtain ⟨d, hd, rfl⟩ := Hex.mem_octets hc
      exact (Hex.digit_plain _ hd).1

theorem splitHash?_chars (f : Frame) :
    splitHash? f.chars = some (idDigits f.id, Hex.octets .upper f.data) := by
  apply splitHash?_append
  intro c hc
  obtain ⟨d, hd, rfl⟩ := mem_idDigits hc
  exact (Hex.digit_plain _ hd).2.1

theorem number?_idDigits (i : Identifier) : Hex.number? (idDigits i) = some i.raw.toNat := by
  rw [Identifier.toNat_raw]
  cases i with
  | standard v => exact Hex.number?_fixed _ (by decide) (Nat.lt_of_lt_of_le v.isLt (by decide))
  | extended v => exact Hex.number?_fixed _ (by decide) (Nat.lt_of_lt_of_le v.isLt (by decide))

theorem readId?_idDigits (i : Identifier) : readId? (idDigits i) = some i.raw := by
  -- a digit is no sign, so the number is read from the first character on
  have hsign : ∀ ds, idDigits i ≠ '+' :: ds := by
    intro ds h
    obtain ⟨d, hd, heq⟩ := mem_idDigits (h ▸ List.mem_cons_self : '+' ∈ idDigits i)
    exact (Hex.digit_plain _ hd).2.2.2 heq.symm
  have hsmall : i.raw.toNat < 0x100000000 := i.raw.toNat_lt
  unfold readId?
  split
  next ds heq => exact absurd heq (hsign ds)
  next => simp only [number?_idDigits, if_pos hsmall, UInt32.ofNat_toNat]

theorem readData?_octets (bs : List UInt8) : readData? (Hex.octets .upper bs) = some bs := by
  have hdots : (Hex.octets .upper bs).filter (· ≠ '.') = Hex.octets .upper bs := by
    rw [List.filter_eq_self]
    intro c hc
    obtain ⟨d, hd, rfl⟩ := Hex.mem_octets hc
    exact decide_eq_true (Hex.digit_plain _ hd).2.2.1
  rw [readData?, hdots, Hex.octets?_octets]

/-- The count of characters and the size of the number say together what the frame's text is for. -/
theorem extended_of_idDigits (i : Identifier) :
    ((idDigits i).length = 8 || 0x7FF < i.raw) = i.isExtended := by
  cases i with
  | standard v =>
    have hsmall : ¬ 0x7FF < (Identifier.standard v).raw := by
      have hv := v.isLt
      rw [UInt32.lt_iff_toNat_lt, Identifier.toNat_raw]
      show ¬ 0x7FF < v.val
      omega
    simp [idDigits, Identifier.isExtended, hsmall]
  | extended v => simp [idDigits, Identifier.isExtended]

theorem parse_text (f : Frame) : parse f.text = .ok f.zeroFilled := by
  rw [parse, text, String.toList_ofList, trim_chars, splitHash?_chars]
  simp only [readId?_idDigits, readData?_octets, extended_of_idDigits, build_parts]

theorem zeroFilled_of_parse {s : String} {f : Frame} (h : parse s = .ok f) : f.zeroFilled = f := by
  unfold parse at h
  split at h
  · simp at h
  · split at h
    · exact zeroFilled_of_build h
    · simp at h

/-- The text of any frame parses, to the same identifier, length and data with zeros behind them;
two frames have the same text exactly if they agree on identifier and data; and a frame that was
parsed, from whatever text, is what its own text parses to. -/
theorem parse_text_round_trip :
    (∀ f : Frame, ∃ g, parse f.text = .ok g ∧ g.id.raw = f.id.raw ∧
      g.id.isExtended = f.id.isExtended ∧ g.len = f.len ∧ g.data = f.data ∧
      ∀ b ∈ g.payload.bytes.drop f.len, b = 0) ∧
    (∀ f g : Frame, f.text = g.text ↔
      f.id.raw = g.id.raw ∧ f.id.isExtended = g.id.isExtended ∧ f.data = g.data) ∧
    (∀ (s : String) (f : Frame), parse s = .ok f → parse f.text = .ok f) := by
  refine ⟨fun f => ⟨f.zeroFilled, parse_text f, rfl, rfl, rfl, data_zeroFilled f,
    fun b hb => rest_zeroFilled f hb⟩, fun f g => ⟨fun h => ?_, ?_⟩, fun s f h => ?_⟩
  · have hparse : parse f.text = .ok f.zeroFilled := parse_text f
    rw [h, parse_text g] at hparse
    obtain ⟨hid, hdata⟩ := (zeroFilled_eq_iff g f).mp (Except.ok.inj hparse)
    exact ⟨by rw [hid], by rw [hid], hdata.symm⟩
  · rintro ⟨hraw, hx, hdata⟩
    rw [text, chars, Identifier.ext_raw hraw hx, hdata]
    rfl
  · rw [parse_text, zeroFilled_of_parse h]

/-- Eight characters, the sign among them, so an extended frame. -/
theorem parse_text_of_signed :
    let f : Frame := ⟨.extended 0x1F, 2, Payload.ofList [0x0A, 0xBC]⟩
    parse "\u00a0+000001f#.0a.bC " = .ok f ∧ parse f.text = .ok f := by
  have h : parse "\u00a0+000001f#.0a.bC " =
      .ok ⟨.extended 0x1F, 2, Payload.ofList [0x0A, 0xBC]⟩ := by rfl
  exact ⟨h, parse_text_round_trip.2.2 _ _ h⟩

end Frame

end CanBus
