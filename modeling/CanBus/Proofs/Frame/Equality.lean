import CanBus.Proofs.Frame.Canonical

/-!
When frames are equal. Apart from identifier and data the bytes behind the data count as well,
although they are not for anyone to read. They are zeros wherever a frame comes from but for one: a
received frame has there what the kernel has left. Main statement: `eq_by_origin`.
-/

namespace CanBus.Frame

/-- The bytes of the payload behind the data. -/
def rest (f : Frame) : List UInt8 := f.payload.bytes.drop f.len

/-- Frames that say the same on the bus. -/
structure SameContent (f g : Frame) : Prop where
  raw : f.id.raw = g.id.raw
  extended : f.id.isExtended = g.id.isExtended
  data : f.data = g.data

/-- The ways to come by a frame. -/
inductive Origin
  | built (id : UInt32) (extended : Bool) (data : List UInt8)
  | identified (id : Identifier) (data : List UInt8)
  | parsed (s : String)
  | received (w : WireFrame)

namespace Origin

def Yields : Origin → Frame → Prop
  | built id extended data, f => build id extended data = .ok f
  | identified id data, f => ofIdentifier? id data = some f
  | parsed s, f => parse s = .ok f
  | received w, f => w.decode = .data f

/-- What such a frame has behind its data. -/
def rest : Origin → Nat → List UInt8
  | received w, len => w.data.bytes.drop len
  | _, len => List.replicate (8 - len) 0

def isReceived : Origin → Bool
  | received _ => true
  | _ => false

end Origin

section Equality

variable {f g : Frame}

theorem data_append_rest (f : Frame) : f.data ++ f.rest = f.payload.bytes :=
  List.take_append_drop _ _

theorem SameContent.len (h : SameContent f g) : f.len = g.len := by
  apply Fin.ext
  rw [← length_data f, h.data, length_data]

theorem eq_iff_rest : f = g ↔ SameContent f g ∧ f.rest = g.rest := by
  constructor
  · rintro rfl
    exact ⟨⟨rfl, rfl, rfl⟩, rfl⟩
  · rintro ⟨h, hrest⟩
    have hid : f.id = g.id := Identifier.ext_raw h.raw h.extended
    have hbytes : f.payload.bytes = g.payload.bytes := by
      rw [← data_append_rest f, h.data, hrest, data_append_rest g]
    have hpayload : f.payload = g.payload := Payload.ext_bytes hbytes
    have hlen := h.len
    cases f
    cases g
    cases hid
    cases hlen
    cases hpayload
    rfl

theorem rest_of_zeroFilled (h : f.zeroFilled = f) : f.rest = List.replicate (8 - f.len) 0 := by
  refine List.eq_replicate_iff.mpr ⟨?_, fun b hb => ?_⟩
  · rw [rest, List.length_drop, f.payload.length_eq]
  · rw [rest, ← h] at hb
    exact rest_zeroFilled f hb

theorem ofIdentifier?_eq_some_iff_build {i : Identifier} {data : List UInt8} :
    ofIdentifier? i data = some f ↔ build i.raw i.isExtended data = .ok f := by
  rw [ofIdentifier?]
  cases build i.raw i.isExtended data <;> simp [Except.toOption]

theorem eq_of_decode {w : WireFrame} (h : w.decode = .data f) :
    f = ⟨w.word.identifier, w.len, w.data⟩ := by
  unfold WireFrame.decode at h
  split at h
  · cases h
  · cases h
    rfl

/-- A frame that wasn't received has zeros behind its data. -/
theorem Origin.Yields.rest_eq {o : Origin} (h : o.Yields f) : f.rest = o.rest f.len := by
  cases o with
  | built id extended data => exact rest_of_zeroFilled (zeroFilled_of_build h)
  | identified id data =>
    exact rest_of_zeroFilled (zeroFilled_of_build (ofIdentifier?_eq_some_iff_build.mp h))
  | parsed s => exact rest_of_zeroFilled (zeroFilled_of_parse h)
  | received w => rw [eq_of_decode h]; rfl

theorem rest_of_full (h : f.len.val = 8) : f.rest = [] := by
  rw [rest, h]
  exact List.drop_eq_nil_of_le (Nat.le_of_eq f.payload.length_eq)

/-- The frame with one byte behind its data, if there is room for it. -/
def withStale (f : Frame) (b : UInt8) : Frame := ⟨f.id, f.len, Payload.ofList (f.data ++ [b])⟩

theorem bytes_withStale (h : f.len.val < 8) (b : UInt8) :
    (f.withStale b).payload.bytes =
      f.data ++ [b] ++ List.replicate (8 - (f.data ++ [b]).length) 0 := by
  have hlen : (f.data ++ [b]).length ≤ 8 := by
    rw [List.length_append, length_data, List.length_singleton]
    exact h
  exact Payload.bytes_ofList hlen

theorem sameContent_withStale (h : f.len.val < 8) (b : UInt8) : SameContent f (f.withStale b) := by
  refine ⟨rfl, rfl, ?_⟩
  show f.data = (f.withStale b).payload.bytes.take f.len
  rw [bytes_withStale h, List.append_assoc, ← length_data f, List.take_left]

theorem withStale_injective (h : f.len.val < 8) {a b : UInt8}
    (hab : f.withStale a = f.withStale b) :
    a = b := by
  have hbytes := congrArg (fun g => g.payload.bytes) hab
  simp only [bytes_withStale h, List.append_assoc] at hbytes
  exact (List.cons.inj (List.append_cancel_left hbytes)).1

end Equality

/-- Only frames that are received can hold anything but zeros behind their data, so only then does
equality see more than identifier and data. -/
theorem eq_by_origin (a b : Origin) (f g : Frame) (hf : a.Yields f) (hg : b.Yields g) :
    (f = g ↔ SameContent f g ∧ a.rest f.len = b.rest g.len) ∧
    (a.isReceived = false → b.isReceived = false → (f = g ↔ SameContent f g)) ∧
    (b.isReceived = false → (f = g ↔ SameContent f g ∧ ∀ x ∈ a.rest f.len, x = 0)) ∧
    ((∀ w h, (Origin.received w).Yields h → (f = h ↔ SameContent f h)) ↔
      f.len.val = 8) := by
  have hrest : f = g ↔ SameContent f g ∧ a.rest f.len = b.rest g.len := by
    rw [eq_iff_rest, hf.rest_eq, hg.rest_eq]
  have hzeros {o : Origin} (ho : o.isReceived = false) (n : Nat) : o.rest n =
      List.replicate (8 - n) 0 := by
    cases o with
    | received w => cases ho
    | built | identified | parsed => rfl
  refine ⟨hrest, fun ha hb => ?_, fun hb => ?_, fun h => ?_, fun h w g hg => ?_⟩
  · rw [hrest, hzeros ha, hzeros hb]
    exact ⟨fun h => h.1, fun h => ⟨h, by rw [h.len]⟩⟩
  · have hlength : (a.rest f.len).length = 8 - f.len := by
      rw [← hf.rest_eq, rest, List.length_drop, f.payload.length_eq]
    rw [hrest, hzeros hb]
    refine and_congr_right fun h => ?_
    rw [← h.len, List.eq_replicate_iff]
    exact ⟨fun h => h.2, fun h => ⟨hlength, h⟩⟩
  · -- a frame with room behind its data would equal two frames that differ there
    by_contra hne
    have hlt : f.len.val < 8 := by
      have := f.len.isLt
      omega
    have hstale (b : UInt8) : f = f.withStale b :=
      (h _ _ (WireFrame.decode_ofFrame (f.withStale b))).mpr (sameContent_withStale hlt b)
    exact absurd (withStale_injective hlt ((hstale 0).symm.trans (hstale 1))) (by decide)
  · have hg' : SameContent f g → g.rest = [] := fun hs => rest_of_full (hs.len ▸ h)
    rw [eq_iff_rest, rest_of_full h]
    exact ⟨fun h => h.1, fun hs => ⟨hs, (hg' hs).symm⟩⟩

/-- A frame with one data byte, received with another one behind it and read from a text. -/
theorem eq_by_origin_of_stale :
    let w : WireFrame := ⟨⟨0x123⟩, 1, Payload.ofList [0x01, 0xFF]⟩
    let f : Frame := ⟨.standard 0x123, 1, Payload.ofList [0x01, 0xFF]⟩
    let g : Frame := ⟨.standard 0x123, 1, Payload.ofList [0x01]⟩
    ((Origin.received w).Yields f ∧ (Origin.parsed "123#01").Yields g) ∧ SameContent f g ∧
      f ≠ g := by
  intro w f g
  have hf : w.decode = .data f := by decide
  have hg : parse "123#01" = .ok g := by rfl
  obtain ⟨-, -, hzeros, -⟩ := eq_by_origin (.received w) (.parsed "123#01") f g hf hg
  refine ⟨⟨hf, hg⟩, ⟨rfl, rfl, rfl⟩, fun h => ?_⟩
  exact absurd (((hzeros rfl).mp h).2 0xFF (by decide)) (by decide)

/-- Content alone doesn't decide: the bytes behind the data make frames differ that say the same. -/
theorem stale_bytes_differ :
    ¬ ∀ (a b : Origin) (f g : Frame), a.Yields f → b.Yields g →
      (f = g ↔ SameContent f g) := by
  intro h
  let f (stale : UInt8) : Frame := ⟨.standard 0x123, 1, Payload.ofList [0x01, stale]⟩
  have hf (stale : UInt8) : (WireFrame.ofFrame (f stale)).decode = .data (f stale) :=
    WireFrame.decode_ofFrame (f stale)
  have heq : f 0 = f 0xFF :=
    (h (.received _) (.received _) _ _ (hf 0) (hf 0xFF)).mpr ⟨rfl, rfl, rfl⟩
  exact absurd heq (by decide)

end CanBus.Frame
