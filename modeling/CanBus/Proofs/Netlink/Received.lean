import CanBus.Netlink.Message
import CanBus.Proofs.Netlink.Attribute

/-!
Messages as they are received: a header, of which only length and type matter, and the body. Of
whatever is received, either nothing can be read or it opens with a message that `Says` something
(`ofReceived?_iff_says`).
-/

namespace CanBus.Netlink

/-- A message of a type. The header goes on behind length and type. -/
def message (kind : Nat) (header body : List UInt8) : List UInt8 :=
  LittleEndian.bytes 4 (16 + body.length) ++ LittleEndian.bytes 2 kind ++ header ++ body

theorem length_message (kind : Nat) {header : List UInt8} (hheader : header.length = 10)
    (body : List UInt8) : (message kind header body).length = 16 + body.length := by
  simp only [message, List.length_append, LittleEndian.length_bytes, hheader]

theorem take_message (kind : Nat) (header body rest : List UInt8) :
    (message kind header body ++ rest).take 4 = LittleEndian.bytes 4 (16 + body.length) := by
  simp only [message, List.append_assoc]
  exact List.take_left' (LittleEndian.length_bytes 4 _)

theorem kind_message (kind : Nat) (header body : List UInt8) :
    ((message kind header body).drop 4).take 2 = LittleEndian.bytes 2 kind := by
  simp only [message, List.append_assoc]
  exact LittleEndian.take_drop_field (LittleEndian.length_bytes 4 _) (LittleEndian.length_bytes 2 _)

theorem drop_message (kind : Nat) {header : List UInt8} (hheader : header.length = 10)
    (body : List UInt8) : (message kind header body).drop 16 = body :=
  List.drop_left' (by simp [hheader])

/-- What is as long as its first four bytes say is a message. -/
theorem eq_message {m : List UInt8} (h16 : 16 ≤ m.length)
    (h : LittleEndian.value (m.take 4) = m.length) :
    m = message (LittleEndian.value ((m.drop 4).take 2)) ((m.take 16).drop 6) (m.drop 16) := by
  have hlength : 16 + (m.drop 16).length = m.length := by
    rw [List.length_drop]
    omega
  have hfirst : LittleEndian.bytes 4 m.length = m.take 4 := by
    rw [← h]
    apply LittleEndian.bytes_value_of_length
    rw [List.length_take]
    omega
  have hsecond : LittleEndian.bytes 2 (LittleEndian.value ((m.drop 4).take 2)) =
      (m.take 6).drop 4 := by
    have htwo : ((m.drop 4).take 2).length = 2 := by
      rw [List.length_take, List.length_drop]
      omega
    rw [LittleEndian.bytes_value_of_length htwo]
    exact (List.drop_take (i := 4) (j := 6)).symm
  rw [message, hlength, hfirst, hsecond, LittleEndian.take_append_slice (by decide),
    LittleEndian.take_append_slice (by decide), List.take_append_drop]

/-! ## Received messages -/

/-- The buffer, all zeros at first, once something is received into it. -/
def buffered (received : List UInt8) : List UInt8 :=
  (received ++ List.replicate bufferSize 0).take bufferSize

/-- What is received opens with a message of a type, which may go on into the zeros behind it. -/
structure Opens (received : List UInt8) (kind : Nat) (body : List UInt8) : Prop where
  nonempty : received ≠ []
  kind_lt : kind < 0x10000
  opens : ∃ header rest, header.length = 10 ∧
    buffered received = message kind header body ++ rest

section Received

variable {received body : List UInt8} {kind : Nat} {b : Body}

theorem length_buffered (received : List UInt8) : (buffered received).length = bufferSize := by
  rw [buffered, List.length_take, List.length_append, List.length_replicate]
  omega

/-- However many zeros there are, as long as they are enough. -/
theorem take_buffered {n zeros : Nat} (hn : n ≤ bufferSize) (hz : n ≤ received.length + zeros) :
    (received ++ List.replicate zeros 0).take n = (buffered received).take n := by
  have hzeros : min (n - received.length) zeros = min (n - received.length) bufferSize := by omega
  rw [buffered, List.take_take, Nat.min_eq_left hn, List.take_append, List.take_append,
    List.take_replicate, List.take_replicate, hzeros]

theorem take_four (received : List UInt8) :
    (received ++ List.replicate 4 0).take 4 = (buffered received).take 4 :=
  take_buffered (by decide) (Nat.le_add_left _ _)

/-- What doesn't fit in the buffer is not received. -/
theorem buffered_take (received : List UInt8) :
    buffered (received.take bufferSize) = buffered received := by
  have hzeros : bufferSize - min bufferSize received.length = bufferSize - received.length := by
    omega
  rw [buffered, buffered, List.take_append, List.take_append, List.take_take, Nat.min_self,
    List.length_take, hzeros]

/-- The message is as long as its first four bytes say. -/
theorem opens_iff :
    let len := LittleEndian.value ((buffered received).take 4)
    let m := (buffered received).take len
    Opens received kind body ↔ received ≠ [] ∧ 16 ≤ len ∧ len ≤ bufferSize ∧
      LittleEndian.value ((m.drop 4).take 2) = kind ∧ m.drop 16 = body := by
  intro len m
  constructor
  · rintro ⟨hne, hkind, header, rest, hheader, hopens⟩
    have hlength := length_message kind hheader body
    have hsize : 16 + body.length ≤ bufferSize := by
      have hl := congrArg List.length hopens
      rw [length_buffered, List.length_append, hlength] at hl
      omega
    have hlen : len = 16 + body.length := by
      show LittleEndian.value ((buffered received).take 4) = _
      rw [hopens, take_message, LittleEndian.value_bytes]
      exact Nat.mod_eq_of_lt (Nat.lt_of_le_of_lt hsize (by decide))
    have hm : m = message kind header body := by
      show (buffered received).take len = _
      rw [hopens, hlen]
      exact List.take_left' hlength
    refine ⟨hne, hlen ▸ Nat.le_add_right _ _, hlen ▸ hsize, ?_, ?_⟩
    · rw [hm, kind_message, LittleEndian.value_bytes]
      exact Nat.mod_eq_of_lt hkind
    · rw [hm, drop_message kind hheader]
  · rintro ⟨hne, h16, hsize, rfl, rfl⟩
    have hlength : m.length = len := by
      rw [List.length_take, length_buffered, Nat.min_eq_left hsize]
    have hfirst : m.take 4 = (buffered received).take 4 := by
      rw [List.take_take, Nat.min_eq_left (Nat.le_trans (by decide) h16)]
    have hm := eq_message (hlength ▸ h16) (hfirst ▸ hlength.symm)
    have hlt : LittleEndian.value ((m.drop 4).take 2) < 0x10000 := by
      have hbound := LittleEndian.value_lt ((m.drop 4).take 2)
      have htwo : ((m.drop 4).take 2).length = 2 := by
        rw [List.length_take, List.length_drop]
        omega
      rwa [htwo] at hbound
    refine ⟨hne, hlt, (m.take 16).drop 6, (buffered received).drop len, ?_, ?_⟩
    · rw [List.length_drop, List.length_take, hlength]
      omega
    · rw [← hm]
      exact (List.take_append_drop len _).symm

/-- There is no more than one such message. -/
theorem Opens.unique {kind' : Nat} {body' : List UInt8} (h : Opens received kind body)
    (h' : Opens received kind' body') : kind = kind' ∧ body = body' := by
  obtain ⟨-, -, -, hkind, hbody⟩ := opens_iff.mp h
  obtain ⟨-, -, -, hkind', hbody'⟩ := opens_iff.mp h'
  exact ⟨hkind.symm.trans hkind', hbody.symm.trans hbody'⟩

/-- Padding belongs to the message, so that its length has to be a multiple of four, except for an
acknowledgement. -/
theorem Body.ofReceived?_of_opens (h : Opens received kind body) :
    ofReceived? received = (ofType? kind body).filter fun b => b = .ack || body.length % 4 = 0 := by
  obtain ⟨hne, h16, hsize, hkind, hbody⟩ := opens_iff.mp h
  rw [ofReceived?, take_four]
  generalize LittleEndian.value ((buffered received).take 4) = len at *
  have hread : ¬ (received = [] ∨ len < 16 ∨ bufferSize < len) := by
    simp only [hne, false_or, not_or, Nat.not_lt]
    exact ⟨h16, hsize⟩
  -- the zeros that complete the message are those of the buffer
  have hcut : (received.take bufferSize ++
      List.replicate (len - (received.take bufferSize).length) 0).take len =
        (buffered received).take len := by
    rw [take_buffered hsize (by omega), buffered_take]
  have hmod : len % 4 = body.length % 4 := by
    rw [← hbody, List.length_drop, List.length_take, length_buffered, Nat.min_eq_left hsize]
    omega
  rw [if_neg hread]
  dsimp only
  rw [hcut, hkind, hbody, hmod]

theorem Body.ofReceived?_eq_some_iff :
    ofReceived? received = some b ↔
      ∃ kind body, Opens received kind body ∧ ofType? kind body = some b ∧
        (b = .ack ∨ body.length % 4 = 0) := by
  constructor
  · intro h
    obtain ⟨kind, body, hopens⟩ : ∃ kind body, Opens received kind body := by
      rw [ofReceived?, take_four] at h
      by_cases hread : received = [] ∨ LittleEndian.value ((buffered received).take 4) < 16 ∨
          bufferSize < LittleEndian.value ((buffered received).take 4)
      · rw [if_pos hread] at h
        cases h
      · simp only [not_or, Nat.not_lt] at hread
        exact ⟨_, _, opens_iff.mpr ⟨hread.1, hread.2.1, hread.2.2, rfl, rfl⟩⟩
    rw [ofReceived?_of_opens hopens, Option.filter_eq_some_iff] at h
    exact ⟨kind, body, hopens, h.1, by simpa using h.2⟩
  · rintro ⟨kind, body, hopens, hb, hends⟩
    rw [ofReceived?_of_opens hopens, hb]
    exact Option.filter_eq_some_iff.mpr ⟨rfl, by simpa using hends⟩

/-- A message that is there as a whole needs no zeros. -/
theorem opens_message {header rest : List UInt8}
    (hr : received.take bufferSize = message kind header body ++ rest) (hkind : kind < 0x10000)
    (hheader : header.length = 10) : Opens received kind body := by
  have hlength := length_message kind hheader body
  refine ⟨?_, hkind, header, rest ++ List.replicate (bufferSize - received.length) 0,
    hheader, ?_⟩
  · rintro rfl
    have hnil := (List.append_eq_nil_iff.mp hr.symm).1
    rw [hnil, List.length_nil] at hlength
    omega
  · rw [buffered, List.take_append, hr, List.take_replicate, Nat.min_eq_left (Nat.sub_le _ _),
      List.append_assoc]

/-- As it stands, if padding would add nothing to it. -/
theorem Body.ofReceived?_message {header rest : List UInt8}
    (hr : received.take bufferSize = message kind header body ++ rest) (hkind : kind < 0x10000)
    (hheader : header.length = 10) (hmod : body.length % 4 = 0) :
    ofReceived? received = ofType? kind body := by
  rw [ofReceived?_of_opens (opens_message hr hkind hheader)]
  simp only [hmod, decide_true, Bool.or_true]
  cases ofType? kind body <;> rfl

end Received

/-! ## What messages say -/

section Types

variable {received body : List UInt8} {kind : Nat} {b : Body}

/-- What is received opens with an error message: a code, the header of the request that it
answers, and what else there is. It has to be a multiple of four in length unless it is an
acknowledgement, of code 0. -/
structure Reports (received : List UInt8) (code : Int32) (rest : List UInt8) : Prop where
  opens : ∃ quoted, quoted.length = 16 ∧
    Opens received 2 (LittleEndian.word32 code.toUInt32 ++ quoted ++ rest)
  ends : code = 0 ∨ rest.length % 4 = 0

theorem bmod_word32 (code : Int32) :
    Int.bmod (LittleEndian.value (LittleEndian.word32 code.toUInt32)) 0x100000000 = code.toInt := by
  rw [LittleEndian.value_word32]
  exact (BitVec.toInt_eq_toNat_bmod code.toBitVec).symm

/-- Any four bytes are a code. -/
theorem exists_word32 {bs : List UInt8} (h : bs.length = 4) :
    ∃ code : Int32, bs = LittleEndian.word32 code.toUInt32 := by
  refine ⟨(UInt32.ofNat (LittleEndian.value bs)).toInt32, ?_⟩
  rw [UInt32.toUInt32_toInt32, LittleEndian.word32_value h]

/-- The body of an error message. -/
def Body.ofCode (code : Int32) (rest : List UInt8) : Body :=
  if code = 0 then .ack else .refused code.toInt rest

theorem Body.ofCode_eq_ack_iff {code : Int32} {rest : List UInt8} :
    ofCode code rest = .ack ↔ code = 0 := by
  unfold ofCode
  split <;> simp [*]

theorem Body.ofType?_error {code : Int32} {quoted : List UInt8} (hquoted : quoted.length = 16)
    (rest : List UInt8) :
    ofType? 2 (LittleEndian.word32 code.toUInt32 ++ quoted ++ rest) = some (ofCode code rest) := by
  have hhead : (LittleEndian.word32 code.toUInt32 ++ quoted).length = 20 := by simp [hquoted]
  have hlong : ¬ (LittleEndian.word32 code.toUInt32 ++ quoted ++ rest).length < 20 := by
    rw [List.length_append, hhead]
    exact Nat.not_lt.mpr (Nat.le_add_right _ _)
  have hcode : (LittleEndian.word32 code.toUInt32 ++ quoted ++ rest).take 4 =
      LittleEndian.word32 code.toUInt32 := by
    rw [List.append_assoc]
    exact List.take_left' (LittleEndian.length_word32 _)
  simp only [ofType?, if_neg hlong, hcode, bmod_word32, List.drop_left' hhead]
  have hzero : code.toInt = 0 ↔ code = 0 := by
    rw [← Int32.toInt_zero, Int32.toInt_inj]
  simp only [ofCode, hzero]

theorem Body.exists_ofCode (h : ofType? 2 body = some b) :
    ∃ code quoted rest, List.length quoted = 16 ∧
      body = LittleEndian.word32 (Int32.toUInt32 code) ++ quoted ++ rest ∧
      b = ofCode code rest := by
  have hlong : ¬ body.length < 20 := by
    intro hshort
    simp only [ofType?, if_pos hshort] at h
    cases h
  obtain ⟨code, hcode⟩ : ∃ code : Int32, body.take 4 = LittleEndian.word32 code.toUInt32 := by
    apply exists_word32
    rw [List.length_take]
    omega
  have hquoted : ((body.take 20).drop 4).length = 16 := by
    rw [List.length_drop, List.length_take]
    omega
  have hbody : body = LittleEndian.word32 code.toUInt32 ++ (body.take 20).drop 4 ++
      body.drop 20 := by
    rw [← hcode, LittleEndian.take_append_slice (by decide), List.take_append_drop]
  rw [hbody, ofType?_error hquoted] at h
  exact ⟨code, _, _, hquoted, hbody, (Option.some.inj h).symm⟩

/-- What is received opens with a message that can be read, and this is its body. -/
inductive Says (received : List UInt8) : Body → Prop
  | report {code : Int32} {rest : List UInt8} (h : Reports received code rest) :
      Says received (.ofCode code rest)
  | done {body : List UInt8} (h : Opens received 3 body) (hmod : body.length % 4 = 0) :
      Says received .empty
  | payload {kind : Nat} {body : List UInt8} (h : Opens received kind body) (h2 : kind ≠ 2)
      (h3 : kind ≠ 3) (hmod : body.length % 4 = 0) : Says received (.payload body)

theorem Body.ofType?_other (h2 : kind ≠ 2) (h3 : kind ≠ 3) (body : List UInt8) :
    ofType? kind body = some (.payload body) := by
  unfold ofType?
  split
  · exact absurd rfl h3
  · exact absurd rfl h2
  · rfl

theorem Body.ofReceived?_iff_says : ofReceived? received = some b ↔ Says received b := by
  rw [ofReceived?_eq_some_iff]
  constructor
  · rintro ⟨kind, body, hopens, hb, hends⟩
    by_cases h3 : kind = 3
    · subst h3
      cases hb
      exact .done hopens (hends.resolve_left nofun)
    by_cases h2 : kind = 2
    · subst h2
      obtain ⟨code, quoted, rest, hquoted, rfl, rfl⟩ := exists_ofCode hb
      refine .report ⟨⟨quoted, hquoted, hopens⟩,
        hends.imp ofCode_eq_ack_iff.mp fun hmod => ?_⟩
      rw [List.length_append, List.length_append, LittleEndian.length_word32, hquoted] at hmod
      omega
    · rw [ofType?_other h2 h3] at hb
      cases hb
      exact .payload hopens h2 h3 (hends.resolve_left nofun)
  · intro h
    cases h with
    | report h =>
      obtain ⟨⟨quoted, hquoted, hopens⟩, hends⟩ := h
      refine ⟨2, _, hopens, ofType?_error hquoted _,
        hends.imp ofCode_eq_ack_iff.mpr fun hmod => ?_⟩
      rw [List.length_append, List.length_append, LittleEndian.length_word32, hquoted]
      omega
    | done h hmod => exact ⟨3, _, h, rfl, .inr hmod⟩
    | payload h h2 h3 hmod => exact ⟨_, _, h, ofType?_other h2 h3 _, .inr hmod⟩

end Types

end CanBus.Netlink
