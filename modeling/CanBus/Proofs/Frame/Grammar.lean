import Mathlib.Data.String.Basic
import CanBus.Proofs.Frame.Text
import CanBus.Proofs.Identifier

/-!
Which texts are frames, and which frames: `parse_grammar` gives the grammar, and for a text that is
outside of it the first thing that is wrong.
-/

namespace CanBus.Frame

open CanBus.Text

/-! ## The grammar -/

/-- The parts of a text, before and after its first hash. Blanks around the
text belong to neither. -/
structure Parts (s : String) (idPart dataPart : List Char) : Prop where
  trimmed : Trimmed s.toList (idPart ++ '#' :: dataPart)
  first : '#' ∉ idPart

/-- A number in hexadecimal digits, with or without a plus sign. -/
def IsId (cs : List Char) (n : Nat) : Prop :=
  ∃ sign digits, cs = sign ++ digits ∧ (sign = [] ∨ sign = ['+']) ∧ Hex.IsNumber digits n

/-- Bytes in hexadecimal digits, with dots anywhere. -/
def IsData (cs : List Char) (bs : List UInt8) : Prop := Hex.IsOctets (cs.filter (· ≠ '.')) bs

/-- A text reads as a number and bytes, whether or not these fit a frame. -/
structure Reads (s : String) (idPart : List Char) (n : Nat) (bs : List UInt8) : Prop where
  parts : ∃ dataPart, Parts s idPart dataPart ∧ IsData dataPart bs
  id : IsId idPart n
  word : n < 0x100000000

/-! ## The parts -/

theorem splitHash?_eq_some_iff {cs as bs : List Char} :
    splitHash? cs = some (as, bs) ↔ cs = as ++ '#' :: bs ∧ '#' ∉ as := by
  constructor
  · intro h
    induction cs generalizing as with
    | nil => cases h
    | cons c cs ih =>
      rw [splitHash?] at h
      split at h
      next hc =>
        cases h
        exact ⟨by rw [hc]; rfl, List.not_mem_nil⟩
      next hc =>
        obtain ⟨p, hp, he⟩ := Option.map_eq_some_iff.mp h
        cases he
        obtain ⟨rfl, hfirst⟩ := ih hp
        exact ⟨rfl, by simp [hfirst, Ne.symm hc]⟩
  · rintro ⟨rfl, hfirst⟩
    exact splitHash?_append (fun c hc he => hfirst (he ▸ hc)) bs

theorem parts_iff {s : String} {idPart dataPart : List Char} :
    Parts s idPart dataPart ↔ splitHash? (trim s.toList) = some (idPart, dataPart) := by
  rw [splitHash?_eq_some_iff, trim_eq_iff]
  exact ⟨fun h => ⟨h.trimmed, h.first⟩, fun h => ⟨h.1, h.2⟩⟩

theorem not_isNumber_plus {cs : List Char} {n : Nat} : ¬ Hex.IsNumber ('+' :: cs) n := by
  rintro ⟨-, ds, hds, -⟩
  cases hds with
  | cons hplus _ =>
    obtain ⟨hd, c, hc⟩ := hplus
    exact (Hex.digit_plain c hd).2.2.2 hc.symm

theorem isId_plus {cs : List Char} {n : Nat} : IsId ('+' :: cs) n ↔ Hex.IsNumber cs n := by
  constructor
  · rintro ⟨sign, digits, hcs, rfl | rfl, hn⟩
    · rw [List.nil_append] at hcs
      exact absurd (hcs ▸ hn) not_isNumber_plus
    · cases hcs
      exact hn
  · exact fun hn => ⟨['+'], cs, rfl, .inr rfl, hn⟩

theorem isId_unsigned {cs : List Char} {n : Nat} (h : ∀ ds, cs ≠ '+' :: ds) :
    IsId cs n ↔ Hex.IsNumber cs n := by
  constructor
  · rintro ⟨sign, digits, rfl, rfl | rfl, hn⟩
    · exact hn
    · exact absurd rfl (h digits)
  · exact fun hn => ⟨[], cs, rfl, .inl rfl, hn⟩

theorem readId?_eq_some_iff {cs : List Char} {id : UInt32} :
    readId? cs = some id ↔ IsId cs id.toNat := by
  have hword (n : Nat) :
      (if n < 0x100000000 then some (UInt32.ofNat n) else none) = some id ↔ n = id.toNat := by
    by_cases hn : n < 0x100000000
    · simp [hn, ← UInt32.toNat_inj, UInt32.toNat_ofNat_of_lt' hn]
    · have := id.toNat_lt
      simp only [hn, if_false, reduceCtorEq, false_iff]
      omega
  unfold readId?
  split
  next ds =>
    dsimp only
    rw [isId_plus, ← Hex.number?_eq_some_iff]
    cases Hex.number? ds <;> simp [hword]
  next hds =>
    dsimp only
    rw [isId_unsigned hds, ← Hex.number?_eq_some_iff]
    cases Hex.number? cs <;> simp [hword]

theorem readData?_eq_some_iff {cs : List Char} {bs : List UInt8} :
    readData? cs = some bs ↔ IsData cs bs := Hex.octets?_eq_some_iff

/-- An identifier is written in characters of one byte. -/
theorem IsId.utf8ByteSize {cs : List Char} {n : Nat} (h : IsId cs n) :
    (String.ofList cs).utf8ByteSize = cs.length := by
  have hdigit : ∀ {ds : List Char} {vs : List Nat}, List.Forall₂ Hex.IsDigit ds vs →
      String.utf8Len ds = ds.length := by
    intro ds vs hds
    induction hds with
    | nil => rfl
    | cons hd _ ih =>
      obtain ⟨hd, c, rfl⟩ := hd
      rw [String.utf8Len_cons, ih, Hex.utf8Size_digit c hd, List.length_cons]
  rw [String.utf8ByteSize_ofList]
  obtain ⟨sign, digits, rfl, rfl | rfl, -, vs, hvs, -⟩ := h
  · exact hdigit hvs
  · show String.utf8Len digits + 1 = digits.length + 1
    rw [hdigit hvs]

/-! ## Building -/

section Build

variable {id : UInt32} {extended : Bool} {data : List UInt8}

theorem build_eq_ok_iff {f : Frame} : build id extended data = .ok f ↔
    f.id.raw = id ∧ f.id.isExtended = extended ∧ f.data = data ∧ f.zeroFilled = f := by
  constructor
  · intro h
    have hdata := data_of_build h
    have hzeros := zeroFilled_of_build h
    unfold build at h
    split at h
    · split at h <;> simp only [Except.ok.injEq, reduceCtorEq] at h
      next i hi =>
        subst h
        obtain ⟨hraw, hx⟩ := Identifier.raw_of_ofRaw? hi
        exact ⟨hraw, hx, hdata, hzeros⟩
    · cases h
  · rintro ⟨rfl, rfl, rfl, hzeros⟩
    rw [build_parts, hzeros]

theorem build_of_long (h : 8 < data.length) :
    build id extended data = .error (.invalidLength data.length) := by
  rw [build, dif_neg (by omega)]

theorem ofRaw?_eq_none_iff : Identifier.ofRaw? id extended = none ↔
    ¬ id.toNat < Identifier.bound extended := by
  cases extended <;> simp [Identifier.ofRaw?, Identifier.bound]

theorem build_of_wide (h : data.length ≤ 8) (hid : ¬ id.toNat < Identifier.bound extended) :
    build id extended data = .error (.invalidId id) := by
  rw [build, dif_pos (by omega), ofRaw?_eq_none_iff.mpr hid]

theorem build_of_fits (h : data.length ≤ 8) (hid : id.toNat < Identifier.bound extended) :
    ∃ f, build id extended data = .ok f := by
  rw [build, dif_pos (by omega)]
  cases hi : Identifier.ofRaw? id extended with
  | none => exact absurd hid (ofRaw?_eq_none_iff.mp hi)
  | some i => exact ⟨_, rfl⟩

end Build

/-- An identifier that is too wide for a standard frame makes the frame extended, so that it is too
wide for the frame only beyond 29 bits. -/
theorem lt_bound_iff {id : UInt32} (b : Bool) :
    id.toNat < Identifier.bound (b || 0x7FF < id) ↔ id.toNat ≤ 0x1FFFFFFF := by
  have hlt : 0x7FF < id ↔ 0x7FF < id.toNat := UInt32.lt_iff_toNat_lt
  by_cases h : (b || decide (0x7FF < id)) = true
  · rw [h, Identifier.bound, if_pos rfl]
    omega
  · rw [Bool.eq_false_iff.mpr h, Identifier.bound, if_neg Bool.false_ne_true]
    simp only [Bool.or_eq_true, decide_eq_true_eq, not_or, hlt] at h
    omega

/-! ## The whole text -/

section Text

variable {s : String} {idPart : List Char} {n : Nat} {bs : List UInt8}

theorem parse_of_reads (h : Reads s idPart n bs) :
    parse s = build (UInt32.ofNat n) (idPart.length = 8 || 0x7FF < UInt32.ofNat n) bs := by
  obtain ⟨dataPart, hparts, hdata⟩ := h.parts
  have hn : (UInt32.ofNat n).toNat = n := UInt32.toNat_ofNat_of_lt' h.word
  have hid : readId? idPart = some (UInt32.ofNat n) :=
    readId?_eq_some_iff.mpr (by rw [hn]; exact h.id)
  rw [parse, parts_iff.mp hparts]
  simp only [hid, readData?_eq_some_iff.mpr hdata]

theorem parse_of_not_reads (h : ∀ idPart n bs, ¬ Reads s idPart n bs) :
    parse s = .error (.unreadable s) := by
  unfold parse
  split
  next => rfl
  next idPart dataPart hparts =>
    split
    next id bs hid hdata =>
      exact absurd ⟨⟨dataPart, parts_iff.mpr hparts, readData?_eq_some_iff.mp hdata⟩,
        readId?_eq_some_iff.mp hid, id.toNat_lt⟩ (h idPart id.toNat bs)
    next => rfl

theorem Reads.parse_ok (h : Reads s idPart n bs) (hn : n ≤ 0x1FFFFFFF) (hb : bs.length ≤ 8) :
    ∃ f, parse s = .ok f := by
  rw [parse_of_reads h]
  apply build_of_fits hb
  rw [lt_bound_iff, UInt32.toNat_ofNat_of_lt' h.word]
  exact hn

theorem Reads.parse_long (h : Reads s idPart n bs) (hb : 8 < bs.length) :
    parse s = .error (.invalidLength bs.length) := by
  rw [parse_of_reads h, build_of_long hb]

theorem Reads.parse_wide (h : Reads s idPart n bs) (hb : bs.length ≤ 8) (hn : 0x1FFFFFFF < n) :
    parse s = .error (.invalidId (UInt32.ofNat n)) := by
  rw [parse_of_reads h, build_of_wide hb]
  rw [lt_bound_iff, UInt32.toNat_ofNat_of_lt' h.word]
  exact Nat.not_le.mpr hn

/-- What a text comes to, by what it reads as. -/
inductive Outcome (s : String) : Except Failure Frame → Prop
  | frame {idPart : List Char} {n : Nat} {bs : List UInt8} (f : Frame) (h : Reads s idPart n bs)
      (hn : n ≤ 0x1FFFFFFF) (hb : bs.length ≤ 8) : Outcome s (.ok f)
  | long {idPart : List Char} {n : Nat} {bs : List UInt8} (h : Reads s idPart n bs)
      (hb : 8 < bs.length) : Outcome s (.error (.invalidLength bs.length))
  | wide {idPart : List Char} {n : Nat} {bs : List UInt8} (h : Reads s idPart n bs)
      (hb : bs.length ≤ 8) (hn : 0x1FFFFFFF < n) : Outcome s
        (.error (.invalidId (UInt32.ofNat n)))
  | unread (h : ∀ idPart n bs, ¬ Reads s idPart n bs) : Outcome s (.error (.unreadable s))

theorem parse_outcome (s : String) : Outcome s (parse s) := by
  by_cases hr : ∃ idPart n bs, Reads s idPart n bs
  · obtain ⟨idPart, n, bs, h⟩ := hr
    by_cases hb : bs.length ≤ 8
    · by_cases hn : n ≤ 0x1FFFFFFF
      · obtain ⟨f, hf⟩ := h.parse_ok hn hb
        rw [hf]
        exact .frame f h hn hb
      · rw [h.parse_wide hb (Nat.not_le.mp hn)]
        exact .wide h hb (Nat.not_le.mp hn)
    · rw [h.parse_long (Nat.not_le.mp hb)]
      exact .long h (Nat.not_le.mp hb)
  · simp only [not_exists] at hr
    rw [parse_of_not_reads hr]
    exact .unread hr

variable (s) in
/-- What is wrong with a text that reads as nothing. -/
theorem not_reads_iff : (∀ idPart n bs, ¬ Reads s idPart n bs) ↔
    (∀ core, Trimmed s.toList core → '#' ∉ core) ∨
      ∃ idPart dataPart, Parts s idPart dataPart ∧
        ((∀ n < 0x100000000, ¬ IsId idPart n) ∨ ¬ ∃ bs, IsData dataPart bs) := by
  constructor
  · intro h
    by_cases hhash : '#' ∈ trim s.toList
    · obtain ⟨idPart, dataPart, hcore, hfirst⟩ := List.eq_append_cons_of_mem hhash
      have hparts : Parts s idPart dataPart := ⟨trim_eq_iff.mp hcore, hfirst⟩
      refine .inr ⟨idPart, dataPart, hparts, ?_⟩
      by_cases hdata : ∃ bs, IsData dataPart bs
      · obtain ⟨bs, hbs⟩ := hdata
        exact .inl fun n hn hid => h idPart n bs ⟨⟨dataPart, hparts, hbs⟩, hid, hn⟩
      · exact .inr hdata
    · refine .inl fun core hcore => ?_
      rwa [← hcore.trim_eq]
  · rintro (h | ⟨idPart, dataPart, hparts, h⟩) idPart' n bs hr
    · obtain ⟨dataPart', hparts', -⟩ := hr.parts
      exact h _ hparts'.trimmed (by simp)
    · obtain ⟨dataPart', hparts', hdata⟩ := hr.parts
      -- a text has its parts in one way only
      have hsame := (parts_iff.mp hparts).symm.trans (parts_iff.mp hparts')
      cases hsame
      rcases h with h | h
      · exact h n hr.word hr.id
      · exact h ⟨bs, hdata⟩

end Text

/-- Blanks, an identifier in at most 29 bits, a hash, at most eight bytes with dots anywhere,
blanks. What is wrong first with any other text is what is reported. -/
theorem parse_grammar (s : String) :
    ((∃ f, parse s = .ok f) ↔
      ∃ idPart n bs, Reads s idPart n bs ∧ n ≤ 0x1FFFFFFF ∧ bs.length ≤ 8) ∧
    (∀ f idPart n bs, parse s = .ok f → Reads s idPart n bs →
      f.id.raw.toNat = n ∧
      (f.id.isExtended = true ↔ (String.ofList idPart).utf8ByteSize = 8 ∨ 0x7FF < n) ∧
      f.data = bs ∧ ∀ b ∈ f.payload.bytes.drop f.len, b = 0) ∧
    (parse s = .error (.unreadable s) ↔
      (∀ core, Trimmed s.toList core → '#' ∉ core) ∨
      ∃ idPart dataPart, Parts s idPart dataPart ∧
        ((∀ n < 0x100000000, ¬ IsId idPart n) ∨
          ¬ ((dataPart.filter (· ≠ '.')).length % 2 = 0 ∧
            ∀ c ∈ dataPart.filter (· ≠ '.'), ∃ d, Hex.IsDigit c d))) ∧
    (∀ m, parse s = .error (.invalidLength m) ↔
      ∃ idPart n bs, Reads s idPart n bs ∧ bs.length = m ∧ 8 < m) ∧
    ∀ id, parse s = .error (.invalidId id) ↔
      ∃ idPart n bs, Reads s idPart n bs ∧ bs.length ≤ 8 ∧ 0x1FFFFFFF < n ∧
        id.toNat = n := by
  have houtcome := parse_outcome s
  refine ⟨⟨?_, ?_⟩, ?_, ?_, fun m => ⟨?_, ?_⟩, fun id => ⟨?_, ?_⟩⟩
  · rintro ⟨f, hf⟩
    rw [hf] at houtcome
    cases houtcome with
    | frame f h hn hb => exact ⟨_, _, _, h, hn, hb⟩
  · rintro ⟨idPart, n, bs, h, hn, hb⟩
    exact h.parse_ok hn hb
  · intro f idPart n bs hf h
    rw [parse_of_reads h, build_eq_ok_iff] at hf
    obtain ⟨hraw, hx, hdata, hzeros⟩ := hf
    have hn : (UInt32.ofNat n).toNat = n := UInt32.toNat_ofNat_of_lt' h.word
    refine ⟨by rw [hraw, hn], ?_, hdata, fun b hb => rest_zeroFilled f (hzeros.symm ▸ hb)⟩
    rw [hx, h.id.utf8ByteSize, Bool.or_eq_true, decide_eq_true_eq, decide_eq_true_eq,
      UInt32.lt_iff_toNat_lt, hn]
    rfl
  · have hdata (dataPart : List Char) : (∃ bs, IsData dataPart bs) ↔ _ :=
      Hex.exists_isOctets_iff
    simp only [← hdata]
    rw [← not_reads_iff]
    constructor
    · intro hf
      rw [hf] at houtcome
      cases houtcome with
      | unread h => exact h
    · exact parse_of_not_reads
  · intro hf
    rw [hf] at houtcome
    cases houtcome with
    | long h hb => exact ⟨_, _, _, h, rfl, hb⟩
  · rintro ⟨idPart, n, bs, h, rfl, hb⟩
    exact h.parse_long hb
  · intro hf
    rw [hf] at houtcome
    cases houtcome with
    | wide h hb hn => exact ⟨_, _, _, h, hb, hn, UInt32.toNat_ofNat_of_lt' h.word⟩
  · rintro ⟨idPart, n, bs, h, hb, hn, hid⟩
    rw [h.parse_wide hb hn, ← hid, UInt32.ofNat_toNat]

/-- The bytes are looked at before the identifier. -/
example : parse "20000000#0.00000000000000000" = .error (.invalidLength 9) := by rfl

end CanBus.Frame
