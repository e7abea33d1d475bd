import CanBus.Netlink.Attribute

/-!
Lists of attributes: how they are laid out in bytes (`Laid`), which of a type counts (`latest`, the
last one), and what is nested in those of a type (`within`).
-/

namespace CanBus.Netlink.Attribute

/-! ## Layout -/

/-- The bytes of an attribute. -/
def field (kind : UInt16) (payload padding : List UInt8) : List UInt8 :=
  LittleEndian.bytes 2 (4 + payload.length) ++ LittleEndian.word16 kind ++ payload ++ padding

/-- One attribute after the other, each padded to a multiple of four with whatever there is. -/
inductive Laid : List Attribute → List UInt8 → Prop
  | nil : Laid [] []
  | cons {kind : UInt16} {payload padding bs : List UInt8} {as : List Attribute}
      (hlen : 4 + payload.length < 0x10000) (hpad : padding.length < 4)
      (hfull : (payload.length + padding.length) % 4 = 0) (h : Laid as bs) :
      Laid (⟨kind, payload⟩ :: as) (field kind payload padding ++ bs)

namespace Laid

variable {as : List Attribute} {bs : List UInt8}

theorem parseAll? (h : Laid as bs) : parseAll? bs = some as := by
  induction h with
  | nil => rw [Attribute.parseAll?, if_pos rfl]
  | @cons kind payload padding bs as hlen hpad hfull _ ih =>
    have hp : padding.length = padded (4 + payload.length) - (4 + payload.length) := by
      unfold padded
      omega
    rw [field, parseAll?_cons hlen hp, ih]
    rfl

theorem length_mod (h : Laid as bs) : bs.length % 4 = 0 := by
  induction h with
  | nil => rfl
  | cons _ _ hfull _ ih =>
    simp only [field, List.length_append, LittleEndian.length_bytes, LittleEndian.length_word16]
    omega

end Laid

theorem laid_bytesAll {as : List Attribute} (h : ∀ a ∈ as, 4 + a.payload.length < 0x10000) :
    Laid as (bytesAll as) := by
  induction as with
  | nil => exact .nil
  | cons a as ih =>
    have hlen := h a List.mem_cons_self
    have hbytes : bytesAll (a :: as) = field a.kind a.payload (List.replicate
        (padded (4 + a.payload.length) - (4 + a.payload.length)) 0) ++ bytesAll as := rfl
    rw [hbytes]
    refine .cons hlen ?_ ?_ (ih fun b hb => h b (List.mem_cons_of_mem a hb))
    · rw [List.length_replicate, padded]
      omega
    · rw [List.length_replicate, padded]
      omega

/-- What starts with the length of an attribute starts with the attribute. -/
theorem eq_field_append {bs : List UInt8} {len : Nat} (hlen : LittleEndian.value (bs.take 2) = len)
    (h4 : 4 ≤ len) (hfits : padded len ≤ bs.length) :
    bs = field (UInt16.ofNat (LittleEndian.value ((bs.drop 2).take 2))) ((bs.take len).drop 4)
      ((bs.take (padded len)).drop len) ++ bs.drop (padded len) := by
  have hle : len ≤ padded len := le_padded len
  have hpayload : 4 + ((bs.take len).drop 4).length = len := by
    rw [List.length_drop, List.length_take]
    omega
  have hfirst : LittleEndian.bytes 2 len = bs.take 2 := by
    rw [← hlen]
    apply LittleEndian.bytes_value_of_length
    rw [List.length_take]
    omega
  have hsecond : (bs.drop 2).take 2 = (bs.take 4).drop 2 := (List.drop_take (i := 2) (j := 4)).symm
  have htwo : ((bs.drop 2).take 2).length = 2 := by
    rw [List.length_take, List.length_drop]
    omega
  have hkind : LittleEndian.word16 (UInt16.ofNat (LittleEndian.value ((bs.drop 2).take 2))) =
      (bs.drop 2).take 2 := LittleEndian.word16_value htwo
  rw [field, hpayload, hfirst, hkind, hsecond, LittleEndian.take_append_slice (by decide),
    LittleEndian.take_append_slice h4, LittleEndian.take_append_slice hle, List.take_append_drop]

theorem laid_of_parseAll? {as : List Attribute} {bs : List UInt8}
    (h : Attribute.parseAll? bs = some as) :
    Laid as bs := by
  induction hn : bs.length using Nat.strongRecOn generalizing bs as with
  | ind n ih =>
    subst hn
    rw [Attribute.parseAll?] at h
    by_cases hnil : bs = []
    · rw [if_pos hnil] at h
      cases h
      exact hnil ▸ .nil
    rw [if_neg hnil] at h
    obtain ⟨len, hlen⟩ : ∃ len, LittleEndian.value (bs.take 2) = len := ⟨_, rfl⟩
    simp only [hlen] at h
    split at h
    next hfits =>
      obtain ⟨h4, hfits⟩ := hfits
      obtain ⟨rest, hrest, rfl⟩ := Option.map_eq_some_iff.mp h
      have hle : len ≤ padded len := le_padded len
      have hmod : padded len % 4 = 0 ∧ padded len < len + 4 := by
        unfold padded
        omega
      have hsmall : len < 0x10000 := by
        have hlt := LittleEndian.value_lt (bs.take 2)
        rw [List.length_take, Nat.min_eq_left (by omega), hlen] at hlt
        exact hlt
      have htail : Laid rest (bs.drop (padded len)) := by
        refine ih _ ?_ hrest rfl
        rw [List.length_drop]
        omega
      let kind := UInt16.ofNat (LittleEndian.value ((bs.drop 2).take 2))
      let payload := (bs.take len).drop 4
      let padding := (bs.take (padded len)).drop len
      have hpayload : payload.length = len - 4 := by
        rw [List.length_drop, List.length_take]
        omega
      have hpadding : padding.length = padded len - len := by
        rw [List.length_drop, List.length_take]
        omega
      have hall : Laid (⟨kind, payload⟩ :: rest)
          (field kind payload padding ++ bs.drop (padded len)) :=
        .cons (by omega) (by omega) (by omega) htail
      rwa [← eq_field_append hlen h4 hfits] at hall
    next => cases h

/-- The attributes that are nested in the payload, if it can be read. -/
def children (a : Attribute) : List Attribute := (Attribute.parseAll? a.payload).getD []

theorem children_of_laid {a : Attribute} {as : List Attribute} (h : Laid as a.payload) :
    a.children = as := by
  rw [children, h.parseAll?]
  rfl

theorem laid_children {a : Attribute} {as : List Attribute} (h : Laid as a.payload) :
    Laid a.children a.payload := (children_of_laid h).symm ▸ h

/-! ## Values -/

/-- The first four bytes. -/
def word (a : Attribute) : UInt32 := UInt32.ofNat (LittleEndian.value (a.payload.take 4))

theorem word?_eq {a : Attribute} (h : 4 ≤ a.payload.length) : a.word? = some a.word := by
  rw [word?, if_pos h]
  rfl

/-! ## Repeated attributes -/

/-- The last attribute of a type. -/
def last? (kind : UInt16) (as : List Attribute) : Option Attribute :=
  (as.filter fun a => a.kind = kind).getLast?

theorem last?_eq_none_iff {kind : UInt16} {as : List Attribute} :
    last? kind as = none ↔ ∀ a ∈ as, a.kind ≠ kind := by
  rw [last?, List.getLast?_eq_none_iff, List.filter_eq_nil_iff]
  simp only [decide_eq_true_eq, ne_eq]

/-- What the last attribute of a type says; `x` if there is none. -/
def latest {α : Type} (kind : UInt16) (f : Attribute → α) (x : α) (as : List Attribute) : α :=
  (last? kind as).elim x f

section Latest

variable {α : Type} {kind : UInt16} {f : Attribute → α}

theorem latest_append (x : α) (as bs : List Attribute) :
    latest kind f x (as ++ bs) = latest kind f (latest kind f x as) bs := by
  unfold latest last?
  rw [List.filter_append, List.getLast?_append]
  cases (bs.filter fun a => a.kind = kind).getLast? <;> rfl

theorem latest_cons (x : α) (a : Attribute) (as : List Attribute) :
    latest kind f x (a :: as) = latest kind f (if a.kind = kind then f a else x) as := by
  have h : latest kind f x (a :: as) = latest kind f (latest kind f x [a]) as :=
    latest_append x [a] as
  have hone : latest kind f x [a] = if a.kind = kind then f a else x := by
    unfold latest last?
    by_cases ha : a.kind = kind <;> simp [ha]
  rwa [hone] at h

/-- An attribute that can always be read. -/
theorem latest_some {as : List Attribute} {g : Attribute → Option α}
    (h : ∀ a ∈ as, a.kind = kind → g a = some (f a)) :
    latest kind g none as = (last? kind as).map f := by
  unfold latest
  cases hl : last? kind as with
  | none => rfl
  | some a =>
    obtain ⟨hm, hk⟩ := List.mem_filter.mp (List.mem_of_getLast? hl)
    exact h a hm (of_decide_eq_true hk)

theorem latest_none (as : List Attribute) (g : Attribute → Option α) :
    latest kind g none as = (last? kind as).bind g := by
  unfold latest
  cases last? kind as <;> rfl

end Latest

/-! ## Nested attributes -/

/-- The attributes that are nested in those of a type, one after the other. -/
def within (kind : UInt16) (inner : Attribute → List Attribute) (as : List Attribute) :
    List Attribute := (as.filter fun a => a.kind = kind).flatMap inner

section Within

variable {kind : UInt16} {inner : Attribute → List Attribute} {a : Attribute}
    {as : List Attribute}

theorem within_append (bs : List Attribute) :
    within kind inner (as ++ bs) = within kind inner as ++ within kind inner bs := by
  rw [within, List.filter_append, List.flatMap_append]
  rfl

theorem mem_within : a ∈ within kind inner as ↔
    ∃ b ∈ as, b.kind = kind ∧ a ∈ inner b := by
  simp [within, and_assoc]

theorem within_cons_of_eq (h : a.kind = kind) :
    within kind inner (a :: as) = inner a ++ within kind inner as := by
  simp [within, h]

theorem within_cons_of_ne (h : a.kind ≠ kind) :
    within kind inner (a :: as) = within kind inner as := by
  simp [within, h]

end Within

end CanBus.Netlink.Attribute
