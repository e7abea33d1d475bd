import Mathlib.Data.List.Induction
import CanBus.Frame

/-!
Bit stuffing, and what it adds to a frame at worst. Receivers keep time by the changes on the bus,
so after five equal bits one of the other value is inserted. `length_stuff_le` bounds the inserted
bits by a potential: an inserted bit has used up four others, since it starts the next row itself.
`stubborn` reaches the bound. Main statement: `worstCaseBits_tight`.
-/

namespace CanBus

namespace Stuffing

/-- Puts a bit on the wire, a dominant one being `false`. Once the last five there are the same, one
of the other value is inserted behind them; from then on it counts like any other. -/
def put (wire : List Bool) (b : Bool) : List Bool :=
  if List.replicate 5 b <:+ wire ++ [b] then wire ++ [b, !b] else wire ++ [b]

/-- What goes out for a row of bits. -/
def stuff (bits : List Bool) : List Bool := bits.foldl put []

theorem stuff_snoc (bits : List Bool) (b : Bool) : stuff (bits ++ [b]) = put (stuff bits) b :=
  List.foldl_append

/-- The inserted bit is the first of the next five. -/
example : stuff [false, false, false, false, false, true, true, true, true, false] =
    [false, false, false, false, false, true, true, true, true, true, false, false] := by decide

/-! ## Rows at the end -/

section Rows

variable {wire : List Bool} {b c : Bool} {n : Nat}

theorem row_snoc : List.replicate (n + 1) c <:+ wire ++ [b] ↔
    c = b ∧ List.replicate n c <:+ wire := by
  rw [← List.reverse_prefix, List.reverse_replicate, List.reverse_append, List.reverse_singleton,
    List.singleton_append, List.replicate_succ, List.cons_prefix_cons, ← List.reverse_prefix,
    List.reverse_replicate]

theorem put_of_row (h : List.replicate 4 b <:+ wire) : put wire b = wire ++ [b, !b] :=
  if_pos (row_snoc.mpr ⟨rfl, h⟩)

theorem put_of_not_row (h : ¬ List.replicate 4 b <:+ wire) : put wire b = wire ++ [b] :=
  if_neg fun h' => h (row_snoc.mp h').2

/-- Behind an inserted bit there is a row of one. -/
theorem row_of_inserted (h : List.replicate n c <:+ wire ++ [b, !b]) : n ≤ 1 := by
  match n with
  | 0 => exact Nat.zero_le _
  | 1 => exact Nat.le_refl _
  | n + 2 =>
    rw [← List.singleton_append, ← List.append_assoc] at h
    obtain ⟨hc, h⟩ := row_snoc.mp h
    obtain ⟨hc', -⟩ := row_snoc.mp h
    exact absurd (hc'.symm.trans hc) (by cases b <;> decide)

end Rows

/-! ## At most one bit in four -/

/-- Every bit of the content pays five. Each bit on the wire costs four, and what is left over pays
for the row at the end. -/
def Paid (bits wire : List Bool) : Prop :=
  ∀ n b, List.replicate n b <:+ wire → 4 * wire.length + n ≤ 5 * bits.length

theorem Paid.put {bits wire : List Bool} (h : Paid bits wire) (b : Bool) :
    Paid (bits ++ [b]) (put wire b) := by
  intro n c hrow
  rw [List.length_append, List.length_singleton]
  by_cases hfour : List.replicate 4 b <:+ wire
  · -- the row of four is over, so it pays for the inserted bit
    rw [put_of_row hfour] at hrow ⊢
    have hspent := h 4 b hfour
    have hone := row_of_inserted hrow
    rw [List.length_append, List.length_cons, List.length_singleton]
    omega
  · rw [put_of_not_row hfour] at hrow ⊢
    rw [List.length_append, List.length_singleton]
    cases n with
    | zero =>
      have hspent := h 0 b (List.nil_suffix)
      omega
    | succ n =>
      have hspent := h n c (row_snoc.mp hrow).2
      omega

theorem paid_stuff (bits : List Bool) : Paid bits (stuff bits) := by
  induction bits using List.reverseRecOn with
  | nil =>
    intro n b hrow
    have hlen := hrow.length_le
    rw [List.length_replicate] at hlen
    rw [Nat.le_zero.mp hlen]
    exact Nat.le_refl 0
  | append_singleton bits b ih =>
    rw [stuff_snoc]
    exact ih.put b

theorem last_put (wire : List Bool) (b : Bool) : ∃ c, List.replicate 1 c <:+ put wire b := by
  by_cases hfour : List.replicate 4 b <:+ wire
  · exact ⟨!b, put_of_row hfour ▸ ⟨wire ++ [b], by simp⟩⟩
  · exact ⟨b, put_of_not_row hfour ▸ ⟨wire, rfl⟩⟩

theorem length_stuff_le (bits : List Bool) :
    (stuff bits).length ≤ bits.length + (bits.length - 1) / 4 := by
  cases bits using List.reverseRecOn with
  | nil => exact Nat.zero_le _
  | append_singleton bits b =>
    obtain ⟨c, hlast⟩ := last_put (stuff bits) b
    have hspent := paid_stuff (bits ++ [b]) 1 c (by rw [stuff_snoc]; exact hlast)
    omega

/-! ## One bit in four -/

/-- Content that always repeats the bit that was last on the wire. -/
def stubborn : Nat → List Bool
  | 0 => []
  | m + 1 => stubborn m ++ [(stuff (stubborn m)).getLastD false]

theorem length_stubborn (m : Nat) : (stubborn m).length = m := by
  induction m with
  | zero => rfl
  | succ m ih => rw [stubborn, List.length_append, ih, List.length_singleton]

/-- There is a row of one to four bits at the end, and nothing else left over. -/
structure Spent (m : Nat) (wire : List Bool) (n : Nat) : Prop where
  row : List.replicate n (wire.getLastD false) <:+ wire
  pos : 1 ≤ n
  le : n ≤ 4
  all : 4 * wire.length + n = 5 * m

theorem Spent.put {m n : Nat} {wire : List Bool} (h : Spent m wire n)
    (hpaid : ∀ n b, List.replicate n b <:+ wire → 4 * wire.length + n ≤ 5 * m) :
    ∃ n', Spent (m + 1) (put wire (wire.getLastD false)) n' := by
  have hall := h.all
  have hpos := h.pos
  have hle := h.le
  by_cases hfour : List.replicate 4 (wire.getLastD false) <:+ wire
  · have hspent := hpaid 4 _ hfour
    refine ⟨1, ?_, by omega, by omega, ?_⟩
    · rw [put_of_row hfour]
      exact ⟨wire ++ [wire.getLastD false], by simp⟩
    · rw [put_of_row hfour, List.length_append, List.length_cons, List.length_singleton]
      omega
  · have hlt : n ≠ 4 := fun hn => hfour (hn ▸ h.row)
    refine ⟨n + 1, ?_, by omega, by omega, ?_⟩
    · rw [put_of_not_row hfour, List.getLastD_concat]
      exact row_snoc.mpr ⟨rfl, h.row⟩
    · rw [put_of_not_row hfour, List.length_append, List.length_singleton]
      omega

theorem spent_stubborn (m : Nat) : ∃ n, Spent (m + 1) (stuff (stubborn (m + 1))) n := by
  induction m with
  | zero => exact ⟨1, ⟨[], rfl⟩, by decide, by decide, rfl⟩
  | succ m ih =>
    obtain ⟨n, h⟩ := ih
    have hpaid := paid_stuff (stubborn (m + 1))
    rw [Paid, length_stubborn] at hpaid
    rw [stubborn, stuff_snoc]
    exact h.put hpaid

theorem length_stuff_stubborn (m : Nat) : (stuff (stubborn m)).length = m + (m - 1) / 4 := by
  cases m with
  | zero => rfl
  | succ m =>
    obtain ⟨n, h⟩ := spent_stubborn m
    have hall := h.all
    have hpos := h.pos
    have hle := h.le
    omega

end Stuffing

/-! ## Frames -/

namespace Frame

open Stuffing

/-- The low bits of a number, the highest of them first. -/
def bitsOf (width n : Nat) : List Bool := (List.range width).map fun i => n.testBit (width - 1 - i)

/-- The start, the identifier with the bits that tell the format, and the bits of a data
frame before its length. -/
def header : Identifier → List Bool
  | .standard v => false :: bitsOf 11 v.val ++ [false, false, false]
  | .extended v =>
    false :: bitsOf 11 (v.val / 0x40000) ++ [true, true] ++ bitsOf 18 v.val ++ [false, false, false]

/-- The bits of a frame, from its start to the end of its checksum. -/
def bits (f : Frame) (checksum : BitVec 15) : List Bool :=
  header f.id ++ bitsOf 4 f.len ++ f.data.flatMap (fun b => bitsOf 8 b.toNat) ++
    bitsOf 15 checksum.toNat

/-- How many bits there are up to the end of the checksum, which are subject to stuffing. -/
def contentBits (extended : Bool) (len : Nat) : Nat := (if extended then 54 else 34) + 8 * len

/-- Delimiter of the checksum, acknowledgement with its delimiter, end, and intermission.
None of them is stuffed. -/
def trailerBits : Nat := 1 + 2 + 7 + 3

/-- How long the bus is occupied by a frame with this content. -/
def wireLength (bits : List Bool) : Nat := (stuff bits).length + trailerBits

theorem length_bitsOf (width n : Nat) : (bitsOf width n).length = width := by
  rw [bitsOf, List.length_map, List.length_range]

theorem length_bits (f : Frame) (checksum : BitVec 15) :
    (f.bits checksum).length = contentBits f.id.isExtended f.len := by
  have hdata (bs : List UInt8) : (bs.flatMap fun b => bitsOf 8 b.toNat).length = 8 * bs.length := by
    induction bs with
    | nil => rfl
    | cons b bs ih =>
      rw [List.flatMap_cons, List.length_append, ih, length_bitsOf, List.length_cons]
      omega
  have hheader : (header f.id).length + 19 = if f.id.isExtended then 54 else 34 := by
    cases f.id <;> simp [header, length_bitsOf, Identifier.isExtended]
  rw [bits, List.length_append, List.length_append, List.length_append, hdata, length_data,
    length_bitsOf, length_bitsOf, contentBits]
  omega

theorem worstCaseBits_eq (extended : Bool) (len : Nat) :
    worstCaseBits extended len .classic =
      contentBits extended len + (contentBits extended len - 1) / 4 + trailerBits := by
  cases extended <;>
    simp only [worstCaseBits, contentBits, trailerBits, if_true, Bool.false_eq_true, if_false] <;>
    omega

theorem wireLength_le {extended : Bool} {len : Nat} {bits : List Bool}
    (h : bits.length = contentBits extended len) :
    wireLength bits ≤ worstCaseBits extended len .classic := by
  rw [worstCaseBits_eq, ← h]
  exact Nat.add_le_add_right (length_stuff_le bits) _

/-- A frame takes no more bits than it is counted with, whatever its checksum. -/
theorem wireLength_bits_le (f : Frame) (checksum : BitVec 15) :
    wireLength (f.bits checksum) ≤ f.wireBits :=
  wireLength_le (f.length_bits checksum)

/-- The length that frames of the classic format are counted with is the largest that they can have
on the wire: no content is longer with its stuff bits, and some content is as long. -/
theorem worstCaseBits_tight (extended : Bool) (len : Nat) :
    (∀ bits : List Bool, bits.length = contentBits extended len →
      wireLength bits ≤ worstCaseBits extended len .classic) ∧
    ∃ bits : List Bool, bits.length = contentBits extended len ∧
      wireLength bits = worstCaseBits extended len .classic := by
  refine ⟨fun bits h => wireLength_le h, stubborn (contentBits extended len),
    length_stubborn _, ?_⟩
  rw [wireLength, length_stuff_stubborn, worstCaseBits_eq]

end Frame

end CanBus
