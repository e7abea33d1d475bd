import CanBus.Failure

/-!
Identifiers, of 11 bits in a standard frame and of 29 bits in an extended one, and the 32-bit word
in which an identifier travels together with three flags.
-/

namespace CanBus

inductive Identifier
  | standard (value : Fin 0x800)
  | extended (value : Fin 0x20000000)
  deriving DecidableEq, Repr

namespace Identifier

def raw : Identifier → UInt32
  | .standard v => UInt32.ofNat v.val
  | .extended v => UInt32.ofNat v.val

def isExtended : Identifier → Bool
  | .standard _ => false
  | .extended _ => true

def ofRaw? (id : UInt32) (extended : Bool) : Option Identifier :=
  if extended then
    if h : id.toNat < 0x20000000 then some (.extended ⟨id.toNat, h⟩) else none
  else
    if h : id.toNat < 0x800 then some (.standard ⟨id.toNat, h⟩) else none

theorem toNat_raw (i : Identifier) :
    i.raw.toNat = match i with
      | .standard v => v.val
      | .extended v => v.val := by
  cases i with
  | standard v => exact UInt32.toNat_ofNat_of_lt' (Nat.lt_trans v.isLt (by decide))
  | extended v => exact UInt32.toNat_ofNat_of_lt' (Nat.lt_trans v.isLt (by decide))

theorem ofRaw?_raw (i : Identifier) : ofRaw? i.raw i.isExtended = some i := by
  have h := toNat_raw i
  cases i with
  | standard v => exact (dif_pos (h ▸ v.isLt)).trans (by simp only [h])
  | extended v => exact (dif_pos (h ▸ v.isLt)).trans (by simp only [h])

theorem raw_of_ofRaw? {id : UInt32} {extended : Bool} {i : Identifier}
    (h : ofRaw? id extended = some i) : i.raw = id ∧ i.isExtended = extended := by
  unfold ofRaw? at h
  split at h <;> split at h <;> simp at h <;> subst h <;> simp_all [raw, isExtended]

end Identifier

/-! ## The identifier word -/

/-- An identifier with the flags above it. -/
structure IdWord where
  val : UInt32
  deriving DecidableEq, Repr

namespace IdWord

def extendedFlag : UInt32 := 0x80000000
def remoteFlag : UInt32 := 0x40000000
def errorFlag : UInt32 := 0x20000000

/-- The bits that an identifier may use. -/
def mask (extended : Bool) : UInt32 := if extended then 0x1FFFFFFF else 0x7FF

def isExtended (w : IdWord) : Bool := w.val &&& extendedFlag != 0
def isRemote (w : IdWord) : Bool := w.val &&& remoteFlag != 0
def isError (w : IdWord) : Bool := w.val &&& errorFlag != 0

def flags (w : IdWord) : UInt32 := w.val &&& (extendedFlag ||| remoteFlag ||| errorFlag)

/-- The identifier alone, as wide as the format that the word announces. -/
def raw (w : IdWord) : UInt32 := w.val &&& mask w.isExtended

def identifier (w : IdWord) : Identifier :=
  if w.isExtended then .extended (Fin.ofNat _ w.val.toNat) else .standard (Fin.ofNat _ w.val.toNat)

/-- The word of a data frame. -/
def encode (id : UInt32) (extended : Bool) : Except Failure IdWord :=
  if id &&& ~~~(mask extended) ≠ 0 then .error (.invalidId id)
  else .ok ⟨if extended then id ||| extendedFlag else id⟩

end IdWord

def Identifier.word (i : Identifier) : IdWord :=
  ⟨if i.isExtended then i.raw ||| IdWord.extendedFlag else i.raw⟩

end CanBus
