import CanBus.Identifier
import CanBus.Payload

/-!
Classic data frames. Identifier and length are bounded by their types; the bytes of the payload past
the length belong to the frame, and to its equality, but not to its data.
-/

namespace CanBus

structure Frame where
  id : Identifier
  len : Fin 9
  payload : Payload
  deriving DecidableEq, Repr

namespace Frame

def data (f : Frame) : List UInt8 := f.payload.bytes.take f.len

def blank : Frame := ⟨.standard ⟨0, by decide⟩, ⟨0, by decide⟩, Payload.zero⟩

/-- The length is looked at before the identifier. -/
def build (id : UInt32) (extended : Bool) (data : List UInt8) : Except Failure Frame :=
  if h : data.length < 9 then
    match Identifier.ofRaw? id extended with
    | some i => .ok ⟨i, ⟨data.length, h⟩, Payload.ofList data⟩
    | none => .error (.invalidId id)
  else .error (.invalidLength data.length)

def ofIdentifier? (id : Identifier) (data : List UInt8) : Option Frame :=
  (build id.raw id.isExtended data).toOption

/-- A remote request carries no data, so a data frame is never one. -/
def isRemote (_ : Frame) : Bool := false

/-- The frame that requests `len` bytes under an identifier: only data frames can be represented. -/
def ofRemote? (_id : Identifier) (_len : Nat) : Option Frame := none

theorem length_data (f : Frame) : f.data.length = f.len := by
  have := f.len.isLt
  simp [data, f.payload.length_eq]
  omega

theorem length_data_le (f : Frame) : f.data.length ≤ 8 := by
  rw [length_data]
  exact Nat.le_of_lt_succ f.len.isLt

theorem data_of_build {id : UInt32} {extended : Bool} {data : List UInt8} {f : Frame}
    (h : build id extended data = .ok f) : f.data = data := by
  unfold build at h
  split at h
  · split at h <;> simp at h
    subst h
    exact Payload.take_ofList (by omega)
  · simp at h

/-! ## Length on the wire -/

inductive Format
  | classic
  | flexible
  deriving DecidableEq, Repr

/-- The most bits that a frame can occupy on the wire, with every stuff bit it can need. For the
flexible format this is an estimate: a quarter on top of all bits. -/
def worstCaseBits (extended : Bool) (len : Nat) : Format → Nat
  | .classic => (if extended then 80 else 55) + len * 10
  | .flexible =>
    let idBits := if extended then 29 else 11
    let checksumBits := if len ≥ 16 then 21 else 17
    (1 + idBits + checksumBits + 5 + 12 + len * 8) * 5 / 4

def wireBits (f : Frame) : Nat := worstCaseBits f.id.isExtended f.len .classic

end Frame

end CanBus
