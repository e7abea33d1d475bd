/-!
The eight data bytes of a classic frame. A frame that carries fewer still has all eight; `ofList`
fills with zeros.
-/

namespace CanBus

structure Payload where
  bytes : List UInt8
  length_eq : bytes.length = 8
  deriving DecidableEq, Repr

namespace Payload

/-- The first eight of the bytes, with zeros for those that are missing. -/
def ofList (bs : List UInt8) : Payload :=
  ⟨(bs ++ List.replicate 8 0).take 8, by simp⟩

def zero : Payload := ofList []

def byte (p : Payload) (i : Nat) : UInt8 := p.bytes.getD i 0

theorem ext_bytes {p q : Payload} (h : p.bytes = q.bytes) : p = q := by
  cases p; cases q; cases h; rfl

theorem ofList_bytes (p : Payload) : ofList p.bytes = p := by
  apply ext_bytes
  simp [ofList, p.length_eq]

theorem take_ofList {bs : List UInt8} (h : bs.length ≤ 8) :
    (ofList bs).bytes.take bs.length = bs := by
  rw [ofList, List.take_take, Nat.min_eq_left h, List.take_left]

end Payload

end CanBus
