import CanBus.LittleEndian

/-!
The address of a raw CAN socket: the protocol family and the index of the interface it is bound to,
in 24 bytes.
-/

namespace CanBus

structure Address where
  index : UInt32
  deriving DecidableEq, Repr

namespace Address

def family : UInt16 := 29

def size : Nat := 24

def bytes (a : Address) : List UInt8 :=
  LittleEndian.word16 family ++ [0, 0] ++ LittleEndian.word32 a.index ++ List.replicate 16 0

/-- The index is shown as a signed word. -/
def text (a : Address) : String :=
  let signed := Int.bmod a.index.toNat 0x100000000
  "CanAddr \x7b " ++ s!"can_family: {family}, can_ifindex: {signed}" ++ " \x7d"

theorem length_bytes (a : Address) : a.bytes.length = size := by simp [bytes, size]

end Address

end CanBus
