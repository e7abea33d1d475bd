/-!
Little-endian byte lists. `bytes w n` writes `n` in `w` bytes, least significant first, and `value`
reads any byte list back. Main statements: `value_bytes` and `bytes_value`, each a left inverse on
the values that fit.
-/

namespace CanBus.LittleEndian

/-- Higher bytes of `n` than the first `w` are cut off. -/
def bytes : Nat → Nat → List UInt8
  | 0, _ => []
  | w + 1, n => UInt8.ofNat n :: bytes w (n / 256)

def value : List UInt8 → Nat
  | [] => 0
  | b :: bs => b.toNat + 256 * value bs

def word16 (n : UInt16) : List UInt8 := bytes 2 n.toNat
def word32 (n : UInt32) : List UInt8 := bytes 4 n.toNat

@[simp] theorem length_bytes (w n : Nat) : (bytes w n).length = w := by
  induction w generalizing n with
  | zero => rfl
  | succ w ih => simp [bytes, ih]

@[simp] theorem length_word16 (n : UInt16) : (word16 n).length = 2 := length_bytes 2 _
@[simp] theorem length_word32 (n : UInt32) : (word32 n).length = 4 := length_bytes 4 _

theorem value_bytes (w n : Nat) : value (bytes w n) = n % Nat.pow 256 w := by
  induction w generalizing n with
  | zero => simp [bytes, value, Nat.mod_one]
  | succ w ih =>
    have hp : Nat.pow 256 (w + 1) = 256 * Nat.pow 256 w := Nat.mul_comm _ _
    rw [bytes, value, ih, hp, Nat.mod_mul, UInt8.toNat_ofNat']

theorem value_lt (bs : List UInt8) : value bs < Nat.pow 256 bs.length := by
  induction bs with
  | nil => simp [value]
  | cons b bs ih =>
    have hb := b.toNat_lt
    have hp : Nat.pow 256 (bs.length + 1) = Nat.pow 256 bs.length * 256 := rfl
    rw [value, List.length_cons, hp]
    omega

theorem bytes_value (bs : List UInt8) : bytes bs.length (value bs) = bs := by
  induction bs with
  | nil => rfl
  | cons b bs ih =>
    have hb := b.toNat_lt
    have hd : (b.toNat + 256 * value bs) / 256 = value bs := by omega
    have hm : UInt8.ofNat (b.toNat + 256 * value bs) = b := by
      apply UInt8.toNat_inj.mp
      rw [UInt8.toNat_ofNat']
      omega
    rw [List.length_cons, value, bytes, hd, hm, ih]

theorem bytes_value_of_length {bs : List UInt8} {w : Nat} (h : bs.length = w) :
    bytes w (value bs) = bs := by
  subst h
  exact bytes_value bs

theorem value_word32 (n : UInt32) : value (word32 n) = n.toNat := by
  rw [word32, value_bytes]
  exact Nat.mod_eq_of_lt n.toNat_lt

theorem value_word16 (n : UInt16) : value (word16 n) = n.toNat := by
  rw [word16, value_bytes]
  exact Nat.mod_eq_of_lt n.toNat_lt

theorem word32_value {bs : List UInt8} (h : bs.length = 4) :
    word32 (UInt32.ofNat (value bs)) = bs := by
  have hlt := value_lt bs
  rw [h] at hlt
  rw [word32, UInt32.toNat_ofNat_of_lt' hlt, bytes_value_of_length h]

theorem word16_value {bs : List UInt8} (h : bs.length = 2) :
    word16 (UInt16.ofNat (value bs)) = bs := by
  have hlt := value_lt bs
  rw [h] at hlt
  rw [word16, UInt16.toNat_ofNat_of_lt' hlt, bytes_value_of_length h]

/-- A field in the midst of other bytes. -/
theorem take_drop_field {start width : Nat} {before field after : List UInt8}
    (hb : before.length = start) (hf : field.length = width) :
    ((before ++ (field ++ after)).drop start).take width = field := by
  rw [List.drop_left' hb, List.take_left' hf]

/-- Two fields, one next to the other. -/
theorem take_append_slice {a b : Nat} (h : a ≤ b) (bs : List UInt8) :
    bs.take a ++ (bs.take b).drop a = bs.take b := by
  have hsplit := List.take_append_drop a (bs.take b)
  rwa [List.take_take, Nat.min_eq_left h] at hsplit

end CanBus.LittleEndian
