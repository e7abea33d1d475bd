/-!
Hexadecimal text. `fixed` writes a number in a given count of digits, `natural` in as few as it
needs; `number?` reads digits of either case and `octets?` reads pairs of them as bytes.
-/

namespace CanBus.Text.Hex

/-! ## Writing -/

inductive Case
  | lower
  | upper
  deriving DecidableEq, Repr

def digit (c : Case) (n : Nat) : Char :=
  if n < 10 then Char.ofNat (48 + n)
  else match c with
    | .lower => Char.ofNat (87 + n)
    | .upper => Char.ofNat (55 + n)

/-- The `w` lowest digits of `n`, most significant first. -/
def fixed (c : Case) : Nat → Nat → List Char
  | 0, _ => []
  | w + 1, n => fixed c w (n / 16) ++ [digit c (n % 16)]

def natural (c : Case) (n : Nat) : List Char :=
  if n < 16 then [digit c n] else natural c (n / 16) ++ [digit c (n % 16)]
  termination_by n
  decreasing_by omega

def octets (c : Case) (bs : List UInt8) : List Char :=
  bs.flatMap fun b => fixed c 2 b.toNat

/-- Upper-case pairs with a blank between them. -/
def dump (bs : List UInt8) : String :=
  " ".intercalate (bs.map fun b => String.ofList (fixed .upper 2 b.toNat))

@[simp] theorem length_fixed (c : Case) (w n : Nat) : (fixed c w n).length = w := by
  induction w generalizing n with
  | zero => rfl
  | succ w ih => simp [fixed, ih]

@[simp] theorem length_octets (c : Case) (bs : List UInt8) :
    (octets c bs).length = 2 * bs.length := by
  induction bs with
  | nil => rfl
  | cons b bs ih =>
    simp only [octets, List.flatMap_cons, List.length_append, length_fixed,
      List.length_cons] at ih ⊢
    omega

/-! ## Reading -/

def value? (c : Char) : Option Nat :=
  if '0' ≤ c ∧ c ≤ '9' then some (c.toNat - 48)
  else if 'a' ≤ c ∧ c ≤ 'f' then some (c.toNat - 87)
  else if 'A' ≤ c ∧ c ≤ 'F' then some (c.toNat - 55)
  else none

/-- Continues a number whose leading digits came to `acc`. -/
def numberFrom? (acc : Nat) : List Char → Option Nat
  | [] => some acc
  | c :: cs => (value? c).bind fun d => numberFrom? (16 * acc + d) cs

/-- At least one digit, and digits only. -/
def number? : List Char → Option Nat
  | [] => none
  | cs => numberFrom? 0 cs

def octets? : List Char → Option (List UInt8)
  | [] => some []
  | [_] => none
  | a :: b :: cs =>
    match value? a, value? b, octets? cs with
    | some hi, some lo, some bs => some (UInt8.ofNat (16 * hi + lo) :: bs)
    | _, _, _ => none

theorem value?_digit (c : Case) {n : Nat} (h : n < 16) : value? (digit c n) = some n := by
  have : ∀ n < 16, value? (digit .lower n) = some n ∧ value? (digit .upper n) = some n := by
    decide
  cases c
  · exact (this n h).1
  · exact (this n h).2

theorem octets?_octets (c : Case) (bs : List UInt8) : octets? (octets c bs) = some bs := by
  induction bs with
  | nil => rfl
  | cons b bs ih =>
    have hb := b.toNat_lt
    have h1 : b.toNat / 16 % 16 = b.toNat / 16 := by omega
    have h2 : 16 * (b.toNat / 16) + b.toNat % 16 = b.toNat := by omega
    have h3 : octets c (b :: bs) =
        digit c (b.toNat / 16) :: digit c (b.toNat % 16) :: octets c bs := by
      simp [octets, fixed, h1]
    rw [h3, octets?, value?_digit c (by omega), value?_digit c (by omega), ih]
    simp only [h2, UInt8.ofNat_toNat]

end CanBus.Text.Hex
