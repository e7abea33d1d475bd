/-!
Lossy reading of UTF-8. A byte sequence that no scalar value is written as is replaced by U+FFFD:
one replacement for each longest start of a well-formed sequence, and one for each byte that starts
none.
-/

namespace CanBus.Text.Utf8

def replacement : Char := Char.ofNat 0xFFFD

def isContinuation (b : UInt8) : Bool := 0x80 ≤ b && b ≤ 0xBF

/-- The second byte of a three-byte sequence: no overlong form and no surrogate. -/
def isSecondOfThree (a b : UInt8) : Bool :=
  if a = 0xE0 then 0xA0 ≤ b && b ≤ 0xBF
  else if a = 0xED then 0x80 ≤ b && b ≤ 0x9F
  else isContinuation b

/-- The second byte of a four-byte sequence: no overlong form and nothing past U+10FFFF. -/
def isSecondOfFour (a b : UInt8) : Bool :=
  if a = 0xF0 then 0x90 ≤ b && b ≤ 0xBF
  else if a = 0xF4 then 0x80 ≤ b && b ≤ 0x8F
  else isContinuation b

/-- The scalar value that a leading byte with the payload `lead` and the
continuation bytes `bs` denote. -/
def scalar (lead : Nat) (bs : List UInt8) : Char :=
  Char.ofNat (bs.foldl (fun n b => 64 * n + b.toNat % 64) lead)

def decode : List UInt8 → List Char
  | [] => []
  | a :: s =>
    if a < 0x80 then Char.ofNat a.toNat :: decode s
    else if 0xC2 ≤ a && a ≤ 0xDF then
      match s with
      | b :: t =>
        if isContinuation b then scalar (a.toNat % 32) [b] :: decode t
        else replacement :: decode (b :: t)
      | [] => [replacement]
    else if 0xE0 ≤ a && a ≤ 0xEF then
      match s with
      | b :: t =>
        if isSecondOfThree a b then
          match t with
          | c :: u =>
            if isContinuation c then scalar (a.toNat % 16) [b, c] :: decode u
            else replacement :: decode (c :: u)
          | [] => [replacement]
        else replacement :: decode (b :: t)
      | [] => [replacement]
    else if 0xF0 ≤ a && a ≤ 0xF4 then
      match s with
      | b :: t =>
        if isSecondOfFour a b then
          match t with
          | c :: u =>
            if isContinuation c then
              match u with
              | d :: v =>
                if isContinuation d then scalar (a.toNat % 8) [b, c, d] :: decode v
                else replacement :: decode (d :: v)
              | [] => [replacement]
            else replacement :: decode (c :: u)
          | [] => [replacement]
        else replacement :: decode (b :: t)
      | [] => [replacement]
    else replacement :: decode s
  termination_by bs => bs.length

def text (bs : List UInt8) : String := String.ofList (decode bs)

/-- The text up to the first NUL byte, if there is one. -/
def untilNul? (bs : List UInt8) : Option String :=
  if bs.contains 0 then some (text (bs.takeWhile (· != 0))) else none

end CanBus.Text.Utf8
