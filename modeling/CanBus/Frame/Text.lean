import CanBus.Frame
import CanBus.Text.Blank

/-!
The text of a frame: the identifier in three or eight digits, a hash, and the data in pairs of
digits. Reading is more liberal than writing; `parse` gives its rules.
-/

namespace CanBus.Frame

open CanBus.Text

def idDigits : Identifier → List Char
  | .standard v => Hex.fixed .upper 3 v.val
  | .extended v => Hex.fixed .upper 8 v.val

def chars (f : Frame) : List Char := idDigits f.id ++ '#' :: Hex.octets .upper f.data

def text (f : Frame) : String := String.ofList f.chars

/-- The parts before and after the first hash. -/
def splitHash? : List Char → Option (List Char × List Char)
  | [] => none
  | c :: cs =>
    if c = '#' then some ([], cs) else (splitHash? cs).map fun p => (c :: p.1, p.2)

/-- A number of at most 32 bits in hexadecimal digits, with at most one plus sign before them. -/
def readId? (cs : List Char) : Option UInt32 :=
  let digits := match cs with
    | '+' :: ds => ds
    | ds => ds
  match Hex.number? digits with
  | some n => if n < 0x100000000 then some (UInt32.ofNat n) else none
  | none => none

/-- Pairs of digits; dots between, before and after digits don't count. -/
def readData? (cs : List Char) : Option (List UInt8) :=
  Hex.octets? (cs.filter (· ≠ '.'))

/-- Blanks around the text are dropped. The frame is extended if its identifier is written in eight
characters, a sign included, or needs more than 11 bits. -/
def parse (s : String) : Except Failure Frame :=
  match splitHash? (trim s.toList) with
  | none => .error (.unreadable s)
  | some (idPart, dataPart) =>
    match readId? idPart, readData? dataPart with
    | some id, some data => build id (idPart.length = 8 || 0x7FF < id) data
    | _, _ => .error (.unreadable s)

end CanBus.Frame
