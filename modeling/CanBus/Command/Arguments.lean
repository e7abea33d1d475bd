import CanBus.Frame

/-!
The arguments of the command: an interface, then one of six verbs with its operand and options. Help
and version are asked for by flags before the verb, and end the reading at once; every mistake is a
usage error.
-/

namespace CanBus.Command

/-- An option that takes a value. -/
inductive Setting
  | bitrate
  | interval
  deriving DecidableEq, Repr

def Setting.long : Setting → String
  | .bitrate => "bitrate"
  | .interval => "interval"

def Setting.short : Setting → Char
  | .bitrate => 'b'
  | .interval => 'i'

inductive Verb
  | up
  | down
  | bitrate
  | details
  | send
  | monitor
  deriving DecidableEq, Repr

namespace Verb

def all : List Verb := [up, down, bitrate, details, send, monitor]

def name : Verb → String
  | up => "up"
  | down => "down"
  | bitrate => "bitrate"
  | details => "details"
  | send => "send"
  | monitor => "monitor"

def ofName? (s : String) : Option Verb := all.find? fun v => v.name = s

def hasOperand (v : Verb) : Bool := v = bitrate || v = send

def settings : Verb → List Setting
  | send => [.bitrate]
  | monitor => [.interval, .bitrate]
  | _ => []

end Verb

/-- What is to be done with the interface. -/
inductive Action
  | up
  | down
  | bitrate (value : UInt32)
  | details
  | send (frame : String) (bitrate : Option UInt32)
  | monitor (interval : Option Nat) (bitrate : Option UInt32)
  deriving DecidableEq, Repr

/-- Why nothing is to be done. -/
inductive Stop
  | usage
  | help
  | version
  deriving DecidableEq, Repr

structure Invocation where
  interface : String
  action : Option Action
  deriving DecidableEq, Repr

/-! ## Values -/

def decimal? (cs : List Char) : Option Nat :=
  if cs.isEmpty then none
  else cs.foldlM (fun n c => if c.isDigit then some (10 * n + (c.toNat - 48)) else none) 0

/-- A whole number with at most one sign, of at most 32 bits. -/
def bitrate? (s : String) : Option UInt32 :=
  let n? : Option Int := match s.toList with
    | '+' :: cs => (decimal? cs).map fun n => n
    | '-' :: cs => (decimal? cs).map fun n => -n
    | cs => (decimal? cs).map fun n => n
  match n? with
  | some n => if 0 ≤ n ∧ n < 0x100000000 then some (UInt32.ofNat n.toNat) else none
  | none => none

/-- A whole number, perhaps with a plus sign, of at most 64 bits. -/
def interval? (s : String) : Option Nat :=
  let n? := match s.toList with
    | '+' :: cs => decimal? cs
    | cs => decimal? cs
  n?.bind fun n => if n < 0x10000000000000000 then some n else none

/-! ## Words and flags -/

inductive Token
  | separator
  | long (name : List Char) (value : Option (List Char))
  | short (letter : Char) (rest : List Char)
  | word (s : String)
  deriving DecidableEq, Repr

def splitEquals : List Char → List Char × Option (List Char)
  | [] => ([], none)
  | c :: cs =>
    if c = '=' then ([], some cs)
    else
      let (name, value) := splitEquals cs
      (c :: name, value)

/-- A lone dash is a word. -/
def Token.ofString (s : String) : Token :=
  match s.toList with
  | ['-', '-'] => .separator
  | '-' :: '-' :: cs =>
    let (name, value) := splitEquals cs
    .long name value
  | '-' :: c :: cs => .short c cs
  | _ => .word s

/-! ## After the verb -/

/-- What was read so far. -/
structure Given where
  operand : Option String := none
  bitrate : Option UInt32 := none
  interval : Option Nat := none
  /-- An option that still waits for its value. -/
  awaited : Option Setting := none
  /-- An option was repeated or left without a value. -/
  isFaulty : Bool := false
  deriving DecidableEq, Repr

namespace Given

def setting (g : Given) (s : Setting) (value : String) : Except Stop Given :=
  let g := { g with awaited := none }
  match s with
  | .bitrate =>
    match bitrate? value with
    | some n => .ok { g with bitrate := some n, isFaulty := g.isFaulty || g.bitrate.isSome }
    | none => .error .usage
  | .interval =>
    match interval? value with
    | some n => .ok { g with interval := some n, isFaulty := g.isFaulty || g.interval.isSome }
    | none => .error .usage

/-- The operand of `bitrate` is checked as it is read. -/
def word (g : Given) (v : Verb) (s : String) : Except Stop Given :=
  if !v.hasOperand || g.operand.isSome then .error .usage
  else if v = .bitrate && (bitrate? s).isNone then .error .usage
  else .ok { g with operand := some s }

/-- A flag leaves an awaited value missing. -/
def interrupted (g : Given) : Given :=
  { g with awaited := none, isFaulty := g.isFaulty || g.awaited.isSome }

/-- An option with its value, or without one if that is the next argument. -/
def option (g : Given) (s : Setting) (value : Option String) : Except Stop Given :=
  let g := g.interrupted
  match value with
  | some v => g.setting s v
  | none => .ok { g with awaited := some s }

/-- Behind a verb there is neither help nor version, only the settings of the verb. -/
def flag (g : Given) (v : Verb) : Token → Except Stop Given
  | .long name value =>
    match v.settings.find? fun s => s.long.toList = name with
    | some s => g.option s (value.map String.ofList)
    | none => .error .usage
  | .short letter rest =>
    match v.settings.find? fun s => s.short = letter with
    | some s =>
      g.option s (match rest with
        | [] => none
        | '=' :: cs => some (String.ofList cs)
        | cs => some (String.ofList cs))
    | none => .error .usage
  | _ => .error .usage

end Given

/-- After a separator, everything is a word. -/
def readWords (v : Verb) : Given → List String → Except Stop Given
  | g, [] => .ok g
  | g, a :: as => do readWords v (← g.word v a) as

def readGiven (v : Verb) : Given → List String → Except Stop Given
  | g, [] => .ok g.interrupted
  | g, a :: as =>
    match Token.ofString a, g.awaited with
    | .separator, none => readWords v g as
    | .separator, some _ => .error .usage
    | .word w, some s => do readGiven v (← g.setting s w) as
    | .word w, none => do readGiven v (← g.word v w) as
    | t, _ => do readGiven v (← g.flag v t) as

def actionOf (v : Verb) (g : Given) : Except Stop Action :=
  if g.isFaulty then .error .usage
  else match v, g.operand with
    | .up, _ => .ok .up
    | .down, _ => .ok .down
    | .details, _ => .ok .details
    | .monitor, _ => .ok (.monitor g.interval g.bitrate)
    | .send, some frame => .ok (.send frame g.bitrate)
    | .bitrate, some value =>
      match bitrate? value with
      | some n => .ok (.bitrate n)
      | none => .error .usage
    | _, none => .error .usage

/-! ## Before the verb -/

/-- Help can be asked for about one verb, or about help. -/
def helpOn : List String → Stop
  | [] => .help
  | [s] => if s = "help" || (Verb.ofName? s).isSome then .help else .usage
  | _ => .usage

/-- Only one interface, and no verb, after a separator. -/
def readInterface : Option String → List String → Except Stop Invocation
  | some name, [] => .ok ⟨name, none⟩
  | none, [name] => .ok ⟨name, none⟩
  | _, _ => .error .usage

def read : Option String → List String → Except Stop Invocation
  | some name, [] => .ok ⟨name, none⟩
  | none, [] => .error .usage
  | name?, a :: as =>
    if a = "help" then .error (helpOn as)
    else match Verb.ofName? a, Token.ofString a with
      | some v, _ => do
        let action ← actionOf v (← readGiven v {} as)
        match name? with
        | some name => .ok ⟨name, some action⟩
        | none => .error .usage
      | none, .separator => readInterface name? as
      | none, .long name value =>
        .error (if value.isSome then .usage
          else if name = "help".toList then .help
          else if name = "version".toList then .version
          else .usage)
      | none, .short letter _ =>
        .error (if letter = '?' then .help else if letter = 'V' then .version else .usage)
      | none, .word w =>
        match name? with
        | none => read (some w) as
        | some _ => .error .usage

end CanBus.Command
