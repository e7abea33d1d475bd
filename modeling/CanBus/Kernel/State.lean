import CanBus.Health
import CanBus.Kernel.Call
import CanBus.Link

/-!
The kernel as this library sees it: interfaces, sockets with their receive queues, a link table, and
a script of outcomes for the calls to come. Every call and every log record is kept in `events`, in
order, with the thread that made it.
-/

namespace CanBus

inductive LogLevel
  | error
  | warn
  | info
  | debug
  | trace
  deriving DecidableEq, Repr

def LogLevel.text : LogLevel → String
  | .error => "ERROR"
  | .warn => "WARN"
  | .info => "INFO"
  | .debug => "DEBUG"
  | .trace => "TRACE"

/-- The owner of a session, or the reader that runs beside it. -/
inductive Thread
  | owner
  | reader
  deriving DecidableEq, Repr

inductive Event
  | call (thread : Thread) (call : Kernel.Call)
  | log (thread : Thread) (level : LogLevel) (text : String)
  deriving DecidableEq, Repr

/-- What a netlink socket receives: bytes, or an error number. -/
inductive Reply
  | bytes (bs : List UInt8)
  | error (number : Int)
  deriving DecidableEq, Repr

abbrev Handle := Nat
abbrev Datagram := List UInt8

/-- Changes a function at one argument. -/
def override {α β : Type} [DecidableEq α] (f : α → β) (a : α) (b : β) : α → β :=
  fun x => if x = a then b else f x

@[simp] theorem override_self {α β : Type} [DecidableEq α] (f : α → β) (a : α) (b : β) :
    override f a b a = b := by simp [override]

theorem override_of_ne {α β : Type} [DecidableEq α] (f : α → β) {a x : α} (b : β)
    (h : x ≠ a) :
    override f a b x = f x := by simp [override, h]

structure Kernel where
  interfaces : List (String × UInt32) := []
  script : Kernel.Service → List Int := fun _ => []
  replies : List Reply := []
  links : LinkTable := []
  /-- How many sockets there have been; the next one gets this handle. -/
  opened : Nat := 0
  inbox : Handle → List Datagram := fun _ => []
  /-- Sockets that still take datagrams: neither shut down nor released. -/
  accepts : Handle → Bool := fun _ => false
  /-- The socket bound last. -/
  newest : Option Handle := none
  /-- Datagrams that arrive at a socket as soon as it is bound. -/
  waiting : List Datagram := []
  clock : Instant := 0
  thread : Thread := .owner
  events : List Event := []

abbrev System := StateM Kernel

/-- A system call, or some of them, that can fail. -/
abbrev Syscall := ExceptT SystemError System

namespace Kernel

/-! ## Recording -/

def log (level : LogLevel) (text : String) : System Unit :=
  modify fun k => { k with events := k.events ++ [.log k.thread level text] }

/-- The next scripted outcome of a service: 0 is the normal one. -/
def outcome (s : Service) : System Int := fun k =>
  match k.script s with
  | [] => (0, k)
  | n :: ns => (n, { k with script := override k.script s ns })

def record (c : Call) : System Unit :=
  modify fun k => { k with events := k.events ++ [.call k.thread c] }

/-- Records the call, then takes its outcome from the script. -/
def perform (c : Call) : System Int := do
  record c
  match c.service? with
  | some s => outcome s
  | none => pure 0

/-- A positive outcome is an error number. -/
def call (c : Call) : Syscall Int := do
  let n ← perform c
  if 0 < n then throw (.code n) else pure n

/-- As `call`, for the calls that report no other error numbers than those of the table. -/
def knownCall (c : Call) : Syscall Int := do
  let n ← perform c
  if 0 < n then throw (.code (Errno.known n)) else pure n

def now : System Instant := do return (← get).clock

/-- Runs as the reader thread. -/
def setThread (t : Thread) : System Unit := modify fun k => { k with thread := t }

/-! ## Changes from outside -/

def advance (nanos : Nat) (k : Kernel) : Kernel := { k with clock := k.clock + nanos }

def addOutcomes (s : Service) (ns : List Int) (k : Kernel) : Kernel :=
  { k with script := override k.script s (k.script s ++ ns) }

def addReplies (rs : List Reply) (k : Kernel) : Kernel := { k with replies := k.replies ++ rs }

def setInterface (name : String) (index : Option UInt32) (k : Kernel) : Kernel :=
  let others := k.interfaces.filter fun i => i.1 ≠ name
  match index with
  | some n => { k with interfaces := (name, n) :: others }
  | none => { k with interfaces := others }

/-- A datagram comes in at the newest socket; false if that one takes none. -/
def deliver (d : Datagram) (k : Kernel) : Bool × Kernel :=
  match k.newest with
  | some h =>
    if k.accepts h then (true, { k with inbox := override k.inbox h (k.inbox h ++ [d]) })
    else (false, k)
  | none => (false, k)

end Kernel

end CanBus
