/-!
Network links and the changes that can be made to them.
-/

namespace CanBus

/-- A link as last read; what the kernel didn't report is `none`. -/
structure Link where
  name : String
  index : UInt32
  isUp : Bool
  kind : Option String
  bitrate : Option UInt32
  queueLength : Option UInt32
  deriving DecidableEq, Repr

/-- Only links of this kind have a bitrate. -/
def Link.isCan (l : Link) : Bool := l.kind = some "can"

inductive LinkChange
  | admin (up : Bool)
  | bitrate (value : UInt32)
  | queueLength (value : UInt32)
  deriving DecidableEq, Repr

namespace LinkChange

def apply (l : Link) : LinkChange → Link
  | .admin up => { l with isUp := up }
  | .bitrate value => { l with bitrate := some value }
  | .queueLength value => { l with queueLength := some value }

/-- The link already is what the change would make it. -/
def isIdle (l : Link) : LinkChange → Bool
  | .admin up => l.isUp = up
  | .bitrate value => l.bitrate = some value
  | .queueLength value => l.queueLength = some value

theorem apply_of_isIdle {l : Link} {c : LinkChange} (h : c.isIdle l) : c.apply l = l := by
  cases c <;> simp [isIdle] at h <;> simp [apply, ← h]

theorem isIdle_apply (l : Link) (c : LinkChange) : c.isIdle (c.apply l) := by
  cases c <;> simp [isIdle, apply]

end LinkChange

/-! ## Tables -/

/-- Links in the order of their names, each name once. -/
abbrev LinkTable := List Link

namespace LinkTable

def find? (t : LinkTable) (name : String) : Option Link := List.find? (fun l => l.name = name) t

def insert (l : Link) : LinkTable → LinkTable
  | [] => [l]
  | m :: t =>
    if l.name < m.name then l :: m :: t
    else if l.name = m.name then l :: t
    else m :: insert l t

def remove (t : LinkTable) (name : String) : LinkTable := t.filter fun l => l.name ≠ name

def ofList (ls : List Link) : LinkTable := ls.foldl (fun t l => insert l t) []

/-- Changes the first link with this index; `none` if there is none. -/
def change? (t : LinkTable) (index : UInt32) (c : LinkChange) : Option LinkTable :=
  match t with
  | [] => none
  | l :: t => if l.index = index then some (c.apply l :: t) else (change? t index c).map (l :: ·)

end LinkTable

end CanBus
