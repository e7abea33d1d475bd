import CanBus.Frame
import CanBus.Kernel.State

/-!
Received frames that wait to be taken, oldest first. There is no bound, but
a long queue is warned of.
-/

namespace CanBus

abbrev Inbox := List Frame

namespace Inbox

/-- Above this length, each push logs a warning. -/
def warnLength : Nat := 100

def push (name : String) (q : Inbox) (f : Frame) : System Inbox := do
  let q := q ++ [f]
  if warnLength < q.length then Kernel.log .warn s!"{name}: RX queue has {q.length} frames"
  return q

def pop? : Inbox → Option Frame × Inbox
  | [] => (none, [])
  | f :: q => (some f, q)

end Inbox

end CanBus
