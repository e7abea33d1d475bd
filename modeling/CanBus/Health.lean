import CanBus.Report

/-!
The health of a bus: how busy it is, over a window that restarts on demand, and whether it counts as
off. The bus is off from a bus-off report, or from more failed sends in a row than a threshold
allows, until a data frame is received or the controller restarts.
-/

namespace CanBus

/-- A point in time, in nanoseconds from some fixed start. -/
abbrev Instant := Int

/-! ## Load -/

/-- Why a number can't be computed. Whoever asks for it doesn't go on. -/
inductive ArithmeticFault
  | overflow
  | zeroDivisor
  deriving DecidableEq, Repr

def ArithmeticFault.message : ArithmeticFault → String
  | .overflow => "attempt to multiply with overflow"
  | .zeroDivisor => "attempt to divide by zero"

/-- Counts of what was received since `start`. -/
structure LoadWindow where
  frames : UInt64
  wireBits : UInt64
  payloadBits : UInt64
  start : Instant
  deriving DecidableEq, Repr

namespace LoadWindow

def startingAt (t : Instant) : LoadWindow := ⟨0, 0, 0, t⟩

def record (w : LoadWindow) (wireBits payloadBits : UInt64) : LoadWindow :=
  { w with
    frames := w.frames + 1
    wireBits := w.wireBits + wireBits
    payloadBits := w.payloadBits + payloadBits }

/-- Nanoseconds since the start; none before it. -/
def age (w : LoadWindow) (now : Instant) : Nat := (now - w.start).toNat

def elapsedMillis (w : LoadWindow) (now : Instant) : UInt64 := UInt64.ofNat (w.age now / 1000000)

/-- Product in 64 bits, if it fits. -/
def checkedMul (a b : UInt64) : Except ArithmeticFault UInt64 :=
  if a.toNat * b.toNat < 0x10000000000000000 then .ok (a * b) else .error .overflow

def checkedDiv (a b : UInt64) : Except ArithmeticFault UInt64 :=
  if b = 0 then .error .zeroDivisor else .ok (a / b)

/-- Product in 64 bits, or the largest word if it doesn't fit. -/
def saturatingMul (a b : UInt64) : UInt64 :=
  if a.toNat * b.toNat < 0x10000000000000000 then a * b else 0xFFFFFFFFFFFFFFFF

/-- A thousand times the bits that the bus could have carried. -/
def capacity (w : LoadWindow) (bitrate : UInt32) (now : Instant) : Except ArithmeticFault UInt64 :=
  checkedMul bitrate.toUInt64 (w.elapsedMillis now)

/-- The load in percent, at most 100. It is 0 if no whole millisecond has passed, or without a
bitrate. -/
def load (w : LoadWindow) (bitrate : UInt32) (now : Instant) : Except ArithmeticFault UInt64 := do
  if w.elapsedMillis now = 0 ∨ bitrate = 0 then return 0
  let percent ← checkedDiv (saturatingMul w.wireBits 100000) (← w.capacity bitrate now)
  return min percent 100

end LoadWindow

/-! ## Bus-off -/

structure Health where
  threshold : UInt32
  txErrors : UInt32
  latched : Bool
  window : LoadWindow
  deriving DecidableEq, Repr

namespace Health

def defaultThreshold : UInt32 := 10

def healthy (threshold : UInt32) (now : Instant) : Health :=
  ⟨threshold, 0, false, LoadWindow.startingAt now⟩

def isBusOff (h : Health) : Bool := h.latched || h.threshold < h.txErrors

def sent (h : Health) : Health := { h with txErrors := 0 }

/-- The transmit buffers were full. The count wraps. -/
def overflowed (h : Health) : Health := { h with txErrors := h.txErrors + 1 }

/-- A data frame came in, or the controller was restarted. -/
def cleared (h : Health) : Health := { h with txErrors := 0, latched := false }

/-- Reports other than of bus-off leave the latch as it is. -/
def reported (h : Health) (r : Report) : Health :=
  { h with latched := h.latched || r.isBusOff }

def counted (h : Health) (wireBits payloadBits : UInt64) : Health :=
  { h with window := h.window.record wireBits payloadBits }

def restartWindow (h : Health) (now : Instant) : Health :=
  { h with window := LoadWindow.startingAt now }

/-- The load of the window, and a new window. -/
def takeLoad (h : Health) (bitrate : UInt32) (now : Instant) :
    Except ArithmeticFault (UInt64 × Health) := do
  return (← h.window.load bitrate now, h.restartWindow now)

end Health

end CanBus
