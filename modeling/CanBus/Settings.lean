import CanBus.Health

/-!
Settings of a session. Durations are in nanoseconds.
-/

namespace CanBus

structure Settings where
  bitrate : UInt32
  queueLength : UInt32
  sendTimeout : Nat
  receiveWait : Nat
  pollWait : Nat
  busOffThreshold : UInt32
  errorMask : UInt32
  linkDownOnDrop : Bool
  deriving DecidableEq, Repr

namespace Settings

def defaultBitrate : UInt32 := 250000
def defaultQueueLength : UInt32 := 1000

def standard : Settings where
  bitrate := defaultBitrate
  queueLength := defaultQueueLength
  sendTimeout := 500000
  receiveWait := 100000
  pollWait := 5000000
  busOffThreshold := Health.defaultThreshold
  errorMask := ErrorClass.fullMask
  linkDownOnDrop := true

/-- A wait as whole milliseconds. What is left of a microsecond is cut off, what is left of a
millisecond counts as a whole one, and no wait is longer than 65535 of them. -/
def waitMillis (nanos : Nat) : UInt16 := UInt16.ofNat (min ((nanos / 1000 + 999) / 1000) 65535)

end Settings

end CanBus
