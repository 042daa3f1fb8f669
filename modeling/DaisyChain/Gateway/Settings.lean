import DaisyChain.Timing

/-!
# Settings of the gateway

How long the gateway waits for an answer, how often it repeats a broadcast, and how long it
pauses before.  All times are in milliseconds and stay below `timeModulus`: sums and
products that would not are cut to `timeMax`.
-/

namespace DaisyChain.Gateway

/-- The number of times that thirty-two bits can tell apart. -/
def timeModulus : Nat := 4294967296

/-- The longest time that the gateway measures. -/
def timeMax : Nat := timeModulus - 1

/-- The times and the number of attempts of the gateway. -/
structure Settings where
  /-- The part of a receive timeout that does not depend on the number of bytes. -/
  baseTimeout : Nat := 1000
  /-- What every expected byte adds to a receive timeout. -/
  byteTimeout : Nat := 1
  /-- How often a failed broadcast is repeated. -/
  retries : Nat := 3
  /-- The pause before a broadcast is repeated. -/
  pause : Nat := recoveryDelay
  deriving DecidableEq, Repr

namespace Settings

/-- The settings for a line, on which a byte takes at least the time that the settings
allow for it. -/
def ofLine? (line : SerialLine) : Option Settings :=
  line.byteTime?.map fun time => { byteTimeout := max 1 (SerialLine.ceilDiv time 1000) }

/-- The time to wait for the given number of bytes. -/
def receiveTimeout (s : Settings) (bytes : Nat) : Nat :=
  min timeMax (s.baseTimeout + min timeMax (bytes % timeModulus * s.byteTimeout))

end Settings

end DaisyChain.Gateway
