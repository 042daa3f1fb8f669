/-!
# Timing

The times that all members of a chain agree on, in milliseconds, and the time that a byte
occupies a serial line.
-/

namespace DaisyChain

/-! ### Delays of a node -/

/-- The time for which a node waits for the next byte of a transaction. -/
def nodeTimeout : Nat := 25

/-- How much longer than `nodeTimeout` a node needs to recover. -/
def recoveryMargin : Nat := 5

/-- The time for which a node discards traffic after a fault.  It exceeds `nodeTimeout`, so
every node that waits for this one gives up first. -/
def recoveryDelay : Nat := nodeTimeout + recoveryMargin

/-! ### Serial lines -/

/-- The number of data bits of a byte on the line. -/
inductive DataBits where
  | seven
  | eight
  | nine
  deriving DecidableEq, Repr

/-- The parity of a byte on the line. -/
inductive LineParity where
  | none
  | even
  | odd
  deriving DecidableEq, Repr

/-- The number of stop bits of a byte on the line. -/
inductive StopBits where
  | one
  | two
  deriving DecidableEq, Repr

/-- How bytes travel on a serial line. -/
structure SerialLine where
  /-- Bits in a second. -/
  baudrate : Nat
  dataBits : DataBits
  parity : LineParity
  stopBits : StopBits
  deriving DecidableEq, Repr

namespace SerialLine

/-- The line of a chain. -/
def chain : SerialLine :=
  ⟨115200, .eight, .none, .one⟩

/-- The number of bits that a byte takes on the line, the start bit included. -/
def bits (line : SerialLine) : Nat :=
  let data := match line.dataBits with
    | .seven => 7
    | .eight => 8
    | .nine => 9
  let parity := match line.parity with
    | .none => 0
    | .even | .odd => 1
  let stop := match line.stopBits with
    | .one => 1
    | .two => 2
  1 + data + parity + stop

/-- The least number of units that hold the given amount. -/
def ceilDiv (amount unit : Nat) : Nat :=
  (amount + unit - 1) / unit

/-- The microseconds for which a byte occupies the line, rounded up.  On a line that does
not move there is no such time. -/
def byteTime? (line : SerialLine) : Option Nat :=
  if line.baudrate = 0 then none else some (ceilDiv (line.bits * 1000000) line.baudrate)

end SerialLine

end DaisyChain
