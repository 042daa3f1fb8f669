import DaisyChain.Property.Id
import DaisyChain.Report

/-!
# What the gateway works with

The gateway reaches two things: a line, on which it sends and receives bytes, and a replica,
which holds its copy of every module.  Both are parts of one state, so that whatever else
goes on in that state may go on in every call.

`Transport` is the line.  Every call but a pause may fail, and does what it does all the
same.  `Replica` is the copy of the modules.  Every call is one access that nothing
interrupts; between two of them the replica may change.

A `Part` of a state is what a larger state makes of a smaller one; what the part can do, the
whole can do too.
-/

namespace DaisyChain.Gateway

/-! ### Parts of a state -/

/-- A way to find and to replace a part of type `P` in a state of type `S`. -/
structure Part (S P : Type) where
  get : S → P
  set : P → S → S

/-- Do something with a part of a state. -/
def Part.run {S P α : Type} (part : Part S P) (f : StateM P α) : StateM S α :=
  fun s => let (a, p) := f (part.get s); (a, part.set p s)

/-! ### The line -/

/-- A state with a line on which the gateway sends and receives. -/
class Transport (S : Type) where
  /-- Send the given bytes. -/
  send : List UInt8 → StateM S Bool
  /-- Wait for the given number of bytes for at most the given time, in milliseconds.  The
  answer is what arrived in time, or nothing at all if the line failed. -/
  receive : Nat → Nat → StateM S (Option (List UInt8))
  /-- Drop all that has arrived. -/
  flush : StateM S Bool
  /-- Wait until every byte sent has left. -/
  drain : StateM S Bool
  /-- Let the given time pass, in milliseconds. -/
  pause : Nat → StateM S Unit

/-- A state has the line of its part. -/
@[reducible]
def Transport.ofPart {S P : Type} [Transport P] (part : Part S P) : Transport S where
  send bytes := part.run (Transport.send bytes)
  receive count timeout := part.run (Transport.receive count timeout)
  flush := part.run Transport.flush
  drain := part.run Transport.drain
  pause ms := part.run (Transport.pause ms)

/-! ### The replica -/

/-- The largest number of modules that a replica can count. -/
def modulesMax : Nat := 65535

/-- A state with a copy of every module of type `M`. -/
class Replica (S : Type) (M : outParam Type) where
  /-- The number of modules known, in 16 bits. -/
  count : StateM S Nat
  /-- The most modules that there is room for. -/
  capacity : S → Nat := fun _ => modulesMax
  /-- The module of the given index. -/
  module? : Nat → StateM S (Option M)
  /-- Change the module of the given index. -/
  modify : {α : Type} → Nat → (M → α × M) → StateM S (Option α)
  /-- The chain turned out to have the given number of nodes. -/
  countChanged : Nat → StateM S Unit
  /-- The module of the given index holds a value of the property for its node alone. -/
  mustWrite : Nat → PropertyId → StateM S Bool
  /-- The node of the given index reported its record. -/
  reported : Nat → Option Fault → Option NodeState → StateM S Unit

end DaisyChain.Gateway
