import DaisyChain.Frame.Collector
import DaisyChain.Header
import DaisyChain.Timing

/-!
# The engine of a node

An engine is what a node knows about the traffic on its line: the phase of the transaction
in progress, when it last made progress, the values it holds back for a commit, and the
record of its last fault.

    listening ──header──► counting ──count > 0──► relaying ──frame──► counting
        ▲                  │     │
        │            read, 0     write, 0
        │                  ▼     ▼
        └──────────── sending   committing ◄──commit── listening

Every phase but listening for a new header is bounded by `nodeTimeout`; whatever goes wrong
leads to `recovering`, which is left after `recoveryDelay`.
-/

namespace DaisyChain.Node

/-- The number of properties for which a node holds values back. -/
def slotsMax : Nat := 4

/-- What an accepted header asks of a node. -/
structure Request where
  action : Action
  /-- A written value is held back until a commit. -/
  staged : Bool
  property : PropertyId
  deriving DecidableEq, Repr

/-- A received value that waits to be applied. -/
structure Slot where
  property : PropertyId
  data : List UInt8
  deriving DecidableEq, Repr

/-- The bytes of a header that is not yet complete. -/
inductive Heard where
  | nothing
  | first (byte0 : UInt8)
  | second (byte0 byte1 : UInt8)
  deriving DecidableEq, Repr

/-- The values that a node is about to apply. -/
inductive Batch where
  /-- The value of the transaction in progress. -/
  | one (slot : Slot)
  /-- Every value held back. -/
  | staged
  deriving DecidableEq, Repr

/-- What a node is doing, and what it needs to know to go on. -/
inductive Phase where
  /-- It listens for a header. -/
  | listening (heard : Heard)
  /-- It discards traffic after a fault. -/
  | recovering
  /-- It is about to take its turn or to wait for another frame; `kept` is the value of the
  frame that ended last, if the node keeps it. -/
  | counting (request : Request) (count : Nat) (kept : Option (List UInt8))
  /-- It has sent some bytes of its own frame. -/
  | sending (request : Request) (frame : List UInt8) (sent : Nat)
  /-- It receives a frame; `count` more are to come. -/
  | relaying (request : Request) (count : Nat) (collector : Frame.Collector)
  /-- It waits for its last byte to leave before it applies values. -/
  | committing (batch : Batch)
  deriving DecidableEq, Repr

/-- The state that a phase belongs to. -/
def Phase.state : Phase → NodeState
  | .listening _ => .listening
  | .recovering => .recovering
  | .counting .. => .counting
  | .sending .. => .sending
  | .relaying .. => .relaying
  | .committing _ => .committing

/-- What a node knows about the traffic on its line. -/
structure Engine where
  phase : Phase := .listening .nothing
  /-- When the phase began or last made progress. -/
  since : UInt32 := 0
  /-- The values held back for a commit. -/
  staged : List Slot := []
  /-- The last fault, until it has been reported. -/
  record : Option Record := none
  deriving DecidableEq, Repr

instance : Inhabited Engine :=
  ⟨{}⟩

namespace Engine

/-- The state of the engine. -/
def state (e : Engine) : NodeState :=
  e.phase.state

/-- The last fault, if it has not been reported. -/
def lastFault (e : Engine) : Option Fault :=
  e.record.map Record.fault

/-- The state in which the last fault occurred. -/
def faultState (e : Engine) : Option NodeState :=
  e.record.map Record.state

/-- The milliseconds since the last progress, on a clock that wraps round. -/
def elapsed (e : Engine) (now : UInt32) : Nat :=
  (now - e.since).toNat

/-- The engine has waited too long. -/
def timedOut (e : Engine) (now : UInt32) : Bool :=
  nodeTimeout < e.elapsed now

/-- Begin a phase. -/
def enter (e : Engine) (phase : Phase) (now : UInt32) : Engine :=
  { e with phase := phase, since := now }

/-- Record a fault and go on. -/
def note (e : Engine) (fault : Fault) : Engine :=
  { e with record := some ⟨fault, e.state⟩ }

/-- Record a fault and recover. -/
def fail (e : Engine) (fault : Fault) (now : UInt32) : Engine :=
  (e.note fault).enter .recovering now

/-- Hold a value back.  It takes the place of an older one of the same property; if there
is no place left it is dropped, which is a fault. -/
def stage (e : Engine) (slot : Slot) : Engine :=
  if e.staged.any fun held => held.property == slot.property then
    { e with staged := e.staged.map fun held =>
        if held.property == slot.property then slot else held }
  else if e.staged.length < slotsMax then
    { e with staged := e.staged ++ [slot] }
  else
    e.note .invalidState

end Engine

end DaisyChain.Node
