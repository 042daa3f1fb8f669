import DaisyChain.Gateway.Environment

/-!
# Journals

A journal accompanies a state with a line and a replica and notes down what the chain
reports: every change of its length and every record of a node, in the order in which they
came.
-/

namespace DaisyChain.Gateway

/-- Something that the chain reported. -/
inductive Notice where
  /-- The chain has the given number of nodes. -/
  | count (count : Nat)
  /-- The node of the given index has the given record. -/
  | record (index : Nat) (fault : Option Fault) (state : Option NodeState)
  deriving DecidableEq, Repr

/-- A state with the notices that came so far. -/
structure Journal (S : Type) where
  state : S
  notices : List Notice := []
  /-- The capacity that the replica states in place of its own, if any. -/
  capacity : Option Nat := none

namespace Journal

variable {S M : Type}

/-- The state that a journal accompanies. -/
def part : Part (Journal S) S :=
  ⟨Journal.state, fun state j => { j with state := state }⟩

/-- Note something down. -/
def note (j : Journal S) (notice : Notice) : Journal S :=
  { j with notices := j.notices ++ [notice] }

instance [Transport S] : Transport (Journal S) :=
  .ofPart part

instance [Replica S M] : Replica (Journal S) M where
  count := part.run Replica.count
  capacity j := j.capacity.getD (Replica.capacity j.state)
  module? index := part.run (Replica.module? index)
  modify index f := part.run (Replica.modify index f)
  countChanged count j := part.run (Replica.countChanged count) (j.note (.count count))
  mustWrite index property := part.run (Replica.mustWrite index property)
  reported index fault state j :=
    part.run (Replica.reported index fault state) (j.note (.record index fault state))

end Journal

end DaisyChain.Gateway
