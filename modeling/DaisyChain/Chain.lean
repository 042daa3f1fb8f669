import DaisyChain.Node.Station

/-!
# Chains

In a chain every node sends to the next one.  The first link comes from the gateway, and the
last one leads back to it; a chain without nodes is a single link.  All nodes are modules of
one type and work from one table.

A round gives every node one step, in the order of the chain, at the time of the chain.
-/

namespace DaisyChain

/-- A node of a chain with the link on which it sends. -/
structure ChainNode (M : Type) where
  engine : Node.Engine := {}
  module : M
  out : Link := {}
  /-- The bytes that the node sent have not left it yet. -/
  stalled : Bool := false

/-- A chain of nodes, with the link that leads to the first of them. -/
structure Chain (M : Type) where
  table : Table M
  entry : Link := {}
  nodes : List (ChainNode M) := []
  /-- The time, in milliseconds, on a clock that wraps round. -/
  now : UInt32 := 0

namespace ChainNode

variable {M : Type}

/-- The station of a node whose input is the given link.  Its line is active while bytes
wait to be read. -/
def station (node : ChainNode M) (input : Link) : Node.Station M where
  engine := node.engine
  module := node.module
  wiring := {
    rx := input.queue
    tx := node.out
    drained := !node.stalled
    busy := fun rx => !rx.isEmpty }

/-- One step of a node: its input and the node afterwards. -/
def tick (table : Table M) (now : UInt32) (input : Link) (node : ChainNode M) :
    Link × ChainNode M :=
  let s := (node.station input).tick table now
  ({ input with queue := s.wiring.rx },
    { node with engine := s.engine, module := s.module, out := s.wiring.tx })

/-- One step of every node: the input of the first one and the nodes afterwards. -/
def tickAll (table : Table M) (now : UInt32) :
    Link → List (ChainNode M) → Link × List (ChainNode M)
  | input, [] => (input, [])
  | input, node :: rest =>
    let (input', node') := node.tick table now input
    let (out, rest') := tickAll table now node'.out rest
    (input', { node' with out := out } :: rest')

end ChainNode

namespace Chain

variable {M : Type}

/-- The chain of the given modules, with links of the given capacity. -/
def ofModules (table : Table M) (modules : List M) (capacity : Nat) (now : UInt32) :
    Chain M where
  table := table
  entry := { capacity := capacity }
  nodes := modules.map fun m => { module := m, out := { capacity := capacity } }
  now := now

/-- One step of every node. -/
def round (c : Chain M) : Chain M :=
  let (entry, nodes) := ChainNode.tickAll c.table c.now c.entry c.nodes
  { c with entry := entry, nodes := nodes }

/-! ### Links -/

/-- The links in the order of the chain. -/
def links (c : Chain M) : List Link :=
  c.entry :: c.nodes.map ChainNode.out

/-- The link back to the gateway. -/
def exit (c : Chain M) : Link :=
  c.links.getLast (by simp [links])

/-- Change the link of the given index. -/
def modifyLink (c : Chain M) (index : Nat) (f : Link → Link) : Chain M :=
  match index with
  | 0 => { c with entry := f c.entry }
  | i + 1 => { c with nodes := c.nodes.modify i fun node => { node with out := f node.out } }

/-- Change the link back to the gateway. -/
def modifyExit (c : Chain M) (f : Link → Link) : Chain M :=
  c.modifyLink c.nodes.length f

end Chain

end DaisyChain
