import DaisyChain.Chain
import DaisyChain.Node.Weight

/-!
# Settling

At any one time a chain can move only so many bytes, so rounds at the same time end in a
chain in which no byte moves and no node changes its state.  `settle` makes rounds until
then.

The weight of a byte grows with the number of nodes that are still to read it.
`potential_round` says that a round either makes the chain lighter or leaves its links and
states as they were.  Hence a chain settles, with a last round in which nothing moves
(`exists_round_eq_settle`), and keeps all that a round keeps (`settle_preserves`).
-/

namespace DaisyChain

/-- The weight of a byte that the given number of nodes are still to read. -/
def byteWeight : Nat → Nat
  | 0 => 0
  | behind + 1 => byteWeight behind + Node.phaseMax (byteWeight behind) + 1

/-- How much a link holds and has carried. -/
def Link.trace (l : Link) : Nat × Nat :=
  (l.queue.length, l.pushed)

namespace ChainNode

variable {M : Type}

/-- What the nodes weigh, with the link that leads to the first of them. -/
def potential (now : UInt32) : Link → List (ChainNode M) → Nat
  | input, [] => byteWeight 0 * input.queue.length
  | input, node :: rest =>
    byteWeight (rest.length + 1) * input.queue.length +
      node.engine.weight now (byteWeight rest.length) + potential now node.out rest

/-- The state of a node and the trace of its link. -/
def trace (node : ChainNode M) : NodeState × Nat × Nat :=
  (node.engine.state, node.out.trace)

/-- A round keeps all nodes. -/
theorem length_tickAll (table : Table M) (now : UInt32) (input : Link)
    (nodes : List (ChainNode M)) :
  (tickAll table now input nodes).2.length = nodes.length
  := by
  induction nodes generalizing input with
  | nil => rfl
  | cons node rest ih => simp [tickAll, ih]

/-- How the weight of nodes depends on the link that leads to them. -/
theorem potential_input (now : UInt32) (l l' : Link) (nodes : List (ChainNode M)) :
  potential now l nodes + byteWeight nodes.length * l'.queue.length =
    potential now l' nodes + byteWeight nodes.length * l.queue.length
  := by
  cases nodes with
  | nil =>
    simp only [potential, List.length_nil]
    omega
  | cons node rest =>
    simp only [potential, List.length_cons]
    omega

/-- A round makes the nodes and their links lighter, or changes nothing that can be seen. -/
theorem potential_tickAll (table : Table M) (now : UInt32) (input : Link)
    (nodes : List (ChainNode M)) :
  let r := tickAll table now input nodes
  potential now r.1 r.2 < potential now input nodes ∨
    (r.1.trace = input.trace ∧ r.2.map trace = nodes.map trace ∧
      potential now r.1 r.2 ≤ potential now input nodes)
  := by
  induction nodes generalizing input with
  | nil => exact Or.inr ⟨rfl, rfl, Nat.le_refl _⟩
  | cons node rest ih =>
    have big : byteWeight rest.length + Node.phaseMax (byteWeight rest.length) + 1 ≤
        byteWeight (rest.length + 1) := Nat.le_refl _
    have step := Node.Station.lighter_tick now big table (node.station input)
    simp only [tickAll, tick]
    generalize (node.station input).tick table now = s at step
    have later := ih s.wiring.tx
    have shift := potential_input now s.wiring.tx node.out rest
    have length := length_tickAll table now s.wiring.tx rest
    generalize tickAll table now s.wiring.tx rest = r at later length
    obtain ⟨out, rest'⟩ := r
    simp only [Node.Engine.Lighter, Node.Engine.load, Node.Station.parts, station] at step
    simp only at later length
    simp only [potential, length]
    rcases step with less | ⟨sameState, sameIn, sameOut, le⟩
    · left
      rcases later with h | ⟨_, _, h⟩ <;> omega
    · rw [sameOut] at later shift
      rcases later with h | ⟨traceOut, traceRest, h⟩
      · left
        rw [sameIn, sameOut] at le
        rw [sameIn]
        omega
      · right
        rw [sameIn, sameOut] at le
        rw [sameIn]
        refine ⟨rfl, ?_, by omega⟩
        simp only [List.map_cons, traceRest, trace, sameState, traceOut]

end ChainNode

namespace Chain

variable {M : Type}

/-- What a chain weighs. -/
def potential (c : Chain M) : Nat :=
  ChainNode.potential c.now c.entry c.nodes

/-- What can be seen of a chain from outside: how much its links hold and have carried, and
the states of its nodes. -/
def trace (c : Chain M) : (Nat × Nat) × List (NodeState × Nat × Nat) :=
  (c.entry.trace, c.nodes.map ChainNode.trace)

/-- A round makes a chain lighter, or changes nothing that can be seen. -/
theorem potential_round (c : Chain M) :
  c.round.potential < c.potential ∨ c.round.trace = c.trace
  := by
  rcases ChainNode.potential_tickAll c.table c.now c.entry c.nodes with h | ⟨h, h', _⟩
  · exact Or.inl h
  · right
    simp only [trace, round, h, h']

/-- Make rounds until nothing moves. -/
def settle (c : Chain M) : Chain M :=
  let next := c.round
  if next.trace = c.trace then next else next.settle
termination_by c.potential
decreasing_by
  rcases c.potential_round with h | h
  · exact h
  · contradiction

/-- What every round keeps is kept while a chain settles. -/
theorem settle_preserves (P : Chain M → Prop) (step : ∀ c, P c → P c.round) (c : Chain M)
    (h : P c) :
  P c.settle
  := by
  rw [settle]
  split
  · exact step c h
  · next moved =>
    have : c.round.potential < c.potential := (c.potential_round).resolve_right moved
    exact settle_preserves P step c.round (step c h)
termination_by c.potential

/-- A chain settles with a round in which nothing moves. -/
theorem exists_round_eq_settle (c : Chain M) :
  ∃ last : Chain M, c.settle = last.round ∧ last.round.trace = last.trace
  := by
  rw [settle]
  split
  · next still => exact ⟨c, rfl, still⟩
  · next moved =>
    have : c.round.potential < c.potential := (c.potential_round).resolve_right moved
    exact exists_round_eq_settle c.round
termination_by c.potential

/-- A chain settles at the time it has. -/
@[simp]
theorem now_settle (c : Chain M) : c.settle.now = c.now :=
  c.settle_preserves (fun d => d.now = c.now) (fun _ h => h) rfl

/-- A chain settles with the table it has. -/
@[simp]
theorem table_settle (c : Chain M) : c.settle.table = c.table :=
  c.settle_preserves (fun d => d.table = c.table) (fun _ h => h) rfl

/-- A chain settles with all its nodes. -/
@[simp]
theorem length_nodes_settle (c : Chain M) : c.settle.nodes.length = c.nodes.length :=
  c.settle_preserves (fun d => d.nodes.length = c.nodes.length)
    (fun d h => (ChainNode.length_tickAll d.table d.now d.entry d.nodes).trans h) rfl

end Chain

end DaisyChain
