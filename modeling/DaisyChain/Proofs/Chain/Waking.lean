import DaisyChain.Proofs.Chain.Outcome
import DaisyChain.Proofs.Node.Current

/-!
# Chains with nodes that recover

On a drowsy chain nothing is on its way to any node, and each of them listens for a header or
recovers (`Chain.Drowsy`).  As long as nothing is sent, all that happens there is that nodes that
have recovered for long enough listen again (`Chain.Drowsy.settle_eq`), whatever waits for the
gateway; the others are late.  After a pause in which no node stays late, all of them listen
(`Chain.Drowsy.advance`).  A drowsy chain is quiet if nothing waits for the gateway
(`Chain.Quiet`).

A late node answers every byte with zero, and three zeros are a header: it asks for property
zero of no node yet.  So whatever read is sent through a late node comes back as a read of
property zero (`flow_read_late`), answered by the nodes behind the last late one alone
(`flow_read_behind`).
-/

namespace DaisyChain

open Node

variable {M : Type}

/-! ### Drowsy and quiet chains -/

namespace ChainNode

/-- The node recovers, and has not done so for long enough. -/
def Late (now : UInt32) (node : ChainNode M) : Prop :=
  node.engine.phase = .recovering ∧ node.engine.elapsed now < recoveryDelay

instance (now : UInt32) (node : ChainNode M) : Decidable (node.Late now) :=
  inferInstanceAs (Decidable (_ ∧ _))

/-- The node listens again if it has recovered for long enough. -/
def wake (now : UInt32) (node : ChainNode M) : ChainNode M :=
  if node.engine.phase = .recovering ∧ recoveryDelay ≤ node.engine.elapsed now then
    { node with engine := node.engine.enter (.listening .nothing) now }
  else
    node

/-- The node without its link, as it is once it has been let wake. -/
def roused (now : UInt32) (node : ChainNode M) : Body M :=
  if node.Late now then
    Body.during node.pair.1 node.pair.2 .recovering
  else
    Body.listener node.pair.1 node.pair.2

end ChainNode

/-- A chain on which nothing is on its way to any node: every node listens for a header or recovers,
every link is sound, and what a node sends leaves it. -/
structure Chain.Drowsy (c : Chain M) : Prop where
  links : ∀ l ∈ c.links, l.Sound
  going : ∀ node ∈ c.nodes, node.stalled = false
  phases : ∀ node ∈ c.nodes,
    node.engine.phase = .listening .nothing ∨ node.engine.phase = .recovering
  rest : c.AtRest

/-- A chain on which nothing is under way: every node listens for a header or recovers, every
link is sound and empty, and what a node sends leaves it. -/
structure Chain.Quiet (c : Chain M) : Prop where
  links : ∀ l ∈ c.links, l.Sound ∧ l.queue = []
  going : ∀ node ∈ c.nodes, node.stalled = false
  phases : ∀ node ∈ c.nodes,
    node.engine.phase = .listening .nothing ∨ node.engine.phase = .recovering

/-- The chain with all nodes that have recovered for long enough awake. -/
def Chain.wake (c : Chain M) : Chain M :=
  { c with nodes := c.nodes.map (ChainNode.wake c.now) }

namespace ChainNode

variable {now : UInt32} {node : ChainNode M}

/-- Waking does not touch the link of a node. -/
@[simp]
theorem out_wake (now : UInt32) (node : ChainNode M) :
  (node.wake now).out = node.out
  := by
  rw [wake]
  split <;> rfl

/-- Waking does not hold a node up. -/
@[simp]
theorem stalled_wake (now : UInt32) (node : ChainNode M) :
  (node.wake now).stalled = node.stalled
  := by
  rw [wake]
  split <;> rfl

/-- A node that has been let wake listens or recovers, and is not overdue. -/
theorem fresh_wake
    (phase : node.engine.phase = .listening .nothing ∨ node.engine.phase = .recovering) :
  (node.wake now).engine.Fresh now ∧ (node.wake now).engine.phase.Waiting
  := by
  rw [wake]
  split
  · exact ⟨Engine.fresh_enter _ _ _, trivial⟩
  · next early =>
    rcases phase with listening | recovering
    · simp only [Engine.Fresh, listening]
      exact ⟨trivial, trivial⟩
    · have short : node.engine.elapsed now < recoveryDelay :=
        Nat.lt_of_not_le fun long => early ⟨recovering, long⟩
      simp only [Engine.Fresh, recovering]
      exact ⟨short, trivial⟩

/-- What a node is once it has been let wake. -/
theorem body_wake
    (phase : node.engine.phase = .listening .nothing ∨ node.engine.phase = .recovering) :
  (node.wake now).body = node.roused now
  := by
  obtain ⟨⟨phase', since, staged, record⟩, m, out, stalled⟩ := node
  simp only at phase
  rcases phase with rfl | rfl
  · simp only [wake, roused, Late, reduceCtorEq, false_and, if_false]
    rfl
  · by_cases long : recoveryDelay ≤ (Engine.mk .recovering since staged record).elapsed now
    · have late : ¬(Engine.mk .recovering since staged record).elapsed now < recoveryDelay :=
        Nat.not_lt_of_le long
      simp only [wake, roused, Late, long, late, and_self, and_false, if_true, if_false]
      rfl
    · have late : (Engine.mk .recovering since staged record).elapsed now < recoveryDelay :=
        Nat.lt_of_not_le long
      simp only [wake, roused, Late, long, late, and_self, and_false, if_true, if_false]
      rfl

/-- All that a tick does to a node with nothing to read is to let it wake. -/
theorem tick_eq_wake (table : Table M) {input : Link} (silent : input.queue = [])
    (phase : node.engine.phase = .listening .nothing ∨ node.engine.phase = .recovering) :
  node.tick table now input = (input, node.wake now)
  := by
  obtain ⟨queue, pushed, disturbances, capacity⟩ := input
  simp only at silent
  subst silent
  unfold tick station Station.tick wake
  rcases phase with listening | recovering
  · simp only [listening, Engine.listen, Engine.awaitHeader, ne_eq, not_true, false_and, if_false,
      reduceCtorEq]
  · simp only [recovering, Engine.swallow, Engine.recover, List.isEmpty_nil, Bool.not_true,
      Bool.false_eq_true, if_false, true_and]
    split <;> rfl

/-- All that a round does to nodes at rest that listen or recover is to let them wake. -/
theorem tickAll_eq_wake (table : Table M) {input : Link} {nodes : List (ChainNode M)}
    (still : AtRest input nodes)
    (phases : ∀ node ∈ nodes,
      node.engine.phase = .listening .nothing ∨ node.engine.phase = .recovering) :
  tickAll table now input nodes = (input, nodes.map (wake now))
  := by
  induction nodes generalizing input with
  | nil => rfl
  | cons node rest ih =>
    obtain ⟨silent, -, behind⟩ := still
    have first : node.tick table now input = (input, node.wake now) :=
      tick_eq_wake table silent (phases node List.mem_cons_self)
    have others : tickAll table now node.out rest = (node.out, rest.map (wake now)) :=
      ih behind fun other member => phases other (List.mem_cons_of_mem _ member)
    simp only [tickAll, first, out_wake, others, List.map_cons]
    rw [wake]
    split <;> rfl

/-- Nodes at rest that listen or recover are at rest once they have been let wake. -/
theorem atRest_wake {input : Link} {nodes : List (ChainNode M)} (still : AtRest input nodes)
    (phases : ∀ node ∈ nodes,
      node.engine.phase = .listening .nothing ∨ node.engine.phase = .recovering) :
  AtRest input (nodes.map (wake now))
  := by
  induction nodes generalizing input with
  | nil => trivial
  | cons node rest ih =>
    obtain ⟨silent, -, behind⟩ := still
    refine ⟨silent, (fresh_wake (phases node List.mem_cons_self)).2, ?_⟩
    rw [out_wake]
    apply ih behind fun other member => phases other (List.mem_cons_of_mem _ member)

end ChainNode

/-- The links of a chain whose nodes have been let wake. -/
theorem Chain.links_wake (c : Chain M) :
  c.wake.links = c.links
  := by
  unfold Chain.links
  simp only [wake, List.map_map]
  congr 1
  apply List.map_congr_left fun node _ => ChainNode.out_wake c.now node

namespace Chain.Drowsy

variable {c : Chain M}

/-- A round lets the nodes of a drowsy chain wake. -/
theorem round_eq (drowsy : c.Drowsy) :
  c.round = c.wake
  := by
  have waking : ChainNode.tickAll c.table c.now c.entry c.nodes = _ :=
    ChainNode.tickAll_eq_wake c.table drowsy.rest drowsy.phases
  simp only [round, waking]
  rfl

/-- A drowsy chain whose nodes have been let wake is sound. -/
theorem sound_wake (drowsy : c.Drowsy) :
  c.wake.Sound
  := by
  refine ⟨drowsy.links c.entry List.mem_cons_self, fun node member => ?_⟩
  obtain ⟨before, among, rfl⟩ := List.mem_map.mp member
  constructor
  · apply (ChainNode.fresh_wake (drowsy.phases before among)).1
  · rw [ChainNode.out_wake]
    apply drowsy.links before.out (List.mem_cons_of_mem _ (List.mem_map_of_mem among))
  · rw [ChainNode.stalled_wake]
    apply drowsy.going before among

/-- A drowsy chain stays drowsy when its nodes are let wake. -/
theorem wake (drowsy : c.Drowsy) :
  c.wake.Drowsy
  := by
  constructor
  · rw [links_wake]
    apply drowsy.links
  · intro node member
    obtain ⟨before, among, rfl⟩ := List.mem_map.mp member
    rw [ChainNode.stalled_wake]
    apply drowsy.going before among
  · intro node member
    obtain ⟨before, among, rfl⟩ := List.mem_map.mp member
    rw [ChainNode.wake]
    split
    · apply Or.inl rfl
    · apply drowsy.phases before among
  · apply ChainNode.atRest_wake drowsy.rest drowsy.phases

/-- A drowsy chain settles once its nodes have been let wake. -/
theorem settle_eq (drowsy : c.Drowsy) :
  c.settle = c.wake
  := by
  have done : c.wake.settle = c.wake := drowsy.wake.rest.settle_eq drowsy.sound_wake.working
  rw [settle]
  simp only [drowsy.round_eq, done, ite_self]

/-- Nodes that have been let wake listen with what they had. -/
theorem listeners_wake (c : Chain M) :
  listeners c.wake.pairs = listeners c.pairs
  := by
  simp only [listeners, pairs, Chain.wake, List.map_map]
  apply List.map_congr_left
  intro node _
  simp only [Function.comp_apply, ChainNode.wake]
  split <;> rfl

/-- A drowsy chain yields what waits for the gateway, if all its nodes listen. -/
theorem yields (drowsy : c.Drowsy)
    (listening : ∀ node ∈ c.nodes, node.engine.phase = .listening .nothing) :
  c.Yields c.table (listeners c.pairs) c.exit.queue
  := by
  refine ⟨⟨drowsy.links c.entry List.mem_cons_self, fun node member => ?_⟩, rfl, ?_,
    fun _ => drowsy.rest⟩
  · refine ⟨?_, drowsy.links node.out (List.mem_cons_of_mem _ (List.mem_map_of_mem member)),
      drowsy.going node member⟩
    simp only [Engine.Fresh, listening node member]
  · rw [drowsy.rest.outlook_eq, listeners, pairs, List.map_map]
    refine Prod.ext (List.map_congr_left fun node member => ?_) rfl
    have listens := listening node member
    obtain ⟨⟨phase, since, staged, record⟩, m, out, stalled⟩ := node
    cases listens
    rfl

/-- After a pause that is long enough for every node that recovers, all nodes of a drowsy chain
listen, and what waits for the gateway still does. -/
theorem advance (drowsy : c.Drowsy) {ms : Nat}
    (due : ∀ node ∈ c.nodes, node.engine.phase = .recovering →
      node.engine.elapsed c.now < recoveryDelay ∧
        recoveryDelay ≤ node.engine.elapsed c.now + ms) :
  (c.advance ms).Yields c.table (listeners c.pairs) c.exit.queue
  := by
  induction ms generalizing c with
  | zero =>
    apply drowsy.yields
    intro node member
    apply (drowsy.phases node member).resolve_right
    intro recovering
    obtain ⟨early, late⟩ := due node member recovering
    omega
  | succ ms ih =>
    let next : Chain M := { c with now := c.now + 1 }
    have still : next.Drowsy := ⟨drowsy.links, drowsy.going, drowsy.phases, drowsy.rest⟩
    have exit : next.wake.exit = c.exit := by simp only [Chain.exit, links_wake]; rfl
    have later := ih still.wake <| by
      intro node member recovering
      obtain ⟨before, among, rfl⟩ := List.mem_map.mp member
      rw [ChainNode.wake] at recovering ⊢
      split at recovering
      · cases recovering
      · next early =>
        obtain ⟨short, long⟩ := due before among recovering
        have elapsed : before.engine.elapsed next.now = before.engine.elapsed c.now + 1 :=
          Engine.elapsed_soon (Nat.le_of_lt short) (Nat.le_refl 1)
        rw [if_neg early]
        change before.engine.elapsed next.now < _ ∧ _ ≤ before.engine.elapsed next.now + _
        rw [elapsed] at early ⊢
        exact ⟨Nat.lt_of_not_le fun enough => early ⟨recovering, enough⟩, by omega⟩
    rw [exit, listeners_wake] at later
    rw [Chain.advance, show ({ c with now := c.now + 1 } : Chain M).settle = next.wake from
      still.settle_eq]
    apply later

end Chain.Drowsy

namespace Chain.Quiet

variable {c : Chain M}

/-- An idle chain is quiet. -/
theorem of_idle (idle : c.Idle) :
  c.Quiet
  := ⟨idle.links, idle.going, fun node member => Or.inl (idle.listening node member)⟩

/-- A quiet chain is drowsy. -/
theorem drowsy (quiet : c.Quiet) :
  c.Drowsy
  := by
  refine ⟨fun l member => (quiet.links l member).1, quiet.going, quiet.phases, ?_⟩
  apply (ChainNode.atRest_of_waiting (fun l member => (quiet.links l member).2) _).1
  intro node member
  rcases quiet.phases node member with listening | recovering
  · rw [listening]
    trivial
  · rw [recovering]
    trivial

/-- Nothing comes back from a quiet chain whose nodes have been let wake. -/
theorem silent_wake (quiet : c.Quiet) :
  c.wake.exit.queue = []
  := by
  have among : c.wake.exit ∈ c.links := by
    rw [← c.links_wake]
    apply List.getLast_mem
  apply (quiet.links _ among).2

/-- A quiet chain whose nodes have been let wake yields nothing. -/
theorem yields_wake (quiet : c.Quiet) :
  c.wake.Yields c.table (c.nodes.map (ChainNode.roused c.now)) []
  := by
  have yields :=
    Chain.yields_of_atRest quiet.drowsy.sound_wake quiet.drowsy.wake.rest quiet.silent_wake
  have bodies : c.wake.nodes.map ChainNode.body = c.nodes.map (ChainNode.roused c.now) := by
    simp only [wake, List.map_map]
    apply List.map_congr_left fun node member => ChainNode.body_wake (quiet.phases node member)
  rw [bodies] at yields
  apply yields

/-- Dropping what has come back from a quiet chain lets its nodes wake. -/
theorem clearExit_eq (quiet : c.Quiet) :
  c.clearExit = c.wake.clearExit
  := by
  have done : c.wake.settle = c.wake :=
    quiet.drowsy.wake.rest.settle_eq quiet.drowsy.sound_wake.working
  rw [clearExit, clearExit, quiet.drowsy.settle_eq, done]

end Chain.Quiet

/-! ### Reads through late nodes -/

/-- Three zeros ask for property zero of no node yet. -/
theorem ActionHeader.pack_zero :
  (ActionHeader.pack ⟨.read, false, ⟨0⟩, 0⟩).toList = [0, 0, 0]
  := by decide

variable (table : Table M)

/-- A node that listens forwards the header of a read as one of a read of the same property. -/
theorem Node.Body.exists_digest_read (e : Engine) (m : M) (property : PropertyId)
    (flag : Bool) (count : Nat) (more : List UInt8) :
  ∃ flag' count' more', ((Body.listener e m).digest table
      ((ActionHeader.pack ⟨.read, flag, property, count⟩).toList ++ more)).2 =
    (ActionHeader.pack ⟨.read, flag', property, count'⟩).toList ++ more'
  := by
  have accepted : accepts (ActionHeader.pack ⟨.read, flag, property, count⟩) = true := by
    simp [accepts]
  rw [Body.digest_header table e m (by simp) accepted, forward_pack accepted]
  exact ⟨_, _, _, rfl⟩

/-- A node that recovers turns a header, whatever it is, into one of a read of property zero. -/
theorem Node.Body.digest_late (e : Engine) (m : M) (h : RawHeader) (more : List UInt8) :
  (Body.during e m .recovering).digest table (h.toList ++ more) =
    (Body.during e m .recovering,
      (ActionHeader.pack ⟨.read, false, ⟨0⟩, 0⟩).toList ++ List.replicate more.length 0)
  := by
  have three : h.toList.length = 3 := rfl
  rw [Body.digest_recovering, ActionHeader.pack_zero, List.length_append, three,
    ← List.replicate_append_replicate]
  rfl

/-- A node that listens, or one that recovers. -/
def Node.Body.Ready (b : Body M) : Prop :=
  (∃ e m, b = Body.listener e m) ∨ b.Recovers

variable {bodies : List (Body M)} (ready : ∀ b ∈ bodies, b.Ready)

include ready in
/-- A read comes back as one of the same property or of property zero. -/
theorem exists_flow_read (property : PropertyId) (flag : Bool) (count : Nat) (more : List UInt8) :
  ∃ property' flag' count' more', (property' = property ∨ property' = ⟨0⟩) ∧
    (flow table bodies ((ActionHeader.pack ⟨.read, flag, property, count⟩).toList ++ more)).2 =
      (ActionHeader.pack ⟨.read, flag', property', count'⟩).toList ++ more'
  := by
  induction bodies generalizing property flag count more with
  | nil => exact ⟨_, _, _, _, Or.inl rfl, rfl⟩
  | cons b rest ih =>
    have others := ih fun other member => ready other (List.mem_cons_of_mem _ member)
    rcases ready b List.mem_cons_self with ⟨e, m, rfl⟩ | ⟨e, m, rfl⟩
    · obtain ⟨flag', count', more', first⟩ := Body.exists_digest_read table e m property flag count
        more
      obtain ⟨p, f, k, bytes, same, last⟩ := others property flag' count' more'
      refine ⟨p, f, k, bytes, same, ?_⟩
      simp only [flow, first]
      apply last
    · obtain ⟨p, f, k, bytes, same, last⟩ := others ⟨0⟩ false 0 (List.replicate more.length 0)
      refine ⟨p, f, k, bytes, Or.inr (same.elim id id), ?_⟩
      simp only [flow, Body.digest_late]
      apply last

/-- Nodes before, at and behind one that recovers: those behind see a read of property zero that
comes from no node yet, followed by zeros. -/
theorem flow_read_at {front : List (Body M)} {late : Body M} (ready : ∀ b ∈ front, b.Ready)
    (recovers : late.Recovers) (behind : List (Body M)) (property : PropertyId) (flag : Bool)
    (count : Nat) (more : List UInt8) :
  ∃ bodies zeros, flow table (front ++ late :: behind)
      ((ActionHeader.pack ⟨.read, flag, property, count⟩).toList ++ more) =
    (bodies ++ (flow table behind ((ActionHeader.pack ⟨.read, false, ⟨0⟩, 0⟩).toList ++
        List.replicate zeros 0)).1,
      (flow table behind ((ActionHeader.pack ⟨.read, false, ⟨0⟩, 0⟩).toList ++
        List.replicate zeros 0)).2)
  := by
  obtain ⟨e, m, rfl⟩ := recovers
  obtain ⟨p, f, k, bytes, -, before⟩ := exists_flow_read table ready property flag count more
  let header := ActionHeader.pack ⟨.read, flag, property, count⟩
  refine ⟨(flow table front (header.toList ++ more)).1 ++ [Body.during e m .recovering],
    bytes.length, ?_⟩
  rw [flow_append_nodes, before, flow, Body.digest_late]
  simp only [header, List.append_assoc, List.singleton_append]

/-- A read that meets a node that recovers comes back as one of property zero. -/
theorem exists_flow_late (ready : ∀ b ∈ bodies, b.Ready) (some : ∃ b ∈ bodies, b.Recovers)
    (property : PropertyId) (flag : Bool) (count : Nat) (more : List UInt8) :
  ∃ flag' count' more',
    (flow table bodies ((ActionHeader.pack ⟨.read, flag, property, count⟩).toList ++ more)).2 =
      (ActionHeader.pack ⟨.read, flag', ⟨0⟩, count'⟩).toList ++ more'
  := by
  obtain ⟨late, member, recovers⟩ := some
  obtain ⟨front, behind, rfl⟩ := List.append_of_mem member
  obtain ⟨_, zeros, comes⟩ := flow_read_at table
    (fun b among => ready b (List.mem_append_left _ among)) recovers behind property flag count more
  obtain ⟨p, f, k, bytes, same, last⟩ := exists_flow_read table
    (fun b among => ready b (List.mem_append_right _ (List.mem_cons_of_mem _ among))) ⟨0⟩ false 0
    (List.replicate zeros 0)
  obtain rfl : p = ⟨0⟩ := same.elim id id
  exact ⟨f, k, bytes, by rw [comes, last]⟩

/-- Behind a node that recovers, nodes that listen answer a read of property zero, whatever the
read was. -/
theorem flow_read_behind {front : List (Body M)} {late : Body M}
    (ready : ∀ b ∈ front, b.Ready) (recovers : late.Recovers) {nodes : List (Engine × M)}
    (few : nodes.length < countModulus) (property : PropertyId) (flag : Bool) (count : Nat)
    (more : List UInt8) :
  ∃ bodies out, flow table (front ++ late :: listeners nodes)
      ((ActionHeader.pack ⟨.read, flag, property, count⟩).toList ++ more) =
    (bodies, (ActionHeader.pack ⟨.read, nodes.any fun n => n.1.record.isSome, ⟨0⟩,
        nodes.length⟩).toList ++
      ((nodes.map fun n => (replyOf table ⟨0⟩ n).1).flatten ++ out))
  := by
  obtain ⟨_, zeros, comes⟩ := flow_read_at table ready recovers (listeners nodes) property flag
    count more
  have travels : (⟨0⟩ : PropertyId).Travels := by decide
  have answers := flow_read table travels nodes false [] (by simp)
    (by rw [List.length_nil]; omega)
  rw [List.flatten_nil, List.append_nil, List.length_nil, Nat.zero_add, List.nil_append,
    Bool.false_or] at answers
  rw [flow_append table (listeners nodes), answers, List.append_assoc] at comes
  exact ⟨_, _, comes⟩

end DaisyChain
