import DaisyChain.Chain.Transport
import DaisyChain.Proofs.Chain.Exchange
import DaisyChain.Proofs.Chain.Yield

/-!
# What becomes of written values

A node accepts a value that is meant for it, or refuses it with a fault (`refusal`).  A node
that refuses recovers, and answers whatever comes next with zeros.  So an acknowledge that
follows a write at once comes back as it was sent if every node has accepted its value
(`flow_ack_accepted`), and as zero if one of them has not (`flow_ack_refused`): in neither case
does it bring a category back.

A chain is attentive if nothing is under way on it (`Chain.Attentive`), and idle if nothing has gone
wrong in it either (`Chain.Idle`).
-/

namespace DaisyChain

open Node

variable {M : Type} (table : Table M)

/-! ### Accepting and refusing -/

namespace Node

/-- The fault with which a module refuses what a write means for it, if it does. -/
def refusal (property : PropertyId) (m : M) : Option (List UInt8) → Option Fault
  | none => none
  | some data =>
    match (applySlot table ⟨property, data⟩ m).1 with
    | .ok () => none
    | .error fault => some fault

/-- The module after what a write means for it. -/
def applied (property : PropertyId) (m : M) : Option (List UInt8) → M
  | none => m
  | some data => (applySlot table ⟨property, data⟩ m).2

/-- The node after a write that is not held back. -/
def Body.outcome (property : PropertyId) (value : Option (List UInt8)) (n : Engine × M) : Body M :=
  match refusal table property n.2 value with
  | none => listener n.1 (applied table property n.2 value)
  | some fault =>
    during { n.1 with record := some ⟨fault, .committing⟩ } (applied table property n.2 value)
      .recovering

/-- A value that is not held back is applied at once. -/
theorem Body.receive_eq {request : Request} (direct : request.staged = false)
    (value : Option (List UInt8)) (n : Engine × M) :
  Body.receive table n.1 n.2 request value = Body.outcome table request.property value n
  := by
  cases value with
  | none => rfl
  | some data =>
    simp only [receive, direct, Bool.false_eq_true, if_false, outcome, refusal, applied]
    rcases applySlot table ⟨request.property, data⟩ n.2 with ⟨_ | ⟨⟨⟩⟩, m⟩ <;> rfl

end Node

/-! ### An acknowledge after a write -/

/-- A node that listens and has no record. -/
def Node.Body.Listens (b : Body M) : Prop :=
  ∃ e m, e.record = none ∧ b = Body.listener e m

/-- A node that recovers. -/
def Node.Body.Recovers (b : Body M) : Prop :=
  ∃ e m, b = Body.during e m .recovering

/-- Zero passes a node that listens or recovers as it is, and does not change its record. -/
theorem Node.Body.digest_zero {b : Body M} (ready : b.Listens ∨ b.Recovers) :
  (b.digest table [0]).2 = [0] ∧ (b.digest table [0]).1.engine.record = b.engine.record
  := by
  rcases ready with ⟨e, m, unrecorded, rfl⟩ | ⟨e, m, rfl⟩
  · have heard : (Body.listener e m).take 0 = (Body.during e m (.listening (.first 0)), [0]) := by
      have isRead : Action.ofByte 0 ≠ .sync := by decide
      simp only [Body.take, Body.listener, Body.during, Engine.enter, Engine.hear,
        if_neg isRead, forwardFirst, unrecorded, Option.isSome_none, Bool.false_eq_true,
        and_false, if_false]
    rw [Body.digest_cons (b := Body.listener e m) trivial, heard,
      Body.digest_nil (b := Body.during e m (.listening (.first 0))) trivial]
    exact ⟨rfl, rfl⟩
  · rw [Body.digest_recovering]
    exact ⟨rfl, rfl⟩

/-- Zero passes nodes that listen or recover as it is, and changes no record. -/
theorem flow_zero {bodies : List (Body M)} (each : ∀ b ∈ bodies, b.Listens ∨ b.Recovers) :
  (flow table bodies [0]).2 = [0] ∧
    (flow table bodies [0]).1.map (fun b => b.engine.record) =
      bodies.map fun b => b.engine.record
  := by
  induction bodies with
  | nil => exact ⟨rfl, rfl⟩
  | cons b rest ih =>
    obtain ⟨out, records⟩ := ih fun other member => each other (List.mem_cons_of_mem _ member)
    obtain ⟨passes, keeps⟩ := Node.Body.digest_zero table (each b List.mem_cons_self)
    rw [flow]
    simp only [passes, out, List.map_cons, keeps, records, and_self]

/-- An acknowledge that meets a node that recovers comes back as zero, and changes no record. -/
theorem flow_ack_refused {bodies : List (Body M)} (each : ∀ b ∈ bodies, b.Listens ∨ b.Recovers)
    (some : ∃ b ∈ bodies, b.Recovers) :
  (flow table bodies [SyncHeader.pack ⟨.ack, .empty⟩]).2 = [0] ∧
    (flow table bodies [SyncHeader.pack ⟨.ack, .empty⟩]).1.map (fun b => b.engine.record) =
      bodies.map fun b => b.engine.record
  := by
  induction bodies with
  | nil =>
    obtain ⟨b, member, _⟩ := some
    contradiction
  | cons b rest ih =>
    have others := fun other member => each other (List.mem_cons_of_mem _ member)
    rcases each b List.mem_cons_self with ⟨e, m, unrecorded, rfl⟩ | ⟨e, m, rfl⟩
    · have later : ∃ b ∈ rest, b.Recovers := by
        obtain ⟨b, member, e', m', recovers⟩ := some
        rcases List.mem_cons.mp member with rfl | among
        · have phases := congrArg (fun b => b.engine.phase) recovers
          cases phases
        · exact ⟨b, among, e', m', recovers⟩
      obtain ⟨out, records⟩ := ih others later
      have unfaulty : categoriesOf e.lastFault = .empty := by
        rw [Engine.lastFault, unrecorded]
        rfl
      have passed := Body.digest_ack table e m .empty
      rw [unfaulty, Categories.union_empty] at passed
      rw [flow, passed]
      simp only [out, List.map_cons, records, and_self]
    · obtain ⟨out, records⟩ := flow_zero table others
      rw [flow, Body.digest_recovering]
      simp only [List.length_singleton, List.replicate_one, out, List.map_cons, records, and_self]

/-- An acknowledge that meets only nodes that listen and have no record comes back as it was
sent. -/
theorem flow_ack_accepted {nodes : List (Engine × M)}
    (unrecorded : ∀ n ∈ nodes, n.1.record = none) :
  flow table (listeners nodes) [SyncHeader.pack ⟨.ack, .empty⟩] =
    (listeners nodes, [SyncHeader.pack ⟨.ack, .empty⟩])
  := by
  rw [flow_ack, faultsOf_of_unrecorded unrecorded, Categories.union_empty]

/-! ### All nodes after a write -/

/-- The nodes after a write that is not held back, each with what the write means for it. -/
def outcomes (property : PropertyId) (nodes : List (Engine × M))
    (values : List (Option (List UInt8))) : List (Body M) :=
  List.zipWith (fun n value => Body.outcome table property value n) nodes values

/-- The faults with which nodes refuse what a write means for them. -/
def refusals (property : PropertyId) (nodes : List (Engine × M))
    (values : List (Option (List UInt8))) : List (Option Fault) :=
  List.zipWith (fun n value => refusal table property n.2 value) nodes values

/-- The record of a fault with which a value is refused. -/
def refusalRecord (fault : Fault) : Record :=
  ⟨fault, .committing⟩

variable {table} {property : PropertyId} {nodes : List (Engine × M)}

/-- A node that accepts what a write means for it listens. -/
theorem Node.Body.outcome_of_accepts {value : Option (List UInt8)} {n : Engine × M}
    (accepts : refusal table property n.2 value = none) :
  Body.outcome table property value n = Body.listener n.1 (applied table property n.2 value)
  := by
  rw [outcome, accepts]

/-- A node that refuses what a write means for it recovers. -/
theorem Node.Body.recovers_outcome {value : Option (List UInt8)} {n : Engine × M} {fault : Fault}
    (refuses : refusal table property n.2 value = some fault) :
  (Body.outcome table property value n).Recovers
  := by
  rw [outcome, refuses]
  exact ⟨_, _, rfl⟩

/-- After a write, a node that had no record has one if it refused what the write means for it. -/
theorem Node.Body.record_outcome (value : Option (List UInt8)) {n : Engine × M}
    (unrecorded : n.1.record = none) :
  (Body.outcome table property value n).engine.record =
    (refusal table property n.2 value).map refusalRecord
  := by
  rw [outcome]
  cases refusal table property n.2 value with
  | none => apply unrecorded
  | some fault => rfl

/-- After a write, every node listens and has no record, or recovers. -/
theorem listens_or_recovers_outcomes (unrecorded : ∀ n ∈ nodes, n.1.record = none)
    (values : List (Option (List UInt8))) :
  ∀ b ∈ outcomes table property nodes values, b.Listens ∨ b.Recovers
  := by
  induction nodes generalizing values with
  | nil => simp [outcomes]
  | cons n rest ih =>
    cases values with
    | nil => simp [outcomes]
    | cons value values =>
      have others :=
        ih (fun other member => unrecorded other (List.mem_cons_of_mem _ member)) values
      simp only [outcomes, List.zipWith_cons_cons, List.mem_cons]
      rintro b (rfl | member)
      · cases result : refusal table property n.2 value with
        | none =>
          rw [Body.outcome_of_accepts result]
          apply Or.inl ⟨n.1, _, unrecorded n List.mem_cons_self, rfl⟩
        | some fault => apply Or.inr (Body.recovers_outcome result)
      · apply others b member

/-- After a write, the nodes that refused what it means for them have a record of that. -/
theorem records_outcomes (unrecorded : ∀ n ∈ nodes, n.1.record = none)
    (values : List (Option (List UInt8))) :
  (outcomes table property nodes values).map (fun b => b.engine.record) =
    (refusals table property nodes values).map (Option.map refusalRecord)
  := by
  induction nodes generalizing values with
  | nil => rfl
  | cons n rest ih =>
    cases values with
    | nil => rfl
    | cons value values =>
      have others :=
        ih (fun other member => unrecorded other (List.mem_cons_of_mem _ member)) values
      rw [outcomes, refusals] at others ⊢
      rw [List.zipWith_cons_cons, List.zipWith_cons_cons, List.map_cons, List.map_cons, others,
        Body.record_outcome value (unrecorded n List.mem_cons_self)]

/-- A write that is refused leaves a node that recovers. -/
theorem exists_recovers_outcomes {values : List (Option (List UInt8))} {fault : Fault}
    (refused : some fault ∈ refusals table property nodes values) :
  ∃ b ∈ outcomes table property nodes values, b.Recovers
  := by
  induction nodes generalizing values with
  | nil => simp [refusals] at refused
  | cons n rest ih =>
    cases values with
    | nil => simp [refusals] at refused
    | cons value values =>
      rw [refusals, List.zipWith_cons_cons, ← refusals] at refused
      rw [outcomes, List.zipWith_cons_cons, ← outcomes]
      rcases List.mem_cons.mp refused with first | among
      · exact ⟨_, List.mem_cons_self, Body.recovers_outcome first.symm⟩
      · obtain ⟨b, member, recovers⟩ := ih among
        exact ⟨b, List.mem_cons_of_mem _ member, recovers⟩

/-- A write that nobody refuses leaves nodes that listen. -/
theorem outcomes_of_accepted {values : List (Option (List UInt8))}
    (accepted : ∀ r ∈ refusals table property nodes values, r = none) :
  outcomes table property nodes values =
    listeners (List.zipWith (fun n value => (n.1, applied table property n.2 value)) nodes values)
  := by
  induction nodes generalizing values with
  | nil => rfl
  | cons n rest ih =>
    cases values with
    | nil => rfl
    | cons value values =>
      rw [refusals, List.zipWith_cons_cons, ← refusals] at accepted
      have others := ih fun r member => accepted r (List.mem_cons_of_mem _ member)
      rw [outcomes, List.zipWith_cons_cons, ← outcomes, others, List.zipWith_cons_cons,
        listeners_cons, Body.outcome_of_accepts (accepted _ List.mem_cons_self)]

/-- An acknowledge that follows a write that nobody refuses comes back as it was sent. -/
theorem flow_ack_of_accepted (unrecorded : ∀ n ∈ nodes, n.1.record = none)
    {values : List (Option (List UInt8))}
    (accepted : ∀ r ∈ refusals table property nodes values, r = none) :
  flow table (outcomes table property nodes values) [SyncHeader.pack ⟨.ack, .empty⟩] =
    (outcomes table property nodes values, [SyncHeader.pack ⟨.ack, .empty⟩])
  := by
  have records : (outcomes table property nodes values).map (fun b => b.engine.record) = _ :=
    records_outcomes unrecorded values
  rw [outcomes_of_accepted accepted] at records ⊢
  apply flow_ack_accepted
  intro n member
  have among : n.1.record ∈ (refusals table property nodes values).map
      (Option.map refusalRecord) := by
    rw [← records]
    apply List.mem_map_of_mem (f := fun b : Body M => b.engine.record)
      (List.mem_map_of_mem (f := fun n : Engine × M => Body.listener n.1 n.2) member)
  obtain ⟨r, refused, same⟩ := List.mem_map.mp among
  rw [← same, accepted r refused]
  rfl

/-- An acknowledge that follows a write that some node refuses comes back as zero. -/
theorem flow_ack_of_refused (unrecorded : ∀ n ∈ nodes, n.1.record = none)
    {values : List (Option (List UInt8))}
    (refused : ¬∀ r ∈ refusals table property nodes values, r = none) :
  (flow table (outcomes table property nodes values) [SyncHeader.pack ⟨.ack, .empty⟩]).2 = [0] ∧
    (flow table (outcomes table property nodes values) [SyncHeader.pack ⟨.ack, .empty⟩]).1.map
        (fun b => b.engine.record) =
      (refusals table property nodes values).map (Option.map refusalRecord)
  := by
  rw [← records_outcomes unrecorded values]
  obtain ⟨r, member, present⟩ : ∃ r ∈ refusals table property nodes values, r ≠ none := by
    simpa only [Classical.not_forall, exists_prop] using refused
  obtain ⟨fault, rfl⟩ := Option.ne_none_iff_exists'.mp present
  apply flow_ack_refused table (listens_or_recovers_outcomes unrecorded values)
    (exists_recovers_outcomes member)

/-! ### Attentive and idle chains -/

/-- A node without its link. -/
def ChainNode.pair (node : ChainNode M) : Engine × M :=
  (node.engine.timeless, node.module)

/-- The nodes of a chain without their links. -/
def Chain.pairs (c : Chain M) : List (Engine × M) :=
  c.nodes.map ChainNode.pair

/-- The nodes of a chain that yields nothing more are those that it yields. -/
theorem Chain.Yields.pairs_eq {c : Chain M} {table : Table M} {nodes : List (Engine × M)}
    (yields : c.Yields table (listeners nodes) [])
    (listening : ∀ n ∈ nodes, n.1.enter (.listening .nothing) 0 = n.1) :
  c.pairs = nodes
  := by
  have same := congrArg (List.map fun b : Body M => (b.engine, b.module)) yields.bodies_eq
  rw [listeners, List.map_map, List.map_map] at same
  refine same.trans ((List.map_congr_left fun n member => ?_).trans (List.map_id _))
  exact Prod.ext (listening n member) rfl

/-- A chain on which nothing is under way: every node listens for a header, every link is sound and
empty, and what a node sends leaves it. -/
structure Chain.Attentive (c : Chain M) : Prop where
  links : ∀ l ∈ c.links, l.Sound ∧ l.queue = []
  going : ∀ node ∈ c.nodes, node.stalled = false
  listening : ∀ node ∈ c.nodes, node.engine.phase = .listening .nothing

namespace Chain.Attentive

variable {c : Chain M}

/-- The nodes of an attentive chain listen. -/
theorem bodies_eq (attentive : c.Attentive) :
  c.nodes.map ChainNode.body = listeners c.pairs
  := by
  rw [listeners, pairs, List.map_map]
  apply List.map_congr_left
  intro node member
  have listening := attentive.listening node member
  obtain ⟨⟨phase, since, staged, record⟩, m, out, stalled⟩ := node
  simp only at listening
  subst listening
  rfl

/-- An attentive chain is sound. -/
theorem sound (attentive : c.Attentive) :
  c.Sound
  := by
  constructor
  · apply (attentive.links c.entry List.mem_cons_self).1
  · intro node member
    constructor
    · simp only [Engine.Fresh, attentive.listening node member]
    · apply (attentive.links node.out
        (List.mem_cons_of_mem _ (List.mem_map_of_mem member))).1
    · apply attentive.going node member

/-- An attentive chain yields nothing. -/
theorem yields (attentive : c.Attentive) :
  c.Yields c.table (listeners c.pairs) []
  := by
  obtain ⟨rest, silent⟩ := ChainNode.atRest_of_waiting
    (fun l member => (attentive.links l member).2)
    (fun node member => by rw [attentive.listening node member]; trivial)
  rw [← attentive.bodies_eq]
  apply Chain.yields_of_atRest attentive.sound rest (by rw [Chain.exit_eq]; exact silent)

/-- The nodes of an attentive chain are those that it yields. -/
theorem listening_pairs (attentive : c.Attentive) :
  ∀ n ∈ c.pairs, n.1.enter (.listening .nothing) 0 = n.1
  := by
  intro n member
  obtain ⟨node, among, rfl⟩ := List.mem_map.mp member
  have listening := attentive.listening node among
  obtain ⟨⟨phase, since, staged, record⟩, m, out, stalled⟩ := node
  cases listening
  rfl

/-- An attentive chain has settled. -/
theorem settle_eq (attentive : c.Attentive) :
  c.settle = c
  := (attentive.yields.rest rfl).settle_eq attentive.sound.working

/-- An attentive chain waits for the gateway. -/
theorem advance (attentive : c.Attentive) (ms : Nat) :
  (c.advance ms).Attentive ∧ (c.advance ms).table = c.table ∧ (c.advance ms).pairs = c.pairs
  := by
  induction ms generalizing c with
  | zero => exact ⟨attentive, rfl, rfl⟩
  | succ ms ih =>
    let next : Chain M := { c with now := c.now + 1 }
    have still : next.Attentive := ⟨attentive.links, attentive.going, attentive.listening⟩
    rw [Chain.advance, show ({ c with now := c.now + 1 } : Chain M).settle = next from
      still.settle_eq]
    exact ih still

end Chain.Attentive

/-- A chain that yields nothing is attentive, if its nodes listen. -/
theorem Chain.Yields.attentive {c : Chain M} {table : Table M} {nodes : List (Engine × M)}
    (yields : c.Yields table (listeners nodes) []) :
  c.Attentive
  := by
  have silent : c.exit.queue = [] := by
    have same := (yields.rest rfl).outlook_eq
    rw [yields.outlook_eq] at same
    apply (congrArg Prod.snd same).symm
  rw [Chain.exit_eq] at silent
  constructor
  · intro l member
    exact ⟨yields.sound.links l member, ChainNode.silent_of_atRest (yields.rest rfl) silent l member⟩
  · intro node member
    apply (yields.sound.nodes node member).going
  · intro node member
    have among := List.mem_map_of_mem (f := ChainNode.body) member
    rw [yields.bodies_eq] at among
    obtain ⟨n, -, same⟩ := List.mem_map.mp among
    apply (congrArg (fun b : Body M => b.engine.phase) same).symm

/-- Nodes that listen do so while the chain waits for the gateway. -/
theorem Chain.Yields.advance_listeners {c : Chain M} {table : Table M} {nodes : List (Engine × M)}
    (yields : c.Yields table (listeners nodes) []) (ms : Nat) :
  (c.advance ms).Yields table (listeners nodes) []
  := by
  obtain ⟨attentive, works, pairs⟩ := yields.attentive.advance ms
  have same : listeners nodes = listeners c.pairs :=
    yields.bodies_eq.symm.trans yields.attentive.bodies_eq
  rw [same, ← pairs, ← yields.table_eq, ← works]
  exact attentive.yields

/-- A chain on which nothing is under way and in which nothing has gone wrong: every node listens
for a header and has no record, every link is sound and empty, and what a node sends leaves
it. -/
structure Chain.Idle (c : Chain M) : Prop where
  links : ∀ l ∈ c.links, l.Sound ∧ l.queue = []
  going : ∀ node ∈ c.nodes, node.stalled = false
  listening : ∀ node ∈ c.nodes, node.engine.phase = .listening .nothing
  unrecorded : ∀ node ∈ c.nodes, node.engine.record = none

namespace Chain.Idle

variable {c : Chain M}

/-- An idle chain is attentive. -/
theorem attentive (idle : c.Idle) :
  c.Attentive
  := ⟨idle.links, idle.going, idle.listening⟩

/-- The nodes of an idle chain listen. -/
theorem bodies_eq (idle : c.Idle) :
  c.nodes.map ChainNode.body = listeners (c.nodes.map ChainNode.pair)
  := idle.attentive.bodies_eq

/-- An idle chain yields nothing. -/
theorem yields (idle : c.Idle) :
  c.Yields c.table (listeners (c.nodes.map ChainNode.pair)) []
  := idle.attentive.yields

/-- No node of an idle chain has a record. -/
theorem unrecorded_pairs (idle : c.Idle) :
  ∀ n ∈ c.pairs, n.1.record = none
  := by
  intro n member
  obtain ⟨node, among, rfl⟩ := List.mem_map.mp member
  apply idle.unrecorded node among

/-- The nodes of an idle chain are those that it yields. -/
theorem listening_pairs (idle : c.Idle) :
  ∀ n ∈ c.pairs, n.1.enter (.listening .nothing) 0 = n.1
  := idle.attentive.listening_pairs

end Chain.Idle

/-- A chain that yields nothing is idle, if its nodes listen and have no records. -/
theorem Chain.Yields.idle {c : Chain M} {table : Table M} {nodes : List (Engine × M)}
    (yields : c.Yields table (listeners nodes) []) (unrecorded : ∀ n ∈ nodes, n.1.record = none) :
  c.Idle
  := by
  refine ⟨yields.attentive.links, yields.attentive.going, yields.attentive.listening, ?_⟩
  intro node member
  have among := List.mem_map_of_mem (f := ChainNode.body) member
  rw [yields.bodies_eq] at among
  obtain ⟨n, within, same⟩ := List.mem_map.mp among
  apply (congrArg (fun b : Body M => b.engine.record) same).symm.trans (unrecorded n within)

/-- A new chain is idle, if its links have room for a frame. -/
theorem Chain.idle_ofModules (table : Table M) (modules : List M) {capacity : Nat}
    (roomy : frameMax < capacity) (now : UInt32) :
  (Chain.ofModules table modules capacity now).Idle
  := by
  have fresh : ∀ node ∈ (Chain.ofModules table modules capacity now).nodes,
      ∃ m : M, { module := m, out := { capacity := capacity } } = node := by
    intro node member
    obtain ⟨m, -, same⟩ := List.mem_map.mp member
    exact ⟨m, same⟩
  constructor
  · intro l member
    rcases List.mem_cons.mp member with rfl | among
    · exact ⟨⟨rfl, roomy⟩, rfl⟩
    · obtain ⟨node, within, rfl⟩ := List.mem_map.mp among
      obtain ⟨m, rfl⟩ := fresh node within
      exact ⟨⟨rfl, roomy⟩, rfl⟩
  · intro node member
    obtain ⟨m, rfl⟩ := fresh node member
    rfl
  · intro node member
    obtain ⟨m, rfl⟩ := fresh node member
    rfl
  · intro node member
    obtain ⟨m, rfl⟩ := fresh node member
    rfl

end DaisyChain
