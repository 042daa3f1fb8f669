import DaisyChain.Proofs.Chain.Yield

/-!
# What a disturbed chain makes of a stream

Links that are disturbed change some of the bytes sent over them.  `Disturbance.pass` tells what
arrives of a stream, and what is left of the disturbances.  `course` is what nodes in a row make
of a stream if a disturbed link leads to each of them.

A chain is underway with a stream if each node has read some of what has arrived of what the node
before it has sent, and has become what it becomes with that (`Chain.Underway`).  A round moves
more bytes, and the chain stays underway (`ChainNode.Underway.tickAll`).  So do the calls of the
gateway, unless it waits in vain: then the chain was at rest, and no module changes any more
(`Chain.Underway.await`).  The module of each node is what a beginning of what arrives at the node
makes of it (`ChainNode.Underway.exists_module`).
-/

namespace DaisyChain

open Node

variable {M : Type} {table : Table M}

/-! ### Disturbances -/

/-- What arrives of the given bytes, and what is left of the disturbances they meet. -/
def Disturbance.pass : List Disturbance → List UInt8 → List UInt8 × List Disturbance
  | ds, [] => ([], ds)
  | ds, byte :: rest =>
    let (arrived, ds') := apply ds (some byte)
    let (others, left) := pass ds' rest
    (arrived.toList ++ others, left)

namespace Disturbance

/-- Bytes may pass in two parts. -/
theorem pass_append (ds : List Disturbance) (xs ys : List UInt8) :
  pass ds (xs ++ ys) = ((pass ds xs).1 ++ (pass (pass ds xs).2 ys).1, (pass (pass ds xs).2 ys).2)
  := by
  induction xs generalizing ds with
  | nil => rfl
  | cons x xs ih => simp only [List.cons_append, pass, ih, List.append_assoc]

/-- Of more bytes more arrive. -/
theorem pass_prefix (ds : List Disturbance) {xs ys : List UInt8} (begins : xs <+: ys) :
  (pass ds xs).1 <+: (pass ds ys).1
  := by
  obtain ⟨more, rfl⟩ := begins
  rw [pass_append]
  apply List.prefix_append

/-- No more bytes arrive than were sent. -/
theorem length_pass_le (ds : List Disturbance) (bytes : List UInt8) :
  (pass ds bytes).1.length ≤ bytes.length
  := by
  induction bytes generalizing ds with
  | nil => apply Nat.le_refl
  | cons byte rest ih =>
    have others := ih (apply ds (some byte)).2
    have one : (apply ds (some byte)).1.toList.length ≤ 1 := by
      cases (apply ds (some byte)).1 <;> simp
    simp only [pass, List.length_append, List.length_cons]
    omega

/-- Without disturbances all bytes arrive as they were sent. -/
theorem pass_nil (bytes : List UInt8) :
  pass [] bytes = (bytes, [])
  := by
  induction bytes with
  | nil => rfl
  | cons byte rest ih => simp only [pass, apply, ih, Option.toList_some, List.singleton_append]

/-- If a byte is to be changed, all bytes arrive, and the one in its place is changed. -/
theorem arrived_pass_changed (skip : Nat) (mask : UInt8) (bytes : List UInt8) :
  (pass [⟨skip, some mask⟩] bytes).1 = bytes.modify skip (· ^^^ mask)
  := by
  induction bytes generalizing skip with
  | nil => cases skip <;> rfl
  | cons byte rest ih =>
    cases skip with
    | zero =>
      simp only [pass, apply, if_true, pass_nil]
      rfl
    | succ skip =>
      simp only [pass, apply, Nat.succ_ne_zero, if_false, Nat.add_sub_cancel, ih]
      rfl

/-- If a byte that is to be changed has passed, nothing is to befall the bytes behind it. -/
theorem left_pass_changed {skip : Nat} (mask : UInt8) {bytes : List UInt8}
    (within : skip < bytes.length) :
  (pass [⟨skip, some mask⟩] bytes).2 = []
  := by
  induction bytes generalizing skip with
  | nil => contradiction
  | cons byte rest ih =>
    cases skip with
    | zero => simp only [pass, apply, if_true, pass_nil]
    | succ skip =>
      simp only [pass, apply, Nat.succ_ne_zero, if_false, Nat.add_sub_cancel]
      exact ih (Nat.lt_of_succ_lt_succ within)

end Disturbance

/-- What sending does to a link. -/
theorem Link.pushAll_eq (l : Link) (bytes : List UInt8) :
  l.pushAll bytes = { l with
    queue := l.queue ++ (Disturbance.pass l.disturbances bytes).1
    pushed := l.pushed + bytes.length
    disturbances := (Disturbance.pass l.disturbances bytes).2 }
  := by
  induction bytes generalizing l with
  | nil => simp [pushAll, Disturbance.pass]
  | cons byte rest ih =>
    rw [show l.pushAll (byte :: rest) = (l.push byte).pushAll rest from rfl, ih]
    simp only [push, Disturbance.pass, List.append_assoc, List.length_cons, Nat.add_assoc,
      Nat.add_comm 1]

/-! ### Streams over disturbed links -/

/-- A node without its link, with what is to befall the bytes that come to it. -/
structure Stage (M : Type) where
  ahead : List Disturbance
  body : Body M

/-- The given nodes after a stream has been sent to the first of them, and the bytes that leave
the last one. -/
def course (table : Table M) : List (Stage M) → List UInt8 → List (Stage M) × List UInt8
  | [], bytes => ([], bytes)
  | s :: rest, bytes =>
    let (arrived, ahead) := Disturbance.pass s.ahead bytes
    let (b, out) := s.body.digest table arrived
    let (rest', final) := course table rest out
    (⟨ahead, b⟩ :: rest', final)

/-- A stream may come in two parts. -/
theorem course_append (table : Table M) (stages : List (Stage M)) (xs ys : List UInt8) :
  course table stages (xs ++ ys) =
    ((course table (course table stages xs).1 ys).1,
      (course table stages xs).2 ++ (course table (course table stages xs).1 ys).2)
  := by
  induction stages generalizing xs ys with
  | nil => rfl
  | cons s rest ih => simp only [course, Disturbance.pass_append, Body.digest_append, ih]

/-- A stream to nodes in two groups. -/
theorem course_append_stages (table : Table M) (front back : List (Stage M)) (bytes : List UInt8) :
  course table (front ++ back) bytes =
    ((course table front bytes).1 ++ (course table back (course table front bytes).2).1,
      (course table back (course table front bytes).2).2)
  := by
  induction front generalizing bytes with
  | nil => rfl
  | cons s rest ih => simp only [List.cons_append, course, ih]

/-- More of a stream leads to more. -/
theorem course_prefix (table : Table M) (stages : List (Stage M)) {xs ys : List UInt8}
    (begins : xs <+: ys) :
  (course table stages xs).2 <+: (course table stages ys).2
  := by
  obtain ⟨more, rfl⟩ := begins
  rw [course_append]
  apply List.prefix_append

/-! ### Nodes that are underway -/

/-- Of the bytes sent over the link while the given disturbances lay ahead, those read have been
read, and the others that arrived are on it. -/
def Link.Carried (l : Link) (ahead : List Disturbance) (sent read : List UInt8) : Prop :=
  Disturbance.pass ahead sent = (read ++ l.queue, l.disturbances)

namespace Link.Carried

variable {l : Link} {ahead : List Disturbance} {sent read : List UInt8}

/-- More bytes may be sent. -/
theorem pushAll (carried : l.Carried ahead sent read) (bytes : List UInt8) :
  (l.pushAll bytes).Carried ahead (sent ++ bytes) read
  := by
  rw [Carried] at carried ⊢
  simp only [Disturbance.pass_append, carried, pushAll_eq, List.append_assoc]

/-- Some of the bytes that have arrived may be read. -/
theorem read_queue (carried : l.Carried ahead sent read) {front back : List UInt8}
    (split : l.queue = front ++ back) :
  ({ l with queue := back } : Link).Carried ahead sent (read ++ front)
  := by
  rw [Carried] at carried ⊢
  rw [carried, split, List.append_assoc]

/-- What has been read is a beginning of what has arrived. -/
theorem read_prefix (carried : l.Carried ahead sent read) :
  read <+: (Disturbance.pass ahead sent).1
  := by
  rw [Carried] at carried
  rw [carried]
  apply List.prefix_append

end Link.Carried

/-- With the given bytes a node has become another one and has sent the given ones.  Its module is
what a beginning of these bytes makes of it. -/
structure Node.Body.Follows (table : Table M) (b : Body M) (read : List UInt8) (b' : Body M)
    (sent : List UInt8) : Prop where
  leads : b.Leads table read b' sent
  module : ∃ xs, xs <+: read ∧ b'.module = (b.digest table xs).1.module

/-- What a node has sent is a beginning of what it makes of what it has read. -/
theorem Node.Body.Follows.out_prefix {b b' : Body M} {read sent : List UInt8}
    (follows : b.Follows table read b' sent) :
  sent <+: (b.digest table read).2
  := by
  rw [show b.digest table read = _ from follows.leads]
  apply List.prefix_append

/-- A node that follows goes on following when it ticks. -/
theorem ChainNode.follows_tick {now : UInt32} {b : Body M} {read sent : List UInt8}
    {node : ChainNode M} (follows : b.Follows table read node.body sent)
    (working : node.Working now)
    (input : Link) :
  ∃ more others, input.queue = more ++ (node.tick table now input).1.queue ∧
    (node.tick table now input).2.out = node.out.pushAll others ∧
    b.Follows table (read ++ more) (node.tick table now input).2.body (sent ++ others)
  := by
  have drained : (node.station input).wiring.drained = true := by simp [station, working.going]
  obtain ⟨more, others, queue, link, leads⟩ := (Station.foreseen_tick table (node.station input)
    working.fresh drained).leads
  refine ⟨more, others, queue, link, follows.leads.trans leads, ?_⟩
  rcases Station.module_tick table now (node.station input) drained with same | rested
  · obtain ⟨xs, begins, module⟩ := follows.module
    exact ⟨xs, begins.trans (List.prefix_append _ _), same.trans module⟩
  · refine ⟨read, List.prefix_append _ _, rested.trans ?_⟩
    rw [show b.digest table read = _ from follows.leads]
    rfl

namespace ChainNode

variable {now : UInt32} {last : List Disturbance} {gone : List UInt8}

/-- From what they were, with the given disturbances ahead, the nodes have become what they are with
some of the bytes sent to the first of them.  Of the bytes that arrived over the last link, those
gone have been taken. -/
def Underway (table : Table M) (last : List Disturbance) (gone : List UInt8) :
    List (Stage M) → List UInt8 → Link → List (ChainNode M) → Prop
  | [], sent, input, [] => input.Carried last sent gone
  | s :: stages, sent, input, node :: nodes =>
    ∃ read out, input.Carried s.ahead sent read ∧ s.body.Follows table read node.body out ∧
      Underway table last gone stages out node.out nodes
  | _, _, _, _ => False

namespace Underway

variable {stages : List (Stage M)} {sent : List UInt8} {input : Link} {nodes : List (ChainNode M)}

/-- The nodes are gone through together with what they were.  Either none is left, or the first has
read some of what was sent, and the others are underway with what it has sent for that. -/
@[elab_as_elim]
theorem induction_on
    {motive : ∀ stages sent input nodes, Underway table last gone stages sent input nodes → Prop}
    (nil : ∀ {sent : List UInt8} {input : Link} (carried : input.Carried last sent gone),
      motive [] sent input [] carried)
    (cons : ∀ {s : Stage M} {stages : List (Stage M)} {sent : List UInt8} {input : Link}
      {node : ChainNode M} {nodes : List (ChainNode M)} {read out : List UInt8}
      (carried : input.Carried s.ahead sent read)
      (follows : s.body.Follows table read node.body out)
      (behind : Underway table last gone stages out node.out nodes),
      motive stages out node.out nodes behind →
        motive (s :: stages) sent input (node :: nodes) ⟨read, out, carried, follows, behind⟩)
    (path : Underway table last gone stages sent input nodes) :
  motive stages sent input nodes path
  := by
  induction stages generalizing sent input nodes with
  | nil =>
    cases nodes with
    | nil => apply nil
    | cons node nodes => apply path.elim
  | cons s stages ih =>
    cases nodes with
    | nil => apply path.elim
    | cons node nodes =>
      obtain ⟨read, out, carried, follows, behind⟩ := path
      apply cons carried follows behind (ih behind)

/-- There are as many nodes as there were. -/
theorem length_eq (path : Underway table last gone stages sent input nodes) :
  nodes.length = stages.length
  := by
  induction path using Underway.induction_on with
  | nil => rfl
  | cons _ _ _ ih => rw [List.length_cons, List.length_cons, ih]

/-- More bytes may be sent. -/
theorem pushAll (path : Underway table last gone stages sent input nodes) (bytes : List UInt8) :
  Underway table last gone stages (sent ++ bytes) (input.pushAll bytes) nodes
  := by
  induction path using Underway.induction_on with
  | nil carried => exact carried.pushAll bytes
  | cons carried follows behind => exact ⟨_, _, carried.pushAll bytes, follows, behind⟩

/-- A round keeps working nodes underway. -/
theorem tickAll (path : Underway table last gone stages sent input nodes)
    (working : ∀ node ∈ nodes, node.Working now) :
  Underway table last gone stages sent (ChainNode.tickAll table now input nodes).1
    (ChainNode.tickAll table now input nodes).2
  := by
  -- What the first node sends has been pushed to the others when their turn comes, so the induction
  -- is over every stream.
  induction stages generalizing sent input nodes with
  | nil =>
    cases nodes with
    | nil => apply path
    | cons node nodes => apply path.elim
  | cons s stages ih =>
    cases nodes with
    | nil => apply path.elim
    | cons node nodes =>
      obtain ⟨read, out, carried, follows, behind⟩ := path
      obtain ⟨more, others, queue, link, follows'⟩ := follows_tick follows
        (working node List.mem_cons_self) input
      have later : Underway table last gone stages (out ++ others)
          (node.tick table now input).2.out nodes := by
        rw [link]
        apply behind.pushAll others
      exact ⟨read ++ more, out ++ others, carried.read_queue queue, follows',
        ih later fun other member => working other (List.mem_cons_of_mem _ member)⟩

/-- What is on the last link may be taken. -/
theorem take_exit {front : List (ChainNode M)} {node : ChainNode M}
    (path : Underway table last gone stages sent input (front ++ [node])) (count : Nat) :
  Underway table last (gone ++ node.out.queue.take count) stages sent input
    (front ++ [{ node with out := node.out.drop count }])
  := by
  induction front generalizing stages sent input with
  | nil =>
    cases stages with
    | nil => apply path.elim
    | cons s stages =>
      cases stages with
      | cons s' stages =>
        obtain ⟨read, out, -, -, behind⟩ := path
        apply behind.elim
      | nil =>
        obtain ⟨read, out, carried, follows, behind⟩ := path
        exact ⟨read, out, carried, follows,
          Link.Carried.read_queue behind (List.take_append_drop count _).symm⟩
  | cons first front ih =>
    cases stages with
    | nil => apply path.elim
    | cons s stages =>
      obtain ⟨read, out, carried, follows, behind⟩ := path
      exact ⟨read, out, carried, follows, ih behind⟩

/-- The module of a node is what a beginning of what arrives at the node makes of it. -/
theorem exists_module (path : Underway table last gone stages sent input nodes) {i : Nat}
    {s : Stage M} {node : ChainNode M} (was : stages[i]? = some s) (is : nodes[i]? = some node) :
  ∃ read, read <+: (Disturbance.pass s.ahead (course table (stages.take i) sent).2).1 ∧
    node.module = (s.body.digest table read).1.module
  := by
  induction stages generalizing sent input nodes i with
  | nil => cases was
  | cons first stages ih =>
    cases nodes with
    | nil => cases is
    | cons node' nodes =>
      obtain ⟨read, out, carried, follows, behind⟩ := path
      cases i with
      | zero =>
        cases was
        cases is
        obtain ⟨xs, prefixed, module⟩ := follows.module
        exact ⟨xs, prefixed.trans carried.read_prefix, module⟩
      | succ i =>
        obtain ⟨xs, prefixed, module⟩ := ih behind was is
        have forth := course_prefix table (stages.take i)
          (follows.out_prefix.trans (Node.Body.digest_prefix _ _ carried.read_prefix))
        exact ⟨xs, prefixed.trans (Disturbance.pass_prefix s.ahead forth), module⟩

/-- What the last node has sent is a beginning of what a stream leads to, and what has arrived of it
is gone or on the last link. -/
theorem exists_exit (path : Underway table last gone stages sent input nodes) :
  ∃ out, out <+: (course table stages sent).2 ∧ (exit input nodes).Carried last out gone
  := by
  induction path using Underway.induction_on with
  | nil carried => exact ⟨_, List.prefix_refl _, carried⟩
  | @cons s stages sent input node nodes read out carried follows behind ih =>
    obtain ⟨final, within, left⟩ := ih
    have forth := course_prefix table stages
      (follows.out_prefix.trans (Node.Body.digest_prefix _ _ carried.read_prefix))
    exact ⟨final, within.trans forth, left⟩

/-- At rest the first node has read all that arrived, and become what its body makes of that. -/
theorem digest_of_atRest {s : Stage M} {node : ChainNode M} {read out : List UInt8}
    (carried : input.Carried s.ahead sent read) (follows : s.body.Follows table read node.body out)
    (rest : AtRest input (node :: nodes)) :
  Disturbance.pass s.ahead sent = (read, input.disturbances) ∧
    s.body.digest table read = (node.body, out)
  := by
  obtain ⟨silent, waiting, others⟩ := rest
  rw [Link.Carried, silent, List.append_nil] at carried
  have own : node.body.rest table = (node.body, []) := Node.Body.rest_of_waiting waiting
  refine ⟨carried, ?_⟩
  rw [show s.body.digest table read = _ from follows.leads, own, List.append_nil]

/-- At rest the nodes have become what the stream makes of them. -/
theorem bodies_of_atRest (path : Underway table last gone stages sent input nodes)
    (rest : AtRest input nodes) :
  nodes.map body = (course table stages sent).1.map Stage.body ∧
    (exit input nodes).Carried last (course table stages sent).2 gone
  := by
  induction path using Underway.induction_on with
  | nil carried => exact ⟨rfl, carried⟩
  | cons carried follows behind ih =>
    obtain ⟨arrived, becomes⟩ := digest_of_atRest carried follows rest
    obtain ⟨bodies, final⟩ := ih rest.2.2
    simp only [course, arrived, becomes, List.map_cons, bodies, exit, final, and_self]

end Underway

/-- Every node waits, and nothing is on any link. -/
structure Calm (input : Link) (nodes : List (ChainNode M)) : Prop where
  silent : ∀ l ∈ input :: nodes.map out, l.queue = []
  waiting : ∀ node ∈ nodes, node.engine.phase.Waiting

/-- A tick sends nothing and touches no module if the node waits and there is nothing to read. -/
theorem calm_tick (table : Table M) (now : UInt32) {input : Link} {node : ChainNode M}
    (silent : input.queue = [])
    (waiting : node.engine.phase.Waiting) :
  let after := node.tick table now input
  after.1 = input ∧ after.2.out = node.out ∧ after.2.module = node.module ∧
    after.2.engine.phase.Waiting
  := by
  obtain ⟨queue, pushed, disturbances, capacity⟩ := input
  obtain ⟨⟨phase, since, staged, record⟩, m, out, stalled⟩ := node
  simp only at silent waiting
  subst silent
  cases phase with
  | listening heard =>
    simp only [tick, station, Station.tick, Engine.listen, true_and]
    rw [Engine.awaitHeader]
    split <;> trivial
  | recovering =>
    simp only [tick, station, Station.tick, Engine.swallow, true_and]
    rw [Engine.recover]
    split
    · trivial
    · split <;> trivial
  | relaying request count collector =>
    by_cases late : (Engine.mk (.relaying request count collector) since staged record).timedOut now
    · simp only [tick, station, Station.tick, Engine.relay, late, if_true, true_and]
      split <;> trivial
    · simp only [tick, station, Station.tick, Engine.relay, late, Bool.false_eq_true, if_false,
        Engine.collect, true_and]
      trivial
  | counting request count kept => contradiction
  | sending request frame sent => contradiction
  | committing batch => contradiction

/-- A round sends nothing and touches no module if every node waits and nothing is on any link. -/
theorem Calm.tickAll {input : Link} {nodes : List (ChainNode M)} (calm : Calm input nodes)
    (table : Table M) (now : UInt32) :
  let after := tickAll table now input nodes
  after.1 = input ∧ after.2.map out = nodes.map out ∧
    after.2.map ChainNode.module = nodes.map ChainNode.module ∧
    ∀ node ∈ after.2, node.engine.phase.Waiting
  := by
  induction nodes generalizing input with
  | nil => exact ⟨rfl, rfl, rfl, fun node member => by cases member⟩
  | cons node rest ih =>
    obtain ⟨read, sent, module, waits⟩ := calm_tick table now
      (calm.silent input List.mem_cons_self) (calm.waiting node List.mem_cons_self)
    have behind : Calm node.out rest :=
      ⟨fun l member => calm.silent l (List.mem_cons_of_mem _ member),
        fun other member => calm.waiting other (List.mem_cons_of_mem _ member)⟩
    obtain ⟨link, links, modules, others⟩ := ih behind
    simp only [ChainNode.tickAll, sent, List.map_cons, module, List.mem_cons]
    refine ⟨read, ?_, ?_, ?_⟩
    · rw [link, links]
    · rw [modules]
    · rintro other (rfl | member)
      · apply waits
      · apply others other member

/-- The nodes in a row and the links that lead to them, without what is on these. -/
def stages (input : Link) (nodes : List (ChainNode M)) : List (Stage M) :=
  (input :: nodes.map out).zipWith (fun l node => ⟨l.disturbances, node.body⟩) nodes

/-- Calm nodes are underway with nothing. -/
theorem Calm.underway {input : Link} {nodes : List (ChainNode M)} (calm : Calm input nodes) :
  Underway table (exit input nodes).disturbances [] (stages input nodes) [] input nodes
  := by
  have carried (l : Link) (silent : l.queue = []) : l.Carried l.disturbances [] [] := by
    rw [Link.Carried, silent]
    rfl
  induction nodes generalizing input with
  | nil => apply carried input (calm.silent input List.mem_cons_self)
  | cons node rest ih =>
    have behind : Calm node.out rest :=
      ⟨fun l member => calm.silent l (List.mem_cons_of_mem _ member),
        fun other member => calm.waiting other (List.mem_cons_of_mem _ member)⟩
    have still : node.body.rest table = (node.body, []) :=
      Node.Body.rest_of_waiting (calm.waiting node List.mem_cons_self)
    refine ⟨[], [], carried input (calm.silent input List.mem_cons_self), ⟨rfl, [], ?_⟩, ih behind⟩
    refine ⟨List.prefix_refl _, ?_⟩
    rw [Node.Body.digest, still]

end ChainNode

namespace Chain

variable {c : Chain M}

/-! ### Calm chains -/

/-- The modules of the nodes. -/
def modules (c : Chain M) : List M :=
  c.nodes.map ChainNode.module

/-- Every node waits, and nothing is on any link. -/
def Calm (c : Chain M) : Prop :=
  ChainNode.Calm c.entry c.nodes

/-- A chain at rest with nothing on the link back to the gateway is calm. -/
theorem AtRest.calm (rest : c.AtRest) (silent : c.exit.queue = []) :
  c.Calm
  := by
  have waiting (input : Link) (nodes : List (ChainNode M)) (still : ChainNode.AtRest input nodes) :
      ∀ node ∈ nodes, node.engine.phase.Waiting := by
    induction nodes generalizing input with
    | nil => simp
    | cons node others ih =>
      obtain ⟨-, first, behind⟩ := still
      rw [List.forall_mem_cons]
      exact ⟨first, ih node.out behind⟩
  rw [exit_eq] at silent
  exact ⟨ChainNode.silent_of_atRest rest silent, waiting c.entry c.nodes rest⟩

/-- Nothing but clocks and phases changes when a calm chain settles. -/
theorem Calm.settle (calm : c.Calm) :
  c.settle.Calm ∧ c.settle.modules = c.modules
  := by
  apply c.settle_preserves (fun d => d.Calm ∧ d.modules = c.modules) _ ⟨calm, rfl⟩
  intro d ⟨still, same⟩
  obtain ⟨input, links, modules, waiting⟩ := still.tickAll d.table d.now
  refine ⟨⟨?_, waiting⟩, modules.trans same⟩
  change ∀ l ∈ (ChainNode.tickAll d.table d.now d.entry d.nodes).1 ::
    (ChainNode.tickAll d.table d.now d.entry d.nodes).2.map ChainNode.out, l.queue = []
  rw [input, links]
  apply still.silent

/-- Nothing but clocks and phases changes when time passes on a calm chain. -/
theorem Calm.advance (calm : c.Calm) (ms : Nat) :
  (c.advance ms).Calm ∧ (c.advance ms).modules = c.modules
  := by
  induction ms generalizing c with
  | zero => exact ⟨calm, rfl⟩
  | succ ms ih =>
    have later : Calm { c with now := c.now + 1 } := calm
    obtain ⟨settled, same⟩ := later.settle
    obtain ⟨still, same'⟩ := ih settled
    exact ⟨still, same'.trans same⟩

/-- Changes to the link back to the gateway that agree on it are the same. -/
theorem modifyExit_congr (c : Chain M) {f g : Link → Link} (same : f c.exit = g c.exit) :
  c.modifyExit f = c.modifyExit g
  := by
  rcases c.eq_nil_or_concat with none | ⟨front, node, split⟩
  · rw [exit_eq, none] at same
    rw [modifyExit_nil none, modifyExit_nil none]
    exact congrArg (fun l => { c with entry := l }) same
  · rw [exit_eq, split, exit_concat] at same
    rw [modifyExit_concat split, modifyExit_concat split, same]

/-- A chain whose link back to the gateway is not changed stays as it is. -/
theorem modifyExit_id (c : Chain M) :
  c.modifyExit (fun l => l) = c
  := by
  rcases c.eq_nil_or_concat with none | ⟨front, node, split⟩
  · rw [modifyExit_nil none]
  · rw [modifyExit_concat split, ← split]

/-- Nothing is to be taken from a calm chain. -/
theorem Calm.take_eq (calm : c.Calm) (count : Nat) :
  c.take count = ([], c)
  := by
  have silent : c.exit.queue = [] := calm.silent _ (List.getLast_mem _)
  have still : c.exit.drop count = c.exit := by
    rw [Link.drop, silent, List.drop_nil, ← silent]
  rw [take, silent, List.take_nil, c.modifyExit_congr (g := fun l => l) still, modifyExit_id]

/-- Waiting for bytes from a calm chain is in vain, and changes no module. -/
theorem Calm.await (calm : c.Calm) (count ms : Nat) :
  (c.await count ms).1 = [] ∧ (c.await count ms).2.modules = c.modules
  := by
  induction ms generalizing c count with
  | zero =>
    obtain ⟨still, same⟩ := calm.settle
    rw [Chain.await, still.take_eq]
    exact ⟨rfl, same⟩
  | succ ms ih =>
    obtain ⟨still, same⟩ := calm.settle
    obtain ⟨later, same'⟩ := still.advance 1
    obtain ⟨none, same''⟩ := ih later (count - 0)
    simp only [Chain.await, still.take_eq, List.length_nil, List.nil_append]
    split
    · exact ⟨rfl, same⟩
    · exact ⟨none, same''.trans (same'.trans same)⟩

/-! ### Chains that are underway -/

/-- A chain as it was before anything was sent. -/
structure Origin (M : Type) where
  table : Table M
  stages : List (Stage M)
  /-- What is to befall the bytes that come back to the gateway. -/
  last : List Disturbance

/-- What a chain was before anything was sent, if it is calm. -/
def origin (c : Chain M) : Origin M :=
  ⟨c.table, ChainNode.stages c.entry c.nodes, c.exit.disturbances⟩

/-- A working chain has become what it is with some of the bytes sent, and of those that came
back to the gateway those gone have been taken. It is at rest unless more came back than fits a
frame. -/
structure Underway (c : Chain M) (o : Origin M) (sent gone : List UInt8) : Prop where
  working : c.Working
  table_eq : c.table = o.table
  path : ChainNode.Underway o.table o.last gone o.stages sent c.entry c.nodes
  rest : (course o.table o.stages sent).2.length ≤ frameMax → c.AtRest

variable {o : Origin M} {sent gone : List UInt8}

/-- A calm chain is underway with nothing. -/
theorem Calm.underway (calm : c.Calm) (working : c.Working) :
  c.Underway c.origin [] []
  := by
  have path : ChainNode.Underway c.table c.exit.disturbances []
      (ChainNode.stages c.entry c.nodes) [] c.entry c.nodes := by
    rw [exit_eq]
    apply ChainNode.Calm.underway calm
  exact ⟨working, rfl, path, fun _ => (ChainNode.atRest_of_waiting calm.silent calm.waiting).1⟩

/-- The link back to the gateway holds no more than has come back and is not gone. -/
theorem length_exit_le
    (path : ChainNode.Underway o.table o.last gone o.stages sent c.entry c.nodes) :
  gone.length + c.exit.queue.length ≤ (course o.table o.stages sent).2.length
  := by
  obtain ⟨out, within, carried⟩ := path.exists_exit
  have arrived := Disturbance.length_pass_le o.last out
  rw [← exit_eq, Link.Carried] at carried
  rw [carried, List.length_append] at arrived
  apply Nat.le_trans arrived within.length_le

/-- A chain settles underway. -/
theorem underway_settle (working : c.Working) (works : c.table = o.table)
    (path : ChainNode.Underway o.table o.last gone o.stages sent c.entry c.nodes) :
  c.settle.Underway o sent gone
  := by
  have kept : c.settle.Working ∧ c.settle.table = o.table ∧
      ChainNode.Underway o.table o.last gone o.stages sent c.settle.entry c.settle.nodes := by
    apply c.settle_preserves (fun d => d.Working ∧ d.table = o.table ∧
      ChainNode.Underway o.table o.last gone o.stages sent d.entry d.nodes) _ ⟨working, works, path⟩
    rintro d ⟨working, works, path⟩
    have moved := path.tickAll working.nodes
    rw [← works] at moved ⊢
    exact ⟨working.round, rfl, moved⟩
  obtain ⟨working', works', path'⟩ := kept
  refine ⟨working', works', path', fun short => atRest_settle working ?_⟩
  have held := length_exit_le path'
  have roomy := working'.exit
  rw [Link.room]
  omega

/-- What has been taken is a beginning of what arrives back at the gateway. -/
theorem gone_prefix (path : ChainNode.Underway o.table o.last gone o.stages sent c.entry c.nodes) :
  gone <+: (Disturbance.pass o.last (course o.table o.stages sent).2).1
  := by
  obtain ⟨out, within, carried⟩ := path.exists_exit
  exact carried.read_prefix.trans (Disturbance.pass_prefix o.last within)

namespace Underway

/-- A chain that is underway settles underway. -/
theorem settle (underway : c.Underway o sent gone) :
  c.settle.Underway o sent gone
  := underway_settle underway.working underway.table_eq underway.path

/-- The gateway may send more. -/
theorem inject (underway : c.Underway o sent gone) (bytes : List UInt8) :
  (c.inject 0 bytes).Underway o (sent ++ bytes) gone
  := by
  have working : (c.modifyLink 0 fun l => l.pushAll bytes).Working := by
    refine ⟨?_, underway.working.nodes⟩
    change frameMax < (c.entry.pushAll bytes).capacity
    rw [capacity_pushAll]
    apply underway.working.roomy
  apply underway_settle working underway.table_eq (underway.path.pushAll bytes)

/-- The gateway may take what has come back. -/
theorem take (underway : c.Underway o sent gone) (count : Nat) :
  (c.take count).2.Underway o sent (gone ++ c.exit.queue.take count)
  := by
  have rest (short : (course o.table o.stages sent).2.length ≤ frameMax) :
      (c.take count).2.AtRest := (underway.rest short).modifyExit _
  have path := underway.path
  rw [Chain.take] at rest ⊢
  rcases c.eq_nil_or_concat with none | ⟨front, node, split⟩
  · rw [modifyExit_nil none] at rest ⊢
    rw [none] at path
    refine ⟨⟨underway.working.roomy, underway.working.nodes⟩, underway.table_eq, ?_, rest⟩
    rw [exit_eq, none]
    cases stages : o.stages with
    | nil =>
      rw [stages] at path
      exact Link.Carried.read_queue path (List.take_append_drop count _).symm
    | cons s stages' =>
      rw [stages] at path
      apply path.elim
  · rw [modifyExit_concat split] at rest ⊢
    rw [split] at path
    refine ⟨⟨underway.working.roomy, ?_⟩, underway.table_eq, ?_, rest⟩
    · have nodes := underway.working.nodes
      rw [split] at nodes
      intro node' member
      rcases List.mem_append.mp member with before | final
      · apply nodes node' (List.mem_append_left _ before)
      · have own := nodes node (List.mem_append_right _ List.mem_cons_self)
        rw [List.mem_singleton.mp final]
        exact ⟨own.fresh, own.roomy, own.going⟩
    · rw [exit_eq, split, exit_concat]
      apply path.take_exit count

/-- The gateway may drop what has come back. -/
theorem clearExit (underway : c.Underway o sent gone) :
  c.clearExit.Underway o sent (gone ++ c.settle.exit.queue)
  := by
  have all := underway.settle.take c.settle.exit.queue.length
  have clears : Link.clear c.settle.exit = c.settle.exit.drop c.settle.exit.queue.length := by
    rw [Link.clear, Link.drop, List.drop_length]
  have same : c.clearExit = (c.settle.take c.settle.exit.queue.length).2 :=
    c.settle.modifyExit_congr (f := Link.clear)
      (g := fun l => l.drop c.settle.exit.queue.length) clears
  rw [List.take_length] at all
  rw [same]
  apply all

/-- If no more than a frame comes back, the modules are those that the stream leads to. -/
theorem modules_eq (underway : c.Underway o sent gone)
    (short : (course o.table o.stages sent).2.length ≤ frameMax) :
  c.modules = (course o.table o.stages sent).1.map fun s => s.body.module
  := by
  have bodies := (underway.path.bodies_of_atRest (underway.rest short)).1
  have same := congrArg (List.map Body.module) bodies
  rw [List.map_map, List.map_map] at same
  apply same

/-- If the gateway finds too few bytes, the chain is at rest, and nothing is on its way any more. -/
theorem calm_take (underway : c.Underway o sent gone) {count : Nat}
    (few : (c.settle.take count).1.length < count) (short : count ≤ frameMax) :
  (c.settle.take count).2.AtRest ∧ (c.settle.take count).2.Calm
  := by
  rw [Chain.take, List.length_take] at few
  have room : c.settle.exit.room ≠ 0 := by
    have roomy := underway.settle.working.exit
    rw [Link.room]
    omega
  have rest : (c.settle.take count).2.AtRest :=
    (atRest_settle underway.working room).modifyExit _
  refine ⟨rest, rest.calm ?_⟩
  rw [Chain.take, exit_modifyExit, Link.drop, List.drop_eq_nil_of_le]
  omega

/-- The gateway receives as many bytes as it waits for, or too few: then the chain has come to rest,
and no module changes any more. -/
theorem await (underway : c.Underway o sent gone) {count : Nat} (short : count ≤ frameMax)
    (ms : Nat) :
  let r := c.await count ms
  r.1.length = count ∧ r.2.Underway o sent (gone ++ r.1) ∨
    r.1.length < count ∧ ∃ c', Underway c' o sent (gone ++ r.1) ∧ c'.AtRest ∧
      r.2.modules = c'.modules
  := by
  have taken : (c.settle.take count).2.Underway o sent (gone ++ (c.settle.take count).1) :=
    underway.settle.take count
  have most : (c.settle.take count).1.length ≤ count := by
    rw [Chain.take, List.length_take]
    apply Nat.min_le_left
  rcases Nat.eq_or_lt_of_le most with all | few
  · left
    cases ms with
    | zero => exact ⟨all, taken⟩
    | succ ms =>
      simp only [Chain.await, all, if_true]
      exact ⟨trivial, taken⟩
  · right
    obtain ⟨rest, calm⟩ := underway.calm_take few short
    cases ms with
    | zero => exact ⟨few, _, taken, rest, rfl⟩
    | succ ms =>
      obtain ⟨later, same⟩ := calm.advance 1
      obtain ⟨none, same'⟩ := later.await (count - (c.settle.take count).1.length) ms
      simp only [Chain.await, Nat.ne_of_lt few, if_false, none, List.append_nil]
      exact ⟨few, _, taken, rest, same'.trans same⟩

end Underway

end Chain

end DaisyChain
