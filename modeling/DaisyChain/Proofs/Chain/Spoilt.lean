import DaisyChain.Proofs.Chain.Disturbed
import DaisyChain.Proofs.Chain.Outcome
import DaisyChain.Proofs.Node.Load

/-!
# Writes over a disturbed link

What becomes of a write to nodes that listen if the link to one of them is disturbed.  An idle
chain with such a link is underway from there (`Chain.Idle.origin_disturb`).

Up to that link the load travels as it was sent.  If what arrives there is broken, it stays
broken, or turns into zeros, on its way to the last node (`Journey.handed_of_broken`).  If only the
last frame on that link has lost its end, and no more than an acknowledge comes behind it, the nodes
behind the link receive their frames and nothing else (`Journey.handed_of_unended`).  Either way
the module of each node stays as it is or takes the value of the node's own frame
(`Journey.Served`).
-/

namespace DaisyChain

open Node

variable {M : Type} {table : Table M}

/-! ### Changed bytes -/

/-- A change behind the first of two lists is a change of the second one. -/
theorem modify_append_right {α : Type} (xs ys : List α) (i : Nat) (f : α → α) :
  (xs ++ ys).modify (xs.length + i) f = xs ++ ys.modify i f
  := by
  induction xs with
  | nil => rw [List.length_nil, Nat.zero_add, List.nil_append, List.nil_append]
  | cons x xs ih =>
    rw [List.length_cons, Nat.add_right_comm, List.cons_append, List.modify_succ_cons, ih]
    rfl

/-- A change within the first of two lists leaves the second one as it is. -/
theorem modify_append_left {α : Type} {xs : List α} {i : Nat} (within : i < xs.length) (ys : List α)
    (f : α → α) :
  (xs ++ ys).modify i f = xs.modify i f ++ ys
  := by
  rw [List.modify_eq_take_cons_drop (by rw [List.length_append]; omega),
    List.modify_eq_take_cons_drop within, List.take_append_of_le_length (Nat.le_of_lt within),
    List.getElem_append_left within, List.drop_append_of_le_length (by omega), List.append_assoc,
    List.cons_append]

/-- What arrives of a load that begins, if a byte behind its first frames is to be changed: these
frames, and then the others with that byte changed. -/
theorem Node.Load.Begun.hit {l : Load} {ends : List UInt8 → Prop} {stream : List UInt8}
    (begun : l.Begun ends stream) {front rest : List (List UInt8)}
    (split : l.frames = front ++ rest)
    {offset : Nat} (within : offset < rest.flatten.length) (mask : UInt8) :
  ∃ tail, ends tail ∧ (tail = [] ∨ l.Complete) ∧
    (Disturbance.pass [⟨3 + front.flatten.length + offset, some mask⟩] stream).1 <+:
      l.header.toList ++ (front.flatten ++ (rest.flatten.modify offset (· ^^^ mask) ++ tail))
  := by
  obtain ⟨tail, ended, cut, begins⟩ := begun
  refine ⟨tail, ended, cut, ?_⟩
  have first := Disturbance.pass_prefix [⟨3 + front.flatten.length + offset, some mask⟩] begins
  have shape : l.bytes ++ tail =
      (l.header.toList ++ front.flatten) ++ (rest.flatten ++ tail) := by
    simp [Load.bytes, split]
  have length : 3 + front.flatten.length + offset =
      (l.header.toList ++ front.flatten).length + offset := by
    rw [List.length_append]
    rfl
  rw [Disturbance.arrived_pass_changed _ _ (l.bytes ++ tail), shape, length, modify_append_right,
    modify_append_left within, ← length, List.append_assoc] at first
  apply first

/-- A load that begins breaks off if a byte behind its first frames is to be changed, and what
comes in the place of the next frame is barren. -/
theorem Node.Load.Begun.broken_of_hit {l : Load} {ends : List UInt8 → Prop} {stream : List UInt8}
    (begun : l.Begun ends stream) (few : l.frames.length ≤ framesAfter l.header)
    {front rest : List (List UInt8)} (split : l.frames = front ++ rest) {offset : Nat}
    (within : offset < rest.flatten.length) {mask : UInt8}
    (barren : ∀ tail, ends tail → (tail = [] ∨ l.Complete) →
      Frame.Barren (front.length + 1 = framesAfter l.header)
        (rest.flatten.modify offset (· ^^^ mask) ++ tail)) :
  l.Broken (Disturbance.pass [⟨3 + front.flatten.length + offset, some mask⟩] stream).1
  := by
  obtain ⟨tail, ended, cut, begins⟩ := begun.hit split within mask
  have some : rest.length ≠ 0 := by
    rintro none
    obtain rfl := List.eq_nil_of_length_eq_zero none
    apply Nat.not_lt_zero offset within
  rw [split, List.length_append] at few
  refine ⟨front.length, _, by omega, ?_, barren tail ended cut, ?_⟩
  · rw [split, List.length_append]
    omega
  · rw [split, List.take_left]
    apply begins

/-! ### From node to node -/

/-- What holds of the stream that is sent to the first node, and is handed on from node to node,
holds of what is sent over each link. -/
theorem course_of_step {P : Nat → List UInt8 → Prop} {stages : List (Stage M)} {stream : List UInt8}
    (first : P 0 stream)
    (step : ∀ i s stream, stages[i]? = some s → P i stream →
      P (i + 1) (s.body.digest table (Disturbance.pass s.ahead stream).1).2)
    {i : Nat} (within : i ≤ stages.length) :
  P i (course table (stages.take i) stream).2
  := by
  induction i with
  | zero => apply first
  | succ i ih =>
    have here : stages[i]? = some stages[i] := List.getElem?_eq_getElem within
    rw [List.take_add_one, here, Option.toList_some, course_append_stages]
    apply step i stages[i] _ here (ih (Nat.le_of_succ_le within))

/-- Nodes that listen, with the given disturbances on the link to one of them. -/
def struck (k : Nat) (ds : List Disturbance) (nodes : List (Engine × M)) : List (Stage M) :=
  nodes.mapIdx fun i n => ⟨if i = k then ds else [], Body.listener n.1 n.2⟩

namespace Chain

/-! ### Idle chains with a disturbed link -/

/-- The chain with the given disturbances on one of its links. -/
def disturb (c : Chain M) (k : Nat) (ds : List Disturbance) : Chain M :=
  c.modifyLink k fun l => { l with disturbances := ds }

variable {c : Chain M}

/-- Changing a link changes it among the links. -/
theorem links_modifyLink (c : Chain M) (k : Nat) (f : Link → Link) :
  (c.modifyLink k f).links = c.links.modify k f
  := by
  cases k with
  | zero => rfl
  | succ i =>
    rw [links, links, List.modify_succ_cons]
    refine congrArg (c.entry :: ·) (List.ext_getElem? fun j => ?_)
    simp only [modifyLink, List.getElem?_map, List.getElem?_modify, Option.map_eq_map,
      Option.map_map]
    split <;> rfl

/-- Changing a link changes nothing else of the nodes. -/
theorem map_modifyLink {α : Type} (c : Chain M) (k : Nat) (f : Link → Link) {g : ChainNode M → α}
    (same : ∀ node l, g { node with out := l } = g node) :
  (c.modifyLink k f).nodes.map g = c.nodes.map g
  := by
  cases k with
  | zero => rfl
  | succ i =>
    apply List.ext_getElem?
    intro j
    simp only [modifyLink, List.getElem?_map, List.getElem?_modify, Option.map_eq_map,
      Option.map_map]
    split
    · simp only [Function.comp_def, same]
    · rfl

namespace Idle

variable (idle : c.Idle) (k : Nat) (ds : List Disturbance)
include idle

/-- The links of an idle chain of which one is disturbed are silent, and have room for a frame. -/
theorem link_disturb {i : Nat} {l : Link} (here : (c.disturb k ds).links[i]? = some l) :
  l.disturbances = (if i = k then ds else []) ∧ l.queue = [] ∧ frameMax < l.capacity
  := by
  rw [disturb, links_modifyLink, List.getElem?_modify, Option.map_eq_map,
    Option.map_eq_some_iff] at here
  obtain ⟨l, was, rfl⟩ := here
  obtain ⟨⟨quiet, roomy⟩, silent⟩ := idle.links l (List.mem_of_getElem? was)
  by_cases hit : k = i
  · rw [if_pos hit, if_pos hit.symm]
    exact ⟨rfl, silent, roomy⟩
  · rw [if_neg hit, if_neg (Ne.symm hit)]
    exact ⟨quiet, silent, roomy⟩

/-- Each node of an idle chain with a disturbed link listens. -/
theorem node_disturb {node : ChainNode M} (member : node ∈ (c.disturb k ds).nodes) :
  node.stalled = false ∧ node.engine.phase = .listening .nothing
  := by
  have same := c.map_modifyLink k (fun l => { l with disturbances := ds })
    (g := fun node => (node.stalled, node.engine.phase)) fun _ _ => rfl
  have among := List.mem_map_of_mem
    (f := fun node : ChainNode M => (node.stalled, node.engine.phase)) member
  rw [disturb, same] at among
  obtain ⟨old, within, is⟩ := List.mem_map.mp among
  rw [Prod.mk.injEq] at is
  rw [← is.1, ← is.2]
  exact ⟨idle.going old within, idle.listening old within⟩

/-- An idle chain with a disturbed link is calm. -/
theorem calm_disturb :
  (c.disturb k ds).Calm
  := by
  constructor
  · intro l member
    obtain ⟨i, here⟩ := List.mem_iff_getElem?.mp (show l ∈ (c.disturb k ds).links from member)
    apply (idle.link_disturb k ds here).2.1
  · intro node member
    rw [(idle.node_disturb k ds member).2]
    trivial

/-- An idle chain with a disturbed link works. -/
theorem working_disturb :
  (c.disturb k ds).Working
  := by
  have roomy {l : Link} (member : l ∈ (c.disturb k ds).links) : frameMax < l.capacity := by
    obtain ⟨i, here⟩ := List.mem_iff_getElem?.mp member
    apply (idle.link_disturb k ds here).2.2
  refine ⟨roomy List.mem_cons_self, fun node member => ?_⟩
  obtain ⟨going, listening⟩ := idle.node_disturb k ds member
  refine ⟨?_, roomy (List.mem_cons_of_mem _ (List.mem_map_of_mem member)), going⟩
  simp only [Engine.Fresh, listening]

/-- The nodes of an idle chain with a disturbed link listen with the modules that they had. -/
theorem bodies_disturb :
  (c.disturb k ds).nodes.map ChainNode.body = c.pairs.map fun n => Body.listener n.1 n.2
  := (c.map_modifyLink k _ fun _ _ => rfl).trans idle.bodies_eq

/-- What the nodes of an idle chain with a disturbed link were before anything was sent. -/
theorem stages_disturb :
  ChainNode.stages (c.disturb k ds).entry (c.disturb k ds).nodes = struck k ds c.pairs
  := by
  apply List.ext_getElem?
  intro i
  have body := congrArg (fun l : List (Body M) => l[i]?) (idle.bodies_disturb k ds)
  simp only [List.getElem?_map] at body
  rw [ChainNode.stages, struck, List.getElem?_zipWith, List.getElem?_mapIdx]
  cases node : (c.disturb k ds).nodes[i]? with
  | none =>
    rw [node, Option.map_none, eq_comm, Option.map_eq_none_iff] at body
    rw [body]
    split <;> first | contradiction | rfl
  | some n =>
    rw [node, Option.map_some, eq_comm, Option.map_eq_some_iff] at body
    obtain ⟨pair, here, is⟩ := body
    obtain ⟨l, link⟩ : ∃ l, (c.disturb k ds).links[i]? = some l := by
      refine ⟨_, List.getElem?_eq_getElem ?_⟩
      have within := (List.getElem?_eq_some_iff.mp node).1
      simp only [Chain.links, List.length_cons, List.length_map]
      omega
    rw [show (c.disturb k ds).entry :: (c.disturb k ds).nodes.map ChainNode.out =
      (c.disturb k ds).links from rfl, link, here, Option.map_some, is,
      ← (idle.link_disturb k ds link).1]

/-- The last link of an idle chain is disturbed if it is the one that is. -/
theorem exit_disturb :
  (c.disturb k ds).exit.disturbances = if k = c.nodes.length then ds else []
  := by
  have count : (c.disturb k ds).nodes.length = c.nodes.length := by
    simpa [pairs] using congrArg List.length (idle.bodies_disturb k ds)
  have last : (c.disturb k ds).links[c.nodes.length]? = some (c.disturb k ds).exit := by
    have length : (c.disturb k ds).links.length - 1 = c.nodes.length := by
      simp [Chain.links, count]
    rw [← length, ← List.getLast?_eq_getElem?]
    apply List.getLast?_eq_some_getLast
  rw [(idle.link_disturb k ds last).1]
  simp only [eq_comm]

/-- What an idle chain with a disturbed link was before anything was sent. -/
theorem origin_disturb :
  (c.disturb k ds).origin =
    ⟨c.table, struck k ds c.pairs, if k = c.nodes.length then ds else []⟩
  := by
  have table : (c.disturb k ds).table = c.table := by cases k <;> rfl
  rw [origin, table, idle.stages_disturb, idle.exit_disturb]

end Idle

end Chain

/-! ### Loads from link to link -/

/-- The loads on the links of a chain with the given number of nodes. -/
structure Journey (count : Nat) where
  load : Nat → Load
  sound : ∀ i < count, (load i).Sound
  load_succ : ∀ i < count, load (i + 1) = (load i).passed

namespace Journey

/-- The module of each node stays as it is or takes the value of the node's own frame. -/
def Served {count : Nat} (j : Journey count) (table : Table M) (nodes : List (Engine × M))
    (modules : List M) : Prop :=
  ∀ i n m, nodes[i]? = some n → modules[i]? = some m → (j.load i).Serves table n.1 n.2 m

/-- A property of the streams on the links holds of the first one, is handed on from node to
node, and keeps the modules right. -/
structure Handed {count : Nat} (j : Journey count) (table : Table M) (k : Nat)
    (ds : List Disturbance) (nodes : List (Engine × M)) (P : Nat → List UInt8 → Prop) : Prop where
  step : ∀ i n stream, nodes[i]? = some n → P i stream →
    P (i + 1) ((Body.listener n.1 n.2).digest table
      (Disturbance.pass (if i = k then ds else []) stream).1).2
  serves : ∀ i n stream bytes, nodes[i]? = some n → P i stream →
    bytes <+: (Disturbance.pass (if i = k then ds else []) stream).1 →
    (j.load i).Serves table n.1 n.2 ((Body.listener n.1 n.2).digest table bytes).1.module

variable {nodes : List (Engine × M)} {j : Journey nodes.length} {k : Nat} {ds : List Disturbance}
variable {P : Nat → List UInt8 → Prop}

/-- What is handed on holds of what is sent over each link. -/
theorem Handed.course (handed : j.Handed table k ds nodes P) {stream : List UInt8}
    (first : P 0 stream) {i : Nat} (within : i ≤ nodes.length) :
  P i (DaisyChain.course table ((struck k ds nodes).take i) stream).2
  := by
  apply course_of_step first _ (by simpa [struck] using within)
  intro i s stream here held
  simp only [struck, List.getElem?_mapIdx, Option.map_eq_some_iff] at here
  obtain ⟨n, at_i, rfl⟩ := here
  apply handed.step i n stream at_i held

/-- What is handed on holds of what comes back from the last node. -/
theorem Handed.final (handed : j.Handed table k ds nodes P) {stream : List UInt8}
    (first : P 0 stream) :
  P nodes.length (DaisyChain.course table (struck k ds nodes) stream).2
  := by
  have all := handed.course first (Nat.le_refl _)
  rw [List.take_of_length_le (by simp [struck])] at all
  apply all

/-- The modules of nodes that are underway with a stream are right. -/
theorem Handed.served (handed : j.Handed table k ds nodes P) {c : Chain M} {o : Chain.Origin M}
    {stream gone : List UInt8} (underway : c.Underway o stream gone) (works : o.table = table)
    (stages : o.stages = struck k ds nodes) (first : P 0 stream) :
  j.Served table nodes c.modules
  := by
  intro i n m at_i is
  rw [Chain.modules, List.getElem?_map, Option.map_eq_some_iff] at is
  obtain ⟨node, here, rfl⟩ := is
  have stage : o.stages[i]? = some ⟨if i = k then ds else [], Body.listener n.1 n.2⟩ := by
    rw [stages, struck, List.getElem?_mapIdx, at_i]
    rfl
  obtain ⟨read, begins, module⟩ := underway.path.exists_module stage here
  have within : i ≤ nodes.length := Nat.le_of_lt (List.getElem?_eq_some_iff.mp at_i).1
  rw [works, stages] at begins
  rw [module, works]
  apply handed.serves i n _ read at_i (handed.course first within) begins

/-! ### What comes behind a load -/

/-- What may come behind the load on each link: nothing, or something tame that a node between
transactions hands on. -/
structure Endings (M : Type) (ends : Nat → List UInt8 → Prop) : Prop where
  nothing : ∀ i, ends i []
  tamed : ∀ i tail, ends i tail → Tamed i tail
  hands : ∀ (table : Table M) (i : Nat) (b : Body M), i + 1 < countModulus → b.Between →
    ∀ tail, ends i tail → ends (i + 1) (b.digest table tail).2

/-- Nothing at all is a beginning of a tame stream. -/
theorem tamed_nil (bound : Nat) :
  Tamed bound []
  := tamed_zeros bound 0

/-- A node between transactions makes nothing of nothing. -/
theorem digest_nil_of_between {b : Body M} (between : b.Between) :
  (b.digest table []).2 = []
  := by
  obtain ⟨e, m, rfl | rfl⟩ := between
  · rfl
  · rw [Body.digest_recovering]
    rfl

/-- Anything tame may come behind the loads. -/
theorem endings_tamed :
  Endings M Tamed
  := ⟨tamed_nil, fun _ _ tamed => tamed,
    fun _ _ _ few between _ tamed => tamed.digest few between⟩

/-- Nothing may come behind the loads. -/
theorem endings_nothing :
  Endings M fun _ tail => tail = []
  := by
  refine ⟨fun _ => rfl, ?_, ?_⟩
  · rintro i _ rfl
    apply tamed_nil
  · rintro table i b - between _ rfl
    apply digest_nil_of_between between

/-- Something tame of no more than a single byte may come behind the loads. -/
theorem endings_single :
  Endings M fun i tail => Tamed i tail ∧ tail.length ≤ 1
  := by
  refine ⟨fun i => ⟨tamed_nil i, Nat.zero_le _⟩, fun _ _ ended => ended.1, ?_⟩
  intro table i b few between tail ended
  exact ⟨ended.1.digest few between, between.length_digest_le ended.2⟩

variable {ends : Nat → List UInt8 → Prop}

/-- A load that begins is handed on by a node over an undisturbed link. -/
theorem begun_handed (endings : Endings M ends) (few : nodes.length < countModulus) {i : Nat}
    (within : i < nodes.length) {stream : List UInt8} (begun : (j.load i).Begun (ends i) stream)
    (table : Table M) (e : Engine) (m : M) :
  (j.load (i + 1)).Begun (ends (i + 1)) ((Body.listener e m).digest table stream).2
  := by
  rw [j.load_succ i within]
  exact begun.digest (j.sound i within) (endings.nothing _)
    (fun b between => endings.hands table i b (by omega) between) e m

/-- A node over an undisturbed link takes nothing but its own frame of a load that begins. -/
theorem begun_serves (endings : Endings M ends) (few : nodes.length < countModulus) {i : Nat}
    (within : i < nodes.length) {stream : List UInt8} (begun : (j.load i).Begun (ends i) stream)
    (table : Table M) (e : Engine) (m : M) :
  (j.load i).Serves table e m ((Body.listener e m).digest table stream).1.module
  := begun.serves (j.sound i within) (by omega) (endings.tamed i) e m

/-! ### Streams that break -/

/-- A load is on its way as it was sent up to the given link; behind that it is broken, or a
write with nothing but what is tame behind it. -/
def Breaking (load : Nat → Load) (k : Nat) (ends : Nat → List UInt8 → Prop) (i : Nat)
    (stream : List UInt8) : Prop :=
  if i ≤ k then (load i).Begun (ends i) stream
  else (load i).Broken stream ∨
    (load i).header.action = .write ∧ (load i).Begun (Tamed i) stream

/-- What is sent to the first node of a chain has not met the disturbed link yet. -/
theorem breaking_zero {load : Nat → Load} {k : Nat} {ends : Nat → List UInt8 → Prop}
    {stream : List UInt8} (begun : (load 0).Begun (ends 0) stream) :
  Breaking load k ends 0 stream
  := by
  rw [Breaking, if_pos (Nat.zero_le k)]
  apply begun

/-- What breaks on the given link is handed on. -/
theorem handed_of_broken (few : nodes.length < countModulus) (endings : Endings M ends)
    (hit : k < nodes.length → ∀ stream, (j.load k).Begun (ends k) stream →
      (j.load k).Broken (Disturbance.pass ds stream).1) :
  j.Handed table k ds nodes (Breaking j.load k ends)
  := by
  -- A load that is broken stays so, or has lost all that is not meant for the nodes to come.
  have breaks {i : Nat} (within : i < nodes.length) {stream : List UInt8}
      (broken : (j.load i).Broken stream) (e : Engine) (m : M) :
      (j.load (i + 1)).Broken ((Body.listener e m).digest table stream).2 ∨
        (j.load (i + 1)).header.action = .write ∧ (j.load (i + 1)).Begun (Tamed (i + 1))
          ((Body.listener e m).digest table stream).2 := by
    rw [j.load_succ i within]
    refine (broken.digest (j.sound i within) e m).imp_right fun rest => ⟨?_, ?_⟩
    · rw [Load.passed, action_forward, rest.1]
    · apply rest.2.mono
      rintro tail ⟨n, rfl⟩
      apply tamed_zeros
  constructor
  · intro i n stream here held
    have within := (List.getElem?_eq_some_iff.mp here).1
    rcases Nat.lt_trichotomy i k with before | rfl | behind
    · rw [Breaking, if_pos (Nat.le_of_lt before)] at held
      rw [if_neg (Nat.ne_of_lt before), Disturbance.pass_nil, Breaking,
        if_pos (Nat.succ_le_of_lt before)]
      apply begun_handed endings few within held
    · rw [Breaking, if_pos (Nat.le_refl _)] at held
      rw [if_pos rfl, Breaking, if_neg (Nat.not_succ_le_self _)]
      apply breaks within (hit within stream held)
    · rw [Breaking, if_neg (Nat.not_le_of_lt behind)] at held
      rw [if_neg (Nat.ne_of_gt behind), Disturbance.pass_nil, Breaking, if_neg (by omega)]
      rcases held with broken | ⟨isWrite, begun⟩
      · apply breaks within broken
      · right
        refine ⟨?_, begun_handed endings_tamed few within begun table n.1 n.2⟩
        rw [j.load_succ i within, Load.passed, action_forward, isWrite]
  · intro i n stream bytes here held begins
    have within := (List.getElem?_eq_some_iff.mp here).1
    rcases Nat.lt_trichotomy i k with before | rfl | behind
    · rw [Breaking, if_pos (Nat.le_of_lt before)] at held
      rw [if_neg (Nat.ne_of_lt before), Disturbance.pass_nil] at begins
      apply begun_serves endings few within (held.of_begins begins)
    · rw [Breaking, if_pos (Nat.le_refl _)] at held
      rw [if_pos rfl] at begins
      left
      apply ((hit within stream held).of_begins begins).module_eq (j.sound i within)
    · rw [Breaking, if_neg (Nat.not_le_of_lt behind)] at held
      rw [if_neg (Nat.ne_of_gt behind), Disturbance.pass_nil] at begins
      rcases held with broken | ⟨-, begun⟩
      · left
        apply (broken.of_begins begins).module_eq (j.sound i within)
      · apply begun_serves endings_tamed few within (begun.of_begins begins)

/-! ### Frames that have lost their end -/

/-- A load is on its way as it was sent, up to the given link with no more than a single byte behind
it, and beyond with nothing. -/
def Unending (load : Nat → Load) (k i : Nat) (stream : List UInt8) : Prop :=
  if i ≤ k then (load i).Begun (fun tail => Tamed i tail ∧ tail.length ≤ 1) stream
  else (load i).Begun (fun tail => tail = []) stream

/-- What is sent to the first node of a chain still has its end. -/
theorem unending_zero {load : Nat → Load} {k : Nat} {stream : List UInt8}
    (begun : (load 0).Begun (fun tail => Tamed 0 tail ∧ tail.length ≤ 1) stream) :
  Unending load k 0 stream
  := by
  rw [Unending, if_pos (Nat.zero_le k)]
  apply begun

/-- What has lost its end on the given link, in the frame that is the last one there, is handed
on. -/
theorem handed_of_unended (few : nodes.length < countModulus) (within : k < nodes.length)
    (isWrite : (j.load k).header.action = .write) (complete : (j.load k).Complete)
    {front : List (List UInt8)} {own body : List UInt8}
    (split : (j.load k).frames = front ++ [own]) (clean : 0 ∉ body) (fits : body.length ≤ frameMax)
    (hit : ∀ stream, (j.load k).Begun (fun tail => Tamed k tail ∧ tail.length ≤ 1) stream →
      ∃ tail, tail.length ≤ 1 ∧ (Disturbance.pass ds stream).1 <+:
        (j.load k).header.toList ++ (front.flatten ++ (body ++ tail)))
    (fine : ∀ value, Frame.decode (body ++ [0]) = .ok (.data value) → ∀ e m,
      (j.load k).Serves table e m
        (Body.receive table e m (.ofHeader (j.load k).header) (some value)).module) :
  j.Handed table k ds nodes (Unending j.load k)
  := by
  have sound := j.sound k within
  constructor
  · intro i n stream here held
    have among := (List.getElem?_eq_some_iff.mp here).1
    rcases Nat.lt_trichotomy i k with before | rfl | behind
    · rw [Unending, if_pos (Nat.le_of_lt before)] at held
      rw [if_neg (Nat.ne_of_lt before), Disturbance.pass_nil, Unending,
        if_pos (Nat.succ_le_of_lt before)]
      apply begun_handed endings_single few among held
    · rw [Unending, if_pos (Nat.le_refl _)] at held
      obtain ⟨tail, short, begins⟩ := hit stream held
      have passed := (sound.digest_unended table isWrite complete split clean fits short
        begins n.1 n.2).1
      rw [if_pos rfl, Unending, if_neg (Nat.not_succ_le_self _), j.load_succ i within]
      exact ⟨[], rfl, .inl rfl, by rw [List.append_nil]; exact passed⟩
    · rw [Unending, if_neg (Nat.not_le_of_lt behind)] at held
      rw [if_neg (Nat.ne_of_gt behind), Disturbance.pass_nil, Unending, if_neg (by omega)]
      apply begun_handed endings_nothing few among held
  · intro i n stream bytes here held begins
    have among := (List.getElem?_eq_some_iff.mp here).1
    rcases Nat.lt_trichotomy i k with before | rfl | behind
    · rw [Unending, if_pos (Nat.le_of_lt before)] at held
      rw [if_neg (Nat.ne_of_lt before), Disturbance.pass_nil] at begins
      apply begun_serves endings_single few among (held.of_begins begins)
    · rw [Unending, if_pos (Nat.le_refl _)] at held
      obtain ⟨tail, short, all⟩ := hit stream held
      rw [if_pos rfl] at begins
      have module := (sound.digest_unended table isWrite complete split clean fits short
        (begins.trans all) n.1 n.2).2
      rcases module with same | ⟨value, reads, is⟩
      · exact .inl same
      · rw [is]
        apply fine value reads
    · rw [Unending, if_neg (Nat.not_le_of_lt behind)] at held
      rw [if_neg (Nat.ne_of_gt behind), Disturbance.pass_nil] at begins
      apply begun_serves endings_nothing few among (held.of_begins begins)

end Journey

end DaisyChain
