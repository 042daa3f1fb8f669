import DaisyChain.Chain.Transport
import DaisyChain.Proofs.Chain.Rest

/-!
# What a chain yields

A chain yields some bytes if these are what will come back to the gateway once everything on
the way has arrived.  `Chain.Yields` also tells what the nodes will be by then; a chain that
yields nothing more is at rest, so its nodes are that already (`Chain.Yields.bodies_eq`).

The calls of the gateway are followed in these terms: bytes sent flow through the nodes
(`yields_inject`), bytes that the chain yields are received at once (`yields_await`), and
dropping what has come back leaves a chain that yields nothing (`yields_clearExit`).
-/

namespace DaisyChain

open Node

variable {M : Type}

namespace Chain

/-! ### Sound chains -/

/-- A chain of sound nodes, reached over a sound link. -/
structure Sound (c : Chain M) : Prop where
  entry : c.entry.Sound
  nodes : ∀ node ∈ c.nodes, node.Sound c.now

/-- A chain of working nodes, with room for a frame and one byte more on the link that leads to
them. -/
structure Working (c : Chain M) : Prop where
  roomy : frameMax < c.entry.capacity
  nodes : ∀ node ∈ c.nodes, node.Working c.now

/-- A sound chain works. -/
theorem Sound.working {c : Chain M} (sound : c.Sound) :
  c.Working
  := ⟨sound.entry.roomy, fun node member => (sound.nodes node member).working⟩

/-- Every link of a sound chain is sound. -/
theorem Sound.links {c : Chain M} (sound : c.Sound) :
  ∀ l ∈ c.links, l.Sound
  := by
  intro l member
  rcases List.mem_cons.mp member with rfl | among
  · apply sound.entry
  · obtain ⟨node, within, rfl⟩ := List.mem_map.mp among
    apply (sound.nodes node within).link

/-- What the nodes will be and what will have come back, once everything on the way has
arrived. -/
def outlook (c : Chain M) : List (Body M) × List UInt8 :=
  prospect c.table c.entry.queue c.nodes

/-- Every node waits, and nothing is on its way to any of them. -/
def AtRest (c : Chain M) : Prop :=
  ChainNode.AtRest c.entry c.nodes

/-- A round keeps a chain sound. -/
theorem Sound.round {c : Chain M} (sound : c.Sound) :
  c.round.Sound
  := by
  have input := ChainNode.input_tickAll c.table c.now c.entry c.nodes
  have quiet := congrArg Link.disturbances input
  have capacity := congrArg Link.capacity input
  constructor
  · apply sound.entry.of_eq (quiet.trans sound.entry.quiet) capacity
  · apply ChainNode.sound_tickAll c.entry sound.nodes

/-- A round keeps a chain working. -/
theorem Working.round {c : Chain M} (working : c.Working) :
  c.round.Working
  := by
  have input := ChainNode.input_tickAll c.table c.now c.entry c.nodes
  have capacity : c.round.entry.capacity = c.entry.capacity :=
    (congrArg Link.capacity input).trans rfl
  refine ⟨?_, ChainNode.working_tickAll c.entry working.nodes⟩
  rw [capacity]
  apply working.roomy

/-- A round does not change the outlook of a sound chain. -/
theorem outlook_round {c : Chain M} (sound : c.Sound) :
  c.round.outlook = c.outlook
  := by
  have same := ChainNode.prospect_tickAll c.table c.entry sound.nodes []
  rw [List.append_nil, List.append_nil] at same
  apply same

/-- A sound chain settles as a sound chain. -/
theorem Sound.settle {c : Chain M} (sound : c.Sound) :
  c.settle.Sound
  := c.settle_preserves Sound (fun _ => Sound.round) sound

/-- A sound chain settles with the outlook it has. -/
theorem outlook_settle {c : Chain M} (sound : c.Sound) :
  c.settle.outlook = c.outlook
  := by
  have kept : c.settle.Sound ∧ c.settle.outlook = c.outlook :=
    c.settle_preserves (fun d => d.Sound ∧ d.outlook = c.outlook)
      (fun d h => ⟨h.1.round, (outlook_round h.1).trans h.2⟩) ⟨sound, rfl⟩
  apply kept.2

/-! ### The last link -/

/-- The link back to the gateway leads away from the last node. -/
theorem exit_eq (c : Chain M) :
  c.exit = ChainNode.exit c.entry c.nodes
  := by
  have last (input : Link) (nodes : List (ChainNode M))
      (h : input :: nodes.map ChainNode.out ≠ []) :
      (input :: nodes.map ChainNode.out).getLast h = ChainNode.exit input nodes := by
    induction nodes generalizing input with
    | nil => rfl
    | cons node rest ih => apply (List.getLast_cons (by simp)).trans (ih node.out (by simp))
  apply last c.entry c.nodes _

/-- The link back to the gateway is sound if the chain is. -/
theorem Sound.exit {c : Chain M} (sound : c.Sound) :
  c.exit.Sound
  := sound.links _ (List.getLast_mem _)

/-- The link back to the gateway has room for a frame and one byte more if the chain works. -/
theorem Working.exit {c : Chain M} (working : c.Working) :
  frameMax < c.exit.capacity
  := by
  have last (input : Link) (nodes : List (ChainNode M)) (first : frameMax < input.capacity)
      (others : ∀ node ∈ nodes, frameMax < node.out.capacity) :
      frameMax < (ChainNode.exit input nodes).capacity := by
    induction nodes generalizing input with
    | nil => apply first
    | cons node rest ih =>
      apply ih
      · apply others node List.mem_cons_self
      · intro other member
        apply others other (List.mem_cons_of_mem _ member)
  rw [exit_eq]
  apply last c.entry c.nodes working.roomy fun node member => (working.nodes node member).roomy

/-- What is on the link back to the gateway comes back first. -/
theorem exists_outlook_eq (c : Chain M) :
  ∃ later, c.outlook.2 = c.exit.queue ++ later
  := by
  have first := ChainNode.exists_prospect_eq c.table c.entry c.nodes []
  rw [List.append_nil] at first
  rw [exit_eq]
  apply first

/-- A chain at rest is what it will be. -/
theorem AtRest.outlook_eq {c : Chain M} (rest : c.AtRest) :
  c.outlook = (c.nodes.map ChainNode.body, c.exit.queue)
  := by
  rw [exit_eq]
  apply ChainNode.prospect_of_atRest rest

/-- A round does nothing to a working chain at rest. -/
theorem AtRest.round_eq {c : Chain M} (rest : c.AtRest) (working : c.Working) :
  c.round = c
  := by
  simp only [round, ChainNode.tickAll_of_atRest working.nodes rest]

/-- A working chain at rest has settled. -/
theorem AtRest.settle_eq {c : Chain M} (rest : c.AtRest) (working : c.Working) :
  c.settle = c
  := by
  rw [settle]
  simp only [rest.round_eq working, if_true]

/-- A working chain settles at rest, if the link back to the gateway has room left. -/
theorem atRest_settle {c : Chain M} (working : c.Working) (room : c.settle.exit.room ≠ 0) :
  c.settle.AtRest
  := by
  rw [settle] at room ⊢
  split
  · next still =>
    have traces : c.round.entry.trace = c.entry.trace ∧
        c.round.nodes.map ChainNode.trace = c.nodes.map ChainNode.trace := by
      simpa only [trace, Prod.mk.injEq] using still
    rw [if_pos still, exit_eq] at room
    have here : c.AtRest := ChainNode.atRest_of_still working.nodes room
      (congrArg Prod.fst traces.1) traces.2
    rw [here.round_eq working]
    apply here
  · next moved =>
    rw [if_neg moved] at room
    have : c.round.potential < c.potential := (c.potential_round).resolve_right moved
    apply atRest_settle working.round room
termination_by c.potential

/-! ### Changing the last link -/

/-- A chain either is a single link or ends with a node. -/
theorem eq_nil_or_concat (c : Chain M) :
  c.nodes = [] ∨ ∃ front last, c.nodes = front ++ [last]
  := by
  rcases List.eq_nil_or_concat c.nodes with none | ⟨front, last, split⟩
  · apply Or.inl none
  · apply Or.inr ⟨front, last, by simpa using split⟩

/-- Changing an element behind others. -/
theorem modify_length_append {α : Type} (front : List α) (x : α) (back : List α) (f : α → α) :
  (front ++ x :: back).modify front.length f = front ++ f x :: back
  := List.modifyTailIdx_add (List.modifyHead f) 0 front (x :: back)

/-- Changing the link of a last node changes nothing else. -/
theorem modifyExit_concat {c : Chain M} {front : List (ChainNode M)} {last : ChainNode M}
    (split : c.nodes = front ++ [last]) (f : Link → Link) :
  c.modifyExit f = { c with nodes := front ++ [{ last with out := f last.out }] }
  := by
  rw [modifyExit, split, List.length_append, List.length_singleton]
  simp only [modifyLink, split, modify_length_append]

/-- Changing the single link of a chain without nodes. -/
theorem modifyExit_nil {c : Chain M} (none : c.nodes = []) (f : Link → Link) :
  c.modifyExit f = { c with entry := f c.entry }
  := by
  simp only [modifyExit, modifyLink, none, List.length_nil]

/-- What nodes in two groups will be. -/
theorem prospect_append_nodes (table : Table M) (bytes : List UInt8)
    (front back : List (ChainNode M)) :
  prospect table bytes (front ++ back) =
    ((prospect table bytes front).1 ++ (prospect table (prospect table bytes front).2 back).1,
      (prospect table (prospect table bytes front).2 back).2)
  := by
  induction front generalizing bytes with
  | nil => rfl
  | cons node rest ih => simp only [List.cons_append, prospect, ih]

/-- The link that leads away from a last node is its own. -/
theorem exit_concat (input : Link) (front : List (ChainNode M)) (last : ChainNode M) :
  ChainNode.exit input (front ++ [last]) = last.out
  := by
  induction front generalizing input with
  | nil => rfl
  | cons node rest ih => apply ih node.out

/-- Whether nodes are at rest does not depend on the last link. -/
theorem atRest_concat (input : Link) (front : List (ChainNode M)) {last last' : ChainNode M}
    (same : last.engine = last'.engine) :
  ChainNode.AtRest input (front ++ [last]) ↔ ChainNode.AtRest input (front ++ [last'])
  := by
  induction front generalizing input with
  | nil => simp only [List.nil_append, ChainNode.AtRest, same]
  | cons node rest ih => simp only [List.cons_append, ChainNode.AtRest, ih]

/-- Changing the link back to the gateway changes that link. -/
theorem exit_modifyExit (c : Chain M) (f : Link → Link) :
  (c.modifyExit f).exit = f c.exit
  := by
  rcases c.eq_nil_or_concat with none | ⟨front, last, split⟩
  · rw [modifyExit_nil none, exit_eq, exit_eq, none]
    rfl
  · rw [modifyExit_concat split, exit_eq, exit_eq, split, exit_concat, exit_concat]

/-- Changing the link back to the gateway does not change the table. -/
theorem table_modifyExit (c : Chain M) (f : Link → Link) :
  (c.modifyExit f).table = c.table
  := by
  unfold modifyExit modifyLink
  split <;> rfl

/-- Changing the link back to the gateway changes no node. -/
theorem bodies_modifyExit (c : Chain M) (f : Link → Link) :
  (c.modifyExit f).nodes.map ChainNode.body = c.nodes.map ChainNode.body
  := by
  rcases c.eq_nil_or_concat with none | ⟨front, last, split⟩
  · rw [modifyExit_nil none]
  · rw [modifyExit_concat split, split, List.map_append, List.map_append]
    rfl

/-- Changing the link back to the gateway does not disturb the rest of the chain. -/
theorem AtRest.modifyExit {c : Chain M} (rest : c.AtRest) (f : Link → Link) :
  (c.modifyExit f).AtRest
  := by
  rcases c.eq_nil_or_concat with none | ⟨front, last, split⟩
  · rw [modifyExit_nil none]
    simp only [AtRest, none, ChainNode.AtRest]
  · rw [modifyExit_concat split]
    rw [AtRest, split] at rest
    apply (atRest_concat c.entry front (by rfl)).mp rest

/-- A chain stays sound if its last link does. -/
theorem Sound.modifyExit {c : Chain M} (sound : c.Sound) {f : Link → Link}
    (keeps : ∀ l : Link, l.Sound → (f l).Sound) :
  (c.modifyExit f).Sound
  := by
  rcases c.eq_nil_or_concat with none | ⟨front, last, split⟩
  · rw [modifyExit_nil none]
    exact ⟨keeps _ sound.entry, sound.nodes⟩
  · rw [modifyExit_concat split]
    refine ⟨sound.entry, ?_⟩
    have nodes := sound.nodes
    rw [split] at nodes
    intro node member
    rcases List.mem_append.mp member with before | final
    · apply nodes node (List.mem_append_left _ before)
    · have own := nodes last (List.mem_append_right _ List.mem_cons_self)
      rw [List.mem_singleton.mp final]
      exact ⟨own.fresh, keeps _ own.link, own.going⟩

/-- Bytes taken from the link back to the gateway are the first that the chain yields. -/
theorem outlook_drop {c : Chain M} {count : Nat} (enough : count ≤ c.exit.queue.length) :
  (c.modifyExit fun l => l.drop count).outlook =
    (c.outlook.1, c.outlook.2.drop count)
  := by
  rcases c.eq_nil_or_concat with none | ⟨front, last, split⟩
  · rw [modifyExit_nil none, outlook, outlook, none]
    rfl
  · rw [modifyExit_concat split, outlook, outlook, split, prospect_append_nodes,
      prospect_append_nodes]
    rw [exit_eq, split, exit_concat] at enough
    simp only [prospect, Link.drop, ChainNode.body,
      List.drop_append_of_le_length enough]

/-! ### Yields -/

/-- The chain works from the given table; once everything on the way has arrived, it will have
yielded the given bytes, and its nodes will be the given ones.  A chain that yields nothing
more is at rest. -/
structure Yields (c : Chain M) (table : Table M) (bodies : List (Body M)) (out : List UInt8) :
    Prop where
  sound : c.Sound
  table_eq : c.table = table
  outlook_eq : c.outlook = (bodies, out)
  rest : out = [] → c.AtRest

variable {c : Chain M} {table : Table M} {bodies : List (Body M)} {out : List UInt8}

/-- The nodes of a chain that yields nothing more are what they will be. -/
theorem Yields.bodies_eq (yields : c.Yields table bodies []) :
  c.nodes.map ChainNode.body = bodies
  := by
  have same := (yields.rest rfl).outlook_eq
  rw [yields.outlook_eq] at same
  apply (congrArg Prod.fst same).symm

/-- A sound chain at rest with nothing on the link back to the gateway yields nothing. -/
theorem yields_of_atRest (sound : c.Sound) (rest : c.AtRest) (silent : c.exit.queue = []) :
  c.Yields c.table (c.nodes.map ChainNode.body) []
  := ⟨sound, rfl, by rw [rest.outlook_eq, silent], fun _ => rest⟩

/-- What a sound chain will be is what it yields once it has settled. -/
theorem yields_settle (sound : c.Sound) (works : c.table = table)
    (outlook : c.outlook = (bodies, out)) :
  c.settle.Yields table bodies out
  := by
  refine ⟨sound.settle, c.table_settle.trans works, (outlook_settle sound).trans outlook, ?_⟩
  rintro rfl
  obtain ⟨later, first⟩ := c.settle.exists_outlook_eq
  rw [outlook_settle sound, outlook] at first
  apply atRest_settle sound.working
  apply sound.settle.exit.room_ne_zero
  rw [(List.append_eq_nil_iff.mp first.symm).1]
  apply Nat.zero_le _

/-- A chain settles with what it yields. -/
theorem Yields.settle (yields : c.Yields table bodies out) :
  c.settle.Yields table bodies out
  := yields_settle yields.sound yields.table_eq yields.outlook_eq

/-- Nothing flows through nodes as they will be when everything has arrived. -/
theorem Yields.flow_nil (yields : c.Yields table bodies out) :
  flow table bodies [] = (bodies, [])
  := by
  have split := prospect_append c.table c.entry.queue [] c.nodes
  have same := yields.outlook_eq
  simp only [outlook] at same
  rw [List.append_nil, same, yields.table_eq, Prod.mk.injEq] at split
  apply Prod.ext
  · apply split.1.symm
  · apply List.append_cancel_left (by rw [← split.2, List.append_nil])

/-- Bytes sent by the gateway flow through the nodes as these will be by then. -/
theorem Yields.inject (yields : c.Yields table bodies out) (bytes : List UInt8) :
  (c.inject 0 bytes).Yields table (flow table bodies bytes).1
    (out ++ (flow table bodies bytes).2)
  := by
  have quiet := yields.sound.entry.quiet
  apply yields_settle
  · refine ⟨?_, yields.sound.nodes⟩
    apply yields.sound.entry.of_eq (disturbances_pushAll quiet bytes)
      (capacity_pushAll c.entry bytes)
  · apply yields.table_eq
  · have before := yields.outlook_eq
    simp only [outlook, yields.table_eq] at before
    simp only [outlook, modifyLink, Link.queue_pushAll quiet, yields.table_eq, prospect_append,
      before]

/-- The link back to the gateway holds all that a settled chain yields, or more than a
frame. -/
theorem Yields.exit_settle (yields : c.Yields table bodies out) :
  c.settle.exit.queue = out ∧ c.settle.AtRest ∨
    (∃ later, out = c.settle.exit.queue ++ later) ∧ frameMax < c.settle.exit.queue.length
  := by
  by_cases room : c.settle.exit.room = 0
  · right
    constructor
    · obtain ⟨later, first⟩ := c.settle.exists_outlook_eq
      rw [outlook_settle yields.sound, yields.outlook_eq] at first
      exact ⟨later, first⟩
    · have roomy := yields.sound.settle.exit.roomy
      rw [Link.room] at room
      omega
  · left
    have rest := atRest_settle yields.sound.working room
    have same := rest.outlook_eq
    rw [outlook_settle yields.sound, yields.outlook_eq] at same
    exact ⟨(congrArg Prod.snd same).symm, rest⟩

/-- A link stays sound when bytes are taken from it. -/
theorem sound_drop (count : Nat) (l : Link) (sound : l.Sound) :
  (l.drop count).Sound
  := ⟨sound.quiet, sound.roomy⟩

/-- The gateway takes the first bytes that a settled chain yields. -/
theorem Yields.take_settle {count : Nat} (yields : c.Yields table bodies out)
    (enough : count ≤ out.length) (short : count ≤ frameMax) :
  (c.settle.take count).1 = out.take count ∧
    (c.settle.take count).2.Yields table bodies (out.drop count)
  := by
  have held : count ≤ c.settle.exit.queue.length := by
    rcases yields.exit_settle with ⟨all, _⟩ | ⟨_, long⟩
    · rw [all]
      apply enough
    · omega
  constructor
  · rcases yields.exit_settle with ⟨all, _⟩ | ⟨⟨later, split⟩, _⟩
    · apply congrArg (List.take count) all
    · rw [split, List.take_append_of_le_length held]
      rfl
  · refine ⟨yields.sound.settle.modifyExit (sound_drop count), ?_, ?_, ?_⟩
    · apply (table_modifyExit _ _).trans yields.settle.table_eq
    · rw [Chain.take, outlook_drop held, yields.settle.outlook_eq]
    · intro none
      have all : out.length ≤ count := List.drop_eq_nil_iff.mp none
      rcases yields.exit_settle with ⟨_, rest⟩ | ⟨⟨later, split⟩, long⟩
      · apply rest.modifyExit _
      · have parts := congrArg List.length split
        rw [List.length_append] at parts
        omega

/-- For bytes that the chain yields the gateway does not wait. -/
theorem Yields.await_eq {count : Nat} (yields : c.Yields table bodies out)
    (enough : count ≤ out.length) (short : count ≤ frameMax) (ms : Nat) :
  c.await count ms = c.settle.take count
  := by
  cases ms with
  | zero => rfl
  | succ ms =>
    have all : (c.settle.take count).1.length = count := by
      rw [(yields.take_settle enough short).1, List.length_take, Nat.min_eq_left enough]
    simp only [Chain.await, all, if_true]

/-- Bytes that the chain yields are received at once. -/
theorem Yields.await {count : Nat} (yields : c.Yields table bodies out)
    (enough : count ≤ out.length) (short : count ≤ frameMax) (ms : Nat) :
  (c.await count ms).1 = out.take count ∧
    (c.await count ms).2.Yields table bodies (out.drop count)
  := by
  rw [yields.await_eq enough short]
  apply yields.take_settle enough short

/-- A chain that yields at most a frame yields nothing more once what has come back is
dropped. -/
theorem Yields.clearExit (yields : c.Yields table bodies out) (short : out.length ≤ frameMax) :
  c.clearExit.Yields table bodies []
  := by
  rcases yields.exit_settle with ⟨all, rest⟩ | ⟨⟨later, split⟩, long⟩
  · have nodes : c.clearExit.AtRest := rest.modifyExit _
    have before := rest.outlook_eq
    rw [yields.settle.outlook_eq, Prod.mk.injEq] at before
    refine ⟨yields.sound.settle.modifyExit fun l sound => ⟨sound.quiet, sound.roomy⟩,
      (table_modifyExit _ _).trans yields.settle.table_eq, ?_, fun _ => nodes⟩
    rw [nodes.outlook_eq, Chain.clearExit, exit_modifyExit, bodies_modifyExit, before.1]
    rfl
  · have parts := congrArg List.length split
    rw [List.length_append] at parts
    omega

end Chain

end DaisyChain
