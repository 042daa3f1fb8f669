import DaisyChain.Chain.Settling
import DaisyChain.Proofs.Node.Outlook

/-!
# What a chain makes of a stream

`flow` is what nodes in a row make of a stream, if each of them makes of its input all that
it will ever make.  The prospect of nodes with their links is what the nodes will be, and
what will have come back to the gateway, once everything on the way has arrived.

A round does not change the prospect of a chain (`prospect_tickAll`), as long as the chain is
sound: no node has run out of time, no link is disturbed, and every link has room for a
frame.
-/

namespace DaisyChain

open Node

variable {M : Type}

/-! ### Streams through nodes -/

/-- The given nodes after a stream has come to the first of them, and the bytes that leave the
last one. -/
def flow (table : Table M) : List (Body M) → List UInt8 → List (Body M) × List UInt8
  | [], bytes => ([], bytes)
  | b :: rest, bytes =>
    let (b', out) := b.digest table bytes
    let (rest', final) := flow table rest out
    (b' :: rest', final)

/-- A stream may come in two parts. -/
theorem flow_append (table : Table M) (bodies : List (Body M)) (xs ys : List UInt8) :
  flow table bodies (xs ++ ys) =
    ((flow table (flow table bodies xs).1 ys).1,
      (flow table bodies xs).2 ++ (flow table (flow table bodies xs).1 ys).2)
  := by
  induction bodies generalizing xs ys with
  | nil => rfl
  | cons b rest ih => simp only [flow, Body.digest_append, ih]

/-- A stream through nodes in two groups. -/
theorem flow_append_nodes (table : Table M) (front back : List (Body M)) (bytes : List UInt8) :
  flow table (front ++ back) bytes =
    ((flow table front bytes).1 ++ (flow table back (flow table front bytes).2).1,
      (flow table back (flow table front bytes).2).2)
  := by
  induction front generalizing bytes with
  | nil => rfl
  | cons b rest ih => simp only [List.cons_append, flow, ih]

/-! ### Prospects -/

/-- A node of a chain without its link and its clock. -/
def ChainNode.body (node : ChainNode M) : Body M :=
  ⟨node.engine.timeless, node.module⟩

/-- What the nodes will be, and what will have left the last one, after the given bytes and
all that is on the way between them. -/
def prospect (table : Table M) (bytes : List UInt8) :
    List (ChainNode M) → List (Body M) × List UInt8
  | [] => ([], bytes)
  | node :: rest =>
    let (b, out) := node.body.digest table bytes
    let (bodies, final) := prospect table (node.out.queue ++ out) rest
    (b :: bodies, final)

/-- Bytes that come later flow through the nodes as these will be by then. -/
theorem prospect_append (table : Table M) (xs ys : List UInt8) (nodes : List (ChainNode M)) :
  prospect table (xs ++ ys) nodes =
    ((flow table (prospect table xs nodes).1 ys).1,
      (prospect table xs nodes).2 ++ (flow table (prospect table xs nodes).1 ys).2)
  := by
  induction nodes generalizing xs ys with
  | nil => rfl
  | cons node rest ih => simp only [prospect, flow, Body.digest_append, ← List.append_assoc, ih]

/-! ### Sound chains -/

/-- A link that changes no byte and has room for a frame and one byte more. -/
structure Link.Sound (l : Link) : Prop where
  quiet : l.disturbances = []
  roomy : frameMax < l.capacity

/-- A sound link with no more than a frame on it has room left. -/
theorem Link.Sound.room_ne_zero {l : Link} (sound : l.Sound)
    (short : l.queue.length ≤ frameMax) :
  l.room ≠ 0
  := by
  have roomy := sound.roomy
  rw [Link.room]
  omega

/-- A node in time whose bytes leave it, with a sound link. -/
structure ChainNode.Sound (now : UInt32) (node : ChainNode M) : Prop where
  fresh : node.engine.Fresh now
  link : node.out.Sound
  going : node.stalled = false

/-- A node in time whose bytes leave it, with a link that has room for a frame and one byte more,
but may be disturbed. -/
structure ChainNode.Working (now : UInt32) (node : ChainNode M) : Prop where
  fresh : node.engine.Fresh now
  roomy : frameMax < node.out.capacity
  going : node.stalled = false

/-- A sound node works. -/
theorem ChainNode.Sound.working {now : UInt32} {node : ChainNode M} (sound : node.Sound now) :
  node.Working now
  := ⟨sound.fresh, sound.link.roomy, sound.going⟩

/-- A link whose bytes are read stays sound. -/
theorem Link.Sound.of_eq {l l' : Link} (sound : l.Sound) (quiet : l'.disturbances = [])
    (capacity : l'.capacity = l.capacity) :
  l'.Sound
  := ⟨quiet, by rw [capacity]; exact sound.roomy⟩

namespace ChainNode

variable {table : Table M} {now : UInt32}

/-- A tick keeps a sound node sound. -/
theorem Sound.tick (table : Table M) {node : ChainNode M} (sound : node.Sound now) (input : Link) :
  (node.tick table now input).2.Sound now
  := by
  have step := Station.steady_tick table (node.station input) sound.fresh
    sound.link.quiet (by simp [station, sound.going])
  refine ⟨step.fresh, ?_, sound.going⟩
  apply sound.link.of_eq step.quiet step.capacity_eq

/-- A round keeps sound nodes sound, and reads from the link that leads to them. -/
theorem sound_tickAll (input : Link) {nodes : List (ChainNode M)}
    (sound : ∀ node ∈ nodes, node.Sound now) :
  ∀ node ∈ (tickAll table now input nodes).2, node.Sound now
  := by
  induction nodes generalizing input with
  | nil => simp [tickAll]
  | cons node rest ih =>
    have first : (node.tick table now input).2.Sound now :=
      (sound node List.mem_cons_self).tick table input
    have others := ih (node.tick table now input).2.out
      fun other member => sound other (List.mem_cons_of_mem _ member)
    simp only [tickAll, List.mem_cons]
    rintro other (rfl | member)
    · refine ⟨first.fresh, ?_, first.going⟩
      cases rest with
      | nil => apply first.link
      | cons next rest => exact first.link.of_eq first.link.quiet rfl
    · apply others other member

/-- A tick keeps a working node working. -/
theorem Working.tick (table : Table M) {node : ChainNode M} (working : node.Working now)
    (input : Link) :
  (node.tick table now input).2.Working now
  := by
  have step := Station.foreseen_tick table (node.station input) working.fresh
    (by simp [station, working.going])
  obtain ⟨-, bytes, -, sent, -⟩ := step.leads
  have capacity : (node.tick table now input).2.out.capacity = node.out.capacity :=
    (congrArg Link.capacity sent).trans (capacity_pushAll node.out bytes)
  refine ⟨step.fresh, ?_, working.going⟩
  rw [capacity]
  apply working.roomy

/-- A round keeps working nodes working. -/
theorem working_tickAll (input : Link) {nodes : List (ChainNode M)}
    (working : ∀ node ∈ nodes, node.Working now) :
  ∀ node ∈ (tickAll table now input nodes).2, node.Working now
  := by
  induction nodes generalizing input with
  | nil => simp [tickAll]
  | cons node rest ih =>
    have first : (node.tick table now input).2.Working now :=
      (working node List.mem_cons_self).tick table input
    have others := ih (node.tick table now input).2.out
      fun other member => working other (List.mem_cons_of_mem _ member)
    simp only [tickAll, List.mem_cons]
    rintro other (rfl | member)
    · refine ⟨first.fresh, ?_, first.going⟩
      cases rest with
      | nil => apply first.roomy
      | cons next rest => exact first.roomy
    · apply others other member

/-- A round changes nothing of the link that leads to the nodes but the bytes on it. -/
theorem input_tickAll (table : Table M) (now : UInt32) (input : Link) (nodes : List (ChainNode M)) :
  (tickAll table now input nodes).1 =
    { input with queue := (tickAll table now input nodes).1.queue }
  := by
  cases nodes with
  | nil => rfl
  | cons node rest => rfl

/-- A round does not change what the nodes will be and what will have left the last one,
whatever bytes are still to come. -/
theorem prospect_tickAll (table : Table M) (input : Link) {nodes : List (ChainNode M)}
    (sound : ∀ node ∈ nodes, node.Sound now) (more : List UInt8) :
  prospect table ((tickAll table now input nodes).1.queue ++ more)
      (tickAll table now input nodes).2 =
    prospect table (input.queue ++ more) nodes
  := by
  induction nodes generalizing input more with
  | nil => rfl
  | cons node rest ih =>
    have own := sound node List.mem_cons_self
    have step := Station.steady_tick table (node.station input) own.fresh
      own.link.quiet (by simp [station, own.going])
    have same := step.outlook_append more
    simp only [outlook, station, Prod.mk.injEq] at same
    obtain ⟨body, bytes⟩ := same
    have later := ih (node.tick table now input).2.out
      fun other member => sound other (List.mem_cons_of_mem _ member)
    simp only [prospect, tickAll, ChainNode.body]
    simp only [tick, station] at later ⊢
    rw [later, body, bytes]

end ChainNode

end DaisyChain
