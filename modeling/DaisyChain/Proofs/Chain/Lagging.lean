import DaisyChain.Proofs.Chain.Spoilt
import DaisyChain.Proofs.Chain.Waking
import DaisyChain.Proofs.Node.Current

/-!
# Nodes that recover through a pause

As long as no time passes, the engines of a chain stay current (`Chain.Current`), and nodes that have
just begun to recover stay as they are (`Chain.Lags`).  They stay so when time passes, too, provided
that no more than a frame is still on its way: then they have room to answer all that comes to them,
and no byte is left that would put their recovery off.

So if the gateway pauses for the time that a recovery takes, all nodes listen afterwards, those that
recovered included, and what is on its way comes back (`Chain.Yields.advance`).
-/

namespace DaisyChain

open Node

variable {M : Type} {table : Table M} {now start : UInt32}

/-! ### Rounds -/

namespace ChainNode

/-- A round keeps engines current. -/
theorem current_tickAll {input : Link} {nodes : List (ChainNode M)}
    (current : ∀ e ∈ nodes.map engine, e.Current now) :
  ∀ e ∈ (tickAll table now input nodes).2.map engine, e.Current now
  := by
  induction nodes generalizing input with
  | nil => simp [tickAll]
  | cons node rest ih =>
    rw [List.map_cons, List.forall_mem_cons] at current
    rw [tickAll, List.map_cons, List.forall_mem_cons]
    refine ⟨?_, ih current.2⟩
    apply Station.current_tick (s := node.station input) current.1

/-- Behind a node that recovers, a zero is on its way for every byte that comes to it. -/
theorem prospect_recovering (table : Table M) {node : ChainNode M}
    (recovering : node.engine.phase = .recovering) (rest : List (ChainNode M))
    (bytes : List UInt8) :
  (prospect table bytes (node :: rest)).2 =
    (prospect table (node.out.queue ++ List.replicate bytes.length 0) rest).2
  := by
  have body : node.body = Body.during node.body.engine node.body.module .recovering := by
    obtain ⟨⟨phase, since, staged, record⟩, m, out, stalled⟩ := node
    cases recovering
    rfl
  rw [prospect, body, Body.digest_recovering]

/-- Nodes that recover pass on as many bytes as come to them, or more. -/
theorem length_le_prospect (table : Table M) {nodes : List (ChainNode M)}
    (recovering : ∀ e ∈ nodes.map engine, e.phase = .recovering) (bytes : List UInt8) :
  bytes.length ≤ (prospect table bytes nodes).2.length
  := by
  induction nodes generalizing bytes with
  | nil => apply Nat.le_refl
  | cons node rest ih =>
    rw [List.map_cons, List.forall_mem_cons] at recovering
    have others := ih recovering.2 (node.out.queue ++ List.replicate bytes.length 0)
    rw [List.length_append, List.length_replicate] at others
    rw [prospect_recovering table recovering.1]
    apply Nat.le_trans (Nat.le_add_left _ _) others

/-- No more leaves nodes than leaves them if more bytes come. -/
theorem length_prospect_le (table : Table M) (nodes : List (ChainNode M)) (xs ys : List UInt8) :
  (prospect table xs nodes).2.length ≤ (prospect table (xs ++ ys) nodes).2.length
  := by
  rw [prospect_append, List.length_append]
  apply Nat.le_add_right

/-- Behind a node that has had its tick, no more is on its way than before. -/
theorem length_prospect_behind {input : Link} {node : ChainNode M} (sound : node.Sound now)
    (rest : List (ChainNode M)) :
  (prospect table (node.tick table now input).2.out.queue rest).2.length ≤
    (prospect table input.queue (node :: rest)).2.length
  := by
  have step := Station.steady_tick table (node.station input) sound.fresh sound.link.quiet
    (by simp [station, sound.going])
  have bytes := congrArg Prod.snd step.outlook_eq
  simp only [outlook, station] at bytes
  simp only [prospect, body, ← bytes]
  apply length_prospect_le

/-- A round keeps nodes recovering: at the time when they began, and later if no more than a frame
is on its way. -/
theorem since_tickAll {input : Link} {nodes : List (ChainNode M)} {k : Nat}
    (early : (now - start).toNat < recoveryDelay)
    (rests : start = now ∨ (∀ node ∈ nodes, node.Sound now) ∧
      (prospect table input.queue nodes).2.length ≤ frameMax)
    (since : ∀ e ∈ (nodes.map engine).drop k, e.Since start) :
  ∀ e ∈ ((tickAll table now input nodes).2.map engine).drop k, e.Since start
  := by
  induction nodes generalizing input k with
  | nil => simp [tickAll]
  | cons node rest ih =>
    have behind : start = now ∨ (∀ other ∈ rest, other.Sound now) ∧
        (prospect table (node.tick table now input).2.out.queue rest).2.length ≤ frameMax := by
      refine rests.imp_right fun moves => ⟨?_, ?_⟩
      · exact fun other member => moves.1 other (List.mem_cons_of_mem _ member)
      · exact Nat.le_trans (length_prospect_behind (moves.1 node List.mem_cons_self) rest) moves.2
    cases k with
    | succ k => apply ih behind since
    | zero =>
      rw [List.drop_zero, List.map_cons, List.forall_mem_cons] at since
      rw [List.drop_zero, tickAll, List.map_cons, List.forall_mem_cons]
      refine ⟨?_, ih (k := 0) behind since.2⟩
      obtain ⟨recovering, began⟩ := since.1
      apply Station.since_tick (s := node.station input) since.1 _ rfl
      · refine rests.imp_right fun moves => ?_
        obtain ⟨sound, short⟩ := moves
        have roomy := (sound node List.mem_cons_self).link.roomy
        have all := length_le_prospect table (fun e member => (since.2 e member).1)
          (node.out.queue ++ List.replicate input.queue.length 0)
        rw [List.length_append, List.length_replicate] at all
        rw [prospect_recovering table recovering] at short
        change input.queue.length ≤ node.out.capacity - node.out.queue.length
        omega
      · change node.engine.elapsed now < recoveryDelay
        rw [Engine.elapsed, began]
        apply early

end ChainNode

/-! ### Chains -/

namespace Chain

variable {c : Chain M} {k : Nat}

/-- The engines of the nodes. -/
def engines (c : Chain M) : List Engine :=
  c.nodes.map ChainNode.engine

/-- Every engine waits for a header, or has made progress just now. -/
def Current (c : Chain M) : Prop :=
  ∀ e ∈ c.engines, e.Current c.now

/-- The nodes from the given one on recover since the given time. -/
def Lags (c : Chain M) (k : Nat) (start : UInt32) : Prop :=
  ∀ e ∈ c.engines.drop k, e.Since start

/-- Changing a link changes neither an engine nor the time. -/
theorem engines_modifyLink (c : Chain M) (i : Nat) (f : Link → Link) :
  (c.modifyLink i f).engines = c.engines ∧ (c.modifyLink i f).now = c.now
  := by
  refine ⟨c.map_modifyLink i f fun _ _ => rfl, ?_⟩
  cases i <;> rfl

/-- Engines stay current while a chain settles. -/
theorem Current.settle (current : c.Current) :
  c.settle.Current
  := c.settle_preserves Current (fun _ => ChainNode.current_tickAll) current

/-- Nodes that have just begun to recover do so while a chain settles. -/
theorem Lags.settle (lags : c.Lags k c.now) :
  c.settle.Lags k c.settle.now
  := by
  have kept : c.settle.Lags k c.now ∧ c.settle.now = c.now := by
    apply c.settle_preserves (fun d => d.Lags k c.now ∧ d.now = c.now) _ ⟨lags, rfl⟩
    rintro d ⟨lags, same⟩
    refine ⟨ChainNode.since_tickAll ?_ (.inl same.symm) lags, same⟩
    rw [same, UInt32.sub_self]
    decide
  rw [now_settle]
  apply kept.1

/-- Changing a link keeps engines current. -/
theorem Current.modifyLink (current : c.Current) (i : Nat) (f : Link → Link) :
  (c.modifyLink i f).Current
  := by
  obtain ⟨engines, same⟩ := c.engines_modifyLink i f
  rw [Current, engines, same]
  apply current

/-- Changing a link does not put off the recovery of nodes that have just begun. -/
theorem Lags.modifyLink (lags : c.Lags k c.now) (i : Nat) (f : Link → Link) :
  (c.modifyLink i f).Lags k (c.modifyLink i f).now
  := by
  obtain ⟨engines, same⟩ := c.engines_modifyLink i f
  rw [Lags, engines, same]
  apply lags

/-- Nodes of a current chain that recover have just begun. -/
theorem Current.lags (current : c.Current)
    (recovering : ∀ e ∈ c.engines.drop k, e.phase = .recovering) :
  c.Lags k c.now
  := by
  intro e member
  refine ⟨recovering e member, (current e (List.mem_of_mem_drop member)).resolve_left ?_⟩
  rw [recovering e member]
  exact fun same => by cases same

variable {bodies : List (Body M)} {out : List UInt8}

/-- In the first millisecond of a pause everything arrives, if no more than a frame is on its way,
and no recovery is put off. -/
theorem Yields.advance_one (yields : c.Yields table bodies out) (short : out.length ≤ frameMax)
    (current : c.Current) (lags : c.Lags k c.now) :
  (c.advance 1).Yields table bodies out ∧ (c.advance 1).AtRest ∧ (c.advance 1).exit.queue = out ∧
    (c.advance 1).Lags k c.now ∧ ((c.advance 1).now - c.now).toNat = 1
  := by
  let next : Chain M := { c with now := c.now + 1 }
  have one : (next.now - c.now).toNat = 1 := by
    change (c.now + 1 - c.now).toNat = 1
    rw [UInt32.add_comm, UInt32.add_sub_cancel]
    rfl
  have later : next.Yields table bodies out := by
    refine ⟨⟨yields.sound.entry, fun node member => ?_⟩, yields.table_eq, yields.outlook_eq,
      yields.rest⟩
    have own := yields.sound.nodes node member
    exact ⟨(current _ (List.mem_map_of_mem member)).fresh_next, own.link, own.going⟩
  obtain ⟨exit, rest⟩ : next.settle.exit.queue = out ∧ next.settle.AtRest := by
    apply later.exit_settle.resolve_right
    rintro ⟨⟨more, split⟩, full⟩
    rw [split, List.length_append] at short
    omega
  have kept : next.settle.Lags k c.now ∧ next.settle.now = next.now ∧ next.settle.Sound ∧
      next.settle.outlook = (bodies, out) := by
    apply next.settle_preserves (fun d => d.Lags k c.now ∧ d.now = next.now ∧ d.Sound ∧
      d.outlook = (bodies, out)) _ ⟨lags, rfl, later.sound, later.outlook_eq⟩
    rintro d ⟨lags, same, sound, outlook⟩
    refine ⟨ChainNode.since_tickAll ?_ (.inr ⟨sound.nodes, ?_⟩) lags, same, sound.round,
      (outlook_round sound).trans outlook⟩
    · rw [same, one]
      decide
    · rw [show (prospect d.table d.entry.queue d.nodes).2 = out from congrArg Prod.snd outlook]
      apply short
  refine ⟨later.settle, rest, exit, kept.1, ?_⟩
  rw [show (c.advance 1).now = next.now from kept.2.1, one]

/-- If the gateway pauses for the time that a recovery takes, with no more than a frame on its way,
all nodes listen afterwards, and what was on its way comes back. -/
theorem Yields.advance (yields : c.Yields table bodies out) (short : out.length ≤ frameMax)
    (current : c.Current) (lags : c.Lags k c.now)
    (listening : ∀ b ∈ bodies.take k, b.engine.phase = .listening .nothing)
    {ms : Nat} (long : recoveryDelay ≤ ms) :
  (c.advance ms).Yields table (listeners (bodies.map fun b => (b.engine, b.module))) out
  := by
  obtain ⟨ms, rfl⟩ : ∃ rest, ms = rest + 1 := Nat.exists_eq_succ_of_ne_zero (by
    rintro rfl
    contradiction)
  obtain ⟨later, rest, exit, lags', one⟩ := yields.advance_one short current lags
  rw [show c.advance (ms + 1) = (c.advance 1).advance ms from rfl]
  generalize c.advance 1 = c' at later rest exit lags' one ⊢
  obtain rfl : c'.nodes.map ChainNode.body = bodies := by
    have outlook := later.outlook_eq
    rw [rest.outlook_eq] at outlook
    apply congrArg Prod.fst outlook
  -- A node either listens or recovers since the pause has begun.
  have phases : ∀ node ∈ c'.nodes,
      node.engine.phase = .listening .nothing ∨ node.engine.Since c.now := by
    intro node member
    rw [← List.take_append_drop k c'.nodes, List.mem_append] at member
    refine member.imp (fun front => ?_) (fun back => ?_)
    · apply listening node.body
      rw [← List.map_take]
      apply List.mem_map_of_mem front
    · apply lags'
      rw [engines, ← List.map_drop]
      apply List.mem_map_of_mem back
  have drowsy : c'.Drowsy := by
    refine ⟨later.sound.links, fun node member => (later.sound.nodes node member).going,
      fun node member => (phases node member).imp_right And.left, rest⟩
  have due : ∀ node ∈ c'.nodes, node.engine.phase = .recovering →
      node.engine.elapsed c'.now < recoveryDelay ∧
        recoveryDelay ≤ node.engine.elapsed c'.now + ms := by
    intro node member recovering
    have since := (phases node member).resolve_left (by
      rw [recovering]
      exact fun same => by cases same)
    rw [Engine.elapsed, since.2, one]
    exact ⟨by decide, by omega⟩
  have listens := drowsy.advance due
  rw [exit, later.table_eq] at listens
  rw [List.map_map]
  apply listens

end Chain

end DaisyChain
