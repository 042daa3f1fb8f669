import DaisyChain.Proofs.Chain.Flow
import DaisyChain.Proofs.Node.Runs

/-!
# Chains at rest

Nodes are at rest if each of them waits and nothing is on its way to any of them.  A tick
does nothing to a node at rest (`ChainNode.tick_of_rest`), and nodes that a round does not
move are at rest, if the last link has room left (`ChainNode.atRest_of_still`).  Hence a sound
chain settles at rest (`Chain.atRest_settle`).
-/

namespace DaisyChain

open Node

variable {M : Type} {table : Table M} {now : UInt32}

/-! ### What is sent and what is read -/

namespace Link

/-- Bytes sent are counted. -/
theorem pushed_pushAll (l : Link) (bytes : List UInt8) :
  (l.pushAll bytes).pushed = l.pushed + bytes.length
  := by
  induction bytes generalizing l with
  | nil => rfl
  | cons byte rest ih =>
    have counted : (l.push byte).pushed = l.pushed + 1 := rfl
    have others := ih (l.push byte)
    rw [counted] at others
    rw [List.length_cons, show l.pushAll (byte :: rest) = (l.push byte).pushAll rest from rfl,
      others]
    omega

end Link

namespace Node

/-! ### Nodes that a tick does not move -/

/-- A node that applies values changes its state. -/
theorem state_commit_ne (e : Engine) (batch : Batch) (m : M) :
  (e.commit table now batch true m).1.state ≠ .committing
  := by
  have waiting := Body.waiting_commit table now e batch m
  unfold Engine.state
  cases phase : (e.commit table now batch true m).1.phase with
  | committing batch' =>
    rw [phase] at waiting
    contradiction
  | _ => simp [Phase.state]

/-- A node that sends, and has room to, either finishes its frame or sends some of it. -/
theorem pushed_send {e : Engine} {request : Request} {frame : List UInt8} {sent : Nat}
    {tx : Link} (sending : e.phase = .sending request frame sent) (fresh : e.Fresh now)
    (room : tx.room ≠ 0) (same : (e.send now request frame sent tx).1.state = .sending) :
  (e.send now request frame sent tx).2.pushed ≠ tx.pushed
  := by
  have inTime : e.timedOut now = false := by simpa only [Engine.Fresh, sending] using fresh
  simp only [Engine.send, inTime, Bool.false_eq_true, if_false, Link.pushed_pushAll,
    List.length_take, List.length_drop] at same ⊢
  split at same
  · simp [Engine.state, Engine.enter, Phase.state] at same
  · next unfinished => omega

/-- A node that a tick does not move waits, and nothing is left for it to read, if it has
room to send. -/
theorem Station.waiting_of_still (table : Table M) {s : Station M} (fresh : s.engine.Fresh now)
    (drained : s.wiring.drained = true) (room : s.wiring.tx.room ≠ 0)
    (state : (s.tick table now).engine.state = s.engine.state)
    (read : (s.tick table now).wiring.rx.length = s.wiring.rx.length)
    (sent : (s.tick table now).wiring.tx.pushed = s.wiring.tx.pushed) :
  s.engine.phase.Waiting ∧ s.wiring.rx = []
  := by
  unfold Station.tick at state read sent
  cases phase : s.engine.phase with
  | listening heard =>
    refine ⟨trivial, ?_⟩
    cases rx : s.wiring.rx with
    | nil => rfl
    | cons byte rest =>
      simp only [phase, rx, Engine.listen, room, if_false, List.length_cons] at read
      have less := (moves_listen now (s.engine.hear heard byte now).1
        (s.wiring.tx.push (s.engine.hear heard byte now).2) rest).2.length_le
      apply (Nat.ne_of_lt (Nat.lt_succ_of_le less) read).elim
  | recovering =>
    refine ⟨trivial, ?_⟩
    cases rx : s.wiring.rx with
    | nil => rfl
    | cons byte rest =>
      simp only [phase, rx, Engine.swallow, room, if_false, List.length_cons] at read
      have less := (moves_swallow (s.wiring.tx.push 0) rest).2.length_le
      apply (Nat.ne_of_lt (Nat.lt_succ_of_le less) read).elim
  | counting request count kept =>
    simp only [phase, Engine.state, Phase.state] at state
    apply (state_count_ne _ _ _ _ _ state).elim
  | sending request frame done =>
    simp only [phase] at state sent
    rw [show s.engine.state = .sending by simp [Engine.state, phase, Phase.state]] at state
    apply (pushed_send phase fresh room state sent).elim
  | relaying request count collector =>
    refine ⟨trivial, ?_⟩
    have inTime : s.engine.timedOut now = false := by
      simpa only [Engine.Fresh, phase] using fresh
    cases rx : s.wiring.rx with
    | nil => rfl
    | cons byte rest =>
      simp only [phase, rx, Engine.relay, inTime, Bool.false_eq_true, if_false,
        Engine.collect, room, and_false] at read
      split at read
      · next collector' _ =>
        have less := (moves_collect now request count (passes request count)
          (keeps request count) (s.engine.enter (.relaying request count collector') now)
          collector' (if passes request count then s.wiring.tx.push byte else s.wiring.tx)
          rest).2.length_le
        apply (Nat.ne_of_lt (Nat.lt_succ_of_le less) read).elim
      · simp at read
      · simp at read
  | committing batch =>
    simp only [phase, drained] at state
    rw [show s.engine.state = .committing by simp [Engine.state, phase, Phase.state]] at state
    apply (state_commit_ne _ _ _ state).elim

/-- A tick does nothing to a node that waits and has nothing to read. -/
theorem Station.tick_of_waiting {s : Station M} (fresh : s.engine.Fresh now)
    (waiting : s.engine.phase.Waiting) (silent : s.wiring.rx = [])
    (quiet : s.wiring.busy [] = false) :
  s.tick table now = s
  := by
  obtain ⟨engine, ⟨rx, tx, drained, busy⟩, module⟩ := s
  simp only at fresh waiting silent quiet
  subst silent
  unfold Station.tick
  cases phase : engine.phase with
  | listening heard =>
    simp only [phase, Engine.listen, awaitHeader_eq phase fresh]
  | recovering =>
    have early : ¬recoveryDelay ≤ engine.elapsed now := by
      have less : engine.elapsed now < recoveryDelay := by
        simpa only [Engine.Fresh, phase] using fresh
      omega
    simp only [phase, Engine.swallow, Engine.recover, quiet, Bool.false_eq_true, if_false,
      early]
  | relaying request count collector =>
    have inTime : engine.timedOut now = false := by
      simpa only [Engine.Fresh, phase] using fresh
    simp only [phase, Engine.relay, inTime, Bool.false_eq_true, if_false, Engine.collect]
  | counting request count kept =>
    rw [phase] at waiting
    contradiction
  | sending request frame sent =>
    rw [phase] at waiting
    contradiction
  | committing batch =>
    rw [phase] at waiting
    contradiction

end Node

/-! ### Nodes in a row -/

namespace ChainNode

/-- Every node waits, and nothing is on its way to any of them. -/
def AtRest : Link → List (ChainNode M) → Prop
  | _, [] => True
  | input, node :: rest =>
    input.queue = [] ∧ node.engine.phase.Waiting ∧ AtRest node.out rest

/-- The link that leads away from the last node. -/
def exit : Link → List (ChainNode M) → Link
  | input, [] => input
  | _, node :: rest => exit node.out rest

/-- Nodes that wait, with nothing on the links between them, are at rest, and nothing is on the
link that leads away from them. -/
theorem atRest_of_waiting {input : Link} {nodes : List (ChainNode M)}
    (silent : ∀ l ∈ input :: nodes.map out, l.queue = [])
    (waiting : ∀ node ∈ nodes, node.engine.phase.Waiting) :
  AtRest input nodes ∧ (exit input nodes).queue = []
  := by
  induction nodes generalizing input with
  | nil => exact ⟨trivial, silent input List.mem_cons_self⟩
  | cons node rest ih =>
    have behind : ∀ l ∈ node.out :: rest.map out, l.queue = [] :=
      fun l member => silent l (List.mem_cons_of_mem _ member)
    obtain ⟨others, last⟩ := ih behind
      fun other member => waiting other (List.mem_cons_of_mem _ member)
    exact ⟨⟨silent input List.mem_cons_self, waiting node List.mem_cons_self, others⟩, last⟩

/-- If nodes are at rest and nothing is on the link that leads away from them, nothing is on any
link. -/
theorem silent_of_atRest {input : Link} {nodes : List (ChainNode M)} (rest : AtRest input nodes)
    (last : (exit input nodes).queue = []) :
  ∀ l ∈ input :: nodes.map out, l.queue = []
  := by
  induction nodes generalizing input with
  | nil =>
    intro l member
    rw [List.mem_singleton.mp member]
    apply last
  | cons node others ih =>
    obtain ⟨silent, -, behind⟩ := rest
    intro l member
    rcases List.mem_cons.mp member with rfl | among
    · apply silent
    · apply ih behind last l among

/-- A round does nothing to nodes at rest. -/
theorem tickAll_of_atRest {input : Link} {nodes : List (ChainNode M)}
    (working : ∀ node ∈ nodes, node.Working now) (rest : AtRest input nodes) :
  tickAll table now input nodes = (input, nodes)
  := by
  induction nodes generalizing input with
  | nil => rfl
  | cons node others ih =>
    obtain ⟨silent, waiting, behind⟩ := rest
    have own := working node List.mem_cons_self
    have still : (node.station input).tick table now = node.station input :=
      Station.tick_of_waiting own.fresh waiting silent rfl
    have same := ih (fun other member => working other (List.mem_cons_of_mem _ member)) behind
    simp only [tickAll, tick, still]
    simp only [station, same]

/-- Nodes that a round does not move are at rest, if the last link has room left. -/
theorem atRest_of_still {input : Link} {nodes : List (ChainNode M)}
    (working : ∀ node ∈ nodes, node.Working now)
    (room : (exit (tickAll table now input nodes).1 (tickAll table now input nodes).2).room ≠ 0)
    (read : (tickAll table now input nodes).1.queue.length = input.queue.length)
    (still : (tickAll table now input nodes).2.map trace = nodes.map trace) :
  AtRest input nodes
  := by
  induction nodes generalizing input with
  | nil => trivial
  | cons node rest ih =>
    have own := working node List.mem_cons_self
    have others : ∀ other ∈ rest, other.Working now :=
      fun other member => working other (List.mem_cons_of_mem _ member)
    simp only [tickAll] at read still
    have link := input_tickAll table now (node.tick table now input).2.out rest
    simp only [List.map_cons, List.cons.injEq, trace, Prod.mk.injEq, Link.trace] at still
    obtain ⟨⟨state, length, pushed⟩, behind⟩ := still
    -- Nothing was sent, so the link is the one that the node had before its tick.
    have unsent : (node.tick table now input).2.out = node.out := by
      obtain ⟨⟨bytes, sent⟩, _⟩ := Station.moves_tick table now (node.station input)
      have count : (node.tick table now input).2.out.pushed =
          node.out.pushed + bytes.length := by
        rw [← Link.pushed_pushAll]
        apply congrArg Link.pushed sent
      rw [link] at pushed
      have none : bytes = [] := by
        apply List.eq_nil_of_length_eq_zero
        simp only at pushed
        omega
      subst none
      apply sent
    simp only [tickAll, exit] at room
    rw [unsent] at length behind room
    have tail : AtRest node.out rest := ih others room length behind
    have roomy : node.out.room ≠ 0 := by
      cases rest with
      | nil => apply room
      | cons next rest =>
        have big := own.roomy
        simp only [Link.room, tail.1, List.length_nil]
        omega
    obtain ⟨waiting, silent⟩ := Station.waiting_of_still table
      (s := node.station input) own.fresh (by simp [station, own.going]) roomy state read
      (congrArg Link.pushed unsent)
    exact ⟨silent, waiting, tail⟩

/-- Nodes at rest are already what they will be. -/
theorem prospect_of_atRest {input : Link} {nodes : List (ChainNode M)}
    (rest : AtRest input nodes) :
  prospect table input.queue nodes = (nodes.map body, (exit input nodes).queue)
  := by
  induction nodes generalizing input with
  | nil => rfl
  | cons node others ih =>
    obtain ⟨silent, waiting, behind⟩ := rest
    have own : node.body.digest table [] = (node.body, []) := Body.digest_nil waiting
    simp only [prospect, silent, own, List.append_nil, ih behind, List.map_cons, exit]

/-- What is on the last link leaves it before all else. -/
theorem exists_prospect_eq (table : Table M) (input : Link) (nodes : List (ChainNode M))
    (more : List UInt8) :
  ∃ later, (prospect table (input.queue ++ more) nodes).2 = (exit input nodes).queue ++ later
  := by
  induction nodes generalizing input more with
  | nil => exact ⟨more, rfl⟩
  | cons node rest ih => apply ih node.out _

end ChainNode

end DaisyChain
