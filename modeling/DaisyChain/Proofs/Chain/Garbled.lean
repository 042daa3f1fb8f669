import DaisyChain.Proofs.Chain.Spoilt

/-!
# Broadcasts over a link that garbles the header

The header of a broadcast is sent along a chain of nodes that listen, and arrives with odd parity
over one of the links.  The nodes before that link wait for the frame (`opened`).  The nodes behind
it refuse the header: each of them hands it on with odd parity, notes the fault, and recovers
(`garbled`).  So a header with odd parity comes back to the gateway (`Chain.Idle.yields_garbled`).
-/

namespace DaisyChain

open Node

variable {M : Type} {table : Table M}

/-! ### Garbled headers -/

/-- What arrives of the header has odd parity and is no sync header, and nothing is to befall what
comes behind it. -/
def Disturbance.Garbles (ds : List Disturbance) (h : RawHeader) : Prop :=
  ∃ h' : RawHeader, pass ds h.toList = (h'.toList, []) ∧ h'.evenParity = false ∧ h'.action ≠ .sync

/-- The nodes once they have accepted the header of a request for all of them. -/
def opened (request : Request) (nodes : List (Engine × M)) : List (Body M) :=
  nodes.map fun n => Body.during n.1 n.2 (.relaying request 0 .start)

/-- The nodes with the record of a header that they have refused. -/
def blamed (nodes : List (Engine × M)) : List (Engine × M) :=
  nodes.map fun n => ({ n.1 with record := some ⟨.headerParity, .listening⟩ }, n.2)

/-- The nodes once they have refused a header. -/
def garbled (nodes : List (Engine × M)) : List (Body M) :=
  (blamed nodes).map fun n => Body.during n.1 n.2 .recovering

/-- A node that listens accepts the header of a broadcast, and hands it on with one more node. -/
theorem Node.Body.digest_opening (table : Table M) (e : Engine) (m : M) {property : PropertyId}
    (travels : property.Travels) (staged : Bool) {count : Nat} (few : count + 1 < countModulus) :
  (listener e m).digest table (ActionHeader.pack ⟨.broadcast, staged, property, count⟩).toList =
    (during e m (.relaying ⟨.broadcast, staged, property⟩ 0 .start),
      (ActionHeader.pack ⟨.broadcast, staged, property, count + 1⟩).toList)
  := by
  let header := ActionHeader.pack ⟨.broadcast, staged, property, count⟩
  have small : count % countModulus = count := Nat.mod_eq_of_lt (by omega)
  have next : countAfter .broadcast count = count + 1 := Nat.mod_eq_of_lt few
  have accepted : accepts header = true := by simp [header, accepts]
  have turns : framesAfter header = 1 := by simp [header, framesAfter]
  have waits :
      (during e m (.relaying ⟨.broadcast, staged, property⟩ 0 .start)).digest table [] = _ :=
    digest_nil trivial
  have heard := digest_header table e m (by simp [header]) accepted []
  rw [turns, Request.ofHeader_pack travels, digest_counting table e m (by simp), waits,
    forward_pack accepted, small, next, List.append_nil, List.append_nil] at heard
  simpa only [reduceCtorEq, decide_false, Bool.false_and, Bool.or_false] using heard

/-- A node that listens refuses a header with odd parity, but hands it on. -/
theorem Node.Body.digest_odd (table : Table M) (e : Engine) (m : M) {h : RawHeader}
    (odd : h.evenParity = false) (isAction : h.action ≠ .sync) :
  (listener e m).digest table h.toList =
    (during { e with record := some ⟨.headerParity, .listening⟩ } m .recovering,
      (forward e.record h).toList)
  := by
  have fails : (⟨(listener e m).engine.acceptHeader h 0, m⟩ : Body M) =
      during { e with record := some ⟨.headerParity, .listening⟩ } m .recovering := by
    rw [Engine.acceptHeader, if_pos odd]
    rfl
  have heard := digest_heard table e m isAction []
  simp only [fails, digest_recovering, List.length_nil, List.replicate_zero, List.append_nil]
    at heard
  apply heard

/-- Nodes that listen accept the header of a broadcast, and hand it on with their number added. -/
theorem flow_opening (table : Table M) {property : PropertyId} (travels : property.Travels)
    (staged : Bool) (nodes : List (Engine × M)) (count : Nat)
    (few : count + nodes.length < countModulus) :
  flow table (listeners nodes) (ActionHeader.pack ⟨.broadcast, staged, property, count⟩).toList =
    (opened ⟨.broadcast, staged, property⟩ nodes,
      (ActionHeader.pack ⟨.broadcast, staged, property, count + nodes.length⟩).toList)
  := by
  induction nodes generalizing count with
  | nil => rfl
  | cons n rest ih =>
    rw [List.length_cons] at few
    have others := ih (count + 1) (by omega)
    rw [listeners_cons, flow, Body.digest_opening table n.1 n.2 travels staged (by omega)]
    simp only [others, List.length_cons, Nat.add_assoc, Nat.add_comm 1]
    rfl

/-- Nodes that listen refuse a header with odd parity, and hand it on with odd parity. -/
theorem flow_odd (table : Table M) (nodes : List (Engine × M)) {h : RawHeader}
    (odd : h.evenParity = false) (isAction : h.action ≠ .sync) :
  ∃ h' : RawHeader, flow table (listeners nodes) h.toList = (garbled nodes, h'.toList) ∧
    h'.evenParity = false
  := by
  induction nodes generalizing h with
  | nil => exact ⟨h, rfl, odd⟩
  | cons n rest ih =>
    have refused : accepts h = false := by rw [accepts, odd, Bool.false_and]
    obtain ⟨h', others, odd'⟩ := ih (h := forward n.1.record h)
      (by rw [evenParity_forward, refused]) (by rw [action_forward]; exact isAction)
    refine ⟨h', ?_, odd'⟩
    rw [listeners_cons, flow, Body.digest_odd table n.1 n.2 odd isAction]
    simp only [others]
    rfl

/-- Nodes that have refused a header hand on as many bytes as come to them. -/
theorem flow_garbled (table : Table M) (nodes : List (Engine × M)) (bytes : List UInt8) :
  ∃ out, flow table (garbled nodes) bytes = (garbled nodes, out) ∧ out.length = bytes.length
  := by
  induction nodes generalizing bytes with
  | nil => exact ⟨bytes, rfl, rfl⟩
  | cons n rest ih =>
    obtain ⟨out, others, length⟩ := ih (List.replicate bytes.length 0)
    refine ⟨out, ?_, length.trans List.length_replicate⟩
    rw [garbled, blamed, List.map_cons, List.map_cons, ← blamed, ← garbled, flow,
      Body.digest_recovering]
    simp only [others]

/-! ### Over the garbling link -/

/-- Nodes to which undisturbed links lead. -/
def undisturbed (bodies : List (Body M)) : List (Stage M) :=
  bodies.map fun b => ⟨[], b⟩

/-- Over undisturbed links a stream comes as it was sent. -/
theorem course_undisturbed (table : Table M) (bodies : List (Body M)) (bytes : List UInt8) :
  course table (undisturbed bodies) bytes =
    (undisturbed (flow table bodies bytes).1, (flow table bodies bytes).2)
  := by
  induction bodies generalizing bytes with
  | nil => rfl
  | cons b rest ih =>
    rw [undisturbed, List.map_cons, ← undisturbed, course]
    simp only [Disturbance.pass_nil, ih]
    rfl

/-- If the link to the first node is disturbed, the others are not. -/
theorem struck_zero (ds : List Disturbance) (n : Engine × M) (rest : List (Engine × M)) :
  struck 0 ds (n :: rest) = ⟨ds, Body.listener n.1 n.2⟩ :: undisturbed (listeners rest)
  := by
  apply List.ext_getElem?
  intro i
  cases i with
  | zero => simp [struck]
  | succ i => simp [struck, undisturbed, listeners, Function.comp_def]

/-- If the link to a node behind the first one is disturbed, that to the first one is not. -/
theorem struck_succ (k : Nat) (ds : List Disturbance) (n : Engine × M) (rest : List (Engine × M)) :
  struck (k + 1) ds (n :: rest) = ⟨[], Body.listener n.1 n.2⟩ :: struck k ds rest
  := by
  simp [struck, List.mapIdx_cons]

/-- A stream to nodes with one disturbed link comes to that link as it was sent, and goes on behind
it as it has arrived. -/
theorem course_struck (table : Table M) {k : Nat} {ds : List Disturbance}
    {nodes : List (Engine × M)} (within : k ≤ nodes.length) (bytes : List UInt8)
    (spent : (Disturbance.pass ds (flow table (listeners (nodes.take k)) bytes).2).2 = []) :
  let front := flow table (listeners (nodes.take k)) bytes
  let back := flow table (listeners (nodes.drop k)) (Disturbance.pass ds front.2).1
  course table (struck k ds nodes) bytes =
    (undisturbed (front.1 ++ back.1), if k = nodes.length then front.2 else back.2)
  := by
  induction nodes generalizing k bytes with
  | nil =>
    obtain rfl : k = 0 := Nat.le_zero.mp within
    rfl
  | cons n rest ih =>
    cases k with
    | zero =>
      have arrived : Disturbance.pass ds bytes = ((Disturbance.pass ds bytes).1, []) :=
        Prod.ext rfl spent
      rw [struck_zero, course, arrived]
      simp only [course_undisturbed]
      rfl
    | succ k =>
      have others := ih (Nat.le_of_succ_le_succ within) _ spent
      rw [struck_succ, course, Disturbance.pass_nil]
      simp only at others ⊢
      rw [others]
      simp only [List.length_cons, Nat.add_right_cancel_iff]
      rfl

namespace ChainNode.Underway

variable {last : List Disturbance} {gone : List UInt8} {stages : List (Stage M)}
variable {sent : List UInt8} {input : Link} {nodes : List (ChainNode M)}

/-- At rest the links are disturbed no more if what was to befall them has befallen the stream. -/
theorem quiet_of_atRest (path : Underway table last gone stages sent input nodes)
    (rest : AtRest input nodes) {bodies : List (Body M)}
    (comes : (course table stages sent).1 = undisturbed bodies)
    (spent : (Disturbance.pass last (course table stages sent).2).2 = []) :
  ∀ l ∈ input :: nodes.map out, l.disturbances = []
  := by
  induction path using Underway.induction_on generalizing bodies with
  | nil carried =>
    rw [course, show Disturbance.pass last _ = _ from carried] at spent
    simpa using spent
  | cons carried follows behind ih =>
    obtain ⟨arrived, becomes⟩ := digest_of_atRest carried follows rest
    simp only [course, arrived, becomes] at comes spent
    cases bodies with
    | nil => cases comes
    | cons b bodies =>
      rw [undisturbed, List.map_cons, ← undisturbed, List.cons.injEq] at comes
      rw [List.map_cons, List.forall_mem_cons]
      exact ⟨congrArg Stage.ahead comes.1, ih rest.2.2 comes.2 spent⟩

end ChainNode.Underway

namespace Chain

variable {c : Chain M}

/-- A working chain without disturbances is sound. -/
theorem Working.sound (working : c.Working) (quiet : ∀ l ∈ c.links, l.disturbances = []) :
  c.Sound
  := by
  refine ⟨⟨quiet _ List.mem_cons_self, working.roomy⟩, fun node member => ?_⟩
  have own := working.nodes node member
  exact ⟨own.fresh, ⟨quiet _ (List.mem_cons_of_mem _ (List.mem_map_of_mem member)), own.roomy⟩,
    own.going⟩

/-- A calm chain has settled, and nothing is to be dropped. -/
theorem Calm.clearExit_eq (calm : c.Calm) (working : c.Working) :
  c.clearExit = c
  := by
  have rest : c.AtRest := (ChainNode.atRest_of_waiting calm.silent calm.waiting).1
  have silent : c.exit.queue = [] := calm.silent _ (List.getLast_mem _)
  have still : Link.clear c.exit = c.exit := by rw [Link.clear, ← silent]
  rw [clearExit, rest.settle_eq working, c.modifyExit_congr (g := fun l => l) still, modifyExit_id]

/-- The header of a broadcast that is garbled on a link of an idle chain is accepted by the nodes
before that link, and refused by those behind it. -/
theorem Idle.yields_garbled (idle : c.Idle) {k : Nat} {ds : List Disturbance}
    (within : k ≤ c.pairs.length) (few : c.pairs.length < countModulus) {property : PropertyId}
    (travels : property.Travels) (staged : Bool)
    (garbles : ∀ count, Disturbance.Garbles ds
      (ActionHeader.pack ⟨.broadcast, staged, property, count⟩)) :
  let c' := (c.disturb k ds).inject 0
    (ActionHeader.pack ⟨.broadcast, staged, property, 0⟩).toList
  c'.AtRest ∧ ∃ h' : RawHeader, h'.evenParity = false ∧
    c'.Yields c.table
      (opened ⟨.broadcast, staged, property⟩ (c.pairs.take k) ++ garbled (c.pairs.drop k)) h'.toList
  := by
  intro c'
  let header (count : Nat) := ActionHeader.pack ⟨.broadcast, staged, property, count⟩
  have length : (c.pairs.take k).length = k := by rw [List.length_take, Nat.min_eq_left within]
  have opening := flow_opening c.table travels staged (c.pairs.take k) 0 (by omega)
  rw [Nat.zero_add, length] at opening
  obtain ⟨h₁, hit, odd, isAction⟩ := garbles k
  obtain ⟨h', refused, odd'⟩ := flow_odd c.table (c.pairs.drop k) odd isAction
  have spent : (Disturbance.pass ds (flow c.table (listeners (c.pairs.take k))
      (header 0).toList).2).2 = [] := by rw [opening, hit]
  have arrives := course_struck c.table within (header 0).toList spent
  simp only [header, opening, hit, refused] at arrives
  -- What comes back from the last node, and what arrives of it.
  have back : ∃ h₂ : RawHeader, (course c.table (struck k ds c.pairs) (header 0).toList).2 =
      h₂.toList ∧ Disturbance.pass (if k = c.nodes.length then ds else []) h₂.toList =
        (h'.toList, []) := by
    rw [arrives, show c.nodes.length = c.pairs.length from (List.length_map _).symm]
    by_cases final : k = c.pairs.length
    · rw [final, List.drop_length] at refused
      have same : h₁.toList = h'.toList := congrArg Prod.snd refused
      rw [if_pos final, if_pos final]
      exact ⟨header k, rfl, by rw [← same]; exact hit⟩
    · rw [if_neg final, if_neg final]
      exact ⟨h', rfl, Disturbance.pass_nil _⟩
  obtain ⟨h₂, comes, last⟩ := back
  have underway : c'.Underway (c.disturb k ds).origin ([] ++ (header 0).toList) [] :=
    ((idle.calm_disturb k ds).underway (idle.working_disturb k ds)).inject _
  rw [List.nil_append] at underway
  have path := underway.path
  have rests := underway.rest
  have works := underway.table_eq
  rw [idle.origin_disturb k ds] at path rests works
  have short : h₂.toList.length ≤ frameMax := show 3 ≤ frameMax by decide
  have rest : c'.AtRest := rests (by rw [comes]; exact short)
  obtain ⟨bodies, carried⟩ := path.bodies_of_atRest rest
  have quiet := path.quiet_of_atRest rest (congrArg Prod.fst arrives) (by rw [comes, last])
  refine ⟨rest, h', odd', underway.working.sound quiet, works, ?_, fun none => by cases none⟩
  have exit : c'.exit.queue = h'.toList := by
    rw [comes, Link.Carried, last, ← exit_eq, List.nil_append, Prod.mk.injEq] at carried
    apply carried.1.symm
  rw [rest.outlook_eq, exit, bodies, arrives, undisturbed, List.map_map]
  exact Prod.ext (List.map_id _) rfl

end Chain

end DaisyChain
