import DaisyChain.Proofs.Chain.Outcome
import DaisyChain.Proofs.Gateway.Writing

/-!
# Writes that take effect at once

What becomes of a write to an idle chain, if no value is held back.  `Delivers` tells what the
write means for each node, as the replica has it; each node accepts that or refuses it.  The
write succeeds if every node accepts, and fails with a damaged header if one of them refuses
(`run_writeAll`): a node that has refused a value recovers, and no acknowledge gets past it.
So a refusal is never reported as what it is (`writeAll_unreported`).
-/

namespace DaisyChain.Gateway

open Node

variable {S M : Type} [Transport S] [OnChain S M] [Replica S M]
variable {σ σ' : Session S} {table : Table M} {property : PropertyId} {d : Definition M}

/-! ### Acknowledges after a write -/

/-- A write that has reached its nodes is confirmed if every node accepted what it means for it,
and not otherwise. -/
theorem run_confirm_outcomes (g : Gateway M) {nodes : List (Engine × M)}
    {values : List (Option (List UInt8))} (unrecorded : ∀ n ∈ nodes, n.1.record = none)
    (yields : σ.line.Yields table (outcomes table property nodes values) []) :
  let refused := refusals table property nodes values
  ∃ (c : Chain M) (bodies : List (Body M)), c.Yields table bodies [] ∧
    bodies.map (fun b => b.engine.record) = refused.map (Option.map refusalRecord) ∧
    ((∀ r ∈ refused, r = none) → bodies = outcomes table property nodes values) ∧
    (g.confirm : Act S Unit).run σ =
      (if ∀ r ∈ refused, r = none then .ok () else .error .headerMismatch, σ.withLine c)
  := by
  intro refused
  by_cases accepted : ∀ r ∈ refused, r = none
  · obtain ⟨c, after, confirmed⟩ := run_confirm_clean g yields (Nat.zero_le _)
      (flow_ack_of_accepted unrecorded accepted)
    rw [if_pos accepted]
    exact ⟨c, _, after, records_outcomes unrecorded values, fun _ => rfl, confirmed⟩
  · obtain ⟨zero, records⟩ := flow_ack_of_refused unrecorded accepted
    obtain ⟨c, after, confirmed⟩ := run_confirm_lost g yields (Nat.zero_le _)
      (Prod.ext rfl zero)
    rw [if_neg accepted]
    exact ⟨c, _, after, records, fun all => absurd all accepted, confirmed⟩

/-! ### What a write means for the nodes -/

/-- A write to the given recipients means the given values for the given number of nodes, in the
order of the chain; finding them leaves the second session. -/
def Delivers (d : Definition M) (property : PropertyId) (count : Nat) (σ : Session S)
    (values : List (Option (List UInt8))) (σ' : Session S) : Recipients → Prop
  | .all => ∃ value bytes, (valueAt d 0 : Act S _).run σ = (.ok value, σ') ∧
      Frame.encode value = .ok bytes ∧ values = List.replicate count (some value)
  | .each number => number = count ∧ ∃ batch,
      (chooseAll d property count : Act S _).run σ = (.ok values.reverse, σ') ∧
      SealedAll d values.reverse batch

/-- The session after a write to the given recipients has come back from the given number of
nodes. -/
def Session.told (σ : Session S) (count : Nat) : Recipients → Session S
  | .all => σ.noted count
  | .each _ => σ

/-- The same value for all nodes. -/
theorem outcomes_replicate (nodes : List (Engine × M)) (value : Option (List UInt8)) :
  outcomes table property nodes (List.replicate nodes.length value) =
    nodes.map (Body.outcome table property value)
  := by
  induction nodes with
  | nil => rfl
  | cons n rest ih =>
    rw [outcomes] at ih ⊢
    rw [List.length_cons, List.replicate_succ, List.zipWith_cons_cons, ih, List.map_cons]

/-- A write that is not held back succeeds if every node accepts what it means for it, and fails
with a damaged header otherwise. -/
theorem run_writeAll [Apart S M] (g : Gateway M) {recipients : Recipients}
    {nodes : List (Engine × M)} {values : List (Option (List UInt8))}
    (travels : property.Travels) (found : g.table.find? property = some d)
    (writable : d.access.writable = true) (gettable : d.get.isSome)
    (some : nodes ≠ []) (few : nodes.length < countModulus)
    (unrecorded : ∀ n ∈ nodes, n.1.record = none)
    (delivers : Delivers d property nodes.length σ values σ' recipients)
    (yields : σ.line.Yields table (listeners nodes) []) :
  let refused := refusals table property nodes values
  ∃ (c : Chain M) (bodies : List (Body M)), c.Yields table bodies [] ∧
    bodies.map (fun b => b.engine.record) = refused.map (Option.map refusalRecord) ∧
    ((∀ r ∈ refused, r = none) → bodies = outcomes table property nodes values) ∧
    (g.writeAll property recipients false : Act S Unit).run σ =
      (if ∀ r ∈ refused, r = none then .ok () else .error .headerMismatch,
        (σ'.told nodes.length recipients).withLine c)
  := by
  intro refused
  rw [writeAll_eq g found writable gettable]
  cases recipients with
  | all =>
    obtain ⟨value, bytes, chosen, fits, rfl⟩ := delivers
    obtain ⟨c, after, sent⟩ := run_broadcast g travels false chosen fits few yields
      (Nat.zero_le _)
    have reaches : nodes.map (reached table ⟨.broadcast, false, property⟩ (Option.some value)) =
        outcomes table property nodes (List.replicate nodes.length (Option.some value)) := by
      rw [outcomes_replicate]
      apply List.map_congr_left fun n _ => Body.receive_eq table rfl _ n
    rw [reaches] at after
    obtain ⟨c', bodies, later, records, kept, confirmed⟩ := run_confirm_outcomes g
      (σ := (σ'.noted nodes.length).withLine c) unrecorded
      (by rw [Session.line_withLine]; exact after)
    rw [Session.withLine_withLine] at confirmed
    exact ⟨c', bodies, later, records, kept, sent.trans confirmed⟩
  | each number =>
    obtain ⟨rfl, batch, chosen, closed⟩ := delivers
    have length := length_chooseAll d property nodes.length chosen
    obtain ⟨c, after, sent⟩ := run_writeEach g travels false chosen closed some length.symm few
      yields (Nat.zero_le _)
    have reaches : written table ⟨.write, false, property⟩ nodes values.reverse.reverse =
        outcomes table property nodes values := by
      rw [List.reverse_reverse, written, outcomes]
      congr 1
      funext n value
      apply Body.receive_eq table rfl value n
    rw [reaches] at after
    obtain ⟨c', bodies, later, records, kept, confirmed⟩ := run_confirm_outcomes g
      (σ := σ'.withLine c) unrecorded (by rw [Session.line_withLine]; exact after)
    rw [Session.withLine_withLine] at confirmed
    exact ⟨c', bodies, later, records, kept, sent.trans confirmed⟩

/-! ### Refused writes -/

/-- A write to an idle chain that is not held back succeeds if every node accepts what it means
for it, and fails with a damaged header otherwise; the nodes record what they refused. -/
theorem run_writeAll_idle [Apart S M] (g : Gateway M) {recipients : Recipients}
    {values : List (Option (List UInt8))} (real : property.number.toNat ≤ PropertyId.max)
    (found : g.table.find? property = some d) (writable : d.access.writable = true)
    (gettable : d.get.isSome) (idle : σ.line.Idle) (some : σ.line.nodes ≠ [])
    (few : σ.line.nodes.length < countModulus)
    (delivers : Delivers d property σ.line.nodes.length σ values σ' recipients) :
  let refused := refusals σ.line.table property (σ.line.nodes.map ChainNode.pair) values
  ∃ c : Chain M, c.nodes.map (fun node => node.engine.lastFault) = refused ∧
    (g.writeAll property recipients false : Act S Unit).run σ =
      (if ∀ r ∈ refused, r = none then .ok () else .error .headerMismatch,
        (σ'.told σ.line.nodes.length recipients).withLine c)
  := by
  intro refused
  have travels := PropertyId.travels_of_le real
  have unrecorded : ∀ n ∈ σ.line.nodes.map ChainNode.pair, n.1.record = none := by
    intro n member
    obtain ⟨node, among, rfl⟩ := List.mem_map.mp member
    apply idle.unrecorded node among
  have length : (σ.line.nodes.map ChainNode.pair).length = σ.line.nodes.length :=
    List.length_map _
  obtain ⟨c, bodies, after, records, -, run⟩ := run_writeAll g travels found writable gettable
    (fun none => some (List.map_eq_nil_iff.mp none)) (by rw [length]; exact few) unrecorded
    (by rw [length]; exact delivers) idle.yields
  rw [length] at run
  refine ⟨c, ?_, run⟩
  have faults : bodies.map (fun b => b.engine.lastFault) = refused := by
    have same := congrArg (List.map (Option.map Record.fault)) records
    rw [List.map_map, List.map_map] at same
    refine same.trans ((List.map_congr_left fun r _ => ?_).trans (List.map_id _))
    cases r <;> rfl
  rw [← faults, ← after.bodies_eq, List.map_map]
  rfl

/-- If some nodes refuse what a write means for them, each of them records the fault, but the
write fails with a damaged header, whatever the faults.  It succeeds if no node refuses; in no
case does it report faults of the nodes. -/
theorem writeAll_refused [Apart S M] (g : Gateway M) {recipients : Recipients}
    {values : List (Option (List UInt8))} (real : property.number.toNat ≤ PropertyId.max)
    (found : g.table.find? property = some d) (writable : d.access.writable = true)
    (gettable : d.get.isSome) (idle : σ.line.Idle) (some : σ.line.nodes ≠ [])
    (few : σ.line.nodes.length < countModulus)
    (delivers : Delivers d property σ.line.nodes.length σ values σ' recipients) :
  let refused := refusals σ.line.table property (σ.line.nodes.map ChainNode.pair) values
  let result := (g.writeAll property recipients false : Act S Unit).run σ
  result.1 = (if ∀ r ∈ refused, r = none then .ok () else .error .headerMismatch) ∧
    result.2.line.nodes.map (fun node => node.engine.lastFault) = refused
  := by
  intro refused result
  obtain ⟨c, faults, run⟩ := run_writeAll_idle g real found writable gettable idle some few
    delivers
  rw [show result = _ from run]
  exact ⟨rfl, by rw [Session.line_withLine]; exact faults⟩

/-- A property whose values no module takes. -/
def stubborn : Definition UInt8 where
  id := ⟨6⟩
  name := "offset"
  access := .readWrite
  size := .static 1
  get := some fun m _ => some [m]
  set := some fun _ m => (false, m)
  compare := some fun a b => a == b

/-- A gateway that knows this property alone. -/
def stubbornGateway : Gateway UInt8 where
  table := ⟨[stubborn]⟩

/-- A chain of the given number of nodes that know this property alone, and a display that holds
a value for each of them. -/
def stubbornSession (count : Nat) : Session (Site (Chain UInt8) UInt8 8) where
  env := {
    line := Chain.ofModules ⟨[stubborn]⟩ (List.replicate count 0) 1024 0
    display := {
      collection := {
        entries := List.replicate count { module := 7, marks := PropertySet.empty.insert ⟨6⟩ } } } }

/-- Both nodes of a chain refuse a value. -/
theorem writeAll_refused_two :
  let refused := refusals ⟨[stubborn]⟩ ⟨6⟩
    ((stubbornSession 2).line.nodes.map ChainNode.pair) [some [7], some [7]]
  let result := (stubbornGateway.writeAll ⟨6⟩ (.each 2) false : Act _ Unit).run (stubbornSession 2)
  result.1 = (if ∀ r ∈ refused, r = none then .ok () else .error .headerMismatch) ∧
    result.2.line.nodes.map (fun node => node.engine.lastFault) = refused
  := by
  have delivers : Delivers stubborn ⟨6⟩ 2 (stubbornSession 2) [some [7], some [7]]
      (stubbornSession 2) (.each 2) :=
    ⟨rfl, [_, _], rfl, .cons rfl (.cons rfl .nil)⟩
  exact writeAll_refused stubbornGateway (by decide) rfl rfl rfl
    (Chain.idle_ofModules _ _ (by decide) _) (by decide) (by decide) delivers

/-- One node refuses a value because its handler fails; it records that, but the write is said to
have met a damaged header. -/
theorem stubborn_write_unreported :
  let σ := stubbornSession 1
  let result := (stubbornGateway.writeAll ⟨6⟩ .all false : Act _ Unit).run σ
  σ.line.Idle ∧
    result.2.line.nodes.map (fun node => node.engine.lastFault) = [some .setFailed] ∧
    result.1 = .error .headerMismatch ∧
    result.1 ≠ .error (.nodes (categoriesOf (some .setFailed)))
  := by
  intro σ result
  have idle : σ.line.Idle := Chain.idle_ofModules _ _ (by decide) _
  have delivers : Delivers stubborn ⟨6⟩ 1 σ [some [7]] σ .all := ⟨[7], _, rfl, rfl, rfl⟩
  obtain ⟨c, faults, run⟩ := run_writeAll_idle stubbornGateway (by decide) rfl rfl rfl idle
    (by decide) (by decide) delivers
  have ends : result = (.error .headerMismatch, (σ.noted 1).withLine c) := run
  rw [ends]
  refine ⟨idle, ?_, rfl, by simp⟩
  rw [Session.line_withLine]
  apply faults

end DaisyChain.Gateway
