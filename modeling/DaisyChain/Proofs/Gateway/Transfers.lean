import DaisyChain.Proofs.Gateway.Delivery
import DaisyChain.Proofs.Gateway.Reading
import DaisyChain.Proofs.Property.Sizes

/-!
# Transfers of faithful values

Transactions with nodes that listen and have no records succeed if the property is faithful: a
read takes the value of every node (`run_readAll_faithful`), and a write gives every node the
value that it is meant to have (`run_writeAll_faithful`).  Neither leaves a record.
-/

namespace DaisyChain

open Node

variable {M : Type} {table : Table M} {property : PropertyId} {d : Definition M}

/-! ### Nodes and faithful values -/

/-- The node after it has been given a value, or none. -/
def delivered (d : Definition M) (n : Engine × M) (value : Option (List UInt8)) : Engine × M :=
  (n.1, match value with
    | none => n.2
    | some data => d.given data n.2)

/-- A placeholder for a value that can be laid out fits a frame. -/
theorem Gateway.placeholderLength_le {m : M} {data : List UInt8} (laid : d.serialize m = .ok data) :
  placeholderLength d.size ≤ valueMax
  := by
  obtain ⟨bytes, wrapped⟩ := Definition.exists_wrap laid
  obtain ⟨lays, short⟩ := PropertySize.wrap_eq_ok_iff.mp wrapped
  cases size : d.size with
  | static length =>
    rw [size] at lays
    obtain ⟨same⟩ := lays
    rw [placeholderLength, ← same]
    exact short
  | dynamic => decide

namespace Definition.Faithful

/-- A node answers with its value. -/
theorem fetch_eq (faithful : d.Faithful) (found : table.find? property = some d) (m : M) :
  fetch table m property = .ok (d.value m)
  := by
  rw [fetch, found]
  simp only [faithful.readable, if_true, faithful.serialize_eq]
  rfl

/-- The frame with which a node answers carries its value. -/
theorem said_eq (faithful : d.Faithful) (found : table.find? property = some d)
    (real : property.isErrorQuery = false) (n : Engine × M) :
  said table property n = .data (d.value n.2)
  := said_of_fetch table real (faithful.fetch_eq found n.2) (faithful.length_value n.2)

/-- A node stays as it is when it answers. -/
theorem answered_eq (faithful : d.Faithful) (found : table.find? property = some d)
    (real : property.isErrorQuery = false) (n : Engine × M) :
  answered table property n = n
  := by
  refine answered_of_value table real ?_ (faithful.length_value n.2)
  rw [valueOf, real, if_neg Bool.false_ne_true]
  apply faithful.fetch_eq found n.2

/-- A node takes the value of a module. -/
theorem applySlot_eq (faithful : d.Faithful) (found : table.find? property = some d) (m m' : M) :
  applySlot table ⟨property, d.value m⟩ m' = (.ok (), d.given (d.value m) m')
  := by
  rw [applySlot, found]
  simp only [faithful.writable, if_true, faithful.deserialize_value]
  rfl

/-- A value that comes from a module, or none. -/
def Sent (d : Definition M) (value : Option (List UInt8)) : Prop :=
  ∀ data, value = some data → ∃ m, data = d.value m

/-- No node refuses the value of a module. -/
theorem refusal_eq (faithful : d.Faithful) (found : table.find? property = some d) (m : M)
    {value : Option (List UInt8)} (sent : Sent d value) :
  refusal table property m value = none
  := by
  cases value with
  | none => rfl
  | some data =>
    obtain ⟨m', rfl⟩ := sent data rfl
    rw [refusal, faithful.applySlot_eq found]

/-- What becomes of a node that is given the value of a module. -/
theorem applied_eq (faithful : d.Faithful) (found : table.find? property = some d) (n : Engine × M)
    {value : Option (List UInt8)} (sent : Sent d value) :
  (n.1, applied table property n.2 value) = delivered d n value
  := by
  cases value with
  | none => rfl
  | some data =>
    obtain ⟨m', rfl⟩ := sent data rfl
    rw [applied, faithful.applySlot_eq found]
    rfl

/-- The value of a module fits a frame. -/
theorem exists_encode (faithful : d.Faithful) (m : M) :
  ∃ bytes, Frame.encode (d.value m) = .ok bytes
  := ⟨_, by rw [Frame.encode, if_neg (Nat.not_lt_of_le (faithful.length_value m))]⟩

/-- A placeholder for the value of a module fits a frame. -/
theorem exists_placeholder (faithful : d.Faithful) (m : M) :
  ∃ bytes, Frame.placeholderOf (Gateway.placeholderLength d.size) = .ok bytes
  := ⟨_, by rw [Frame.placeholderOf, if_neg (Nat.not_lt_of_le
    (Gateway.placeholderLength_le (faithful.serialize_eq m)))]⟩

/-- What a write means for nodes can be sent, if it comes from modules. -/
theorem exists_sealedAll [Inhabited M] (faithful : d.Faithful) {values : List (Option (List UInt8))}
    (sent : ∀ value ∈ values, Sent d value) :
  ∃ batch, Gateway.SealedAll d values batch
  := by
  induction values with
  | nil => exact ⟨[], .nil⟩
  | cons value rest ih =>
    obtain ⟨batch, others⟩ := ih fun other member => sent other (List.mem_cons_of_mem _ member)
    obtain ⟨bytes, first⟩ : ∃ bytes, Gateway.sealed d value = .ok bytes := by
      cases value with
      | none => apply faithful.exists_placeholder default
      | some data =>
        obtain ⟨m, rfl⟩ := sent _ List.mem_cons_self data rfl
        apply faithful.exists_encode m
    exact ⟨bytes :: batch, .cons first others⟩

end Definition.Faithful

namespace Gateway

/-! ### Transactions -/

variable {S : Type} [Transport S] [OnChain S M] [Replica S M] [Apart S M]
variable {σ σ' : Session S} {nodes : List (Engine × M)}

/-- A read of a faithful property takes the values of nodes without records. -/
theorem run_readAll_faithful (g : Gateway M) (faithful : d.Faithful)
    (shared : g.table = table) (found : table.find? property = some d)
    (travels : property.Travels) (real : property.isErrorQuery = false)
    (few : nodes.length < countModulus) (unrecorded : ∀ n ∈ nodes, n.1.record = none)
    (yields : σ.line.Yields table (listeners nodes) []) :
  let frames := nodes.map fun n => Frame.data (d.value n.2)
  let take : StateM S Trouble := takeValues d frames 0 {}
  (take (σ.noted nodes.length).env).1.refused = none →
    ∃ c : Chain M, c.Yields table (listeners nodes) [] ∧
      (g.readAll property : Act S Unit).run σ =
        (.ok (), ((σ.noted nodes.length).after take).withLine c)
  := by
  intro frames take accepted
  have length : frames.length = nodes.length := List.length_map _
  have answers : nodes.map (said table property) = frames :=
    List.map_congr_left fun n _ => faithful.said_eq found real n
  have same : nodes.map (answered table property) = nodes :=
    (List.map_congr_left fun n _ => faithful.answered_eq found real n).trans (List.map_id _)
  have flagless : (nodes.any fun n => n.1.record.isSome) = false := by
    rw [List.any_eq_false]
    intro n member
    rw [unrecorded n member]
    simp
  have whole : List.Forall₂ Frame.Whole (nodes.map fun n => (replyOf table property n).1)
      frames := by
    rw [← answers]
    apply whole_replies
  have values : ∀ frame ∈ frames, frame ≠ .placeholder := by
    intro frame member
    obtain ⟨n, _, rfl⟩ := List.mem_map.mp member
    simp
  have comes := flow_read table travels nodes false [] (by simp)
    (by rw [List.length_nil]; omega)
  rw [List.flatten_nil, List.append_nil, List.length_nil, Nat.zero_add, List.nil_append,
    Bool.false_or, ← length, ← List.append_nil (List.flatten _), same, flagless] at comes
  obtain ⟨c, after, run⟩ := run_readAll_values g travels real (by rw [shared]; exact found)
    faithful.readable faithful.settable whole values (by rw [length]; exact few) comes yields
  rw [length] at run
  refine ⟨c, after, run.trans ?_⟩
  refine run_conclude g ?_ accepted _
  rw [missing_takeValues d 0 values, Bool.false_or, decide_eq_false_iff_not]
  intro member
  obtain ⟨n, _, is⟩ := List.mem_map.mp member
  contradiction

/-- A write of a faithful property gives nodes without records the values that come from
modules. -/
theorem run_writeAll_faithful (g : Gateway M) (faithful : d.Faithful)
    (shared : g.table = table) (found : table.find? property = some d)
    (travels : property.Travels) (some : nodes ≠ []) (few : nodes.length < countModulus)
    (unrecorded : ∀ n ∈ nodes, n.1.record = none) {values : List (Option (List UInt8))}
    (sent : ∀ value ∈ values, Definition.Faithful.Sent d value) {recipients : Recipients}
    (delivers : Delivers d property nodes.length σ values σ' recipients)
    (yields : σ.line.Yields table (listeners nodes) []) :
  ∃ c : Chain M, c.Yields table (listeners (List.zipWith (delivered d) nodes values)) [] ∧
    (g.writeAll property recipients false : Act S Unit).run σ =
      (.ok (), (σ'.told nodes.length recipients).withLine c)
  := by
  have accepted : ∀ r ∈ refusals table property nodes values, r = none := by
    intro r member
    rw [refusals, ← List.map_uncurry_zip_eq_zipWith] at member
    obtain ⟨⟨n, value⟩, among, rfl⟩ := List.mem_map.mp member
    apply faithful.refusal_eq found n.2 (sent value (List.of_mem_zip among).2)
  obtain ⟨c, bodies, after, -, kept, run⟩ := run_writeAll g travels (by rw [shared]; exact found)
    faithful.writable faithful.gettable some few unrecorded delivers yields
  have same : bodies = listeners (List.zipWith (delivered d) nodes values) := by
    rw [kept accepted, outcomes_of_accepted accepted]
    congr 1
    rw [← List.map_uncurry_zip_eq_zipWith, ← List.map_uncurry_zip_eq_zipWith]
    apply List.map_congr_left
    rintro ⟨n, value⟩ member
    apply faithful.applied_eq found n (sent value (List.of_mem_zip member).2)
  rw [same] at after
  rw [if_pos accepted] at run
  exact ⟨c, after, run⟩

end Gateway

end DaisyChain
