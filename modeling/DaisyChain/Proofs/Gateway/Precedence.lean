import DaisyChain.Proofs.Gateway.Arrivals
import DaisyChain.Proofs.Gateway.Convergence

/-!
# Writes to all nodes and to single ones

A property may wait to be written to all nodes and to single ones at the same time.  A pass then
writes the value of the first module to all of them, and forgets the marks of single modules: a
value that was marked does not arrive (`write_to_all_outranks_marks`).

A property that waits to be written to single nodes alone is promoted if all modules have the same
value.  It is then written to all nodes: also to those that the display has no module for, so that
they do not keep the value that they had (`pass_writes_marked`).
-/

namespace DaisyChain.Gateway

variable {M : Type} {N : Nat} {g : Gateway M}

namespace Session

/-- A session with an attentive chain attends, if the display has modules for some of its nodes. -/
theorem Attending.of_attentive {σ : Session (Site (Chain M) M N)} (shared : g.table = σ.line.table)
    (attentive : σ.line.Attentive) (few : σ.line.nodes.length < countModulus)
    (filled : σ.collection.entries ≠ []) (roomy : σ.collection.size ≤ N)
    (short : σ.collection.size ≤ σ.line.nodes.length)
    (spanned : max σ.collection.size σ.chainLength = σ.line.nodes.length) :
  σ.Attending g
  := by
  have length : σ.line.modules.length = σ.line.nodes.length := List.length_map _
  refine ⟨shared.symm, attentive, ?_, filled, ?_, ?_⟩
  · rw [length]
    exact few
  · rw [length]
    exact Nat.le_min.mpr ⟨short, roomy⟩
  · rw [length]
    exact spanned

/-- What is due can be conveyed if that holds of all modules of a property that waits to be
written. -/
theorem conveys_dueOf {σ : Session (Site (Chain M) M N)} {d : Definition M}
    (conveys : d.access.writable = true →
      (σ.collection.writes.contains d.id = true ∨ σ.collection.anyMarked d.id = true) →
      ∀ e ∈ σ.collection.entries, d.Conveys e.module)
    {i : Nat} {m : M} (due : σ.dueOf d i = some m) :
  d.Conveys m
  := by
  obtain ⟨writable, member, written⟩ := Outline.written_of_due due
  rw [Outline.modules_promote, Collection.outline, List.map_map] at member
  obtain ⟨e, among, rfl⟩ := List.mem_map.mp member
  refine conveys writable ?_ e among
  rw [← Collection.any_outline]
  exact Outline.written_of_promote written

/-- What is due of a property that does not wait to be read. -/
theorem dueOf_eq {σ : Session (Site (Chain M) M N)} {d : Definition M}
    (unread : σ.collection.reads.contains d.id = false) (writable : d.access.writable = true)
    (gettable : d.get.isSome) (i : Nat) :
  σ.dueOf d i =
    if σ.collection.writes.contains d.id || (σ.collection.promote d).1 then σ.collection.module? 0
    else (σ.collection.outline d.id).marked? i
  := by
  rw [dueOf, Outline.due_promote unread writable gettable, Collection.promotes_outline,
    Outline.first?, Collection.module?_outline]
  rfl

end Session

/-- Modules that are called equal in a property have the same value of it. -/
def Collection.Discerns (c : Collection M N) (d : Definition M) : Prop :=
  ∀ e ∈ c.entries, ∀ e' ∈ c.entries, d.equal? e.module e'.module = some true →
    d.value e.module = d.value e'.module

variable {d : Definition M}

/-- If a property is promoted, all modules have the value of the first one. -/
theorem Collection.Discerns.value_eq {c : Collection M N} (discerns : c.Discerns d)
    (promoted : (c.promote d).1 = true) {first : M} (leads : c.module? 0 = some first)
    {e : Entry M} (member : e ∈ c.entries) :
  d.value e.module = d.value first
  := by
  rw [← promotes_outline] at promoted
  have leads' : (c.outline d.id).first? = some first := (c.module?_outline d.id 0).trans leads
  have place : (e.module, e.marks.contains d.id) ∈ (c.outline d.id).places :=
    List.mem_map_of_mem member
  rcases Outline.equal_of_promotes promoted leads' place with same | equal
  · exact congrArg d.value same
  · obtain ⟨e₀, entry, rfl⟩ := Option.map_eq_some_iff.mp leads
    exact (discerns e₀ (List.mem_of_getElem? entry) e member equal).symm

/-- The mark of a module tells whether its value is due to its node alone. -/
theorem Collection.marked?_outline {c : Collection M N} {i : Nat} {e : Entry M}
    (entry : c.entries[i]? = some e) :
  (c.outline d.id).marked? i = if e.marks.contains d.id then some e.module else none
  := by
  rw [Outline.marked?, getElem?_outline, entry, Option.map_some, Option.filter_some]
  split <;> rfl

section Passes

variable [Inhabited M] {σ : Session (Site (Chain M) M N)}
variable (independent : Independent g.table)
variable (conveys : ∀ q ∈ definitions g.table, q.access.writable = true →
  (σ.collection.writes.contains q.id = true ∨ σ.collection.anyMarked q.id = true) →
  ∀ e ∈ σ.collection.entries, q.Conveys e.module)
variable (member : d ∈ definitions g.table) (writable : d.access.writable = true)
variable (unread : σ.collection.reads.contains d.id = false)
variable (discerns : σ.collection.Discerns d)

include independent conveys member writable unread

/-- What the nodes hold after a pass: the value of the first module if the property was to be
written to all nodes or has been promoted, else that of their own modules if these were marked. -/
theorem pass_writes (attending : σ.Attending g) (gettable : d.get.isSome) {i : Nat}
    {node : ChainNode M} (here : σ.line.nodes[i]? = some node) :
  ∃ node', (g.pass σ).2.line.nodes[i]? = some node' ∧ d.value node'.module =
    d.value ((if σ.collection.writes.contains d.id || (σ.collection.promote d).1
      then σ.collection.module? 0 else (σ.collection.outline d.id).marked? i).getD node.module)
  := by
  obtain ⟨length, values, -⟩ := pass_conveys attending independent
    (fun q among i m => Session.conveys_dueOf (conveys q among)) member
  have lengths : (g.pass σ).2.line.nodes.length = σ.line.nodes.length := by
    rw [Chain.modules, Chain.modules, List.length_map, List.length_map] at length
    exact length
  have within := (List.getElem?_eq_some_iff.mp here).1
  rw [← lengths] at within
  have here' := List.getElem?_eq_getElem within
  refine ⟨_, here', ?_⟩
  rw [← Session.dueOf_eq unread writable gettable]
  apply values
  · rw [Chain.modules, List.getElem?_map, here]
    rfl
  · rw [Chain.modules, List.getElem?_map, here']
    rfl

include discerns

end Passes

/-! ### Split-flap displays -/

/-- The offset is faithful. -/
theorem faithful_offset :
  SplitFlap.offset.Faithful
  := SplitFlap.exact_offsetField.faithful (fun _ => rfl) _ _

/-- The offset is one of the properties of a pass. -/
theorem offset_mem_definitions :
  SplitFlap.offset ∈ definitions SplitFlap.table
  := mem_definitions.mpr ⟨rfl, by decide⟩

/-- The module whose value goes to all nodes when the property is promoted, if it is. -/
def Collection.promoted? (c : Collection M N) (d : Definition M) : Option M :=
  if (c.promote d).1 then c.module? 0 else none

section Beyond

variable [Inhabited M] {σ : Session (Site (Chain M) M N)}

/-- A pass over marked modules alone writes the values of these to their nodes, and leaves the nodes
of other modules alone.  The nodes that there is no module for are left alone, too, unless the
property is promoted: then they have the value of the first module. -/
theorem pass_writes_marked (shared : g.table = σ.line.table) (independent : Independent g.table)
    (writable : ∀ q ∈ definitions g.table, q.access.writable = true)
    (conveys : ∀ q ∈ definitions g.table, ∀ e ∈ σ.collection.entries, q.Conveys e.module)
    (single : ∀ q ∈ definitions g.table, σ.collection.reads.contains q.id = false ∧
      σ.collection.writes.contains q.id = false)
    (attentive : σ.line.Attentive) (few : σ.line.nodes.length < countModulus)
    (short : σ.collection.size ≤ σ.line.nodes.length) (roomy : σ.collection.size ≤ N)
    (known : σ.chainLength = σ.line.nodes.length)
    (member : d ∈ definitions g.table) (discerns : σ.collection.Discerns d)
    (agree : ∀ (i : Nat) (e : Entry M) (node : ChainNode M), σ.collection.entries[i]? = some e →
      σ.line.nodes[i]? = some node → e.marks.contains d.id = false →
        d.value e.module = d.value node.module)
    {j : Nat} {node : ChainNode M} (here : σ.line.nodes[j]? = some node) :
  ∃ node', (g.pass σ).2.line.nodes[j]? = some node' ∧
    (∀ e, σ.collection.entries[j]? = some e →
      d.value node'.module = d.value (if e.marks.contains d.id then e.module else node.module)) ∧
    (σ.collection.size ≤ j →
      d.value node'.module = d.value ((σ.collection.promoted? d).getD node.module))
  := by
  obtain ⟨unread, unwritten⟩ := single d member
  by_cases filled : σ.collection.entries = []
  · -- Without any module, nothing is marked.
    have nothing : ∀ q ∈ definitions g.table, σ.collection.operation? q.id = none := by
      intro q among
      obtain ⟨unread, unwritten⟩ := single q among
      rw [Collection.operation?, unread, unwritten, Collection.anyMarked, filled]
      rfl
    rw [pass_eq_finished g nothing]
    refine ⟨node, here, ?_, fun _ => ?_⟩
    · intro e entry
      rw [filled] at entry
      contradiction
    · rw [Collection.promoted?, Collection.module?, filled]
      exact congrArg d.value (by split <;> rfl)
  · obtain ⟨e₀, rest, entries⟩ := List.exists_cons_of_ne_nil filled
    have first : e₀ ∈ σ.collection.entries := by
      rw [entries]
      exact List.mem_cons_self
    have leads : σ.collection.module? 0 = some e₀.module := by
      rw [Collection.module?, entries]
      rfl
    have attending : σ.Attending g := .of_attentive shared attentive few filled roomy short
      (by rw [known]; exact Nat.max_eq_right short)
    obtain ⟨node', there, holds⟩ := pass_writes independent (fun q among _ _ => conveys q among)
      member (writable d member) unread attending (conveys d member e₀ first).gettable here
    rw [unwritten, Bool.false_or] at holds
    refine ⟨node', there, ?_, ?_⟩
    · intro e entry
      have among := List.mem_of_getElem? entry
      rw [holds, Collection.marked?_outline entry, leads]
      cases promoted : (σ.collection.promote d).1 with
      | true =>
        have same := discerns.value_eq promoted leads among
        cases marked : e.marks.contains d.id with
        | true => exact same.symm
        | false => exact same.symm.trans (agree j e node entry here marked)
      | false => cases e.marks.contains d.id <;> rfl
    · intro beyond
      rw [holds, Collection.promoted?, Outline.marked?, Collection.getElem?_outline,
        List.getElem?_eq_none beyond]
      rfl

end Beyond

/-- A table of the offset alone. -/
def offsetTable : Table SplitFlap.Module :=
  ⟨[SplitFlap.offset]⟩

/-- A chain of the given offsets, and a display of the given modules that knows how long the chain
is. -/
def overhanging (N : Nat) (offsets : List UInt8) (entries : List (Entry SplitFlap.Module)) :
    Session (Site (Chain SplitFlap.Module) SplitFlap.Module N) where
  env := {
    line := Chain.ofModules offsetTable (offsets.map fun v => { offset := v }) 1024 0
    display := { collection := { entries := entries } } }
  chainLength := offsets.length

/-- The entry of a module of the given offset that waits to be written. -/
def markedOffset (v : UInt8) : Entry SplitFlap.Module :=
  { module := { offset := v }, marks := PropertySet.empty.insert ⟨6⟩ }

/-- The offset is the only property of this table. -/
theorem mem_definitions_offsetTable {q : Definition SplitFlap.Module} :
  q ∈ definitions offsetTable ↔ q = SplitFlap.offset
  := by
  constructor
  · intro member
    exact List.mem_singleton.mp (List.mem_of_find?_eq_some (mem_definitions.mp member).1)
  · rintro rfl
    exact mem_definitions.mpr ⟨rfl, by decide⟩

/-- There is no other property that it could touch. -/
theorem independent_offsetTable :
  Independent offsetTable
  := by
  intro d member d' member' differs
  rw [mem_definitions_offsetTable] at member member'
  exact absurd (congrArg Definition.id (member.trans member'.symm)) differs

/-- Of three nodes and two modules of different offsets, the first of which is marked, the first
node gets the offset of its module, and the other ones keep theirs. -/
theorem pass_writes_marked_three :
  let σ := overhanging 2 [1, 4, 2] [markedOffset 7, { module := { offset := 4 } }]
  let σ' := ((⟨offsetTable, {}⟩ : Gateway SplitFlap.Module).pass σ).2
  ∀ x ∈ [(0, 7), (1, 4), (2, 2)], ∃ node', σ'.line.nodes[x.1]? = some node' ∧
    SplitFlap.offset.value node'.module = [x.2]
  := by
  intro σ σ'
  have idle : σ.line.Idle := Chain.idle_ofModules _ _ (by decide) _
  have each {j : Nat} {node : ChainNode SplitFlap.Module} (here : σ.line.nodes[j]? = some node) :=
    pass_writes_marked (g := ⟨offsetTable, {}⟩) (σ := σ) (d := SplitFlap.offset) rfl
      independent_offsetTable
      (fun q member => by rw [mem_definitions_offsetTable.mp member]; rfl)
      (fun q member e _ => by
        rw [mem_definitions_offsetTable.mp member]; exact faithful_offset.conveys e.module)
      (fun q _ => ⟨PropertySet.contains_empty q.id, PropertySet.contains_empty q.id⟩)
      idle.attentive (by decide) (by decide) (by decide) rfl
      (mem_definitions_offsetTable.mpr rfl)
      (fun e _ e' _ equal => faithful_offset.equal?_iff.mp equal)
      (by
        intro i e node entry there unmarked
        match i, entry, there with
        | 0, entry, _ =>
          cases entry
          contradiction
        | 1, entry, there =>
          cases entry
          cases there
          rfl
        | _ + 2, entry, _ => cases entry)
      here
  intro x member
  simp only [List.mem_cons, List.not_mem_nil, or_false] at member
  rcases member with rfl | rfl | rfl
  · obtain ⟨node', there, holds, -⟩ := each (j := 0) rfl
    exact ⟨node', there, holds _ rfl⟩
  · obtain ⟨node', there, holds, -⟩ := each (j := 1) rfl
    exact ⟨node', there, holds _ rfl⟩
  · obtain ⟨node', there, -, holds⟩ := each (j := 2) rfl
    exact ⟨node', there, holds (by decide)⟩

/-- Of two nodes and one module, which is marked, the second node gets the offset of the module,
too. -/
theorem promotion_reaches_beyond :
  let σ := overhanging 1 [1, 2] [markedOffset 7]
  let σ' := ((⟨offsetTable, {}⟩ : Gateway SplitFlap.Module).pass σ).2
  σ.line.Idle ∧ σ.collection.size = 1 ∧ σ.line.nodes.length = 2 ∧ σ.chainLength = 2 ∧
    SplitFlap.offset.Faithful ∧
    (∀ q ∈ definitions offsetTable, σ.collection.reads.contains q.id = false ∧
      σ.collection.writes.contains q.id = false) ∧
    σ.collection.mustWrite 0 ⟨6⟩ = true ∧
    ∃ node node', σ.line.nodes[1]? = some node ∧ σ'.line.nodes[1]? = some node' ∧
      SplitFlap.offset.value node'.module ≠ SplitFlap.offset.value node.module
  := by
  intro σ σ'
  have idle : σ.line.Idle := Chain.idle_ofModules _ _ (by decide) _
  have single (q : Definition SplitFlap.Module) (_ : q ∈ definitions offsetTable) :
      σ.collection.reads.contains q.id = false ∧ σ.collection.writes.contains q.id = false :=
    ⟨PropertySet.contains_empty q.id, PropertySet.contains_empty q.id⟩
  have attending : σ.Attending ⟨offsetTable, {}⟩ :=
    .of_attentive rfl idle.attentive (by decide) (by decide) (by decide) (by decide) rfl
  have member : SplitFlap.offset ∈ definitions offsetTable := mem_definitions_offsetTable.mpr rfl
  obtain ⟨node', there, holds⟩ := pass_writes independent_offsetTable
    (fun q member _ _ e _ => by
      rw [mem_definitions_offsetTable.mp member]; exact faithful_offset.conveys e.module)
    member rfl (single _ member).1 attending rfl (i := 1) rfl
  refine ⟨idle, rfl, rfl, rfl, faithful_offset, single, rfl, _, node', rfl, there, ?_⟩
  rw [holds]
  decide

end DaisyChain.Gateway
