import DaisyChain.Proofs.Gateway.Passes
import DaisyChain.Proofs.SplitFlap.Faithful

/-!
# Convergence of a pass

One pass over a site brings every property up to date that waits for it (`Converged`), if nothing
has gone wrong on the chain and what waits to be done makes sense: modules that are all to get
one value hold one value, and modules that do not wait to be written agree with their nodes if
others wait for that alone.  There is then nothing left to do, and another pass does not touch the
line (`pass_converges`).
-/

namespace DaisyChain.Gateway

open Node

variable {M L : Type} {N : Nat}

/-! ### Converged sites -/

/-- What waits to be done brings modules and nodes together: modules that are all to get one value
hold one value, and modules that do not wait to be written agree with their nodes if others wait for
that alone. -/
structure Consistent (table : Table M) (σ : Session (Site (Chain M) M N)) : Prop where
  uniform : ∀ d ∈ definitions table, σ.collection.writes.contains d.id = true →
    ∀ e ∈ σ.collection.entries, ∀ e' ∈ σ.collection.entries,
      d.equal? e.module e'.module = some true
  settled : ∀ d ∈ definitions table, σ.collection.reads.contains d.id = false →
    σ.collection.writes.contains d.id = false → σ.collection.anyMarked d.id = true →
    ∀ {i : Nat} {e : Entry M} {node : ChainNode M}, σ.collection.entries[i]? = some e →
      σ.line.nodes[i]? = some node → e.marks.contains d.id = false →
      d.equal? e.module node.module = some true

/-- After a pass every node and its module hold the same value of the properties that waited for
something, which is that of the module before unless the property was to be read, and nothing is
left to do. -/
structure Converged (table : Table M) (σ σ' : Session (Site (Chain M) M N)) : Prop where
  agree : ∀ d ∈ definitions table, σ.collection.Pending d.id → ∀ i < σ.line.nodes.length,
    ∃ m node, σ'.collection.module? i = some m ∧ σ'.line.nodes[i]? = some node ∧
      d.equal? m node.module = some true
  kept : ∀ d ∈ definitions table, σ.collection.Pending d.id →
    σ.collection.reads.contains d.id = false → ∀ {i m}, σ.collection.module? i = some m →
      ∃ m', σ'.collection.module? i = some m' ∧ d.equal? m m' = some true
  unrecorded : ∀ node ∈ σ'.line.nodes, node.engine.record = none
  synchronized : σ'.collection.isSynchronized = true

variable {table : Table M} {carried : PropertyId → Prop} {d : Definition M}
variable {σ : Session (Site (Chain M) M N)}

/-- The entry and the node of the given index make up a cell. -/
theorem getElem?_cells {c : Collection M N} {nodes : List (Engine × M)} {i : Nat} {e : Entry M}
    {n : Engine × M} (entry : c.entries[i]? = some e) (node : nodes[i]? = some n) :
  (c.slice d nodes).cells[i]? = some (Cell.of d (e, n))
  := by
  rw [Collection.slice, List.getElem?_map,
    (List.getElem?_zip_eq_some (z := (e, n))).mpr ⟨entry, node⟩]
  rfl

/-- The node of the given index in a session. -/
theorem getElem?_nodes {i : Nat} {n : Engine × M} (here : σ.line.pairs[i]? = some n) :
  ∃ node, σ.line.nodes[i]? = some node ∧ node.pair = n
  := by
  rw [Chain.pairs, List.getElem?_map, Option.map_eq_some_iff] at here
  apply here

/-- The slices of a consistent site are ready. -/
theorem Consistent.ready (consistent : Consistent table σ) (faithful : d.Faithful)
    (member : d ∈ definitions table) (sized : σ.collection.entries.length = σ.line.pairs.length) :
  (σ.slice d).Ready
  := by
  constructor
  · intro write
    rw [Slice.uniform, List.all_eq_true]
    intro cell within
    obtain ⟨⟨e, n⟩, among, rfl⟩ := List.mem_map.mp within
    obtain ⟨first, rest, entries⟩ := List.exists_cons_of_ne_nil
      (List.ne_nil_of_mem (List.of_mem_zip among).1)
    have leads : first ∈ σ.collection.entries := by
      rw [entries]
      apply List.mem_cons_self
    have same := consistent.uniform d member write first leads e (List.of_mem_zip among).1
    rw [decide_eq_true_iff, Session.slice, Collection.first_slice entries sized]
    apply faithful.equal?_iff.mp same
  · intro operation cell within unmarked
    obtain ⟨⟨e, n⟩, among, rfl⟩ := List.mem_map.mp within
    obtain ⟨i, here⟩ := List.mem_iff_getElem?.mp among
    obtain ⟨entry, node⟩ := List.getElem?_zip_eq_some.mp here
    obtain ⟨node, there, rfl⟩ := getElem?_nodes node
    obtain ⟨read, write, marked⟩ : σ.collection.reads.contains d.id = false ∧
        σ.collection.writes.contains d.id = false ∧ σ.collection.anyMarked d.id = true := by
      rw [Session.slice, Collection.operation?_slice (Nat.le_of_eq sized),
        Collection.operation?] at operation
      cases read : σ.collection.reads.contains d.id <;>
        cases write : σ.collection.writes.contains d.id <;>
        cases marked : σ.collection.anyMarked d.id <;> simp [read, write, marked] at operation ⊢
    apply faithful.equal?_iff.mp
      (consistent.settled d member read write marked entry there unmarked)

/-! ### Passes -/

section Passes

variable {σ' : Session (Site (Chain M) M N)}
variable (serving : Serving table carried σ.line σ.collection σ.chainLength)
variable (serving' : Serving table carried σ'.line σ'.collection σ'.chainLength)
variable (turn : σ'.slice d = (σ.slice d).promote.turn)

include serving serving' turn in
/-- A turn adds no node and takes none away. -/
theorem length_pairs_of_turn :
  σ'.line.pairs.length = σ.line.pairs.length
  := by
  have same := congrArg (fun s => s.cells.length) turn
  rw [Slice.length_turn] at same
  simp only [Session.slice, Collection.slice, List.length_map, List.length_zip] at same
  rw [serving.sized, serving'.sized, Nat.min_self, Nat.min_self] at same
  apply same

include serving turn in
/-- In a consistent site, a slice in which something waits to be done agrees after its turn. -/
theorem Consistent.agreed (consistent : Consistent table σ) (faithful : d.Faithful)
    (member : d ∈ definitions table) (pending : σ.collection.Pending d.id) :
  (σ'.slice d).Agreed
  := by
  rw [turn]
  apply (consistent.ready faithful member serving.sized).agreed_turn
  rw [Session.slice, Collection.operation?_slice (Nat.le_of_eq serving.sized)]
  apply Collection.pending_iff.mp pending

include serving' in
/-- If a slice agrees, every node and its module hold the same value. -/
theorem equal?_of_agreed (faithful : d.Faithful) (agreed : (σ'.slice d).Agreed) {i : Nat}
    (within : i < σ'.line.pairs.length) :
  ∃ m node, σ'.collection.module? i = some m ∧ σ'.line.nodes[i]? = some node ∧
    d.equal? m node.module = some true
  := by
  obtain ⟨e, entry⟩ : ∃ e, σ'.collection.entries[i]? = some e :=
    ⟨_, List.getElem?_eq_getElem (by rw [serving'.sized]; exact within)⟩
  obtain ⟨n, there⟩ : ∃ n, σ'.line.pairs[i]? = some n := ⟨_, List.getElem?_eq_getElem within⟩
  obtain ⟨node, here, rfl⟩ := getElem?_nodes there
  have same := agreed.agree _ (List.mem_of_getElem? (getElem?_cells entry there))
  exact ⟨e.module, node, congrArg (Option.map Entry.module) entry, here,
    faithful.equal?_iff.mpr same⟩

include serving serving' turn in
/-- A module keeps its value of a property that is not to be read. -/
theorem equal?_of_turn (faithful : d.Faithful)
    (unread : σ.collection.reads.contains d.id = false) {i : Nat} {m : M}
    (here : σ.collection.module? i = some m) :
  ∃ m', σ'.collection.module? i = some m' ∧ d.equal? m m' = some true
  := by
  rw [Collection.module?, Option.map_eq_some_iff] at here
  obtain ⟨e, entry, rfl⟩ := here
  have within : i < σ.line.pairs.length := by
    rw [← serving.sized]
    apply (List.getElem?_eq_some_iff.mp entry).1
  have within' : i < σ'.line.pairs.length := by
    rw [length_pairs_of_turn serving serving' turn]
    apply within
  obtain ⟨n, there⟩ : ∃ n, σ.line.pairs[i]? = some n := ⟨_, List.getElem?_eq_getElem within⟩
  obtain ⟨e', entry'⟩ : ∃ e', σ'.collection.entries[i]? = some e' :=
    ⟨_, List.getElem?_eq_getElem (by rw [serving'.sized]; exact within')⟩
  obtain ⟨n', there'⟩ : ∃ n', σ'.line.pairs[i]? = some n' := ⟨_, List.getElem?_eq_getElem within'⟩
  have held := congrArg (fun l : List (List UInt8) => l[i]?)
    (Slice.held_turn (s := σ.slice d) unread)
  rw [← turn, Session.slice, Session.slice] at held
  simp only [List.getElem?_map, getElem?_cells entry there, getElem?_cells entry' there'] at held
  refine ⟨e'.module, congrArg (Option.map Entry.module) entry', ?_⟩
  apply faithful.equal?_iff.mpr (Option.some.inj held).symm

include serving serving' turn in
/-- In a consistent site, nothing is to be done for a property after its turn. -/
theorem Consistent.operation?_eq_none (consistent : Consistent table σ) (faithful : d.Faithful)
    (member : d ∈ definitions table) :
  σ'.collection.operation? d.id = none
  := by
  apply (Collection.operation?_slice (Nat.le_of_eq serving'.sized)).symm.trans
  by_cases pending : σ.collection.Pending d.id
  · apply (consistent.agreed serving turn faithful member pending).nothing
  · have nothing : (σ.slice d).operation? = none := by
      rw [Session.slice, Collection.operation?_slice (Nat.le_of_eq serving.sized)]
      apply Classical.not_not.mp (mt Collection.pending_iff.mpr pending)
    rw [Slice.turn_promote_of_none nothing] at turn
    apply (congrArg Slice.operation? turn).trans nothing

end Passes

/-- A pass over a consistent site that serves brings every property up to date. -/
theorem converged_pass [Inhabited M] (g : Gateway M)
    (serving : Serving table carried σ.line σ.collection σ.chainLength) (shared : g.table = table)
    (carries : table.Carries carried) (consistent : Consistent table σ) :
  Converged table σ (g.pass σ).2
  := by
  obtain ⟨serving', -, slices⟩ := serving_pass g serving shared carries
  let σ' := (g.pass σ).2
  -- What waits for something is carried, and its slice has been promoted and had its turn.
  have turned (d : Definition M) (member : d ∈ definitions table)
      (pending : σ.collection.Pending d.id) :
      d.Faithful ∧ σ'.slice d = (σ.slice d).promote.turn := by
    obtain ⟨found, real⟩ := mem_definitions.mp member
    obtain ⟨_, some⟩ := Option.ne_none_iff_exists'.mp (Collection.pending_iff.mp pending)
    have carry := serving.carried_of_operation (PropertyId.travels_of_le real) some
    exact ⟨carries.faithful carry found, slices d carry found⟩
  constructor
  · intro d member pending i below
    obtain ⟨faithful, turn⟩ := turned d member pending
    apply equal?_of_agreed serving' faithful
      (consistent.agreed serving turn faithful member pending)
    rw [length_pairs_of_turn serving serving' turn, Chain.pairs, List.length_map]
    apply below
  · intro d member pending unread i m here
    obtain ⟨faithful, turn⟩ := turned d member pending
    apply equal?_of_turn serving serving' turn faithful unread here
  · intro node member
    apply serving'.unrecorded node.pair (List.mem_map_of_mem member)
  · apply Collection.isSynchronized_of_none
    intro p travels
    by_cases carry : carried p
    · obtain ⟨d, found, faithful⟩ := carries.exists_faithful carry
      have id := Table.id_of_find? found
      subst id
      have member : d ∈ definitions table := mem_definitions.mpr ⟨found, carries.real carry⟩
      apply consistent.operation?_eq_none serving serving' (slices d carry found) faithful member
    · apply serving'.nothing p travels carry

/-! ### Split-flap displays -/

/-- One pass brings a display and its chain together, whatever waits to be done for the properties
that travel both ways.  Another pass does not touch the line, whatever the line. -/
theorem pass_converges (g : Gateway SplitFlap.Module) (shared : g.table = SplitFlap.table)
    {σ : Session (Site (Chain SplitFlap.Module) SplitFlap.Module N)}
    (chain : σ.line.table = SplitFlap.table) (idle : σ.line.Idle) (some : σ.line.nodes ≠ [])
    (few : σ.line.nodes.length < countModulus) (roomy : σ.line.nodes.length ≤ N)
    (sized : σ.collection.size = σ.line.nodes.length)
    (short : σ.chainLength ≤ σ.line.nodes.length)
    (bits : ∀ p : PropertyId, p.Travels → σ.collection.Pending p → SplitFlap.BothWays p)
    (consistent : Consistent SplitFlap.table σ) :
  let σ' := (g.pass σ).2
  Converged SplitFlap.table σ σ' ∧
    ∀ {L : Type} [Transport L] (line : L), g.pass (σ'.over line) = ((), σ'.over line)
  := by
  intro σ'
  have serving := Serving.of_idle chain idle some few roomy sized short bits
  have converged : Converged SplitFlap.table σ σ' :=
    converged_pass g serving shared SplitFlap.carries_table consistent
  obtain ⟨-, noticed, -⟩ := serving_pass g serving shared SplitFlap.carries_table
  refine ⟨converged, fun line => pass_of_none g (fun d _ => ?_) noticed⟩
  apply Collection.operation?_of_isSynchronized converged.synchronized d.id

/-- A display of two modules over two nodes: the offsets are to be read, the characters are to be
written to both nodes, and the minimum rotation of the first module to its node. -/
def motley : Session (Site (Chain SplitFlap.Module) SplitFlap.Module 4) where
  env := {
    line := Chain.ofModules SplitFlap.table [{ offset := 1 }, { offset := 2 }] 1024 0
    display := {
      collection := {
        entries := [
          { module := { character := 3, minimumRotation := 7 },
            marks := PropertySet.empty.insert ⟨9⟩ },
          { module := { character := 3 } }]
        reads := PropertySet.empty.insert ⟨6⟩
        writes := PropertySet.empty.insert ⟨5⟩ } } }

/-- In this display, modules wait to be written in their minimum rotation alone. -/
theorem wire_of_marked_motley {p : PropertyId} (marked : motley.collection.anyMarked p = true) :
  p.wire = 9
  := by
  change ((PropertySet.empty.insert ⟨9⟩).contains p || (PropertySet.empty.contains p || false)) =
    true at marked
  rw [PropertySet.contains_empty, Bool.or_false, Bool.or_false] at marked
  apply (wire_of_contains marked).symm

/-- One pass brings this display and its chain together. -/
theorem pass_converges_motley :
  let σ' := ((⟨SplitFlap.table, {}⟩ : Gateway SplitFlap.Module).pass motley).2
  Converged SplitFlap.table motley σ' ∧
    ∀ {L : Type} [Transport L] (line : L),
      (⟨SplitFlap.table, {}⟩ : Gateway SplitFlap.Module).pass (σ'.over line) = ((), σ'.over line)
  := by
  have named {p q : PropertyId} (real : q.number.toNat ≤ PropertyId.max) (travels : p.Travels)
      (same : p.wire = q.wire) : q = p :=
    PropertyId.Travels.eq_of_wire (Nat.lt_of_le_of_lt real (by decide)) travels same.symm
  refine pass_converges ⟨SplitFlap.table, {}⟩ rfl rfl (Chain.idle_ofModules _ _ (by decide) _)
    (by decide) (by decide) (by decide) rfl (by decide) ?_ ⟨?_, ?_⟩
  · rintro p travels (read | write | marked)
    · rw [← PropertyId.Travels.eq_of_wire (by decide) travels (wire_of_contains read)]
      exact ⟨by decide, by decide⟩
    · rw [← PropertyId.Travels.eq_of_wire (by decide) travels (wire_of_contains write)]
      exact ⟨by decide, by decide⟩
    · have is := wire_of_marked_motley marked
      rw [PropertyId.Travels.eq_of_wire travels (q := ⟨9⟩) (by decide) is]
      exact ⟨by decide, by decide⟩
  · intro d member write e among e' among'
    obtain ⟨found, real⟩ := mem_definitions.mp member
    rw [named real (by decide) (wire_of_contains write)] at found
    cases found
    simp only [Session.collection, motley, List.mem_cons, List.not_mem_nil, or_false]
      at among among'
    rcases among with rfl | rfl <;> rcases among' with rfl | rfl <;> rfl
  · intro d member _ _ marked i e node entry there unmarked
    obtain ⟨found, real⟩ := mem_definitions.mp member
    rw [named real (p := ⟨9⟩) (by decide) (wire_of_marked_motley marked).symm] at found unmarked
    cases found
    match i, entry, there with
    | 0, entry, _ =>
      cases entry
      exact absurd unmarked (by decide)
    | 1, entry, there =>
      cases entry
      cases there
      rfl
    | _ + 2, entry, _ => cases entry

end DaisyChain.Gateway
