import DaisyChain.Gateway.Worker
import DaisyChain.Node.Engine
import DaisyChain.Proofs.Property.Faithful

/-!
# Slices of a display and its chain

A pass deals with one property after another.  The slice of a property is what concerns that
property alone: its values in the modules and in the nodes, and what waits to be done for it.
A slice is promoted (`Slice.promote`) and has its turn (`Slice.turn`); if it was ready for that,
modules and nodes agree afterwards (`Slice.Ready.agreed_turn`).

`Collection.performed` and `Operation.nodes` tell what an operation makes of a collection and of
the nodes.  It performs the operation on the slice of its own property (`slice_performed`) and
leaves the other slices alone (`slice_performed_of_ne`).
-/

namespace DaisyChain.Gateway

/-! ### Slices -/

/-- A property at one place of the chain. -/
structure Cell where
  /-- The value of the module. -/
  held : List UInt8
  /-- The module waits to be written to its node. -/
  marked : Bool
  /-- The value of the node. -/
  shown : List UInt8

/-- The place after an operation, if the first module has the given value. -/
def Cell.after (first : List UInt8) (c : Cell) : Operation → Cell
  | .readAll => ⟨c.shown, false, c.shown⟩
  | .broadcast => ⟨c.held, false, first⟩
  | .writeMarked => ⟨c.held, false, if c.marked then c.held else c.shown⟩

/-- A property at all places of the chain. -/
structure Slice where
  cells : List Cell
  /-- The property waits to be read. -/
  read : Bool
  /-- The property waits to be written to all nodes. -/
  write : Bool

namespace Slice

/-- The value of the first module. -/
def first (s : Slice) : List UInt8 :=
  match s.cells with
  | [] => []
  | c :: _ => c.held

/-- What is to be done. -/
def operation? (s : Slice) : Option Operation :=
  if s.read then some .readAll
  else if s.write then some .broadcast
  else if s.cells.any Cell.marked then some .writeMarked
  else none

/-- The slice after an operation. -/
def after (s : Slice) (operation : Operation) : Slice :=
  ⟨s.cells.map fun c => c.after s.first operation, false, false⟩

/-- The slice after its turn. -/
def turn (s : Slice) : Slice :=
  match s.operation? with
  | none => s
  | some operation => s.after operation

/-- All modules have the same value. -/
def uniform (s : Slice) : Bool :=
  s.cells.all fun c => decide (s.first = c.held)

/-- The slice after it has been promoted. -/
def promote (s : Slice) : Slice :=
  if s.cells.any Cell.marked && s.uniform then
    ⟨s.cells.map fun c => { c with marked := false }, false, true⟩
  else
    s

/-- A slice that a turn brings up to date: all modules have the same value if it is to be written
to all nodes, and modules that do not wait to be written agree with their nodes if others wait for
that alone. -/
structure Ready (s : Slice) : Prop where
  uniform : s.write = true → s.uniform = true
  settled : s.operation? = some .writeMarked → ∀ c ∈ s.cells, c.marked = false → c.held = c.shown

/-- Modules and nodes agree, and nothing waits to be done. -/
structure Agreed (s : Slice) : Prop where
  nothing : s.operation? = none
  agree : ∀ c ∈ s.cells, c.held = c.shown

variable {s : Slice}

/-- An operation keeps the values of the modules if it is not a read. -/
theorem held_after (s : Slice) {operation : Operation} (written : operation ≠ .readAll) :
  (s.after operation).cells.map Cell.held = s.cells.map Cell.held
  := by
  rw [after, List.map_map]
  apply List.map_congr_left
  intro c _
  cases operation with
  | readAll => contradiction
  | broadcast => rfl
  | writeMarked => rfl

/-- An operation leaves nothing to do. -/
theorem operation?_after (s : Slice) (operation : Operation) :
  (s.after operation).operation? = none
  := by
  have clean : (s.after operation).cells.any Cell.marked = false := by
    rw [after, List.any_map, List.any_eq_false]
    intro c _
    cases operation <;> simp [Cell.after]
  rw [Slice.operation?, clean]
  rfl

/-- A read makes modules and nodes agree. -/
theorem agreed_readAll (s : Slice) :
  (s.after .readAll).Agreed
  := by
  refine ⟨s.operation?_after _, ?_⟩
  intro c member
  obtain ⟨before, _, rfl⟩ := List.mem_map.mp member
  rfl

/-- A broadcast makes modules and nodes agree if all modules have the same value. -/
theorem agreed_broadcast (uniform : s.uniform = true) :
  (s.after .broadcast).Agreed
  := by
  refine ⟨s.operation?_after _, ?_⟩
  intro c member
  obtain ⟨before, among, rfl⟩ := List.mem_map.mp member
  have same := List.all_eq_true.mp uniform before among
  apply (of_decide_eq_true same).symm

/-- A write to the modules that wait for it makes modules and nodes agree if the others agree. -/
theorem agreed_writeMarked (settled : ∀ c ∈ s.cells, c.marked = false → c.held = c.shown) :
  (s.after .writeMarked).Agreed
  := by
  refine ⟨s.operation?_after _, ?_⟩
  intro c member
  obtain ⟨before, among, rfl⟩ := List.mem_map.mp member
  change before.held = if before.marked then before.held else before.shown
  cases marked : before.marked with
  | true => rfl
  | false => apply settled before among marked

/-- If nothing waits to be done, there is nothing to promote and nothing to do. -/
theorem turn_promote_of_none (nothing : s.operation? = none) :
  s.promote.turn = s
  := by
  have unmarked : s.cells.any Cell.marked = false := by
    simp only [operation?] at nothing
    cases marked : s.cells.any Cell.marked with
    | false => rfl
    | true =>
      rw [marked] at nothing
      cases read : s.read <;> cases write : s.write <;> simp [read, write] at nothing
  rw [promote, unmarked, Bool.false_and, if_neg Bool.false_ne_true, turn, nothing]

namespace Ready

/-- A slice that is ready and waits for something agrees after it has been promoted and has had
its turn. -/
theorem agreed_turn (ready : s.Ready) (pending : s.operation? ≠ none) :
  s.promote.turn.Agreed
  := by
  rw [promote]
  split
  · next promoted =>
    -- A promoted slice is written to all nodes.
    have uniform := (Bool.and_eq_true_iff.mp promoted).2
    have same : (Slice.mk (s.cells.map fun c => { c with marked := false }) false true).uniform =
        s.uniform := by
      have first : (Slice.mk (s.cells.map fun c => { c with marked := false }) false true).first =
          s.first := by
        rw [Slice.first, Slice.first]
        cases s.cells <;> rfl
      rw [Slice.uniform, first, List.all_map]
      rfl
    apply agreed_broadcast (same.trans uniform)
  · rw [turn]
    cases found : s.operation? with
    | none => contradiction
    | some operation =>
      cases operation with
      | readAll => apply s.agreed_readAll
      | broadcast =>
        apply agreed_broadcast
        apply ready.uniform
        simp only [operation?] at found
        cases write : s.write with
        | true => rfl
        | false => cases read : s.read <;> simp [read, write] at found
      | writeMarked => apply agreed_writeMarked (ready.settled found)

end Ready

/-- A slice keeps its places. -/
theorem length_turn (s : Slice) :
  s.promote.turn.cells.length = s.cells.length
  := by
  have promoted : s.promote.cells.length = s.cells.length := by
    rw [promote]
    split
    · apply List.length_map _
    · rfl
  rw [turn]
  split
  · apply promoted
  · apply (List.length_map _).trans promoted

/-- A slice that does not wait to be read keeps the values of the modules. -/
theorem held_turn (unread : s.read = false) :
  s.promote.turn.cells.map Cell.held = s.cells.map Cell.held
  := by
  rw [promote]
  split
  · apply (held_after _ (by simp)).trans
    rw [List.map_map]
    rfl
  · rw [turn]
    cases found : s.operation? with
    | none => rfl
    | some operation =>
      apply held_after
      rintro rfl
      simp only [operation?, unread] at found
      cases write : s.write <;> cases marked : s.cells.any Cell.marked <;>
        simp [write, marked] at found

end Slice

/-! ### Slices of a collection -/

open Node

variable {M : Type} {N : Nat}

/-- A property in an entry and its node. -/
def Cell.of (d : Definition M) (x : Entry M × Engine × M) : Cell :=
  ⟨d.value x.1.module, x.1.marks.contains d.id, d.value x.2.2⟩

/-- The module after an operation. -/
def Operation.held (d : Definition M) (x : Entry M × Engine × M) : Operation → M
  | .readAll => d.given (d.value x.2.2) x.1.module
  | .broadcast | .writeMarked => x.1.module

/-- The module of the node after an operation, if the first module of the collection has the given
value. -/
def Operation.shown (d : Definition M) (first : List UInt8) (x : Entry M × Engine × M) :
    Operation → M
  | .readAll => x.2.2
  | .broadcast => d.given first x.2.2
  | .writeMarked => if x.1.marks.contains d.id then d.given (d.value x.1.module) x.2.2 else x.2.2

/-- Only if two properties have the same number on the line, one of them belongs to a set from
which the other one has been removed. -/
theorem contains_remove_of_ne (s : PropertySet) {p q : PropertyId} (differs : p.wire ≠ q.wire) :
  (s.remove p).contains q = s.contains q
  := by
  rw [PropertySet.contains_remove, decide_eq_true differs, Bool.and_true]

/-- A property that has been removed does not belong to a set. -/
theorem contains_remove_self (s : PropertySet) (p : PropertyId) :
  (s.remove p).contains p = false
  := by
  rw [PropertySet.contains_remove, decide_eq_false (fun h => h rfl), Bool.and_false]

/-- What belongs to a set with one member has the number of that member on the line. -/
theorem wire_of_contains {p q : PropertyId}
    (member : (PropertySet.empty.insert p).contains q = true) :
  p.wire = q.wire
  := by
  rw [PropertySet.contains_insert, PropertySet.contains_empty, Bool.false_or] at member
  apply of_decide_eq_true member

namespace Collection

/-- The slice of a property. -/
def slice (c : Collection M N) (d : Definition M) (nodes : List (Engine × M)) : Slice :=
  ⟨(c.entries.zip nodes).map (Cell.of d), c.reads.contains d.id, c.writes.contains d.id⟩

/-- The collection after an operation. -/
def performed (c : Collection M N) (d : Definition M) (operation : Operation)
    (nodes : List (Engine × M)) : Collection M N :=
  let entries := (c.entries.zip nodes).map fun x => { x.1 with module := operation.held d x }
  { c with entries := entries }.markClean d.id

/-- The nodes after an operation. -/
def nodesAfter (c : Collection M N) (d : Definition M) (operation : Operation)
    (nodes : List (Engine × M)) : List (Engine × M) :=
  (c.entries.zip nodes).map fun x => (x.2.1, operation.shown d (c.slice d nodes).first x)

variable {c : Collection M N} {d d' : Definition M} {nodes : List (Engine × M)}

/-- The first value of a slice is that of the first module. -/
theorem first_slice {e : Entry M} {rest : List (Entry M)} (entries : c.entries = e :: rest)
    (length : c.entries.length = nodes.length) :
  (c.slice d nodes).first = d.value e.module
  := by
  cases nodes with
  | nil =>
    rw [entries] at length
    contradiction
  | cons n others =>
    rw [slice, entries]
    rfl

/-- The slice of a property tells what is to be done for it. -/
theorem operation?_slice (length : c.entries.length ≤ nodes.length) :
  (c.slice d nodes).operation? = c.operation? d.id
  := by
  have marked : (c.slice d nodes).cells.any Cell.marked = c.anyMarked d.id := by
    have fst := congrArg (List.any · fun e => e.marks.contains d.id) (List.map_fst_zip length)
    rw [slice, List.any_map, anyMarked, ← fst, List.any_map]
    rfl
  rw [Slice.operation?, marked]
  rfl

/-- What is in the slice of a property after an operation for a property. -/
theorem slice_performed_eq (operation : Operation) :
  (c.performed d operation nodes).slice d' (c.nodesAfter d operation nodes) =
    ⟨(c.entries.zip nodes).map fun x => ⟨d'.value (operation.held d x),
        (x.1.marks.remove d.id).contains d'.id,
        d'.value (operation.shown d (c.slice d nodes).first x)⟩,
      (c.reads.remove d.id).contains d'.id, (c.writes.remove d.id).contains d'.id⟩
  := by
  simp only [slice, performed, markClean, unmarkModules, nodesAfter, List.map_map, List.zip_map',
    Slice.mk.injEq, and_true]
  rfl

/-- An operation for a property is performed on its slice. -/
theorem slice_performed (faithful : d.Faithful) (operation : Operation) :
  (c.performed d operation nodes).slice d (c.nodesAfter d operation nodes) =
    (c.slice d nodes).after operation
  := by
  rw [slice_performed_eq, Slice.after, contains_remove_self, contains_remove_self, slice,
    List.map_map, Slice.mk.injEq]
  refine ⟨List.map_congr_left fun x member => ?_, rfl, rfl⟩
  rw [contains_remove_self, Function.comp, Cell.of]
  cases operation with
  | readAll =>
    rw [Operation.held, Operation.shown, faithful.value_given]
    rfl
  | broadcast =>
    -- The value of the first module is the value of a module.
    obtain ⟨m, first⟩ : ∃ m, (c.slice d nodes).first = d.value m := by
      rw [slice, Slice.first]
      cases entries : c.entries.zip nodes with
      | nil =>
        rw [entries] at member
        contradiction
      | cons x rest => exact ⟨x.1.module, rfl⟩
    change Cell.mk _ false (d.value (d.given (c.slice d nodes).first x.2.2)) =
      Cell.mk _ false (c.slice d nodes).first
    rw [first, faithful.value_given]
    rfl
  | writeMarked =>
    rw [Operation.held, Operation.shown]
    simp only [Cell.after]
    cases x.1.marks.contains d.id with
    | true => rw [if_pos rfl, if_pos rfl, faithful.value_given]
    | false => rfl

/-- An operation for a property does nothing to the slice of another one. -/
theorem slice_performed_of_ne (spares : d.Spares d') (differs : d.id.wire ≠ d'.id.wire)
    (operation : Operation) :
  (c.performed d operation nodes).slice d' (c.nodesAfter d operation nodes) = c.slice d' nodes
  := by
  rw [slice_performed_eq, contains_remove_of_ne _ differs, contains_remove_of_ne _ differs, slice,
    Slice.mk.injEq]
  refine ⟨List.map_congr_left fun x _ => ?_, rfl, rfl⟩
  rw [contains_remove_of_ne _ differs, Cell.of]
  cases operation with
  | readAll => rw [Operation.held, Operation.shown, spares]
  | broadcast => rw [Operation.held, Operation.shown, spares]
  | writeMarked =>
    rw [Operation.held, Operation.shown]
    split
    · rw [spares]
    · rfl

/-! ### Promotion -/

/-- A collection that holds a module tells by the slice of a property whether all modules have the
same value of it. -/
theorem uniform_slice (faithful : d.Faithful) (length : c.entries.length = nodes.length)
    (some : c.entries ≠ []) :
  (c.slice d nodes).uniform = c.allEqual d
  := by
  cases entries : c.entries with
  | nil => contradiction
  | cons e rest =>
    have first := first_slice (d := d) entries length
    cases nodes with
    | nil =>
      rw [entries] at length
      contradiction
    | cons n others =>
      rw [entries] at length
      rw [Slice.uniform, first, slice, entries, allEqual, entries]
      simp only [List.zip_cons_cons, List.map_cons, List.all_cons, Cell.of, decide_true,
        Bool.true_and]
      have fst := congrArg (List.all · fun e' => decide (d.value e.module = d.value e'.module))
        (List.map_fst_zip (Nat.le_of_eq (Nat.succ.inj length)))
      rw [List.all_map] at fst ⊢
      apply fst.trans
      congr 1
      funext e'
      rw [faithful.equal?_eq]
      cases decide (d.value e.module = d.value e'.module) <;> rfl

/-- Promotion of a property promotes its slice. -/
theorem slice_promote (faithful : d.Faithful) (length : c.entries.length = nodes.length) :
  (c.promote d).2.slice d nodes = (c.slice d nodes).promote
  := by
  have marked : (c.slice d nodes).cells.any Cell.marked = c.anyMarked d.id := by
    have fst := congrArg (List.any · fun e => e.marks.contains d.id)
      (List.map_fst_zip (Nat.le_of_eq length))
    rw [slice, List.any_map, anyMarked, ← fst, List.any_map]
    rfl
  have condition : (c.anyMarked d.id && c.allEqual d) =
      ((c.slice d nodes).cells.any Cell.marked && (c.slice d nodes).uniform) := by
    rw [marked]
    cases some : c.anyMarked d.id with
    | false => rfl
    | true =>
      rw [uniform_slice faithful length]
      intro none
      rw [anyMarked, none] at some
      contradiction
  rw [promote, Slice.promote, condition]
  split
  · simp only [slice, unmarkModules, markDirty, List.zip_map_left, List.map_map, Slice.mk.injEq]
    refine ⟨List.map_congr_left fun x _ => ?_, contains_remove_self _ _, ?_⟩
    · simp only [Function.comp, Cell.of, Prod.map, id, contains_remove_self]
    · rw [PropertySet.contains_insert, decide_eq_true rfl, Bool.or_true]
  · rfl

/-- Promotion of a property does nothing to the slice of another one. -/
theorem slice_promote_of_ne (differs : d.id.wire ≠ d'.id.wire) :
  (c.promote d).2.slice d' nodes = c.slice d' nodes
  := by
  rw [promote]
  split
  · simp only [slice, unmarkModules, markDirty, List.zip_map_left, List.map_map, Slice.mk.injEq]
    refine ⟨List.map_congr_left fun x _ => ?_, contains_remove_of_ne _ differs, ?_⟩
    · simp only [Function.comp, Cell.of, Prod.map, id, contains_remove_of_ne _ differs]
    · rw [PropertySet.contains_insert, decide_eq_false differs, Bool.or_false]
  · rfl

/-! ### What remains to be done -/

/-- An operation for a property does nothing to what is to be done for another one. -/
theorem operation?_performed_of_ne {q : PropertyId} (length : c.entries.length ≤ nodes.length)
    (differs : d.id.wire ≠ q.wire) (operation : Operation) :
  (c.performed d operation nodes).operation? q = c.operation? q
  := by
  have marked : (c.performed d operation nodes).anyMarked q = c.anyMarked q := by
    have fst := congrArg (List.any · fun e => e.marks.contains q) (List.map_fst_zip length)
    rw [anyMarked, anyMarked, ← fst, List.any_map]
    simp only [performed, markClean, unmarkModules, List.any_map]
    congr 1
    funext x
    apply contains_remove_of_ne _ differs
  rw [operation?, marked]
  simp only [performed, markClean, contains_remove_of_ne _ differs]
  rfl

/-- Promotion of a property does nothing to what is to be done for another one. -/
theorem operation?_promote_of_ne {q : PropertyId} (differs : d.id.wire ≠ q.wire) :
  (c.promote d).2.operation? q = c.operation? q
  := by
  rw [promote]
  split
  · have marked : ((c.unmarkModules d.id).markDirty d.id .write).anyMarked q = c.anyMarked q := by
      simp only [anyMarked, markDirty, unmarkModules, List.any_map]
      congr 1
      funext e
      apply contains_remove_of_ne _ differs
    rw [operation?, marked]
    simp only [unmarkModules, markDirty, contains_remove_of_ne _ differs,
      PropertySet.contains_insert, decide_eq_false differs, Bool.or_false]
    rfl
  · rfl

/-- What is to be done for a property depends on its number on the line alone. -/
theorem operation?_of_wire {p q : PropertyId} (same : p.wire = q.wire) :
  c.operation? p = c.operation? q
  := by
  have member (s : PropertySet) : s.contains p = s.contains q := by
    rw [PropertySet.contains, PropertySet.contains, same]
  rw [operation?, operation?, anyMarked, anyMarked, member, member]
  simp only [member]

/-- If nothing is to be done for a property, no module waits to be written. -/
theorem anyMarked_of_none {q : PropertyId} (nothing : c.operation? q = none) :
  c.anyMarked q = false
  := by
  simp only [operation?] at nothing
  cases marked : c.anyMarked q with
  | false => rfl
  | true =>
    rw [marked] at nothing
    cases read : c.reads.contains q <;> cases write : c.writes.contains q <;>
      simp [read, write] at nothing

/-- If nothing is to be done for a property, there is nothing to promote. -/
theorem promote_of_none (nothing : c.operation? d.id = none) :
  (c.promote d).2 = c
  := by
  rw [promote, anyMarked_of_none nothing]
  rfl

/-- If nothing is to be done for any property, there is nothing to be done at all. -/
theorem isSynchronized_of_none
    (nothing : ∀ p : PropertyId, p.number.toNat < 128 → c.operation? p = none) :
  c.isSynchronized = true
  := by
  have every (p : PropertyId) : c.operation? p = none := by
    have small : (UInt8.ofNat p.wire).toNat = p.wire :=
      UInt8.toNat_ofNat_of_lt' (Nat.lt_trans p.wire_lt (by decide))
    have same : (PropertyId.mk (UInt8.ofNat p.wire)).wire = p.wire := by
      rw [PropertyId.wire, small, Nat.mod_eq_of_lt p.wire_lt]
    apply (operation?_of_wire same.symm).trans
      (nothing ⟨UInt8.ofNat p.wire⟩ (by rw [small]; exact p.wire_lt))
  have emptied (s : PropertySet) (absent : ∀ p, s.contains p = false) : s.isEmpty = true := by
    rw [PropertySet.isEmpty, beq_iff_eq]
    apply PropertySet.ext
    intro p
    rw [absent, PropertySet.contains_empty]
  rw [isSynchronized, Bool.and_eq_true_iff, Bool.and_eq_true_iff, List.all_eq_true]
  refine ⟨⟨emptied _ fun p => ?_, emptied _ fun p => ?_⟩, fun e member => emptied _ fun p => ?_⟩
  · have none := every p
    cases read : c.reads.contains p with
    | false => rfl
    | true => simp [operation?, read] at none
  · have none := every p
    cases write : c.writes.contains p with
    | false => rfl
    | true => cases read : c.reads.contains p <;> simp [operation?, read, write] at none
  · have unmarked := anyMarked_of_none (every p)
    rw [anyMarked, List.any_eq_false] at unmarked
    apply Bool.eq_false_iff.mpr (unmarked e member)

/-- If there is nothing to be done at all, nothing is to be done for any property. -/
theorem operation?_of_isSynchronized (synchronized : c.isSynchronized = true) (p : PropertyId) :
  c.operation? p = none
  := by
  rw [isSynchronized, Bool.and_eq_true_iff, Bool.and_eq_true_iff, List.all_eq_true] at synchronized
  obtain ⟨⟨reads, writes⟩, marks⟩ := synchronized
  have absent (s : PropertySet) (empty : s.isEmpty = true) : s.contains p = false := by
    rw [eq_of_beq empty, PropertySet.contains_empty]
  have unmarked : c.anyMarked p = false := by
    rw [anyMarked, List.any_eq_false]
    intro e member
    rw [absent _ (marks e member)]
    apply Bool.false_ne_true
  rw [operation?, absent _ reads, absent _ writes, unmarked]
  rfl

end Collection

/-! ### The properties of a pass -/

/-- A pass looks at the properties that the table finds. -/
theorem mem_definitions {table : Table M} {d : Definition M} :
  d ∈ definitions table ↔ table.find? d.id = some d ∧ d.id.number.toNat ≤ PropertyId.max
  := by
  rw [definitions, List.mem_filterMap]
  constructor
  · rintro ⟨i, member, found⟩
    have same := Table.id_of_find? found
    have small : i < PropertyId.max + 1 := List.mem_range.mp member
    refine ⟨by rw [same]; exact found, ?_⟩
    rw [same]
    change (UInt8.ofNat i).toNat ≤ _
    rw [UInt8.toNat_ofNat_of_lt' (Nat.lt_of_lt_of_le small (by decide))]
    apply Nat.le_of_lt_succ small
  · rintro ⟨found, real⟩
    refine ⟨d.id.number.toNat, List.mem_range.mpr (Nat.lt_succ_of_le real), ?_⟩
    rw [UInt8.ofNat_toNat]
    apply found

/-- The numbers on the line of the properties that a table has of some numbers are among these. -/
theorem sublist_wires (table : Table M) {is : List Nat} (small : ∀ i ∈ is, i < 128) :
  ((is.filterMap fun i => table.find? ⟨UInt8.ofNat i⟩).map fun d => d.id.wire).Sublist is
  := by
  induction is with
  | nil => apply List.Sublist.refl _
  | cons i is ih =>
    have rest := ih fun j member => small j (List.mem_cons_of_mem _ member)
    rw [List.filterMap_cons]
    cases found : table.find? ⟨UInt8.ofNat i⟩ with
    | none => apply rest.cons i
    | some d =>
      have below := small i List.mem_cons_self
      have wire : d.id.wire = i := by
        rw [Table.id_of_find? found, PropertyId.wire]
        change (UInt8.ofNat i).toNat % 128 = i
        rw [UInt8.toNat_ofNat_of_lt' (Nat.lt_trans below (by decide)), Nat.mod_eq_of_lt below]
      rw [List.map_cons, wire]
      apply rest.cons_cons i

/-- No two properties of a pass have the same number on the line. -/
theorem nodup_definitions (table : Table M) :
  ((definitions table).map fun d => d.id.wire).Nodup
  := by
  have sub : ((definitions table).map fun d => d.id.wire).Sublist
      (List.range (PropertyId.max + 1)) :=
    sublist_wires table fun i member => Nat.lt_trans (List.mem_range.mp member) (by decide)
  apply List.Nodup.sublist sub List.nodup_range

/-- The numbers on the line tell a property of a pass from those that come before it and behind it. -/
theorem apart_of_split {table : Table M} {d : Definition M} {front back : List (Definition M)}
    (split : definitions table = front ++ d :: back) :
  (∀ e ∈ front, e.id.wire ≠ d.id.wire) ∧ ∀ e ∈ back, e.id.wire ≠ d.id.wire
  := by
  have nodup := nodup_definitions table
  rw [split, List.map_append, List.map_cons, List.nodup_append, List.nodup_cons] at nodup
  obtain ⟨-, ⟨absent, -⟩, apart⟩ := nodup
  refine ⟨fun e among => ?_, fun e among same => ?_⟩
  · apply apart _ (List.mem_map_of_mem among) _ List.mem_cons_self
  · rw [← same] at absent
    apply absent (List.mem_map_of_mem among)

/-- What comes before a property of a pass and behind it belongs to the pass, too. -/
theorem mem_of_split {table : Table M} {d : Definition M} {front back : List (Definition M)}
    (split : definitions table = front ++ d :: back) :
  (∀ e ∈ front, e ∈ definitions table) ∧ ∀ e ∈ back, e ∈ definitions table
  := by
  rw [split]
  exact ⟨fun e among => List.mem_append_left _ among,
    fun e among => List.mem_append_right _ (List.mem_cons_of_mem _ among)⟩

/-- The numbers on the line tell the properties of a pass apart. -/
theorem exists_split_definitions {table : Table M} {d : Definition M}
    (member : d ∈ definitions table) :
  ∃ front back, definitions table = front ++ d :: back ∧
    (∀ e ∈ front, e.id.wire ≠ d.id.wire) ∧ ∀ e ∈ back, e.id.wire ≠ d.id.wire
  := by
  obtain ⟨front, back, split⟩ := List.append_of_mem member
  exact ⟨front, back, split, apart_of_split split⟩

section Promotions

variable {c : Collection M N} {d : Definition M} {nodes : List (Engine × M)}

/-- Promotion adds no module and takes none away. -/
theorem length_promotions (ds : List (Definition M)) (c : Collection M N) :
  (ds.foldl (fun c d => (c.promote d).2) c).entries.length = c.entries.length
  := by
  induction ds generalizing c with
  | nil => rfl
  | cons d ds ih =>
    apply (ih _).trans
    simp only [Collection.promote]
    split
    · apply List.length_map _
    · rfl

/-- Promotion of other properties does nothing to a slice. -/
theorem slice_promotions_of_ne {ds : List (Definition M)}
    (apart : ∀ e ∈ ds, e.id.wire ≠ d.id.wire) :
  (ds.foldl (fun c d => (c.promote d).2) c).slice d nodes = c.slice d nodes
  := by
  induction ds generalizing c with
  | nil => rfl
  | cons e ds ih =>
    apply (ih fun other member => apart other (List.mem_cons_of_mem _ member)).trans
    apply Collection.slice_promote_of_ne (apart e List.mem_cons_self)

/-- Promotion of all properties promotes the slice of each of them. -/
theorem slice_promoteAll {table : Table M} (faithful : d.Faithful) (member : d ∈ definitions table)
    (length : c.entries.length = nodes.length) :
  (promoteAll table c).slice d nodes = (c.slice d nodes).promote
  := by
  obtain ⟨front, back, split, before, behind⟩ := exists_split_definitions member
  rw [promoteAll, split, List.foldl_append, List.foldl_cons, slice_promotions_of_ne behind,
    Collection.slice_promote faithful ((length_promotions front c).trans length),
    slice_promotions_of_ne before]

/-- Promotion leaves alone what is not to be done. -/
theorem operation?_promotions_of_none {q : PropertyId} (ds : List (Definition M))
    (nothing : c.operation? q = none) :
  (ds.foldl (fun c d => (c.promote d).2) c).operation? q = none
  := by
  induction ds generalizing c with
  | nil => apply nothing
  | cons d ds ih =>
    apply ih
    by_cases same : d.id.wire = q.wire
    · have none := (Collection.operation?_of_wire (c := c) same).trans nothing
      apply (congrArg (fun c : Collection M N => c.operation? q)
        (Collection.promote_of_none none)).trans nothing
    · apply (Collection.operation?_promote_of_ne same).trans nothing

/-- If nothing is to be done for any property, there is nothing to promote. -/
theorem promotions_of_none {ds : List (Definition M)}
    (nothing : ∀ d ∈ ds, c.operation? d.id = none) :
  ds.foldl (fun c d => (c.promote d).2) c = c
  := by
  induction ds with
  | nil => rfl
  | cons d ds ih =>
    rw [List.foldl_cons, Collection.promote_of_none (nothing d List.mem_cons_self)]
    apply ih fun other member => nothing other (List.mem_cons_of_mem _ member)

end Promotions

end DaisyChain.Gateway
