import DaisyChain.Proofs.Node.Commits
import DaisyChain.Proofs.Node.Slots
import DaisyChain.Proofs.SplitFlap.Comparing
import Mathlib.Data.List.Induction

/-!
# Values that are refused

Whether a module accepts a value depends on the bytes alone.  Either every module refuses them, for
the same reason, and is left exactly as it was; or every module accepts them, holds the item that they
bring, and all its other items as before (`Item.deserialize_all`).

So of the values that a node applies in turn, its module keeps the last accepted one of each property,
and all items of which no value was accepted (`Keeps`).  No order of values and no refusal in between
can leave a part of a value behind.
-/

namespace DaisyChain.SplitFlap

open Node

/-! ### Items that are copied -/

namespace Item

/-- Items are those of different properties. -/
theorem eq_of_id_eq {p q : Item} (same : p.definition.id = q.definition.id) :
  p = q
  := by
  cases p <;> cases q <;> first | rfl | exact absurd same (by decide)

/-- A module that has been given an item holds it. -/
theorem copy_copy (p : Item) (a b c : Module) :
  p.copy (p.copy a b) (p.copy a c) = p.copy a c
  := by cases p <;> rfl

/-- Different items may be copied in any order. -/
theorem copy_comm {p q : Item} (differ : p ≠ q) (a b c : Module) :
  p.copy a (q.copy b c) = q.copy b (p.copy a c)
  := by
  cases p <;> cases q <;> first | rfl | exact absurd rfl differ

/-- A value is refused by every module, which is left as it was, or it brings the same item to every
module, and nothing else. -/
theorem deserialize_all (p : Item) (data : List UInt8) :
  (∃ e, ∀ m, p.definition.deserialize data m = (.error e, m)) ∨
  ∃ source, ∀ m, p.definition.deserialize data m = (.ok (), p.copy source m)
  := by
  obtain ⟨α, f, held⟩ := p.exists_heldIn
  cases unwrapped : p.definition.size.unwrap data with
  | error e => exact .inl ⟨_, Definition.deserialize_of_unwrap_error held.set unwrapped⟩
  | ok bytes =>
    have handled := Definition.deserialize_of_unwrap held.set unwrapped
    cases decoded : f.decode bytes with
    | none =>
      refine .inl ⟨.handler, fun m => ?_⟩
      rw [handled, Field.set, decoded]
      rfl
    | some v =>
      refine .inr ⟨f.write v default, fun m => ?_⟩
      rw [handled, Field.set, decoded, ← held.copies, held.exact.read_write]
      rfl

end Item

/-! ### Values that are applied -/

/-- The node of a module accepts a value.  This does not depend on the module (`applySlot_all`). -/
def accepted (m : Module) (slot : Slot) : Bool :=
  (applySlot table slot m).1.isOk

/-- A value that a node applies is refused by every module, which is left as it was, or it brings the
same item to every module, and nothing else. -/
theorem applySlot_all (slot : Slot) :
  (∃ fault, ∀ m, applySlot table slot m = (.error fault, m)) ∨
  ∃ p : Item, p.definition.id = slot.property ∧ ∃ source, ∀ m,
    applySlot table slot m = (.ok (), p.copy source m) ∧
    p.definition.given slot.data m = p.copy source m
  := by
  cases found : table.find? slot.property with
  | none =>
    refine .inl ⟨.propertyNotSupported, fun m => ?_⟩
    simp only [applySlot, found]
  | some d =>
    obtain ⟨p, rfl⟩ := exists_item (List.mem_of_find?_eq_some found)
    cases writable : p.definition.access.writable with
    | false =>
      refine .inl ⟨.writeNotSupported, fun m => ?_⟩
      simp [applySlot, found, writable]
    | true =>
      have applied (m : Module) : applySlot table slot m =
          ((p.definition.deserialize slot.data m).1.mapError writeFault,
            (p.definition.deserialize slot.data m).2) := by
        simp only [applySlot, found, writable, if_true]
      rcases p.deserialize_all slot.data with ⟨e, refuses⟩ | ⟨source, takes⟩
      · refine .inl ⟨writeFault e, fun m => ?_⟩
        rw [applied, refuses]
        rfl
      · refine .inr ⟨p, Table.id_of_find? found, source, fun m => ⟨?_, ?_⟩⟩
        · rw [applied, takes]
          rfl
        · rw [Definition.given, takes]

/-- Where a module has an item from, once it has been given some values: the last one of them that is
of the item's property and accepted, or else the module as it was before. -/
def origin (slots : List Slot) (before : Module) (p : Item) : Module :=
  match lastOf (slots.filter (accepted before)) p.definition.id with
  | none => before
  | some slot => p.definition.given slot.data before

/-- Of the given values, a module has kept the last accepted one of each property, and it has kept the
items of which no value was accepted. -/
def Keeps (slots : List Slot) (before after : Module) : Prop :=
  ∀ p : Item, p.copy (origin slots before p) after = after

/-- A module keeps what it is given last. -/
theorem Keeps.applySlot {slots : List Slot} {before after : Module} (keeps : Keeps slots before after)
    (slot : Slot) :
  Keeps (slots ++ [slot]) before (applySlot table slot after).2
  := by
  intro p
  rcases applySlot_all slot with ⟨fault, refuses⟩ | ⟨q, property, source, takes⟩
  · have refused : ¬accepted before slot = true := by simp [accepted, refuses, Except.isOk, Except.toBool]
    rw [origin, List.filter_append, List.filter_cons_of_neg refused, List.filter_nil, List.append_nil,
      refuses]
    apply keeps p
  · have taken : accepted before slot = true := by simp [accepted, takes, Except.isOk, Except.toBool]
    obtain ⟨applied, -⟩ := takes after
    rw [applied, origin, List.filter_append, List.filter_cons_of_pos taken, List.filter_nil,
      lastOf_append]
    by_cases same : p = q
    · subst same
      rw [if_pos (beq_iff_eq.mpr property.symm)]
      simp only [(takes before).2]
      apply p.copy_copy
    · have other : ¬(slot.property == p.definition.id) = true := by
        rw [beq_iff_eq, ← property]
        exact fun is => same (Item.eq_of_id_eq is.symm)
      rw [if_neg other, ← origin, Item.copy_comm same, keeps p]

/-- A module to which values are applied in turn has kept the last accepted one of each property. -/
theorem keeps_applyAll (slots : List Slot) (m : Module) :
  Keeps slots m (applyAll table slots m).2
  := by
  rw [applyAll_eq]
  induction slots using List.reverseRecOn with
  | nil => exact fun p => p.copy_self m
  | append_singleton rest slot ih =>
    rw [List.foldl_append]
    apply ih.applySlot

/-- A value that is refused leaves the module exactly as it was.  So a node that applies values changes
the items of those that are accepted, and these alone; while its last byte has not left, it changes
nothing. -/
theorem refusal_changes_nothing :
  (∀ d ∈ table.definitions, ∀ (data : List UInt8) (m : Module) (e : PropertyError),
    (d.deserialize data m).1 = .error e → (d.deserialize data m).2 = m) ∧
  ∀ (s : Station Module) (batch : Batch) (now : UInt32), s.engine.phase = .committing batch →
    (s.wiring.drained = true → Keeps (batch.slots s.engine) s.module (s.tick table now).module) ∧
    (s.wiring.drained = false → (s.tick table now).module = s.module)
  := by
  constructor
  · intro d member data m e refused
    obtain ⟨p, rfl⟩ := exists_item member
    rcases p.deserialize_all data with ⟨e', refuses⟩ | ⟨source, takes⟩
    · rw [refuses]
    · rw [takes] at refused
      contradiction
  · intro s batch now committing
    have module : (s.tick table now).module =
        (s.engine.commit table now batch s.wiring.drained s.module).2 := by
      simp only [Station.tick, committing]
    rw [module]
    constructor
    · intro drained
      rw [drained, module_commit, ← module_applyAll]
      apply keeps_applyAll
    · intro stuck
      by_cases idle : batch = .staged ∧ s.engine.staged = []
      · rw [stuck, idle.1, Engine.commit_bare table now idle.2]
      · rw [stuck, Engine.commit_stalled table now idle]

/-- Of an index, a command that there is not and a character set that is cut short, a node that commits
them keeps the index. -/
theorem refusal_changes_nothing_three :
  let index : Slot := ⟨character.id, [7]⟩
  let unknown : Slot := ⟨command.id, [9]⟩
  let short : Slot := ⟨characterSet.id, [3, 0, 65, 0, 0]⟩
  let s : Station Module :=
    { engine := { phase := .committing .staged, staged := [unknown, index, short] },
      module := { offset := 3 } }
  (command.deserialize unknown.data s.module).2 = s.module ∧
    Keeps [unknown, index, short] s.module (s.tick table 0).module ∧
    [unknown, index, short].filter (accepted s.module) = [index] ∧
    ({ s with wiring := { drained := false } }.tick table 0).module = s.module
  := by
  intro index unknown short s
  have known : command ∈ table.definitions := by simp [table]
  have commits (wiring : Wiring) :=
    refusal_changes_nothing.2 { s with wiring := wiring } .staged 0 rfl
  exact ⟨refusal_changes_nothing.1 command known unknown.data s.module .handler rfl,
    (commits {}).1 rfl, rfl, (commits { drained := false }).2 rfl⟩

end DaisyChain.SplitFlap
