import DaisyChain.Node.Engine

/-!
# Values held back

A value that is held back takes the place of an older one of its property, or a place of its own
(`hold`).  If there is no place for it, it is dropped, and the node has a fault to report
(`Engine.stage_full`).

So of many values that come one after the other, the last one of each property is held back, for as
many properties as there are places (`Engine.stage_lastValues`).
-/

namespace DaisyChain.Node

/-- Among the values held back, the given one is the only one of its property, and the others are
those that were held back before. -/
structure Holding (slot : Slot) (before after : List Slot) : Prop where
  held : slot ∈ after
  only : ∀ other ∈ after, other.property = slot.property → other = slot
  others : (after.filter fun other => other.property ≠ slot.property) =
    before.filter fun other => other.property ≠ slot.property

/-- The engine can hold a value of the property back: it holds one back already, or it has a place
left. -/
def Engine.HasRoom (e : Engine) (property : PropertyId) : Prop :=
  (∃ slot ∈ e.staged, slot.property = property) ∨ e.staged.length < slotsMax

/-- The values held back once the given one is among them. -/
def hold (slot : Slot) (staged : List Slot) : List Slot :=
  if staged.any fun held => held.property == slot.property then
    staged.map fun held => if held.property == slot.property then slot else held
  else
    staged ++ [slot]

/-- A value takes the place of an older one of its property, or a place of its own. -/
theorem holding_hold (slot : Slot) (staged : List Slot) :
  Holding slot staged (hold slot staged)
  := by
  rw [hold]
  split
  · next older =>
    constructor
    · obtain ⟨other, member, same⟩ := List.any_eq_true.mp older
      exact List.mem_map.mpr ⟨other, member, if_pos same⟩
    · intro other member same
      obtain ⟨held, -, rfl⟩ := List.mem_map.mp member
      split at same
      · next here => rw [if_pos here]
      · next differs => exact absurd (beq_iff_eq.mpr same) differs
    · rw [List.filter_map]
      have same (held : Slot) : (if held.property == slot.property then slot else held).property =
          held.property := by
        split
        · next here => apply (beq_iff_eq.mp here).symm
        · rfl
      simp only [Function.comp_def, same]
      refine Eq.trans (List.map_congr_left fun held member => ?_) (List.map_id _)
      have differs := of_decide_eq_true (List.mem_filter.mp member).2
      apply if_neg fun here => differs (beq_iff_eq.mp here)
  · next new =>
    constructor
    · apply List.mem_append_right _ (List.mem_singleton_self _)
    · intro other member same
      rcases List.mem_append.mp member with before | last
      · exact (new (List.any_eq_true.mpr ⟨other, before, beq_iff_eq.mpr same⟩)).elim
      · apply List.mem_singleton.mp last
    · simp

/-- An engine with room for a value holds it back, and is otherwise as it was. -/
theorem Engine.stage_eq {e : Engine} (slot : Slot) (room : e.HasRoom slot.property) :
  e.stage slot = { e with staged := hold slot e.staged }
  := by
  rw [stage, hold]
  split
  · rfl
  · next new =>
    have left : e.staged.length < slotsMax := by
      refine room.resolve_left ?_
      rintro ⟨other, member, same⟩
      exact new (List.any_eq_true.mpr ⟨other, member, beq_iff_eq.mpr same⟩)
    rw [if_pos left]

/-- An engine without room for a value drops it, and has a fault to report. -/
theorem Engine.stage_full {e : Engine} (slot : Slot) (full : ¬e.HasRoom slot.property) :
  e.stage slot = e.note .invalidState
  := by
  obtain ⟨new, none⟩ := not_or.mp full
  have unheld : ¬(e.staged.any fun held => held.property == slot.property) = true := by
    rw [List.any_eq_true]
    rintro ⟨other, member, same⟩
    exact new ⟨other, member, beq_iff_eq.mp same⟩
  rw [stage, if_neg unheld, if_neg none]

/-! ### Many values -/

/-- The last of the given values that is of a property. -/
def lastOf (values : List Slot) (property : PropertyId) : Option Slot :=
  values.reverse.find? fun slot => slot.property == property

/-- The first few properties of the given values, in the order in which they first occur. -/
def firstProperties (values : List Slot) : List PropertyId :=
  (values.map Slot.property).eraseDups.take slotsMax

/-- Of the given values, the last one of each of the first few properties. -/
def lastValues (values : List Slot) : List Slot :=
  (firstProperties values).filterMap (lastOf values)

/-- The last value of a property is of this property. -/
theorem property_of_lastOf {values : List Slot} {property : PropertyId} {slot : Slot}
    (is : lastOf values property = some slot) :
  slot.property = property
  := by
  rw [lastOf] at is
  simpa using List.find?_some is

/-- After one more value, this is the last one of its property. -/
theorem lastOf_append (values : List Slot) (slot : Slot) (property : PropertyId) :
  lastOf (values ++ [slot]) property =
    if slot.property == property then some slot else lastOf values property
  := by
  rw [lastOf, List.reverse_concat, List.find?_cons, lastOf]
  cases slot.property == property <;> rfl

/-- There is a last value of every property of which there is a value. -/
theorem exists_lastOf {values : List Slot} {property : PropertyId}
    (member : property ∈ firstProperties values) :
  ∃ slot, lastOf values property = some slot
  := by
  have present := List.mem_eraseDups.mp (List.mem_of_mem_take member)
  obtain ⟨slot, inside, rfl⟩ := List.mem_map.mp present
  apply Option.isSome_iff_exists.mp
  rw [lastOf, List.find?_isSome]
  exact ⟨slot, List.mem_reverse.mpr inside, beq_self_eq_true _⟩

/-- The last values are of the first few properties, one of each. -/
theorem properties_lastValues (values : List Slot) :
  (lastValues values).map Slot.property = firstProperties values
  := by
  have each : ∀ properties : List PropertyId,
      (∀ property ∈ properties, property ∈ firstProperties values) →
      (properties.filterMap (lastOf values)).map Slot.property = properties := by
    intro properties inside
    induction properties with
    | nil => rfl
    | cons property rest ih =>
      obtain ⟨first, others⟩ := List.forall_mem_cons.mp inside
      obtain ⟨slot, is⟩ := exists_lastOf first
      rw [List.filterMap_cons_some is, List.map_cons, property_of_lastOf is, ih others]
  exact each _ fun property member => member

/-- Last values of other properties are not affected by one more value. -/
theorem filterMap_lastOf_append {properties : List PropertyId} {slot : Slot}
    (other : slot.property ∉ properties) (values : List Slot) :
  properties.filterMap (lastOf (values ++ [slot])) = properties.filterMap (lastOf values)
  := by
  induction properties with
  | nil => rfl
  | cons property rest ih =>
    rw [List.mem_cons, not_or] at other
    have first : lastOf (values ++ [slot]) property = lastOf values property := by
      rw [lastOf_append, if_neg (fun same => other.1 (beq_iff_eq.mp same))]
    rw [List.filterMap_cons, List.filterMap_cons, first, ih other.2]

/-- One more value of a property takes the place of the last one. -/
theorem map_lastOf_append {properties : List PropertyId} {values : List Slot}
    (inside : ∀ property ∈ properties, property ∈ firstProperties values) (slot : Slot) :
  properties.filterMap (lastOf (values ++ [slot])) =
    (properties.filterMap (lastOf values)).map fun held =>
      if held.property == slot.property then slot else held
  := by
  induction properties with
  | nil => rfl
  | cons property rest ih =>
    obtain ⟨first, others⟩ := List.forall_mem_cons.mp inside
    obtain ⟨held, is⟩ := exists_lastOf first
    have last : lastOf (values ++ [slot]) property =
        some (if held.property == slot.property then slot else held) := by
      rw [lastOf_append, is, property_of_lastOf is, Bool.beq_comm, apply_ite some]
    rw [List.filterMap_cons_some last, List.filterMap_cons_some is, List.map_cons, ih others]

/-- One more value of one of the first few properties does not change these. -/
theorem firstProperties_append_of_mem {values : List Slot} {slot : Slot}
    (member : slot.property ∈ firstProperties values) :
  firstProperties (values ++ [slot]) = firstProperties values
  := by
  have before := List.mem_eraseDups.mp (List.mem_of_mem_take member)
  have none : ((([slot] : List Slot).map Slot.property).removeAll
      (values.map Slot.property)) = [] := by
    apply List.filter_eq_nil_iff.mpr
    intro property is
    rw [List.mem_singleton.mp is]
    simpa only [Bool.not_eq_true, Bool.not_eq_false', List.elem_eq_mem, decide_eq_true_eq]
      using before
  rw [firstProperties, List.map_append, List.eraseDups_append, none, List.eraseDups_nil,
    List.append_nil, firstProperties]

/-- If there are as many properties as places, one more value does not change the first few. -/
theorem firstProperties_append_of_full {values : List Slot}
    (full : slotsMax ≤ (firstProperties values).length) (slot : Slot) :
  firstProperties (values ++ [slot]) = firstProperties values
  := by
  rw [firstProperties, List.length_take] at full
  rw [firstProperties, List.map_append, List.eraseDups_append,
    List.take_append_of_le_length (by omega), firstProperties]

/-- If there are fewer properties than places, the property of one more value follows them, unless
it is one of them. -/
theorem firstProperties_append_of_new {values : List Slot} {slot : Slot}
    (new : slot.property ∉ firstProperties values)
    (room : (firstProperties values).length < slotsMax) :
  firstProperties (values ++ [slot]) = firstProperties values ++ [slot.property]
  := by
  have few : (values.map Slot.property).eraseDups.length < slotsMax := by
    rw [firstProperties, List.length_take] at room
    omega
  rw [firstProperties, List.take_of_length_le (Nat.le_of_lt few), List.mem_eraseDups] at new
  have itself : ((([slot] : List Slot).map Slot.property).removeAll
      (values.map Slot.property)).eraseDups = [slot.property] := by
    have kept : ((([slot] : List Slot).map Slot.property).removeAll (values.map Slot.property)) =
        [slot.property] := by
      apply List.filter_eq_self.mpr
      intro property is
      rw [List.mem_singleton.mp is]
      simpa only [Bool.not_eq_true', List.elem_eq_mem, decide_eq_false_iff_not] using new
    rw [kept]
    rfl
  rw [firstProperties, List.map_append, List.eraseDups_append, firstProperties,
    List.take_of_length_le (Nat.le_of_lt few), itself, List.take_of_length_le]
  rw [List.length_append]
  exact few

/-- What an engine holds back after one more value. -/
theorem Engine.stage_lastValues {e : Engine} {values : List Slot}
    (held : e.staged = lastValues values) (slot : Slot) :
  (e.stage slot).staged = lastValues (values ++ [slot])
  := by
  have properties : e.staged.map Slot.property = firstProperties values := by
    rw [held, properties_lastValues]
  have older : (e.staged.any fun held => held.property == slot.property) = true ↔
      slot.property ∈ firstProperties values := by
    rw [← properties, List.any_eq_true, List.mem_map]
    simp only [beq_iff_eq]
  have places : e.staged.length = (firstProperties values).length := by
    rw [← properties, List.length_map]
  rw [stage]
  split
  · next member =>
    rw [lastValues, firstProperties_append_of_mem (older.mp member),
      map_lastOf_append (fun property member => member), held, lastValues]
  · next new =>
    replace new := new ∘ older.mpr
    split
    · next room =>
      rw [places] at room
      rw [lastValues, firstProperties_append_of_new new room, List.filterMap_append,
        filterMap_lastOf_append new, held, lastValues, List.filterMap_cons, lastOf_append,
        beq_self_eq_true, if_pos rfl, List.filterMap_nil]
    · next full =>
      rw [places] at full
      rw [lastValues, firstProperties_append_of_full (Nat.le_of_not_lt full),
        filterMap_lastOf_append new]
      exact held

end DaisyChain.Node
