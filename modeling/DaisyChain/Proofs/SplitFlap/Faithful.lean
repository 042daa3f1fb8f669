import DaisyChain.Proofs.Property.Conveying
import DaisyChain.Proofs.SplitFlap.Layouts

/-!
# The faithful properties of a split-flap module

Those properties of a split-flap module that travel both ways are faithful, and none of them
interferes with another (`carries_table`).  Both follow from what holds of their fields: each of them
is exact, and every value of it has bytes (`Field.Exact.faithful`).
-/

namespace DaisyChain.SplitFlap

namespace Field

variable {α : Type} {f : Field α} {normal : List UInt8 → List UInt8}

section Total

variable {d : Definition Module}

/-- A module sends a value of an exact field whose values all have bytes. -/
theorem Exact.serialize_eq_value (exact : f.Exact d.size normal) (total : ∀ v, (f.encode v).isSome)
    (get : d.get = some f.get) (m : Module) :
  d.serialize m = .ok (d.value m)
  := by
  obtain ⟨bytes, encoded⟩ := Option.isSome_iff_exists.mp (total (f.read m))
  obtain ⟨data, -, sent⟩ := exact.exists_serialize get encoded
  rw [Definition.value, sent]

/-- Every module takes what another one sends of such a field, and holds the same value then. -/
theorem Exact.deserialize_value (exact : f.Exact d.size normal) (total : ∀ v, (f.encode v).isSome)
    (get : d.get = some f.get) (set : d.set = some f.set) (m m' : Module) :
  d.deserialize (d.value m) m' = (.ok (), f.write (f.read m) m')
  := (exact.deserialize_of_serialize get set (exact.serialize_eq_value total get m) m').2

/-- What modules send of such a field tells their values apart. -/
theorem Exact.value_eq_iff (exact : f.Exact d.size normal) (total : ∀ v, (f.encode v).isSome)
    (get : d.get = some f.get) (set : d.set = some f.set) (m m' : Module) :
  d.value m = d.value m' ↔ f.read m = f.read m'
  := by
  constructor
  · intro same
    have first := exact.deserialize_value total get set m m
    have second := exact.deserialize_value total get set m' m
    rw [same, second] at first
    have written := congrArg (fun r => f.read r.2) first
    simp only [exact.read_write] at written
    apply written.symm
  · intro same
    apply Definition.value_of_serialize (serialize_congr get same)

end Total

/-- A property of an exact field that travels both ways is faithful, if all values have bytes. -/
theorem Exact.faithful [DecidableEq α] {size : PropertySize} (exact : f.Exact size normal)
    (total : ∀ v, (f.encode v).isSome) (number : UInt8) (name : String) :
  (f.comparable number name .readWrite size).Faithful
  := by
  have exact' : f.Exact (f.comparable number name .readWrite size).size normal := exact
  have taken := exact'.deserialize_value total rfl rfl
  have alike := exact'.value_eq_iff total rfl rfl
  constructor
  · rfl
  · rfl
  · rfl
  · rfl
  · apply exact'.serialize_eq_value total rfl
  · intro m m'
    rw [taken]
  · intro m m'
    rw [Definition.given, taken, alike, exact.read_write]
  · intro m m'
    simp only [alike]
    rfl

/-- A field that another one does not touch is laid out as before after that has been written. -/
theorem leaves {β : Type} {f' : Field β} {d d' : Definition Module} (set : d.set = some f.set)
    (get : d'.get = some f'.get) (apart : ∀ v m, f'.read (f.write v m) = f'.read m) :
  d.Leaves d'
  := by
  have untouched (data : List UInt8) (m : Module) : f'.read (d.given data m) = f'.read m := by
    rw [Definition.given, Definition.deserialize, set]
    simp only
    split
    · rfl
    · next value _ =>
      cases decoded : f.decode value with
      | none => simp only [Field.set, decoded]
      | some v => simp only [Field.set, decoded, apart]
  intro data m
  apply serialize_congr get (untouched data m)

end Field

/-! ### The table -/

/-- The properties that travel both ways. -/
def BothWays (p : PropertyId) : Prop :=
  4 ≤ p.number.toNat ∧ p.number.toNat ≤ 10

/-- The definitions of the properties that travel both ways. -/
def bothWays : List (Definition Module) :=
  [characterSet, character, offset, color, motion, minimumRotation, irThreshold]

/-- A property that travels both ways has one of these definitions. -/
theorem exists_bothWays {p : PropertyId} (carried : BothWays p) :
  ∃ d ∈ bothWays, table.find? p = some d
  := by
  obtain ⟨n⟩ := p
  obtain ⟨low, high⟩ := carried
  have number : n.toNat = 4 ∨ n.toNat = 5 ∨ n.toNat = 6 ∨ n.toNat = 7 ∨ n.toNat = 8 ∨
      n.toNat = 9 ∨ n.toNat = 10 := by
    simp only at low high
    omega
  have named (k : UInt8) (same : n.toNat = k.toNat) : n = k := UInt8.toNat_inj.mp same
  rcases number with h | h | h | h | h | h | h
  · exact ⟨characterSet, by simp [bothWays], by rw [named 4 h]; rfl⟩
  · exact ⟨character, by simp [bothWays], by rw [named 5 h]; rfl⟩
  · exact ⟨offset, by simp [bothWays], by rw [named 6 h]; rfl⟩
  · exact ⟨color, by simp [bothWays], by rw [named 7 h]; rfl⟩
  · exact ⟨motion, by simp [bothWays], by rw [named 8 h]; rfl⟩
  · exact ⟨minimumRotation, by simp [bothWays], by rw [named 9 h]; rfl⟩
  · exact ⟨irThreshold, by simp [bothWays], by rw [named 10 h]; rfl⟩

/-- These definitions are faithful. -/
theorem faithful_bothWays :
  ∀ d ∈ bothWays, d.Faithful
  := by
  intro d member
  simp only [bothWays, List.mem_cons, List.not_mem_nil, or_false] at member
  rcases member with rfl | rfl | rfl | rfl | rfl | rfl | rfl
  · apply exact_characterSetField.faithful fun _ => rfl
  · apply exact_characterField.faithful fun _ => rfl
  · apply exact_offsetField.faithful fun _ => rfl
  · apply exact_colorField.faithful fun _ => rfl
  · apply exact_motionField.faithful fun _ => rfl
  · apply exact_minimumRotationField.faithful fun _ => rfl
  · apply exact_irThresholdField.faithful fun _ => rfl

/-- No property of the table touches what another one is laid out as. -/
theorem leaves_table :
  ∀ d ∈ table.definitions, ∀ d' ∈ table.definitions, d.id ≠ d'.id → d.Leaves d'
  := by
  intro d member d' member' differs
  simp only [table, List.mem_cons, List.not_mem_nil, or_false] at member member'
  -- A field is not written but by its own definition.
  rcases member with rfl | rfl | rfl | rfl | rfl | rfl | rfl | rfl | rfl | rfl | rfl <;>
    rcases member' with rfl | rfl | rfl | rfl | rfl | rfl | rfl | rfl | rfl | rfl | rfl <;>
    first
    | exact absurd rfl differs
    | exact Field.leaves rfl rfl fun _ _ => rfl

/-- The table carries the properties that travel both ways. -/
theorem carries_table :
  table.Carries BothWays
  := by
  constructor
  · intro p carried
    apply Nat.le_trans carried.2 (by decide)
  · intro p carried
    obtain ⟨d, member, found⟩ := exists_bothWays carried
    exact ⟨d, found, faithful_bothWays d member⟩
  · intro p q d d' carried carried' differs found found'
    obtain ⟨_, member, same⟩ := exists_bothWays carried
    obtain ⟨_, member', same'⟩ := exists_bothWays carried'
    rw [found] at same
    rw [found'] at same'
    cases same
    cases same'
    apply (leaves_table d (List.mem_of_find?_eq_some found) d'
      (List.mem_of_find?_eq_some found') _).spares
    rw [Table.id_of_find? found, Table.id_of_find? found']
    apply differs

end DaisyChain.SplitFlap
