import DaisyChain.Property.Table

/-!
# Faithful properties

A property is faithful if every module has a value of it, every value is taken by every module
and found there again, and modules are compared by their values (`Definition.Faithful`).  The
value of a module is then all that travels: `Definition.value`.

A table carries some properties if all of them are faithful and none of them interferes with
another (`Table.Carries`).
-/

namespace DaisyChain

variable {M : Type}

/-- A value that is laid out fits a frame. -/
theorem PropertySize.length_wrap {size : PropertySize} {bytes data : List UInt8}
    (wrapped : size.wrap bytes = .ok data) :
  data.length ≤ valueMax
  := by
  cases size with
  | static length =>
    simp only [wrap] at wrapped
    split at wrapped
    · contradiction
    · split at wrapped
      · contradiction
      · cases wrapped
        omega
  | dynamic =>
    simp only [wrap] at wrapped
    split at wrapped
    · contradiction
    · cases wrapped
      rw [List.length_append, LittleEndian.length_bytes]
      omega

namespace Definition

/-- A value of the right size is handed to the module. -/
theorem deserialize_of_unwrap {d : Definition M} {set : List UInt8 → M → Bool × M}
    (settable : d.set = some set) {data value : List UInt8}
    (unwrapped : d.size.unwrap data = .ok value) (m : M) :
  d.deserialize data m =
    (if (set value m).1 then .ok () else .error .handler, (set value m).2)
  := by
  rw [deserialize, settable]
  simp only [unwrapped]
  rcases set value m with ⟨_ | _, m'⟩ <;> rfl

/-- Data of another size do not reach the module. -/
theorem deserialize_of_unwrap_error {d : Definition M} {set : List UInt8 → M → Bool × M}
    (settable : d.set = some set) {data : List UInt8} {error : PropertySize.Error}
    (unwrapped : d.size.unwrap data = .error error) (m : M) :
  d.deserialize data m = (.error (.size error), m)
  := by
  rw [deserialize, settable]
  simp only [unwrapped]

/-- The value of a module, as it is laid out for a frame; nothing if there is none. -/
def value (d : Definition M) (m : M) : List UInt8 :=
  match d.serialize m with
  | .ok data => data
  | .error _ => []

/-- The module after it has been given the value of another one. -/
def given (d : Definition M) (data : List UInt8) (m : M) : M :=
  (d.deserialize data m).2

/-- A property that travels both ways, without loss. -/
structure Faithful (d : Definition M) : Prop where
  readable : d.access.readable = true
  writable : d.access.writable = true
  gettable : d.get.isSome
  settable : d.set.isSome
  serialize_eq : ∀ m, d.serialize m = .ok (d.value m)
  takes : ∀ m m', (d.deserialize (d.value m) m').1 = .ok ()
  value_given : ∀ m m', d.value (d.given (d.value m) m') = d.value m
  equal?_eq : ∀ m m', d.equal? m m' = some (decide (d.value m = d.value m'))

/-- Giving a module a value of one property does not change its value of another one. -/
def Spares (d d' : Definition M) : Prop :=
  ∀ data m, d'.value (d.given data m) = d'.value m

/-- A value of a module is something laid out. -/
theorem exists_wrap {d : Definition M} {m : M} {data : List UInt8}
    (value : d.serialize m = .ok data) :
  ∃ bytes, d.size.wrap bytes = .ok data
  := by
  rw [serialize] at value
  split at value
  · contradiction
  · split at value
    · contradiction
    · next bytes _ =>
      split at value
      · contradiction
      · cases wrapped : d.size.wrap bytes with
        | error e =>
          rw [wrapped] at value
          contradiction
        | ok out =>
          rw [wrapped] at value
          cases value
          exact ⟨bytes, wrapped⟩

/-- The value of a faithful property fits a frame. -/
theorem Faithful.length_value {d : Definition M} (faithful : d.Faithful) (m : M) :
  (d.value m).length ≤ valueMax
  := by
  obtain ⟨bytes, wrapped⟩ := exists_wrap (faithful.serialize_eq m)
  apply PropertySize.length_wrap wrapped

/-- A module takes the value of another one. -/
theorem Faithful.deserialize_value {d : Definition M} (faithful : d.Faithful) (m m' : M) :
  d.deserialize (d.value m) m' = (.ok (), d.given (d.value m) m')
  := Prod.ext (faithful.takes m m') rfl

/-- Modules are equal in a property if they have the same value of it. -/
theorem Faithful.equal?_iff {d : Definition M} (faithful : d.Faithful) {m m' : M} :
  d.equal? m m' = some true ↔ d.value m = d.value m'
  := by
  rw [faithful.equal?_eq, Option.some_inj, decide_eq_true_iff]

end Definition

namespace Table

/-- The table carries the given properties: all of them are real and faithful, and none
interferes with another. -/
structure Carries (t : Table M) (carried : PropertyId → Prop) : Prop where
  real : ∀ {p}, carried p → p.number.toNat ≤ PropertyId.max
  exists_faithful : ∀ {p}, carried p → ∃ d, t.find? p = some d ∧ d.Faithful
  spares : ∀ {p q d d'}, carried p → carried q → p ≠ q → t.find? p = some d →
    t.find? q = some d' → d.Spares d'

namespace Carries

variable {t : Table M} {carried : PropertyId → Prop} {p : PropertyId} {d : Definition M}

/-- The definition of a carried property is faithful. -/
theorem faithful (carries : t.Carries carried) (carry : carried p) (found : t.find? p = some d) :
  d.Faithful
  := by
  obtain ⟨_, same, faithful⟩ := carries.exists_faithful carry
  rw [found] at same
  cases same
  apply faithful

/-- A carried property does not ask for records. -/
theorem isErrorQuery_eq (carries : t.Carries carried) (carry : carried p) :
  p.isErrorQuery = false
  := by
  have real := carries.real carry
  rw [PropertyId.isErrorQuery, beq_eq_false_iff_ne]
  rintro rfl
  exact absurd real (by decide)

end Carries

end Table

end DaisyChain
