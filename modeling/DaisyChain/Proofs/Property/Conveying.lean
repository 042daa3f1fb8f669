import DaisyChain.Proofs.Property.Faithful
import Mathlib.Logic.Function.Iterate

/-!
# Values that are conveyed

The value of a module is conveyed if it can be laid out, and every module takes it and has it then
(`Definition.Conveys`).  A property leaves another one alone if putting a value into a module does
not change what the other one is laid out as (`Definition.Leaves`); two modules differ at most in
what a property touches if every property that is left alone is laid out alike
(`Definition.Alters`).
-/

namespace DaisyChain

variable {M : Type}

namespace Definition

/-- The value of the module can be laid out, and every module takes it and has it then. -/
structure Conveys (d : Definition M) (m : M) : Prop where
  laid : d.serialize m = .ok (d.value m)
  taken : ∀ m', (d.deserialize (d.value m) m').1 = .ok ()
  kept : ∀ m', d.value (d.given (d.value m) m') = d.value m

/-- Giving a module a value of one property does not change what another one is laid out as. -/
def Leaves (d d' : Definition M) : Prop :=
  ∀ data m, d'.serialize (d.given data m) = d'.serialize m

/-- The properties are told apart on the line, and the first one leaves the second one alone. -/
structure Avoids (d d' : Definition M) : Prop where
  differs : d.id.wire ≠ d'.id.wire
  leaves : d.Leaves d'

/-- The modules differ at most in what a property touches. -/
def Alters (d : Definition M) (m m' : M) : Prop :=
  ∀ d' : Definition M, d.Leaves d' → d'.serialize m' = d'.serialize m

/-- However often the module is given the value, it takes it, and is laid out as that value then. -/
def Accepts (d : Definition M) (data : List UInt8) (m : M) : Prop :=
  ∀ times, let m' := (d.given data)^[times] m
    (d.deserialize data m').1 = .ok () ∧ d.serialize (d.given data m') = .ok data

variable {d : Definition M} {m m' m'' : M}

/-- Modules that are laid out alike have the same value. -/
theorem value_of_serialize (same : d.serialize m' = d.serialize m) :
  d.value m' = d.value m
  := by
  rw [value, value, same]

/-- The value of a faithful property is conveyed. -/
theorem Faithful.conveys (faithful : d.Faithful) (m : M) :
  d.Conveys m
  := ⟨faithful.serialize_eq m, faithful.takes m, faithful.value_given m⟩

/-- A value is conveyed if the same one is. -/
theorem Conveys.of_serialize (conveys : d.Conveys m) (same : d.serialize m' = d.serialize m) :
  d.Conveys m'
  := by
  have value := value_of_serialize same
  constructor
  · rw [same, value]
    exact conveys.laid
  · rw [value]
    exact conveys.taken
  · rw [value]
    exact conveys.kept

/-- A module that can be laid out has a handler for that. -/
theorem gettable_of_serialize {data : List UInt8} (laid : d.serialize m = .ok data) :
  d.get.isSome
  := by
  rw [serialize] at laid
  split at laid
  · contradiction
  · next handler => rw [handler]; rfl

/-- A value that can be conveyed has been got from a module. -/
theorem Conveys.gettable (conveys : d.Conveys m) :
  d.get.isSome
  := gettable_of_serialize conveys.laid

section Accepts

variable {data : List UInt8}

/-- A value that is accepted is taken. -/
theorem Accepts.taken (accepts : d.Accepts data m) :
  (d.deserialize data m).1 = .ok ()
  := (accepts 0).1

/-- A module that has been given a value that it accepts is laid out as that value. -/
theorem Accepts.laid (accepts : d.Accepts data m) :
  d.serialize (d.given data m) = .ok data
  := (accepts 0).2

/-- A value is accepted again. -/
theorem Accepts.given (accepts : d.Accepts data m) :
  d.Accepts data (d.given data m)
  := fun times => accepts (times + 1)

/-- Every module accepts the value of a faithful property. -/
theorem Faithful.accepts (faithful : d.Faithful) (m m' : M) :
  d.Accepts (d.value m) m'
  := by
  intro times
  refine ⟨faithful.takes m _, ?_⟩
  rw [faithful.serialize_eq, faithful.value_given]

end Accepts

/-- Modules have the same value of a property that is left alone. -/
theorem Leaves.spares {d' : Definition M} (leaves : d.Leaves d') :
  d.Spares d'
  := fun data m => value_of_serialize (leaves data m)

/-- A module does not differ from itself. -/
theorem Alters.refl (d : Definition M) (m : M) :
  d.Alters m m
  := fun _ _ => rfl

/-- Modules that differ from a third one at most in what a property touches do so from each
other. -/
theorem Alters.trans (first : d.Alters m m') (second : d.Alters m' m'') :
  d.Alters m m''
  := fun d' leaves => (second d' leaves).trans (first d' leaves)

/-- A module that is given a value differs at most in what the property touches. -/
theorem alters_given (d : Definition M) (data : List UInt8) (m : M) :
  d.Alters m (d.given data m)
  := fun _ leaves => leaves data m

end Definition

end DaisyChain
