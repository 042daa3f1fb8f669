import DaisyChain.Property.Id
import DaisyChain.Property.Size

/-!
# Property tables

A definition says what a property is: its identifier and name, in which directions it
travels, how long its values are, and the handlers that take the value out of a module, put
a value into one, and compare two modules.  A table lists the definitions of one type of
module.  Nodes and gateway work from the same table, the nodes on their module and the
gateway on its copy of each.

`serialize` runs the handler that takes a value and lays the value out for a frame;
`deserialize` checks the data of a frame and runs the handler that puts it into the module.
-/

namespace DaisyChain

/-- The directions in which a property travels. -/
inductive Access where
  | readOnly
  | writeOnly
  | readWrite
  deriving DecidableEq, Repr

/-- Nodes report the property. -/
def Access.readable : Access → Bool
  | .readOnly | .readWrite => true
  | .writeOnly => false

/-- The gateway writes the property. -/
def Access.writable : Access → Bool
  | .writeOnly | .readWrite => true
  | .readOnly => false

/-- A property of the modules of type `M`. -/
structure Definition (M : Type) where
  id : PropertyId
  name : String
  access : Access
  size : PropertySize
  /-- The value arrives in several frames. -/
  multipart : Bool := false
  /-- The value of a module, for a buffer of the given room, if there is one. -/
  get : Option (M → Nat → Option (List UInt8)) := none
  /-- Put a value into a module: whether it was accepted, and the module afterwards. -/
  set : Option (List UInt8 → M → Bool × M) := none
  /-- Two modules hold the same value.  A property that cannot be compared is never
  written to all nodes at once on behalf of single ones. -/
  compare : Option (M → M → Bool) := none

/-- The reasons for which a definition can be applied to a module in neither direction. -/
inductive PropertyError where
  /-- There is no handler. -/
  | notSupported
  /-- The handler failed. -/
  | handler
  /-- The value does not fit the size. -/
  | size (error : PropertySize.Error)
  deriving DecidableEq, Repr

/-- What is said of a failed handler. -/
def handlerMessage : String :=
  "property handler failed"

namespace Definition

variable {M : Type}

/-- The room that the handler of a value is given. -/
def room (d : Definition M) : Nat :=
  min d.size.maxLength valueMax

/-- The value of a module, laid out for a frame. -/
def serialize (d : Definition M) (m : M) : Except PropertyError (List UInt8) :=
  match d.get with
  | none => .error .notSupported
  | some get =>
    match get m d.room with
    | none => .error .handler
    | some value =>
      if d.room < value.length then
        .error (.size .tooLarge)
      else
        (d.size.wrap value).mapError .size

/-- Put the data of a frame into a module: whether it was accepted, and the module
afterwards. -/
def deserialize (d : Definition M) (data : List UInt8) (m : M) :
    Except PropertyError Unit × M :=
  match d.set with
  | none => (.error .notSupported, m)
  | some set =>
    match d.size.unwrap data with
    | .error error => (.error (.size error), m)
    | .ok value =>
      match set value m with
      | (true, m') => (.ok (), m')
      | (false, m') => (.error .handler, m')

/-- Two modules hold the same value, if it can be compared. -/
def equal? (d : Definition M) (a b : M) : Option Bool :=
  d.compare.map fun compare => compare a b

end Definition

/-- The definitions for the modules of type `M`. -/
structure Table (M : Type) where
  definitions : List (Definition M)

namespace Table

variable {M : Type}

/-- The first definition with the given identifier. -/
def find? (t : Table M) (id : PropertyId) : Option (Definition M) :=
  t.definitions.find? fun d => d.id == id

/-- The first definition with the given name. -/
def findName? (t : Table M) (name : String) : Option (Definition M) :=
  t.definitions.find? fun d => d.name == name

/-- The number of definitions. -/
def size (t : Table M) : Nat :=
  t.definitions.length

/-- A definition that is found has the identifier looked for. -/
theorem id_of_find? {t : Table M} {id : PropertyId} {d : Definition M}
    (h : t.find? id = some d) :
  d.id = id
  := by
  simpa using List.find?_some h

end Table

end DaisyChain
