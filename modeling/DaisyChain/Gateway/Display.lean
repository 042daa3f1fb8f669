import DaisyChain.Gateway.Collection

/-!
# Displays

A display is a collection that an application shares with a worker.  The application changes
modules and marks what is out of date; the worker brings the chain up to date.  They wake
each other by two signals.  A signal is a slot for one notice: raising it fills the slot,
and who waits for it empties it.

Each function of this module is one access to the display that nothing interrupts.  `Shared`
is a state with a display in it; the worker makes each access as a call of its own, so that
others have access in between.
-/

namespace DaisyChain.Gateway

/-- A collection with the signals of its application and its worker. -/
structure Display (M : Type) (N : Nat) where
  collection : Collection M N := {}
  /-- Something is out of date: the worker is to wake up. -/
  desynchronized : Bool := false
  /-- The worker has finished a pass. -/
  synchronized : Bool := false

namespace Display

variable {M : Type} {N : Nat}

instance : Inhabited (Display M N) :=
  ⟨{}⟩

/-! ### The application -/

/-- Mark a property of all modules and wake the worker. -/
def markDirty (d : Display M N) (property : PropertyId) (method : SyncMethod) : Display M N :=
  { d with collection := d.collection.markDirty property method, desynchronized := true }

/-- Mark a property of one module, if there is such a module, and wake the worker. -/
def markModuleDirty (d : Display M N) (index : Nat) (property : PropertyId) :
    Bool × Display M N :=
  let (marked, collection) := d.collection.markModuleDirty index property
  (marked, { d with
    collection := collection, desynchronized := d.desynchronized || marked })

/-- Change one module, if there is such a module, mark a property of it and wake the
worker. -/
def updateModule (d : Display M N) (index : Nat) (property : PropertyId) (f : M → M) :
    Bool × Display M N :=
  let changed := (d.collection.modifyModule index fun m => ((), f m)).2
  { d with collection := changed }.markModuleDirty index property

/-- Ask the worker for a pass; its end will raise `synchronized` anew. -/
def requestPass (d : Display M N) : Display M N :=
  { d with synchronized := false, desynchronized := true }

/-- Take the notice that a pass has ended, if there is one. -/
def takeSynchronized (d : Display M N) : Bool × Display M N :=
  (d.synchronized, { d with synchronized := false })

/-! ### The worker -/

/-- Take the notice that something is out of date, if there is one. -/
def takeDesynchronized (d : Display M N) : Bool × Display M N :=
  (d.desynchronized, { d with desynchronized := false })

/-- Give notice that a pass has ended. -/
def finishPass (d : Display M N) : Display M N :=
  { d with synchronized := true }

/-- Access the collection alone. -/
def withCollection {α : Type} (f : StateM (Collection M N) α) : StateM (Display M N) α :=
  Part.run ⟨Display.collection, fun c d => { d with collection := c }⟩ f

end Display

/-! ### Sharing -/

/-- A state with a display to which several parties have access. -/
class Shared (S : Type) (M : outParam Type) (N : outParam Nat) where
  /-- Access the display once. -/
  access : {α : Type} → StateM (Display M N) α → StateM S α

/-- Access the collection of a shared display once. -/
def Shared.onCollection {S M : Type} {N : Nat} [Shared S M N] {α : Type}
    (f : StateM (Collection M N) α) : StateM S α :=
  Shared.access (Display.withCollection f)

/-- A shared display is a replica that is locked for each call alone. -/
instance {S M : Type} {N : Nat} [Shared S M N] [Inhabited M] : Replica S M where
  count := Shared.onCollection (N := N) Replica.count
  capacity _ := min N modulesMax
  module? index := Shared.onCollection (N := N) (Replica.module? index)
  modify index f := Shared.onCollection (N := N) (Replica.modify index f)
  countChanged count := Shared.onCollection (N := N) (Replica.countChanged count)
  mustWrite index property := Shared.onCollection (N := N) (Replica.mustWrite index property)
  reported index fault state :=
    Shared.onCollection (N := N) (Replica.reported index fault state)

/-- A line, and the display that is shown over it. -/
structure Site (L M : Type) (N : Nat) where
  line : L
  display : Display M N := {}

instance {L M : Type} {N : Nat} [Transport L] : Transport (Site L M N) :=
  .ofPart ⟨Site.line, fun line s => { s with line := line }⟩

instance {L M : Type} {N : Nat} : Shared (Site L M N) M N where
  access f := Part.run ⟨Site.display, fun display s => { s with display := display }⟩ f

end DaisyChain.Gateway
