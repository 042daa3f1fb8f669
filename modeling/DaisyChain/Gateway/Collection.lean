import DaisyChain.Gateway.Environment
import DaisyChain.Property.Table

/-!
# Collections of modules

A collection is the gateway's copy of all modules, with marks for what is out of date.  A
mark of the collection concerns a property of every module: it is to be read, or to be
written with the value of the first module.  A mark of a module concerns that module alone.

`promote` turns the marks of single modules into one of the collection when all modules
hold the same value anyway; `operation?` says what is to be done for a property.
`length_resize` says how many modules a collection holds after `resize`, and `getElem?_resize`
which.

A collection may hold more modules than can be counted; it then counts them modulo
`modulesMax + 1` (`counted`).
-/

namespace DaisyChain.Gateway

/-- How a property of all modules is brought up to date. -/
inductive SyncMethod where
  /-- The values of the nodes are collected. -/
  | read
  /-- The value of the first module is sent to all nodes. -/
  | write
  deriving DecidableEq, Repr

/-- The transaction that brings a property up to date. -/
inductive Operation where
  | readAll
  | broadcast
  /-- The modules that are marked are written to their nodes. -/
  | writeMarked
  deriving DecidableEq, Repr

/-- The copy of one module. -/
structure Entry (M : Type) where
  module : M
  /-- The properties that wait to be written to the node of this module. -/
  marks : PropertySet := .empty
  /-- The last fault that the node reported. -/
  fault : Option Fault := none
  /-- The state in which that fault occurred, as far as the node reported it. -/
  faultState : Option NodeState := none

/-- The copies of all modules in the order of the chain, at most `N`. -/
structure Collection (M : Type) (N : Nat) where
  entries : List (Entry M) := []
  /-- The properties that wait to be read. -/
  reads : PropertySet := .empty
  /-- The properties that wait to be written to all nodes. -/
  writes : PropertySet := .empty

namespace Collection

variable {M : Type} {N : Nat}

instance : Inhabited (Collection M N) :=
  ⟨{}⟩

/-- The number of modules. -/
def size (c : Collection M N) : Nat :=
  c.entries.length

/-- The number of modules as the gateway is told it, in 16 bits. -/
def counted (c : Collection M N) : Nat :=
  c.size % (modulesMax + 1)

/-- A collection counts all its modules, if they are not too many to be counted. -/
theorem counted_of_size_le {c : Collection M N} (few : c.size ≤ modulesMax) :
  c.counted = c.size
  := Nat.mod_eq_of_lt (Nat.lt_succ_of_le few)

/-- A collection has at least as many modules as it counts. -/
theorem counted_le_size (c : Collection M N) :
  c.counted ≤ c.size
  := Nat.mod_le _ _

/-- The module of the given index. -/
def module? (c : Collection M N) (index : Nat) : Option M :=
  c.entries[index]?.map Entry.module

/-- Change the entry of the given index. -/
def modifyEntry (c : Collection M N) (index : Nat) (f : Entry M → Entry M) : Collection M N :=
  { c with entries := c.entries.modify index f }

/-- Change the module of the given index, and answer what the change answers. -/
def modifyModule {α : Type} (c : Collection M N) (index : Nat) (f : M → α × M) :
    Option α × Collection M N :=
  match c.entries[index]? with
  | none => (none, c)
  | some entry =>
    let (a, m) := f entry.module
    (some a, c.modifyEntry index fun e => { e with module := m })

/-! ### Marks -/

/-- Ask for a property of all modules to be read, or to be written.  The one cancels the
other. -/
def markDirty (c : Collection M N) (property : PropertyId) : SyncMethod → Collection M N
  | .read =>
    { c with reads := c.reads.insert property, writes := c.writes.remove property }
  | .write =>
    { c with reads := c.reads.remove property, writes := c.writes.insert property }

/-- Ask for a property of one module to be written, if there is such a module. -/
def markModuleDirty (c : Collection M N) (index : Nat) (property : PropertyId) :
    Bool × Collection M N :=
  (decide (index < c.size),
    c.modifyEntry index fun e => { e with marks := e.marks.insert property })

/-- Take the mark of a property away from every module. -/
def unmarkModules (c : Collection M N) (property : PropertyId) : Collection M N :=
  { c with entries := c.entries.map fun e => { e with marks := e.marks.remove property } }

/-- Forget all that waits to be done for a property. -/
def markClean (c : Collection M N) (property : PropertyId) : Collection M N :=
  { c.unmarkModules property with
    reads := c.reads.remove property
    writes := c.writes.remove property }

/-- Nothing waits to be done. -/
def isSynchronized (c : Collection M N) : Bool :=
  c.reads.isEmpty && c.writes.isEmpty && c.entries.all fun e => e.marks.isEmpty

/-- Some module waits to be written. -/
def anyMarked (c : Collection M N) (property : PropertyId) : Bool :=
  c.entries.any fun e => e.marks.contains property

/-- The module of the given index waits to be written. -/
def mustWrite (c : Collection M N) (index : Nat) (property : PropertyId) : Bool :=
  c.entries[index]?.any fun e => e.marks.contains property

/-- What is to be done for a property. -/
def operation? (c : Collection M N) (property : PropertyId) : Option Operation :=
  if c.reads.contains property then some .readAll
  else if c.writes.contains property then some .broadcast
  else if c.anyMarked property then some .writeMarked
  else none

/-! ### Promotion -/

/-- Every module holds the same value as the first one. -/
def allEqual (c : Collection M N) (d : Definition M) : Bool :=
  match c.entries with
  | [] => false
  | first :: rest => rest.all fun e => d.equal? first.module e.module == some true

/-- Write a property to all nodes at once instead of writing it to single ones, if some
module waits for that and all modules hold the same value. -/
def promote (c : Collection M N) (d : Definition M) : Bool × Collection M N :=
  if c.anyMarked d.id && c.allEqual d then
    (true, (c.unmarkModules d.id).markDirty d.id .write)
  else
    (false, c)

/-! ### Size -/

/-- Keep as many modules as the chain has nodes, up to the capacity, and add new ones. -/
def resize [Inhabited M] (c : Collection M N) (count : Nat) : Collection M N :=
  let size := min count N
  let kept := c.entries.take size
  { c with entries := kept ++ List.replicate (size - kept.length) { module := default } }

/-- Take note of what a node reported. -/
def reported (c : Collection M N) (index : Nat) (fault : Option Fault)
    (state : Option NodeState) : Collection M N :=
  c.modifyEntry index fun e => { e with fault := fault, faultState := state }

/-- After a change of size there are as many modules as asked for, up to the capacity. -/
theorem length_resize [Inhabited M] (c : Collection M N) (count : Nat) :
  (c.resize count).size = min count N
  := by
  simp only [size, resize, List.length_append, List.length_take, List.length_replicate]
  omega

/-- The entry of the given index, as it is once there is room for it. -/
def entry [Inhabited M] (c : Collection M N) (index : Nat) : Entry M :=
  c.entries[index]?.getD { module := default }

/-- The entry of a module that there is. -/
theorem entry_of_getElem? [Inhabited M] {c : Collection M N} {index : Nat} {e : Entry M}
    (here : c.entries[index]? = some e) :
  c.entry index = e
  := by rw [entry, here, Option.getD_some]

/-- After a change of size the entries that there were are the same, and the others are new. -/
theorem getElem?_resize [Inhabited M] (c : Collection M N) {count index : Nat}
    (within : index < min count N) :
  (c.resize count).entries[index]? = some (c.entry index)
  := by
  rw [entry, resize]
  by_cases old : index < c.entries.length
  · rw [List.getElem?_append_left (by rw [List.length_take]; omega), List.getElem?_take,
      if_pos within, List.getElem?_eq_getElem old, Option.getD_some]
  · rw [List.getElem?_append_right (by rw [List.length_take]; omega), List.getElem?_replicate,
      List.getElem?_eq_none (Nat.le_of_not_lt old), if_pos, Option.getD_none]
    rw [List.length_take]
    omega

/-- A collection is the replica that the gateway keeps of its chain. -/
instance [Inhabited M] : Replica (Collection M N) M where
  count c := (c.counted, c)
  capacity _ := min N modulesMax
  module? index c := (c.module? index, c)
  modify index f c := c.modifyModule index f
  countChanged count c := ((), c.resize count)
  mustWrite index property c := (c.mustWrite index property, c)
  reported index fault state c := ((), c.reported index fault state)

end Collection

end DaisyChain.Gateway
