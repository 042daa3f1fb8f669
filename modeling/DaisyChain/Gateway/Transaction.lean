import DaisyChain.Gateway.Session

/-!
# Transactions with a chain

Each transaction first drops what has arrived, so that nothing of a failed transaction leaks
into the next one, and none of them is repeated here.

* `readAll` collects one property of every node into the replica.
* `writeAll` sends a property to the nodes: to each its own value, or to all the value of
  the first module.  A value that is held back takes effect at the next `commit`.
* `writeMarked` sends their values to those nodes that wait for one.
* `nodeErrors` asks every node for the record of its last fault.
* `acknowledge` collects the categories of the faults that the nodes have recorded.
-/

namespace DaisyChain.Gateway

variable {S M : Type} [Transport S] [Replica S M]

/-! ### The records of the nodes -/

/-- Receive the record of the nodes from the given index on. -/
def receiveRecords (g : Gateway M) : Nat → Nat → Categories → Act S Categories
  | 0, _, categories => return categories
  | remaining + 1, index, categories => do
    match ← g.receiveFrame with
    | .data [fault, state] =>
      let fault := Fault.ofByte fault
      within (Replica.reported index fault (NodeState.ofByte state))
      g.receiveRecords remaining (index + 1) (categories ∪ categoriesOf fault)
    | _ =>
      g.receiveRecords remaining (index + 1)
        (categories ∪ { Categories.empty with other := true })

/-- Ask every node for its record and pass it on to the replica.  The answer is the union of
the categories; a node that does not answer counts as one with another fault. -/
def nodeErrors (g : Gateway M) : Act S Categories := do
  let echo ← g.openRead .errorQuery
  updateCount echo.count
  g.receiveRecords echo.count 0 .empty

/-! ### Acknowledge and commit -/

/-- Collect the categories of the faults that the nodes have recorded. -/
def acknowledge (g : Gateway M) : Act S Categories := do
  return (← g.sync .ack).categories

/-- Make every node apply the values that it holds back. -/
def commit (g : Gateway M) : Act S Unit := do
  let echo ← g.sync .commit
  unless echo.categories.isEmpty do throw .headerMismatch

/-! ### Reading -/

/-- What has gone wrong in a read that went on. -/
structure Trouble where
  /-- The last value that a module refused. -/
  refused : Option Failure := none
  /-- A node sent no value. -/
  missing : Bool := false

/-- Receive the values of the nodes from the given index on. -/
def receiveValues (g : Gateway M) (d : Definition M) : Nat → Nat → Trouble → Act S Trouble
  | 0, _, trouble => return trouble
  | remaining + 1, index, trouble => do
    match ← g.receiveFrame with
    | .data data =>
      match ← within (Replica.modify index (d.deserialize data)) with
      | some (.error e) =>
        g.receiveValues d remaining (index + 1) { trouble with refused := some (.ofProperty e) }
      | some (.ok ()) | none => g.receiveValues d remaining (index + 1) trouble
    | .empty => g.receiveValues d remaining (index + 1) { trouble with missing := true }
    | .placeholder => throw .checksumMismatch

/-- The categories of a failure that certainly occurred. -/
def atLeastOther (categories : Categories) : Categories :=
  if categories.isEmpty then { Categories.empty with other := true } else categories

/-- Collect a property of every node into the replica.  A node without a value is passed over
and asked for its record afterwards; a value that is refused stops no other. -/
def readAll (g : Gateway M) (property : PropertyId) : Act S Unit := do
  if property.isErrorQuery then throw .invalidArgument
  match g.table.find? property with
  | none => throw .notSupported
  | some d =>
    if d.access.readable = false ∨ d.set.isNone then throw .notSupported
    let echo ← g.openRead property
    updateCount echo.count
    let trouble ← g.receiveValues d echo.count 0 {}
    if echo.flag ∨ trouble.missing then
      let categories ← g.nodeErrors
      if trouble.missing then throw (.nodes (atLeastOther categories))
    match trouble.refused with
    | some failure => throw failure
    | none => return ()

/-! ### Writing -/

/-- The nodes that a write is meant for. -/
inductive Recipients where
  /-- The given number of nodes, each of which gets its own value or none. -/
  | each (count : Nat)
  /-- All nodes, which get the value of the first module. -/
  | all
  deriving DecidableEq, Repr

/-- The frame with the value of the module of the given index. -/
def valueFrame (d : Definition M) (index : Nat) : Act S (List UInt8) := do
  match ← within (Replica.module? index) with
  | none => throw .invalidArgument
  | some m => check .ofFrame (Frame.encode (← check .ofProperty (d.serialize m)))

/-- The length of the data that a placeholder stands for. -/
def placeholderLength : PropertySize → Nat
  | .static length => length.toNat
  | .dynamic => PropertySize.prefixLength

/-- Send one frame for each of the given number of nodes, the farthest node first. -/
def sendValues (d : Definition M) (property : PropertyId) : Nat → Act S Unit
  | 0 => return ()
  | index + 1 => do
    let frame ←
      if ← within (Replica.mustWrite (M := M) index property) then
        valueFrame d index
      else
        check .ofFrame (Frame.placeholderOf (placeholderLength d.size))
    send frame
    sendValues d property index

/-- Receive the header of a write as it comes back from the chain. -/
def receiveEcho (g : Gateway M) (action : Action) (property : PropertyId) (staged : Bool) :
    Act S RawHeader := do
  let echo ← g.receiveHeader
  if echo.action = action ∧ echo.property = property ∧ echo.flag = staged then
    return echo
  else
    throw .headerMismatch

/-- Collect the categories of the nodes; if there are any, collect their records too. -/
def confirm (g : Gateway M) : Act S Unit := do
  let categories ← g.acknowledge
  unless categories.isEmpty do
    let _ ← g.nodeErrors
    throw (.nodes categories)

/-- Send the value of the first module to all nodes. -/
def broadcast (g : Gateway M) (d : Definition M) (property : PropertyId) (staged : Bool) :
    Act S Unit := do
  match ActionHeader.of? .broadcast staged property 0 with
  | none => throw .invalidArgument
  | some header =>
    flush
    send header.pack.toList
    let frame ← valueFrame d 0
    send frame
    let echo ← g.receiveEcho .broadcast property staged
    updateCount echo.count
    let back ← g.receive frame.length
    if back ≠ frame then throw .payloadMismatch
    g.confirm

/-- Send each of the given number of nodes its own value, or a placeholder. -/
def writeEach (g : Gateway M) (d : Definition M) (property : PropertyId) (count : Nat)
    (staged : Bool) : Act S Unit := do
  if count = 0 then throw .invalidArgument
  match ActionHeader.of? .write staged property count with
  | none => throw .invalidArgument
  | some header =>
    flush
    send header.pack.toList
    sendValues d property count
    let echo ← g.receiveEcho .write property staged
    if echo.count ≠ 0 then updateCount (count - echo.count)
    g.confirm

/-- Send a property to the nodes. -/
def writeAll (g : Gateway M) (property : PropertyId) (recipients : Recipients)
    (staged : Bool) : Act S Unit := do
  match g.table.find? property with
  | none => throw .notSupported
  | some d =>
    if d.access.writable = false ∨ d.get.isNone then throw .notSupported
    match recipients with
    | .each count => g.writeEach d property count staged
    | .all => g.broadcast d property staged

/-- Send their values to the nodes of the chain that wait for one.  Nodes that the replica
has no room for get placeholders. -/
def writeMarked (g : Gateway M) (property : PropertyId) : Act S Unit := do
  let known ← within (Replica.count (S := S))
  g.writeAll property (.each (max known (← get).chainLength)) false

end DaisyChain.Gateway
