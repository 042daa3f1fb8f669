import DaisyChain.Gateway.Display
import DaisyChain.Gateway.Transaction

/-!
# The worker

The worker brings a display and its chain up to date in passes.  A pass first promotes what
can be promoted, then performs the operation that each property waits for, in ascending
order of the properties, and ends with a notice to the application.  A property is marked
clean when its operation succeeds, and also when it fails because the chain does not support
it; all other failures leave it marked for the next pass.
-/

namespace DaisyChain.Gateway

variable {S M : Type} {N : Nat}

/-- The definitions that a pass looks at: for each number of a real property, the first one
with that number. -/
def definitions (table : Table M) : List (Definition M) :=
  (List.range (PropertyId.max + 1)).filterMap fun i => table.find? ⟨UInt8.ofNat i⟩

/-- Promote every property in turn. -/
def promoteAll (table : Table M) (c : Collection M N) : Collection M N :=
  (definitions table).foldl (fun c d => (c.promote d).2) c

variable [Transport S] [Shared S M N] [Inhabited M]

/-- Send the value of the first module to all nodes, again after a pause if that fails, as
often as given. -/
def broadcastAgain (g : Gateway M) (property : PropertyId) : Nat → Act S Unit
  | 0 => g.writeAll property .all false
  | retries + 1 => do
    try
      g.writeAll property .all false
    catch failure =>
      if failure.isRetryable then
        g.recover
        g.broadcastAgain property retries
      else
        throw failure

/-- Perform an operation for a property.  Without any module there is nothing to write, and
the answer is `none`. -/
def perform (g : Gateway M) (property : PropertyId) (operation : Operation) (count : Nat) :
    StateM (Session S) (Option (Except Failure Unit)) :=
  match operation with
  | .readAll => some <$> (g.readAll property).run
  | .broadcast =>
    if count = 0 then pure none
    else some <$> (g.broadcastAgain property g.settings.retries).run
  | .writeMarked => if count = 0 then pure none else some <$> (g.writeMarked property).run

/-- The operation is over and need not be repeated. -/
def settled : Except Failure Unit → Bool
  | .ok () => true
  | .error failure => failure.isNotSupported

/-- Bring one property up to date, if it is not. -/
def syncProperty (g : Gateway M) (property : PropertyId) : StateM (Session S) Unit := do
  let operation? ← inside (Shared.onCollection (S := S) fun c => (c.operation? property, c))
  match operation? with
  | none => return ()
  | some operation =>
    let count ← inside (Replica.count (S := S))
    let result? ← g.perform property operation count
    if result?.any settled then
      inside (Shared.onCollection (S := S) fun c => ((), c.markClean property))

/-- Bring every property up to date once. -/
def pass (g : Gateway M) : StateM (Session S) Unit := do
  inside (Shared.onCollection (S := S) fun c => ((), promoteAll g.table c))
  (definitions g.table).forM fun d => g.syncProperty d.id
  inside (Shared.access (S := S) fun d => ((), d.finishPass))

/-- Wait for the notice that something is out of date, and make a pass.  The answer is
whether there was such a notice. -/
def turn (g : Gateway M) : StateM (Session S) Bool := do
  let notice ← inside (Shared.access (S := S) Display.takeDesynchronized)
  if notice then g.pass
  return notice

end DaisyChain.Gateway
