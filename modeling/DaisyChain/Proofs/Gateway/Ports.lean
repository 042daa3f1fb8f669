import DaisyChain.Gateway.Transaction

/-!
# Ports

A port is the gateway's end of a line.  What has arrived and has not been taken waits in it, and all
that is sent is noted down.  Whether a call succeeds, and what arrives in the meantime, is up to what
is outside; of that nothing is assumed.  A desk is a line beside a replica that has nothing to do with
it.

`Transaction` lists what the gateway may be asked to do over a line.
-/

namespace DaisyChain.Gateway

/-! ### The line -/

/-- What is outside of a port: whether a call succeeds, and what arrives meanwhile. -/
class Outside (W : Type) where
  send : List UInt8 → StateM W (Bool × List UInt8)
  /-- The gateway waits for so many bytes that have not arrived yet, for at most the given time. -/
  receive : Nat → Nat → StateM W (Bool × List UInt8)
  flush : StateM W Bool
  drain : StateM W (Bool × List UInt8)
  pause : Nat → StateM W (List UInt8)

/-- The gateway's end of a line. -/
structure Port (W : Type) where
  outside : W
  /-- What has arrived and has not been taken. -/
  waiting : List UInt8 := []
  /-- All that has been sent, call by call. -/
  sent : List (List UInt8) := []

namespace Port

variable {W : Type} [Outside W]

/-- Let a call pass during which bytes may arrive. -/
def pass {α : Type} (p : Port W) (call : StateM W (α × List UInt8)) : α × Port W :=
  let ((answer, arrived), w) := call p.outside
  (answer, { p with outside := w, waiting := p.waiting ++ arrived })

instance : Transport (Port W) where
  send bytes p := { p with sent := p.sent ++ [bytes] }.pass (Outside.send bytes)
  receive count timeout p :=
    let (fine, p') := p.pass (Outside.receive (count - p.waiting.length) timeout)
    if fine then
      (some (p'.waiting.take count), { p' with waiting := p'.waiting.drop count })
    else
      (none, p')
  flush p :=
    let (fine, w) := Outside.flush p.outside
    (fine, { p with outside := w, waiting := if fine then [] else p.waiting })
  drain p := p.pass Outside.drain
  pause ms p := ((), (p.pass fun w => (((), (Outside.pause ms w).1), (Outside.pause ms w).2)).2)

end Port

/-! ### The desk -/

/-- A line beside a replica. -/
structure Desk (L P : Type) where
  line : L
  replica : P

namespace Desk

variable {L P M : Type}

/-- The replica of a desk. -/
def part : Part (Desk L P) P :=
  ⟨Desk.replica, fun replica s => { s with replica := replica }⟩

instance [Transport L] : Transport (Desk L P) :=
  .ofPart ⟨Desk.line, fun line s => { s with line := line }⟩

instance [Replica P M] : Replica (Desk L P) M where
  count := part.run Replica.count
  capacity s := Replica.capacity s.replica
  module? index := part.run (Replica.module? index)
  modify index f := part.run (Replica.modify index f)
  countChanged count := part.run (Replica.countChanged count)
  mustWrite index property := part.run (Replica.mustWrite index property)
  reported index fault state := part.run (Replica.reported index fault state)

end Desk

/-! ### Transactions -/

/-- What the gateway may be asked to do, with the type of the answer. -/
inductive Transaction : Type → Type 1 where
  | read (property : PropertyId) : Transaction Unit
  | write (property : PropertyId) (recipients : Recipients) (staged : Bool) : Transaction Unit
  /-- Their values are to be sent to the nodes that wait for one. -/
  | writeMarked (property : PropertyId) : Transaction Unit
  | records : Transaction Categories
  | acknowledge : Transaction Categories
  | commit : Transaction Unit

/-- What the gateway does when it is asked. -/
def Transaction.act {S M α : Type} [Transport S] [Replica S M] (g : Gateway M) :
    Transaction α → Act S α
  | .read property => g.readAll property
  | .write property recipients staged => g.writeAll property recipients staged
  | .writeMarked property => g.writeMarked property
  | .records => g.nodeErrors
  | .acknowledge => g.acknowledge
  | .commit => g.commit

end DaisyChain.Gateway
