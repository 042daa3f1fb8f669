import DaisyChain.Link
import DaisyChain.Node.Forwarding
import DaisyChain.Node.Value

/-!
# A node at work

A station is an engine together with the module it serves and the wires on which it receives
and sends.  Nothing in it ever waits: a tick moves as many bytes as the wires allow and
returns.  A byte that is to be forwarded is read only when it can be sent on at once.

`Station.tick` is one step of the engine.  An `Event` is all that can happen to a station
from outside; `Station.run` follows any sequence of them.
-/

namespace DaisyChain.Node

/-- How a node is connected. -/
structure Wiring where
  /-- The bytes that have arrived. -/
  rx : List UInt8 := []
  /-- The link on which the node sends. -/
  tx : Link := {}
  /-- Every byte sent has left the node. -/
  drained : Bool := true
  /-- The line is active while the given bytes wait to be read. -/
  busy : List UInt8 → Bool := fun _ => false

/-- A node with its module and its connections. -/
structure Station (M : Type) where
  engine : Engine := {}
  wiring : Wiring := {}
  module : M

namespace Engine

variable {M : Type}

/-! ### The steps of the phases -/

/-- An engine that heard part of a header and now hears nothing. -/
def awaitHeader (e : Engine) (heard : Heard) (now : UInt32) : Engine :=
  if heard ≠ .nothing ∧ e.timedOut now then e.fail .timeout now else e

/-- Listen for headers, and forward them. -/
def listen (now : UInt32) (e : Engine) (tx : Link) :
    List UInt8 → Engine × List UInt8 × Link
  | [] =>
    match e.phase with
    | .listening heard => (e.awaitHeader heard now, [], tx)
    | _ => (e, [], tx)
  | byte :: rest =>
    match e.phase with
    | .listening heard =>
      if tx.room = 0 then
        (e.awaitHeader heard now, byte :: rest, tx)
      else
        let (e', out) := e.hear heard byte now
        listen now e' (tx.push out) rest
    | _ => (e, byte :: rest, tx)

/-- Answer every byte with zero. -/
def swallow (tx : Link) : List UInt8 → List UInt8 × Link
  | [] => ([], tx)
  | byte :: rest => if tx.room = 0 then (byte :: rest, tx) else swallow (tx.push 0) rest

/-- Listen again after the line has been quiet for long enough. -/
def recover (now : UInt32) (e : Engine) (busy : Bool) : Engine :=
  if busy then
    { e with since := now }
  else if recoveryDelay ≤ e.elapsed now then
    e.enter (.listening .nothing) now
  else
    e

/-- Decide what comes next in a transaction. -/
def count (table : Table M) (now : UInt32) (e : Engine) (request : Request) (count : Nat)
    (kept : Option (List UInt8)) (m : M) : Engine :=
  if count = 0 then
    match kept with
    | none => e.enter (.listening .nothing) now
    | some data =>
      let slot : Slot := ⟨request.property, data⟩
      if request.staged then
        (e.stage slot).enter (.listening .nothing) now
      else
        e.enter (.committing (.one slot)) now
  else if request.action = .read ∧ count = 1 then
    let (frame, record) := answer table m request.property e.record
    { e with record := record }.enter (.sending request frame 0) now
  else
    e.enter (.relaying request (count - 1) .start) now

/-- Send as much of a frame as there is room for. -/
def send (now : UInt32) (e : Engine) (request : Request) (frame : List UInt8) (sent : Nat)
    (tx : Link) : Engine × Link :=
  if e.timedOut now then
    (e.fail .timeout now, tx)
  else
    let batch := (frame.drop sent).take tx.room
    let sent' := sent + batch.length
    let e' :=
      if frame.length ≤ sent' then e.enter (.listening .nothing) now
      else if batch = [] then e
      else e.enter (.sending request frame sent') now
    (e', tx.pushAll batch)

/-- The engine after a frame has ended; `keep` tells whether its value is meant for the
node. -/
def finishFrame (now : UInt32) (e : Engine) (request : Request) (count : Nat) (keep : Bool)
    (frame : Except Frame.Error Frame) : Engine :=
  match frame with
  | .ok (.data value) =>
    e.enter (.counting request count (if keep then some value else none)) now
  | .ok .placeholder => e.enter (.counting request count none) now
  | .ok .empty =>
    if keep then e.fail .decoding now else e.enter (.counting request count none) now
  | .error .invalidChecksum => e.fail .checksumMismatch now
  | .error _ => e.fail .decoding now

/-- After a frame has ended, an engine decides what comes next, or recovers from a fault. -/
theorem finishFrame_ends (now : UInt32) (e : Engine) (request : Request) (count : Nat) (keep : Bool)
    (frame : Except Frame.Error Frame) :
  let e' := e.finishFrame now request count keep frame
  (∃ kept, e' = e.enter (.counting request count kept) now) ∨ ∃ fault, e' = e.fail fault now
  := by
  unfold finishFrame
  split
  · exact .inl ⟨_, rfl⟩
  · exact .inl ⟨_, rfl⟩
  · split
    · exact .inr ⟨_, rfl⟩
    · exact .inl ⟨_, rfl⟩
  · exact .inr ⟨_, rfl⟩
  · exact .inr ⟨_, rfl⟩

/-- Receive the bytes of a frame up to its end; `pass` tells whether they are sent on. -/
def collect (now : UInt32) (request : Request) (count : Nat) (pass keep : Bool) (e : Engine)
    (collector : Frame.Collector) (tx : Link) : List UInt8 → Engine × List UInt8 × Link
  | [] => (e, [], tx)
  | byte :: rest =>
    if pass ∧ tx.room = 0 then
      (e, byte :: rest, tx)
    else
      let tx' := if pass then tx.push byte else tx
      match collector.feed byte with
      | (.ok false, collector') =>
        collect now request count pass keep (e.enter (.relaying request count collector') now)
          collector' tx' rest
      | (.ok true, collector') =>
        (e.finishFrame now request count keep collector'.decode, rest, tx')
      | (.error _, _) => (e.fail .decoding now, rest, tx')

/-- Receive a frame.  It is sent on if another node needs it, and kept if it is the last
frame of a write or broadcast. -/
def relay (now : UInt32) (e : Engine) (request : Request) (count : Nat)
    (collector : Frame.Collector) (rx : List UInt8) (tx : Link) :
    Engine × List UInt8 × Link :=
  let pass : Bool := count ≠ 0 ∨ request.action = .broadcast
  let keep : Bool := request.action ≠ .read ∧ count = 0
  if e.timedOut now then
    let quiet : Bool := collector.bytes = [] ∧ keep = false
    (if quiet then e.enter (.listening .nothing) now else e.fail .timeout now, rx, tx)
  else
    collect now request count pass keep e collector tx rx

/-- Apply values once every byte sent has left the node.  After too long a wait all values
are given up, those held back included. -/
def commit (table : Table M) (now : UInt32) (e : Engine) (batch : Batch) (drained : Bool)
    (m : M) : Engine × M :=
  if batch = .staged ∧ e.staged = [] then
    (e.enter (.listening .nothing) now, m)
  else if drained = false then
    (if e.timedOut now then { e with staged := [] }.fail .timeout now else e, m)
  else
    let (slots, e') := match batch with
      | .one slot => ([slot], e)
      | .staged => (e.staged, { e with staged := [] })
    let (result, m') := applyAll table slots m
    match result with
    | .ok () => (e'.enter (.listening .nothing) now, m')
    | .error fault => (e'.fail fault now, m')

/-- An engine that is to apply values waits for its last byte to leave as long as it has time, or is
done with them: it listens again, or recovers from a fault. -/
theorem commit_ends (table : Table M) (now : UInt32) (e : Engine) (batch : Batch) (drained : Bool)
    (m : M) :
  let e' := (e.commit table now batch drained m).1
  (e' = e ∧ drained = false ∧ e.timedOut now = false) ∨
    (∃ idle : Engine, e' = idle.enter (.listening .nothing) now) ∨
    ∃ (faulty : Engine) (fault : Fault), e' = faulty.fail fault now
  := by
  unfold commit
  split
  · exact .inr (.inl ⟨_, rfl⟩)
  · split
    · next undrained =>
      cases late : e.timedOut now with
      | false => exact .inl ⟨rfl, undrained, rfl⟩
      | true => exact .inr (.inr ⟨_, _, rfl⟩)
    · right
      cases batch <;> dsimp only <;> split
      · exact .inl ⟨_, rfl⟩
      · exact .inr ⟨_, _, rfl⟩
      · exact .inl ⟨_, rfl⟩
      · exact .inr ⟨_, _, rfl⟩

end Engine

/-! ### Ticks -/

namespace Station

variable {M : Type}

/-- A transaction is in progress, or the line is active. -/
def isBusy (s : Station M) : Bool :=
  s.engine.state != .listening || s.wiring.busy s.wiring.rx

/-- One step at the given time. -/
def tick (table : Table M) (now : UInt32) (s : Station M) : Station M :=
  let e := s.engine
  match e.phase with
  | .listening _ =>
    let (e', rx, tx) := e.listen now s.wiring.tx s.wiring.rx
    { s with engine := e', wiring := { s.wiring with rx := rx, tx := tx } }
  | .recovering =>
    let (rx, tx) := Engine.swallow s.wiring.tx s.wiring.rx
    { s with
      engine := e.recover now (s.wiring.busy rx)
      wiring := { s.wiring with rx := rx, tx := tx } }
  | .counting request count kept =>
    { s with engine := e.count table now request count kept s.module }
  | .sending request frame sent =>
    let (e', tx) := e.send now request frame sent s.wiring.tx
    { s with engine := e', wiring := { s.wiring with tx := tx } }
  | .relaying request count collector =>
    let (e', rx, tx) := e.relay now request count collector s.wiring.rx s.wiring.tx
    { s with engine := e', wiring := { s.wiring with rx := rx, tx := tx } }
  | .committing batch =>
    let (e', m) := e.commit table now batch s.wiring.drained s.module
    { s with engine := e', module := m }

/-! ### Events -/

/-- What can happen to a station from outside. -/
inductive Event where
  /-- Bytes arrive. -/
  | receive (bytes : List UInt8)
  /-- Some of the bytes sent leave the queue. -/
  | drain (bytes : Nat)
  /-- The room for bytes to be sent changes. -/
  | capacity (bytes : Nat)
  /-- The last byte sent leaves the node, or another one is in its way. -/
  | drained (yes : Bool)
  /-- The line becomes active or quiet. -/
  | busy (yes : Bool)
  /-- Time for one step of the engine. -/
  | tick (now : UInt32)

/-- The station after an event. -/
def step (table : Table M) (s : Station M) : Event → Station M
  | .receive bytes => { s with wiring := { s.wiring with rx := s.wiring.rx ++ bytes } }
  | .drain bytes => { s with wiring := { s.wiring with tx := s.wiring.tx.drop bytes } }
  | .capacity bytes =>
    { s with wiring := { s.wiring with tx := { s.wiring.tx with capacity := bytes } } }
  | .drained yes => { s with wiring := { s.wiring with drained := yes } }
  | .busy yes => { s with wiring := { s.wiring with busy := fun _ => yes } }
  | .tick now => s.tick table now

/-- The station after a sequence of events. -/
def run (table : Table M) (s : Station M) (events : List Event) : Station M :=
  events.foldl (step table) s

/-- A sequence of events may be followed in two parts. -/
theorem run_append (table : Table M) (s : Station M) (xs ys : List Event) :
  s.run table (xs ++ ys) = (s.run table xs).run table ys
  := List.foldl_append

end Station

end DaisyChain.Node
