import DaisyChain.Node.Station
import DaisyChain.Proofs.Frame.Whole

/-!
# The registers of a node

A node keeps what it knows in a fixed set of registers.  All of them are there in every state; which of
them mean something, and what they may hold, depends on the state.  What a tick does to the registers
is told register by register and branch by branch (`Registers.tick`).  It depends on the time, on the
module, and on what the port offers (`Offer`), but on nothing else that is outside of the node.

A tick keeps the registers coherent (`Registers.Coherent`): values that wait to be applied, bytes that
have been collected and counts are there only in the states that use them.  Most ticks end with the
node listening anew or recovering, and this is coherent if nothing is left in progress
(`Registers.Clear`).
-/

namespace DaisyChain.Node

/-- The registers of a node. -/
structure Registers where
  state : NodeState := .listening
  /-- When the state was entered or last made progress. -/
  since : UInt32 := 0
  /-- How many bytes of a header have been received, or of the node's own frame have been sent. -/
  progress : Nat := 0
  /-- The header as it was received. -/
  received : RawHeader := .zero
  /-- The header as it is forwarded. -/
  forwarded : RawHeader := .zero
  action : Action := .read
  /-- A written value is held back until a commit. -/
  holdsBack : Bool := false
  property : PropertyId := ⟨0⟩
  /-- How many frames are still to come. -/
  remaining : Nat := 0
  collector : Frame.Collector := .start
  /-- The node's own frame. -/
  frame : List UInt8 := []
  /-- The value of the frame that ended last, if the node keeps it. -/
  kept : Option (List UInt8) := none
  /-- The value of the transaction in progress, which waits to be applied. -/
  pending : Option Slot := none
  /-- The values held back for a commit. -/
  staged : List Slot := []
  /-- The values held back wait to be applied. -/
  committing : Bool := false
  lastFault : Option Fault := none
  faultState : Option NodeState := none
  deriving DecidableEq, Repr

namespace Registers

/-- Begin a state. -/
def enter (r : Registers) (state : NodeState) (now : UInt32) : Registers :=
  { r with state := state, since := now, progress := 0, collector := .start }

/-- Record a fault and go on. -/
def note (r : Registers) (fault : Fault) : Registers :=
  { r with lastFault := some fault, faultState := some r.state }

/-- Record a fault and recover. -/
def fail (r : Registers) (fault : Fault) (now : UInt32) : Registers :=
  (r.note fault).enter .recovering now

/-- The milliseconds since the last progress, on a clock that wraps round. -/
def elapsed (r : Registers) (now : UInt32) : Nat :=
  (now - r.since).toNat

/-- The node has waited too long. -/
def timedOut (r : Registers) (now : UInt32) : Bool :=
  nodeTimeout < r.elapsed now

/-! ### Headers -/

/-- The first byte of a header as it is forwarded, in a header without others. -/
def answered (r : Registers) (header : RawHeader) : RawHeader :=
  if header.action = .sync then
    if header.syncKind = .ack then header.addCategories (categoriesOf r.lastFault) else header
  else if header.action = .read ∧ r.lastFault.isSome then
    header.setFlag true
  else
    header

/-- The registers once the first byte of a header has been received and forwarded. -/
def opened (r : Registers) (header out : RawHeader) : Registers :=
  { r with received := header, forwarded := out, action := header.action, holdsBack := header.flag }

/-- Follow a header that is complete with its first byte, if the header received is such a one. -/
def synchronise (r : Registers) (now : UInt32) : Registers :=
  if r.action = .sync then
    match r.received.syncKind with
    | .commit => { r with committing := true }.enter .committing now
    | .ack | .reserved1 | .reserved2 => r.enter .listening now
  else
    r

/-- Take the first byte of a header, and answer what is forwarded. -/
def hearFirst (r : Registers) (byte : UInt8) (now : UInt32) : Registers × UInt8 :=
  let header : RawHeader := ⟨byte, 0, 0⟩
  ((r.opened header (r.answered header)).synchronise now, (r.answered header).byte0)

/-- Take the second byte of a header, and answer what is forwarded. -/
def hearSecond (r : Registers) (byte : UInt8) : Registers × UInt8 :=
  let header : RawHeader := { r.received with byte1 := byte }
  let low := RawHeader.setLow byte 64 (countAfter r.action header.countLow % 64)
  let out : RawHeader := { r.forwarded with byte1 := low }
  ({ r with received := header, property := header.property, forwarded := out }, out.byte1)

/-- The number of frames that are to come after a header with the given count. -/
def framesAsked (action : Action) (count : Nat) : Nat :=
  match action with
  | .read => (count + 1) % countModulus
  | .broadcast => 1
  | .write | .sync => count

/-- A header asks for what cannot be: a write to no node. -/
def asksNobody (r : Registers) (header : RawHeader) : Bool :=
  r.action = .write ∧ header.count = 0

/-- A complete header as it is forwarded.  If it is not accepted, no node behind may accept it. -/
def passedOn (r : Registers) (header : RawHeader) : RawHeader :=
  ({ r.forwarded with byte2 := header.byte2 }.setCount (countAfter r.action header.count)).setParity
    (header.evenParity && !r.asksNobody header)

/-- The registers once the third byte of a header has been received and forwarded. -/
def completed (r : Registers) (header out : RawHeader) : Registers :=
  { r with received := header, forwarded := out }

/-- Begin the transaction that a complete header asks for. -/
def accept (r : Registers) (header : RawHeader) (now : UInt32) : Registers :=
  if header.evenParity = false then r.fail .headerParity now
  else if r.asksNobody header then r.fail .invalidState now
  else { r with remaining := framesAsked r.action header.count }.enter .counting now

/-- Take the third byte of a header, and answer what is forwarded. -/
def hearThird (r : Registers) (byte : UInt8) (now : UInt32) : Registers × UInt8 :=
  let header : RawHeader := { r.received with byte2 := byte }
  ((r.completed header (r.passedOn header)).accept header now, (r.passedOn header).byte2)

/-- Take one byte of a header, and answer what is forwarded. -/
def hear (r : Registers) (byte : UInt8) (now : UInt32) : Registers × UInt8 :=
  let r' := { r with since := now, progress := r.progress + 1 }
  match r.progress with
  | 0 => r'.hearFirst byte now
  | 1 => r'.hearSecond byte
  | _ => r'.hearThird byte now

/-- Listen for headers in the given bytes, and answer what is forwarded. -/
def listen (now : UInt32) (r : Registers) : List UInt8 → Registers × List UInt8
  | [] =>
    if r.state = .listening ∧ 0 < r.progress ∧ r.timedOut now then (r.fail .timeout now, [])
    else (r, [])
  | byte :: rest =>
    if r.state = .listening then
      let (r', out) := r.hear byte now
      let (r'', outs) := listen now r' rest
      (r'', out :: outs)
    else
      (r, [])

/-- Listen again after the line has been quiet for long enough. -/
def recover (now : UInt32) (r : Registers) (busy : Bool) : Registers :=
  if busy then { r with since := now }
  else if recoveryDelay ≤ r.elapsed now then r.enter .listening now
  else r

/-! ### Transactions -/

/-- The values held back with the given one in the place of the first one of its property, if there is
one. -/
def replace (slot : Slot) : List Slot → Option (List Slot)
  | [] => none
  | held :: rest =>
    if held.property = slot.property then some (slot :: rest)
    else (replace slot rest).map fun rest => held :: rest

/-- Hold a value back.  If there is no place for it, it is dropped, which is a fault. -/
def stage (r : Registers) (slot : Slot) : Registers :=
  match replace slot r.staged with
  | some staged => { r with staged := staged }
  | none =>
    if r.staged.length < slotsMax then { r with staged := r.staged ++ [slot] }
    else r.note .invalidState

variable {M : Type}

/-- The value that answers a read.  A reported record is forgotten. -/
def readValue (table : Table M) (m : M) (r : Registers) : Except Fault (List UInt8) × Registers :=
  if r.property.isErrorQuery then
    (.ok [faultByte r.lastFault, (r.faultState.map NodeState.toByte).getD 0],
      { r with lastFault := none, faultState := none })
  else
    (fetch table m r.property, r)

/-- The frame that carries a value, if there is one and it fits. -/
def framed (value : Except Fault (List UInt8)) : Except Fault (List UInt8) :=
  value.bind fun data => (Frame.encode data).mapError fun _ => Fault.encoding

/-- Lay out the frame for a value.  Where there is none, it is the frame without any byte. -/
def layOut (r : Registers) (value : Except Fault (List UInt8)) : Registers :=
  match framed value with
  | .ok frame => { r with frame := frame }
  | .error fault => { r.note fault with frame := [0] }

/-- Lay out the frame that answers a read. -/
def produce (table : Table M) (m : M) (r : Registers) : Registers :=
  (r.readValue table m).2.layOut (r.readValue table m).1

/-- Decide what comes next in a transaction. -/
def count (table : Table M) (now : UInt32) (m : M) (r : Registers) : Registers :=
  if r.remaining = 0 then
    let taken := { r with kept := none }
    match r.kept with
    | none => taken.enter .listening now
    | some data =>
      let slot : Slot := ⟨r.property, data⟩
      if r.holdsBack then (taken.stage slot).enter .listening now
      else { taken with pending := some slot }.enter .committing now
  else
    let r := { r with remaining := r.remaining - 1 }
    if r.action = .read ∧ r.remaining = 0 then
      (r.enter .sending now).produce table m
    else
      { r with kept := none }.enter .relaying now

/-- Send as many bytes of the node's own frame as are accepted, and answer them. -/
def send (now : UInt32) (r : Registers) (accepted : Nat) : Registers × List UInt8 :=
  if r.timedOut now then
    (r.fail .timeout now, [])
  else
    let sent := (r.frame.drop r.progress).take accepted
    let r :=
      if 0 < accepted then { r with since := now, progress := r.progress + accepted } else r
    (if r.frame.length ≤ r.progress then r.enter .listening now else r, sent)

/-- The registers after a frame has ended; `keep` tells whether its value is meant for the node. -/
def finishFrame (now : UInt32) (r : Registers) (keep : Bool) : Registers :=
  match r.collector.decode with
  | .ok (.data value) =>
    (if keep then { r with kept := some value } else r).enter .counting now
  | .ok .placeholder => r.enter .counting now
  | .ok .empty => if keep then r.fail .decoding now else r.enter .counting now
  | .error .invalidChecksum => r.fail .checksumMismatch now
  | .error _ => r.fail .decoding now

/-- Take the bytes of a frame up to its end, and answer how many they are. -/
def collect (now : UInt32) (keep : Bool) (r : Registers) : List UInt8 → Registers × Nat
  | [] => (r, 0)
  | byte :: rest =>
    match r.collector.feed byte with
    | (.ok false, collector) =>
      let (r', taken) := collect now keep { r with since := now, collector := collector } rest
      (r', taken + 1)
    | (.ok true, collector) =>
      ({ r with since := now, collector := collector }.finishFrame now keep, 1)
    | (.error _, _) => ({ r with since := now }.fail .decoding now, 1)

/-- A frame that is being received is sent on: another node needs it. -/
def passes (r : Registers) : Bool :=
  r.remaining ≠ 0 ∨ r.action = .broadcast

/-- A frame that is being received is meant for the node. -/
def keeps (r : Registers) : Bool :=
  r.action ≠ .read ∧ r.remaining = 0

/-- Receive a frame in the given bytes, and answer how many are taken. -/
def relay (now : UInt32) (r : Registers) (bytes : List UInt8) : Registers × Nat :=
  if r.timedOut now then
    (if r.collector.bytes = [] ∧ r.keeps = false then r.enter .listening now
      else r.fail .timeout now, 0)
  else
    r.collect now r.keeps bytes

/-- Listen again after values have been applied, or recover. -/
def conclude (now : UInt32) (r : Registers) : Except Fault Unit → Registers
  | .ok () => r.enter .listening now
  | .error fault => r.fail fault now

/-- Nothing waits to be applied. -/
def applied (r : Registers) : Bool :=
  if r.committing then r.staged = [] else r.pending = none

/-- The registers without all values that wait to be applied, those held back included. -/
def abandon (r : Registers) : Registers :=
  { r with pending := none, staged := [], committing := false }

/-- Apply values once every byte sent has left the node.  After too long a wait all values are given
up. -/
def commit (table : Table M) (now : UInt32) (r : Registers) (drained : Bool) (m : M) :
    Registers × M :=
  if r.applied then
    ({ r with committing := false }.enter .listening now, m)
  else if drained = false then
    (if r.timedOut now then r.abandon.fail .timeout now else r, m)
  else if r.committing then
    let (result, m') := applyAll table r.staged m
    ({ r with staged := [], committing := false }.conclude now result, m')
  else
    match r.pending with
    | some slot =>
      let (result, m') := applySlot table slot m
      ({ r with pending := none }.conclude now result, m')
    | none => (r.enter .listening now, m)

end Registers

/-! ### Ticks -/

/-- What the port of a node offers in one tick. -/
structure Offer where
  /-- The bytes that can be read, and sent on at once where that is needed. -/
  bytes : List UInt8 := []
  /-- How many bytes of the node's own frame are accepted. -/
  accepted : Nat := 0
  /-- Every byte sent has left the node. -/
  drained : Bool := false
  /-- The line is still active. -/
  busy : Bool := false

/-- What becomes of a node in one tick. -/
structure Effect (M : Type) where
  registers : Registers
  module : M
  /-- How many bytes have been read. -/
  taken : Nat := 0
  sent : List UInt8 := []

/-- One step at the given time. -/
def Registers.tick {M : Type} (table : Table M) (now : UInt32) (r : Registers) (offer : Offer)
    (m : M) : Effect M :=
  match r.state with
  | .listening =>
    let (r', sent) := r.listen now offer.bytes
    ⟨r', m, sent.length, sent⟩
  | .recovering =>
    ⟨r.recover now offer.busy, m, offer.bytes.length, offer.bytes.map fun _ => 0⟩
  | .counting => ⟨r.count table now m, m, 0, []⟩
  | .sending =>
    let (r', sent) := r.send now offer.accepted
    ⟨r', m, 0, sent⟩
  | .relaying =>
    let (r', taken) := r.relay now offer.bytes
    ⟨r', m, taken, if r.passes then offer.bytes.take taken else []⟩
  | .committing =>
    let (r', m') := r.commit table now offer.drained m
    ⟨r', m', 0, []⟩

namespace Registers

variable {M : Type} {r : Registers} {now : UInt32}

/-! ### Coherent registers -/

/-- The record of the last fault. -/
def record (r : Registers) : Option Record :=
  match r.lastFault, r.faultState with
  | some fault, some state => some ⟨fault, state⟩
  | _, _ => none

/-- What holds in every state: of the values held back and of the record. -/
structure Stocked (r : Registers) : Prop where
  few : r.staged.length ≤ slotsMax
  apart : (r.staged.map Slot.property).Nodup
  recorded : r.lastFault = none ↔ r.faultState = none
  occurred : r.faultState ≠ some .recovering

/-- No value of a transaction waits, and no commit. -/
structure Clear (r : Registers) : Prop where
  kept : r.kept = none
  pending : r.pending = none
  committing : r.committing = false

/-- Only the values held back and the record matter to what is stocked. -/
theorem Stocked.congr {r' : Registers} (stocked : r.Stocked) (staged : r'.staged = r.staged)
    (lastFault : r'.lastFault = r.lastFault) (faultState : r'.faultState = r.faultState) :
  r'.Stocked
  := by
  constructor
  · rw [staged]
    exact stocked.few
  · rw [staged]
    exact stocked.apart
  · rw [lastFault, faultState]
    exact stocked.recorded
  · rw [faultState]
    exact stocked.occurred

/-- Only what waits matters to whether anything does. -/
theorem Clear.congr {r' : Registers} (clear : r.Clear) (kept : r'.kept = r.kept)
    (pending : r'.pending = r.pending) (committing : r'.committing = r.committing) :
  r'.Clear
  := ⟨kept.trans clear.kept, pending.trans clear.pending, committing.trans clear.committing⟩

/-- A transaction is in progress. -/
structure Asked (r : Registers) : Prop where
  action : r.action ≠ .sync
  remaining : r.remaining ≤ countMax

/-- What a node that listens has heard of a header. -/
structure Hears (r : Registers) : Prop where
  few : r.progress ≤ 2
  first : 0 < r.progress → r.action = r.received.action ∧ r.action ≠ .sync ∧
    r.holdsBack = r.received.flag ∧ r.forwarded.byte0 = forwardFirst r.record r.received.byte0
  second : 1 < r.progress → r.property = r.received.property ∧
    r.forwarded.byte1 = forwardSecond r.received.byte0 r.received.byte1

/-- A frame has begun and has not ended. -/
structure Unfinished (c : Frame.Collector) : Prop where
  incomplete : c.complete = false
  nonzero : 0 ∉ c.bytes
  fits : c.bytes.length ≤ frameMax

/-- What the registers hold in the state in which they are. -/
inductive Engaged (r : Registers) : Prop where
  | listening (state : r.state = .listening) (clear : r.Clear) (collector : r.collector = .start)
    (hears : r.Hears)
  | recovering (state : r.state = .recovering) (clear : r.Clear) (collector : r.collector = .start)
    (progress : r.progress = 0)
  | counting (state : r.state = .counting) (pending : r.pending = none)
    (committing : r.committing = false) (collector : r.collector = .start) (progress : r.progress = 0)
    (asked : r.Asked) (kept : r.kept.isSome = true → r.remaining = 0 ∧ r.action ≠ .read)
  | sending (state : r.state = .sending) (clear : r.Clear) (collector : r.collector = .start)
    (asked : r.Asked) (read : r.action = .read) (whole : ∃ content, Frame.Whole r.frame content)
    (progress : r.progress < r.frame.length)
  | relaying (state : r.state = .relaying) (clear : r.Clear) (progress : r.progress = 0)
    (asked : r.Asked) (collector : Unfinished r.collector)
  | committing (state : r.state = .committing) (kept : r.kept = none)
    (collector : r.collector = .start) (progress : r.progress = 0)
    (batch : r.committing = true ∧ r.pending = none ∨
      r.committing = false ∧ ∃ slot, r.pending = some slot)

/-- The registers of a node between two ticks. -/
structure Coherent (r : Registers) : Prop where
  stocked : r.Stocked
  engaged : r.Engaged

/-- The registers of a node that has just been started are coherent. -/
theorem coherent_start :
  Coherent {}
  := by
  refine ⟨⟨by decide, by decide, by decide, by decide⟩, .listening rfl ⟨rfl, rfl, rfl⟩ rfl ?_⟩
  exact ⟨by decide, fun some => absurd some (by decide), fun some => absurd some (by decide)⟩

/-! ### Ends of a transaction -/

/-- A fault is recorded in the state in which it occurs. -/
theorem Stocked.note (stocked : r.Stocked) (state : r.state ≠ .recovering) (fault : Fault) :
  (r.note fault).Stocked
  := by
  refine ⟨stocked.few, stocked.apart, by simp [Registers.note], ?_⟩
  simpa [Registers.note] using state

/-- If nothing is in progress, a node may listen anew. -/
theorem Clear.listen (clear : r.Clear) (stocked : r.Stocked) (now : UInt32) :
  (r.enter .listening now).Coherent
  := by
  refine ⟨stocked.congr rfl rfl rfl, .listening rfl (clear.congr rfl rfl rfl) rfl ?_⟩
  exact ⟨Nat.zero_le _, fun some => absurd some (Nat.lt_irrefl 0),
    fun some => absurd some (Nat.not_lt_zero 1)⟩

/-- If nothing is in progress, a node may recover from a fault. -/
theorem Clear.fail (clear : r.Clear) (stocked : r.Stocked) (state : r.state ≠ .recovering)
    (fault : Fault) (now : UInt32) :
  (r.fail fault now).Coherent
  := by
  have noted := stocked.note state fault
  exact ⟨noted.congr rfl rfl rfl, .recovering rfl (clear.congr rfl rfl rfl) rfl rfl⟩

/-- Once values have been applied, a node may listen anew or recover. -/
theorem Clear.conclude (clear : r.Clear) (stocked : r.Stocked) (state : r.state ≠ .recovering)
    (now : UInt32) (result : Except Fault Unit) :
  (r.conclude now result).Coherent
  := by
  cases result with
  | ok _ => exact clear.listen stocked now
  | error fault => exact clear.fail stocked state fault now

/-! ### Hearing -/

/-- A node that listens has nothing in progress. -/
theorem Coherent.listening (coherent : r.Coherent) (state : r.state = .listening) :
  r.Clear ∧ r.collector = .start ∧ r.Hears
  := by
  have only {other : NodeState} (here : r.state = other) : other = .listening := here.symm.trans state
  cases coherent.engaged with
  | listening _ clear collector hears => exact ⟨clear, collector, hears⟩
  | recovering other => exact absurd (only other) (by decide)
  | counting other => exact absurd (only other) (by decide)
  | sending other => exact absurd (only other) (by decide)
  | relaying other => exact absurd (only other) (by decide)
  | committing other => exact absurd (only other) (by decide)

/-- A fault and the state in which it occurred are known together, or neither of them. -/
theorem Stocked.recording (stocked : r.Stocked) :
  r.lastFault = none ∧ r.faultState = none ∨
    ∃ fault state, r.lastFault = some fault ∧ r.faultState = some state
  := by
  cases fault : r.lastFault with
  | none => exact .inl ⟨rfl, stocked.recorded.mp fault⟩
  | some fault' =>
    cases state : r.faultState with
    | none => exact absurd (stocked.recorded.mpr state) (by simp [fault])
    | some state' => exact .inr ⟨fault', state', rfl, rfl⟩

/-- The record tells the fault. -/
theorem Stocked.fault_record (stocked : r.Stocked) :
  r.record.map Record.fault = r.lastFault
  := by
  rw [record]
  obtain ⟨fault, state⟩ | ⟨fault', state', fault, state⟩ := stocked.recording
  · rw [fault]
    rfl
  · rw [fault, state]
    rfl

/-- There is a record if there is a fault. -/
theorem Stocked.isSome_record (stocked : r.Stocked) :
  r.record.isSome = r.lastFault.isSome
  := by
  rw [← stocked.fault_record, Option.isSome_map]

/-- The first byte of a header is forwarded with the flag set if there is a fault to report. -/
theorem Stocked.byte0_answered (stocked : r.Stocked) {header : RawHeader}
    (action : header.action ≠ .sync) :
  (r.answered header).byte0 = forwardFirst r.record header.byte0
  := by
  rw [answered, if_neg action, forwardFirst, stocked.isSome_record]
  apply apply_ite RawHeader.byte0

/-- The first byte of a header keeps the registers coherent. -/
theorem coherent_hearFirst (stocked : r.Stocked) (state : r.state = .listening) (clear : r.Clear)
    (collector : r.collector = .start) (progress : r.progress = 1) (byte : UInt8) (now : UInt32) :
  (r.hearFirst byte now).1.Coherent
  := by
  let header : RawHeader := ⟨byte, 0, 0⟩
  let opened := r.opened header (r.answered header)
  have stocked' : opened.Stocked := stocked.congr rfl rfl rfl
  have clear' : opened.Clear := clear.congr rfl rfl rfl
  change (opened.synchronise now).Coherent
  rw [synchronise]
  split
  · split
    · exact ⟨stocked.congr rfl rfl rfl,
        .committing rfl clear.kept rfl rfl (.inl ⟨rfl, clear.pending⟩)⟩
    all_goals exact clear'.listen stocked' now
  · next action =>
    refine ⟨stocked', .listening state clear' collector ⟨?_, fun _ => ?_, fun some => ?_⟩⟩
    · exact Nat.le_trans (Nat.le_of_eq progress) (by decide)
    · exact ⟨rfl, action, rfl, stocked.byte0_answered action⟩
    · change 1 < r.progress at some
      omega

/-- The second byte of a header keeps the registers coherent. -/
theorem coherent_hearSecond (stocked : r.Stocked) (state : r.state = .listening) (clear : r.Clear)
    (collector : r.collector = .start) (progress : r.progress = 2)
    (first : r.action = r.received.action ∧ r.action ≠ .sync ∧ r.holdsBack = r.received.flag ∧
      r.forwarded.byte0 = forwardFirst r.record r.received.byte0) (byte : UInt8) :
  (r.hearSecond byte).1.Coherent
  := by
  refine ⟨stocked.congr rfl rfl rfl, .listening state (clear.congr rfl rfl rfl) collector
      ⟨Nat.le_of_eq progress, fun _ => first, fun _ => ⟨rfl, ?_⟩⟩⟩
  change RawHeader.setLow byte 64 (countAfter r.action (byte.toNat % 64) % 64) = _
  rw [first.1]
  rfl

/-- No header asks for more frames than a count can tell. -/
theorem framesAsked_le (action : Action) (header : RawHeader) :
  framesAsked action header.count ≤ countMax
  := by
  have small := header.count_lt
  have wrapped : (header.count + 1) % countModulus < countModulus := Nat.mod_lt _ (by decide)
  cases action <;> simp only [framesAsked, countMax, countModulus] at * <;> omega

/-- A complete header leaves the registers coherent. -/
theorem coherent_accept (stocked : r.Stocked) (state : r.state = .listening) (clear : r.Clear)
    (action : r.action ≠ .sync) (header : RawHeader) (now : UInt32) :
  (r.accept header now).Coherent
  := by
  have awake : r.state ≠ .recovering := by
    rw [state]
    decide
  rw [accept]
  split
  · exact clear.fail stocked awake .headerParity now
  · split
    · exact clear.fail stocked awake .invalidState now
    · refine ⟨stocked.congr rfl rfl rfl,
        .counting rfl clear.pending clear.committing rfl rfl ⟨action, framesAsked_le _ _⟩ ?_⟩
      intro some
      change r.kept.isSome = true at some
      rw [clear.kept] at some
      contradiction

/-- Each byte of a header keeps the registers coherent. -/
theorem Coherent.hear (coherent : r.Coherent) (state : r.state = .listening) (byte : UInt8)
    (now : UInt32) :
  (r.hear byte now).1.Coherent
  := by
  obtain ⟨clear, collector, hears⟩ := coherent.listening state
  have stocked := coherent.stocked
  let taken : Registers := { r with since := now, progress := r.progress + 1 }
  have stocked' : taken.Stocked := stocked.congr rfl rfl rfl
  have clear' : taken.Clear := clear.congr rfl rfl rfl
  have few := hears.few
  rw [Registers.hear]
  split
  · next none =>
    exact coherent_hearFirst stocked' state clear' collector (congrArg (· + 1) none) byte now
  · next one =>
    exact coherent_hearSecond stocked' state clear' collector (congrArg (· + 1) one)
      (hears.first (by omega)) byte
  · next none one =>
    have some : 0 < r.progress := Nat.pos_of_ne_zero none
    let header : RawHeader := { r.received with byte2 := byte }
    let completed := taken.completed header (taken.passedOn header)
    apply coherent_accept (r := completed) _ state _ (hears.first some).2.1
    · exact stocked.congr rfl rfl rfl
    · exact clear.congr rfl rfl rfl

/-- Whatever a node hears keeps its registers coherent. -/
theorem Coherent.listen (coherent : r.Coherent) (now : UInt32) (bytes : List UInt8) :
  (r.listen now bytes).1.Coherent
  := by
  induction bytes generalizing r with
  | nil =>
    rw [Registers.listen]
    split
    · next late =>
      apply (coherent.listening late.1).1.fail coherent.stocked
      rw [late.1]
      decide
    · exact coherent
  | cons byte rest ih =>
    rw [Registers.listen]
    split
    · next state => exact ih (coherent.hear state byte now)
    · exact coherent

/-- A node that recovers keeps its registers coherent. -/
theorem coherent_recover (stocked : r.Stocked) (state : r.state = .recovering) (clear : r.Clear)
    (collector : r.collector = .start) (progress : r.progress = 0) (now : UInt32) (busy : Bool) :
  (r.recover now busy).Coherent
  := by
  rw [recover]
  split
  · exact ⟨stocked.congr rfl rfl rfl,
      .recovering state (clear.congr rfl rfl rfl) collector progress⟩
  · split
    · exact clear.listen stocked now
    · exact ⟨stocked, .recovering state clear collector progress⟩

/-! ### Holding back -/

/-- A value takes the place of an older one of its property, if there is one. -/
theorem replace_eq (slot : Slot) {staged : List Slot} (apart : (staged.map Slot.property).Nodup) :
  replace slot staged =
    if staged.any fun held => held.property == slot.property then
      some (staged.map fun held => if held.property == slot.property then slot else held)
    else
      none
  := by
  induction staged with
  | nil => rfl
  | cons held rest ih =>
    rw [List.map_cons, List.nodup_cons] at apart
    rw [replace, List.any_cons, List.map_cons]
    by_cases same : held.property = slot.property
    · -- No other value is of this property.
      have others : (rest.map fun other => if other.property == slot.property then slot else other) =
          rest := by
        refine (List.map_congr_left fun other member => ?_).trans (List.map_id rest)
        refine if_neg fun here => apart.1 ?_
        rw [same, ← beq_iff_eq.mp here]
        exact List.mem_map_of_mem member
      rw [if_pos same, beq_iff_eq.mpr same, Bool.true_or, if_pos rfl, if_pos rfl, others]
    · rw [if_neg same, beq_eq_false_iff_ne.mpr same, Bool.false_or, if_neg Bool.false_ne_true,
        ih apart.2, apply_ite (Option.map _)]
      rfl

/-- A value that takes the place of another one is of the same property. -/
theorem property_replace {slot : Slot} {staged staged' : List Slot}
    (replaces : replace slot staged = some staged') :
  staged'.map Slot.property = staged.map Slot.property
  := by
  induction staged generalizing staged' with
  | nil => contradiction
  | cons held rest ih =>
    rw [replace] at replaces
    split at replaces
    · next same =>
      cases replaces
      rw [List.map_cons, List.map_cons, same]
    · obtain ⟨rest', found, rfl⟩ := Option.map_eq_some_iff.mp replaces
      rw [List.map_cons, List.map_cons, ih found]

/-- A value that takes nobody's place is the only one of its property. -/
theorem notMem_of_replace {slot : Slot} {staged : List Slot} (fails : replace slot staged = none) :
  slot.property ∉ staged.map Slot.property
  := by
  induction staged with
  | nil => exact List.not_mem_nil
  | cons held rest ih =>
    rw [replace] at fails
    split at fails
    · contradiction
    · next differs =>
      rw [List.map_cons, List.mem_cons, not_or]
      exact ⟨Ne.symm differs, ih (Option.map_eq_none_iff.mp fails)⟩

/-- There is one value of each property, and no more values than places, once another value has been
held back. -/
theorem Stocked.stage (stocked : r.Stocked) (awake : r.state ≠ .recovering) (slot : Slot) :
  (r.stage slot).Stocked
  := by
  rw [Registers.stage]
  split
  · next staged replaces =>
    have properties := property_replace replaces
    have places := congrArg List.length properties
    rw [List.length_map, List.length_map] at places
    refine ⟨Nat.le_trans (Nat.le_of_eq places) stocked.few, ?_, stocked.recorded, stocked.occurred⟩
    change (staged.map Slot.property).Nodup
    rw [properties]
    exact stocked.apart
  · next fails =>
    split
    · next room =>
      refine ⟨?_, ?_, stocked.recorded, stocked.occurred⟩
      · change (r.staged ++ [slot]).length ≤ slotsMax
        rw [List.length_append]
        exact room
      · change ((r.staged ++ [slot]).map Slot.property).Nodup
        rw [List.map_append, List.nodup_append]
        refine ⟨stocked.apart, by simp, fun p before q last same => ?_⟩
        rw [List.map_singleton, List.mem_singleton] at last
        exact notMem_of_replace fails (last ▸ same ▸ before)
    · exact stocked.note awake .invalidState

/-- To hold a value back is to leave nothing in progress that was not. -/
theorem Clear.stage (clear : r.Clear) (slot : Slot) :
  (r.stage slot).Clear
  := by
  rw [Registers.stage]
  split
  · exact clear.congr rfl rfl rfl
  · split <;> exact clear.congr rfl rfl rfl

/-! ### Answers -/

/-- A node whose turn it is in a read has not sent anything yet. -/
structure Answers (r : Registers) : Prop where
  state : r.state = .sending
  clear : r.Clear
  collector : r.collector = .start
  progress : r.progress = 0
  asked : r.Asked
  read : r.action = .read

/-- A node that answers a read with a whole frame keeps its registers coherent. -/
theorem Answers.coherent (answers : r.Answers) (stocked : r.Stocked) {frame : List UInt8} {content : Frame}
    (whole : Frame.Whole frame content) :
  Coherent { r with frame := frame }
  := by
  obtain ⟨state, ⟨kept, pending, committing⟩, collector, progress, ⟨action, remaining⟩, read⟩ := answers
  refine ⟨stocked.congr rfl rfl rfl,
    .sending state ⟨kept, pending, committing⟩ collector ⟨action, remaining⟩ read ⟨content, whole⟩ ?_⟩
  obtain ⟨body, rfl, -⟩ := whole.ends
  change r.progress < (body ++ [0]).length
  rw [progress, List.length_append]
  exact Nat.succ_pos _

/-- A record that is reported is forgotten. -/
theorem Answers.forget (answers : r.Answers) (stocked : r.Stocked) :
  Answers { r with lastFault := none, faultState := none } ∧
    Stocked { r with lastFault := none, faultState := none }
  := by
  obtain ⟨state, ⟨kept, pending, committing⟩, collector, progress, ⟨action, remaining⟩, read⟩ := answers
  exact ⟨⟨state, ⟨kept, pending, committing⟩, collector, progress, ⟨action, remaining⟩, read⟩,
    ⟨stocked.few, stocked.apart, ⟨fun _ => rfl, fun _ => rfl⟩, nofun⟩⟩

/-- What a node that answers a read has done to find the value. -/
theorem Answers.readValue (answers : r.Answers) (stocked : r.Stocked) (table : Table M) (m : M) :
  (r.readValue table m).2.Answers ∧ (r.readValue table m).2.Stocked
  := by
  rw [Registers.readValue]
  split
  · exact answers.forget stocked
  · exact ⟨answers, stocked⟩

/-- A node that has a fault to record may still answer. -/
theorem Answers.note (answers : r.Answers) (fault : Fault) :
  (r.note fault).Answers
  := by
  obtain ⟨state, ⟨kept, pending, committing⟩, collector, progress, ⟨action, remaining⟩, read⟩ := answers
  exact ⟨state, ⟨kept, pending, committing⟩, collector, progress, ⟨action, remaining⟩, read⟩

/-- A value is sent as a whole frame. -/
theorem whole_of_framed {value : Except Fault (List UInt8)} {frame : List UInt8}
    (fits : framed value = .ok frame) :
  ∃ content, Frame.Whole frame content
  := by
  cases value with
  | error fault => contradiction
  | ok data =>
    cases encoded : Frame.encode data with
    | error e =>
      simp only [framed, Except.bind, encoded] at fits
      contradiction
    | ok bytes =>
      simp only [framed, Except.bind, encoded] at fits
      cases fits
      exact ⟨_, Frame.whole_of_encode encoded⟩

/-- A node answers a read with a whole frame, whether it has a value or not. -/
theorem Answers.produce (answers : r.Answers) (stocked : r.Stocked) (table : Table M) (m : M) :
  (r.produce table m).Coherent
  := by
  obtain ⟨answers', stocked'⟩ := answers.readValue stocked table m
  rw [Registers.produce, layOut]
  split
  · next frame fits =>
    obtain ⟨content, whole⟩ := whole_of_framed fits
    exact answers'.coherent stocked' whole
  · next fault _ =>
    refine (answers'.note fault).coherent (stocked'.note ?_ fault) Frame.whole_terminator
    rw [answers'.state]
    decide

/-- A node that sends its own frame keeps its registers coherent. -/
theorem coherent_send (stocked : r.Stocked) (state : r.state = .sending) (clear : r.Clear)
    (collector : r.collector = .start) (asked : r.Asked) (read : r.action = .read)
    (whole : ∃ content, Frame.Whole r.frame content) (now : UInt32) (accepted : Nat) :
  (r.send now accepted).1.Coherent
  := by
  have goes (since : UInt32) (sent : Nat) : Coherent
      (if r.frame.length ≤ sent then { r with since := since, progress := sent }.enter .listening now
        else { r with since := since, progress := sent }) := by
    split
    · apply Clear.listen
      · exact clear.congr rfl rfl rfl
      · exact stocked.congr rfl rfl rfl
    · next more =>
      exact ⟨stocked.congr rfl rfl rfl, .sending state (clear.congr rfl rfl rfl) collector
          ⟨asked.action, asked.remaining⟩ read whole (Nat.lt_of_not_le more)⟩
  rw [send]
  split
  · apply clear.fail stocked
    rw [state]
    decide
  · dsimp only
    split
    · exact goes now (r.progress + accepted)
    · exact goes r.since r.progress

/-! ### Counting and committing -/

/-- A node that counts the frames of a transaction keeps its registers coherent. -/
theorem coherent_count (stocked : r.Stocked) (state : r.state = .counting) (pending : r.pending = none)
    (committing : r.committing = false) (asked : r.Asked)
    (kept : r.kept.isSome = true → r.remaining = 0 ∧ r.action ≠ .read) (table : Table M) (now : UInt32)
    (m : M) :
  (r.count table now m).Coherent
  := by
  have clear : Clear { r with kept := none } := ⟨rfl, pending, committing⟩
  have stocked' : Stocked { r with kept := none } := stocked.congr rfl rfl rfl
  have awake : r.state ≠ .recovering := by
    rw [state]
    decide
  rw [count]
  split
  · dsimp only
    split
    · exact clear.listen stocked' now
    · next data _ =>
      split
      · exact (clear.stage _).listen (stocked'.stage awake _) now
      · exact ⟨stocked.congr rfl rfl rfl, .committing rfl rfl rfl rfl (.inr ⟨committing, _, rfl⟩)⟩
  · next more =>
    have fewer : r.remaining - 1 ≤ countMax := Nat.le_trans (Nat.sub_le _ _) asked.remaining
    dsimp only
    split
    · next own =>
      have none : r.kept = none := by
        cases held : r.kept with
        | none => rfl
        | some data => exact absurd (kept (by rw [held]; rfl)).1 more
      apply Answers.produce
      · exact ⟨rfl, ⟨none, pending, committing⟩, rfl, rfl, ⟨asked.action, fewer⟩, own.1⟩
      · exact stocked.congr rfl rfl rfl
    · exact ⟨stocked.congr rfl rfl rfl,
        .relaying rfl ⟨rfl, pending, committing⟩ rfl ⟨asked.action, fewer⟩
          ⟨rfl, List.not_mem_nil, Nat.zero_le _⟩⟩

/-- A node that applies values, or waits to, keeps its registers coherent. -/
theorem coherent_commit (stocked : r.Stocked) (state : r.state = .committing) (kept : r.kept = none)
    (collector : r.collector = .start) (progress : r.progress = 0)
    (batch : r.committing = true ∧ r.pending = none ∨
      r.committing = false ∧ ∃ slot, r.pending = some slot)
    (table : Table M) (now : UInt32) (drained : Bool) (m : M) :
  (r.commit table now drained m).1.Coherent
  := by
  have awake : r.state ≠ .recovering := by
    rw [state]
    decide
  rw [commit]
  split
  · next nothing =>
    apply Clear.listen
    · refine ⟨kept, ?_, rfl⟩
      obtain ⟨-, none⟩ | ⟨single, -⟩ := batch
      · exact none
      · simpa [applied, single] using nothing
    · exact stocked.congr rfl rfl rfl
  · split
    · dsimp only
      split
      · apply Clear.fail
        · exact ⟨kept, rfl, rfl⟩
        · exact ⟨Nat.zero_le _, List.nodup_nil, stocked.recorded, stocked.occurred⟩
        · exact awake
      · exact ⟨stocked, .committing state kept collector progress batch⟩
    · obtain ⟨all, none⟩ | ⟨single, slot, is⟩ := batch
      · rw [if_pos all]
        apply Clear.conclude
        · exact ⟨kept, none, rfl⟩
        · exact ⟨Nat.zero_le _, List.nodup_nil, stocked.recorded, stocked.occurred⟩
        · exact awake
      · rw [if_neg (ne_true_of_eq_false single), is]
        apply Clear.conclude
        · exact ⟨kept, rfl, single⟩
        · exact stocked.congr rfl rfl rfl
        · exact awake

/-! ### Relaying -/

/-- A frame that goes on has not ended. -/
theorem Unfinished.feed {c c' : Frame.Collector} (unfinished : Unfinished c) {byte : UInt8}
    (fed : c.feed byte = (.ok false, c')) :
  Unfinished c'
  := by
  have reopened : c.reopen = c := by
    rw [Frame.Collector.reopen, unfinished.incomplete, if_neg Bool.false_ne_true]
  rw [Frame.Collector.feed, reopened] at fed
  split at fed
  · next room =>
    obtain ⟨continues, rfl⟩ := Prod.mk.inj fed
    have continues : (byte == 0) = false := Except.ok.inj continues
    refine ⟨continues, ?_, ?_⟩
    · rw [List.mem_append, List.mem_singleton, not_or]
      exact ⟨unfinished.nonzero, (ne_of_beq_false continues).symm⟩
    · rw [List.length_append]
      exact room
  · cases fed

/-- A frame that has ended leaves the registers coherent. -/
theorem coherent_finishFrame (stocked : r.Stocked) (state : r.state = .relaying) (clear : r.Clear)
    (asked : r.Asked) (now : UInt32) :
  (r.finishFrame now r.keeps).Coherent
  := by
  have awake : r.state ≠ .recovering := by
    rw [state]
    decide
  have stocked' : (r.enter .counting now).Stocked := stocked.congr rfl rfl rfl
  have counts : (r.enter .counting now).Coherent := by
    refine ⟨stocked', .counting rfl clear.pending clear.committing rfl rfl
      ⟨asked.action, asked.remaining⟩ fun some => ?_⟩
    change r.kept.isSome = true at some
    rw [clear.kept] at some
    contradiction
  rw [finishFrame]
  split
  · split
    · next value _ keep =>
      have own : r.action ≠ .read ∧ r.remaining = 0 := of_decide_eq_true keep
      exact ⟨stocked.congr rfl rfl rfl,
        .counting rfl clear.pending clear.committing rfl rfl ⟨asked.action, asked.remaining⟩
          fun _ => ⟨own.2, own.1⟩⟩
    · exact counts
  · exact counts
  · split
    · exact clear.fail stocked awake .decoding now
    · exact counts
  · exact clear.fail stocked awake .checksumMismatch now
  · exact clear.fail stocked awake .decoding now

/-- Whatever comes of a frame keeps the registers coherent. -/
theorem coherent_collect (stocked : r.Stocked) (state : r.state = .relaying) (clear : r.Clear)
    (progress : r.progress = 0) (asked : r.Asked) (unfinished : Unfinished r.collector)
    (now : UInt32) (bytes : List UInt8) :
  (r.collect now r.keeps bytes).1.Coherent
  := by
  induction bytes generalizing r with
  | nil => exact ⟨stocked, .relaying state clear progress asked unfinished⟩
  | cons byte rest ih =>
    -- Whatever the byte does to the collector, the other registers are as they were.
    have stocked' (since : UInt32) (collector : Frame.Collector) :
        Stocked { r with since := since, collector := collector } := stocked.congr rfl rfl rfl
    have clear' (since : UInt32) (collector : Frame.Collector) :
        Clear { r with since := since, collector := collector } := clear.congr rfl rfl rfl
    have asked' (since : UInt32) (collector : Frame.Collector) :
        Asked { r with since := since, collector := collector } :=
      ⟨asked.action, asked.remaining⟩
    rw [collect]
    split
    · next collector fed =>
      exact ih (stocked' now collector) state (clear' now collector) progress (asked' now collector)
        (unfinished.feed fed)
    · next collector fed =>
      exact coherent_finishFrame (stocked' now collector) state (clear' now collector)
        (asked' now collector) now
    · apply (clear' now r.collector).fail (stocked' now r.collector)
      rw [state]
      decide

/-- A node that receives a frame keeps its registers coherent. -/
theorem coherent_relay (stocked : r.Stocked) (state : r.state = .relaying) (clear : r.Clear)
    (progress : r.progress = 0) (asked : r.Asked) (unfinished : Unfinished r.collector)
    (now : UInt32) (bytes : List UInt8) :
  (r.relay now bytes).1.Coherent
  := by
  rw [relay]
  split
  · dsimp only
    split
    · exact clear.listen stocked now
    · apply clear.fail stocked
      rw [state]
      decide
  · exact coherent_collect stocked state clear progress asked unfinished now bytes

/-! ### Coherence at all times -/

/-- A tick keeps the registers coherent, whatever the port offers. -/
theorem Coherent.tick (coherent : r.Coherent) (table : Table M) (now : UInt32) (offer : Offer)
    (m : M) :
  (r.tick table now offer m).registers.Coherent
  := by
  obtain ⟨stocked, engaged⟩ := coherent
  cases engaged with
  | listening state clear collector hears =>
    simp only [Registers.tick, state]
    exact Coherent.listen ⟨stocked, .listening state clear collector hears⟩ now offer.bytes
  | recovering state clear collector progress =>
    simp only [Registers.tick, state]
    exact coherent_recover stocked state clear collector progress now offer.busy
  | counting state pending committing collector progress asked kept =>
    simp only [Registers.tick, state]
    exact coherent_count stocked state pending committing asked kept table now m
  | sending state clear collector asked read whole progress =>
    simp only [Registers.tick, state]
    exact coherent_send stocked state clear collector asked read whole now offer.accepted
  | relaying state clear progress asked unfinished =>
    simp only [Registers.tick, state]
    exact coherent_relay stocked state clear progress asked unfinished now offer.bytes
  | committing state kept collector progress batch =>
    simp only [Registers.tick, state]
    exact coherent_commit stocked state kept collector progress batch table now offer.drained m

end Registers

end DaisyChain.Node
