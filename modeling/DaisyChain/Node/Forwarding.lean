import DaisyChain.Node.Engine

/-!
# Forwarding headers

A node forwards each byte of a header as soon as it has arrived, with the node count
changed: a write counts down, everything else counts up.  A read header leaves with the flag
set if the node has a fault to report, an acknowledge with the category of the fault added.
A header that the node does not accept leaves with odd parity, so that no node behind it
accepts it either.
-/

namespace DaisyChain.Node

/-- The count with which a header of the given action leaves the node. -/
def countAfter (action : Action) (count : Nat) : Nat :=
  match action with
  | .write => (count + countMax) % countModulus
  | _ => (count + 1) % countModulus

/-- The first byte of an action header as it leaves a node with the given record. -/
def forwardFirst (record : Option Record) (byte0 : UInt8) : UInt8 :=
  if Action.ofByte byte0 = .read ∧ record.isSome then
    ((⟨byte0, 0, 0⟩ : RawHeader).setFlag true).byte0
  else
    byte0

/-- The second byte of an action header as it leaves the node. -/
def forwardSecond (byte0 byte1 : UInt8) : UInt8 :=
  RawHeader.setLow byte1 64 (countAfter (Action.ofByte byte0) (byte1.toNat % 64) % 64)

/-- The node accepts an action header. -/
def accepts (h : RawHeader) : Bool :=
  h.evenParity && !(h.action == .write && h.count == 0)

/-- The number of frames that a node has to see after the given header, its own included. -/
def framesAfter (h : RawHeader) : Nat :=
  match h.action with
  | .read => (h.count + 1) % countModulus
  | .broadcast => 1
  | _ => h.count

/-- An action header as it leaves a node with the given record. -/
def forward (record : Option Record) (h : RawHeader) : RawHeader :=
  let out : RawHeader :=
    ⟨forwardFirst record h.byte0, forwardSecond h.byte0 h.byte1, h.byte2⟩
  (out.setCount (countAfter h.action h.count)).setParity (accepts h)

/-- The request of an action header. -/
def Request.ofHeader (h : RawHeader) : Request :=
  ⟨h.action, h.flag, h.property⟩

namespace Engine

/-- Take the single byte of a sync header: the engine afterwards, and the byte it forwards. -/
def hearSync (e : Engine) (byte : UInt8) (now : UInt32) : Engine × UInt8 :=
  match SyncKind.ofByte byte with
  | .ack =>
    (e.enter (.listening .nothing) now,
      ((⟨byte, 0, 0⟩ : RawHeader).addCategories (categoriesOf e.lastFault)).byte0)
  | .commit => (e.enter (.committing .staged) now, byte)
  | .reserved1 | .reserved2 => (e.enter (.listening .nothing) now, byte)

/-- Take a complete action header: the engine afterwards. -/
def acceptHeader (e : Engine) (h : RawHeader) (now : UInt32) : Engine :=
  if h.evenParity = false then
    e.fail .headerParity now
  else if accepts h = false then
    e.fail .invalidState now
  else
    e.enter (.counting (.ofHeader h) (framesAfter h) none) now

/-- Take one byte of a header: the engine afterwards, and the byte it forwards. -/
def hear (e : Engine) (heard : Heard) (byte : UInt8) (now : UInt32) : Engine × UInt8 :=
  match heard with
  | .nothing =>
    if Action.ofByte byte = .sync then
      e.hearSync byte now
    else
      (e.enter (.listening (.first byte)) now, forwardFirst e.record byte)
  | .first byte0 =>
    (e.enter (.listening (.second byte0 byte)) now, forwardSecond byte0 byte)
  | .second byte0 byte1 =>
    let h : RawHeader := ⟨byte0, byte1, byte⟩
    (e.acceptHeader h now, (forward e.record h).byte2)

end Engine

end DaisyChain.Node
