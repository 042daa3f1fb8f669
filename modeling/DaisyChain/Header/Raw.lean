import DaisyChain.Property.Id
import DaisyChain.Report

/-!
# The bytes of a header

Every transaction opens with a header.  The header of an action has three bytes:

    byte 0    action (2 bits), flag (1 bit), property, high part (5 bits)
    byte 1    property, low part (2 bits), node count, low part (6 bits)
    byte 2    node count, high part (7 bits), parity (1 bit)

The low part of the node count comes first, because a node forwards byte 1 with the new
count before byte 2 has arrived.  The header of a synchronisation is byte 0 alone:

    byte 0    action (2 bits), kind (2 bits), fault categories (4 bits)

`RawHeader` gives access to the fields of three bytes, whatever they hold: nodes change
headers byte by byte while they forward them.
-/

namespace DaisyChain

/-- What a header asks for. -/
inductive Action where
  /-- Collect one property from every node. -/
  | read
  /-- Send every node a value of its own. -/
  | write
  /-- Send every node the same value. -/
  | broadcast
  /-- Acknowledge or commit. -/
  | sync
  deriving DecidableEq, Repr

namespace Action

/-- The two bits that stand for an action. -/
def toNat : Action → Nat
  | .read => 0
  | .write => 1
  | .broadcast => 2
  | .sync => 3

/-- The action that the two leading bits of a first byte stand for. -/
def ofByte (b : UInt8) : Action :=
  match b.toNat / 64 with
  | 0 => .read
  | 1 => .write
  | 2 => .broadcast
  | _ => .sync

end Action

/-- What a synchronisation does. -/
inductive SyncKind where
  /-- Every node adds the category of its fault. -/
  | ack
  /-- Every node applies the values it holds back. -/
  | commit
  | reserved1
  | reserved2
  deriving DecidableEq, Repr

namespace SyncKind

/-- The two bits that stand for a kind. -/
def toNat : SyncKind → Nat
  | .ack => 0
  | .commit => 1
  | .reserved1 => 2
  | .reserved2 => 3

/-- The kind that the third and fourth bits of a byte stand for. -/
def ofByte (b : UInt8) : SyncKind :=
  match b.toNat / 16 % 4 with
  | 0 => .ack
  | 1 => .commit
  | 2 => .reserved1
  | _ => .reserved2

end SyncKind

/-- The number of node counts; a count wraps round at it. -/
def countModulus : Nat := 8192

/-- The largest node count. -/
def countMax : Nat := countModulus - 1

/-- The number of bits set in a byte. -/
def ones (b : UInt8) : Nat :=
  ((List.range 8).filter b.toNat.testBit).length

/-- The three bytes of a header. -/
structure RawHeader where
  byte0 : UInt8
  byte1 : UInt8
  byte2 : UInt8
  deriving DecidableEq, Repr

namespace RawHeader

/-- The header of zeros. -/
def zero : RawHeader :=
  ⟨0, 0, 0⟩

instance : Inhabited RawHeader :=
  ⟨zero⟩

/-- The bytes in the order in which they travel. -/
def toList (h : RawHeader) : List UInt8 :=
  [h.byte0, h.byte1, h.byte2]

/-- Replace the low part of a byte, the part below `unit`. -/
def setLow (b : UInt8) (unit value : Nat) : UInt8 :=
  UInt8.ofNat (b.toNat / unit * unit + value)

/-! ### The fields of an action header -/

/-- What the header asks for. -/
def action (h : RawHeader) : Action :=
  Action.ofByte h.byte0

/-- Set what the header asks for. -/
def setAction (h : RawHeader) (action : Action) : RawHeader :=
  { h with byte0 := UInt8.ofNat (action.toNat * 64 + h.byte0.toNat % 64) }

/-- The flag tells that a write is held back, or that a node with a fault was read. -/
def flag (h : RawHeader) : Bool :=
  h.byte0.toNat.testBit 5

/-- Set the flag. -/
def setFlag (h : RawHeader) (flag : Bool) : RawHeader :=
  { h with byte0 := setLow h.byte0 64 (flag.toNat * 32 + h.byte0.toNat % 32) }

/-- The property that the header is about. -/
def property (h : RawHeader) : PropertyId :=
  ⟨UInt8.ofNat (h.byte0.toNat % 32 * 4 + h.byte1.toNat / 64)⟩

/-- Set the property; of its number, seven bits travel. -/
def setProperty (h : RawHeader) (id : PropertyId) : RawHeader :=
  { h with
    byte0 := setLow h.byte0 32 (id.wire / 4)
    byte1 := UInt8.ofNat (id.wire % 4 * 64 + h.byte1.toNat % 64) }

/-- The part of the node count that byte 1 holds. -/
def countLow (h : RawHeader) : Nat :=
  h.byte1.toNat % 64

/-- The part of the node count that byte 2 holds. -/
def countHigh (h : RawHeader) : Nat :=
  h.byte2.toNat / 2 * 64

/-- The node count, put together from its two parts. -/
def count (h : RawHeader) : Nat :=
  h.countHigh + h.countLow

/-- Set the node count, which wraps round at `countModulus`. -/
def setCount (h : RawHeader) (count : Nat) : RawHeader :=
  { h with
    byte1 := setLow h.byte1 64 (count % 64)
    byte2 := UInt8.ofNat (count / 64 % 128 * 2 + h.byte2.toNat % 2) }

/-- The number of bits set in the three bytes is even. -/
def evenParity (h : RawHeader) : Bool :=
  (ones h.byte0 + ones h.byte1 + ones h.byte2) % 2 == 0

/-- Choose the parity bit such that the parity is even, or odd. -/
def setParity (h : RawHeader) (even : Bool) : RawHeader :=
  if h.evenParity = even then h else { h with byte2 := h.byte2 ^^^ 1 }

/-! ### The fields of a sync header -/

/-- What the synchronisation does. -/
def syncKind (h : RawHeader) : SyncKind :=
  SyncKind.ofByte h.byte0

/-- Set what the synchronisation does. -/
def setSyncKind (h : RawHeader) (kind : SyncKind) : RawHeader :=
  { h with byte0 := setLow h.byte0 64 (kind.toNat * 16 + h.byte0.toNat % 16) }

/-- The fault categories collected so far. -/
def categories (h : RawHeader) : Categories :=
  Categories.ofByte h.byte0

/-- Add fault categories to those that the header collected so far. -/
def addCategories (h : RawHeader) (categories : Categories) : RawHeader :=
  { h with byte0 := setLow h.byte0 16 (h.categories ∪ categories).toNat }

end RawHeader

end DaisyChain
