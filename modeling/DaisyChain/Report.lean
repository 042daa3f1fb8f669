/-!
# What a node reports

A node is always in one of six states.  When something goes wrong it keeps a record: the
fault and the state in which it occurred.  The record travels to the gateway as two bytes,
on request; of a fault, an acknowledge collects only the category.  Categories of several
nodes are united on the way.

`ofByte_toByte` says that the wire bytes of states and faults are read back, and
`ofByte_toByte` of `Categories` the same of a set of categories.
-/

namespace DaisyChain

/-! ### States -/

/-- What a node is doing. -/
inductive NodeState where
  /-- It waits for the next header. -/
  | listening
  /-- It discards traffic until it has recovered. -/
  | recovering
  /-- It counts down to its own turn. -/
  | counting
  /-- It sends its own frame. -/
  | sending
  /-- It receives or relays a frame. -/
  | relaying
  /-- It applies a received value. -/
  | committing
  deriving DecidableEq, Repr

namespace NodeState

/-- The name of a state. -/
def name : NodeState → String
  | .listening => "Receive Header"
  | .recovering => "Error"
  | .counting => "Decrement Node Count"
  | .sending => "Transmit Property"
  | .relaying => "Receive Property"
  | .committing => "Commit Property"

/-- The byte that stands for a state. -/
def toByte : NodeState → UInt8
  | .listening => 1
  | .recovering => 2
  | .counting => 3
  | .sending => 4
  | .relaying => 5
  | .committing => 6

/-- The state that a byte stands for, if any. -/
def ofByte (b : UInt8) : Option NodeState :=
  match b.toNat with
  | 1 => some .listening
  | 2 => some .recovering
  | 3 => some .counting
  | 4 => some .sending
  | 5 => some .relaying
  | 6 => some .committing
  | _ => none

/-- The byte of a state is read back. -/
@[simp]
theorem ofByte_toByte (s : NodeState) :
  ofByte s.toByte = some s
  := by
  cases s <;> rfl

end NodeState

/-! ### Categories -/

/-- A set of fault categories. -/
structure Categories where
  other : Bool
  transmission : Bool
  handler : Bool
  notSupported : Bool
  deriving DecidableEq, Repr

namespace Categories

/-- The set without any category. -/
def empty : Categories :=
  ⟨false, false, false, false⟩

instance : Inhabited Categories :=
  ⟨empty⟩

/-- The categories that belong to one set or the other. -/
def union (a b : Categories) : Categories where
  other := a.other || b.other
  transmission := a.transmission || b.transmission
  handler := a.handler || b.handler
  notSupported := a.notSupported || b.notSupported

instance : Union Categories :=
  ⟨union⟩

/-- Nothing is added by the set without any category. -/
@[simp]
theorem empty_union (a : Categories) :
  empty ∪ a = a
  := by
  rcases a with ⟨_ | _, _ | _, _ | _, _ | _⟩ <;> rfl

/-- Every category of `b` belongs to `a`. -/
def contains (a b : Categories) : Bool :=
  a ∪ b == a

/-- No category belongs to the set. -/
def isEmpty (a : Categories) : Bool :=
  a == empty

/-- All that went wrong is that something is not supported. -/
def onlyNotSupported (a : Categories) : Bool :=
  a == { empty with notSupported := true }

/-- The categories as the low half of a byte. -/
def toNat (a : Categories) : Nat :=
  a.other.toNat + 2 * a.transmission.toNat + 4 * a.handler.toNat + 8 * a.notSupported.toNat

/-- The categories as a byte. -/
def toByte (a : Categories) : UInt8 :=
  UInt8.ofNat a.toNat

/-- The categories in the low half of a byte. -/
def ofByte (b : UInt8) : Categories where
  other := b.toNat.testBit 0
  transmission := b.toNat.testBit 1
  handler := b.toNat.testBit 2
  notSupported := b.toNat.testBit 3

/-- The byte of a set of categories is read back. -/
@[simp]
theorem ofByte_toByte (a : Categories) :
  ofByte a.toByte = a
  := by
  revert a
  rintro ⟨_ | _, _ | _, _ | _, _ | _⟩ <;> rfl

/-- Only the low half of a byte matters. -/
theorem ofByte_congr {b c : UInt8} (h : b.toNat % 16 = c.toNat % 16) :
  ofByte b = ofByte c
  := by
  simp only [ofByte, Nat.testBit_eq_decide_div_mod_eq, mk.injEq, decide_eq_decide]
  omega

/-- A set of categories takes four bits. -/
theorem toNat_lt (a : Categories) :
  a.toNat < 16
  := by
  rcases a with ⟨_ | _, _ | _, _ | _, _ | _⟩ <;> decide

end Categories

/-! ### Faults -/

/-- What went wrong in a node. -/
inductive Fault where
  /-- A header asks for what cannot be, such as a write to no node. -/
  | invalidState
  | headerParity
  | encoding
  | decoding
  | checksumMismatch
  | timeout
  | setFailed
  | getFailed
  | readNotSupported
  | writeNotSupported
  | propertyNotSupported
  deriving DecidableEq, Repr

namespace Fault

/-- The name of a fault. -/
def name : Fault → String
  | .invalidState => "Invalid State"
  | .headerParity => "Header Parity"
  | .encoding => "COBS Encoding"
  | .decoding => "COBS Decoding"
  | .checksumMismatch => "Checksum"
  | .timeout => "Timeout"
  | .setFailed => "Set Callback"
  | .getFailed => "Get Callback"
  | .readNotSupported => "Read Not Supported"
  | .writeNotSupported => "Write Not Supported"
  | .propertyNotSupported => "Property Not Supported"

/-- The category of a fault. -/
def category : Fault → Categories
  | .invalidState | .headerParity | .encoding | .decoding | .checksumMismatch
  | .timeout => { Categories.empty with transmission := true }
  | .setFailed | .getFailed => { Categories.empty with handler := true }
  | .readNotSupported | .writeNotSupported | .propertyNotSupported =>
    { Categories.empty with notSupported := true }

/-- The byte that stands for a fault. -/
def toByte : Fault → UInt8
  | .invalidState => 1
  | .headerParity => 2
  | .encoding => 3
  | .decoding => 4
  | .checksumMismatch => 5
  | .timeout => 6
  | .setFailed => 7
  | .getFailed => 8
  | .readNotSupported => 9
  | .writeNotSupported => 10
  | .propertyNotSupported => 11

/-- The fault that a byte stands for.  Zero stands for none; a byte without a meaning is
itself a fault, so that a damaged answer is never taken for a healthy node. -/
def ofByte (b : UInt8) : Option Fault :=
  match b.toNat with
  | 0 => none
  | 2 => some .headerParity
  | 3 => some .encoding
  | 4 => some .decoding
  | 5 => some .checksumMismatch
  | 6 => some .timeout
  | 7 => some .setFailed
  | 8 => some .getFailed
  | 9 => some .readNotSupported
  | 10 => some .writeNotSupported
  | 11 => some .propertyNotSupported
  | _ => some .invalidState

/-- The byte of a fault is read back. -/
@[simp]
theorem ofByte_toByte (f : Fault) :
  ofByte f.toByte = some f
  := by
  cases f <;> rfl

end Fault

/-- The categories of a fault that may be absent. -/
def categoriesOf (fault : Option Fault) : Categories :=
  (fault.map Fault.category).getD Categories.empty

/-- The text for a fault that may be absent. -/
def faultName (fault : Option Fault) : String :=
  (fault.map Fault.name).getD "None"

/-- The byte for a fault that may be absent. -/
def faultByte (fault : Option Fault) : UInt8 :=
  (fault.map Fault.toByte).getD 0

/-! ### Records -/

/-- A fault and the state in which it occurred. -/
structure Record where
  fault : Fault
  state : NodeState
  deriving DecidableEq, Repr

/-- The two bytes that answer a request for a node's record. -/
def reportOf : Option Record → List UInt8
  | none => [0, 0]
  | some r => [r.fault.toByte, r.state.toByte]

end DaisyChain
