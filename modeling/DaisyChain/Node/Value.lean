import DaisyChain.Node.Engine
import DaisyChain.Property.Table

/-!
# Values of a node

What a node does with the values of its module: it answers reads and applies writes.
Whatever stands in the way is a fault of the node.  A read of the error record is answered
for every module, and the record is forgotten.
-/

namespace DaisyChain.Node

variable {M : Type}

/-- The fault of a value that cannot be sent. -/
def readFault : PropertyError → Fault
  | .notSupported => .readNotSupported
  | .handler => .getFailed
  | .size _ => .encoding

/-- The fault of a value that cannot be applied. -/
def writeFault : PropertyError → Fault
  | .notSupported => .writeNotSupported
  | .handler => .setFailed
  | .size _ => .decoding

/-- The value of a property, laid out for a frame. -/
def fetch (table : Table M) (m : M) (property : PropertyId) : Except Fault (List UInt8) :=
  match table.find? property with
  | none => .error .propertyNotSupported
  | some d =>
    if d.access.readable then (d.serialize m).mapError readFault else .error .readNotSupported

/-- The frame that answers a read, and the record of the node afterwards.  A node without a
value sends the frame without any byte. -/
def answer (table : Table M) (m : M) (property : PropertyId) (record : Option Record) :
    List UInt8 × Option Record :=
  let value := if property.isErrorQuery then .ok (reportOf record) else fetch table m property
  let kept := if property.isErrorQuery then none else record
  match value.bind fun data => (Frame.encode data).mapError fun _ => Fault.encoding with
  | .ok frame => (frame, kept)
  | .error fault => ([0], some ⟨fault, .sending⟩)

/-- Put a value into a module: whether the node accepts it, and the module afterwards. -/
def applySlot (table : Table M) (slot : Slot) (m : M) : Except Fault Unit × M :=
  match table.find? slot.property with
  | none => (.error .propertyNotSupported, m)
  | some d =>
    if d.access.writable then
      let (result, m') := d.deserialize slot.data m
      (result.mapError writeFault, m')
    else
      (.error .writeNotSupported, m)

/-- Put values into a module in turn, all of them: the first fault, if any, and the module
afterwards. -/
def applyAll (table : Table M) : List Slot → M → Except Fault Unit × M
  | [], m => (.ok (), m)
  | slot :: rest, m =>
    let (first, m') := applySlot table slot m
    let (others, m'') := applyAll table rest m'
    (first.bind fun _ => others, m'')

/-- The frame that answers a read is not too long for one. -/
theorem length_answer_le (table : Table M) (m : M) (property : PropertyId)
    (record : Option Record) :
  (answer table m property record).1.length ≤ frameMax
  := by
  unfold answer
  simp only
  split
  · next frame h =>
    simp only [Except.bind] at h
    split at h
    · simp at h
    · next data _ =>
      cases encoded : Frame.encode data with
      | error e =>
        rw [encoded] at h
        contradiction
      | ok value =>
        rw [encoded] at h
        cases h
        apply Frame.length_of_encode encoded
  · simp [frameMax, Stuffing.maxLength, valueMax, Stuffing.runMax]

end DaisyChain.Node
