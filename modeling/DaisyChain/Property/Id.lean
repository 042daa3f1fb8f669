/-!
# Property identifiers

A property is known on the line by a number of seven bits.  The highest one is reserved: a
read of it asks every node for its error record.  `PropertySet` is a set of identifiers,
one bit for each of the 128 numbers; `contains_insert`, `contains_remove` and `ext` describe
it by its members.
-/

namespace DaisyChain

/-- The number of a property.  Only its lowest seven bits travel on the line. -/
structure PropertyId where
  number : UInt8
  deriving DecidableEq, Repr, Inhabited

namespace PropertyId

/-- The highest number of a real property. -/
def max : Nat := 126

/-- The identifier that asks every node for its error record. -/
def errorQuery : PropertyId := ⟨127⟩

/-- The identifier asks for the error record. -/
def isErrorQuery (id : PropertyId) : Bool :=
  id == errorQuery

/-- The seven bits that travel on the line. -/
def wire (id : PropertyId) : Nat :=
  id.number.toNat % 128

theorem wire_lt (id : PropertyId) :
  id.wire < 128
  := Nat.mod_lt _ (by decide)

end PropertyId

/-- A set of properties: bit `i` tells whether the property of wire number `i` belongs to
it. -/
structure PropertySet where
  bits : BitVec 128
  deriving DecidableEq, Repr

namespace PropertySet

/-- The set without any property. -/
def empty : PropertySet :=
  ⟨0⟩

instance : Inhabited PropertySet :=
  ⟨empty⟩

/-- Add a property. -/
def insert (s : PropertySet) (id : PropertyId) : PropertySet :=
  ⟨s.bits ||| BitVec.twoPow 128 id.wire⟩

/-- Take a property away. -/
def remove (s : PropertySet) (id : PropertyId) : PropertySet :=
  ⟨s.bits &&& ~~~BitVec.twoPow 128 id.wire⟩

/-- The property belongs to the set. -/
def contains (s : PropertySet) (id : PropertyId) : Bool :=
  s.bits.getLsbD id.wire

/-- No property belongs to the set. -/
def isEmpty (s : PropertySet) : Bool :=
  s == empty

/-- The members in ascending order. -/
def toList (s : PropertySet) : List PropertyId :=
  ((List.range 128).map fun i => PropertyId.mk (UInt8.ofNat i)).filter s.contains

/-- The set of the given properties. -/
def ofList (ids : List PropertyId) : PropertySet :=
  ids.foldl insert empty

@[simp]
theorem contains_empty (id : PropertyId) :
  empty.contains id = false
  := by
  simp [contains, empty]

/-- After an addition, the members are those before and the one added. -/
theorem contains_insert (s : PropertySet) (a b : PropertyId) :
  (s.insert a).contains b = (s.contains b || decide (a.wire = b.wire))
  := by
  simp [contains, insert, b.wire_lt, eq_comm]

/-- After a removal, the members are those before but the one taken away. -/
theorem contains_remove (s : PropertySet) (a b : PropertyId) :
  (s.remove a).contains b = (s.contains b && decide (a.wire ≠ b.wire))
  := by
  simp [contains, remove, b.wire_lt, eq_comm]

/-- Sets with the same members are equal. -/
theorem ext {s t : PropertySet} (h : ∀ id, s.contains id = t.contains id) :
  s = t
  := by
  obtain ⟨x⟩ := s
  obtain ⟨y⟩ := t
  congr 1
  apply BitVec.eq_of_getLsbD_eq
  intro i hi
  have same := h ⟨UInt8.ofNat i⟩
  have small : i % 256 % 128 = i := by omega
  simpa [contains, PropertyId.wire, small] using same

end PropertySet

end DaisyChain
