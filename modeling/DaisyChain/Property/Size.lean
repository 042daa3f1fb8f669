import DaisyChain.Frame
import DaisyChain.LittleEndian

/-!
# Property sizes

The size of a property says how its value is laid out in a frame.  A value of static size
travels as it is; a value of dynamic size travels behind a prefix of two bytes that holds
its length, the low byte first.

`wrap` lays a value out and `unwrap` recovers it, as `unwrap_of_wrap` says.
-/

namespace DaisyChain

/-- How long the values of a property are. -/
inductive PropertySize where
  /-- Every value has this length. -/
  | static (length : UInt16)
  /-- The length of a value varies and travels with it. -/
  | dynamic
  deriving DecidableEq, Repr

namespace PropertySize

/-- The reasons for which a value does not fit a size. -/
inductive Error where
  /-- The length is not the one declared, by the size or by the prefix. -/
  | mismatch
  /-- The value does not fit a frame. -/
  | tooLarge
  deriving DecidableEq, Repr

/-- The text of an error. -/
def Error.message : Error → String
  | .mismatch => "property size mismatch"
  | .tooLarge => "property too large"

/-- The length of the prefix of a dynamic value. -/
def prefixLength : Nat := 2

/-- The longest value that a size declares. -/
def maxLength : PropertySize → Nat
  | .static length => length.toNat
  | .dynamic => valueMax - prefixLength

/-- Lay out a value as it travels inside a frame. -/
def wrap (size : PropertySize) (value : List UInt8) : Except Error (List UInt8) :=
  match size with
  | .static length =>
    if value.length ≠ length.toNat then
      .error .mismatch
    else if valueMax < value.length then
      .error .tooLarge
    else
      .ok value
  | .dynamic =>
    if valueMax < prefixLength + value.length then
      .error .tooLarge
    else
      .ok (LittleEndian.bytes prefixLength value.length ++ value)

/-- The value laid out in the given data of a frame. -/
def unwrap (size : PropertySize) (data : List UInt8) : Except Error (List UInt8) :=
  match size with
  | .static length => if data.length = length.toNat then .ok data else .error .mismatch
  | .dynamic =>
    if data.length < prefixLength then
      .error .mismatch
    else
      let value := data.drop prefixLength
      if LittleEndian.value (data.take prefixLength) = value.length then
        .ok value
      else
        .error .mismatch

/-- A value that was laid out is recovered. -/
theorem unwrap_of_wrap {size : PropertySize} {value data : List UInt8}
    (h : size.wrap value = .ok data) :
  size.unwrap data = .ok value
  := by
  cases size with
  | static length =>
    simp only [wrap] at h
    split at h
    · simp at h
    · next same =>
      split at h
      · simp at h
      · simp only [Except.ok.injEq] at h
        subst h
        rw [unwrap, if_pos (Decidable.not_not.mp same)]
  | dynamic =>
    simp only [wrap] at h
    split at h
    · simp at h
    · next short =>
      simp only [Except.ok.injEq] at h
      subst h
      have width := LittleEndian.length_bytes prefixLength value.length
      have number : LittleEndian.value (LittleEndian.bytes prefixLength value.length) =
          value.length := by
        rw [LittleEndian.value_bytes]
        simp only [valueMax, prefixLength, LittleEndian.span] at short ⊢
        omega
      rw [unwrap, if_neg (by simp only [List.length_append, width]; omega),
        List.take_left' width, List.drop_left' width, number]
      simp

end PropertySize

end DaisyChain
