import DaisyChain.Stuffing

/-!
# Frames

A frame carries one property value: the value and a checksum byte, stuffed and terminated.
The checksum makes the bytes add up to `sentinel`.  A body without any byte is the answer
of a node that has no value to send, and a body of zeros alone is a placeholder, which
keeps a place among the frames of a write; neither adds up to the sentinel, so neither can
be taken for a value.

`encode` and `placeholderOf` produce frames, `decode` reads one.  `decode_of_encode` and
`decode_of_placeholderOf` say that it reads what they produce, `length_of_encode` and
`length_of_placeholderOf` that what they produce is at most `frameMax` bytes long.
-/

namespace DaisyChain

/-- The longest property value that a frame carries. -/
def valueMax : Nat := 254

/-- The longest frame: a value with its checksum, stuffed and terminated. -/
def frameMax : Nat := Stuffing.maxLength (valueMax + 1)

/-- What a frame says. -/
inductive Frame where
  /-- The sender has no value. -/
  | empty
  /-- The receiver is to keep its value. -/
  | placeholder
  /-- A value, without its checksum. -/
  | data (value : List UInt8)
  deriving DecidableEq, Repr

namespace Frame

/-- The reasons for which a frame can be neither produced nor read. -/
inductive Error where
  /-- The value is longer than `valueMax`. -/
  | valueTooLarge
  /-- The body does not add up to the sentinel. -/
  | invalidChecksum
  /-- The stuffing is wrong. -/
  | stuffing (error : Stuffing.Error)
  /-- The terminator did not arrive in time. -/
  | overflow
  deriving DecidableEq, Repr

/-- The text of an error. -/
def Error.message : Error → String
  | .valueTooLarge => "property value too large"
  | .invalidChecksum => "frame checksum invalid"
  | .stuffing error => error.message
  | .overflow => "frame exceeds maximum size"

/-! ### The checksum -/

/-- What the bytes of a valid body add up to. -/
def sentinel : UInt8 := 0xFF

/-- The sum of the given bytes. -/
def total (bytes : List UInt8) : UInt8 :=
  bytes.foldr (· + ·) 0

/-- The checksum byte of a value. -/
def checksum (value : List UInt8) : UInt8 :=
  sentinel - total value

/-- A body, its checksum included, adds up to the sentinel. -/
def balanced (body : List UInt8) : Bool :=
  total body == sentinel

/-- The sum of two lists in a row is the sum of their sums. -/
theorem total_append (xs ys : List UInt8) :
  total (xs ++ ys) = total xs + total ys
  := by
  induction xs with
  | nil => simp [total]
  | cons x xs ih =>
    simp only [total, List.cons_append, List.foldr_cons] at ih ⊢
    rw [ih, UInt8.add_assoc]

/-- A value followed by its checksum is a valid body. -/
theorem balanced_append_checksum (value : List UInt8) :
  balanced (value ++ [checksum value]) = true
  := by
  have single : total [checksum value] = checksum value := by simp [total]
  rw [balanced, total_append, beq_iff_eq, single, checksum, UInt8.add_comm,
    UInt8.sub_add_cancel]

/-! ### Producing frames -/

/-- The frame that carries the given value. -/
def encode (value : List UInt8) : Except Error (List UInt8) :=
  if valueMax < value.length then
    .error .valueTooLarge
  else
    .ok (Stuffing.stuff (value ++ [checksum value]))

/-- The placeholder that takes the place of a value of the given length. -/
def placeholderOf (length : Nat) : Except Error (List UInt8) :=
  if valueMax < length then
    .error .valueTooLarge
  else
    .ok (Stuffing.stuff (List.replicate (length + 1) 0))

/-! ### Reading frames -/

/-- What an unstuffed body says. -/
def ofBody (body : List UInt8) : Except Error Frame :=
  if body = [] then
    .ok .empty
  else if body.all (· == 0) then
    .ok .placeholder
  else if balanced body = false then
    .error .invalidChecksum
  else if valueMax < body.dropLast.length then
    .error .valueTooLarge
  else
    .ok (.data body.dropLast)

/-- Read a frame, its terminator included. -/
def decode (frame : List UInt8) : Except Error Frame :=
  match Stuffing.decode frameMax frame with
  | .error error => .error (.stuffing error)
  | .ok body => ofBody body

/-! ### Lengths -/

/-- A frame with a value fits a collector. -/
theorem length_of_encode {value frame : List UInt8} (h : encode value = .ok frame) :
  frame.length ≤ frameMax
  := by
  unfold encode at h
  split at h
  · simp at h
  · simp only [Except.ok.injEq] at h
    subst h
    apply Nat.le_trans (Stuffing.length_stuff_le _)
    simp only [valueMax, frameMax, Stuffing.maxLength, Stuffing.runMax, List.length_append,
      List.length_singleton] at *
    omega

/-- A placeholder fits a collector. -/
theorem length_of_placeholderOf {length : Nat} {frame : List UInt8}
    (h : placeholderOf length = .ok frame) :
  frame.length ≤ frameMax
  := by
  unfold placeholderOf at h
  split at h
  · simp at h
  · simp only [Except.ok.injEq] at h
    subst h
    apply Nat.le_trans (Stuffing.length_stuff_le _)
    simp only [valueMax, frameMax, Stuffing.maxLength, Stuffing.runMax,
      List.length_replicate] at *
    omega

/-! ### Reading what was produced -/

/-- Zeros add up to zero. -/
theorem total_of_zeros {body : List UInt8} (zeros : ∀ b ∈ body, b = 0) :
  total body = 0
  := by
  induction body with
  | nil => rfl
  | cons b body ih =>
    rw [List.forall_mem_cons] at zeros
    have sum : total (b :: body) = b + total body := rfl
    rw [sum, zeros.1, ih zeros.2]
    rfl

/-- A valid body holds a byte other than zero. -/
theorem not_all_zero_of_balanced {body : List UInt8} (h : balanced body = true) :
  body.all (· == 0) = false
  := by
  rw [Bool.eq_false_iff]
  intro zeros
  have sum : total body = 0 :=
    total_of_zeros fun b member => eq_of_beq (List.all_eq_true.mp zeros b member)
  rw [balanced, sum] at h
  contradiction

/-- The body of a value says that value. -/
theorem ofBody_of_value {value : List UInt8} (short : value.length ≤ valueMax) :
  ofBody (value ++ [checksum value]) = .ok (.data value)
  := by
  have valid := balanced_append_checksum value
  have nonzero := not_all_zero_of_balanced valid
  rw [ofBody, if_neg (by simp), if_neg (by rw [nonzero]; simp), if_neg (by rw [valid]; simp),
    if_neg (by rw [List.dropLast_concat]; omega), List.dropLast_concat]

/-- A frame with a value is read as that value. -/
theorem decode_of_encode {value frame : List UInt8} (h : encode value = .ok frame) :
  decode frame = .ok (.data value)
  := by
  unfold encode at h
  split at h
  · simp at h
  · next short =>
    simp only [Except.ok.injEq] at h
    subst h
    have fits : (value ++ [checksum value]).length ≤ frameMax := by
      simp only [valueMax, frameMax, Stuffing.maxLength, Stuffing.runMax, List.length_append,
        List.length_singleton] at *
      omega
    rw [decode, Stuffing.decode_stuff fits]
    exact ofBody_of_value (Nat.le_of_not_lt short)

/-- A placeholder is read as a placeholder. -/
theorem decode_of_placeholderOf {length : Nat} {frame : List UInt8}
    (h : placeholderOf length = .ok frame) :
  decode frame = .ok .placeholder
  := by
  unfold placeholderOf at h
  split at h
  · simp at h
  · next short =>
    simp only [Except.ok.injEq] at h
    subst h
    have fits : (List.replicate (length + 1) (0 : UInt8)).length ≤ frameMax := by
      simp only [valueMax, frameMax, Stuffing.maxLength, Stuffing.runMax,
        List.length_replicate] at *
      omega
    rw [decode, Stuffing.decode_stuff fits]
    simp [ofBody, List.replicate_succ]

end Frame

end DaisyChain
