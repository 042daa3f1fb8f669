/-!
# Numbers as bytes

`bytes width n` writes a number as `width` bytes, the low one first, and `value` reads such
bytes.  `value_bytes` says that a number is read back as far as the bytes can hold it, and
`bytes_value` that bytes are written back.
-/

namespace DaisyChain.LittleEndian

/-- The lowest `width` bytes of a number, the low one first. -/
def bytes : Nat → Nat → List UInt8
  | 0, _ => []
  | width + 1, n => UInt8.ofNat n :: bytes width (n / 256)

/-- The number that the given bytes stand for. -/
def value : List UInt8 → Nat
  | [] => 0
  | b :: rest => b.toNat + 256 * value rest

/-- How many numbers the given number of bytes can hold. -/
def span : Nat → Nat
  | 0 => 1
  | width + 1 => 256 * span width

@[simp]
theorem length_bytes (width n : Nat) :
  (bytes width n).length = width
  := by
  induction width generalizing n with
  | zero => rfl
  | succ width ih => simp [bytes, ih]

/-- Reading what was written gives the number, as far as the bytes can hold it. -/
theorem value_bytes (width n : Nat) :
  value (bytes width n) = n % span width
  := by
  induction width generalizing n with
  | zero => simp [bytes, value, span, Nat.mod_one]
  | succ width ih =>
    rw [bytes, value, ih, span, Nat.mod_mul]
    simp

/-- Writing what was read gives the bytes. -/
theorem bytes_value (bs : List UInt8) :
  bytes bs.length (value bs) = bs
  := by
  induction bs with
  | nil => rfl
  | cons b rest ih =>
    have low := b.toNat_lt
    have tail : (b.toNat + 256 * value rest) / 256 = value rest := by omega
    have head : UInt8.ofNat (b.toNat + 256 * value rest) = b := by
      apply UInt8.toNat_inj.mp
      simp only [UInt8.toNat_ofNat']
      omega
    rw [List.length_cons, value, bytes, tail, ih, head]

/-- Bytes stand for a number that they can hold. -/
theorem value_lt (bs : List UInt8) :
  value bs < span bs.length
  := by
  induction bs with
  | nil => simp [value, span]
  | cons b rest ih =>
    have low := b.toNat_lt
    rw [value, List.length_cons, span]
    omega

end DaisyChain.LittleEndian
