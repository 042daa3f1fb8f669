import DaisyChain.Proofs.Frame.Codec
import DaisyChain.Proofs.Stuffing.Lengths

/-!
# How long frames are

A frame is three bytes longer than its value, unless the value is dense: then it is four bytes longer
(`length_eq_of_encode`).  A placeholder is always three bytes longer than the value that it stands for
(`length_eq_of_placeholderOf`).  Only values of the two greatest lengths can be dense (`Dense.le_length`).
-/

namespace DaisyChain.Frame

/-- Somewhere in the value, or in the value and its checksum, as many bytes as fill a run follow one another
without a zero. -/
def Dense (value : List UInt8) : Prop :=
  Stuffing.Dense (value ++ [checksum value])

instance (value : List UInt8) : Decidable (Dense value) :=
  inferInstanceAs (Decidable (Stuffing.Dense _))

/-- A dense value fills a run, but for a byte at most. -/
theorem Dense.le_length {value : List UInt8} (dense : Dense value) :
  253 ≤ value.length
  := by
  obtain ⟨run, among, full, -⟩ := dense
  have fits := among.length_le
  rw [List.length_append, List.length_singleton, full, Stuffing.runMax] at fits
  omega

/-- A value that can be sent has one full run at most, and one if it is dense. -/
theorem fullRuns_of_length_le {value : List UInt8} (short : value.length ≤ valueMax) :
  Stuffing.fullRuns (value ++ [checksum value]) = if Dense value then 1 else 0
  := by
  have most := Stuffing.fullRuns_le (value ++ [checksum value])
  rw [List.length_append, List.length_singleton, Stuffing.runMax] at most
  rw [valueMax] at short
  split
  · next dense =>
    have some := (Stuffing.dense_iff _).mp dense
    omega
  · next sparse => exact Decidable.not_not.mp (mt (Stuffing.dense_iff _).mpr sparse)

/-- A frame is three bytes longer than its value, and four if the value is dense. -/
theorem length_eq_of_encode {value frame : List UInt8} (sent : encode value = .ok frame) :
  frame.length = value.length + 3 + if Dense value then 1 else 0
  := by
  obtain ⟨short, rfl⟩ := encode_eq_ok_iff.mp sent
  rw [Stuffing.length_stuff, fullRuns_of_length_le short, List.length_append, List.length_singleton]

/-- A placeholder is three bytes longer than the value that it stands for. -/
theorem length_eq_of_placeholderOf {length : Nat} {frame : List UInt8}
    (sent : placeholderOf length = .ok frame) :
  frame.length = length + 3
  := by
  obtain ⟨-, rfl⟩ := placeholderOf_eq_ok_iff.mp sent
  rw [Stuffing.length_stuff, Stuffing.fullRuns_replicate_zero, List.length_replicate]

end DaisyChain.Frame
