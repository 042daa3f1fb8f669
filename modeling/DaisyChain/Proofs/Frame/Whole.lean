import DaisyChain.Frame.Collector

/-!
# Whole frames

A whole frame holds no zero but its terminator and fits a collector, so a collector that takes
it byte by byte finds its end at the terminator and nowhere else.  All that nodes and gateway
send as frames are whole frames: values (`whole_of_encode`), placeholders
(`whole_of_placeholderOf`), and the lone terminator (`whole_terminator`).
-/

namespace DaisyChain

namespace Stuffing

/-- A code byte is not zero. -/
theorem code_ne_zero {run : List UInt8} (short : run.length ≤ runMax) :
  UInt8.ofNat (run.length + 1) ≠ 0
  := by
  intro zero
  have number := congrArg UInt8.toNat zero
  simp only [runMax] at short
  rw [UInt8.toNat_ofNat', Nat.mod_eq_of_lt (by omega)] at number
  simp at number

/-- Blocks hold no zero. -/
theorem zero_notMem_blocksFrom {run : List UInt8} (bytes : List UInt8)
    (nonzero : 0 ∉ run) (short : run.length < runMax) :
  0 ∉ blocksFrom run bytes
  := by
  have coded_clean {run : List UInt8} (clean : 0 ∉ run) (fits : run.length ≤ runMax) :
      0 ∉ coded run := by
    rw [coded, List.mem_cons, not_or]
    exact ⟨(code_ne_zero fits).symm, clean⟩
  induction bytes generalizing run with
  | nil => apply coded_clean nonzero (Nat.le_of_lt short)
  | cons b rest ih =>
    have fresh : 0 ∉ blocksFrom [] rest := ih (by simp) (by decide)
    have longer (other : b ≠ 0) : 0 ∉ run ++ [b] := by
      rw [List.mem_append, List.mem_singleton, not_or]
      exact ⟨nonzero, other.symm⟩
    rw [blocksFrom]
    split
    · rw [List.mem_append, not_or]
      exact ⟨coded_clean nonzero (Nat.le_of_lt short), fresh⟩
    · next other =>
      split
      · next full =>
        rw [List.mem_append, not_or]
        refine ⟨coded_clean (longer other) ?_, fresh⟩
        simp [full]
      · next notFull =>
        apply ih (longer other)
        rw [List.length_append, List.length_singleton]
        omega

end Stuffing

namespace Frame

/-- The value that a frame carries, if it does. -/
def value? : Frame → Option (List UInt8)
  | .data value => some value
  | .placeholder | .empty => none

/-- Bytes that a collector takes as one frame, and what this frame says. -/
structure Whole (bytes : List UInt8) (frame : Frame) : Prop where
  ends : ∃ body, bytes = body ++ [0] ∧ 0 ∉ body
  fits : bytes.length ≤ frameMax
  reads : decode bytes = .ok frame

/-- Stuffed bytes hold no zero but the terminator. -/
theorem ends_stuff (bytes : List UInt8) :
  ∃ body, Stuffing.stuff bytes = body ++ [0] ∧ 0 ∉ body
  := ⟨Stuffing.blocksFrom [] bytes, rfl,
    Stuffing.zero_notMem_blocksFrom bytes (by simp) (by decide)⟩

/-- A value is sent as a whole frame. -/
theorem whole_of_encode {value bytes : List UInt8} (h : encode value = .ok bytes) :
  Whole bytes (.data value)
  := by
  refine ⟨?_, length_of_encode h, decode_of_encode h⟩
  rw [encode] at h
  split at h
  · contradiction
  · cases h
    apply ends_stuff

/-- A placeholder is sent as a whole frame. -/
theorem whole_of_placeholderOf {length : Nat} {bytes : List UInt8}
    (h : placeholderOf length = .ok bytes) :
  Whole bytes .placeholder
  := by
  refine ⟨?_, length_of_placeholderOf h, decode_of_placeholderOf h⟩
  rw [placeholderOf] at h
  split at h
  · contradiction
  · cases h
    apply ends_stuff

/-- The terminator alone is a whole frame. -/
theorem whole_terminator :
  Whole [0] .empty
  := by
  refine ⟨⟨[], rfl, by simp⟩, by decide, ?_⟩
  simp [decode, Stuffing.decode, Stuffing.unstuff, ofBody]

/-! ### Collecting a whole frame -/

namespace Collector

/-- A collector within a frame takes one more byte, if it fits. -/
theorem feed_open {held : List UInt8} (room : held.length < frameMax) (b : UInt8) :
  feed ⟨held, false⟩ b = (.ok (b == 0), ⟨held ++ [b], b == 0⟩)
  := by
  simp [feed, reopen, room]

end Collector

end Frame

end DaisyChain
