import DaisyChain.Header.Fields
import DaisyChain.Proofs.Frame.Barren

/-!
# Frames with a flipped bit

A frame of which a single bit has been flipped cannot be read, whatever it has said before and
whichever bit it is (`decode_of_flipped`, `flip_detected`).  A flipped bit of a code byte cuts all that
is behind it into other runs, but what the bytes of a frame add up to tells their number and no more
than that, however they are cut.
-/

namespace DaisyChain

/-! ### Flipped bits -/

/-- The byte with one of its bits flipped. -/
def flipBit (bit : Fin 8) (byte : UInt8) : UInt8 :=
  byte ^^^ 1 <<< UInt8.ofNat bit.val

/-- A flipped bit changes the parity of a byte. -/
theorem ones_flipBit (bit : Fin 8) (byte : UInt8) :
  (ones (flipBit bit byte) + ones byte) % 2 = 1
  := by
  revert byte
  apply forall_byte
  revert bit
  decide +kernel

/-- A flipped bit changes a byte. -/
theorem flipBit_ne (bit : Fin 8) (byte : UInt8) :
  flipBit bit byte ≠ byte
  := by
  intro same
  have odd := ones_flipBit bit byte
  rw [same] at odd
  omega

/-- A byte of a stream is changed in its place. -/
theorem exists_modify_eq {stream : List UInt8} {position : Nat} (within : position < stream.length)
    (f : UInt8 → UInt8) :
  ∃ front byte back, stream = front ++ byte :: back ∧ front.length = position ∧
    stream.modify position f = front ++ f byte :: back
  := by
  have length : (stream.take position).length = position := by
    rw [List.length_take]
    omega
  have split : stream = stream.take position ++ stream[position] :: stream.drop (position + 1) := by
    rw [List.getElem_cons_drop, List.take_append_drop]
  refine ⟨_, _, _, split, length, ?_⟩
  have changed := List.modifyTailIdx_add (List.modifyHead f) 0 (stream.take position)
    (stream[position] :: stream.drop (position + 1))
  rw [length, ← split] at changed
  apply changed

/-! ### Runs that are cut anew -/

/-- Blocks are malformed if a zero stands behind empty runs. -/
theorem Stuffing.unstuff_ne_ok_of_ones {room : Nat} {front : List UInt8} (ones : ∀ b ∈ front, b = 1)
    (back bytes : List UInt8) :
  unstuff room (front ++ 0 :: back) ≠ .ok bytes
  := by
  induction front generalizing room bytes with
  | nil =>
    intro read
    obtain ⟨_, _, _, _, _, length, _⟩ := exists_of_unstuff read
    rw [UInt8.toNat_zero] at length
    omega
  | cons code front ih =>
    intro read
    rw [List.forall_mem_cons] at ones
    obtain ⟨rfl, others⟩ := ones
    obtain ⟨run, rest, room', more, split, length, behind, -⟩ := exists_of_unstuff read
    -- The run is empty, so the next code byte is the next byte.
    obtain rfl : run = [] := List.length_eq_zero_iff.mp (Nat.succ.inj length)
    rw [List.nil_append] at split
    rw [← split] at behind
    apply ih others more behind

namespace Frame

variable {front back body bytes : List UInt8} {byte : UInt8} {frame : Frame}

/-- A frame of which a byte has been changed to zero is not read, unless that byte was the greatest
one. -/
theorem decode_ne_ok_of_zeroed (reads : decode (front ++ byte :: back ++ [0]) = .ok frame)
    (clean : 0 ∉ front ++ byte :: back) (less : byte ≠ sentinel) (frame' : Frame) :
  decode (front ++ 0 :: back ++ [0]) ≠ .ok frame'
  := by
  intro reads'
  have ends : (front ++ 0 :: back ++ [0]).getLast? = some 0 := List.getLast?_concat
  rw [decode, Stuffing.decode, if_pos ends, List.dropLast_concat] at reads'
  cases read : Stuffing.unstuff frameMax (front ++ 0 :: back) with
  | error e =>
    rw [read] at reads'
    contradiction
  | ok bytes =>
    rw [read] at reads'
    have parts (b : UInt8) : total (front ++ b :: back) = total front + (b + total back) :=
      total_append front (b :: back)
    have length : (front ++ 0 :: back).length = (front ++ byte :: back).length := by simp
    have sum' := Stuffing.total_of_unstuff read
    have nonzero : byte ≠ 0 := by
      rintro rfl
      exact clean (by simp)
    rw [parts, length] at sum'
    rcases total_of_decode reads clean with ⟨-, sum⟩ | ⟨-, ones⟩
    · rw [parts] at sum
      rcases total_or_zeros_of_ofBody reads' with ⟨-, valid⟩ | zeros
      · rw [valid] at sum'
        apply nonzero
        grind
      · rw [total_of_zeros zeros] at sum'
        apply less
        grind
    · have before : ∀ b ∈ front, b = 1 := fun b member => ones b (List.mem_append_left _ member)
      apply Stuffing.unstuff_ne_ok_of_ones before back bytes read

/-- What does not end with a zero is no frame. -/
theorem decode_of_unterminated (filled : byte ≠ 0) :
  decode (body ++ [byte]) = .error (.stuffing .missingTerminator)
  := by
  rw [decode, Stuffing.decode, if_neg (by simpa using filled)]

/-- The greatest byte does not become zero by a flipped bit. -/
theorem flipBit_ne_zero_of_eq (bit : Fin 8) (same : byte = sentinel) :
  flipBit bit byte ≠ 0
  := by
  rw [same]
  revert bit
  decide

/-- A whole frame cannot be read any more once one of its bits has been flipped. -/
theorem decode_of_flipped (whole : Whole bytes frame) {position : Nat}
    (within : position < bytes.length) (bit : Fin 8) :
  ∃ e, decode (bytes.modify position (flipBit bit)) = .error e
  := by
  obtain ⟨front, byte, back, split, -, changed⟩ := exists_modify_eq within (flipBit bit)
  obtain ⟨⟨body, ended, clean⟩, -, reads⟩ := whole
  rw [changed]
  rw [split] at ended reads
  rcases List.eq_nil_or_concat' back with rfl | ⟨back, last, rfl⟩
  · -- The terminator is lost.
    obtain ⟨-, last⟩ := List.append_inj' ended rfl
    cases last
    exact ⟨_, decode_of_unterminated (flipBit_ne bit 0)⟩
  · have shape (b : UInt8) : front ++ b :: (back ++ [last]) = front ++ b :: back ++ [last] := by simp
    rw [shape] at ended reads ⊢
    obtain ⟨rfl, last⟩ := List.append_inj' ended rfl
    cases last
    cases result : decode (front ++ flipBit bit byte :: back ++ [0]) with
    | error e => exact ⟨e, rfl⟩
    | ok frame' =>
      by_cases zero : flipBit bit byte = 0
      · rw [zero] at result
        have less : byte ≠ sentinel := fun same => flipBit_ne_zero_of_eq bit same zero
        exact absurd result (decode_ne_ok_of_zeroed reads clean less frame')
      · exact absurd result (decode_ne_ok_of_changed reads clean (flipBit_ne bit byte) zero frame')

/-- Every flipped bit is found.  A value and a placeholder that are not too long can be sent, and
whichever bit of whichever byte of the frame is flipped, be it of a code byte, of the checksum or of the
terminator, nothing is read from what arrives. -/
theorem flip_detected {value : List UInt8} {length : Nat} (short : value.length ≤ valueMax)
    (short' : length ≤ valueMax) :
  ∃ frame placeholder, encode value = .ok frame ∧ placeholderOf length = .ok placeholder ∧
    ∀ sent ∈ [frame, placeholder], ∀ position < sent.length, ∀ bit : Fin 8,
      ∃ e, decode (sent.modify position (flipBit bit)) = .error e
  := by
  have encoded : encode value = .ok _ := if_neg (Nat.not_lt.mpr short)
  have placed : placeholderOf length = .ok _ := if_neg (Nat.not_lt.mpr short')
  refine ⟨_, _, encoded, placed, ?_⟩
  intro sent member position within bit
  simp only [List.mem_cons, List.not_mem_nil, or_false] at member
  rcases member with rfl | rfl
  · apply decode_of_flipped (whole_of_encode encoded) within
  · apply decode_of_flipped (whole_of_placeholderOf placed) within

/-- A flipped bit of a code byte cuts all that is behind it into other runs, which are well formed, too. -/
theorem flip_detected_recut :
  ∃ frame, encode [200, 3, 50, 1] = .ok frame ∧
    frame.modify 0 (flipBit 2) = Stuffing.stuff [200, 0, 50, 1, 0] ∧
    ∃ e, decode (frame.modify 0 (flipBit 2)) = .error e
  := by
  let value : List UInt8 := [200, 3, 50, 1]
  have short : value.length ≤ valueMax := by decide
  have short' : 0 ≤ valueMax := by decide
  obtain ⟨frame, placeholder, encoded, -, caught⟩ := flip_detected short short'
  have stuffed : Stuffing.stuff (value ++ [checksum value]) = [6, 200, 3, 50, 1, 1, 0] := by decide
  have is : frame = [6, 200, 3, 50, 1, 1, 0] := (Except.ok.inj encoded).symm.trans stuffed
  refine ⟨frame, encoded, ?_, ?_⟩
  · rw [is]
    decide
  · apply caught frame List.mem_cons_self 0 (by rw [is]; decide)

end Frame

end DaisyChain
