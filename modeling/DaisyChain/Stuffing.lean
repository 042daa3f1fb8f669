/-!
# Byte stuffing

A stuffed block holds no zero except its terminator, so a single zero byte delimits frames
on the line.  The bytes are cut into runs at the zeros and after every 254 bytes without
one; each run is sent behind a code byte, one more than its length.  A zero between two
runs is implied, unless the first of them is full.

`encode` stuffs into a buffer of a given room, `decode` undoes it: `decode_stuff` says that
what was stuffed is recovered.  `length_stuff_le` bounds the stuffed length by `maxLength`.
-/

namespace DaisyChain.Stuffing

/-- The reasons for which a block can be neither stuffed nor unstuffed. -/
inductive Error where
  /-- The result does not fit the buffer. -/
  | bufferTooSmall
  /-- The block does not end with the terminator. -/
  | missingTerminator
  /-- A code byte is zero or points past the end of the block. -/
  | malformed
  deriving DecidableEq, Repr

/-- The text of an error. -/
def Error.message : Error → String
  | .bufferTooSmall => "COBS buffer too small"
  | .missingTerminator => "COBS frame not terminated"
  | .malformed => "malformed COBS frame"

/-- The most bytes that a run holds. -/
def runMax : Nat := 254

/-- The room that `length` bytes need in the worst case, terminator included. -/
def maxLength (length : Nat) : Nat :=
  length + length / runMax + 2

/-! ### Stuffing -/

/-- A run behind its code byte. -/
def coded (run : List UInt8) : List UInt8 :=
  UInt8.ofNat (run.length + 1) :: run

/-- The blocks of the given bytes, behind the run collected so far. -/
def blocksFrom (run : List UInt8) : List UInt8 → List UInt8
  | [] => coded run
  | b :: rest =>
    if b = 0 then
      coded run ++ blocksFrom [] rest
    else if run.length + 1 = runMax then
      coded (run ++ [b]) ++ blocksFrom [] rest
    else
      blocksFrom (run ++ [b]) rest

/-- The stuffed form of the given bytes, terminator included. -/
def stuff (bytes : List UInt8) : List UInt8 :=
  blocksFrom [] bytes ++ [0]

/-- Stuff into a buffer of the given room, which must suffice for the worst case. -/
def encode (room : Nat) (bytes : List UInt8) : Except Error (List UInt8) :=
  if room < maxLength bytes.length then .error .bufferTooSmall else .ok (stuff bytes)

/-! ### Unstuffing -/

/-- The bytes that the given runs stand for, if they fit the given room. -/
def unstuff (room : Nat) : List UInt8 → Except Error (List UInt8)
  | [] => .ok []
  | code :: body =>
    if code = 0 ∨ body.length < code.toNat - 1 then
      .error .malformed
    else
      let run := body.take (code.toNat - 1)
      let rest := body.drop (code.toNat - 1)
      if room < run.length then
        .error .bufferTooSmall
      else if code = 0xFF ∨ rest = [] then
        (run ++ ·) <$> unstuff (room - run.length) rest
      else if room - run.length = 0 then
        .error .bufferTooSmall
      else
        (run ++ 0 :: ·) <$> unstuff (room - run.length - 1) rest
termination_by body => body.length
decreasing_by all_goals simp only [List.length_cons, List.length_drop]; omega

/-- Unstuff a terminated block into a buffer of the given room. -/
def decode (room : Nat) (block : List UInt8) : Except Error (List UInt8) :=
  if block.getLast? = some 0 then unstuff room block.dropLast else .error .missingTerminator

/-! ### Lengths -/

@[simp]
theorem length_coded (run : List UInt8) :
  (coded run).length = run.length + 1
  := rfl

/-- Behind a run that is not full, the blocks and a terminator stay within the worst case. -/
theorem length_blocksFrom_lt (run bytes : List UInt8) (h : run.length < runMax) :
  (blocksFrom run bytes).length < maxLength (run.length + bytes.length)
  := by
  induction bytes generalizing run with
  | nil =>
    simp only [blocksFrom, length_coded, maxLength, runMax, List.length_nil]
    omega
  | cons b rest ih =>
    have fresh := ih [] (by decide)
    simp only [maxLength, runMax, List.length_nil, List.length_cons] at *
    by_cases zero : b = 0
    · simp only [blocksFrom, zero, if_true, List.length_append, length_coded]
      omega
    · by_cases full : run.length + 1 = runMax
      · simp only [blocksFrom, zero, full, if_true, if_false, List.length_append, length_coded,
          List.length_singleton, runMax]
        simp only [runMax] at full
        omega
      · have longer := ih (run ++ [b])
        simp only [blocksFrom, zero, full, if_false, List.length_append,
          List.length_singleton] at longer ⊢
        simp only [runMax] at full
        omega

/-- Stuffed bytes stay within the worst case. -/
theorem length_stuff_le (bytes : List UInt8) :
  (stuff bytes).length ≤ maxLength bytes.length
  := by
  have blocks := length_blocksFrom_lt [] bytes (by decide)
  rw [List.length_nil, Nat.zero_add] at blocks
  rw [stuff, List.length_append, List.length_singleton]
  omega

/-! ### Unstuffing what was stuffed -/

/-- There is always a block. -/
theorem blocksFrom_ne_nil (run bytes : List UInt8) :
  blocksFrom run bytes ≠ []
  := by
  induction bytes generalizing run with
  | nil => simp [blocksFrom, coded]
  | cons b rest ih =>
    unfold blocksFrom
    split
    · simp [coded]
    · split
      · simp [coded]
      · exact ih _

/-- Unstuffing a block gives its run, and a zero if more follows, unless the run is full. -/
theorem unstuff_coded {room : Nat} {run rest : List UInt8} (short : run.length ≤ runMax)
    (fits : run.length ≤ room) :
  unstuff room (coded run ++ rest) =
    if run.length = runMax ∨ rest = [] then
      (run ++ ·) <$> unstuff (room - run.length) rest
    else if room - run.length = 0 then
      .error .bufferTooSmall
    else
      (run ++ 0 :: ·) <$> unstuff (room - run.length - 1) rest
  := by
  simp only [runMax] at short ⊢
  have code : (UInt8.ofNat (run.length + 1)).toNat = run.length + 1 := by
    rw [UInt8.toNat_ofNat']
    omega
  have nonzero : UInt8.ofNat (run.length + 1) ≠ 0 := by
    intro h
    have := congrArg UInt8.toNat h
    rw [code] at this
    simp at this
  have full : UInt8.ofNat (run.length + 1) = 0xFF ↔ run.length = 254 := by
    rw [← UInt8.toNat_inj, code]
    simp
  rw [coded, List.cons_append, unstuff]
  simp only [code, nonzero, full, Nat.add_sub_cancel, List.take_left, List.drop_left,
    List.length_append, false_or]
  rw [if_neg (by omega), if_neg (by omega)]
  rfl

/-- The blocks of some bytes are unstuffed to these bytes. -/
theorem unstuff_blocksFrom {room : Nat} {run bytes : List UInt8} (h : run.length < runMax)
    (fits : run.length + bytes.length ≤ room) :
  unstuff room (blocksFrom run bytes) = .ok (run ++ bytes)
  := by
  induction bytes generalizing run room with
  | nil =>
    have block : unstuff room (coded run ++ []) = _ :=
      unstuff_coded (Nat.le_of_lt h) (Nat.le_of_add_right_le fits)
    simp only [List.append_nil, or_true, if_true] at block
    rw [blocksFrom, block, unstuff]
    rfl
  | cons b rest ih =>
    rw [List.length_cons] at fits
    unfold blocksFrom
    split
    · next zero =>
      subst zero
      rw [unstuff_coded (by omega) (by omega), if_neg (by simp [blocksFrom_ne_nil]; omega),
        if_neg (by omega), ih (by decide) (by simp only [List.length_nil]; omega)]
      rfl
    · split
      · next full =>
        have length : (run ++ [b]).length = runMax := by simpa using full
        rw [unstuff_coded (by omega) (by omega), if_pos (Or.inl length),
          ih (by decide) (by simp only [List.length_nil]; omega)]
        simp [Functor.map, Except.map]
      · next notFull =>
        have length : (run ++ [b]).length = run.length + 1 := by simp
        rw [ih (by omega) (by omega)]
        simp

/-- Bytes that were stuffed are unstuffed into any buffer that holds them. -/
theorem decode_stuff {room : Nat} {bytes : List UInt8} (fits : bytes.length ≤ room) :
  decode room (stuff bytes) = .ok bytes
  := by
  have blocks : unstuff room (blocksFrom [] bytes) = .ok bytes :=
    unstuff_blocksFrom (by decide) (by simpa using fits)
  simp [decode, stuff, blocks]

end DaisyChain.Stuffing
