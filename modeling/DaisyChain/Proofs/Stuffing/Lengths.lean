import DaisyChain.Stuffing
import Mathlib.Algebra.GroupWithZero.Nat

/-!
# How much stuffing adds

Stuffing adds a code byte in front and a terminator behind.  The code byte behind a run takes the place of a
zero, but not behind a full run, so that each of these adds one more byte (`length_stuff`).  How many there are
can be read off the stretches between the zeros (`fullRuns`).  There is one only if as many bytes as fill a run
follow one another without a zero (`dense_iff`).
-/

namespace DaisyChain.Stuffing

/-! ### Full runs -/

/-- The number of full runs of the given bytes: each stretch between two zeros is cut into as many as it
can fill. -/
def fullRuns (bytes : List UInt8) : Nat :=
  ((bytes.splitOn 0).map fun stretch => stretch.length / runMax).sum

/-- The number of full runs if so many bytes other than zero come before the given ones. -/
def fullRunsBehind (held : Nat) (bytes : List UInt8) : Nat :=
  ((((bytes.splitOn 0).map List.length).modifyHead (held + ·)).map (· / runMax)).sum

/-- There may be no byte before the given ones. -/
theorem fullRunsBehind_zero (bytes : List UInt8) :
  fullRunsBehind 0 bytes = fullRuns bytes
  := by
  rw [fullRunsBehind, fullRuns]
  cases bytes.splitOn 0 with
  | nil => rfl
  | cons first others => simp [Function.comp_def]

/-- The last stretch ends where the bytes do. -/
@[simp]
theorem fullRunsBehind_nil (held : Nat) :
  fullRunsBehind held [] = held / runMax
  := by
  simp [fullRunsBehind]

/-- A zero ends a stretch. -/
@[simp]
theorem fullRunsBehind_cons_zero (held : Nat) (rest : List UInt8) :
  fullRunsBehind held (0 :: rest) = held / runMax + fullRuns rest
  := by
  simp [fullRunsBehind, fullRuns, List.splitOn_cons_eq_if_modifyHead, Function.comp_def]

/-- Any other byte lengthens one. -/
theorem fullRunsBehind_cons (held : Nat) {b : UInt8} (nonzero : b ≠ 0) (rest : List UInt8) :
  fullRunsBehind held (b :: rest) = fullRunsBehind (held + 1) rest
  := by
  rw [fullRunsBehind, fullRunsBehind, List.splitOn_cons_eq_if_modifyHead,
    if_neg (by simpa using nonzero)]
  cases rest.splitOn 0 with
  | nil => rfl
  | cons first others => simp [Nat.add_comm, Nat.add_left_comm]

/-- Several such bytes lengthen it by their number. -/
theorem fullRunsBehind_append (held : Nat) {run : List UInt8} (clean : 0 ∉ run) (bytes : List UInt8) :
  fullRunsBehind held (run ++ bytes) = fullRunsBehind (held + run.length) bytes
  := by
  induction run generalizing held with
  | nil => rfl
  | cons b run ih =>
    rw [List.mem_cons, not_or] at clean
    rw [List.cons_append, fullRunsBehind_cons held (Ne.symm clean.1), ih _ clean.2, List.length_cons,
      Nat.add_right_comm, Nat.add_assoc]

/-- A full run before the given bytes is one more. -/
theorem fullRunsBehind_add_runMax (held : Nat) (bytes : List UInt8) :
  fullRunsBehind (held + runMax) bytes = fullRunsBehind held bytes + 1
  := by
  rw [fullRunsBehind, fullRunsBehind]
  cases some : bytes.splitOn 0 with
  | nil => exact absurd some (List.splitOn_ne_nil _ _)
  | cons first others =>
    have one := Nat.add_div_right (held + first.length) (show 0 < runMax by decide)
    simp only [List.map_cons, List.modifyHead_cons, List.sum_cons, Nat.add_right_comm held runMax, one]
    omega

/-- Zeros alone fill no run. -/
theorem fullRuns_replicate_zero (length : Nat) :
  fullRuns (List.replicate length 0) = 0
  := by
  induction length with
  | zero => rfl
  | succ length ih =>
    rw [List.replicate_succ, ← fullRunsBehind_zero, fullRunsBehind_cons_zero, ih, Nat.zero_div]

/-! ### Lengths -/

/-- The blocks of some bytes behind an open run are longer than these by a code byte, and by one more for
each full run. -/
theorem length_blocksFrom (run bytes : List UInt8) (short : run.length < runMax) :
  (blocksFrom run bytes).length =
    run.length + bytes.length + 1 + fullRunsBehind run.length bytes
  := by
  induction bytes generalizing run with
  | nil => rw [blocksFrom, length_coded, fullRunsBehind_nil, Nat.div_eq_of_lt short, List.length_nil]
  | cons b rest ih =>
    have fresh := ih [] (by decide)
    simp only [List.length_nil, fullRunsBehind_zero] at fresh
    unfold blocksFrom
    split
    · next zero =>
      subst zero
      rw [fullRunsBehind_cons_zero, Nat.div_eq_of_lt short, List.length_append, length_coded, fresh,
        List.length_cons]
      omega
    · next nonzero =>
      rw [fullRunsBehind_cons _ nonzero]
      split
      · next full =>
        have one := fullRunsBehind_add_runMax 0 rest
        rw [Nat.zero_add, fullRunsBehind_zero] at one
        rw [full, one, List.length_append, length_coded, fresh, List.length_append,
          List.length_singleton, List.length_cons]
        omega
      · next further =>
        rw [ih (run ++ [b]) (by rw [List.length_append, List.length_singleton]; omega),
          List.length_append, List.length_singleton, List.length_cons]
        omega

/-- Stuffed bytes are longer by a code byte and the terminator, and by a code byte for each full run. -/
theorem length_stuff (bytes : List UInt8) :
  (stuff bytes).length = bytes.length + 2 + fullRuns bytes
  := by
  rw [stuff, List.length_append, length_blocksFrom [] bytes (by decide), List.length_nil,
    fullRunsBehind_zero, List.length_singleton]
  omega

/-- Stuffed bytes are longer by two at least. -/
theorem le_length_stuff (bytes : List UInt8) :
  bytes.length + 2 ≤ (stuff bytes).length
  := by
  rw [length_stuff]
  apply Nat.le_add_right

/-- Each full run takes as many bytes as fill one. -/
theorem fullRuns_le (bytes : List UInt8) :
  fullRuns bytes ≤ bytes.length / runMax
  := by
  have most := length_stuff_le bytes
  rw [length_stuff, maxLength] at most
  omega

/-! ### Dense bytes -/

/-- Somewhere as many bytes as fill a run follow one another without a zero. -/
def Dense (bytes : List UInt8) : Prop :=
  ∃ run, run <:+: bytes ∧ run.length = runMax ∧ 0 ∉ run

/-- Bytes that have a dense part are dense. -/
theorem Dense.mono {bytes more : List UInt8} (dense : Dense bytes) (among : bytes <:+: more) :
  Dense more
  := by
  obtain ⟨run, inside, full, clean⟩ := dense
  exact ⟨run, inside.trans among, full, clean⟩

/-- Bytes other than zero are dense if they fill a run. -/
theorem dense_of_clean {bytes : List UInt8} (clean : 0 ∉ bytes)
    (filled : bytes.length / runMax ≠ 0) :
  Dense bytes
  := by
  have enough : runMax ≤ bytes.length :=
    Nat.le_of_not_lt fun few => filled (Nat.div_eq_of_lt few)
  exact ⟨bytes.take runMax, (List.take_prefix _ _).isInfix, List.length_take_of_le enough,
    fun zero => clean (List.mem_of_mem_take zero)⟩

/-- Bytes with a full run are dense. -/
theorem dense_of_fullRunsBehind {held bytes : List UInt8} (clean : 0 ∉ held)
    (some : fullRunsBehind held.length bytes ≠ 0) :
  Dense (held ++ bytes)
  := by
  induction bytes generalizing held with
  | nil =>
    rw [fullRunsBehind_nil] at some
    exact (dense_of_clean clean some).mono (List.prefix_append _ _).isInfix
  | cons b rest ih =>
    by_cases zero : b = 0
    · subst zero
      rw [fullRunsBehind_cons_zero] at some
      by_cases filled : held.length / runMax = 0
      · rw [filled, Nat.zero_add, ← fullRunsBehind_zero] at some
        have later : Dense ([] ++ rest) := ih List.not_mem_nil some
        exact later.mono ⟨held ++ [0], [], by simp⟩
      · exact (dense_of_clean clean filled).mono (List.prefix_append _ _).isInfix
    · have longer : 0 ∉ held ++ [b] := by simp [clean, Ne.symm zero]
      rw [fullRunsBehind_cons _ zero] at some
      have later : Dense (held ++ [b] ++ rest) :=
        ih longer (by rwa [List.length_append, List.length_singleton])
      rwa [List.append_assoc] at later

/-- Dense bytes have a full run. -/
theorem Dense.fullRunsBehind_ne_zero {bytes : List UInt8} (dense : Dense bytes) (held : Nat) :
  fullRunsBehind held bytes ≠ 0
  := by
  obtain ⟨run, ⟨front, back, rfl⟩, full, clean⟩ := dense
  rw [List.append_assoc]
  induction front generalizing held with
  | nil =>
    rw [List.nil_append, fullRunsBehind_append held clean, full, fullRunsBehind_add_runMax]
    exact Nat.succ_ne_zero _
  | cons b front ih =>
    rw [List.cons_append]
    by_cases zero : b = 0
    · subst zero
      have later := ih 0
      rw [fullRunsBehind_zero] at later
      rw [fullRunsBehind_cons_zero]
      exact mt Nat.eq_zero_of_add_eq_zero_left later
    · rw [fullRunsBehind_cons held zero]
      exact ih (held + 1)

/-- Bytes are dense exactly if they have a full run. -/
theorem dense_iff (bytes : List UInt8) :
  Dense bytes ↔ fullRuns bytes ≠ 0
  := by
  rw [← fullRunsBehind_zero]
  exact ⟨fun dense => dense.fullRunsBehind_ne_zero 0, dense_of_fullRunsBehind List.not_mem_nil⟩

instance (bytes : List UInt8) : Decidable (Dense bytes) :=
  decidable_of_iff _ (dense_iff bytes).symm

end DaisyChain.Stuffing
