/-!
# Classes of characters

A class of characters is given by ranges of code points, in ascending order.  `contains`
stops at the first range that is not below the character; `contains_iff` says that it misses
no range behind.
-/

namespace DaisyChain.Text

/-- No range starts below the given number, ends below its start, or meets another one. -/
def ascendingFrom : Nat → List (Nat × Nat) → Bool
  | _, [] => true
  | low, (first, last) :: rest => low ≤ first && first ≤ last && ascendingFrom (last + 1) rest

/-- Ranges of code points, the first and the last of each included. -/
structure CharClass where
  ranges : List (Nat × Nat)
  ascending : ascendingFrom 0 ranges = true

/-- The number lies in one of the ranges, which are in ascending order. -/
def within (n : Nat) : List (Nat × Nat) → Bool
  | [] => false
  | (first, last) :: rest => if n ≤ last then first ≤ n else within n rest

/-- The character belongs to the class. -/
def CharClass.contains (s : CharClass) (c : Char) : Bool :=
  within c.toNat s.ranges

/-- The ranges start where they are said to. -/
theorem le_of_ascendingFrom {low : Nat} {ranges : List (Nat × Nat)}
    (h : ascendingFrom low ranges = true) {r : Nat × Nat} (mem : r ∈ ranges) :
  low ≤ r.1
  := by
  induction ranges generalizing low with
  | nil => simp at mem
  | cons head rest ih =>
    obtain ⟨first, last⟩ := head
    simp only [ascendingFrom, Bool.and_eq_true, decide_eq_true_eq] at h
    rcases List.mem_cons.mp mem with rfl | later
    · exact h.1.1
    · have := ih h.2 later
      omega

/-- A number is within ascending ranges when it lies in one of them. -/
theorem within_iff {low : Nat} {ranges : List (Nat × Nat)}
    (h : ascendingFrom low ranges = true) (n : Nat) :
  within n ranges = true ↔ ∃ r ∈ ranges, r.1 ≤ n ∧ n ≤ r.2
  := by
  induction ranges generalizing low with
  | nil => simp [within]
  | cons head rest ih =>
    obtain ⟨first, last⟩ := head
    simp only [ascendingFrom, Bool.and_eq_true, decide_eq_true_eq] at h
    simp only [within, List.mem_cons, or_and_right, exists_or, exists_eq_left]
    split
    · next before =>
      have behind : ¬∃ r ∈ rest, r.1 ≤ n ∧ n ≤ r.2 := by
        rintro ⟨r, mem, le, _⟩
        have := le_of_ascendingFrom h.2 mem
        omega
      simp only [behind, or_false, before, and_true, decide_eq_true_eq]
    · next after =>
      simp only [ih h.2, after, and_false, false_or]

/-- A character belongs to a class when it lies in one of its ranges. -/
theorem CharClass.contains_iff (s : CharClass) (c : Char) :
  s.contains c = true ↔ ∃ r ∈ s.ranges, r.1 ≤ c.toNat ∧ c.toNat ≤ r.2
  := within_iff s.ascending c.toNat

end DaisyChain.Text
