import DaisyChain.Text.CharClass

/-!
# Blank characters

A character is blank when it leaves no mark where it stands: a control, a separator of lines
or paragraphs, a space other than the common one, a sign for the layout of the text around
it, or a filler.  The table follows Unicode 17.
-/

namespace DaisyChain.Text

/-- The characters that leave no mark, but for the common space. -/
def blank : CharClass where
  ranges :=
    [(0x0, 0x1F), (0x7F, 0xA0), (0xAD, 0xAD), (0x600, 0x605), (0x61C, 0x61C), (0x6DD, 0x6DD),
     (0x70F, 0x70F), (0x890, 0x891), (0x8E2, 0x8E2), (0x115F, 0x1160), (0x1680, 0x1680),
     (0x180E, 0x180E), (0x2000, 0x200F), (0x2028, 0x202F), (0x205F, 0x2064), (0x2066, 0x206F),
     (0x3000, 0x3000), (0x3164, 0x3164), (0xFEFF, 0xFEFF), (0xFFA0, 0xFFA0), (0xFFF9, 0xFFFB),
     (0x110BD, 0x110BD), (0x110CD, 0x110CD), (0x13430, 0x1343F), (0x1BCA0, 0x1BCA3),
     (0x1D173, 0x1D17A), (0xE0001, 0xE0001), (0xE0020, 0xE007F)]
  ascending := by decide +kernel

/-- The characters that part words are blank, but for the common space. -/
theorem blank_of_isWhitespace {c : Char} (h : c.isWhitespace = true) (space : c ≠ ' ') :
  blank.contains c = true
  := by
  simp only [Char.isWhitespace, Bool.or_eq_true, decide_eq_true_eq, space, false_or] at h
  rcases h with (rfl | rfl) | rfl <;> decide

end DaisyChain.Text
