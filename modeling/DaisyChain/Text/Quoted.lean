import DaisyChain.Text.Blank
import DaisyChain.Text.Extending
import DaisyChain.Text.Unassigned

/-!
# Quoted text

A text is quoted by putting it between double quotes.  A double quote and a backslash in it
are marked by a backslash.  A character that cannot be seen, or not by itself, is named
instead: the tab, the ends of line and the null by a letter, all others by their number.

`quoted_of_plain` says that a text of plain characters stands between the quotes as it is,
and `plain_of_toNat_lt` which of the most common characters are plain.
-/

namespace DaisyChain.Text

/-- The character cannot be seen, or not by itself. -/
def invisible (c : Char) : Bool :=
  blank.contains c || extending.contains c || unassigned.contains c

/-- The character stands for itself between quotes. -/
def plain (c : Char) : Bool :=
  c != '"' && c != '\\' && !invisible c

/-- The form of a character between quotes. -/
def quotedChar (c : Char) : List Char :=
  if plain c then [c]
  else if c = '"' ∨ c = '\\' then ['\\', c]
  else if c = '\t' then ['\\', 't']
  else if c = '\n' then ['\\', 'n']
  else if c = '\r' then ['\\', 'r']
  else if c = '\x00' then ['\\', '0']
  else ['\\', 'u', '\x7b'] ++ Nat.toDigits 16 c.toNat ++ ['\x7d']

/-- The text between quotes. -/
def quoted (text : String) : String :=
  String.ofList ('"' :: text.toList.flatMap quotedChar ++ ['"'])

/-- From the space to the tilde all characters but the quote and the backslash are plain. -/
theorem plain_of_toNat_lt {c : Char} (low : 0x20 ≤ c.toNat) (high : c.toNat < 0x7F)
    (quote : c ≠ '"') (backslash : c ≠ '\\') :
  plain c = true
  := by
  have visible : ∀ n < 0x7F, 0x20 ≤ n → invisible (Char.ofNat n) = false := by
    decide +kernel
  have := visible c.toNat high low
  rw [Char.ofNat_toNat] at this
  simp [plain, quote, backslash, this]

/-- A plain character stands for itself. -/
theorem quotedChar_of_plain {c : Char} (h : plain c = true) :
  quotedChar c = [c]
  := if_pos h

/-- A text of plain characters stands between the quotes as it is. -/
theorem quoted_of_plain {text : String} (h : ∀ c ∈ text.toList, plain c = true) :
  quoted text = String.ofList ('"' :: text.toList ++ ['"'])
  := by
  have same : text.toList.flatMap quotedChar = text.toList := by
    generalize text.toList = chars at h
    induction chars with
    | nil => rfl
    | cons c rest ih =>
      rw [List.flatMap_cons, quotedChar_of_plain (h c (by simp)),
        ih fun d hd => h d (by simp [hd])]
      rfl
  rw [quoted, same]

end DaisyChain.Text
