import DaisyChain.Proofs.SplitFlap.Layouts

/-!
# The text of a character set

A symbol keeps its character: the bytes of a character other than NUL hold no zero, so that nothing but
the padding is cut off when the symbol is read (`Symbol.text?_ofChar`).  Of NUL nothing is left.

So a character set shows the text that it was made of, one flap for each character (`Shows`), and it
still does so in any other module that it has been sent to (`ofText?_shows`).
-/

namespace DaisyChain.SplitFlap

/-! ### Characters as bytes -/

/-- The bytes of a text of one character are those of the character. -/
theorem utf8_singleton (c : Char) :
  utf8 (String.singleton c) = String.utf8EncodeChar c
  := by rw [utf8, String.toByteArray_singleton, List.utf8Encode_singleton, List.toList_data_toByteArray]

/-- No byte of a character is zero, unless it is NUL. -/
theorem zero_notMem_utf8EncodeChar {c : Char} (other : c ≠ '\x00') :
  0 ∉ String.utf8EncodeChar c
  := by
  -- All bytes of a longer encoding have their highest bit set.
  have marked {b mark : UInt8} (set : mark ≠ 0) : 0 ≠ b ||| mark := fun zero =>
    set (UInt8.or_eq_zero_iff.mp zero.symm).2
  rcases Char.utf8Size_eq c with one | two | three | four
  · rw [String.utf8EncodeChar_eq_singleton one, List.mem_singleton]
    intro zero
    have small := UInt32.le_iff_toNat_le.mp (Char.utf8Size_eq_one_iff.mp one)
    have number := congrArg UInt8.toNat zero
    rw [UInt32.toNat_toUInt8, Nat.mod_eq_of_lt (Nat.lt_of_le_of_lt small (by decide))] at number
    exact other (Char.ext (UInt32.toNat_inj.mp number.symm))
  · rw [String.utf8EncodeChar_eq_cons_cons two]
    simp [marked]
  · rw [String.utf8EncodeChar_eq_cons_cons_cons three]
    simp [marked]
  · rw [String.utf8EncodeChar_eq_cons_cons_cons_cons four]
    simp [marked]

/-- What a flap with a character shows: nothing, if that is NUL. -/
def shown (c : Char) : String :=
  if c = '\x00' then "" else String.singleton c

/-- The text of a character's symbol is what its flap shows. -/
theorem Symbol.text?_ofChar (c : Char) :
  (Symbol.ofChar c).text? = some (shown c)
  := by
  by_cases nul : c = '\x00'
  · have padding : (ofChar '\x00').bytes = [0, 0, 0, 0] := by decide
    rw [nul, text?, padding, shown, if_pos rfl]
    apply ofUtf8?_utf8 ""
  · have clean : ∀ b ∈ String.utf8EncodeChar c, (b != 0) = true := by
      rintro b member
      rw [bne_iff_ne]
      rintro rfl
      exact zero_notMem_utf8EncodeChar nul member
    have short : (String.utf8EncodeChar c).length ≤ symbolLength := by
      rw [String.length_utf8EncodeChar]
      apply Char.utf8Size_le_four
    have padded : (ofChar c).bytes = String.utf8EncodeChar c ++
        List.replicate (symbolLength - (String.utf8EncodeChar c).length) 0 := by
      change (String.utf8EncodeChar c ++ List.replicate symbolLength 0).take symbolLength = _
      rw [List.take_append, List.take_of_length_le short, List.take_replicate,
        Nat.min_eq_left (Nat.sub_le _ _)]
    rw [text?, padded, List.takeWhile_append_of_pos clean, List.takeWhile_replicate, shown, if_neg nul,
      ← utf8_singleton]
    simp

namespace CharacterSet

/-! ### Texts on flaps -/

/-- A character set has a flap for each character of a text, and shows it there. -/
structure Shows (s : CharacterSet) (text : String) : Prop where
  size : s.size = text.length
  symbol : ∀ i (within : i < text.toList.length), s.symbol? i = some (shown text.toList[i])
  none : ∀ i, text.length ≤ i → s.symbol? i = none

/-- The character set of a text shows it. -/
theorem shows_of_ofText? {s : CharacterSet} {text : String} (made : ofText? text = some s) :
  s.Shows text
  := by
  rw [ofText?, ofSymbols?] at made
  split at made
  · cases made
    constructor
    · rw [size, List.length_map, String.length_toList]
    · intro i within
      simp [symbol?, within, Symbol.text?_ofChar]
    · intro i behind
      rw [← String.length_toList] at behind
      rw [symbol?, List.getElem?_eq_none (by rwa [List.length_map]), Option.bind_none]
  · contradiction

/-- Texts that are not too long have a character set. -/
theorem exists_ofText?_iff {text : String} :
  (∃ s, ofText? text = some s) ↔ text.length ≤ 63
  := by
  have length : (text.toList.map Symbol.ofChar).length = text.length := by
    rw [List.length_map, String.length_toList]
  rw [ofText?, ofSymbols?]
  split
  · next few =>
    rw [length, symbolsMax] at few
    simpa using few
  · next many =>
    rw [length, symbolsMax] at many
    simpa using many

end CharacterSet

/-- A text has a character set exactly if it has 63 characters at most.  The character set shows the text,
and so it does in any other module that it has been sent to; nothing else of that module has changed
then. -/
theorem ofText?_shows (text : String) :
  ((∃ s, CharacterSet.ofText? text = some s) ↔ text.length ≤ 63) ∧
  ∀ s, CharacterSet.ofText? text = some s →
    s.Shows text ∧
    ∀ m m' : Module, m.characterSet = s →
      ∃ data m'', characterSet.serialize m = .ok data ∧
        characterSet.deserialize data m' = (.ok (), m'') ∧ m''.characterSet.Shows text ∧
        m'' = { m' with characterSet := s }
  := by
  refine ⟨CharacterSet.exists_ofText?_iff, fun s made => ⟨CharacterSet.shows_of_ofText? made, ?_⟩⟩
  rintro m m' rfl
  have shows := CharacterSet.shows_of_ofText? made
  obtain ⟨data, -, sent⟩ := exact_characterSetField.exists_serialize (d := characterSet) rfl rfl
  have taken := (exact_characterSetField.deserialize_of_serialize rfl rfl sent m').2
  exact ⟨data, _, sent, taken, shows, rfl⟩

/-- Characters of one to four bytes, and NUL among them, are sent to a module without any. -/
theorem ofText?_shows_nul :
  let text := String.ofList ['A', '\x00', 'é', '€', '😀']
  ∃ s, CharacterSet.ofText? text = some s ∧ s.size = 5 ∧ s.symbol? 1 = some "" ∧
    s.symbol? 4 = some (String.singleton '😀') ∧ s.symbol? 5 = none ∧
    ∃ data m, characterSet.serialize { characterSet := s } = .ok data ∧
      characterSet.deserialize data { offset := 7 } = (.ok (), m) ∧ m.characterSet.Shows text
  := by
  intro text
  have list : text.toList = ['A', '\x00', 'é', '€', '😀'] := String.toList_ofList
  have length : text.length = 5 := by
    rw [← String.length_toList, list]
    rfl
  have short : text.length ≤ 63 := by
    rw [length]
    decide
  obtain ⟨exist, all⟩ := ofText?_shows text
  obtain ⟨s, made⟩ := exist.mpr short
  obtain ⟨shows, sends⟩ := all s made
  obtain ⟨data, m, sent, taken, kept, -⟩ := sends { characterSet := s } { offset := 7 } rfl
  have shown (i : Nat) (within : i < 5) := shows.symbol i (by rw [list]; exact within)
  simp only [list] at shown
  exact ⟨s, made, shows.size.trans length, shown 1 (by decide), shown 4 (by decide),
    shows.none 5 (Nat.le_of_eq length), data, m, sent, taken, kept⟩

end DaisyChain.SplitFlap
