/-!
# Character sets

The flaps of a module carry one character each.  A character set lists them in the order of
the flaps; every character takes four bytes, its encoding as UTF-8 padded with zeros.

`ofText?` makes the set of the characters of a text, `symbol?` gives the text of one flap,
and `toBytes` and `ofBytes?` are the form in which a set travels.  `ofBytes?_toBytes` says
that a set is read back.
-/

namespace DaisyChain.SplitFlap

/-! ### Text as bytes -/

/-- The bytes of a text in UTF-8. -/
def utf8 (text : String) : List UInt8 :=
  text.toByteArray.data.toList

/-- The text that the given bytes are in UTF-8, if any. -/
def ofUtf8? (bytes : List UInt8) : Option String :=
  String.fromUTF8? ⟨bytes.toArray⟩

/-- The bytes of a text are read as that text. -/
@[simp]
theorem ofUtf8?_utf8 (text : String) :
  ofUtf8? (utf8 text) = some text
  := by
  obtain ⟨⟨data⟩, valid⟩ := text
  simp [ofUtf8?, utf8, String.fromUTF8?, valid, String.fromUTF8]

/-- Bytes that are read as a text are the bytes of that text. -/
theorem utf8_of_ofUtf8? {bytes : List UInt8} {text : String} (h : ofUtf8? bytes = some text) :
  utf8 text = bytes
  := by
  unfold ofUtf8? String.fromUTF8? at h
  split at h
  · simp only [Option.some.injEq] at h
    subst h
    simp [utf8, String.fromUTF8]
  · simp at h

/-! ### Symbols -/

/-- The number of bytes of a symbol. -/
def symbolLength : Nat := 4

/-- The bytes of the character of one flap. -/
structure Symbol where
  bytes : List UInt8
  length_bytes : bytes.length = symbolLength
  deriving DecidableEq

namespace Symbol

/-- A character, padded with zeros. -/
def ofChar (c : Char) : Symbol where
  bytes := (String.utf8EncodeChar c ++ List.replicate symbolLength 0).take symbolLength
  length_bytes := by simp

/-- The text before the padding, if it is UTF-8. -/
def text? (s : Symbol) : Option String :=
  ofUtf8? (s.bytes.takeWhile (· != 0))

end Symbol

/-! ### Character sets -/

/-- The most symbols that fit one frame. -/
def symbolsMax : Nat := 63

/-- The symbols of a module in the order of its flaps. -/
structure CharacterSet where
  symbols : List Symbol
  length_symbols : symbols.length ≤ symbolsMax
  deriving DecidableEq

namespace CharacterSet

/-- The set without any symbol. -/
def empty : CharacterSet :=
  ⟨[], by decide⟩

instance : Inhabited CharacterSet :=
  ⟨empty⟩

/-- The number of symbols. -/
def size (s : CharacterSet) : Nat :=
  s.symbols.length

/-- There is no symbol. -/
def isEmpty (s : CharacterSet) : Bool :=
  s.symbols.isEmpty

/-- The given symbols, unless they are too many. -/
def ofSymbols? (symbols : List Symbol) : Option CharacterSet :=
  if h : symbols.length ≤ symbolsMax then some ⟨symbols, h⟩ else none

/-- One symbol for each character of a text. -/
def ofText? (text : String) : Option CharacterSet :=
  ofSymbols? (text.toList.map Symbol.ofChar)

/-- The text on the flap of the given index. -/
def symbol? (s : CharacterSet) (index : Nat) : Option String :=
  s.symbols[index]?.bind Symbol.text?

/-- The bytes of all symbols in turn. -/
def toBytes (s : CharacterSet) : List UInt8 :=
  s.symbols.flatMap Symbol.bytes

/-- The symbols that the given bytes are cut into, unless one is cut short. -/
def cut : List UInt8 → Option (List Symbol)
  | [] => some []
  | a :: b :: c :: d :: rest => (⟨[a, b, c, d], rfl⟩ :: ·) <$> cut rest
  | _ => none

/-- The set that travels as the given bytes. -/
def ofBytes? (bytes : List UInt8) : Option CharacterSet :=
  (cut bytes).bind ofSymbols?

/-- Cutting the bytes of symbols gives the symbols. -/
theorem cut_flatMap_bytes (symbols : List Symbol) :
  cut (symbols.flatMap Symbol.bytes) = some symbols
  := by
  induction symbols with
  | nil => rfl
  | cons s rest ih =>
    obtain ⟨bytes, length_bytes⟩ := s
    match bytes, length_bytes with
    | [a, b, c, d], _ => simp [cut, ih]

/-- A character set is read back. -/
theorem ofBytes?_toBytes (s : CharacterSet) :
  ofBytes? s.toBytes = some s
  := by
  simp [ofBytes?, toBytes, cut_flatMap_bytes, ofSymbols?, s.length_symbols]

end CharacterSet

end DaisyChain.SplitFlap
