import DaisyChain.Header.Fields
import DaisyChain.Proofs.Property.Sizes
import DaisyChain.SplitFlap.Properties

/-!
# The layouts of a split-flap module

Each of the eleven items that a split-flap module holds is laid out in its own way.  What a module
sends of an item is what any other module needs in order to hold the same one, and nothing else of
that module is touched; and what a module has taken is what it sends from then on, but for the bits of
a description that have no meaning (`layouts_exact`).

Both directions are laws of the field of an item: bytes of a value are read as that value, and bytes
that are read as a value are its bytes (`Field.Exact`).
-/

namespace DaisyChain

namespace LittleEndian

/-- Bytes are written back from the number that they stand for, as far as that is kept. -/
theorem bytes_of_value {width : Nat} {bs : List UInt8} {n : Nat} (length : bs.length = width)
    (same : n = value bs) :
  bytes width n = bs
  := by rw [same, ← length, bytes_value]

end LittleEndian

namespace SplitFlap

/-! ### Exact fields -/

namespace Field

variable {α : Type}

/-- A field whose bytes are read as the value that they are the bytes of, and fit the given size.
Bytes that are read as a value are its bytes, once they have been put into their normal form. -/
structure Exact (f : Field α) (size : PropertySize) (normal : List UInt8 → List UInt8) : Prop where
  read_write : ∀ v m, f.read (f.write v m) = v
  decode_encode : ∀ {v bytes}, f.encode v = some bytes → f.decode bytes = some v
  fits : ∀ {v bytes}, f.encode v = some bytes → bytes.length ≤ min size.maxLength valueMax
  wraps : ∀ {v bytes}, f.encode v = some bytes → ∃ data, size.wrap bytes = .ok data
  encode_decode : ∀ {data bytes v}, size.unwrap data = .ok bytes → f.decode bytes = some v →
    ∃ bytes', f.encode v = some bytes' ∧ size.wrap bytes' = .ok (normal data)

/-- A field whose values take as many bytes as their size says. -/
theorem Exact.of_static {f : Field α} {length : UInt16} {normal : List UInt8 → List UInt8}
    (short : length.toNat ≤ valueMax) (read_write : ∀ v m, f.read (f.write v m) = v)
    (decode_encode : ∀ v bytes, f.encode v = some bytes →
      f.decode bytes = some v ∧ bytes.length = length.toNat)
    (encode_decode : ∀ bytes v, bytes.length = length.toNat → f.decode bytes = some v →
      f.encode v = some (normal bytes)) :
  f.Exact (.static length) normal
  := by
  have wraps {v bytes} (encoded : f.encode v = some bytes) :
      PropertySize.wrap (.static length) bytes = .ok bytes := by
    have same := (decode_encode v bytes encoded).2
    rw [PropertySize.wrap, if_neg (fun differs => differs same), if_neg (by omega)]
  constructor
  · apply read_write
  · intro v bytes encoded
    apply (decode_encode v bytes encoded).1
  · intro v bytes encoded
    rw [(decode_encode v bytes encoded).2, PropertySize.maxLength]
    omega
  · intro v bytes encoded
    exact ⟨bytes, wraps encoded⟩
  · intro data bytes v unwrapped decoded
    rw [PropertySize.unwrap] at unwrapped
    split at unwrapped
    · next same =>
      cases unwrapped
      have encoded := encode_decode data v same decoded
      exact ⟨_, encoded, wraps encoded⟩
    · contradiction

/-- A field whose values take as many bytes as there are, which travel with their number. -/
theorem Exact.of_dynamic {f : Field α} (read_write : ∀ v m, f.read (f.write v m) = v)
    (decode_encode : ∀ v bytes, f.encode v = some bytes →
      f.decode bytes = some v ∧ bytes.length ≤ PropertySize.maxLength .dynamic)
    (encode_decode : ∀ bytes v, f.decode bytes = some v → f.encode v = some bytes) :
  f.Exact .dynamic id
  := by
  have fits {v bytes} (encoded : f.encode v = some bytes) :
      bytes.length ≤ min (PropertySize.maxLength .dynamic) valueMax := by
    apply Nat.le_min.mpr ⟨(decode_encode v bytes encoded).2, _⟩
    apply Nat.le_trans (decode_encode v bytes encoded).2 (by decide)
  constructor
  · apply read_write
  · intro v bytes encoded
    apply (decode_encode v bytes encoded).1
  · intro v bytes encoded
    apply fits encoded
  · intro v bytes encoded
    have short := (decode_encode v bytes encoded).2
    simp only [PropertySize.maxLength, valueMax, PropertySize.prefixLength] at short
    refine ⟨_, if_neg ?_⟩
    simp only [valueMax, PropertySize.prefixLength]
    omega
  · intro data bytes v unwrapped decoded
    have encoded := encode_decode bytes v decoded
    exact ⟨bytes, encoded, PropertySize.wrap_of_unwrap unwrapped (fits encoded)⟩

section Carried

variable {f : Field α} {normal : List UInt8 → List UInt8} {d : Definition Module}

/-- Modules with the same value of a field are laid out alike. -/
theorem serialize_congr (get : d.get = some f.get) {m m' : Module} (same : f.read m = f.read m') :
  d.serialize m = d.serialize m'
  := by simp only [Definition.serialize, get, Field.get, same]

/-- What a module sends of a field: the bytes of its value, if it has any. -/
theorem Exact.exists_serialize (exact : f.Exact d.size normal) (get : d.get = some f.get)
    {m : Module} {bytes : List UInt8} (encoded : f.encode (f.read m) = some bytes) :
  ∃ data, d.size.wrap bytes = .ok data ∧ d.serialize m = .ok data
  := by
  obtain ⟨data, wrapped⟩ := exact.wraps encoded
  have fits : bytes.length ≤ d.room := exact.fits encoded
  have got : f.get m d.room = some bytes := by
    rw [Field.get, encoded]
    exact Option.filter_some_pos (decide_eq_true fits)
  refine ⟨data, wrapped, ?_⟩
  simp only [Definition.serialize, get, got, if_neg (Nat.not_lt.mpr fits), wrapped]
  rfl

/-- A module sends nothing of an exact field only if its value has no bytes. -/
theorem Exact.serialize_error_iff (exact : f.Exact d.size normal) (get : d.get = some f.get)
    {m : Module} {e : PropertyError} :
  d.serialize m = .error e ↔ e = .handler ∧ f.encode (f.read m) = none
  := by
  cases encoded : f.encode (f.read m) with
  | none =>
    have nothing : f.get m d.room = none := by rw [Field.get, encoded, Option.filter_none]
    simp only [Definition.serialize, get, nothing]
    simp [eq_comm]
  | some bytes =>
    obtain ⟨data, -, sent⟩ := exact.exists_serialize get encoded
    simp [sent]

/-- What a module sends of an exact field fits a frame, and every module takes it and holds the same
value then. -/
theorem Exact.deserialize_of_serialize (exact : f.Exact d.size normal) (get : d.get = some f.get)
    (set : d.set = some f.set) {m : Module} {data : List UInt8} (sent : d.serialize m = .ok data)
    (m' : Module) :
  data.length ≤ valueMax ∧ d.deserialize data m' = (.ok (), f.write (f.read m) m')
  := by
  cases encoded : f.encode (f.read m) with
  | none =>
    rw [(exact.serialize_error_iff get).mpr ⟨rfl, encoded⟩] at sent
    contradiction
  | some bytes =>
    obtain ⟨data', wrapped, sent'⟩ := exact.exists_serialize get encoded
    rw [sent'] at sent
    cases sent
    refine ⟨PropertySize.length_wrap wrapped, ?_⟩
    rw [Definition.deserialize_of_unwrap set (PropertySize.unwrap_of_wrap wrapped), Field.set,
      exact.decode_encode encoded]
    rfl

/-- What a module has taken of an exact field is what it sends. -/
theorem Exact.serialize_of_deserialize (exact : f.Exact d.size normal) (get : d.get = some f.get)
    (set : d.set = some f.set) {m m₁ : Module} {data : List UInt8}
    (taken : d.deserialize data m = (.ok (), m₁)) :
  d.serialize m₁ = .ok (normal data)
  := by
  cases unwrapped : d.size.unwrap data with
  | error e =>
    rw [Definition.deserialize_of_unwrap_error set unwrapped] at taken
    cases taken
  | ok bytes =>
    rw [Definition.deserialize_of_unwrap set unwrapped] at taken
    cases decoded : f.decode bytes with
    | none =>
      simp only [Field.set, decoded] at taken
      cases taken
    | some v =>
      simp only [Field.set, decoded] at taken
      cases taken
      obtain ⟨bytes', encoded, wrapped⟩ := exact.encode_decode unwrapped decoded
      rw [← exact.read_write v m] at encoded
      obtain ⟨data', wrapped', sent⟩ := exact.exists_serialize get encoded
      rw [sent, Except.ok.inj (wrapped'.symm.trans wrapped)]

end Carried

end Field

/-! ### The fields of a module -/

/-- A byte is read from one byte. -/
theorem eq_of_single {bytes : List UInt8} {b : UInt8} (read : single bytes = some b) :
  bytes = [b]
  := by
  unfold single at read
  split at read
  · cases read
    rfl
  · contradiction

/-- A field that holds a byte as it travels. -/
theorem Field.Exact.of_single {f : Field UInt8} (read_write : ∀ v m, f.read (f.write v m) = v)
    (encode : ∀ v, f.encode v = some [v]) (decode : f.decode = single) :
  f.Exact (.static 1) id
  := by
  apply Exact.of_static (by decide) read_write
  · intro v bytes encoded
    rw [encode] at encoded
    cases encoded
    rw [decode]
    exact ⟨rfl, rfl⟩
  · intro bytes v _ decoded
    rw [decode] at decoded
    rw [encode, eq_of_single decoded]
    rfl

/-- The character is exact. -/
theorem exact_characterField :
  characterField.Exact (.static 1) id
  := .of_single (fun _ _ => rfl) (fun _ => rfl) rfl

/-- The offset is exact. -/
theorem exact_offsetField :
  offsetField.Exact (.static 1) id
  := .of_single (fun _ _ => rfl) (fun _ => rfl) rfl

/-- The minimum rotation is exact. -/
theorem exact_minimumRotationField :
  minimumRotationField.Exact (.static 1) id
  := .of_single (fun _ _ => rfl) (fun _ => rfl) rfl

/-- The version of the firmware and its check sum are exact. -/
theorem exact_firmwareVersionField :
  firmwareVersionField.Exact .dynamic id
  := by
  apply Field.Exact.of_dynamic fun _ _ => rfl
  · rintro ⟨⟨text, short⟩, crc⟩ bytes encoded
    cases encoded
    rw [versionMax] at short
    have length : (utf8 text ++ LittleEndian.bytes 4 crc.toNat).length - 4 = (utf8 text).length := by
      rw [List.length_append, LittleEndian.length_bytes, Nat.add_sub_cancel]
    have number : LittleEndian.value (LittleEndian.bytes 4 crc.toNat) = crc.toNat := by
      rw [LittleEndian.value_bytes]
      apply Nat.mod_eq_of_lt crc.toNat_lt
    constructor
    · simp only [firmwareVersionField]
      rw [if_neg (by rw [List.length_append, LittleEndian.length_bytes]; omega), length,
        List.take_left, List.drop_left, ofUtf8?_utf8, number, UInt32.ofNat_toNat]
      simp [VersionText.of?, versionMax, short]
    · rw [List.length_append, LittleEndian.length_bytes]
      simp only [PropertySize.maxLength, valueMax, PropertySize.prefixLength]
      omega
  · rintro bytes ⟨⟨text, short⟩, crc⟩ decoded
    simp only [firmwareVersionField] at decoded
    split at decoded
    · contradiction
    · next long =>
      obtain ⟨text', utf, decoded⟩ := Option.bind_eq_some_iff.mp decoded
      obtain ⟨version, bounded, decoded⟩ := Option.bind_eq_some_iff.mp decoded
      cases decoded
      rw [VersionText.of?] at bounded
      split at bounded
      · cases bounded
        have width : (bytes.drop (bytes.length - 4)).length = 4 := by
          rw [List.length_drop]
          omega
        have small := LittleEndian.value_lt (bytes.drop (bytes.length - 4))
        rw [width] at small
        have crc : LittleEndian.bytes 4 (UInt32.ofNat
            (LittleEndian.value (bytes.drop (bytes.length - 4)))).toNat =
            bytes.drop (bytes.length - 4) := by
          apply LittleEndian.bytes_of_value width
          rw [UInt32.toNat_ofNat']
          apply Nat.mod_eq_of_lt small
        simp only [firmwareVersionField]
        rw [utf8_of_ofUtf8? utf, crc, List.take_append_drop]
      · contradiction

/-- A page is read back. -/
theorem decodePage_encodePage (page : FirmwarePage) :
  decodePage (encodePage page) = some page
  := by
  obtain ⟨index, content, length⟩ := page
  have front : (LittleEndian.bytes 2 index.toNat).reverse.length = 2 := by simp
  have behind : (encodePage ⟨index, content, length⟩).drop 2 = content := by
    rw [encodePage, List.drop_left' front]
  have number : LittleEndian.value
      ((encodePage ⟨index, content, length⟩).take 2).reverse = index.toNat := by
    rw [encodePage, List.take_left' front, List.reverse_reverse, LittleEndian.value_bytes]
    apply Nat.mod_eq_of_lt index.toNat_lt
  simp only [decodePage, behind, number, length, dif_pos, UInt16.ofNat_toNat]

/-- Bytes that are read as a page are the bytes of the page. -/
theorem encodePage_of_decodePage {bytes : List UInt8} {page : FirmwarePage}
    (read : decodePage bytes = some page) :
  encodePage page = bytes
  := by
  rw [decodePage] at read
  split at read
  · next length =>
    cases read
    have width : (bytes.take 2).reverse.length = 2 := by
      rw [List.length_reverse, List.length_take]
      rw [List.length_drop, pageLength] at length
      omega
    have small := LittleEndian.value_lt (bytes.take 2).reverse
    rw [width] at small
    have index : LittleEndian.bytes 2 (UInt16.ofNat
        (LittleEndian.value (bytes.take 2).reverse)).toNat = (bytes.take 2).reverse := by
      apply LittleEndian.bytes_of_value width
      rw [UInt16.toNat_ofNat']
      apply Nat.mod_eq_of_lt small
    rw [encodePage, index, List.reverse_reverse, List.take_append_drop]
  · contradiction

/-- The page received last is exact. -/
theorem exact_firmwarePageField :
  firmwarePageField.Exact (.static 130) id
  := by
  apply Field.Exact.of_static (by decide) fun _ _ => rfl
  · intro v bytes encoded
    obtain ⟨page, rfl, rfl⟩ := Option.map_eq_some_iff.mp encoded
    constructor
    · simp only [firmwarePageField, decodePage_encodePage]
      rfl
    · rw [encodePage, List.length_append, List.length_reverse, LittleEndian.length_bytes,
        page.length_bytes]
      rfl
  · intro bytes v _ decoded
    obtain ⟨page, read, rfl⟩ := Option.map_eq_some_iff.mp decoded
    exact congrArg some (encodePage_of_decodePage read)

/-- The command is exact. -/
theorem exact_commandField :
  commandField.Exact (.static 1) id
  := by
  apply Field.Exact.of_static (by decide) fun _ _ => rfl
  · intro v bytes encoded
    cases encoded
    cases v <;> exact ⟨rfl, rfl⟩
  · intro bytes v _ decoded
    obtain ⟨b, read, meant⟩ := Option.bind_eq_some_iff.mp decoded
    have byte : v.toByte = b := by
      rw [Command.ofByte?] at meant
      split at meant
      · next none =>
        cases meant
        exact none.symm
      · split at meant
        · next reboot =>
          cases meant
          exact reboot.symm
        · contradiction
    rw [eq_of_single read, ← byte]
    rfl

/-- The byte of a description without the bits that have no meaning: the reserved ones, and those of
a kind that there is not. -/
def ModuleInfo.clear (b : UInt8) : UInt8 :=
  (b &&& 1) ||| if (b >>> 1) &&& 0x0F = 1 then 2 else 0

/-- A description is read back. -/
theorem ModuleInfo.ofByte_toByte (i : ModuleInfo) :
  ModuleInfo.ofByte i.toByte = i
  := by
  obtain ⟨columnEnd, moduleType⟩ := i
  cases columnEnd <;> cases moduleType <;> rfl

/-- The byte of the description that a byte holds. -/
theorem ModuleInfo.toByte_ofByte (b : UInt8) :
  (ModuleInfo.ofByte b).toByte = ModuleInfo.clear b
  := by
  revert b
  apply forall_byte
  decide +kernel

/-- The description is exact, but for bits without a meaning. -/
theorem exact_moduleInfoField :
  moduleInfoField.Exact (.static 1) (List.map ModuleInfo.clear)
  := by
  apply Field.Exact.of_static (by decide) fun _ _ => rfl
  · intro v bytes encoded
    cases encoded
    refine ⟨?_, rfl⟩
    exact congrArg some v.ofByte_toByte
  · intro bytes v _ decoded
    obtain ⟨b, read, rfl⟩ := Option.map_eq_some_iff.mp decoded
    simp only [moduleInfoField, ModuleInfo.toByte_ofByte, eq_of_single read]
    rfl

/-- All symbols of a character set fit a frame. -/
theorem CharacterSet.length_toBytes (s : CharacterSet) :
  s.toBytes.length ≤ symbolLength * symbolsMax
  := by
  have each (symbols : List Symbol) :
      (symbols.flatMap Symbol.bytes).length = symbolLength * symbols.length := by
    induction symbols with
    | nil => rfl
    | cons symbol rest ih =>
      rw [List.flatMap_cons, List.length_append, ih, symbol.length_bytes, List.length_cons,
        Nat.mul_succ, Nat.add_comm]
  rw [toBytes, each]
  apply Nat.mul_le_mul_left _ s.length_symbols

/-- Bytes that are cut into symbols are the bytes of the symbols. -/
theorem CharacterSet.flatMap_bytes_of_cut {bytes : List UInt8} {symbols : List Symbol}
    (cuts : cut bytes = some symbols) :
  symbols.flatMap Symbol.bytes = bytes
  := by
  fun_induction cut bytes generalizing symbols with
  | case1 =>
    cases cuts
    rfl
  | case2 a b c d rest ih =>
    obtain ⟨others, behind, rfl⟩ := Option.map_eq_some_iff.mp cuts
    rw [List.flatMap_cons, ih behind]
    rfl
  | case3 => contradiction

/-- The character set is exact. -/
theorem exact_characterSetField :
  characterSetField.Exact .dynamic id
  := by
  apply Field.Exact.of_dynamic fun _ _ => rfl
  · intro v bytes encoded
    cases encoded
    exact ⟨v.ofBytes?_toBytes, v.length_toBytes⟩
  · intro bytes v decoded
    obtain ⟨symbols, cuts, few⟩ := Option.bind_eq_some_iff.mp decoded
    rw [CharacterSet.ofSymbols?] at few
    split at few
    · cases few
      exact congrArg some (CharacterSet.flatMap_bytes_of_cut cuts)
    · contradiction

/-- The colours are exact. -/
theorem exact_colorField :
  colorField.Exact (.static 6) id
  := by
  apply Field.Exact.of_static (by decide) fun _ _ => rfl
  · intro v bytes encoded
    cases encoded
    exact ⟨rfl, rfl⟩
  · intro bytes v _ decoded
    simp only [colorField] at decoded
    split at decoded
    · cases decoded
      rfl
    · contradiction

/-- The motion is exact. -/
theorem exact_motionField :
  motionField.Exact (.static 4) id
  := by
  apply Field.Exact.of_static (by decide) fun _ _ => rfl
  · intro v bytes encoded
    cases encoded
    exact ⟨rfl, rfl⟩
  · intro bytes v _ decoded
    simp only [motionField] at decoded
    split at decoded
    · cases decoded
      rfl
    · contradiction

/-- A threshold is read back. -/
theorem decodeThreshold_encodeThreshold (value : Int16) :
  decodeThreshold (encodeThreshold value) = value
  := by
  rw [decodeThreshold, encodeThreshold, LittleEndian.value_bytes]
  have small : value.toUInt16.toNat % LittleEndian.span 2 = value.toUInt16.toNat :=
    Nat.mod_eq_of_lt value.toUInt16.toNat_lt
  rw [small, UInt16.ofNat_toNat]
  rfl

/-- The bytes of the threshold that two bytes are read as are these bytes. -/
theorem encodeThreshold_decodeThreshold (low high : UInt8) :
  encodeThreshold (decodeThreshold [low, high]) = [low, high]
  := by
  have width : [low, high].length = 2 := rfl
  apply LittleEndian.bytes_of_value width
  change (UInt16.ofNat (LittleEndian.value [low, high])).toNat = _
  rw [UInt16.toNat_ofNat']
  apply Nat.mod_eq_of_lt (LittleEndian.value_lt [low, high])

/-- The thresholds are exact. -/
theorem exact_irThresholdField :
  irThresholdField.Exact (.static 4) id
  := by
  apply Field.Exact.of_static (by decide) fun _ _ => rfl
  · rintro ⟨lower, upper⟩ bytes encoded
    cases encoded
    refine ⟨?_, rfl⟩
    have both : irThresholdField.decode (encodeThreshold lower ++ encodeThreshold upper) =
        some ⟨decodeThreshold (encodeThreshold lower), decodeThreshold (encodeThreshold upper)⟩ := rfl
    rw [both, decodeThreshold_encodeThreshold, decodeThreshold_encodeThreshold]
  · intro bytes v _ decoded
    simp only [irThresholdField] at decoded
    split at decoded
    · cases decoded
      simp only [irThresholdField, encodeThreshold_decodeThreshold]
      rfl
    · contradiction

/-! ### The items of a module -/

/-- What a module holds: one item for each property. -/
inductive Item where
  | firmwareVersion
  | firmwarePage
  | command
  | moduleInfo
  | characterSet
  | character
  | offset
  | color
  | motion
  | minimumRotation
  | irThreshold
  deriving DecidableEq, Repr

namespace Item

/-- All items in the order of their properties. -/
def all : List Item :=
  [firmwareVersion, firmwarePage, command, moduleInfo, characterSet, character, offset, color, motion,
    minimumRotation, irThreshold]

/-- The property that an item travels as. -/
def definition : Item → Definition Module
  | firmwareVersion => SplitFlap.firmwareVersion
  | firmwarePage => SplitFlap.firmwareUpdate
  | command => SplitFlap.command
  | moduleInfo => SplitFlap.moduleInfo
  | characterSet => SplitFlap.characterSet
  | character => SplitFlap.character
  | offset => SplitFlap.offset
  | color => SplitFlap.color
  | motion => SplitFlap.motion
  | minimumRotation => SplitFlap.minimumRotation
  | irThreshold => SplitFlap.irThreshold

/-- The second module with the item of the first one. -/
def copy (m m' : Module) : Item → Module
  | firmwareVersion => { m' with firmwareVersion := m.firmwareVersion }
  | firmwarePage => { m' with firmwarePage := m.firmwarePage }
  | command => { m' with command := m.command }
  | moduleInfo => { m' with moduleInfo := m.moduleInfo }
  | characterSet => { m' with characterSet := m.characterSet }
  | character => { m' with character := m.character }
  | offset => { m' with offset := m.offset }
  | color => { m' with color := m.color }
  | motion => { m' with motion := m.motion }
  | minimumRotation => { m' with minimumRotation := m.minimumRotation }
  | irThreshold => { m' with irThreshold := m.irThreshold }

/-- The data of an item without what has no meaning. -/
def normal : Item → List UInt8 → List UInt8
  | moduleInfo, data => data.map ModuleInfo.clear
  | _, data => data

/-- An item is held in a field. -/
structure HeldIn {α : Type} (p : Item) (f : Field α) : Prop where
  get : p.definition.get = some f.get
  set : p.definition.set = some f.set
  exact : f.Exact p.definition.size p.normal
  copies : ∀ m m', f.write (f.read m) m' = p.copy m m'
  missing : ∀ m, f.encode (f.read m) = none ↔ p = firmwarePage ∧ m.firmwarePage = none

/-- Every item is held in an exact field. -/
theorem exists_heldIn (p : Item) :
  ∃ (α : Type) (f : Field α), p.HeldIn f
  := by
  cases p with
  | firmwareVersion =>
    exact ⟨_, _, rfl, rfl, exact_firmwareVersionField, fun _ _ => rfl, by simp [firmwareVersionField]⟩
  | firmwarePage =>
    exact ⟨_, _, rfl, rfl, exact_firmwarePageField, fun _ _ => rfl, by simp [firmwarePageField]⟩
  | command =>
    exact ⟨_, _, rfl, rfl, exact_commandField, fun _ _ => rfl, by simp [commandField]⟩
  | moduleInfo =>
    exact ⟨_, _, rfl, rfl, exact_moduleInfoField, fun _ _ => rfl, by simp [moduleInfoField]⟩
  | characterSet =>
    exact ⟨_, _, rfl, rfl, exact_characterSetField, fun _ _ => rfl, by simp [characterSetField]⟩
  | character =>
    exact ⟨_, _, rfl, rfl, exact_characterField, fun _ _ => rfl, by simp [characterField]⟩
  | offset =>
    exact ⟨_, _, rfl, rfl, exact_offsetField, fun _ _ => rfl, by simp [offsetField]⟩
  | color =>
    exact ⟨_, _, rfl, rfl, exact_colorField, fun _ _ => rfl, by simp [colorField]⟩
  | motion =>
    exact ⟨_, _, rfl, rfl, exact_motionField, fun _ _ => rfl, by simp [motionField]⟩
  | minimumRotation =>
    exact ⟨_, _, rfl, rfl, exact_minimumRotationField, fun _ _ => rfl, by simp [minimumRotationField]⟩
  | irThreshold =>
    exact ⟨_, _, rfl, rfl, exact_irThresholdField, fun _ _ => rfl, by simp [irThresholdField]⟩

end Item

/-! ### Layouts are exact -/

/-- The properties of the table are those of the items.  A module sends an item, unless it is a page
that it does not have; what it sends fits a frame, and makes any other module hold the same item and
leaves all others of that module as they are.  And whatever a module takes as an item is what it sends
then, but for bits without a meaning. -/
theorem layouts_exact (p : Item) (m m' : Module) (data : List UInt8) :
  table.definitions = Item.all.map Item.definition ∧
  (∀ e, p.definition.serialize m = .error e ↔
    e = .handler ∧ p = .firmwarePage ∧ m.firmwarePage = none) ∧
  (∀ sent, p.definition.serialize m = .ok sent → sent.length ≤ valueMax ∧
    p.definition.deserialize sent m' = (.ok (), p.copy m m')) ∧
  (∀ m₁, p.definition.deserialize data m = (.ok (), m₁) →
    p.definition.serialize m₁ = .ok (p.normal data))
  := by
  obtain ⟨α, f, held⟩ := p.exists_heldIn
  refine ⟨rfl, fun e => ?_, fun sent serialized => ?_, fun m₁ taken => ?_⟩
  · rw [held.exact.serialize_error_iff held.get, held.missing]
  · rw [← held.copies]
    apply held.exact.deserialize_of_serialize held.get held.set serialized
  · apply held.exact.serialize_of_deserialize held.get held.set taken

/-- A description with reserved bits is taken and sent on without them. -/
theorem layouts_exact_reserved :
  ∃ m, SplitFlap.moduleInfo.deserialize [0xE3] {} = (.ok (), m) ∧
    SplitFlap.moduleInfo.serialize m = .ok [0x03]
  := by
  obtain ⟨-, -, -, taken⟩ := layouts_exact .moduleInfo {} {} [0xE3]
  exact ⟨_, rfl, taken _ rfl⟩

end SplitFlap

end DaisyChain
