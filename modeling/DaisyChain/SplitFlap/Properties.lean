import DaisyChain.LittleEndian
import DaisyChain.Property.Table
import DaisyChain.SplitFlap.Module

/-!
# The properties of a split-flap module

A `Field` is one value of a module together with the bytes in which it travels.  The table
lists the eleven properties:

    0   firmware_version    read          text of the version, then the check sum, low byte first
    1   firmware_update     write         index of the page, high byte first, then the page
    2   command             write         one byte
    3   module_info         read          one byte
    4   character_set       read, write   four bytes for each symbol
    5   character           read, write   one byte
    6   offset              read, write   one byte
    7   color               read, write   foreground and background: red, green, blue
    8   motion              read, write   slowest and fastest speed, start and stop of the ramp
    9   minimum_rotation    read, write   one byte
    10  ir_threshold        read, write   lower and upper threshold, low byte first
-/

namespace DaisyChain.SplitFlap

/-! ### Fields -/

/-- A value of a module and the bytes in which it travels. -/
structure Field (α : Type) where
  read : Module → α
  write : α → Module → Module
  /-- The bytes of a value, unless it has none to send. -/
  encode : α → Option (List UInt8)
  /-- The value of the given bytes, unless they are refused. -/
  decode : List UInt8 → Option α

namespace Field

variable {α : Type}

/-- The bytes of a module's value, if they fit a buffer of the given room. -/
def get (f : Field α) (m : Module) (room : Nat) : Option (List UInt8) :=
  (f.encode (f.read m)).filter fun bytes => bytes.length ≤ room

/-- Put the value of the given bytes into a module, unless they are refused. -/
def set (f : Field α) (bytes : List UInt8) (m : Module) : Bool × Module :=
  match f.decode bytes with
  | some value => (true, f.write value m)
  | none => (false, m)

/-- Two modules hold the same value. -/
def same [DecidableEq α] (f : Field α) (a b : Module) : Bool :=
  decide (f.read a = f.read b)

end Field

/-- The value of a single byte. -/
def single : List UInt8 → Option UInt8
  | [b] => some b
  | _ => none

/-! ### The fields of a module -/

/-- The text of the version, then the check sum of the image. -/
def firmwareVersionField : Field FirmwareVersion where
  read := Module.firmwareVersion
  write value m := { m with firmwareVersion := value }
  encode value := some (utf8 value.version.text ++ LittleEndian.bytes 4 value.crc.toNat)
  decode bytes :=
    if bytes.length < 4 then
      none
    else do
      let text ← ofUtf8? (bytes.take (bytes.length - 4))
      let version ← VersionText.of? text
      some ⟨version, UInt32.ofNat (LittleEndian.value (bytes.drop (bytes.length - 4)))⟩

/-- The bytes of a page: its index, high byte first, and its content. -/
def encodePage (page : FirmwarePage) : List UInt8 :=
  (LittleEndian.bytes 2 page.index.toNat).reverse ++ page.bytes

/-- The page of the given bytes, unless they are too many or too few. -/
def decodePage (bytes : List UInt8) : Option FirmwarePage :=
  if h : (bytes.drop 2).length = pageLength then
    some ⟨UInt16.ofNat (LittleEndian.value (bytes.take 2).reverse), bytes.drop 2, h⟩
  else
    none

/-- The page received last; without one there is nothing to send. -/
def firmwarePageField : Field (Option FirmwarePage) where
  read := Module.firmwarePage
  write value m := { m with firmwarePage := value }
  encode value := value.map encodePage
  decode bytes := (decodePage bytes).map some

/-- The byte of a command; a byte without a meaning is refused. -/
def commandField : Field Command where
  read := Module.command
  write value m := { m with command := value }
  encode value := some [value.toByte]
  decode bytes := (single bytes).bind Command.ofByte?

/-- The byte that describes the module. -/
def moduleInfoField : Field ModuleInfo where
  read := Module.moduleInfo
  write value m := { m with moduleInfo := value }
  encode value := some [value.toByte]
  decode bytes := (single bytes).map ModuleInfo.ofByte

/-- The bytes of all symbols. -/
def characterSetField : Field CharacterSet where
  read := Module.characterSet
  write value m := { m with characterSet := value }
  encode value := some value.toBytes
  decode := CharacterSet.ofBytes?

/-- The byte of the character shown. -/
def characterField : Field UInt8 where
  read := Module.character
  write value m := { m with character := value }
  encode value := some [value]
  decode := single

/-- The byte of the offset. -/
def offsetField : Field UInt8 where
  read := Module.offset
  write value m := { m with offset := value }
  encode value := some [value]
  decode := single

/-- The parts of the foreground, then those of the background. -/
def colorField : Field Color where
  read := Module.color
  write value m := { m with color := value }
  encode value :=
    let { foreground := f, background := b } := value
    some [f.red, f.green, f.blue, b.red, b.green, b.blue]
  decode
    | [fr, fg, fb, br, bg, bb] => some ⟨⟨fr, fg, fb⟩, ⟨br, bg, bb⟩⟩
    | _ => none

/-- The speeds of the motor, then the ends of its ramp. -/
def motionField : Field Motion where
  read := Module.motion
  write value m := { m with motion := value }
  encode value := some [value.speedMin, value.speedMax, value.rampStart, value.rampStop]
  decode
    | [slow, fast, start, stop] => some ⟨slow, fast, start, stop⟩
    | _ => none

/-- The byte of the minimum rotation. -/
def minimumRotationField : Field UInt8 where
  read := Module.minimumRotation
  write value m := { m with minimumRotation := value }
  encode value := some [value]
  decode := single

/-- The bytes of a threshold, the low one first. -/
def encodeThreshold (value : Int16) : List UInt8 :=
  LittleEndian.bytes 2 value.toUInt16.toNat

/-- The threshold of the given bytes. -/
def decodeThreshold (bytes : List UInt8) : Int16 :=
  (UInt16.ofNat (LittleEndian.value bytes)).toInt16

/-- The lower threshold, then the upper one. -/
def irThresholdField : Field IrThreshold where
  read := Module.irThreshold
  write value m := { m with irThreshold := value }
  encode value := some (encodeThreshold value.lower ++ encodeThreshold value.upper)
  decode
    | [l0, l1, u0, u1] => some ⟨decodeThreshold [l0, l1], decodeThreshold [u0, u1]⟩
    | _ => none

/-! ### The table -/

/-- A property that travels in the bytes of a field. -/
def Field.definition {α : Type} (f : Field α) (number : UInt8) (name : String)
    (access : Access) (size : PropertySize) : Definition Module where
  id := ⟨number⟩
  name := name
  access := access
  size := size
  get := some f.get
  set := some f.set

/-- A property whose values are also compared. -/
def Field.comparable {α : Type} [DecidableEq α] (f : Field α) (number : UInt8) (name : String)
    (access : Access) (size : PropertySize) : Definition Module :=
  { f.definition number name access size with compare := some f.same }

/-- The version of the firmware that runs on the module. -/
def firmwareVersion : Definition Module :=
  firmwareVersionField.definition 0 "firmware_version" .readOnly .dynamic

/-- The pages of a new firmware, one in each frame. -/
def firmwareUpdate : Definition Module :=
  { firmwarePageField.comparable 1 "firmware_update" .writeOnly (.static 130) with
    multipart := true }

/-- A command to the module. -/
def command : Definition Module :=
  commandField.comparable 2 "command" .writeOnly (.static 1)

/-- What the module is. -/
def moduleInfo : Definition Module :=
  moduleInfoField.definition 3 "module_info" .readOnly (.static 1)

/-- The characters on the flaps. -/
def characterSet : Definition Module :=
  characterSetField.comparable 4 "character_set" .readWrite .dynamic

/-- The index of the character shown. -/
def character : Definition Module :=
  characterField.comparable 5 "character" .readWrite (.static 1)

/-- Where the flaps stand when the sensor answers. -/
def offset : Definition Module :=
  offsetField.comparable 6 "offset" .readWrite (.static 1)

/-- The colours of the flaps. -/
def color : Definition Module :=
  colorField.comparable 7 "color" .readWrite (.static 6)

/-- How the motor speeds up and slows down. -/
def motion : Definition Module :=
  motionField.comparable 8 "motion" .readWrite (.static 4)

/-- How far the flaps turn at least. -/
def minimumRotation : Definition Module :=
  minimumRotationField.comparable 9 "minimum_rotation" .readWrite (.static 1)

/-- The thresholds of the sensor. -/
def irThreshold : Definition Module :=
  irThresholdField.comparable 10 "ir_threshold" .readWrite (.static 4)

/-- The properties of a split-flap module in ascending order. -/
def table : Table Module where
  definitions := [firmwareVersion, firmwareUpdate, command, moduleInfo, characterSet,
    character, offset, color, motion, minimumRotation, irThreshold]

end DaisyChain.SplitFlap
