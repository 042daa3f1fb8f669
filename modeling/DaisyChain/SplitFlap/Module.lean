import DaisyChain.SplitFlap.CharacterSet

/-!
# The split-flap module

`Module` holds the values of all properties of one split-flap module: its firmware, its
character set and the character shown, its colours, and the settings of motor and sensor.
-/

namespace DaisyChain.SplitFlap

/-! ### Firmware -/

/-- The longest text of a firmware version, in bytes. -/
def versionMax : Nat := 32

/-- A text that is short enough to name a firmware version. -/
structure VersionText where
  text : String
  length_text : (utf8 text).length ≤ versionMax
  deriving DecidableEq

namespace VersionText

/-- The empty text. -/
def empty : VersionText :=
  ⟨"", Nat.zero_le _⟩

/-- The given text, unless it is too long. -/
def of? (text : String) : Option VersionText :=
  if h : (utf8 text).length ≤ versionMax then some ⟨text, h⟩ else none

end VersionText

/-- The version of a firmware image and its check sum. -/
structure FirmwareVersion where
  version : VersionText := .empty
  crc : UInt32 := 0
  deriving DecidableEq

/-- The number of bytes of a firmware page. -/
def pageLength : Nat := 128

/-- One page of a firmware image. -/
structure FirmwarePage where
  index : UInt16
  bytes : List UInt8
  length_bytes : bytes.length = pageLength
  deriving DecidableEq

/-! ### Commands and description -/

/-- A command that a module executes once. -/
inductive Command where
  | none
  | reboot
  deriving DecidableEq, Repr

namespace Command

/-- The byte of a command. -/
def toByte : Command → UInt8
  | .none => 0
  | .reboot => 1

/-- The command of a byte, if it has a meaning. -/
def ofByte? (b : UInt8) : Option Command :=
  if b = 0 then some .none else if b = 1 then some .reboot else Option.none

end Command

/-- The kinds of module. -/
inductive ModuleType where
  | undefined
  | splitFlap
  deriving DecidableEq, Repr

/-- The number of a kind. -/
def ModuleType.code : ModuleType → Nat
  | .undefined => 0
  | .splitFlap => 1

/-- The kind of a number; a number without a meaning is undefined. -/
def ModuleType.ofCode (n : Nat) : ModuleType :=
  if n = 1 then .splitFlap else .undefined

/-- What a module is. -/
structure ModuleInfo where
  /-- The module is the last one of its column. -/
  columnEnd : Bool := false
  moduleType : ModuleType := .undefined
  deriving DecidableEq, Repr

namespace ModuleInfo

/-- The description as a byte: bit 0 marks the end of a column, bits 1 to 4 hold the kind. -/
def toByte (i : ModuleInfo) : UInt8 :=
  UInt8.ofNat (i.columnEnd.toNat + 2 * i.moduleType.code)

/-- The description that a byte holds. -/
def ofByte (b : UInt8) : ModuleInfo where
  columnEnd := b.toNat.testBit 0
  moduleType := ModuleType.ofCode (b.toNat / 2 % 16)

end ModuleInfo

/-! ### Appearance and movement -/

/-- A colour in its three parts. -/
structure Rgb where
  red : UInt8 := 0
  green : UInt8 := 0
  blue : UInt8 := 0
  deriving DecidableEq, Repr

/-- The colours of the flaps. -/
structure Color where
  foreground : Rgb := {}
  background : Rgb := {}
  deriving DecidableEq, Repr

/-- How the motor speeds up and slows down. -/
structure Motion where
  speedMin : UInt8 := 0
  speedMax : UInt8 := 0
  rampStart : UInt8 := 0
  rampStop : UInt8 := 0
  deriving DecidableEq, Repr

/-- The thresholds between which the sensor of the encoder keeps its answer. -/
structure IrThreshold where
  lower : Int16 := 0
  upper : Int16 := 0
  deriving DecidableEq, Repr

/-- The values of all properties of a module. -/
structure Module where
  firmwareVersion : FirmwareVersion := {}
  /-- The page received last, if any. -/
  firmwarePage : Option FirmwarePage := none
  command : Command := .none
  moduleInfo : ModuleInfo := {}
  characterSet : CharacterSet := .empty
  /-- The index of the character shown. -/
  character : UInt8 := 0
  offset : UInt8 := 0
  color : Color := {}
  motion : Motion := {}
  minimumRotation : UInt8 := 0
  irThreshold : IrThreshold := {}
  deriving DecidableEq

instance : Inhabited Module :=
  ⟨{}⟩

/-- Take the command that waits to be executed. -/
def Module.takeCommand (m : Module) : Command × Module :=
  (m.command, { m with command := .none })

end DaisyChain.SplitFlap
