import DaisyChain.Header.Fields

/-!
# Headers

An `ActionHeader` and a `SyncHeader` are what the bytes of a header say.  `pack` writes one
with valid parity, `unpack` reads one and refuses bytes of the other shape and bytes of odd
parity; `unpack_pack` says that what was written is read back, as far as it travels.
`Header` is either of them, as it stands at the start of a stream.
-/

namespace DaisyChain

namespace Header

/-- The number of bytes of an action header. -/
def actionLength : Nat := 3

/-- The number of bytes of a sync header. -/
def syncLength : Nat := 1

/-- The reasons for which bytes are no header. -/
inductive Error where
  /-- The parity is odd. -/
  | parity
  /-- The shape does not match the action. -/
  | unexpectedAction
  /-- There are too few bytes. -/
  | incomplete
  deriving DecidableEq, Repr

/-- The text of an error. -/
def Error.message : Error → String
  | .parity => "header parity invalid"
  | .unexpectedAction => "unexpected header action"
  | .incomplete => "header incomplete"

end Header

/-! ### Action headers -/

/-- A header that asks for a read, a write or a broadcast. -/
structure ActionHeader where
  action : Action
  flag : Bool
  property : PropertyId
  count : Nat
  deriving DecidableEq, Repr

namespace ActionHeader

/-- The header with the given fields, cut to what travels; a synchronisation has none. -/
def of? (action : Action) (flag : Bool) (property : PropertyId) (count : Nat) :
    Option ActionHeader :=
  if action = .sync then
    none
  else
    some ⟨action, flag, ⟨UInt8.ofNat property.wire⟩, count % countModulus⟩

/-- The bytes of a header, with even parity. -/
def pack (h : ActionHeader) : RawHeader :=
  ((((RawHeader.zero.setAction h.action).setFlag h.flag).setProperty h.property).setCount
    h.count).setParity true

/-- What the bytes of an action header say. -/
def unpack (raw : RawHeader) : Except Header.Error ActionHeader :=
  if raw.action = .sync then
    .error .unexpectedAction
  else if raw.evenParity = false then
    .error .parity
  else
    .ok ⟨raw.action, raw.flag, raw.property, raw.count⟩

/-- A header is read back with the fields that travel. -/
theorem unpack_pack {h : ActionHeader} (isAction : h.action ≠ .sync) :
  unpack h.pack =
    .ok ⟨h.action, h.flag, ⟨UInt8.ofNat h.property.wire⟩, h.count % countModulus⟩
  := by
  simp [unpack, pack, isAction]

end ActionHeader

/-! ### Sync headers -/

/-- A header that asks for an acknowledge or a commit. -/
structure SyncHeader where
  kind : SyncKind
  categories : Categories := Categories.empty
  deriving DecidableEq, Repr

namespace SyncHeader

/-- The byte of a header. -/
def pack (h : SyncHeader) : UInt8 :=
  (((RawHeader.zero.setAction .sync).setSyncKind h.kind).addCategories h.categories).byte0

/-- What the byte of a sync header says. -/
def unpack (b : UInt8) : Except Header.Error SyncHeader :=
  let raw : RawHeader := ⟨b, 0, 0⟩
  if raw.action = .sync then
    .ok ⟨raw.syncKind, raw.categories⟩
  else
    .error .unexpectedAction

/-- A header is read back. -/
theorem unpack_pack (h : SyncHeader) :
  unpack h.pack = .ok h
  := by
  have alone (raw : RawHeader) : unpack raw.byte0 =
      if raw.action = .sync then .ok ⟨raw.syncKind, raw.categories⟩
      else .error .unexpectedAction := rfl
  have zero : RawHeader.zero.categories = Categories.empty := rfl
  simp [pack, alone, zero]

end SyncHeader

/-! ### Headers of either shape -/

/-- A header of either shape. -/
inductive Header where
  | action (header : ActionHeader)
  | sync (header : SyncHeader)
  deriving DecidableEq, Repr

namespace Header

/-- The number of bytes of a header that opens with the given byte. -/
def wireLength (first : UInt8) : Nat :=
  if Action.ofByte first = .sync then syncLength else actionLength

/-- The header at the start of the given bytes. -/
def decode : List UInt8 → Except Error Header
  | [] => .error .incomplete
  | b0 :: rest =>
    if Action.ofByte b0 = .sync then
      (SyncHeader.unpack b0).map .sync
    else
      match rest with
      | b1 :: b2 :: _ => (ActionHeader.unpack ⟨b0, b1, b2⟩).map .action
      | _ => .error .incomplete

/-- The bytes of a header. -/
def bytes : Header → List UInt8
  | .action h => h.pack.toList
  | .sync h => [h.pack]

/-- The bytes of a header, for a buffer of the given room. -/
def encode (room : Nat) (h : Header) : Except Error (List UInt8) :=
  if room < h.bytes.length then .error .incomplete else .ok h.bytes

end Header

end DaisyChain
