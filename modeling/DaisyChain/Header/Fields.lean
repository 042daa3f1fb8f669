import DaisyChain.Header.Raw

/-!
# The fields of a header

A field of a header reads as it was set last, and setting one leaves the others as they were.
`evenParity_setParity` says the same of the parity of all three bytes, whatever the fields
hold.
-/

namespace DaisyChain

/-! ### Actions and kinds as numbers -/

/-- The two leading bits of a byte are the number of its action. -/
theorem Action.toNat_ofByte (b : UInt8) :
  (ofByte b).toNat = b.toNat / 64
  := by
  have small := b.toNat_lt
  obtain h | h | h | h : b.toNat / 64 = 0 ∨ b.toNat / 64 = 1 ∨ b.toNat / 64 = 2 ∨
    b.toNat / 64 = 3 := by omega
  all_goals simp [ofByte, h, toNat]

/-- Two bits hold the number of an action. -/
theorem Action.toNat_lt (action : Action) :
  action.toNat < 4
  := by
  cases action <;> decide

/-- Actions of the same number are equal. -/
theorem Action.toNat_injective {a b : Action} (h : a.toNat = b.toNat) :
  a = b
  := by
  cases a <;> cases b <;> first | rfl | contradiction

/-- The third and fourth bits of a byte are the number of its kind. -/
theorem SyncKind.toNat_ofByte (b : UInt8) :
  (ofByte b).toNat = b.toNat / 16 % 4
  := by
  obtain h | h | h | h : b.toNat / 16 % 4 = 0 ∨ b.toNat / 16 % 4 = 1 ∨
    b.toNat / 16 % 4 = 2 ∨ b.toNat / 16 % 4 = 3 := by omega
  all_goals simp [ofByte, h, toNat]

/-- Two bits hold the number of a kind. -/
theorem SyncKind.toNat_lt (kind : SyncKind) :
  kind.toNat < 4
  := by
  cases kind <;> decide

/-- Kinds of the same number are equal. -/
theorem SyncKind.toNat_injective {a b : SyncKind} (h : a.toNat = b.toNat) :
  a = b
  := by
  cases a <;> cases b <;> first | rfl | contradiction

/-! ### The lowest bit of a byte -/

/-- What holds of all numbers of a byte holds of every byte. -/
theorem forall_byte {P : UInt8 → Prop} (each : ∀ n < 256, P (UInt8.ofNat n)) (b : UInt8) :
  P b
  := by
  have own := each b.toNat b.toNat_lt
  rwa [UInt8.ofNat_toNat] at own

/-- Changing the lowest bit changes the parity of a byte. -/
theorem ones_flip (b : UInt8) :
  (ones (b ^^^ 1) + ones b) % 2 = 1
  := by
  revert b
  apply forall_byte
  decide +kernel

/-- Changing the lowest bit leaves the bits above it as they were. -/
theorem half_flip (b : UInt8) :
  (b ^^^ 1).toNat / 2 = b.toNat / 2
  := by
  revert b
  apply forall_byte
  decide +kernel

namespace RawHeader

/-! ### The action -/

@[simp]
theorem action_setAction (h : RawHeader) (action : Action) :
  (h.setAction action).action = action
  := by
  apply Action.toNat_injective
  have small := action.toNat_lt
  simp only [RawHeader.action, setAction, Action.toNat_ofByte, UInt8.toNat_ofNat']
  omega

@[simp]
theorem action_setFlag (h : RawHeader) (flag : Bool) :
  (h.setFlag flag).action = h.action
  := by
  apply Action.toNat_injective
  have small := h.byte0.toNat_lt
  have bit := flag.toNat_lt
  simp only [action, setFlag, setLow, Action.toNat_ofByte, UInt8.toNat_ofNat']
  omega

@[simp]
theorem action_setProperty (h : RawHeader) (id : PropertyId) :
  (h.setProperty id).action = h.action
  := by
  apply Action.toNat_injective
  have small := h.byte0.toNat_lt
  have wire := id.wire_lt
  simp only [action, setProperty, setLow, Action.toNat_ofByte, UInt8.toNat_ofNat']
  omega

@[simp]
theorem action_setCount (h : RawHeader) (count : Nat) :
  (h.setCount count).action = h.action
  := rfl

/-! ### The flag -/

@[simp]
theorem flag_setFlag (h : RawHeader) (flag : Bool) :
  (h.setFlag flag).flag = flag
  := by
  cases flag <;>
    simp only [setFlag, RawHeader.flag, setLow, UInt8.toNat_ofNat',
      Nat.testBit_eq_decide_div_mod_eq, Bool.toNat_true, Bool.toNat_false,
      decide_eq_false_iff_not, decide_eq_true_eq] <;>
    omega

@[simp]
theorem flag_setProperty (h : RawHeader) (id : PropertyId) :
  (h.setProperty id).flag = h.flag
  := by
  have small := h.byte0.toNat_lt
  have wire := id.wire_lt
  simp only [flag, setProperty, setLow, UInt8.toNat_ofNat', Nat.testBit_eq_decide_div_mod_eq,
    decide_eq_decide]
  omega

@[simp]
theorem flag_setCount (h : RawHeader) (count : Nat) :
  (h.setCount count).flag = h.flag
  := rfl

/-! ### The property -/

/-- Of a property, the seven bits that travel are read back. -/
@[simp]
theorem property_setProperty (h : RawHeader) (id : PropertyId) :
  (h.setProperty id).property = ⟨UInt8.ofNat id.wire⟩
  := by
  have small := id.wire_lt
  have same : (h.setProperty id).byte0.toNat % 32 * 4 + (h.setProperty id).byte1.toNat / 64 =
      id.wire := by
    simp only [setProperty, setLow, UInt8.toNat_ofNat']
    omega
  rw [property, same]

@[simp]
theorem property_setCount (h : RawHeader) (count : Nat) :
  (h.setCount count).property = h.property
  := by
  have small := h.byte1.toNat_lt
  have same : (setLow h.byte1 64 (count % 64)).toNat / 64 = h.byte1.toNat / 64 := by
    simp only [setLow, UInt8.toNat_ofNat']
    omega
  simp only [property, setCount, same]

/-! ### The node count -/

/-- Of a count, the thirteen bits that travel are read back. -/
@[simp]
theorem count_setCount (h : RawHeader) (count : Nat) :
  (h.setCount count).count = count % countModulus
  := by
  have small := h.byte1.toNat_lt
  have small' := h.byte2.toNat_lt
  simp only [setCount, RawHeader.count, countLow, countHigh, setLow, UInt8.toNat_ofNat',
    countModulus]
  omega

theorem count_lt (h : RawHeader) :
  h.count < countModulus
  := by
  have small := h.byte2.toNat_lt
  simp only [count, countHigh, countLow, countModulus]
  omega

/-! ### The parity -/

/-- The parity is the one chosen. -/
@[simp]
theorem evenParity_setParity (h : RawHeader) (even : Bool) :
  (h.setParity even).evenParity = even
  := by
  unfold setParity
  split
  · next same => exact same
  · next other =>
    have flip := ones_flip h.byte2
    have opposite : ({ h with byte2 := h.byte2 ^^^ 1 } : RawHeader).evenParity ≠
        h.evenParity := by
      simp only [evenParity, ne_eq, Bool.beq_eq_decide_eq, decide_eq_decide]
      omega
    revert other opposite
    cases even <;> cases h.evenParity <;> simp

@[simp]
theorem byte0_setParity (h : RawHeader) (even : Bool) :
  (h.setParity even).byte0 = h.byte0
  := by
  unfold setParity
  split <;> rfl

@[simp]
theorem byte1_setParity (h : RawHeader) (even : Bool) :
  (h.setParity even).byte1 = h.byte1
  := by
  unfold setParity
  split <;> rfl

@[simp]
theorem action_setParity (h : RawHeader) (even : Bool) :
  (h.setParity even).action = h.action
  := by
  rw [action, byte0_setParity, action]

@[simp]
theorem flag_setParity (h : RawHeader) (even : Bool) :
  (h.setParity even).flag = h.flag
  := by
  rw [flag, byte0_setParity, flag]

@[simp]
theorem property_setParity (h : RawHeader) (even : Bool) :
  (h.setParity even).property = h.property
  := by
  rw [property, byte0_setParity, byte1_setParity, property]

@[simp]
theorem count_setParity (h : RawHeader) (even : Bool) :
  (h.setParity even).count = h.count
  := by
  unfold setParity
  split
  · rfl
  · simp only [count, countHigh, countLow, half_flip]

/-! ### Sync headers -/

@[simp]
theorem action_setSyncKind (h : RawHeader) (kind : SyncKind) :
  (h.setSyncKind kind).action = h.action
  := by
  apply Action.toNat_injective
  have small := h.byte0.toNat_lt
  have bits := kind.toNat_lt
  simp only [action, setSyncKind, setLow, Action.toNat_ofByte, UInt8.toNat_ofNat']
  omega

@[simp]
theorem syncKind_setSyncKind (h : RawHeader) (kind : SyncKind) :
  (h.setSyncKind kind).syncKind = kind
  := by
  apply SyncKind.toNat_injective
  have bits := kind.toNat_lt
  simp only [syncKind, setSyncKind, setLow, SyncKind.toNat_ofByte, UInt8.toNat_ofNat']
  omega

@[simp]
theorem action_addCategories (h : RawHeader) (categories : Categories) :
  (h.addCategories categories).action = h.action
  := by
  apply Action.toNat_injective
  have small := h.byte0.toNat_lt
  have bits := (h.categories ∪ categories).toNat_lt
  simp only [action, addCategories, setLow, Action.toNat_ofByte, UInt8.toNat_ofNat']
  omega

@[simp]
theorem syncKind_addCategories (h : RawHeader) (categories : Categories) :
  (h.addCategories categories).syncKind = h.syncKind
  := by
  apply SyncKind.toNat_injective
  have small := h.byte0.toNat_lt
  have bits := (h.categories ∪ categories).toNat_lt
  simp only [syncKind, addCategories, setLow, SyncKind.toNat_ofByte, UInt8.toNat_ofNat']
  omega

@[simp]
theorem categories_setAction (h : RawHeader) (action : Action) :
  (h.setAction action).categories = h.categories
  := by
  apply Categories.ofByte_congr
  simp only [setAction, UInt8.toNat_ofNat']
  omega

@[simp]
theorem categories_setSyncKind (h : RawHeader) (kind : SyncKind) :
  (h.setSyncKind kind).categories = h.categories
  := by
  apply Categories.ofByte_congr
  have bits := kind.toNat_lt
  simp only [setSyncKind, setLow, UInt8.toNat_ofNat']
  omega

/-- Categories are added to those collected so far. -/
@[simp]
theorem categories_addCategories (h : RawHeader) (categories : Categories) :
  (h.addCategories categories).categories = h.categories ∪ categories
  := by
  have bits := (h.categories ∪ categories).toNat_lt
  rw [← Categories.ofByte_toByte (h.categories ∪ categories)]
  apply Categories.ofByte_congr
  simp only [addCategories, setLow, Categories.toByte, UInt8.toNat_ofNat']
  omega

end RawHeader

end DaisyChain
