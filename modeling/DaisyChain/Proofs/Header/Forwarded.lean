import DaisyChain.Header
import DaisyChain.Node.Forwarding

/-!
# Headers on their way

The fields of a header determine its bytes (`RawHeader.eq_of_fields`), so what a node makes of
a header is known from the fields: an accepted header leaves the node with the same action
and property, with the count one step on, and with the flag set if it is a read and the node
has a fault to report (`forward_pack`).  An acknowledge leaves with the categories of the node
added (`addCategories_pack`).
-/

namespace DaisyChain

/-! ### Fields and bytes -/

namespace RawHeader

/-- Changing the lowest bit changes whether a byte is even. -/
theorem lowest_flip (b : UInt8) :
  (b ^^^ 1).toNat % 2 ≠ b.toNat % 2
  := by
  revert b
  apply forall_byte
  decide +kernel

/-- Bytes that differ at most in the lowest bit are equal if they have equal parity. -/
theorem byte_eq_of_half {a b : UInt8} (half : a.toNat / 2 = b.toNat / 2)
    (parity : ones a % 2 = ones b % 2) :
  a = b
  := by
  by_cases low : a.toNat % 2 = b.toNat % 2
  · apply UInt8.toNat_inj.mp
    omega
  · have flipped : a = b ^^^ 1 := by
      apply UInt8.toNat_inj.mp
      have rest := half_flip b
      have lowest := lowest_flip b
      omega
    have odd := ones_flip b
    rw [← flipped] at odd
    omega

/-- Headers with the same fields and the same parity are equal. -/
theorem eq_of_fields {h h' : RawHeader} (action : h.action = h'.action)
    (flag : h.flag = h'.flag) (property : h.property = h'.property)
    (count : h.count = h'.count) (parity : h.evenParity = h'.evenParity) :
  h = h'
  := by
  obtain ⟨a, b, c⟩ := h
  obtain ⟨a', b', c'⟩ := h'
  have top : a.toNat / 64 = a'.toNat / 64 := by
    rw [← Action.toNat_ofByte, ← Action.toNat_ofByte]
    apply congrArg Action.toNat action
  have third : a.toNat / 32 % 2 = a'.toNat / 32 % 2 := by
    simp only [RawHeader.flag, Nat.testBit_eq_decide_div_mod_eq, decide_eq_decide] at flag
    omega
  obtain ⟨high, low⟩ : a.toNat % 32 = a'.toNat % 32 ∧ b.toNat / 64 = b'.toNat / 64 := by
    have same := congrArg (fun id => id.number.toNat) property
    have small := b.toNat_lt
    have small' := b'.toNat_lt
    simp only [RawHeader.property, UInt8.toNat_ofNat'] at same
    omega
  obtain ⟨few, many⟩ : b.toNat % 64 = b'.toNat % 64 ∧ c.toNat / 2 = c'.toNat / 2 := by
    simp only [RawHeader.count, countHigh, countLow] at count
    omega
  have first : a = a' := by
    clear few many low
    apply UInt8.toNat_inj.mp
    omega
  have second : b = b' := by
    clear top third high many
    apply UInt8.toNat_inj.mp
    omega
  subst first
  subst second
  have last : c = c' := by
    apply byte_eq_of_half many
    simp only [evenParity, Bool.beq_eq_decide_eq, decide_eq_decide] at parity
    omega
  rw [last]

/-- The property of a header stays the same when it travels once more. -/
theorem property_wire (h : RawHeader) :
  (⟨UInt8.ofNat h.property.wire⟩ : PropertyId) = h.property
  := by
  have small := h.byte1.toNat_lt
  have fits : h.property.number.toNat < 128 := by
    rw [property, UInt8.toNat_ofNat']
    omega
  rw [PropertyId.wire, Nat.mod_eq_of_lt fits, UInt8.ofNat_toNat]

end RawHeader

namespace ActionHeader

/-! ### The fields of a written header -/

@[simp]
theorem action_pack (h : ActionHeader) :
  h.pack.action = h.action
  := by
  simp [pack]

@[simp]
theorem flag_pack (h : ActionHeader) :
  h.pack.flag = h.flag
  := by
  simp [pack]

@[simp]
theorem property_pack (h : ActionHeader) :
  h.pack.property = ⟨UInt8.ofNat h.property.wire⟩
  := by
  simp [pack]

@[simp]
theorem count_pack (h : ActionHeader) :
  h.pack.count = h.count % countModulus
  := by
  simp [pack]

@[simp]
theorem evenParity_pack (h : ActionHeader) :
  h.pack.evenParity = true
  := by
  simp [pack]

end ActionHeader

namespace Node

/-! ### The fields of a forwarded header -/

/-- The first byte leaves a node with the same action and the same part of the property. -/
theorem forwardFirst_same (record : Option Record) (byte0 : UInt8) :
  (forwardFirst record byte0).toNat / 64 = byte0.toNat / 64 ∧
    (forwardFirst record byte0).toNat % 32 = byte0.toNat % 32
  := by
  have small := byte0.toNat_lt
  rw [forwardFirst]
  split
  · simp only [RawHeader.setFlag, RawHeader.setLow, UInt8.toNat_ofNat', Bool.toNat_true]
    omega
  · exact ⟨rfl, rfl⟩

/-- The second byte leaves a node with the same part of the property. -/
theorem forwardSecond_same (byte0 byte1 : UInt8) :
  (forwardSecond byte0 byte1).toNat / 64 = byte1.toNat / 64
  := by
  have small := byte1.toNat_lt
  simp only [forwardSecond, RawHeader.setLow, UInt8.toNat_ofNat']
  omega

/-- The low part of the count that leaves a node depends on the low part that it got. -/
theorem countAfter_mod (action : Action) (count : Nat) :
  countAfter action count % 64 = countAfter action (count % 64) % 64
  := by
  cases action <;> simp only [countAfter, countModulus, countMax] <;> omega

/-- The first byte of a forwarded header is the one that the node sends first. -/
theorem byte0_forward (record : Option Record) (h : RawHeader) :
  (forward record h).byte0 = forwardFirst record h.byte0
  := by
  rw [forward, RawHeader.byte0_setParity]
  rfl

@[simp]
theorem action_forward (record : Option Record) (h : RawHeader) :
  (forward record h).action = h.action
  := by
  apply Action.toNat_injective
  rw [RawHeader.action, RawHeader.action, Action.toNat_ofByte, Action.toNat_ofByte,
    byte0_forward]
  apply (forwardFirst_same record h.byte0).1

@[simp]
theorem property_forward (record : Option Record) (h : RawHeader) :
  (forward record h).property = h.property
  := by
  rw [forward, RawHeader.property_setParity, RawHeader.property_setCount]
  simp only [RawHeader.property, (forwardFirst_same record h.byte0).2, forwardSecond_same]

/-- A count that leaves a node fits a header. -/
theorem countAfter_lt (action : Action) (count : Nat) :
  countAfter action count < countModulus
  := by
  cases action <;> simp only [countAfter, countModulus] <;> omega

@[simp]
theorem count_forward (record : Option Record) (h : RawHeader) :
  (forward record h).count = countAfter h.action h.count
  := by
  have small := countAfter_lt h.action h.count
  rw [forward, RawHeader.count_setParity, RawHeader.count_setCount, Nat.mod_eq_of_lt small]

@[simp]
theorem evenParity_forward (record : Option Record) (h : RawHeader) :
  (forward record h).evenParity = accepts h
  := by
  simp only [forward, RawHeader.evenParity_setParity]

/-- A node with a fault to report sets the flag of a read. -/
@[simp]
theorem flag_forward (record : Option Record) (h : RawHeader) :
  (forward record h).flag = (h.flag || (decide (h.action = .read) && record.isSome))
  := by
  rw [RawHeader.flag, byte0_forward]
  by_cases told : h.action = .read ∧ record.isSome
  · have first : forwardFirst record h.byte0 = (h.setFlag true).byte0 := if_pos told
    have set := h.flag_setFlag true
    rw [RawHeader.flag] at set
    rw [first, set]
    simp [told.1, told.2]
  · have first : forwardFirst record h.byte0 = h.byte0 := if_neg told
    have untold : (decide (h.action = .read) && record.isSome) = false := by
      simpa using told
    rw [first, untold, Bool.or_false, RawHeader.flag]

/-- The bytes of a forwarded header are those that the node sends one by one. -/
theorem bytes_forward (record : Option Record) (h : RawHeader) :
  (forward record h).toList =
    [forwardFirst record h.byte0, forwardSecond h.byte0 h.byte1, (forward record h).byte2]
  := by
  have same : (forward record h).byte1 = forwardSecond h.byte0 h.byte1 := by
    apply UInt8.toNat_inj.mp
    have small := h.byte1.toNat_lt
    have low := countAfter_mod h.action h.count
    have part : h.count % 64 = h.byte1.toNat % 64 := by
      simp only [RawHeader.count, RawHeader.countHigh, RawHeader.countLow]
      omega
    rw [part] at low
    simp only [forward, RawHeader.byte1_setParity, RawHeader.setCount, forwardSecond,
      RawHeader.setLow, UInt8.toNat_ofNat', RawHeader.action] at low ⊢
    omega
  rw [RawHeader.toList, byte0_forward, same]

/-- A header that a node accepts has even parity. -/
theorem evenParity_of_accepts {h : RawHeader} (accepted : accepts h = true) :
  h.evenParity = true
  := by
  rw [accepts] at accepted
  apply (Bool.and_eq_true_iff.mp accepted).1

/-- A header that a node accepts leaves it with the count one step on, and with the flag set
if it is a read and the node has a fault to report. -/
theorem forward_pack {record : Option Record} {h : ActionHeader} (accepted : accepts h.pack) :
  forward record h.pack =
    ActionHeader.pack { h with
      flag := h.flag || (decide (h.action = .read) && record.isSome)
      count := countAfter h.action (h.count % countModulus) }
  := by
  have small := countAfter_lt h.action (h.count % countModulus)
  apply RawHeader.eq_of_fields <;> simp [accepted, Nat.mod_eq_of_lt small]

end Node

/-! ### Acknowledges on their way -/

namespace SyncHeader

/-- Headers of one byte with the same fields are equal. -/
theorem byte0_eq_of_fields {h h' : RawHeader} (action : h.action = h'.action)
    (kind : h.syncKind = h'.syncKind) (categories : h.categories = h'.categories) :
  h.byte0 = h'.byte0
  := by
  have top : h.byte0.toNat / 64 = h'.byte0.toNat / 64 := by
    rw [← Action.toNat_ofByte, ← Action.toNat_ofByte]
    apply congrArg Action.toNat action
  have middle : h.byte0.toNat / 16 % 4 = h'.byte0.toNat / 16 % 4 := by
    rw [← SyncKind.toNat_ofByte, ← SyncKind.toNat_ofByte]
    apply congrArg SyncKind.toNat kind
  have bit {i : Nat} (same : h.byte0.toNat.testBit i = h'.byte0.toNat.testBit i) :
      h.byte0.toNat / 2 ^ i % 2 = h'.byte0.toNat / 2 ^ i % 2 := by
    simp only [Nat.testBit_eq_decide_div_mod_eq, decide_eq_decide] at same
    omega
  have low : h.byte0.toNat % 16 = h'.byte0.toNat % 16 := by
    simp only [RawHeader.categories, Categories.ofByte, Categories.mk.injEq] at categories
    obtain ⟨b0, b1, b2, b3⟩ := categories
    replace b0 := bit b0
    replace b1 := bit b1
    replace b2 := bit b2
    replace b3 := bit b3
    omega
  apply UInt8.toNat_inj.mp
  omega

/-- The header of a single byte has the fields that were written. -/
theorem fields_pack (h : SyncHeader) :
  (⟨h.pack, 0, 0⟩ : RawHeader).action = .sync ∧ (⟨h.pack, 0, 0⟩ : RawHeader).syncKind = h.kind ∧
    (⟨h.pack, 0, 0⟩ : RawHeader).categories = h.categories
  := by
  have read := unpack_pack h
  simp only [unpack] at read
  split at read
  · next isSync =>
    simp only [Except.ok.injEq] at read
    exact ⟨isSync, congrArg SyncHeader.kind read, congrArg SyncHeader.categories read⟩
  · contradiction

/-- Categories are added to a written header as to what was written. -/
theorem addCategories_pack (h : SyncHeader) (categories : Categories) :
  ((⟨h.pack, 0, 0⟩ : RawHeader).addCategories categories).byte0 =
    pack { h with categories := h.categories ∪ categories }
  := by
  obtain ⟨action, kind, old⟩ := fields_pack h
  obtain ⟨action', kind', new⟩ := fields_pack { h with categories := h.categories ∪ categories }
  let added : RawHeader := ⟨pack { h with categories := h.categories ∪ categories }, 0, 0⟩
  suffices same : ((⟨h.pack, 0, 0⟩ : RawHeader).addCategories categories).byte0 = added.byte0 from
    same
  apply byte0_eq_of_fields
  · rw [RawHeader.action_addCategories, action, action']
  · rw [RawHeader.syncKind_addCategories, kind, kind']
  · rw [RawHeader.categories_addCategories, old, new]

end SyncHeader

end DaisyChain
