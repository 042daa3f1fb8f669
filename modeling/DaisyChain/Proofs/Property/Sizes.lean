import DaisyChain.Proofs.Property.Faithful

/-!
# Sizes and layouts

How a size lays a value out can be said without computing it (`Lays`): a value of static size is its own
layout, and one of dynamic size stands behind two bytes that tell its length.  Recovering a value finds
what the data lay out (`unwrap_eq_ok_iff`), and laying a value out produces these data as far as they
fit a frame (`wrap_eq_ok_iff`).  So each of the two undoes the other (`wrap_inverse`).

The buffer that a handler is given leaves room for the layout of whatever it holds: a value is too large
only if the handler says that it has put more into the buffer than there is room for
(`Definition.serialize_eq_tooLarge_iff`).
-/

namespace DaisyChain

namespace PropertySize

/-! ### Layouts -/

/-- The given data are the layout of a value. -/
inductive Lays : PropertySize → List UInt8 → List UInt8 → Prop where
  /-- A value of the length declared is laid out as it is. -/
  | static {length : UInt16} {value : List UInt8} (same : value.length = length.toNat) :
    Lays (.static length) value value
  /-- A value of any other size travels behind its length, the low byte first. -/
  | dynamic {low high : UInt8} {value : List UInt8}
    (number : value.length = low.toNat + 256 * high.toNat) :
    Lays .dynamic value (low :: high :: value)

/-- A value of static size has the length declared, which is 254 at most; one of dynamic size is 252 bytes
long at most. -/
def Fits (value : List UInt8) : PropertySize → Prop
  | .static length => value.length = length.toNat ∧ length.toNat ≤ 254
  | .dynamic => value.length ≤ 252

variable {size : PropertySize} {value data : List UInt8}

/-- What is recovered from some data is what they lay out. -/
theorem unwrap_eq_ok_iff :
  size.unwrap data = .ok value ↔ size.Lays value data
  := by
  cases size with
  | static length =>
    rw [unwrap]
    constructor
    · intro found
      split at found
      · next same =>
        cases found
        exact .static same
      · contradiction
    · rintro ⟨same⟩
      rw [if_pos same]
  | dynamic =>
    constructor
    · intro found
      simp only [unwrap] at found
      rcases data with _ | ⟨low, _ | ⟨high, rest⟩⟩
      · simp [prefixLength] at found
      · simp [prefixLength] at found
      · rw [if_neg (by simp [prefixLength])] at found
        split at found
        · next number =>
          cases found
          apply Lays.dynamic
          simpa [prefixLength, LittleEndian.value] using number.symm
        · contradiction
    · rintro (_ | number)
      simp [unwrap, prefixLength, LittleEndian.value, number]

/-- A value is laid out as the data that are its layout, if these fit a frame. -/
theorem wrap_eq_ok_iff :
  size.wrap value = .ok data ↔ size.Lays value data ∧ data.length ≤ valueMax
  := by
  constructor
  · intro wrapped
    exact ⟨unwrap_eq_ok_iff.mp (unwrap_of_wrap wrapped), length_wrap wrapped⟩
  · rintro ⟨lays, short⟩
    cases lays with
    | static same => rw [wrap, if_neg (not_not_intro same), if_neg (Nat.not_lt.mpr short)]
    | @dynamic low high _ number =>
      have same : LittleEndian.value [low, high] = value.length := by
        simp [LittleEndian.value, number]
      have front := LittleEndian.bytes_value [low, high]
      rw [same] at front
      simp only [List.length_cons] at short
      rw [wrap, if_neg (by simp only [prefixLength]; omega)]
      exact congrArg (fun bytes => Except.ok (bytes ++ value)) front

/-- A value that a handler can have put into its buffer is laid out as the data that it has been recovered
from. -/
theorem wrap_of_unwrap (unwrapped : size.unwrap data = .ok value)
    (room : value.length ≤ min size.maxLength valueMax) :
  size.wrap value = .ok data
  := by
  have lays := unwrap_eq_ok_iff.mp unwrapped
  refine wrap_eq_ok_iff.mpr ⟨lays, ?_⟩
  cases lays with
  | static same => omega
  | dynamic number =>
    simp only [maxLength, valueMax, prefixLength] at room ⊢
    rw [List.length_cons, List.length_cons]
    omega

/-- The values that can be laid out are those that fit. -/
theorem exists_wrap_iff :
  (∃ data, size.wrap value = .ok data) ↔ size.Fits value
  := by
  cases size with
  | static length =>
    rw [wrap, Fits]
    split
    · next differs => simp [differs]
    · next same =>
      rw [Decidable.not_not] at same
      split
      · next long =>
        simp only [valueMax] at long
        simp only [reduceCtorEq, exists_false, false_iff]
        omega
      · next short =>
        simp only [valueMax] at short
        simp only [Except.ok.injEq, exists_eq', true_iff]
        omega
  | dynamic =>
    rw [wrap, Fits]
    split
    · next long =>
      simp only [valueMax, prefixLength] at long
      simp only [reduceCtorEq, exists_false, false_iff]
      omega
    · next short =>
      simp only [valueMax, prefixLength] at short
      simp only [Except.ok.injEq, exists_eq', true_iff]
      omega

/-- A value that the buffer of a handler can hold is not too large. -/
theorem wrap_ne_tooLarge (room : value.length ≤ min size.maxLength valueMax) :
  size.wrap value ≠ .error .tooLarge
  := by
  cases size with
  | static length =>
    rw [wrap]
    split
    · simp
    · rw [if_neg (by omega)]
      simp
  | dynamic =>
    rw [maxLength] at room
    rw [wrap, if_neg (by simp only [valueMax, prefixLength] at room ⊢; omega)]
    simp

end PropertySize

/-- A module's value is too large exactly if the handler says that it is longer than the buffer that the
handler was given. -/
theorem Definition.serialize_eq_tooLarge_iff {M : Type} {d : Definition M} {m : M} :
  d.serialize m = .error (.size .tooLarge) ↔
    ∃ get value, d.get = some get ∧ get m d.room = some value ∧ d.room < value.length
  := by
  rw [serialize]
  cases d.get with
  | none => simp
  | some get =>
    cases got : get m d.room with
    | none => simp [got]
    | some value =>
      by_cases long : d.room < value.length
      · simp [got, long]
      · have fits := PropertySize.wrap_ne_tooLarge (Nat.le_of_not_lt long)
        cases wrapped : d.size.wrap value with
        | error e =>
          have other : e ≠ .tooLarge := fun is => fits (is ▸ wrapped)
          have caused : (Except.error e : Except _ (List UInt8)).mapError PropertyError.size =
              .error (.size e) := rfl
          simp [got, long, wrapped, caused, other]
        | ok data =>
          have kept : (Except.ok data).mapError PropertyError.size = .ok data := rfl
          simp [got, long, wrapped, kept]

/-- The value of a module has the length that a static size declares. -/
theorem Definition.length_value_of_static {M : Type} {d : Definition M} {length : UInt16}
    (static : d.size = .static length) {m : M} (laid : d.serialize m = .ok (d.value m)) :
  (d.value m).length = length.toNat
  := by
  obtain ⟨bytes, wrapped⟩ := exists_wrap laid
  rw [static, PropertySize.wrap_eq_ok_iff] at wrapped
  cases wrapped.1 with
  | static same => exact same

/-! ### Laying out and recovering -/

/-- A value can be laid out exactly if it fits its size; its layout fits a frame then, and the value is
recovered from it.  Whatever is recovered from data that fit a frame is laid out as these data.  And no
module's value is too large whose handler keeps within its buffer. -/
theorem PropertySize.wrap_inverse (size : PropertySize) (value data : List UInt8) :
  ((∃ laid, size.wrap value = .ok laid) ↔ size.Fits value) ∧
  (∀ laid, size.wrap value = .ok laid →
    laid.length ≤ 254 ∧ size.Lays value laid ∧ size.unwrap laid = .ok value) ∧
  (data.length ≤ 254 → ∀ found, size.unwrap data = .ok found →
    size.Lays found data ∧ size.wrap found = .ok data) ∧
  ∀ {M : Type} (d : Definition M) (m : M),
    (∀ get reported, d.get = some get → get m d.room = some reported → reported.length ≤ d.room) →
    d.serialize m ≠ .error (.size .tooLarge)
  := by
  refine ⟨exists_wrap_iff, fun laid wrapped => ?_, fun short found unwrapped => ?_, ?_⟩
  · obtain ⟨lays, short⟩ := wrap_eq_ok_iff.mp wrapped
    exact ⟨short, lays, unwrap_eq_ok_iff.mpr lays⟩
  · have lays := unwrap_eq_ok_iff.mp unwrapped
    exact ⟨lays, wrap_eq_ok_iff.mpr ⟨lays, short⟩⟩
  · intro M d m modest large
    obtain ⟨get, reported, is, got, long⟩ := Definition.serialize_eq_tooLarge_iff.mp large
    exact Nat.not_lt.mpr (modest get reported is got) long

/-- The longest value of dynamic size, which fills a frame with its length. -/
theorem PropertySize.wrap_inverse_longest :
  let value : List UInt8 := List.replicate 252 7
  let data : List UInt8 := 252 :: 0 :: value
  let d : Definition Unit :=
    { id := ⟨9⟩, name := "notes", access := .readOnly, size := .dynamic,
      get := some fun _ room => some (List.replicate room 7) }
  PropertySize.dynamic.wrap value = .ok data ∧ data.length ≤ 254 ∧
    PropertySize.dynamic.unwrap data = .ok value ∧ PropertySize.dynamic.Lays value data ∧
    d.serialize () ≠ .error (.size .tooLarge)
  := by
  intro value data d
  have short : data.length ≤ 254 := by decide +kernel
  have unwrapped : PropertySize.dynamic.unwrap data = .ok value :=
    unwrap_eq_ok_iff.mpr (.dynamic (by decide +kernel))
  obtain ⟨-, -, back, large⟩ := wrap_inverse .dynamic value data
  obtain ⟨lays, wrapped⟩ := back short value unwrapped
  refine ⟨wrapped, short, unwrapped, lays, large d () fun get reported is got => ?_⟩
  cases is
  cases got
  exact Nat.le_of_eq List.length_replicate

end DaisyChain
