import DaisyChain.Proofs.Stuffing.Spelling

/-!
# Producing and reading frames

What can be produced is read as what it was produced from, at once and byte by byte, and whatever
arrives is read as one of the things that a frame can say or refused (`codec_exact`).  The bytes that a
frame stands for tell which; there are five cases, of which exactly one applies (`Tells`, `tells_iff`).
-/

namespace DaisyChain.Frame

open Stuffing (Stands)

/-! ### Bodies -/

/-- A body is valid if and only if it is a value with its checksum. -/
theorem balanced_iff {body : List UInt8} :
  balanced body = true ↔ ∃ value, body = value ++ [checksum value]
  := by
  constructor
  · intro valid
    rcases List.eq_nil_or_concat' body with rfl | ⟨value, last, rfl⟩
    · contradiction
    · refine ⟨value, ?_⟩
      rw [balanced, total_append, beq_iff_eq] at valid
      have is : last = checksum value := by
        rw [checksum, ← valid, total, total, List.foldr_cons, List.foldr_nil]
        grind
      rw [is]
  · rintro ⟨value, rfl⟩
    apply balanced_append_checksum

/-- What a body says. -/
inductive Tells : List UInt8 → Except Error Frame → Prop where
  | empty : Tells [] (.ok .empty)
  | placeholder {body : List UInt8} (some : body ≠ []) (zeros : ∀ b ∈ body, b = 0) :
    Tells body (.ok .placeholder)
  | data {value : List UInt8} (short : value.length ≤ valueMax) :
    Tells (value ++ [checksum value]) (.ok (.data value))
  | valueTooLarge {value : List UInt8} (long : valueMax < value.length) :
    Tells (value ++ [checksum value]) (.error .valueTooLarge)
  | invalidChecksum {body : List UInt8} (some : body ≠ []) (nonzero : ∃ b ∈ body, b ≠ 0)
      (unsealed : ∀ value, body ≠ value ++ [checksum value]) :
    Tells body (.error .invalidChecksum)

/-- What is read from a body is what it says. -/
theorem tells_ofBody (body : List UInt8) :
  Tells body (ofBody body)
  := by
  rw [ofBody]
  split
  · next none =>
    rw [none]
    exact .empty
  · next some =>
    split
    · next zeros => exact .placeholder some (by simpa using zeros)
    · next nonzero =>
      split
      · next invalid =>
        refine .invalidChecksum some (by simpa using nonzero) fun value is => ?_
        rw [balanced_iff.mpr ⟨value, is⟩] at invalid
        contradiction
      · next valid =>
        obtain ⟨value, rfl⟩ := balanced_iff.mp (Bool.not_eq_false _ ▸ valid)
        rw [List.dropLast_concat]
        split
        · next long => exact .valueTooLarge long
        · next short => exact .data (Nat.not_lt.mp short)

/-- A body says one thing only. -/
theorem tells_iff {body : List UInt8} {result : Except Error Frame} :
  Tells body result ↔ ofBody body = result
  := by
  constructor
  · intro tells
    have sealed (value : List UInt8) : (value ++ [checksum value]).all (· == 0) = false :=
      not_all_zero_of_balanced (balanced_append_checksum value)
    cases tells with
    | empty => rfl
    | placeholder some zeros => rw [ofBody, if_neg some, if_pos (by simpa using zeros)]
    | data short => apply ofBody_of_value short
    | @valueTooLarge value long =>
      rw [ofBody, if_neg (by simp), if_neg (by rw [sealed]; simp),
        if_neg (by rw [balanced_append_checksum]; simp), List.dropLast_concat, if_pos long]
    | invalidChecksum some nonzero unsealed =>
      rw [ofBody, if_neg some, if_neg (by simpa using nonzero), if_pos]
      rw [← Bool.not_eq_true, balanced_iff]
      rintro ⟨value, is⟩
      exact unsealed value is
  · rintro rfl
    apply tells_ofBody

/-- No body is malformed. -/
theorem ofBody_ne_stuffing (body : List UInt8) (e : Stuffing.Error) :
  ofBody body ≠ .error (.stuffing e)
  := by
  intro is
  have tells := tells_iff.mpr is
  contradiction

/-! ### Received frames -/

/-- What is read from received bytes.  What a body says is read from a frame that stands for it. -/
theorem decode_eq_iff {frame : List UInt8} (fits : frame.length ≤ frameMax)
    {result : Except Error Frame} (read : ∀ e, result ≠ .error (.stuffing e)) :
  decode frame = result ↔ ∃ body, Stands frame body ∧ Tells body result
  := by
  simp only [tells_iff, ← Stuffing.decode_eq_ok_iff fits]
  rw [decode]
  cases Stuffing.decode frameMax frame with
  | error e =>
    simp only [reduceCtorEq, false_and, exists_false, iff_false]
    exact fun is => read e is.symm
  | ok body => simp

/-- What received bytes are read as: the bytes that they stand for, if they stand for any, tell
which. -/
structure Classified (frame : List UInt8) : Prop where
  unstuffed : ∀ body, Stuffing.decode frameMax frame = .ok body ↔ Stands frame body
  empty : decode frame = .ok .empty ↔ Stands frame []
  placeholder : decode frame = .ok .placeholder ↔
    ∃ body, Stands frame body ∧ body ≠ [] ∧ ∀ b ∈ body, b = 0
  data : ∀ value, decode frame = .ok (.data value) ↔
    Stands frame (value ++ [checksum value]) ∧ value.length ≤ valueMax
  valueTooLarge : decode frame = .error .valueTooLarge ↔
    ∃ value, Stands frame (value ++ [checksum value]) ∧ valueMax < value.length
  /-- The remaining bodies. -/
  invalidChecksum : decode frame = .error .invalidChecksum ↔
    ∃ body, Stands frame body ∧ body ≠ [] ∧ (∃ b ∈ body, b ≠ 0) ∧
      ∀ value, body ≠ value ++ [checksum value]
  /-- Bytes that stand for nothing are not terminated or malformed. -/
  stuffing : ∀ e, decode frame = .error (.stuffing e) ↔
    e = .missingTerminator ∧ frame.getLast? ≠ some 0 ∨
      e = .malformed ∧ frame.getLast? = some 0 ∧ ∀ body, ¬Stands frame body
  overflow : decode frame ≠ .error .overflow
  /-- They stand for one body at most. -/
  unique : ∀ body body', Stands frame body → Stands frame body' → body = body'

/-- Whatever fits a collector is read as what it stands for. -/
theorem classified_of_fits {frame : List UInt8} (fits : frame.length ≤ frameMax) :
  Classified frame
  where
  unstuffed _ := Stuffing.decode_eq_ok_iff fits
  empty := by
    rw [decode_eq_iff fits (by simp)]
    constructor
    · rintro ⟨body, stands, tells⟩
      cases tells
      exact stands
    · exact fun stands => ⟨[], stands, .empty⟩
  placeholder := by
    rw [decode_eq_iff fits (by simp)]
    apply exists_congr
    intro body
    apply and_congr_right
    intro _
    constructor
    · rintro ⟨⟩
      exact ⟨‹_›, ‹_›⟩
    · rintro ⟨some, zeros⟩
      exact .placeholder some zeros
  data value := by
    rw [decode_eq_iff fits (by simp)]
    constructor
    · rintro ⟨_, stands, ⟨⟩⟩
      exact ⟨stands, ‹_›⟩
    · exact fun ⟨stands, short⟩ => ⟨_, stands, .data short⟩
  valueTooLarge := by
    rw [decode_eq_iff fits (by simp)]
    constructor
    · rintro ⟨_, stands, ⟨⟩⟩
      exact ⟨_, stands, ‹_›⟩
    · exact fun ⟨value, stands, long⟩ => ⟨_, stands, .valueTooLarge long⟩
  invalidChecksum := by
    rw [decode_eq_iff fits (by simp)]
    constructor
    · rintro ⟨body, stands, ⟨⟩⟩
      exact ⟨body, stands, ‹_›, ‹_›, ‹_›⟩
    · rintro ⟨body, stands, some, nonzero, unsealed⟩
      exact ⟨body, stands, .invalidChecksum some nonzero unsealed⟩
  stuffing e := by
    rw [← Stuffing.decode_eq_error_iff fits, decode]
    cases Stuffing.decode frameMax frame with
    | error e' => simp
    | ok body => simp [ofBody_ne_stuffing]
  overflow := by
    rw [ne_eq, decode_eq_iff fits (by simp)]
    rintro ⟨_, _, tells⟩
    contradiction
  unique _ _ stands stands' := stands.unique stands'

/-! ### Produced frames -/

namespace Collector

/-- A collector within a frame takes bytes other than zero as a part of it. -/
theorem feedAll_clean {held bytes : List UInt8} (clean : 0 ∉ bytes)
    (room : held.length + bytes.length ≤ frameMax) :
  feedAll ⟨held, false⟩ bytes =
    (List.replicate bytes.length (.ok false), ⟨held ++ bytes, false⟩)
  := by
  induction bytes generalizing held with
  | nil => rw [feedAll, List.append_nil, List.length_nil, List.replicate_zero]
  | cons b rest ih =>
    rw [List.mem_cons, not_or] at clean
    rw [List.length_cons] at room
    have other : (b == 0) = false := beq_false_of_ne (Ne.symm clean.1)
    rw [feedAll, feed_open (by omega), other]
    simp only
    rw [ih clean.2 (by rw [List.length_append, List.length_singleton]; omega), List.append_assoc,
      List.singleton_append, List.length_cons, List.replicate_succ]

/-- It does not matter whether a collector has never seen a byte or has just finished a frame. -/
theorem feedAll_of_reopen {c : Collector} (fresh : c.reopen = start) {bytes : List UInt8}
    (some : bytes ≠ []) :
  c.feedAll bytes = start.feedAll bytes
  := by
  cases bytes with
  | nil => contradiction
  | cons b rest =>
    have same : c.feed b = start.feed b := by
      rw [feed, fresh]
      rfl
    rw [feedAll, same, feedAll]

/-- A whole frame is collected byte by byte: its last byte ends it, and none before. -/
theorem feedAll_whole {c : Collector} (fresh : c.reopen = start) {bytes : List UInt8} {frame : Frame}
    (whole : Whole bytes frame) :
  c.feedAll bytes = (List.replicate (bytes.length - 1) (.ok false) ++ [.ok true], ⟨bytes, true⟩)
  := by
  obtain ⟨body, rfl, clean⟩ := whole.ends
  have fits := whole.fits
  rw [List.length_append, List.length_singleton] at fits
  rw [feedAll_of_reopen fresh (by simp), feedAll_append, start,
    feedAll_clean clean (by rw [List.length_nil]; omega), List.nil_append]
  simp only
  rw [feedAll, feed_open (by omega), List.length_append, List.length_singleton, Nat.add_sub_cancel]
  rfl

end Collector

/-- A frame is produced from a body: it is the body stuffed in a buffer of the greatest length, holds
no zero but the last, and is read as what it was produced from, at once and byte by byte. -/
structure Produced (body frame : List UInt8) (said : Frame) : Prop where
  stuffed : Stuffing.encode frameMax body = .ok frame
  whole : Whole frame said
  collected : ∀ c : Collector, c.reopen = .start →
    (c.feedAll frame).1 = List.replicate (frame.length - 1) (.ok false) ++ [.ok true] ∧
      (c.feedAll frame).2.decode = .ok said

/-- A whole frame that consists of a stuffed body is produced from it. -/
theorem Whole.produced {body : List UInt8} {said : Frame} (short : body.length ≤ valueMax + 1)
    (whole : Whole (Stuffing.stuff body) said) :
  Produced body (Stuffing.stuff body) said
  where
  stuffed := by
    apply if_neg
    simp only [frameMax, Stuffing.maxLength, valueMax, Stuffing.runMax] at *
    omega
  whole := whole
  collected c fresh := by
    rw [Collector.feedAll_whole fresh whole]
    exact ⟨rfl, whole.reads⟩

/-- A value can be sent if it is not too long. -/
theorem encode_eq_ok_iff {value frame : List UInt8} :
  encode value = .ok frame ↔
    value.length ≤ valueMax ∧ Stuffing.stuff (value ++ [checksum value]) = frame
  := by
  rw [encode]
  split
  · next long => simp [Nat.not_le.mpr long]
  · next short => simp [Nat.not_lt.mp short]

/-- A placeholder can be sent if it is not too long. -/
theorem placeholderOf_eq_ok_iff {length : Nat} {frame : List UInt8} :
  placeholderOf length = .ok frame ↔
    length ≤ valueMax ∧ Stuffing.stuff (List.replicate (length + 1) 0) = frame
  := by
  rw [placeholderOf]
  split
  · next long => simp [Nat.not_le.mpr long]
  · next short => simp [Nat.not_lt.mp short]

/-! ### The codec is exact -/

/-- What can be produced, and what received bytes are read as.  A value and a placeholder can be sent
if and only if they are not longer than `valueMax`, and are read as what they are.  Whatever fits a
collector is read as one of the things that a frame can say or refused for a reason, as the bytes that
it stands for tell. -/
theorem codec_exact (value : List UInt8) (length : Nat) {received : List UInt8}
    (fits : received.length ≤ frameMax) :
  ((∃ frame, encode value = .ok frame) ↔ value.length ≤ valueMax) ∧
  (∀ frame, encode value = .ok frame →
    Produced (value ++ [checksum value]) frame (.data value)) ∧
  ((∃ frame, placeholderOf length = .ok frame) ↔ length ≤ valueMax) ∧
  (∀ frame, placeholderOf length = .ok frame →
    Produced (List.replicate (length + 1) 0) frame .placeholder) ∧
  Classified received
  := by
  refine ⟨?_, fun frame sent => ?_, ?_, fun frame sent => ?_, classified_of_fits fits⟩
  · simp [encode_eq_ok_iff]
  · have whole := whole_of_encode sent
    obtain ⟨short, rfl⟩ := encode_eq_ok_iff.mp sent
    apply whole.produced
    rw [List.length_append, List.length_singleton]
    omega
  · simp [placeholderOf_eq_ok_iff]
  · have whole := whole_of_placeholderOf sent
    obtain ⟨short, rfl⟩ := placeholderOf_eq_ok_iff.mp sent
    apply whole.produced
    rw [List.length_replicate]
    omega

/-- A value and a placeholder of the greatest length, and a frame of the greatest length whose body is
longer by a byte than that of any value. -/
theorem codec_exact_longest :
  let value : List UInt8 := List.replicate 254 1
  let long : List UInt8 := List.replicate 255 0
  let received : List UInt8 := List.replicate 255 1 ++ [2, 255, 0]
  received.length ≤ frameMax ∧ decode received = .error .valueTooLarge ∧
    (∃ frame, encode value = .ok frame) ∧ (∃ frame, placeholderOf 254 = .ok frame) ∧
    Stands received (long ++ [checksum long])
  := by
  intro value long received
  have fits : received.length ≤ frameMax := by decide +kernel
  obtain ⟨sends, -, places, -, classified⟩ := codec_exact value 254 fits
  have stuffed : Stuffing.stuff (long ++ [checksum long]) = received := by decide +kernel
  have stands : Stands received (long ++ [checksum long]) := by
    rw [← classified.unstuffed, ← stuffed]
    apply Stuffing.decode_stuff
    decide +kernel
  have refused : decode received = .error .valueTooLarge :=
    classified.valueTooLarge.mpr ⟨long, stands, by decide +kernel⟩
  exact ⟨fits, refused, sends.mpr (by decide +kernel), places.mpr (by decide), stands⟩

end DaisyChain.Frame
