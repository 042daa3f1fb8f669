import DaisyChain.Proofs.Frame.Damage

/-!
# Streams without a frame

A stream is barren if no whole frame stands at its beginning, so that a node finds none there
(`Barren`).  An empty frame may stand there if the node awaits a value: such a node refuses it.

A frame of which a byte has been changed is barren, unless a zero has come or gone
(`barren_of_changed`).  A frame that has lost its terminator says at most the value that it said,
with more behind it, if it ends after one more byte (`isPrefix_of_unterminated`).
-/

namespace DaisyChain

/-- A beginning of two lists in a row is one of the first list, or goes on into the second. -/
theorem prefix_append_cases {α : Type} {xs ys zs : List α} (begins : xs <+: ys ++ zs) :
  xs <+: ys ∨ ∃ more, more <+: zs ∧ xs = ys ++ more
  := by
  rcases List.prefix_or_prefix_of_prefix begins (List.prefix_append ys zs) with short | ⟨more, rfl⟩
  · exact .inl short
  · exact .inr ⟨more, (List.prefix_append_right_inj ys).mp begins, rfl⟩

/-! ### Blocks that stand for zeros -/

namespace Stuffing

/-- Blocks without a zero that stand for zeros alone are empty runs behind their code bytes. -/
theorem eq_one_of_unstuff {room : Nat} {body bytes : List UInt8}
    (read : unstuff room body = .ok bytes) (clean : 0 ∉ body) (zeros : ∀ b ∈ bytes, b = 0) :
  ∀ b ∈ body, b = 1
  := by
  cases body with
  | nil => simp
  | cons code body =>
    obtain ⟨run, rest, room', more, rfl, length, behind, rfl⟩ := exists_of_unstuff read
    have within : ∀ b ∈ run ++ more, b = 0 := by
      intro b member
      apply zeros
      rw [joined]
      split
      · apply member
      · simp only [List.mem_append, List.mem_cons] at member ⊢
        exact member.imp_right .inr
    rw [List.mem_cons, List.mem_append, not_or, not_or] at clean
    -- A run holds no zero, so it is empty.
    cases run with
    | cons b run =>
      apply (clean.2.1 _).elim
      rw [← within b (by simp)]
      apply List.mem_cons_self
    | nil =>
      have single : code = 1 := UInt8.toNat_inj.mp length.symm
      have others := eq_one_of_unstuff behind clean.2.2 fun b member =>
        within b (List.mem_append_right _ member)
      rw [List.forall_mem_cons]
      exact ⟨single, others⟩
termination_by body.length

end Stuffing

namespace Frame

/-! ### What a frame adds up to -/

/-- A body says a value if it adds up to the sentinel; otherwise it holds nothing but zeros. -/
theorem total_or_zeros_of_ofBody {body : List UInt8} {frame : Frame}
    (reads : ofBody body = .ok frame) :
  (∃ value, frame = .data value) ∧ total body = sentinel ∨ ∀ b ∈ body, b = 0
  := by
  rw [ofBody] at reads
  split at reads
  · next none =>
    right
    simp [none]
  · split at reads
    · next zeros =>
      right
      simpa using zeros
    · split at reads
      · contradiction
      · next valid =>
        split at reads
        · contradiction
        · cases reads
          rw [Bool.not_eq_false, balanced, beq_iff_eq] at valid
          exact .inl ⟨⟨_, rfl⟩, valid⟩

/-- What a frame that can be read adds up to: the sentinel and its length if it says a value, its
length otherwise, and then it consists of ones. -/
theorem total_of_decode {body : List UInt8} {frame : Frame}
    (reads : decode (body ++ [0]) = .ok frame) (clean : 0 ∉ body) :
  (∃ value, frame = .data value) ∧ total body = sentinel + UInt8.ofNat body.length ∨
    total body = UInt8.ofNat body.length ∧ ∀ b ∈ body, b = 1
  := by
  obtain ⟨bytes, read, gives⟩ := exists_of_decode reads
  have sum := Stuffing.total_of_unstuff read
  rcases total_or_zeros_of_ofBody gives with ⟨data, valid⟩ | zeros
  · left
    rw [valid] at sum
    exact ⟨data, sum⟩
  · right
    rw [total_of_zeros zeros, UInt8.zero_add] at sum
    exact ⟨sum, Stuffing.eq_one_of_unstuff read clean zeros⟩

/-- A frame that can be read cannot be read any more once one of its bytes has been changed, unless
a zero has come. -/
theorem decode_ne_ok_of_changed {front back : List UInt8} {byte byte' : UInt8} {frame : Frame}
    (reads : decode (front ++ byte :: back ++ [0]) = .ok frame) (clean : 0 ∉ front ++ byte :: back)
    (other : byte' ≠ byte) (filled : byte' ≠ 0) (frame' : Frame) :
  decode (front ++ byte' :: back ++ [0]) ≠ .ok frame'
  := by
  intro reads'
  have clean' : 0 ∉ front ++ byte' :: back := by
    simp only [List.mem_append, List.mem_cons, not_or] at clean ⊢
    exact ⟨clean.1, filled.symm, clean.2.2⟩
  have parts (b : UInt8) : total (front ++ b :: back) = total front + (b + total back) :=
    total_append front (b :: back)
  have length : (front ++ byte' :: back).length = (front ++ byte :: back).length := by simp
  have nonzero : byte ≠ 0 := by
    rintro rfl
    exact clean (by simp)
  have sum := total_of_decode reads clean
  have sum' := total_of_decode reads' clean'
  rw [parts] at sum sum'
  rw [length] at sum'
  generalize UInt8.ofNat (front ++ byte :: back).length = size at sum sum'
  rcases sum with ⟨-, sum⟩ | ⟨sum, ones⟩
  · rcases sum' with ⟨-, sum'⟩ | ⟨sum', ones'⟩
    · apply other
      grind
    · have one' : byte' = 1 := ones' byte' (by simp)
      have : sentinel + 1 = 0 := rfl
      apply nonzero
      grind
  · rcases sum' with ⟨-, sum'⟩ | ⟨sum', ones'⟩
    · have one : byte = 1 := ones byte (by simp)
      have : sentinel + 1 = 0 := rfl
      apply filled
      grind
    · apply other
      grind

/-- A frame that has lost its terminator says a value only if it said a beginning of it before. -/
theorem isPrefix_of_unterminated {body value : List UInt8} {byte : UInt8} {frame : Frame}
    (reads : decode (body ++ [0]) = .ok frame) (clean : 0 ∉ body) (filled : byte ≠ 0)
    (later : decode (body ++ [byte] ++ [0]) = .ok (.data value)) :
  ∃ start, frame = .data start ∧ start <+: value
  := by
  rcases total_of_decode reads clean with ⟨⟨start, rfl⟩, -⟩ | ⟨sum, -⟩
  · exact ⟨start, rfl, (isPrefix_of_cut later reads).1⟩
  · have clean' : 0 ∉ body ++ [byte] := by
      rw [List.mem_append, List.mem_singleton, not_or]
      exact ⟨clean, filled.symm⟩
    have all : total (body ++ [byte]) = total body + byte := by
      rw [total_append]
      simp [total]
    have size : UInt8.ofNat (body ++ [byte]).length = UInt8.ofNat body.length + 1 := by
      rw [List.length_append, List.length_singleton, UInt8.ofNat_add]
      rfl
    -- The sum and the length both grow, so the byte would have to be zero.
    obtain ⟨bytes, read, valid, -, -⟩ := exists_of_decode_data later
    have sum' := Stuffing.total_of_unstuff read
    rw [all, valid, size, sum] at sum'
    have : sentinel + 1 = 0 := rfl
    apply (filled _).elim
    grind

/-! ### Streams without a frame -/

/-- No whole frame stands at the beginning of the stream, unless an empty one does and a value is
awaited. -/
def Barren (awaited : Prop) (stream : List UInt8) : Prop :=
  ∀ bytes frame, bytes <+: stream → Whole bytes frame → awaited ∧ frame = .empty

namespace Barren

variable {awaited awaited' : Prop} {stream front back : List UInt8}

/-- If nothing stands at the beginning, nothing does that is not awaited. -/
theorem mono (barren : Barren awaited stream) (imp : awaited → awaited') :
  Barren awaited' stream
  := fun bytes frame begins whole => (barren bytes frame begins whole).imp_left imp

/-- A beginning of a barren stream is barren. -/
theorem of_begins (barren : Barren awaited stream) (begins : front <+: stream) :
  Barren awaited front
  := fun bytes frame first whole => barren bytes frame (first.trans begins) whole

end Barren

variable {awaited : Prop} {front back : List UInt8}

/-- A frame ends with the first zero of the stream that begins with it. -/
theorem Whole.eq_of_prefix {bytes body : List UInt8} {frame : Frame} (whole : Whole bytes frame)
    (clean : 0 ∉ body) (begins : bytes <+: body ++ 0 :: back) :
  bytes = body ++ [0]
  := by
  obtain ⟨⟨body', rfl, clean'⟩, -, -⟩ := whole
  obtain ⟨more, same⟩ := begins
  rw [List.append_assoc, List.singleton_append] at same
  rw [(eq_of_ends clean' clean same).1]

/-- A stream whose first zero does not end a frame is barren, unless that frame is empty and a value
is awaited. -/
theorem barren_of_decode {body : List UInt8} (clean : 0 ∉ body)
    (fails : ∀ frame, decode (body ++ [0]) = .ok frame → awaited ∧ frame = .empty)
    (more : List UInt8) :
  Barren awaited (body ++ 0 :: more)
  := by
  intro bytes frame begins whole
  have reads := whole.reads
  rw [whole.eq_of_prefix clean begins] at reads
  apply fails frame reads

/-- A stream without a zero is barren. -/
theorem barren_of_clean (clean : 0 ∉ front) :
  Barren awaited front
  := by
  rintro bytes frame begins ⟨⟨body, rfl, -⟩, -, -⟩
  apply (clean (begins.subset (by simp))).elim

/-- A stream with a zero stays barren whatever comes behind it. -/
theorem Barren.append {stream : List UInt8} (barren : Barren awaited stream) (zero : 0 ∈ stream)
    (more : List UInt8) :
  Barren awaited (stream ++ more)
  := by
  obtain ⟨body, back, rfl, clean⟩ := List.eq_append_cons_of_mem zero
  intro bytes frame begins whole
  apply barren bytes frame _ whole
  rw [List.append_assoc, List.cons_append] at begins
  rw [whole.eq_of_prefix clean begins]
  exact ⟨back, by simp⟩

/-- A stream without a zero that is too long for a frame stays barren whatever comes behind it. -/
theorem barren_of_long (clean : 0 ∉ front) (long : frameMax ≤ front.length) (more : List UInt8) :
  Barren awaited (front ++ more)
  := by
  rintro bytes frame begins ⟨⟨body, rfl, -⟩, fits, -⟩
  have within : body ++ [0] <+: front :=
    List.prefix_of_prefix_length_le begins (List.prefix_append _ _) (Nat.le_trans fits long)
  apply (clean (within.subset (by simp))).elim

/-- A frame of which a byte has been changed is barren, unless a zero has come. -/
theorem barren_of_changed {byte byte' : UInt8} {frame : Frame}
    (whole : Whole (front ++ byte :: back) frame) (filled : byte ≠ 0) (other : byte' ≠ byte)
    (filled' : byte' ≠ 0) (more : List UInt8) :
  Barren awaited (front ++ byte' :: back ++ more)
  := by
  obtain ⟨⟨body, split, clean⟩, -, reads⟩ := whole
  -- The byte is not the terminator.
  obtain ⟨back, rfl⟩ : ∃ rest, back = rest ++ [0] := by
    rcases List.eq_nil_or_concat' back with rfl | ⟨rest, last, rfl⟩
    · exact absurd (List.append_inj' split rfl).2 (by simpa using filled)
    · refine ⟨rest, ?_⟩
      rw [← List.cons_append, ← List.append_assoc] at split
      rw [(List.append_inj' split rfl).2]
  rw [← List.cons_append, ← List.append_assoc] at split reads
  obtain rfl := (List.append_inj' split rfl).1
  have clean' : 0 ∉ front ++ byte' :: back := by
    simp only [List.mem_append, List.mem_cons, not_or] at clean ⊢
    exact ⟨clean.1, filled'.symm, clean.2.2⟩
  have shape : front ++ byte' :: (back ++ [0]) ++ more = (front ++ byte' :: back) ++ 0 :: more := by
    simp
  rw [shape]
  apply barren_of_decode clean'
  intro frame' reads'
  apply (decode_ne_ok_of_changed reads clean other filled' frame' reads').elim

/-! ### Beginnings of streams of frames -/

/-- A beginning of a stream of whole frames holds all of them, or some of them and a part of the
next one without its end. -/
theorem prefix_of_flatten {frames : List (List UInt8)} {stream more : List UInt8}
    (whole : ∀ bytes ∈ frames, ∃ frame, Whole bytes frame)
    (begins : stream <+: frames.flatten ++ more) :
  (∃ part, part <+: more ∧ stream = frames.flatten ++ part) ∨
    ∃ j < frames.length, ∃ part, 0 ∉ part ∧ stream = (frames.take j).flatten ++ part
  := by
  induction frames generalizing stream with
  | nil => exact .inl ⟨stream, begins, rfl⟩
  | cons bytes rest ih =>
    obtain ⟨frame, ⟨body, rfl, clean⟩, -, -⟩ := whole bytes List.mem_cons_self
    rw [List.flatten_cons, List.append_assoc] at begins
    -- The first frame lacks its end, or the stream goes on behind it.
    have cases : stream <+: body ∨
        ∃ later, later <+: rest.flatten ++ more ∧ stream = body ++ [0] ++ later := by
      rcases prefix_append_cases begins with first | further
      · rcases List.prefix_concat_iff.mp first with rfl | part
        · exact .inr ⟨[], List.nil_prefix, (List.append_nil _).symm⟩
        · exact .inl part
      · exact .inr further
    rcases cases with part | ⟨later, within, rfl⟩
    · exact .inr ⟨0, by simp, stream, fun zero => clean (part.subset zero), rfl⟩
    · have others := ih (fun other member => whole other (List.mem_cons_of_mem _ member)) within
      rcases others with ⟨part, first, rfl⟩ | ⟨j, few, part, clean', rfl⟩
      · exact .inl ⟨part, first, by simp⟩
      · exact .inr ⟨j + 1, by simpa using few, part, clean', by simp⟩

end Frame

end DaisyChain
