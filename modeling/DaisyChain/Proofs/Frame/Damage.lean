import DaisyChain.Proofs.Frame.Whole
import Mathlib.Data.List.Forall2

/-!
# Damaged frames

What becomes of a stream of frames with values if one of its bytes arrives changed.  A byte that
stays other than zero changes the sum of the frame, which then says no value
(`decode_ne_data_of_changed`).  A byte that becomes zero ends its frame early; what has arrived by
then says at most a beginning of the value (`isPrefix_of_cut`).  A terminator that is lost leaves
too few frames.  So the frames that say values are those that were sent, up to one at most that
says a proper beginning (`spoilt_of_changed`).
-/

namespace DaisyChain

/-! ### Unstuffing and sums -/

namespace Stuffing

/-- What a block stands for whose run and rest stand for the given bytes: a zero is implied between
them, unless the run is full or the last one. -/
def joined (code : UInt8) (rest run more : List UInt8) : List UInt8 :=
  if code = 0xFF ∨ rest = [] then run ++ more else run ++ 0 :: more

/-- Blocks that stand for something begin with a code byte and its run. -/
theorem exists_of_unstuff {room : Nat} {code : UInt8} {body bytes : List UInt8}
    (read : unstuff room (code :: body) = .ok bytes) :
  ∃ run rest room' more, body = run ++ rest ∧ run.length + 1 = code.toNat ∧
    unstuff room' rest = .ok more ∧ bytes = joined code rest run more
  := by
  have mapped {f : List UInt8 → List UInt8} {x : Except Error (List UInt8)}
      (is : f <$> x = .ok bytes) : ∃ more, x = .ok more ∧ bytes = f more := by
    cases x with
    | error e => contradiction
    | ok more => exact ⟨more, rfl, (Except.ok.inj is).symm⟩
  rw [unstuff] at read
  split at read
  · contradiction
  · next formed =>
    obtain ⟨other, enough⟩ := not_or.mp formed
    have positive : code.toNat ≠ 0 := fun zero => other (UInt8.toNat_inj.mp zero)
    have length : (body.take (code.toNat - 1)).length + 1 = code.toNat := by
      rw [List.length_take]
      omega
    simp only at read
    split at read
    · contradiction
    · split at read
      · next last =>
        obtain ⟨more, behind, is⟩ := mapped read
        exact ⟨_, _, _, more, (List.take_append_drop _ body).symm, length, behind,
          is.trans (if_pos last).symm⟩
      · next further =>
        split at read
        · contradiction
        · obtain ⟨more, behind, is⟩ := mapped read
          exact ⟨_, _, _, more, (List.take_append_drop _ body).symm, length, behind,
            is.trans (if_neg further).symm⟩

/-- The sum of stuffed bytes is that of the bytes they stand for, and their number: a code byte
counts itself and its run. -/
theorem total_of_unstuff {room : Nat} {body bytes : List UInt8}
    (read : unstuff room body = .ok bytes) :
  Frame.total body = Frame.total bytes + UInt8.ofNat body.length
  := by
  cases body with
  | nil =>
    rw [unstuff] at read
    cases read
    rfl
  | cons code body =>
    obtain ⟨run, rest, room', more, rfl, length, behind, rfl⟩ := exists_of_unstuff read
    have others := total_of_unstuff behind
    have sum : Frame.total (joined code rest run more) = Frame.total run + Frame.total more := by
      have implied : Frame.total (0 :: more) = Frame.total more := UInt8.zero_add _
      rw [joined]
      split <;> rw [Frame.total_append]
      rw [implied]
    have counts : UInt8.ofNat (run.length + 1) = code := by
      rw [length, UInt8.ofNat_toNat]
    have all : Frame.total (code :: (run ++ rest)) = code + (Frame.total run + Frame.total rest) := by
      rw [← Frame.total_append]
      rfl
    have size : (code :: (run ++ rest)).length = (run.length + 1) + rest.length := by
      simp only [List.length_cons, List.length_append]
      omega
    rw [sum, all, size, UInt8.ofNat_add, counts, others]
    grind
termination_by body.length

/-- Blocks that stand for nothing are a single code byte. -/
theorem eq_nil_of_unstuff_eq_nil {room : Nat} {code : UInt8} {body : List UInt8}
    (read : unstuff room (code :: body) = .ok []) :
  body = []
  := by
  obtain ⟨run, rest, room', more, rfl, length, behind, none⟩ := exists_of_unstuff read
  rw [joined] at none
  split at none
  · next last =>
    rw [eq_comm, List.append_eq_nil_iff] at none
    rw [none.1, List.length_nil] at length
    rcases last with rfl | rfl
    · contradiction
    · rw [none.1, List.append_nil]
  · simp at none

/-- Blocks that are cut short stand for a beginning of the bytes, and for a proper one unless what
is cut off is a single byte. -/
theorem isPrefix_of_unstuff {room room' : Nat} {front back bytes start : List UInt8} {code : UInt8}
    (some : front ≠ []) (part : unstuff room' front = .ok start)
    (whole : unstuff room (front ++ code :: back) = .ok bytes) :
  start <+: bytes ∧ (start = bytes → back = [])
  := by
  cases front with
  | nil => contradiction
  | cons first front =>
    obtain ⟨run, rest, room₁, more, rfl, length, behind, rfl⟩ := exists_of_unstuff part
    obtain ⟨run', rest', room₂, more', split, length', behind', rfl⟩ := exists_of_unstuff whole
    -- Both begin with the same run.
    obtain ⟨rfl, rfl⟩ : run = run' ∧ rest ++ code :: back = rest' := by
      apply List.append_inj (by rw [← List.append_assoc]; exact split)
      omega
    have further : rest ++ code :: back ≠ [] := by simp
    by_cases last : rest = []
    · subst last
      have none : more = [] := by
        rw [unstuff] at behind
        exact (Except.ok.inj behind).symm
      subst none
      rw [joined, joined, if_pos (Or.inr rfl), List.append_nil]
      split
      · refine ⟨List.prefix_append _ _, fun same => ?_⟩
        rw [List.self_eq_append_right] at same
        rw [same] at behind'
        apply eq_nil_of_unstuff_eq_nil behind'
      · exact ⟨List.prefix_append _ _, fun same => by simp at same⟩
    · obtain ⟨begins, same⟩ := isPrefix_of_unstuff last behind behind'
      rw [joined, joined]
      by_cases full : first = 0xFF
      · rw [if_pos (Or.inl full), if_pos (Or.inl full)]
        exact ⟨(List.prefix_append_right_inj run).mpr begins,
          fun all => same (List.append_cancel_left all)⟩
      · rw [if_neg (not_or.mpr ⟨full, last⟩), if_neg (not_or.mpr ⟨full, further⟩)]
        refine ⟨(List.prefix_append_right_inj run).mpr (List.cons_prefix_cons.mpr ⟨rfl, begins⟩), ?_⟩
        intro all
        apply same (List.cons.inj (List.append_cancel_left all)).2
termination_by front.length

end Stuffing

namespace Frame

/-! ### Single frames -/

/-- A frame that can be read stands for the bytes that it is read from. -/
theorem exists_of_decode {body : List UInt8} {frame : Frame}
    (reads : decode (body ++ [0]) = .ok frame) :
  ∃ bytes, Stuffing.unstuff frameMax body = .ok bytes ∧ ofBody bytes = .ok frame
  := by
  rw [decode, Stuffing.decode, if_pos (by simp), List.dropLast_concat] at reads
  cases read : Stuffing.unstuff frameMax body with
  | error e =>
    rw [read] at reads
    contradiction
  | ok bytes =>
    rw [read] at reads
    exact ⟨bytes, rfl, reads⟩

/-- A frame that says a value stands for bytes that add up to the sentinel. -/
theorem exists_of_decode_data {body value : List UInt8}
    (reads : decode (body ++ [0]) = .ok (.data value)) :
  ∃ bytes, Stuffing.unstuff frameMax body = .ok bytes ∧ total bytes = sentinel ∧ bytes ≠ [] ∧
    value = bytes.dropLast
  := by
  obtain ⟨bytes, read, gives⟩ := exists_of_decode reads
  simp only [ofBody] at gives
  split at gives
  · cases gives
  · next some =>
    split at gives
    · cases gives
    · split at gives
      · contradiction
      · next valid =>
        split at gives
        · contradiction
        · cases gives
          refine ⟨bytes, read, ?_, some, rfl⟩
          rw [Bool.not_eq_false, balanced, beq_iff_eq] at valid
          apply valid

/-- A frame that gives a value says none if one of its bytes has been changed, and is not its end. -/
theorem decode_ne_data_of_changed {front back value : List UInt8} {byte byte' : UInt8}
    (reads : decode (front ++ byte :: back ++ [0]) = .ok (.data value)) (other : byte' ≠ byte)
    (value' : List UInt8) :
  decode (front ++ byte' :: back ++ [0]) ≠ .ok (.data value')
  := by
  intro reads'
  obtain ⟨bytes, read, valid, -, -⟩ := exists_of_decode_data reads
  obtain ⟨bytes', read', valid', -, -⟩ := exists_of_decode_data reads'
  have sum := Stuffing.total_of_unstuff read
  have sum' := Stuffing.total_of_unstuff read'
  have parts (b : UInt8) : total (front ++ b :: back) = total front + (b + total back) :=
    total_append front (b :: back)
  rw [parts, valid, List.length_append, List.length_cons] at sum
  rw [parts, valid', List.length_append, List.length_cons, ← sum] at sum'
  apply other
  grind

/-- A frame that says a value and is cut short says at most a beginning of it, and a proper one
unless what is cut off is a single byte. -/
theorem isPrefix_of_cut {front back value start : List UInt8} {byte : UInt8}
    (reads : decode (front ++ byte :: back ++ [0]) = .ok (.data value))
    (part : decode (front ++ [0]) = .ok (.data start)) :
  start <+: value ∧ (start = value → back = [])
  := by
  obtain ⟨bytes, read, -, filled, rfl⟩ := exists_of_decode_data reads
  obtain ⟨bytes', read', -, filled', rfl⟩ := exists_of_decode_data part
  have some : front ≠ [] := by
    rintro rfl
    rw [Stuffing.unstuff] at read'
    exact filled' (Except.ok.inj read').symm
  obtain ⟨begins, same⟩ := Stuffing.isPrefix_of_unstuff some read' read
  refine ⟨?_, fun equal => same ?_⟩
  · apply List.prefix_of_prefix_length_le ((List.dropLast_prefix _).trans begins)
      (List.dropLast_prefix _)
    rw [List.length_dropLast, List.length_dropLast]
    apply Nat.sub_le_sub_right begins.length_le
  · apply begins.eq_of_length
    have lengths := congrArg List.length equal
    rw [List.length_dropLast, List.length_dropLast] at lengths
    have := List.length_pos_iff.mpr filled
    have := List.length_pos_iff.mpr filled'
    omega

/-! ### Streams of frames -/

/-- The first zero of a stream ends its first frame. -/
theorem eq_of_ends {body body' rest rest' : List UInt8} (clean : 0 ∉ body) (clean' : 0 ∉ body')
    (same : body ++ 0 :: rest = body' ++ 0 :: rest') :
  body = body' ∧ rest = rest'
  := by
  induction body generalizing body' with
  | nil =>
    cases body' with
    | nil => exact ⟨rfl, (List.cons.inj same).2⟩
    | cons b body' => exact absurd ((List.cons.inj same).1 ▸ List.mem_cons_self) clean'
  | cons b body ih =>
    cases body' with
    | nil => exact absurd ((List.cons.inj same).1 ▸ List.mem_cons_self) clean
    | cons b' body' =>
      obtain ⟨rfl, others⟩ := List.cons.inj same
      obtain ⟨rfl, rest⟩ := ih (fun zero => clean (List.mem_cons_of_mem _ zero))
        (fun zero => clean' (List.mem_cons_of_mem _ zero)) others
      exact ⟨rfl, rest⟩

/-- A stream has as many zeros as it has whole frames. -/
theorem count_zero_flatten {batch : List (List UInt8)}
    (whole : ∀ bytes ∈ batch, ∃ frame, Whole bytes frame) :
  batch.flatten.count 0 = batch.length
  := by
  induction batch with
  | nil => rfl
  | cons bytes rest ih =>
    obtain ⟨frame, ⟨body, rfl, clean⟩, -, -⟩ := whole bytes List.mem_cons_self
    rw [List.flatten_cons, List.count_append,
      ih fun other member => whole other (List.mem_cons_of_mem _ member), List.count_append,
      List.count_eq_zero.mpr clean, List.length_cons]
    simp [Nat.add_comm]

/-- Frames with values are whole frames. -/
theorem exists_whole_of_forall₂ {batch values : List (List UInt8)} {bytes : List UInt8}
    (whole : List.Forall₂ (fun bytes value => Whole bytes (.data value)) batch values)
    (member : bytes ∈ batch) :
  ∃ frame, Whole bytes frame
  := by
  induction whole with
  | nil => contradiction
  | cons first _ ih =>
    rcases List.mem_cons.mp member with rfl | among
    · exact ⟨_, first⟩
    · apply ih among

/-- Values that were sent, and what the frames of a damaged stream say. -/
inductive Spoilt : List (List UInt8) → List (List UInt8) → Prop
  | rfl (values : List (List UInt8)) : Spoilt values values
  /-- Up to some frame they say what was sent; that one says a proper beginning. -/
  | cut {value start : List UInt8} (front back back' : List (List UInt8)) :
    start <+: value → start ≠ value → Spoilt (front ++ value :: back) (front ++ start :: back')

/-- If the terminator of the first frame is lost, too few zeros are left for as many frames. -/
theorem flatten_ne_of_lost {batch batch' : List (List UInt8)} {body rest : List UInt8} {byte : UInt8}
    (sent : ∀ bytes ∈ batch, ∃ frame, Whole bytes frame)
    (got : ∀ bytes ∈ batch', ∃ frame, Whole bytes frame)
    (length : batch'.length = batch.length + 1) (clean : 0 ∉ body) (other : byte ≠ 0) :
  batch'.flatten ++ rest ≠ body ++ byte :: batch.flatten
  := by
  intro same
  have zeros := congrArg (List.count 0) same
  rw [List.count_append, List.count_append, List.count_cons_of_ne other, count_zero_flatten sent,
    count_zero_flatten got, List.count_eq_zero.mpr clean] at zeros
  omega

/-- If the first of several frames with values is cut short, and as many frames with values are read,
then the first says a proper beginning of what was sent; or all that is cut off is read as a frame
without a value, so there were no others. -/
theorem spoilt_of_cut {front within rest bytes value value' : List UInt8} {byte : UInt8}
    {batch' : List (List UInt8)} {values values' : List (List UInt8)}
    (reads : decode (front ++ byte :: within ++ [0]) = .ok (.data value))
    (reads' : decode (front ++ [0]) = .ok (.data value'))
    (got : List.Forall₂ (fun bytes value => Whole bytes (.data value)) batch' values')
    (length : values'.length = values.length)
    (later : batch'.flatten ++ rest = within ++ 0 :: bytes) :
  Spoilt (value :: values) (value' :: values')
  := by
  obtain ⟨begins, single⟩ := isPrefix_of_cut reads reads'
  by_cases same : value' = value
  · subst same
    obtain rfl := single rfl
    cases got with
    | nil =>
      rw [List.length_nil, eq_comm, List.length_eq_zero_iff] at length
      subst length
      apply Spoilt.rfl
    | cons second _ =>
      obtain ⟨⟨body, rfl, clean⟩, -, reads''⟩ := second
      obtain ⟨rfl, -⟩ := eq_of_ends clean (List.not_mem_nil) (by simpa using later)
      rw [List.nil_append, whole_terminator.reads] at reads''
      cases reads''
  · apply Spoilt.cut [] values values' begins same

/-- If one byte of a stream of frames with values arrives changed, and as many frames with values
are read from what has arrived, then these say what was sent, up to one at most that says a proper
beginning. -/
theorem spoilt_of_changed {batch batch' : List (List UInt8)} {values values' : List (List UInt8)}
    {front back rest : List UInt8} {byte byte' : UInt8}
    (sent : List.Forall₂ (fun bytes value => Whole bytes (.data value)) batch values)
    (got : List.Forall₂ (fun bytes value => Whole bytes (.data value)) batch' values')
    (length : values'.length = values.length) (stream : batch.flatten = front ++ byte :: back)
    (other : byte' ≠ byte) (arrived : batch'.flatten ++ rest = front ++ byte' :: back) :
  Spoilt values values'
  := by
  induction sent generalizing batch' values' front rest with
  | nil => simp at stream
  | @cons bytes value batch values first others ih =>
    cases got with
    | nil => simp at length
    | @cons bytes' value' batch' values' first' others' =>
      rw [List.length_cons, List.length_cons, Nat.add_right_cancel_iff] at length
      obtain ⟨⟨body, rfl, clean⟩, fits, reads⟩ := first
      have lost (before : front = body) (zero : byte = 0) (after : back = batch.flatten) : False := by
        subst before zero after
        refine flatten_ne_of_lost (fun bytes member => exists_whole_of_forall₂ others member)
          (fun bytes member => exists_whole_of_forall₂ (.cons first' others') member) ?_ clean other
          arrived
        rw [List.length_cons, others'.length_eq, others.length_eq, length]
      obtain ⟨⟨body', rfl, clean'⟩, fits', reads'⟩ := first'
      rw [List.flatten_cons] at stream arrived
      simp only [List.append_assoc, List.cons_append, List.nil_append] at stream arrived
      rcases List.append_eq_append_iff.mp stream with ⟨behind, rfl, split⟩ | ⟨within, rfl, split⟩
      · cases behind with
        | nil =>
          obtain ⟨zero, after⟩ := List.cons.inj split
          apply (lost (List.append_nil body) zero.symm after.symm).elim
        | cons zero behind =>
          -- The first frame has arrived as it was sent.
          obtain ⟨rfl, split'⟩ := List.cons.inj split
          rw [List.append_assoc, List.cons_append] at arrived
          obtain ⟨rfl, later⟩ := eq_of_ends clean' clean arrived
          obtain rfl : value' = value := by
            rw [reads'] at reads
            cases reads
            rfl
          cases ih others' length split' later with
          | rfl => apply Spoilt.rfl
          | cut front back back' begins proper =>
            apply Spoilt.cut (_ :: front) back back' begins proper
      · cases within with
        | nil =>
          obtain ⟨zero, after⟩ := List.cons.inj split
          apply (lost (List.append_nil front).symm zero after).elim
        | cons b within =>
          obtain ⟨rfl, rfl⟩ := List.cons.inj split
          by_cases zero : byte' = 0
          · -- The first frame has been cut short.
            subst zero
            obtain ⟨rfl, later⟩ := eq_of_ends clean'
              (fun zero => clean (List.mem_append_left _ zero)) arrived
            apply spoilt_of_cut reads reads' others' length later
          · -- The sum of the first frame has changed.
            have clean'' : 0 ∉ front ++ byte' :: within := by
              simp only [List.mem_append, List.mem_cons, not_or] at clean ⊢
              exact ⟨clean.1, fun is => zero is.symm, clean.2.2⟩
            obtain ⟨rfl, -⟩ := eq_of_ends clean' clean''
              (arrived.trans (List.append_assoc front (byte' :: within) (0 :: batch.flatten)).symm)
            apply (decode_ne_data_of_changed reads other value' reads').elim

end Frame

end DaisyChain
