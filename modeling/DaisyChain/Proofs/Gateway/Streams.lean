import DaisyChain.Gateway.Failure
import DaisyChain.Proofs.Frame.Whole
import Mathlib.Data.List.Forall2

/-!
# Frames of a stream

What frames there are in the bytes that arrive at a gateway, whatever these bytes are, if nothing
arrives behind them.  `Receives` says what becomes of the first frame and `Takes` what becomes of
the first frames up to a given number, until one of them stops the gateway.  Every stream is
accounted for (`exists_receives`, `exists_takes`), and no more of it is taken than the frames can
be long (`Takes.exists_taken`).
-/

namespace DaisyChain.Gateway

/-! ### One frame -/

/-- What comes of the first frame of a stream, the frame or a failure, and what is left of the
stream behind the bytes that have been taken. -/
inductive Receives : List UInt8 → Except Failure Frame → List UInt8 → Prop
  /-- The stream ends before the frame does. -/
  | cutOff {body : List UInt8} (clean : 0 ∉ body) (room : body.length ≤ frameMax) :
    Receives body (.error .timeout) []
  /-- The frame has not ended with its longest length, and one byte more is taken. -/
  | overlong {body : List UInt8} (clean : 0 ∉ body) (full : body.length = frameMax)
    (byte : UInt8) (rest : List UInt8) :
    Receives (body ++ byte :: rest) (.error .malformedFrame) rest
  /-- The frame has ended, but cannot be read. -/
  | refused {body : List UInt8} {error : Frame.Error} (clean : 0 ∉ body)
    (fits : body.length < frameMax) (fails : Frame.decode (body ++ [0]) = .error error)
    (rest : List UInt8) :
    Receives (body ++ 0 :: rest) (.error (.ofFrame error)) rest
  /-- The frame has ended and is read. -/
  | read {body : List UInt8} {frame : Frame} (clean : 0 ∉ body)
    (fits : body.length < frameMax) (reads : Frame.decode (body ++ [0]) = .ok frame)
    (rest : List UInt8) :
    Receives (body ++ 0 :: rest) (.ok frame) rest

variable {stream rest : List UInt8}

/-- A stream whose first frame does not end in time. -/
theorem exists_receives_overlong (clean : 0 ∉ stream.take frameMax)
    (long : frameMax < stream.length) :
  ∃ rest, Receives stream (.error .malformedFrame) rest
  := by
  have full : (stream.take frameMax).length = frameMax := by
    rw [List.length_take]
    omega
  have split := List.take_append_drop frameMax stream
  rw [List.drop_eq_getElem_cons long] at split
  rw [← split]
  exact ⟨_, .overlong clean full _ _⟩

/-- Something comes of the first frame of every stream. -/
theorem exists_receives (stream : List UInt8) :
  ∃ outcome rest, Receives stream outcome rest
  := by
  by_cases ends : 0 ∈ stream
  · obtain ⟨body, rest, rfl, clean⟩ := List.eq_append_cons_of_mem ends
    by_cases fits : body.length < frameMax
    · cases reads : Frame.decode (body ++ [0]) with
      | error error => exact ⟨_, _, .refused clean fits reads rest⟩
      | ok frame => exact ⟨_, _, .read clean fits reads rest⟩
    · have full := Nat.le_of_not_lt fits
      refine ⟨_, exists_receives_overlong ?_ ?_⟩
      · rw [List.take_append_of_le_length full]
        apply fun zero => clean (List.mem_of_mem_take zero)
      · rw [List.length_append, List.length_cons]
        omega
  · by_cases room : stream.length ≤ frameMax
    · exact ⟨_, _, .cutOff ends room⟩
    · refine ⟨_, exists_receives_overlong ?_ (Nat.lt_of_not_le room)⟩
      apply fun zero => ends (List.mem_of_mem_take zero)

/-- The bytes taken for a frame that is read are a whole frame. -/
theorem Receives.exists_whole {frame : Frame} (receives : Receives stream (.ok frame) rest) :
  ∃ bytes, stream = bytes ++ rest ∧ Frame.Whole bytes frame
  := by
  cases receives with
  | @read body _ clean fits reads =>
    refine ⟨body ++ [0], by simp, ⟨body, rfl, clean⟩, ?_, reads⟩
    rw [List.length_append, List.length_singleton]
    apply fits

/-- A whole frame is read. -/
theorem Receives.of_whole {bytes : List UInt8} {frame : Frame} (whole : Frame.Whole bytes frame)
    (rest : List UInt8) :
  Receives (bytes ++ rest) (.ok frame) rest
  := by
  obtain ⟨⟨body, rfl, clean⟩, fits, reads⟩ := whole
  rw [List.length_append, List.length_singleton] at fits
  rw [List.append_assoc]
  apply Receives.read clean fits reads

/-- No more is taken for a frame than its longest length and one byte. -/
theorem Receives.exists_taken {outcome : Except Failure Frame}
    (receives : Receives stream outcome rest) :
  ∃ taken, stream = taken ++ rest ∧ taken.length ≤ frameMax + 1
  := by
  cases receives with
  | cutOff clean room => exact ⟨stream, by simp, Nat.le_succ_of_le room⟩
  | @overlong body clean full byte =>
    refine ⟨body ++ [byte], by simp, ?_⟩
    rw [List.length_append, List.length_singleton]
    omega
  | @refused body _ clean fits fails =>
    refine ⟨body ++ [0], by simp, ?_⟩
    rw [List.length_append, List.length_singleton]
    omega
  | @read body _ clean fits reads =>
    refine ⟨body ++ [0], by simp, ?_⟩
    rw [List.length_append, List.length_singleton]
    omega

/-! ### Frames one after another -/

/-- The frames that are taken from a stream one after another, up to the given number of them; the
failure that stopped this, if one has; and what is left of the stream.  A placeholder stops it just
as a frame that cannot be had. -/
inductive Takes : Nat → List UInt8 → List Frame → Option Failure → List UInt8 → Prop
  /-- All frames have been taken. -/
  | done (stream : List UInt8) : Takes 0 stream [] none stream
  /-- One frame is taken, and others after it. -/
  | next {count : Nat} {stream rest rest' : List UInt8} {frame : Frame} {frames : List Frame}
    {stop : Option Failure} (first : Receives stream (.ok frame) rest)
    (goes : frame ≠ .placeholder) (others : Takes count rest frames stop rest') :
    Takes (count + 1) stream (frame :: frames) stop rest'
  /-- No node sends a placeholder. -/
  | placeholder {count : Nat} {stream rest : List UInt8}
    (first : Receives stream (.ok .placeholder) rest) :
    Takes (count + 1) stream [] (some .checksumMismatch) rest
  /-- The next frame cannot be had. -/
  | fails {count : Nat} {stream rest : List UInt8} {failure : Failure}
    (first : Receives stream (.error failure) rest) :
    Takes (count + 1) stream [] (some failure) rest

variable {count : Nat} {frames : List Frame} {stop : Option Failure}

/-- Frames can be taken from every stream until all are taken or one stops this. -/
theorem exists_takes (count : Nat) (stream : List UInt8) :
  ∃ frames stop rest, Takes count stream frames stop rest
  := by
  induction count generalizing stream with
  | zero => exact ⟨_, _, _, .done stream⟩
  | succ count ih =>
    obtain ⟨outcome, rest, first⟩ := exists_receives stream
    cases outcome with
    | error failure => exact ⟨_, _, _, .fails first⟩
    | ok frame =>
      obtain ⟨frames, stop, rest', others⟩ := ih rest
      cases frame with
      | placeholder => exact ⟨_, _, _, .placeholder first⟩
      | empty => exact ⟨_, _, _, .next first (by simp) others⟩
      | data data => exact ⟨_, _, _, .next first (by simp) others⟩

/-- No placeholder is taken. -/
theorem Takes.ne_placeholder (takes : Takes count stream frames stop rest) :
  ∀ frame ∈ frames, frame ≠ .placeholder
  := by
  induction takes with
  | next _ goes _ ih => exact List.forall_mem_cons.mpr ⟨goes, ih⟩
  | done | placeholder | fails => simp

/-- If nothing has stopped the gateway, all frames have been taken, and each was a whole frame. -/
theorem Takes.exists_batch (takes : Takes count stream frames none rest) :
  ∃ batch : List (List UInt8), stream = batch.flatten ++ rest ∧
    List.Forall₂ Frame.Whole batch frames ∧ frames.length = count
  := by
  generalize untroubled : (none : Option Failure) = stop at takes
  induction takes with
  | done => exact ⟨[], rfl, .nil, rfl⟩
  | next first _ _ ih =>
    obtain ⟨bytes, rfl, whole⟩ := first.exists_whole
    obtain ⟨batch, rfl, all, length⟩ := ih untroubled
    refine ⟨bytes :: batch, ?_, .cons whole all, congrArg Nat.succ length⟩
    rw [List.flatten_cons, List.append_assoc]
  | placeholder | fails => cases untroubled

/-- Whole frames are taken if none of them is a placeholder. -/
theorem Takes.of_whole {batch : List (List UInt8)}
    (whole : List.Forall₂ Frame.Whole batch frames)
    (values : ∀ frame ∈ frames, frame ≠ .placeholder) (rest : List UInt8) :
  Takes frames.length (batch.flatten ++ rest) frames none rest
  := by
  induction whole with
  | nil => exact .done rest
  | cons first _ ih =>
    rw [List.forall_mem_cons] at values
    rw [List.flatten_cons, List.append_assoc]
    exact .next (.of_whole first _) values.1 (ih values.2)

/-- No more bytes are taken than so many frames are long, and one byte. -/
theorem Takes.exists_taken (takes : Takes count stream frames stop rest) :
  ∃ taken, stream = taken ++ rest ∧ taken.length ≤ count * frameMax + 1
  := by
  have enough (count : Nat) : frameMax + 1 ≤ (count + 1) * frameMax + 1 := by
    rw [Nat.add_mul]
    omega
  induction takes with
  | done stream => exact ⟨[], rfl, Nat.zero_le _⟩
  | next first _ _ ih =>
    obtain ⟨bytes, rfl, -, fits, -⟩ := first.exists_whole
    obtain ⟨taken, rfl, few⟩ := ih
    refine ⟨bytes ++ taken, (List.append_assoc _ _ _).symm, ?_⟩
    rw [List.length_append, Nat.add_mul]
    omega
  | @placeholder count _ _ first | @fails count _ _ _ first =>
    obtain ⟨taken, split, few⟩ := first.exists_taken
    exact ⟨taken, split, Nat.le_trans few (enough count)⟩

end DaisyChain.Gateway
