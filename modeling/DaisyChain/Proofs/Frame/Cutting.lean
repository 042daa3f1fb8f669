import DaisyChain.Proofs.Frame.Whole
import Mathlib.Data.List.Basic
import Mathlib.Data.List.Induction

/-!
# Cutting a stream into frames

A collector is fed the bytes of a stream, and may be reset at any time.  Its answers tell where it
stands: what it holds are the bytes that have come since the last reset, the last end of a frame or the
last overflow (`Recent`), and nothing else moves it from its place in the stream (`cuts_after`).

So it does not drift.  Behind a reset, a frame or an overflow, all depends on where the zeros of the
following bytes are (`reopen_after_run`).  If these bytes are frames in a row, each of them ends where it
ends; and as long as none ends, the collector overflows at regular intervals (`cuts_streams`).
-/

namespace DaisyChain.Frame.Collector

/-! ### Moves -/

/-- What is done to a collector. -/
inductive Move where
  | feed (b : UInt8)
  | reset
  deriving DecidableEq, Repr

/-- What a move makes of a collector. -/
def move (c : Collector) : Move → Collector
  | .feed b => (c.feed b).2
  | .reset => start

/-- What the given moves make of a new collector. -/
def after (moves : List Move) : Collector :=
  moves.foldl move start

/-- The answer to a byte that is fed after the given moves. -/
def answer (past : List Move) (b : UInt8) : Except Error Bool :=
  ((after past).feed b).1

/-- The given moves, and then some bytes that are fed. -/
def fed (past : List Move) (bytes : List UInt8) : List Move :=
  past ++ bytes.map .feed

variable {past : List Move} {bytes front : List UInt8} {b : UInt8}

/-- A byte is the last one, or comes before it. -/
theorem cases_of_concat {last : UInt8} {back : List UInt8}
    (is : bytes ++ [last] = front ++ b :: back) :
  (back = [] ∧ bytes = front ∧ last = b) ∨
    ∃ back', back = back' ++ [last] ∧ bytes = front ++ b :: back'
  := by
  rcases List.eq_nil_or_concat' back with rfl | ⟨back', last', rfl⟩
  · obtain ⟨same, ends⟩ := List.append_inj' is rfl
    cases ends
    exact .inl ⟨rfl, same, rfl⟩
  · rw [← List.cons_append, ← List.append_assoc] at is
    obtain ⟨same, ends⟩ := List.append_inj' is rfl
    cases ends
    exact .inr ⟨back', rfl, same⟩

/-- The last move comes after all others. -/
theorem after_concat (past : List Move) (m : Move) :
  after (past ++ [m]) = (after past).move m
  := by
  rw [after, List.foldl_append]
  rfl

/-- The last byte is fed after all others. -/
theorem fed_concat (past : List Move) (bytes : List UInt8) (b : UInt8) :
  fed past (bytes ++ [b]) = fed past bytes ++ [.feed b]
  := by rw [fed, fed, List.map_append, List.append_assoc, List.map_singleton]

/-- Bytes may be fed in two batches. -/
theorem fed_append (past : List Move) (xs ys : List UInt8) :
  fed past (xs ++ ys) = fed (fed past xs) ys
  := by rw [fed, fed, fed, List.map_append, List.append_assoc]

/-- A byte is taken as long as there is room. -/
theorem feed_of_room {c : Collector} (room : c.reopen.bytes.length < frameMax) (b : UInt8) :
  c.feed b = (.ok (b == 0), ⟨c.reopen.bytes ++ [b], b == 0⟩)
  := if_pos room

/-- A byte for which there is no room is dropped, whatever it is, and so are all those held. -/
theorem feed_of_full {c : Collector} (full : frameMax ≤ c.reopen.bytes.length) (b : UInt8) :
  c.feed b = (.error .overflow, start)
  := if_neg (Nat.not_lt.mpr full)

/-! ### The most recent bytes -/

/-- Nothing has been done yet, or the last move was a reset or an overflow. -/
inductive Emptied : List Move → Prop where
  | new : Emptied []
  | reset (past : List Move) : Emptied (past ++ [.reset])
  | overflowed {past : List Move} {b : UInt8} (refused : answer past b = .error .overflow) :
    Emptied (past ++ [.feed b])

/-- The byte fed last was the end of a frame. -/
inductive Ended : List Move → Prop where
  | terminated {past : List Move} {b : UInt8} (ends : answer past b = .ok true) :
    Ended (past ++ [.feed b])

/-- The given bytes were fed last, after the last reset, end of a frame or overflow.  The end of a frame
counts from the next byte on; until then, these are the bytes of the frame. -/
structure Recent (past : List Move) (bytes : List UInt8) (before : List Move) : Prop where
  split : past = fed before bytes
  opens : Emptied before ∨ Ended before ∧ bytes ≠ []
  taken : ∀ front b back, bytes = front ++ b :: back →
    ∃ ends, answer (fed before front) b = .ok ends ∧ (ends = true → back = [])

/-- A collector holds the most recent bytes, which are not more than a frame has.  None of them is zero
but the last one, and only if the last one is zero, a frame is complete. -/
structure Cuts (past : List Move) : Prop where
  recent : ∃ before, Recent past (after past).bytes before
  fits : (after past).bytes.length ≤ frameMax
  clean : 0 ∉ (after past).bytes.dropLast
  complete : (after past).complete = true ↔ (after past).bytes.getLast? = some 0

/-- A byte completes a frame if that is the answer to it. -/
theorem complete_feed_iff :
  (after (past ++ [.feed b])).complete = true ↔ answer past b = .ok true
  := by
  rw [after_concat, move, answer]
  by_cases room : (after past).reopen.bytes.length < frameMax
  · rw [feed_of_room room]
    simp
  · rw [feed_of_full (Nat.not_lt.mp room)]
    simp [start]

/-- A frame is complete if the byte fed last was its end. -/
theorem complete_iff_ended :
  (after past).complete = true ↔ Ended past
  := by
  constructor
  · intro complete
    rcases List.eq_nil_or_concat' past with rfl | ⟨front, m, rfl⟩
    · contradiction
    · cases m with
      | feed b => exact .terminated (complete_feed_iff.mp complete)
      | reset =>
        rw [after_concat] at complete
        contradiction
  · rintro ⟨ends⟩
    exact complete_feed_iff.mpr ends

/-- Nothing is held that has not been taken. -/
theorem Emptied.after_eq (emptied : Emptied past) :
  after past = start
  := by
  cases emptied with
  | new => rfl
  | reset front => rw [after_concat, move]
  | @overflowed front b refused =>
    rw [after_concat, move]
    rw [answer] at refused
    by_cases room : (after front).reopen.bytes.length < frameMax
    · rw [feed_of_room room] at refused
      contradiction
    · rw [feed_of_full (Nat.not_lt.mp room)]

/-- A collector that holds nothing cuts the stream where it stands. -/
theorem Emptied.cuts (emptied : Emptied past) :
  Cuts past
  := by
  have is := emptied.after_eq
  refine ⟨⟨past, ?_⟩, ?_, ?_, ?_⟩
  · rw [is]
    exact ⟨by simp [fed, start], .inl emptied, by simp [start]⟩
  all_goals simp [is, start]

/-- As long as no frame is complete, nothing that is held is zero. -/
theorem Cuts.notMem_of_open (cuts : Cuts past) (unfinished : ¬(after past).complete = true) :
  0 ∉ (after past).bytes
  := by
  have clean := cuts.clean
  rw [cuts.complete] at unfinished
  rcases List.eq_nil_or_concat' (after past).bytes with none | ⟨front, last, is⟩
  · rw [none]
    exact List.not_mem_nil
  · rw [is] at clean unfinished ⊢
    rw [List.dropLast_concat] at clean
    rw [List.getLast?_concat, Option.some_inj] at unfinished
    rw [List.mem_append, List.mem_singleton, not_or]
    exact ⟨clean, Ne.symm unfinished⟩

/-- A byte that is taken behind the end of a frame is the only recent one. -/
theorem recent_of_ended (ended : Ended past) {ends : Bool} (taken : answer past b = .ok ends) :
  Recent (past ++ [.feed b]) [b] past
  := by
  refine ⟨rfl, .inr ⟨ended, by simp⟩, fun front b' back is => ?_⟩
  obtain ⟨rfl, rfl, rfl⟩ : front = [] ∧ b' = b ∧ back = [] := by
    cases front <;> simp_all
  exact ⟨ends, by simpa [fed] using taken, fun _ => rfl⟩

/-- A byte that is taken within a frame is one more of the recent ones. -/
theorem Recent.concat {before : List Move} (recent : Recent past bytes before) (goes : ¬Ended past)
    {ends : Bool} (taken : answer past b = .ok ends) :
  Recent (past ++ [.feed b]) (bytes ++ [b]) before
  := by
  refine ⟨?_, ?_, fun front b' back is => ?_⟩
  · rw [fed_concat, ← recent.split]
  · rcases recent.opens with emptied | ⟨ended, -⟩
    · exact .inl emptied
    · exact .inr ⟨ended, by simp⟩
  · rcases cases_of_concat is with ⟨rfl, rfl, rfl⟩ | ⟨back, rfl, rfl⟩
    · exact ⟨ends, by rw [← recent.split, taken], fun _ => rfl⟩
    · obtain ⟨ends', answered, only⟩ := recent.taken front b' back rfl
      refine ⟨ends', answered, fun ended => (goes ?_).elim⟩
      -- The byte before would have been the end of a frame.
      rw [recent.split, only ended, fed_concat]
      exact .terminated (by rw [answered, ended])

/-- What holds of a collector holds of it when one more byte has come. -/
theorem Cuts.feed (cuts : Cuts past) (b : UInt8) :
  Cuts (past ++ [.feed b])
  := by
  have next : after (past ++ [.feed b]) = ((after past).feed b).2 := after_concat past (.feed b)
  by_cases room : (after past).reopen.bytes.length < frameMax
  · have answered : answer past b = .ok (b == 0) := by rw [answer, feed_of_room room]
    rw [feed_of_room room] at next
    by_cases complete : (after past).complete = true
    · rw [reopen, if_pos complete] at next
      refine ⟨⟨past, ?_⟩, ?_, ?_, ?_⟩
      · rw [next]
        apply recent_of_ended (complete_iff_ended.mp complete) answered
      all_goals simp [next, start, frameMax, Stuffing.maxLength]
    · obtain ⟨before, recent⟩ := cuts.recent
      have clean := cuts.notMem_of_open complete
      rw [reopen, if_neg complete] at next room
      refine ⟨⟨before, ?_⟩, ?_, ?_, ?_⟩
      · rw [next]
        apply recent.concat (complete_iff_ended.not.mp complete) answered
      · rw [next, List.length_append, List.length_singleton]
        exact room
      · rw [next, List.dropLast_concat]
        exact clean
      · simp [next]
  · rw [feed_of_full (Nat.not_lt.mp room)] at next
    exact (Emptied.overflowed (by rw [answer, feed_of_full (Nat.not_lt.mp room)])).cuts

/-- A collector cuts the stream where it stands, however it has been fed and reset. -/
theorem cuts_after (past : List Move) :
  Cuts past
  := by
  induction past using List.reverseRecOn with
  | nil => exact Emptied.new.cuts
  | append_singleton front m ih =>
    cases m with
    | feed b => exact ih.feed b
    | reset => exact (Emptied.reset front).cuts

/-! ### Streams -/

/-- The next byte is the first one of a frame. -/
def Opens (past : List Move) : Prop :=
  Emptied past ∨ Ended past

/-- The next byte is put into an empty collector. -/
theorem Opens.reopen_eq (opens : Opens past) :
  (after past).reopen = start
  := by
  rcases opens with emptied | ended
  · rw [emptied.after_eq]
    rfl
  · rw [reopen, if_pos (complete_iff_ended.mpr ended)]

/-- Zeros come at such places only that a collector is full there if no frame has ended before. -/
def Sparse (bytes : List UInt8) : Prop :=
  ∀ front back, bytes = front ++ 0 :: back → frameMax + 1 ∣ front.length + 1

/-- What comes before other bytes is as sparse. -/
theorem Sparse.of_append {more : List UInt8} (sparse : Sparse (bytes ++ more)) :
  Sparse bytes
  := by
  rintro front back rfl
  apply sparse front (back ++ more)
  rw [List.append_assoc, List.cons_append]

/-- How far a collector is filled by the given number of bytes, if it overflows whenever it is full. -/
theorem filled_succ (count : Nat) :
  if frameMax + 1 ∣ count + 1 then
    count % (frameMax + 1) = frameMax
  else
    count % (frameMax + 1) < frameMax ∧ (count + 1) % (frameMax + 1) = count % (frameMax + 1) + 1
  := by
  have max : frameMax = 258 := rfl
  rw [max]
  split <;> omega

/-- Where the collector stands in a run of bytes among which no frame ends: it holds those that have
come since it was full the last time. -/
theorem reopen_after_run (opens : Opens past) (sparse : Sparse bytes) :
  (after (fed past bytes)).reopen =
    ⟨bytes.drop (bytes.length - bytes.length % (frameMax + 1)), false⟩
  := by
  induction bytes using List.reverseRecOn with
  | nil => simpa [fed, start] using opens.reopen_eq
  | append_singleton front b ih =>
    have held := ih sparse.of_append
    have length : (after (fed past front)).reopen.bytes.length = front.length % (frameMax + 1) := by
      rw [held, List.length_drop, Nat.sub_sub_self (Nat.mod_le _ _)]
    have filled := filled_succ front.length
    rw [fed_concat, after_concat, move, List.length_append, List.length_singleton]
    split at filled
    · next full =>
      rw [feed_of_full (Nat.le_of_eq (length.trans filled).symm), Nat.mod_eq_zero_of_dvd full, Nat.sub_zero,
        ← List.length_singleton, ← List.length_append, List.drop_length]
      rfl
    · next room =>
      have other : (b == 0) = false := by
        apply beq_false_of_ne
        rintro rfl
        exact room (sparse front [] rfl)
      rw [feed_of_room (by rw [length]; exact filled.1), other, held, filled.2,
        Nat.add_sub_add_right, List.drop_append_of_le_length (Nat.sub_le _ _)]
      rfl

/-- The next byte in a run of bytes among which no frame ends: it is dropped if the collector is full,
and taken otherwise. -/
theorem feed_after_run (opens : Opens past) (sparse : Sparse bytes) (b : UInt8) :
  if frameMax + 1 ∣ bytes.length + 1 then
    answer (fed past bytes) b = .error .overflow ∧ after (fed past (bytes ++ [b])) = start
  else
    answer (fed past bytes) b = .ok (b == 0)
  := by
  have length : (after (fed past bytes)).reopen.bytes.length = bytes.length % (frameMax + 1) := by
    rw [reopen_after_run opens sparse, List.length_drop, Nat.sub_sub_self (Nat.mod_le _ _)]
  have filled := filled_succ bytes.length
  split
  · next full =>
    rw [if_pos full] at filled
    have refused := feed_of_full (Nat.le_of_eq (length.trans filled).symm) b
    rw [answer, fed_concat, after_concat, move, refused]
    exact ⟨rfl, rfl⟩
  · next room =>
    rw [if_neg room] at filled
    rw [answer, feed_of_room (by rw [length]; exact filled.1)]

/-- No frame ends among the given bytes, fed after the given moves. -/
def Endless (past : List Move) (bytes : List UInt8) : Prop :=
  ∀ begun b rest, bytes = begun ++ b :: rest → answer (fed past begun) b ≠ .ok true

/-- No frame ends exactly if zeros come at no other places than where the collector is full. -/
theorem endless_iff_sparse (opens : Opens past) :
  Endless past bytes ↔ Sparse bytes
  := by
  constructor
  · intro endless
    induction bytes using List.reverseRecOn with
    | nil =>
      intro begun rest is
      simp at is
    | append_singleton front last ih =>
      have sparse : Sparse front := ih fun begun b rest is =>
        endless begun b (rest ++ [last]) (by rw [is, List.append_assoc, List.cons_append])
      intro begun rest is
      rcases cases_of_concat is with ⟨rfl, rfl, rfl⟩ | ⟨rest, rfl, rfl⟩
      · have next := feed_after_run opens sparse 0
        split at next
        · assumption
        · exact (endless front 0 [] rfl next).elim
      · apply sparse begun rest rfl
  · rintro sparse begun b rest rfl ends
    have next := feed_after_run opens sparse.of_append b
    split at next
    · rw [next.1] at ends
      contradiction
    · next room =>
      rw [next, Except.ok.injEq, beq_iff_eq] at ends
      subst ends
      exact room (sparse begun rest rfl)

/-! ### Frames in a row -/

/-- A part of a stream that ends with its only zero, and fits a collector. -/
structure Segment (bytes : List UInt8) : Prop where
  ends : ∃ body, bytes = body ++ [0] ∧ 0 ∉ body
  fits : bytes.length ≤ frameMax

/-- There is no zero before a byte of a segment, and the byte is zero only if it is the last one. -/
theorem Segment.zero_iff {begun rest : List UInt8} (segment : Segment (begun ++ b :: rest)) :
  0 ∉ begun ∧ (b = 0 ↔ rest = [])
  := by
  obtain ⟨body, is, clean⟩ := segment.ends
  rcases cases_of_concat is.symm with ⟨rfl, rfl, rfl⟩ | ⟨rest, rfl, rfl⟩
  · exact ⟨clean, by simp⟩
  · rw [List.mem_append, List.mem_cons, not_or, not_or] at clean
    exact ⟨clean.1, by simp [Ne.symm clean.2.1]⟩

/-- Bytes without a zero are sparse. -/
theorem sparse_of_clean (clean : 0 ∉ bytes) :
  Sparse bytes
  := by
  rintro front back rfl
  simp at clean

/-- A byte of a segment ends a frame if it is the last one. -/
theorem Segment.answer_eq {begun rest : List UInt8} (segment : Segment (begun ++ b :: rest))
    (opens : Opens past) :
  answer (fed past begun) b = .ok (decide (rest = []))
  := by
  obtain ⟨clean, ends⟩ := segment.zero_iff
  have next := feed_after_run opens (sparse_of_clean clean) b
  have fits := segment.fits
  rw [List.length_append, List.length_cons] at fits
  have early : ¬frameMax + 1 ∣ begun.length + 1 := by
    apply Nat.not_dvd_of_pos_of_lt (Nat.succ_pos _)
    omega
  rw [if_neg early] at next
  rw [next, beq_eq_decide, decide_eq_decide.mpr ends]

/-- A segment is held as a complete frame. -/
theorem Segment.after_eq (segment : Segment bytes) (opens : Opens past) :
  after (fed past bytes) = ⟨bytes, true⟩
  := by
  obtain ⟨body, rfl, clean⟩ := segment.ends
  have fits := segment.fits
  rw [List.length_append, List.length_singleton] at fits
  have held := reopen_after_run opens (sparse_of_clean clean)
  rw [Nat.mod_eq_of_lt (by omega), Nat.sub_self, List.drop_zero] at held
  rw [fed_concat, after_concat, move, feed_of_room (by rw [held]; exact fits), held]
  rfl

/-- Behind segments, the next byte is the first one of a frame. -/
theorem opens_of_segments {segments : List (List UInt8)} (opens : Opens past)
    (all : ∀ s ∈ segments, Segment s) :
  Opens (fed past segments.flatten)
  := by
  induction segments generalizing past with
  | nil => simpa [fed] using opens
  | cons s rest ih =>
    rw [List.flatten_cons, fed_append]
    apply ih _ fun s' member => all s' (List.mem_cons_of_mem _ member)
    refine .inr (complete_iff_ended.mp ?_)
    rw [(all s List.mem_cons_self).after_eq opens]

/-! ### Streams are cut correctly -/

/-- However it has been fed and reset, a collector holds the most recent bytes.  Where a frame may begin,
it finds the end of each segment that follows, holds just this segment then, and finds no end elsewhere;
and as long as no frame ends, it overflows with the byte behind as many as it can hold, whatever that
byte is, and holds nothing then. -/
theorem cuts_streams (past : List Move) :
  Cuts past ∧
  (Opens past →
    (∀ segments : List (List UInt8), (∀ s ∈ segments, Segment s) →
      ∀ front s back, segments = front ++ s :: back →
        (∀ begun b rest, s = begun ++ b :: rest →
          answer (fed past (front.flatten ++ begun)) b = .ok (decide (rest = []))) ∧
        after (fed past (front.flatten ++ s)) = ⟨s, true⟩) ∧
    ∀ run, (Endless past run ↔ Sparse run) ∧
      (Endless past run → ∀ begun b rest, run = begun ++ b :: rest →
        if frameMax + 1 ∣ begun.length + 1 then
          answer (fed past begun) b = .error .overflow ∧ after (fed past (begun ++ [b])) = start
        else
          answer (fed past begun) b = .ok false))
  := by
  refine ⟨cuts_after past, fun opens => ⟨?_, fun run => ⟨endless_iff_sparse opens, ?_⟩⟩⟩
  · rintro segments all front s back rfl
    have segment : Segment s := all s (by simp)
    have opens' : Opens (fed past front.flatten) :=
      opens_of_segments opens fun s' member => all s' (List.mem_append_left _ member)
    constructor
    · rintro begun b rest rfl
      rw [fed_append]
      apply segment.answer_eq opens'
    · rw [fed_append]
      apply segment.after_eq opens'
  · rintro endless begun b rest rfl
    have sparse := ((endless_iff_sparse opens).mp endless).of_append
    have fed := feed_after_run opens sparse b
    have goes := endless begun b rest rfl
    split
    · next full =>
      rw [if_pos full] at fed
      exact fed
    · next room =>
      rw [if_neg room] at fed
      rw [fed, ne_eq, Except.ok.injEq, Bool.not_eq_true] at goes
      rw [fed, goes]

/-- After a reset within a frame: two segments, the first of which is a lone zero; and a run whose only
zero comes when the collector is full, and is dropped. -/
theorem cuts_streams_dropped :
  let past : List Move := [.feed 5, .reset]
  let ones : List UInt8 := List.replicate 258 1
  Opens past ∧ (∀ s ∈ [[0], [7, 0]], Segment s) ∧ answer (fed past ([0] ++ [7])) 0 = .ok true ∧
    after (fed past ([0] ++ [7, 0])) = ⟨[7, 0], true⟩ ∧ Endless past (ones ++ [0]) ∧
    answer (fed past ones) 0 = .error .overflow ∧ after (fed past (ones ++ [0])) = start
  := by
  intro past ones
  have opens : Opens past := .inl (.reset [.feed 5])
  have segments : ∀ s ∈ [[0], [7, 0]], Segment s := by
    intro s member
    rw [List.mem_pair] at member
    rcases member with rfl | rfl
    · exact ⟨⟨[], rfl, by decide⟩, by decide⟩
    · exact ⟨⟨[7], rfl, by decide⟩, by decide⟩
  have count : ones.length = frameMax := by decide +kernel
  have clean : 0 ∉ ones := fun zero => absurd (List.eq_of_mem_replicate zero) (by decide)
  clear_value ones
  have full : frameMax + 1 ∣ ones.length + 1 := by simp [count]
  have sparse : Sparse (ones ++ [0]) := by
    intro front back is
    rcases cases_of_concat is with ⟨-, rfl, -⟩ | ⟨_, -, rfl⟩
    · exact full
    · simp at clean
  obtain ⟨-, cut⟩ := cuts_streams past
  obtain ⟨frames, runs⟩ := cut opens
  obtain ⟨ends, holds⟩ := frames _ segments [[0]] [7, 0] [] rfl
  have endless := (runs (ones ++ [0])).1.mpr sparse
  have dropped := (runs (ones ++ [0])).2 endless ones 0 [] rfl
  rw [if_pos full] at dropped
  exact ⟨opens, segments, ends [7] 0 [] rfl, holds, endless, dropped⟩

end DaisyChain.Frame.Collector
