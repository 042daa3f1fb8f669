import DaisyChain.Frame

/-!
# Collecting frames

A collector takes the bytes of a stream one by one and says when a frame has ended.  It
holds at most `frameMax` bytes; one byte more is dropped together with all it holds.  The
byte after a finished frame opens the next one.

`room_feed_lt` says that the room left shrinks with every byte that does not end a frame,
so a frame ends or overflows after at most `frameMax + 1` bytes.
-/

namespace DaisyChain.Frame

/-- The bytes of the current frame, and whether its terminator has arrived. -/
structure Collector where
  bytes : List UInt8
  complete : Bool
  deriving DecidableEq, Repr

namespace Collector

/-- The collector that has seen nothing. -/
def start : Collector :=
  ⟨[], false⟩

instance : Inhabited Collector :=
  ⟨start⟩

/-- Forget a finished frame. -/
def reopen (c : Collector) : Collector :=
  if c.complete then start else c

/-- Take one byte: the answer is whether it ends the frame. -/
def feed (c : Collector) (b : UInt8) : Except Error Bool × Collector :=
  if c.reopen.bytes.length < frameMax then
    (.ok (b == 0), ⟨c.reopen.bytes ++ [b], b == 0⟩)
  else
    (.error .overflow, start)

/-- Take the given bytes in turn: the answers to each of them. -/
def feedAll (c : Collector) : List UInt8 → List (Except Error Bool) × Collector
  | [] => ([], c)
  | b :: rest =>
    let (answer, c') := c.feed b
    let (answers, c'') := c'.feedAll rest
    (answer :: answers, c'')

/-- Taking bytes in two batches is taking them in one. -/
theorem feedAll_append (c : Collector) (xs ys : List UInt8) :
  c.feedAll (xs ++ ys) =
    ((c.feedAll xs).1 ++ ((c.feedAll xs).2.feedAll ys).1, ((c.feedAll xs).2.feedAll ys).2)
  := by
  induction xs generalizing c with
  | nil => rfl
  | cons b rest ih => simp only [List.cons_append, feedAll, ih]

/-- Read the bytes held as a frame. -/
def decode (c : Collector) : Except Error Frame :=
  Frame.decode c.bytes

/-- The number of bytes after which the frame has ended or overflowed. -/
def room (c : Collector) : Nat :=
  if c.complete then frameMax + 1 else frameMax - c.bytes.length

/-- A byte that does not end the frame takes room away. -/
theorem room_feed_lt {c c' : Collector} {b : UInt8} (h : c.feed b = (.ok false, c')) :
  c'.room < c.room
  := by
  unfold feed at h
  split at h
  · next fits =>
    simp only [Prod.mk.injEq, Except.ok.injEq] at h
    obtain ⟨continues, rfl⟩ := h
    simp only [room, continues, Bool.false_eq_true, if_false, List.length_append,
      List.length_singleton]
    unfold reopen at fits ⊢
    split at fits
    · next finished =>
      simp only [finished, if_true, start, List.length_nil]
      omega
    · next unfinished =>
      simp only [unfinished, Bool.false_eq_true, if_false]
      omega
  · simp at h

end Collector

end DaisyChain.Frame
