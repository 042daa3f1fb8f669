/-!
# Links

A link carries bytes one way, in order.  It may be disturbed: a disturbance lets some bytes
pass and then changes one byte, or loses it.  A link accepts any number of bytes, but a
sender that asks finds room for `capacity` bytes only.

`pushAll_append` says that pushing two batches in turn is pushing them as one, and
`queue_push` and `queue_pushAll` what a link without disturbances holds afterwards.
-/

namespace DaisyChain

/-- Something that happens once to a byte of a link: after `skip` bytes, the next one is
changed by `mask`, or lost. -/
structure Disturbance where
  skip : Nat
  mask : Option UInt8
  deriving DecidableEq, Repr

/-- What becomes of a byte, which may be lost already, and of the disturbances it meets. -/
def Disturbance.apply : List Disturbance → Option UInt8 → Option UInt8 × List Disturbance
  | [], b => (b, [])
  | d :: rest, b =>
    if d.skip = 0 then
      apply rest (b.bind fun b => d.mask.map fun mask => b ^^^ mask)
    else
      let (b', rest') := apply rest b
      (b', { d with skip := d.skip - 1 } :: rest')

/-- A wire that holds bytes until they are read. -/
structure Link where
  queue : List UInt8 := []
  /-- The number of bytes pushed so far, those lost included. -/
  pushed : Nat := 0
  disturbances : List Disturbance := []
  /-- How many bytes a sender that asks for room may have waiting. -/
  capacity : Nat := 1024
  deriving DecidableEq, Repr

namespace Link

/-- The number of bytes for which there is room. -/
def room (l : Link) : Nat :=
  l.capacity - l.queue.length

/-- Send one byte. -/
def push (l : Link) (b : UInt8) : Link :=
  let (b', disturbances) := Disturbance.apply l.disturbances (some b)
  { l with queue := l.queue ++ b'.toList, pushed := l.pushed + 1, disturbances := disturbances }

/-- Send the given bytes in turn. -/
def pushAll (l : Link) (bytes : List UInt8) : Link :=
  bytes.foldl push l

/-- Drop the given number of bytes from the front. -/
def drop (l : Link) (n : Nat) : Link :=
  { l with queue := l.queue.drop n }

/-- Drop all bytes. -/
def clear (l : Link) : Link :=
  { l with queue := [] }

/-- Two batches in turn are one. -/
theorem pushAll_append (l : Link) (xs ys : List UInt8) :
  l.pushAll (xs ++ ys) = (l.pushAll xs).pushAll ys
  := List.foldl_append

/-- A byte sent undisturbed arrives last. -/
theorem queue_push {l : Link} (h : l.disturbances = []) (b : UInt8) :
  (l.push b).queue = l.queue ++ [b]
  := by
  simp [push, h, Disturbance.apply]

/-- Sending brings no disturbance about. -/
theorem disturbances_push {l : Link} (h : l.disturbances = []) (b : UInt8) :
  (l.push b).disturbances = []
  := by
  simp [push, h, Disturbance.apply]

/-- Bytes sent undisturbed arrive last, and in order. -/
theorem queue_pushAll {l : Link} (h : l.disturbances = []) (bytes : List UInt8) :
  (l.pushAll bytes).queue = l.queue ++ bytes
  := by
  induction bytes generalizing l with
  | nil => simp [pushAll]
  | cons b rest ih =>
    have := ih (disturbances_push h b)
    rw [pushAll] at this ⊢
    rw [List.foldl_cons, this, queue_push h]
    simp

/-- A byte sent adds at most itself to the queue. -/
theorem length_queue_push_le (l : Link) (b : UInt8) :
  (l.push b).queue.length ≤ l.queue.length + 1
  := by
  unfold push
  cases h : Disturbance.apply l.disturbances (some b) with
  | mk b' rest =>
    cases b' <;> simp

/-- Bytes sent add at most themselves to the queue. -/
theorem length_queue_pushAll_le (l : Link) (bytes : List UInt8) :
  (l.pushAll bytes).queue.length ≤ l.queue.length + bytes.length
  := by
  induction bytes generalizing l with
  | nil => simp [pushAll]
  | cons b rest ih =>
    have first := l.length_queue_push_le b
    have others := ih (l.push b)
    simp only [pushAll, List.foldl_cons, List.length_cons] at others ⊢
    omega

end Link

end DaisyChain
