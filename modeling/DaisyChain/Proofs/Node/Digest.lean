import DaisyChain.Node.Station

/-!
# What a node makes of a stream

A tick moves as many bytes as there is room for and stops anywhere.  What a node makes of a
stream in the end does not depend on where it stops: `Body.digest` is the node after a stream
and all that it sends meanwhile, if nothing ever hinders it and no time passes.

`Body.digest_append` says that a stream may come in two parts.  `Engine.Fresh` says that no
phase of a node has run out of time.
-/

namespace DaisyChain.Node

/-! ### Engines without a clock -/

namespace Engine

/-- The engine with its clock put to zero. -/
def timeless (e : Engine) : Engine :=
  { e with since := 0 }

@[simp]
theorem phase_timeless (e : Engine) :
  e.timeless.phase = e.phase
  := rfl

@[simp]
theorem record_timeless (e : Engine) :
  e.timeless.record = e.record
  := rfl

@[simp]
theorem timeless_enter (e : Engine) (phase : Phase) (now : UInt32) :
  (e.enter phase now).timeless = e.timeless.enter phase 0
  := rfl

@[simp]
theorem timeless_stage (e : Engine) (slot : Slot) :
  (e.stage slot).timeless = e.timeless.stage slot
  := by
  obtain ⟨phase, since, staged, record⟩ := e
  simp only [stage, timeless]
  by_cases older : (staged.any fun held => held.property == slot.property) = true
  · simp only [older, if_true]
  · by_cases room : staged.length < slotsMax
    · simp only [older, room, if_true, Bool.false_eq_true, if_false]
    · simp only [older, room, Bool.false_eq_true, if_false]
      rfl

/-- What an engine hears does not depend on its clock. -/
theorem hear_timeless (e : Engine) (heard : Heard) (byte : UInt8) (now : UInt32) :
  (e.hear heard byte now).1.timeless = (e.timeless.hear heard byte 0).1 ∧
    (e.hear heard byte now).2 = (e.timeless.hear heard byte 0).2
  := by
  cases heard with
  | nothing =>
    simp only [hear]
    split
    · unfold hearSync
      split
      · exact ⟨rfl, rfl⟩
      · exact ⟨rfl, rfl⟩
      · exact ⟨rfl, rfl⟩
      · exact ⟨rfl, rfl⟩
    · exact ⟨rfl, rfl⟩
  | first byte0 => exact ⟨rfl, rfl⟩
  | second byte0 byte1 =>
    simp only [hear, acceptHeader, record_timeless, and_true]
    split
    · rfl
    · split <;> rfl

/-- What comes next in a transaction does not depend on the clock of the engine. -/
theorem timeless_count {M : Type} (table : Table M) (now : UInt32) (e : Engine)
    (request : Request) (count : Nat) (kept : Option (List UInt8)) (m : M) :
  (e.count table now request count kept m).timeless =
    e.timeless.count table 0 request count kept m
  := by
  unfold Engine.count
  split
  · cases kept with
    | none => rfl
    | some data =>
      simp only
      split
      · rw [timeless_enter, timeless_stage]
      · rfl
  · split <;> rfl

/-- Applying values does not depend on the clock of the engine. -/
theorem timeless_commit {M : Type} (table : Table M) (now : UInt32) (e : Engine)
    (batch : Batch) (m : M) :
  (e.commit table now batch true m).1.timeless = (e.timeless.commit table 0 batch true m).1 ∧
    (e.commit table now batch true m).2 = (e.timeless.commit table 0 batch true m).2
  := by
  obtain ⟨phase, since, staged, record⟩ := e
  simp only [Engine.commit, timeless, Bool.true_eq_false, if_false]
  by_cases idle : batch = .staged ∧ staged = []
  · rw [if_pos idle, if_pos idle]
    exact ⟨rfl, rfl⟩
  · simp only [idle, if_false]
    cases batch with
    | one slot => cases (applyAll table [slot] m).1 <;> exact ⟨rfl, rfl⟩
    | staged => cases (applyAll table staged m).1 <;> exact ⟨rfl, rfl⟩

/-- An engine that is about to apply values, but holds none back, listens again. -/
theorem commit_bare {M : Type} (table : Table M) (now : UInt32) {e : Engine} (bare : e.staged = [])
    (drained : Bool) (m : M) :
  e.commit table now .staged drained m = (e.enter (.listening .nothing) now, m)
  := if_pos ⟨rfl, bare⟩

/-- An engine that is about to apply values waits for its last byte to leave, until its time has run
out. -/
theorem commit_stalled {M : Type} (table : Table M) (now : UInt32) {e : Engine} {batch : Batch}
    (due : ¬(batch = .staged ∧ e.staged = [])) (m : M) :
  e.commit table now batch false m =
    (if e.timedOut now then { e with staged := [] }.fail .timeout now else e, m)
  := by
  unfold Engine.commit
  rw [if_neg due, if_pos rfl]

/-- What a frame makes of an engine does not depend on its clock. -/
theorem timeless_finishFrame (now : UInt32) (e : Engine) (request : Request) (count : Nat)
    (keep : Bool) (frame : Except Frame.Error Frame) :
  (e.finishFrame now request count keep frame).timeless =
    e.timeless.finishFrame 0 request count keep frame
  := by
  unfold finishFrame
  split
  · rfl
  · rfl
  · split <;> rfl
  · rfl
  · rfl

/-- The phase of an engine has not run out of time. -/
def Fresh (e : Engine) (now : UInt32) : Prop :=
  match e.phase with
  | .listening .nothing => True
  | .recovering => e.elapsed now < recoveryDelay
  | _ => e.timedOut now = false

/-- A phase that has just begun has not run out of time. -/
theorem fresh_enter (e : Engine) (phase : Phase) (now : UInt32) :
  (e.enter phase now).Fresh now
  := by
  rw [Fresh]
  split
  · trivial
  · simp [enter, elapsed, recoveryDelay, nodeTimeout, recoveryMargin]
  · simp [enter, timedOut, elapsed]

end Engine

/-! ### Relaying byte by byte -/

/-- The bytes of the frame that a node receives are sent on. -/
def passes (request : Request) (count : Nat) : Bool :=
  count ≠ 0 ∨ request.action = .broadcast

/-- The frame that a node receives is meant for the node. -/
def keeps (request : Request) (count : Nat) : Bool :=
  request.action ≠ .read ∧ count = 0

/-- The engine after one more byte of a frame. -/
def Engine.relayByte (now : UInt32) (e : Engine) (request : Request) (count : Nat)
    (collector : Frame.Collector) (byte : UInt8) : Engine :=
  match collector.feed byte with
  | (.ok false, collector') => e.enter (.relaying request count collector') now
  | (.ok true, collector') =>
    e.finishFrame now request count (keeps request count) collector'.decode
  | (.error _, _) => e.fail .decoding now

/-- A byte of a frame has the same effect whatever the clock of the engine. -/
theorem Engine.timeless_relayByte (now : UInt32) (e : Engine) (request : Request)
    (count : Nat) (collector : Frame.Collector) (byte : UInt8) :
  (e.relayByte now request count collector byte).timeless =
    e.timeless.relayByte 0 request count collector byte
  := by
  unfold relayByte
  split
  · rfl
  · apply timeless_finishFrame
  · rfl

/-! ### Nodes that nothing hinders -/

/-- A node without its connections. -/
structure Body (M : Type) where
  engine : Engine
  module : M

/-- A node in this phase does nothing until it receives a byte. -/
def Phase.Waiting : Phase → Prop
  | .listening _ | .recovering | .relaying .. => True
  | .counting .. | .sending .. | .committing _ => False

namespace Body

variable {M : Type} (table : Table M)

/-- The node after it has decided what comes next, if that is to be decided. -/
def proceed (b : Body M) : Body M :=
  match b.engine.phase with
  | .counting request count kept =>
    ⟨b.engine.count table 0 request count kept b.module, b.module⟩
  | _ => b

/-- The node after it has sent its frame or applied its values, and the bytes it sends. -/
def perform (b : Body M) : Body M × List UInt8 :=
  match b.engine.phase with
  | .sending _ frame sent =>
    (⟨b.engine.enter (.listening .nothing) 0, b.module⟩, frame.drop sent)
  | .committing batch =>
    let (e, m) := b.engine.commit table 0 batch true b.module
    (⟨e, m⟩, [])
  | _ => (b, [])

/-- The node after all that it does without receiving a byte, and the bytes it sends. -/
def rest (b : Body M) : Body M × List UInt8 :=
  (b.proceed table).perform table

/-- The node after one byte, and the bytes it sends at once. -/
def take (b : Body M) (byte : UInt8) : Body M × List UInt8 :=
  match b.engine.phase with
  | .listening heard =>
    let (e, out) := b.engine.hear heard byte 0
    (⟨e, b.module⟩, [out])
  | .recovering => (b, [0])
  | .relaying request count collector =>
    (⟨b.engine.relayByte 0 request count collector byte, b.module⟩,
      if passes request count then [byte] else [])
  | _ => (b, [])

/-- The node after the given bytes, and all that it sends meanwhile. -/
def digest (b : Body M) : List UInt8 → Body M × List UInt8
  | [] => b.rest table
  | byte :: more =>
    let (rested, sent) := b.rest table
    let (taken, out) := rested.take byte
    let (final, others) := taken.digest more
    (final, sent ++ (out ++ others))

variable {table}

/-! ### Rest -/

/-- What comes next is never to be decided twice. -/
theorem phase_count_ne (table : Table M) (now : UInt32) (e : Engine) (request request' : Request)
    (count count' : Nat) (kept kept' : Option (List UInt8)) (m : M) :
  (e.count table now request count kept m).phase ≠ .counting request' count' kept'
  := by
  unfold Engine.count
  split
  · cases kept with
    | none => simp [Engine.enter]
    | some data =>
      simp only
      split <;> simp [Engine.enter]
  · split <;> simp [Engine.enter]

/-- A node that has applied its values waits. -/
theorem waiting_commit (table : Table M) (now : UInt32) (e : Engine) (batch : Batch) (m : M) :
  (e.commit table now batch true m).1.phase.Waiting
  := by
  obtain ⟨-, waits, -⟩ | ⟨idle, ends⟩ | ⟨faulty, fault, ends⟩ := e.commit_ends table now batch true m
  · contradiction
  · rw [ends]
    trivial
  · rw [ends]
    trivial

/-- A node that waits does nothing of its own. -/
theorem rest_of_waiting {b : Body M} (waiting : b.engine.phase.Waiting) :
  b.rest table = (b, [])
  := by
  unfold rest proceed
  split
  · next counting =>
    rw [counting] at waiting
    contradiction
  · rw [perform]
    split
    · next sending =>
      rw [sending] at waiting
      contradiction
    · next committing =>
      rw [committing] at waiting
      contradiction
    · rfl

/-- A node at rest waits. -/
theorem waiting_rest (b : Body M) :
  (b.rest table).1.engine.phase.Waiting
  := by
  unfold rest perform
  split
  · trivial
  · apply waiting_commit
  · next notSending notCommitting =>
    cases h : (b.proceed table).engine.phase with
    | listening heard => trivial
    | recovering => trivial
    | counting request count kept =>
      rw [proceed] at h
      split at h
      · apply (phase_count_ne _ _ _ _ _ _ _ _ _ _ h).elim
      · next notCounting => exact (notCounting _ _ _ h).elim
    | sending request frame sent => apply (notSending _ _ _ h).elim
    | relaying request count collector => trivial
    | committing batch => apply (notCommitting _ h).elim

/-! ### Streams in parts -/

/-- What a node makes of a stream depends on the node at rest alone. -/
theorem digest_congr {b b' : Body M} (same : b.rest table = b'.rest table)
    (bytes : List UInt8) :
  b.digest table bytes = b'.digest table bytes
  := by
  cases bytes with
  | nil => apply same
  | cons byte more => simp only [digest, same]

/-- A stream may come in two parts. -/
theorem digest_append (b : Body M) (xs ys : List UInt8) :
  b.digest table (xs ++ ys) =
    (((b.digest table xs).1.digest table ys).1,
      (b.digest table xs).2 ++ ((b.digest table xs).1.digest table ys).2)
  := by
  induction xs generalizing b with
  | nil =>
    have again : (b.rest table).1.rest table = ((b.rest table).1, []) :=
      rest_of_waiting b.waiting_rest
    cases ys with
    | nil => simp only [List.append_nil, digest, again]
    | cons y ys => simp only [List.nil_append, digest, again]
  | cons x xs ih => simp only [List.cons_append, digest, ih, List.append_assoc]

/-- A longer stream makes a node send more. -/
theorem digest_prefix (table : Table M) (b : Body M) {xs ys : List UInt8} (begins : xs <+: ys) :
  (b.digest table xs).2 <+: (b.digest table ys).2
  := by
  obtain ⟨more, rfl⟩ := begins
  rw [digest_append]
  apply List.prefix_append

/-- A node that waits takes the first byte of a stream at once. -/
theorem digest_cons {b : Body M} (waiting : b.engine.phase.Waiting) (byte : UInt8)
    (more : List UInt8) :
  b.digest table (byte :: more) =
    (((b.take byte).1.digest table more).1,
      (b.take byte).2 ++ ((b.take byte).1.digest table more).2)
  := by
  simp only [digest, rest_of_waiting waiting, List.nil_append]

/-- A node that waits makes nothing of nothing. -/
theorem digest_nil {b : Body M} (waiting : b.engine.phase.Waiting) :
  b.digest table [] = (b, [])
  := rest_of_waiting waiting

end Body

/-- A node that decides what comes next changes its state. -/
theorem state_count_ne {M : Type} {table : Table M} {now : UInt32} (e : Engine) (request : Request)
    (count : Nat) (kept : Option (List UInt8)) (m : M) :
  (e.count table now request count kept m).state ≠ .counting
  := by
  unfold Engine.state
  cases phase : (e.count table now request count kept m).phase with
  | counting request' count' kept' =>
    apply (Body.phase_count_ne _ _ _ _ _ _ _ _ _ _ phase).elim
  | _ => simp [Phase.state]

end DaisyChain.Node
