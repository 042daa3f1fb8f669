import DaisyChain.Proofs.Node.Staging

/-!
# Values kept until a commit

As long as a node processes no commit and completes no staged write, the values that it holds back
are neither changed nor dropped, whatever it receives, wherever its bytes get stuck and however late
it acts (`Station.staged_run`).

There is one exception.  A node that gives up the value of a write that is not staged drops those
that it holds back with it (`Station.stalled_write_drops_staged`).
-/

namespace DaisyChain.Node

variable {M : Type}

/-! ### Engines that hold values back -/

namespace Engine

variable (now : UInt32)

@[simp]
theorem staged_enter (e : Engine) (phase : Phase) :
  (e.enter phase now).staged = e.staged
  := rfl

/-- No byte of a header changes what an engine holds back. -/
theorem staged_hear (e : Engine) (heard : Heard) (byte : UInt8) :
  (e.hear heard byte now).1.staged = e.staged
  := by
  cases heard with
  | nothing =>
    simp only [hear]
    split
    · simp only [hearSync]
      split <;> rfl
    · rfl
  | first byte0 => rfl
  | second byte0 byte1 =>
    simp only [hear, acceptHeader]
    split
    · rfl
    · split <;> rfl

/-- Waiting for the rest of a header does not change what an engine holds back. -/
theorem staged_awaitHeader (e : Engine) (heard : Heard) :
  (e.awaitHeader heard now).staged = e.staged
  := by
  unfold awaitHeader
  split <;> rfl

/-- Listening does not change what an engine holds back. -/
theorem staged_listen (e : Engine) (tx : Link) (rx : List UInt8) :
  (e.listen now tx rx).1.staged = e.staged
  := by
  induction rx generalizing e tx with
  | nil =>
    unfold listen
    split
    · apply staged_awaitHeader
    · rfl
  | cons byte rest ih =>
    unfold listen
    split
    · split
      · apply staged_awaitHeader
      · apply (ih _ _).trans (staged_hear now e _ byte)
    · rfl

/-- A frame that ends does not change what an engine holds back. -/
theorem staged_finishFrame (e : Engine) (request : Request) (count : Nat) (keep : Bool)
    (frame : Except Frame.Error Frame) :
  (e.finishFrame now request count keep frame).staged = e.staged
  := by
  obtain ⟨kept, ends⟩ | ⟨fault, ends⟩ := e.finishFrame_ends now request count keep frame
  · rw [ends]
    rfl
  · rw [ends]
    rfl

/-- Receiving a frame does not change what an engine holds back. -/
theorem staged_collect (request : Request) (count : Nat) (pass keep : Bool) (e : Engine)
    (collector : Frame.Collector) (tx : Link) (rx : List UInt8) :
  (e.collect now request count pass keep collector tx rx).1.staged = e.staged
  := by
  induction rx generalizing e collector tx with
  | nil => rfl
  | cons byte rest ih =>
    unfold collect
    split
    · rfl
    · simp only
      split
      · next collector' _ => apply ih (e.enter (.relaying request count collector') now)
      · apply staged_finishFrame
      · rfl

/-- A transaction that goes on changes what an engine holds back only if it holds one value more
back. -/
theorem staged_count (table : Table M) (e : Engine) (request : Request) (count : Nat)
    (kept : Option (List UInt8)) (m : M)
    (incomplete : count = 0 → kept.isSome → request.staged = false) :
  (e.count table now request count kept m).staged = e.staged
  := by
  unfold Engine.count
  split
  · next zero =>
    cases kept with
    | none => rfl
    | some data => simp [incomplete zero rfl]
  · split <;> rfl

/-- An engine that is to apply a value of its own changes what it holds back only if it gives that
value up. -/
theorem staged_commit (table : Table M) (e : Engine) (slot : Slot) (drained : Bool) (m : M) :
  (e.commit table now (.one slot) drained m).1.staged =
    if !drained && e.timedOut now then [] else e.staged
  := by
  simp only [commit, reduceCtorEq, false_and, if_false]
  cases drained with
  | true =>
    simp only [Bool.true_eq_false, if_false]
    split <;> rfl
  | false => cases e.timedOut now <;> rfl

end Engine

/-! ### Runs of a node that holds values back -/

namespace Station

variable (table : Table M)

/-- A node processes a commit at an event: it is about to apply all that it holds back, or it
listened and is now told to do so. -/
def processesCommit (s : Station M) (event : Event) : Bool :=
  s.engine.phase = .committing .staged ||
    s.engine.state = .listening && (s.step table event).engine.phase = .committing .staged

/-- A staged write is complete at an event: its value is about to be held back. -/
def completesStaged (s : Station M) : Event → Bool
  | .tick _ =>
    match s.engine.phase with
    | .counting request count kept => count = 0 && kept.isSome && request.staged
    | .listening _ | .recovering | .sending .. | .relaying .. | .committing _ => false
  | .receive _ | .drain _ | .capacity _ | .drained _ | .busy _ => false

/-- The value of a write that is not staged is given up at an event: it was to be applied, but the
bytes sent before have taken too long to leave. -/
def givesUp (s : Station M) : Event → Bool
  | .tick now =>
    match s.engine.phase with
    | .committing (.one _) => !s.wiring.drained && s.engine.timedOut now
    | .committing .staged | .listening _ | .recovering | .counting .. | .sending ..
    | .relaying .. => false
  | .receive _ | .drain _ | .capacity _ | .drained _ | .busy _ => false

/-- At some event of a run a node does what is asked for. -/
def meets (does : Station M → Event → Bool) : Station M → List Event → Bool
  | _, [] => false
  | s, event :: rest => does s event || meets does (s.step table event) rest

variable {table} {s : Station M}

/-- A tick in which no commit is processed and no staged write completed leaves the values held back
as they are, unless a value is given up. -/
theorem staged_tick {now : UInt32} (uncommitted : s.processesCommit table (.tick now) = false)
    (incomplete : s.completesStaged (.tick now) = false) :
  (s.tick table now).engine.staged = if s.givesUp (.tick now) then [] else s.engine.staged
  := by
  cases phase : s.engine.phase with
  | listening heard =>
    simp only [tick, phase, givesUp, Bool.false_eq_true, if_false]
    apply Engine.staged_listen
  | recovering =>
    simp only [tick, phase, givesUp, Engine.recover, Bool.false_eq_true, if_false]
    split
    · rfl
    · split <;> rfl
  | counting request count kept =>
    simp only [tick, phase, givesUp, Bool.false_eq_true, if_false]
    apply Engine.staged_count
    intro zero some
    simpa [completesStaged, phase, zero, some] using incomplete
  | sending request frame sent =>
    simp only [tick, phase, givesUp, Engine.send, Bool.false_eq_true, if_false]
    split
    · rfl
    · simp only
      split
      · rfl
      · split <;> rfl
  | relaying request count collector =>
    simp only [tick, phase, givesUp, Engine.relay, Bool.false_eq_true, if_false]
    split
    · split <;> rfl
    · apply Engine.staged_collect
  | committing batch =>
    cases batch with
    | staged => simp [processesCommit, phase] at uncommitted
    | one slot =>
      simp only [tick, phase, givesUp]
      apply Engine.staged_commit

/-- An event at which no commit is processed and no staged write completed leaves the values held
back as they are, unless a value is given up. -/
theorem staged_step {event : Event} (uncommitted : s.processesCommit table event = false)
    (incomplete : s.completesStaged event = false) :
  (s.step table event).engine.staged = if s.givesUp event then [] else s.engine.staged
  := by
  cases event with
  | tick now => exact staged_tick uncommitted incomplete
  | _ => rfl

/-- Whatever happens to a node: as long as it processes no commit and completes no staged write, it
holds the same values back, unless it gives up the value of a write that is not staged.  Then it
holds none back any more. -/
theorem staged_run {events : List Event}
    (uncommitted : s.meets table (processesCommit table) events = false)
    (incomplete : s.meets table completesStaged events = false) :
  (s.run table events).engine.staged =
    if s.meets table givesUp events then [] else s.engine.staged
  := by
  induction events generalizing s with
  | nil => rfl
  | cons event rest ih =>
    simp only [meets, Bool.or_eq_false_iff] at uncommitted incomplete
    have now := staged_step uncommitted.1 incomplete.1
    have later := ih uncommitted.2 incomplete.2
    change ((s.step table event).run table rest).engine.staged = _
    rw [later, now, meets]
    cases s.givesUp event <;> cases meets table givesUp (s.step table event) rest <;> rfl

/-! ### A write that stalls -/

/-- The broadcast of an offset that is to be applied at once. -/
def immediate : List UInt8 :=
  (ActionHeader.pack ⟨.broadcast, false, SplitFlap.offset.id, 0⟩).toList ++ eight

/-- A node that holds an offset of nine back. -/
def holdingNine : Station SplitFlap.Module :=
  run SplitFlap.table { module := {} }
    (.receive (broadcastOf SplitFlap.offset.id nine [9]).bytes :: List.replicate 8 (.tick 0))

/-- An offset of eight comes and is applied in time. -/
def promptEvents : List Event :=
  .receive immediate :: List.replicate 8 (.tick 5)

/-- An offset of eight comes, but its bytes never leave. -/
def stallingEvents : List Event :=
  .drained false :: .receive immediate :: (List.replicate 8 (.tick 5) ++ [.tick 40])

/-- The node still holds nine back after it has applied eight. -/
theorem staged_run_prompt :
  holdingNine.meets SplitFlap.table (processesCommit SplitFlap.table) promptEvents = false ∧
  holdingNine.meets SplitFlap.table completesStaged promptEvents = false ∧
  (holdingNine.run SplitFlap.table promptEvents).module.offset = 8 ∧
  (holdingNine.run SplitFlap.table promptEvents).engine.staged = [⟨SplitFlap.offset.id, [9]⟩]
  := by
  have uncommitted :
      holdingNine.meets SplitFlap.table (processesCommit SplitFlap.table) promptEvents = false := by
    decide +kernel
  have incomplete : holdingNine.meets SplitFlap.table completesStaged promptEvents = false := by
    decide +kernel
  refine ⟨uncommitted, incomplete, by decide +kernel, ?_⟩
  rw [staged_run uncommitted incomplete]
  decide +kernel

/-- The node is neither told to commit nor completes a staged write, but holds nothing back any more
once it has given eight up. -/
theorem stalled_write_drops_staged :
  holdingNine.engine.staged = [⟨SplitFlap.offset.id, [9]⟩] ∧
  holdingNine.meets SplitFlap.table (processesCommit SplitFlap.table) stallingEvents = false ∧
  holdingNine.meets SplitFlap.table completesStaged stallingEvents = false ∧
  (holdingNine.run SplitFlap.table stallingEvents).engine.staged = []
  := by decide +kernel

end Station

end DaisyChain.Node
