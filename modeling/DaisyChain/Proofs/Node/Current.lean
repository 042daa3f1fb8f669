import DaisyChain.Proofs.Node.Digest

/-!
# Engines at one time

As long as no time passes, every engine that does anything does it at the same time: each of them
waits for a header, or has made its last progress just now (`Engine.Current`).  A tick keeps engines
current (`Station.current_tick`), and no phase of a current engine has run out of time a millisecond
later.  An engine that has run out of time does something about it at its next tick, after which it has
time left (`Station.fresh_tick`).

A node that recovers since some time goes on doing so (`Station.since_tick`): its recovery is put off
only by bytes that it has no room to answer.
-/

namespace DaisyChain.Node

variable {M : Type} {table : Table M} {now : UInt32}

/-- The engine waits for a header, or has made progress just now. -/
def Engine.Current (e : Engine) (now : UInt32) : Prop :=
  e.phase = .listening .nothing ∨ e.since = now

variable {e : Engine}

/-- No phase of a current engine has run out of time a millisecond later. -/
theorem Engine.Current.fresh_next (current : e.Current now) :
  e.Fresh (now + 1)
  := by
  rcases current with listening | rfl
  · simp only [Engine.Fresh, listening]
  · have elapsed : e.elapsed (e.since + 1) = 1 := by
      rw [Engine.elapsed, UInt32.add_comm, UInt32.add_sub_cancel]
      rfl
    rw [Engine.Fresh]
    split
    · trivial
    · rw [elapsed]
      decide
    · rw [Engine.timedOut, elapsed]
      rfl

/-! ### Progress -/

/-- An engine is as it was, or has made progress just now. -/
def Engine.Progress (now : UInt32) (e e' : Engine) : Prop :=
  e' = e ∨ e'.since = now

/-- Whatever becomes of an engine that has made progress just now, it has done so just now. -/
theorem Engine.Progress.since {e' : Engine} (progress : e.Progress now e') (since : e.since = now) :
  e'.since = now
  := by
  rcases progress with same | moved
  · rw [same, since]
  · exact moved

/-- A phase that begins now is progress. -/
theorem Engine.progress_enter (e e' : Engine) (phase : Phase) (now : UInt32) :
  e.Progress now (e'.enter phase now)
  := Or.inr rfl

/-- An engine that waits for the rest of a header gives it up now, or goes on waiting. -/
theorem progress_awaitHeader (e : Engine) (heard : Heard) (now : UInt32) :
  e.Progress now (e.awaitHeader heard now)
  := by
  unfold Engine.awaitHeader
  split
  · apply Engine.progress_enter
  · exact Or.inl rfl

/-- A byte of a header is progress. -/
theorem since_hear (e : Engine) (heard : Heard) (byte : UInt8) (now : UInt32) :
  (e.hear heard byte now).1.since = now
  := by
  unfold Engine.hear
  split
  · split
    · unfold Engine.hearSync
      split <;> rfl
    · rfl
  · rfl
  · simp only [Engine.acceptHeader]
    split
    · rfl
    · split <;> rfl

/-- Listening is progress, or leaves an engine as it is. -/
theorem progress_listen (e : Engine) (tx : Link) (rx : List UInt8) :
  e.Progress now (e.listen now tx rx).1
  := by
  induction rx generalizing e tx with
  | nil =>
    unfold Engine.listen
    split
    · apply progress_awaitHeader
    · exact Or.inl rfl
  | cons byte rest ih =>
    unfold Engine.listen
    split
    · split
      · apply progress_awaitHeader
      · exact Or.inr ((ih _ _).since (since_hear e _ byte now))
    · exact Or.inl rfl

/-- Recovering is progress, or leaves an engine as it is. -/
theorem progress_recover (e : Engine) (busy : Bool) (now : UInt32) :
  e.Progress now (e.recover now busy)
  := by
  unfold Engine.recover
  split
  · exact Or.inr rfl
  · split
    · apply Engine.progress_enter
    · exact Or.inl rfl

/-- A decision is progress. -/
theorem since_count (table : Table M) (now : UInt32) (e : Engine) (request : Request) (count : Nat)
    (kept : Option (List UInt8)) (m : M) :
  (e.count table now request count kept m).since = now
  := by
  unfold Engine.count
  split
  · cases kept with
    | none => rfl
    | some data =>
      simp only
      split <;> rfl
  · split <;> rfl

/-- Sending is progress, or leaves an engine as it is. -/
theorem progress_send (e : Engine) (request : Request) (frame : List UInt8) (sent : Nat) (tx : Link) :
  e.Progress now (e.send now request frame sent tx).1
  := by
  unfold Engine.send
  split
  · apply Engine.progress_enter
  · simp only
    split
    · apply Engine.progress_enter
    · split
      · exact Or.inl rfl
      · apply Engine.progress_enter

/-- The end of a frame is progress. -/
theorem since_finishFrame (now : UInt32) (e : Engine) (request : Request) (count : Nat) (keep : Bool)
    (frame : Except Frame.Error Frame) :
  (e.finishFrame now request count keep frame).since = now
  := by
  obtain ⟨kept, ends⟩ | ⟨fault, ends⟩ := e.finishFrame_ends now request count keep frame
  · rw [ends]
    rfl
  · rw [ends]
    rfl

/-- Receiving bytes of a frame is progress, or leaves an engine as it is. -/
theorem progress_collect (request : Request) (count : Nat) (pass keep : Bool) (e : Engine)
    (collector : Frame.Collector) (tx : Link) (rx : List UInt8) :
  e.Progress now (Engine.collect now request count pass keep e collector tx rx).1
  := by
  induction rx generalizing e collector tx with
  | nil => exact Or.inl rfl
  | cons byte rest ih =>
    unfold Engine.collect
    split
    · exact Or.inl rfl
    · simp only
      split
      · exact Or.inr ((ih _ _ _).since rfl)
      · exact Or.inr (since_finishFrame ..)
      · apply Engine.progress_enter

/-- Receiving a frame is progress, or leaves an engine as it is. -/
theorem progress_relay (e : Engine) (request : Request) (count : Nat) (collector : Frame.Collector)
    (rx : List UInt8) (tx : Link) :
  e.Progress now (e.relay now request count collector rx tx).1
  := by
  unfold Engine.relay
  simp only
  split
  · split <;> apply Engine.progress_enter
  · apply progress_collect

/-- Applying values is progress, or leaves an engine as it is. -/
theorem progress_commit (table : Table M) (now : UInt32) (e : Engine) (batch : Batch) (drained : Bool)
    (m : M) :
  e.Progress now (e.commit table now batch drained m).1
  := by
  obtain ⟨same, -⟩ | ⟨idle, ends⟩ | ⟨faulty, fault, ends⟩ := e.commit_ends table now batch drained m
  · exact Or.inl same
  · rw [ends]
    apply Engine.progress_enter
  · rw [ends]
    apply Engine.progress_enter

/-- A tick is progress, or leaves an engine as it is. -/
theorem Station.progress_tick (table : Table M) (now : UInt32) (s : Station M) :
  s.engine.Progress now (s.tick table now).engine
  := by
  unfold Station.tick
  simp only
  split
  · apply progress_listen
  · apply progress_recover
  · exact Or.inr (since_count ..)
  · apply progress_send
  · apply progress_relay
  · apply progress_commit

/-- A tick keeps an engine current. -/
theorem Station.current_tick {s : Station M} (current : s.engine.Current now) :
  (s.tick table now).engine.Current now
  := by
  rcases s.progress_tick table now with same | moved
  · rw [same]
    exact current
  · exact Or.inr moved

/-! ### Time -/

/-- An engine that has made progress just now has time left. -/
theorem Engine.fresh_of_since (since : e.since = now) :
  e.Fresh now
  := by
  have same := Engine.fresh_enter e e.phase now
  rw [Engine.enter, ← since] at same
  rw [← since]
  exact same

/-- An engine is done with its values at once if its last byte has left, or if it has waited too long
for that. -/
theorem since_commit (batch : Batch) {drained : Bool} (m : M)
    (due : drained = true ∨ e.timedOut now = true) :
  (e.commit table now batch drained m).1.since = now
  := by
  obtain ⟨-, waits, inTime⟩ | ⟨idle, ends⟩ | ⟨faulty, fault, ends⟩ :=
    e.commit_ends table now batch drained m
  · rw [waits, inTime] at due
    simp at due
  · rw [ends]
    rfl
  · rw [ends]
    rfl

/-- A node whose time has run out does something about it at once. -/
theorem Station.since_tick_of_late (table : Table M) {s : Station M} (late : ¬s.engine.Fresh now) :
  (s.tick table now).engine.since = now
  := by
  unfold Engine.Fresh at late
  cases phase : s.engine.phase with
  | listening heard =>
    have begun : heard ≠ .nothing ∧ s.engine.timedOut now = true := by
      cases heard <;> simp_all
    have given : (s.engine.awaitHeader heard now).since = now := by
      rw [Engine.awaitHeader, if_pos begun]
      rfl
    simp only [Station.tick, phase]
    cases rx : s.wiring.rx with
    | nil => simpa only [Engine.listen, phase] using given
    | cons byte rest =>
      simp only [Engine.listen, phase]
      split
      · exact given
      · exact (progress_listen _ _ _).since (since_hear s.engine heard byte now)
  | recovering =>
    have ripe : recoveryDelay ≤ s.engine.elapsed now := by simpa [phase] using late
    simp only [Station.tick, phase, Engine.recover]
    split
    · rfl
    · rfl
  | counting request count kept =>
    simp only [Station.tick, phase]
    apply since_count
  | sending request frame sent =>
    have gone : s.engine.timedOut now = true := by simpa [phase] using late
    simp only [Station.tick, phase, Engine.send, gone, if_true]
    rfl
  | relaying request count collector =>
    have gone : s.engine.timedOut now = true := by simpa [phase] using late
    simp only [Station.tick, phase, Engine.relay, gone, if_true]
    split <;> rfl
  | committing batch =>
    have gone : s.engine.timedOut now = true := by simpa [phase] using late
    simp only [Station.tick, phase]
    apply since_commit batch _ (.inr gone)

/-- After a tick an engine has time left. -/
theorem Station.fresh_tick (table : Table M) (now : UInt32) (s : Station M) :
  (s.tick table now).engine.Fresh now
  := by
  by_cases fresh : s.engine.Fresh now
  · rcases s.progress_tick table now with same | moved
    · rw [same]
      exact fresh
    · exact Engine.fresh_of_since moved
  · exact Engine.fresh_of_since (s.since_tick_of_late table fresh)

/-- An engine that has not waited for so long as a clock takes to wrap round has waited as much longer
as time has passed. -/
theorem Engine.elapsed_add (e : Engine) (now : UInt32) {ms : Nat}
    (short : e.elapsed now + ms < UInt32.size) :
  e.elapsed (now + UInt32.ofNat ms) = e.elapsed now + ms
  := by
  have range := e.since.toNat_lt
  have range' := now.toNat_lt
  simp only [elapsed, UInt32.toNat_sub, UInt32.toNat_add, UInt32.toNat_ofNat', UInt32.size] at short ⊢
  omega

/-- Within the delay of a recovery an engine has waited a millisecond longer when one has passed. -/
theorem Engine.elapsed_soon {ms : Nat} (early : e.elapsed now ≤ recoveryDelay) (soon : ms ≤ 1) :
  e.elapsed (now + UInt32.ofNat ms) = e.elapsed now + ms
  := by
  apply e.elapsed_add
  simp only [recoveryDelay, nodeTimeout, recoveryMargin, UInt32.size] at early ⊢
  omega

/-! ### Recovering -/

/-- A node that recovers answers each byte that it reads with one zero, until no byte is left or there is
no room. -/
theorem exists_swallowed (tx : Link) (rx : List UInt8) :
  let r := Engine.swallow tx rx
  ∃ read, rx = read ++ r.1 ∧ r.2 = tx.pushAll (List.replicate read.length 0) ∧
    (∀ k < read.length, (tx.pushAll (List.replicate k 0)).room ≠ 0) ∧ (r.1 = [] ∨ r.2.room = 0)
  := by
  induction rx generalizing tx with
  | nil => exact ⟨[], rfl, rfl, fun k few => absurd few (Nat.not_lt_zero k), Or.inl rfl⟩
  | cons byte rest ih =>
    unfold Engine.swallow
    split
    · next full => exact ⟨[], rfl, rfl, fun k few => absurd few (Nat.not_lt_zero k), Or.inr full⟩
    · next some =>
      obtain ⟨read, left, sent, roomy, ended⟩ := ih (tx.push 0)
      refine ⟨byte :: read, congrArg (byte :: ·) left, sent, fun k few => ?_, ended⟩
      cases k with
      | zero => exact some
      | succ k => exact roomy k (Nat.lt_of_succ_lt_succ few)

/-- A node that recovers swallows all that comes to it if it has room to answer. -/
theorem swallow_eq_nil (tx : Link) {rx : List UInt8} (room : rx.length ≤ tx.room) :
  (Engine.swallow tx rx).1 = []
  := by
  induction rx generalizing tx with
  | nil => rfl
  | cons byte rest ih =>
    rw [List.length_cons] at room
    have some : tx.room ≠ 0 := by omega
    have less : tx.room ≤ (tx.push 0).room + 1 := by
      have longer := tx.length_queue_push_le 0
      rw [Link.room, Link.room, show (tx.push 0).capacity = tx.capacity from rfl]
      omega
    rw [Engine.swallow, if_neg some]
    apply ih
    omega

/-- The engine recovers since the given time. -/
def Engine.Since (start : UInt32) (e : Engine) : Prop :=
  e.phase = .recovering ∧ e.since = start

/-- A tick puts a recovery off at most until now, and not even that if there is room to answer all
that is to be read. -/
theorem Station.since_tick {start : UInt32} {s : Station M} (since : s.engine.Since start)
    (early : s.engine.elapsed now < recoveryDelay)
    (quiet : s.wiring.busy [] = false)
    (rests : start = now ∨ s.wiring.rx.length ≤ s.wiring.tx.room) :
  (s.tick table now).engine.Since start
  := by
  obtain ⟨recovering, rfl⟩ := since
  have engine : (s.tick table now).engine =
      s.engine.recover now (s.wiring.busy (Engine.swallow s.wiring.tx s.wiring.rx).1) := by
    simp only [Station.tick, recovering]
  rw [engine, Engine.recover]
  split
  · next busy =>
    rcases rests with same | room
    · exact ⟨recovering, same.symm⟩
    · rw [swallow_eq_nil _ room, quiet] at busy
      contradiction
  · rw [if_neg (Nat.not_le_of_lt early)]
    exact ⟨recovering, rfl⟩

end DaisyChain.Node
