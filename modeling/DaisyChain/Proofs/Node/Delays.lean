import DaisyChain.Proofs.Node.Runs

/-!
# Delays

A node reads its clock only to tell how much time has passed, on a clock that wraps round.  So if all
that happens to a node happens later by the same time, it does the same (`Station.run_delayed`).

An engine with its clock put forward does all that the engine does, with its clock put forward
(`Station.tick_delay`).  The clock of a new engine need not be put forward for that: while an engine
listens and has heard nothing, it does not matter what its clock shows (`Engine.listen_idly`).
-/

namespace DaisyChain.Node

variable {M : Type} {c now : UInt32}

/-! ### Engines with a clock put forward -/

namespace Engine

/-- The engine with its clock put forward. -/
def delay (c : UInt32) (e : Engine) : Engine :=
  { e with since := e.since + c }

@[simp]
theorem phase_delay (e : Engine) :
  (e.delay c).phase = e.phase
  := rfl

@[simp]
theorem staged_delay (e : Engine) :
  (e.delay c).staged = e.staged
  := rfl

@[simp]
theorem record_delay (e : Engine) :
  (e.delay c).record = e.record
  := rfl

/-- As much time has passed. -/
@[simp]
theorem elapsed_delay (e : Engine) :
  (e.delay c).elapsed (now + c) = e.elapsed now
  := by
  have same : now + c - (e.since + c) = now - e.since := by grind
  rw [elapsed, elapsed, ← same]
  rfl

@[simp]
theorem timedOut_delay (e : Engine) :
  (e.delay c).timedOut (now + c) = e.timedOut now
  := by
  rw [timedOut, timedOut, elapsed_delay]

@[simp]
theorem enter_delay (e : Engine) (phase : Phase) :
  (e.delay c).enter phase (now + c) = (e.enter phase now).delay c
  := rfl

@[simp]
theorem fail_delay (e : Engine) (fault : Fault) :
  (e.delay c).fail fault (now + c) = (e.fail fault now).delay c
  := rfl

@[simp]
theorem stage_delay (e : Engine) (slot : Slot) :
  (e.delay c).stage slot = (e.stage slot).delay c
  := by
  unfold stage
  rw [staged_delay]
  by_cases older : (e.staged.any fun held => held.property == slot.property) = true
  · simp only [older, if_true]
    rfl
  · by_cases room : e.staged.length < slotsMax
    · simp only [older, room, if_true]
      rfl
    · simp only [older, room, if_false]
      rfl

/-- Whatever an engine hears, it hears the same later. -/
theorem hear_delay (e : Engine) (heard : Heard) (byte : UInt8) :
  (e.delay c).hear heard byte (now + c) =
    ((e.hear heard byte now).1.delay c, (e.hear heard byte now).2)
  := by
  cases heard with
  | nothing =>
    simp only [hear]
    split
    · simp only [hearSync]
      split <;> rfl
    · rfl
  | first byte0 => rfl
  | second byte0 byte1 =>
    simp only [hear, acceptHeader, record_delay, Prod.mk.injEq, and_true]
    split
    · rfl
    · split <;> rfl

theorem awaitHeader_delay (e : Engine) (heard : Heard) :
  (e.delay c).awaitHeader heard (now + c) = (e.awaitHeader heard now).delay c
  := by
  rw [awaitHeader, awaitHeader, timedOut_delay, fail_delay]
  split <;> rfl

theorem listen_delay (e : Engine) (tx : Link) (rx : List UInt8) :
  (e.delay c).listen (now + c) tx rx = ((e.listen now tx rx).1.delay c, (e.listen now tx rx).2)
  := by
  induction rx generalizing e tx with
  | nil =>
    simp only [listen, phase_delay, awaitHeader_delay]
    split <;> rfl
  | cons byte rest ih =>
    simp only [listen, phase_delay, awaitHeader_delay, hear_delay]
    split
    · split
      · rfl
      · apply ih
    · rfl

theorem recover_delay (e : Engine) (busy : Bool) :
  (e.delay c).recover (now + c) busy = (e.recover now busy).delay c
  := by
  rw [recover, recover, elapsed_delay, enter_delay]
  split
  · rfl
  · split <;> rfl

theorem count_delay (table : Table M) (e : Engine) (request : Request) (count : Nat)
    (kept : Option (List UInt8)) (m : M) :
  (e.delay c).count table (now + c) request count kept m =
    (e.count table now request count kept m).delay c
  := by
  simp only [Engine.count, record_delay, enter_delay, stage_delay]
  split
  · cases kept with
    | none => rfl
    | some data =>
      simp only
      split <;> rfl
  · split <;> rfl

theorem send_delay (e : Engine) (request : Request) (frame : List UInt8) (sent : Nat) (tx : Link) :
  (e.delay c).send (now + c) request frame sent tx =
    ((e.send now request frame sent tx).1.delay c, (e.send now request frame sent tx).2)
  := by
  simp only [send, timedOut_delay, fail_delay, enter_delay]
  split
  · rfl
  · simp only [Prod.mk.injEq, and_true]
    split
    · rfl
    · split <;> rfl

theorem finishFrame_delay (e : Engine) (request : Request) (count : Nat) (keep : Bool)
    (frame : Except Frame.Error Frame) :
  (e.delay c).finishFrame (now + c) request count keep frame =
    (e.finishFrame now request count keep frame).delay c
  := by
  simp only [finishFrame, enter_delay, fail_delay]
  split
  · rfl
  · rfl
  · split <;> rfl
  · rfl
  · rfl

theorem collect_delay (request : Request) (count : Nat) (pass keep : Bool) (e : Engine)
    (collector : Frame.Collector) (tx : Link) (rx : List UInt8) :
  collect (now + c) request count pass keep (e.delay c) collector tx rx =
    ((collect now request count pass keep e collector tx rx).1.delay c,
      (collect now request count pass keep e collector tx rx).2)
  := by
  induction rx generalizing e collector tx with
  | nil => rfl
  | cons byte rest ih =>
    simp only [collect, enter_delay, fail_delay, finishFrame_delay]
    split
    · rfl
    · split
      · apply ih
      · rfl
      · rfl

theorem relay_delay (e : Engine) (request : Request) (count : Nat) (collector : Frame.Collector)
    (rx : List UInt8) (tx : Link) :
  (e.delay c).relay (now + c) request count collector rx tx =
    ((e.relay now request count collector rx tx).1.delay c,
      (e.relay now request count collector rx tx).2)
  := by
  simp only [relay, timedOut_delay, enter_delay, fail_delay, collect_delay]
  split
  · simp only [Prod.mk.injEq, and_true]
    split <;> rfl
  · rfl

theorem commit_delay (table : Table M) (e : Engine) (batch : Batch) (drained : Bool) (m : M) :
  (e.delay c).commit table (now + c) batch drained m =
    ((e.commit table now batch drained m).1.delay c, (e.commit table now batch drained m).2)
  := by
  simp only [commit, staged_delay, enter_delay, timedOut_delay]
  split
  · rfl
  · split
    · simp only [Prod.mk.injEq, and_true]
      split <;> rfl
    · cases batch with
      | one slot => cases (applyAll table [slot] m).1 <;> rfl
      | staged => cases (applyAll table e.staged m).1 <;> rfl

/-! ### Engines that have heard nothing -/

/-- An engine that has heard nothing does not look at its clock.  Either there is nothing that it can
read, and its clock keeps what it shows, or it reads a byte and puts its clock right. -/
theorem listen_idly {e e' : Engine} (idle : e.phase = .listening .nothing)
    (alike : e.timeless = e'.timeless) (now : UInt32) (tx : Link) (rx : List UInt8) :
  e.listen now tx rx = (e, rx, tx) ∧ e'.listen now tx rx = (e', rx, tx) ∨
    e.listen now tx rx = e'.listen now tx rx
  := by
  have idle' : e'.phase = .listening .nothing := by
    rw [← phase_timeless e', ← alike, phase_timeless, idle]
  have record : e'.record = e.record := by
    rw [← record_timeless e', ← alike, record_timeless]
  have patient (e : Engine) : e.awaitHeader .nothing now = e := rfl
  cases rx with
  | nil =>
    left
    simp only [listen, idle, idle', patient, and_self]
  | cons byte rest =>
    simp only [listen, idle, idle', patient]
    split
    · simp
    · right
      -- Whatever the engine hears first, it enters a phase.
      have same : e.hear .nothing byte now = e'.hear .nothing byte now := by
        obtain ⟨phase, since, staged, kept⟩ := e
        obtain ⟨phase', since', staged', kept'⟩ := e'
        cases alike
        rfl
      rw [same]

end Engine

/-! ### Runs that happen later -/

namespace Station

/-- The event at a later time. -/
def Event.delay (c : UInt32) : Event → Event
  | .receive bytes => .receive bytes
  | .drain bytes => .drain bytes
  | .capacity bytes => .capacity bytes
  | .drained yes => .drained yes
  | .busy yes => .busy yes
  | .tick now => .tick (now + c)

/-- The station with its clock put forward. -/
def delay (c : UInt32) (s : Station M) : Station M :=
  { s with engine := s.engine.delay c }

variable (table : Table M)

/-- A later tick of a station with its clock put forward. -/
theorem tick_delay (s : Station M) :
  (s.delay c).tick table (now + c) = (s.tick table now).delay c
  := by
  simp only [tick, delay, Engine.phase_delay, Engine.listen_delay, Engine.recover_delay,
    Engine.count_delay, Engine.send_delay, Engine.relay_delay, Engine.commit_delay]
  split <;> rfl

/-- The second station is the first one at a later time: its clock is put forward, unless it does not
matter what the clock shows. -/
structure Delayed (c : UInt32) (s s' : Station M) : Prop where
  wiring : s'.wiring = s.wiring
  module : s'.module = s.module
  timeless : s'.engine.timeless = s.engine.timeless
  clock : s.engine.phase ≠ .listening .nothing → s'.engine.since = s.engine.since + c

variable {table} {s s' : Station M}

theorem delayed_delay (s : Station M) :
  Delayed c s (s.delay c)
  := ⟨rfl, rfl, rfl, fun _ => rfl⟩

/-- A station whose clock matters is put forward altogether. -/
theorem Delayed.eq_delay (delayed : Delayed c s s') (matters : s.engine.phase ≠ .listening .nothing) :
  s' = s.delay c
  := by
  have clock := delayed.clock matters
  obtain ⟨⟨phase, since, staged, record⟩, wiring, m⟩ := s
  obtain ⟨⟨phase', since', staged', record'⟩, wiring', m'⟩ := s'
  obtain ⟨rfl, rfl, same, -⟩ := delayed
  cases same
  rw [delay, Engine.delay, ← clock]

/-- A station at a later time does the same at a later tick. -/
theorem Delayed.tick (delayed : Delayed c s s') :
  Delayed c (s.tick table now) (s'.tick table (now + c))
  := by
  by_cases idle : s.engine.phase = .listening .nothing
  · let r := s.engine.listen now s.wiring.tx s.wiring.rx
    have alike : (s.engine.delay c).timeless = s'.engine.timeless := delayed.timeless.symm
    have idle' : s'.engine.phase = .listening .nothing := by
      rw [← Engine.phase_timeless, delayed.timeless, Engine.phase_timeless, idle]
    have here : s.tick table now =
        { s with engine := r.1, wiring := { s.wiring with rx := r.2.1, tx := r.2.2 } } := by
      simp only [Station.tick, idle, r]
    have there : s'.tick table (now + c) =
        let r' := s'.engine.listen (now + c) s.wiring.tx s.wiring.rx
        { s' with engine := r'.1, wiring := { s.wiring with rx := r'.2.1, tx := r'.2.2 } } := by
      simp only [Station.tick, idle', delayed.wiring]
    have later : (s.engine.delay c).listen (now + c) s.wiring.tx s.wiring.rx =
        (r.1.delay c, r.2) := s.engine.listen_delay s.wiring.tx s.wiring.rx
    have cases := Engine.listen_idly (e := s.engine.delay c) idle alike (now + c) s.wiring.tx
      s.wiring.rx
    rw [later] at cases
    rw [here, there]
    rcases cases with ⟨still, still'⟩ | same
    · obtain ⟨engine, rest⟩ := Prod.mk.inj still
      have timeless : (r.1.delay c).timeless = (s.engine.delay c).timeless :=
        congrArg Engine.timeless engine
      have phase : (r.1.delay c).phase = (s.engine.delay c).phase := congrArg Engine.phase engine
      rw [still', rest]
      refine ⟨rfl, delayed.module, delayed.timeless.trans timeless.symm, fun matters => ?_⟩
      exact absurd (phase.trans idle) matters
    · rw [← same]
      exact ⟨rfl, delayed.module, rfl, fun _ => rfl⟩
  · rw [delayed.eq_delay idle, tick_delay]
    apply delayed_delay

/-- What happens to the connections of a station does not depend on its clock. -/
theorem Delayed.rewire (delayed : Delayed c s s') (change : Wiring → Wiring) :
  Delayed c { s with wiring := change s.wiring } { s' with wiring := change s'.wiring }
  := ⟨congrArg change delayed.wiring, delayed.module, delayed.timeless, delayed.clock⟩

/-- A station at a later time does the same at a later event. -/
theorem Delayed.step (delayed : Delayed c s s') (event : Event) :
  Delayed c (s.step table event) (s'.step table (event.delay c))
  := by
  cases event with
  | receive bytes => apply delayed.rewire fun w => { w with rx := w.rx ++ bytes }
  | drain bytes => apply delayed.rewire fun w => { w with tx := w.tx.drop bytes }
  | capacity bytes => apply delayed.rewire fun w => { w with tx := { w.tx with capacity := bytes } }
  | drained yes => apply delayed.rewire fun w => { w with drained := yes }
  | busy yes => apply delayed.rewire fun w => { w with busy := fun _ => yes }
  | tick now => apply delayed.tick

/-- A station at a later time does the same in a later run. -/
theorem Delayed.run (delayed : Delayed c s s') (events : List Event) :
  Delayed c (s.run table events) (s'.run table (events.map (Event.delay c)))
  := by
  induction events generalizing s s' with
  | nil => apply delayed
  | cons event rest ih => apply ih (delayed.step event)

/-- What a station yields by its connections alone, it yields in a later run, too. -/
theorem Delayed.gather {α : Type} {yield : Station M → Event → List α} (delayed : Delayed c s s')
    (wired : ∀ {s s' : Station M}, Delayed c s s' → ∀ event,
      yield s' (event.delay c) = yield s event)
    (events : List Event) :
  Station.gather table yield s' (events.map (Event.delay c)) = Station.gather table yield s events
  := by
  induction events generalizing s s' with
  | nil => rfl
  | cons event rest ih =>
    rw [List.map_cons, Station.gather, Station.gather, wired delayed, ih (delayed.step event)]

/-- A station at a later time reads the same in a later run. -/
theorem Delayed.read (delayed : Delayed c s s') (events : List Event) :
  s'.read table (events.map (Event.delay c)) = s.read table events
  := by
  apply delayed.gather
  intro s s' delayed event
  have bytes : (event.delay c).bytes = event.bytes := by cases event <;> rfl
  rw [readAt, readAt, (delayed.step event).wiring, delayed.wiring, bytes]

/-- A station at a later time sends the same in a later run. -/
theorem Delayed.sent (delayed : Delayed c s s') (events : List Event) :
  s'.sent table (events.map (Event.delay c)) = s.sent table events
  := by
  apply delayed.gather
  intro s s' delayed event
  rw [sentAt, sentAt, (delayed.step event).wiring, delayed.wiring]

/-- Whatever happens to a new node, if all of it happens later by the same time, on a clock that wraps
round, the node does the same: after each event its phase, its record, the values that it holds back
and its module are the same, it has read and sent the same bytes, and its connections are left the
same. -/
theorem run_delayed (table : Table M) (m : M) (wiring : Wiring) (events : List Event) (c : UInt32)
    (n : Nat) :
  let s : Station M := { wiring := wiring, module := m }
  let one := s.run table (events.take n)
  let later := (events.take n).map (Event.delay c)
  let other := s.run table later
  other.engine.state = one.engine.state ∧ other.engine.phase = one.engine.phase ∧
    other.engine.record = one.engine.record ∧ other.engine.staged = one.engine.staged ∧
    other.module = one.module ∧ other.wiring = one.wiring ∧
    s.read table later = s.read table (events.take n) ∧
    s.sent table later = s.sent table (events.take n)
  := by
  intro s one later other
  -- The clock of a new engine does not matter, since the engine listens.
  have delayed : Delayed c s s := ⟨rfl, rfl, rfl, fun matters => absurd rfl matters⟩
  have reached : Delayed c one other := delayed.run (events.take n)
  obtain ⟨phase, -, staged, record⟩ := Engine.mk.inj reached.timeless
  exact ⟨congrArg Phase.state phase, phase, record, staged, reached.module, reached.wiring,
    delayed.read (events.take n), delayed.sent (events.take n)⟩

end Station

end DaisyChain.Node
