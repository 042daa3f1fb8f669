import DaisyChain.Proofs.Node.Outlook

/-!
# Runs of a node

What a node reads and sends in a run (`Station.read`, `Station.sent`), whatever happens to it
meanwhile.  A run is timely if no tick of it finds that time has run out: none gives a wait up,
and none ends a recovery.  A node that acts late is timely all the same, if a byte has come or
its last one has left by then.

In a timely run a node makes of the bytes that it reads what it would make of them if nothing
ever hindered it (`Station.Timely.leads`).
-/

namespace DaisyChain.Node

/-! ### What a tick sends and reads -/

/-- What listening sends and reads: some bytes are sent, and the bytes that are left are the last
ones. -/
theorem moves_listen (now : UInt32) (e : Engine) (tx : Link) (rx : List UInt8) :
  (∃ bytes, (e.listen now tx rx).2.2 = tx.pushAll bytes) ∧ (e.listen now tx rx).2.1 <:+ rx
  := by
  induction rx generalizing e tx with
  | nil =>
    unfold Engine.listen
    split <;> exact ⟨⟨[], rfl⟩, List.suffix_rfl⟩
  | cons byte rest ih =>
    unfold Engine.listen
    split
    · next heard _ =>
      split
      · exact ⟨⟨[], rfl⟩, List.suffix_rfl⟩
      · obtain ⟨⟨bytes, sent⟩, left⟩ := ih (e.hear heard byte now).1
          (tx.push (e.hear heard byte now).2)
        exact ⟨⟨(e.hear heard byte now).2 :: bytes, sent⟩, left.trans (List.suffix_cons byte rest)⟩
    · exact ⟨⟨[], rfl⟩, List.suffix_rfl⟩

/-- What swallowing sends and reads. -/
theorem moves_swallow (tx : Link) (rx : List UInt8) :
  (∃ bytes, (Engine.swallow tx rx).2 = tx.pushAll bytes) ∧ (Engine.swallow tx rx).1 <:+ rx
  := by
  obtain ⟨read, left, sent, -⟩ := exists_swallowed tx rx
  exact ⟨⟨_, sent⟩, read, left.symm⟩

/-- What receiving a frame sends and reads. -/
theorem moves_collect (now : UInt32) (request : Request) (count : Nat) (pass keep : Bool)
    (e : Engine) (collector : Frame.Collector) (tx : Link) (rx : List UInt8) :
  let r := Engine.collect now request count pass keep e collector tx rx
  (∃ bytes, r.2.2 = tx.pushAll bytes) ∧ r.2.1 <:+ rx
  := by
  induction rx generalizing e collector tx with
  | nil => exact ⟨⟨[], rfl⟩, List.suffix_rfl⟩
  | cons byte rest ih =>
    have once : ∃ bytes, (if pass then tx.push byte else tx) = tx.pushAll bytes := by
      cases pass with
      | true => exact ⟨[byte], rfl⟩
      | false => exact ⟨[], rfl⟩
    unfold Engine.collect
    split
    · exact ⟨⟨[], rfl⟩, List.suffix_rfl⟩
    · simp only
      split
      · next collector' _ =>
        obtain ⟨⟨bytes, sent⟩, left⟩ := ih (e.enter (.relaying request count collector') now)
          collector' (if pass then tx.push byte else tx)
        obtain ⟨first, sentFirst⟩ := once
        refine ⟨⟨first ++ bytes, ?_⟩, left.trans (List.suffix_cons byte rest)⟩
        rw [sent, sentFirst, Link.pushAll_append]
      · exact ⟨once, List.suffix_cons byte rest⟩
      · exact ⟨once, List.suffix_cons byte rest⟩

/-- What a tick sends and reads. -/
theorem Station.moves_tick {M : Type} (table : Table M) (now : UInt32) (s : Station M) :
  (∃ bytes, (s.tick table now).wiring.tx = s.wiring.tx.pushAll bytes) ∧
    (s.tick table now).wiring.rx <:+ s.wiring.rx
  := by
  unfold Station.tick
  simp only
  split
  · apply moves_listen
  · apply moves_swallow
  · exact ⟨⟨[], rfl⟩, List.suffix_rfl⟩
  · refine ⟨?_, List.suffix_rfl⟩
    unfold Engine.send
    split
    · exact ⟨[], rfl⟩
    · exact ⟨_, rfl⟩
  · unfold Engine.relay
    simp only
    split
    · exact ⟨⟨[], rfl⟩, List.suffix_rfl⟩
    · apply moves_collect
  · exact ⟨⟨[], rfl⟩, List.suffix_rfl⟩

namespace Station

variable {M : Type}

/-! ### What happens in a run -/

/-- The bytes that arrive at an event. -/
def Event.bytes : Event → List UInt8
  | .receive bytes => bytes
  | .drain _ | .capacity _ | .drained _ | .busy _ | .tick _ => []

/-- The bytes that arrive in a run. -/
def received (events : List Event) : List UInt8 :=
  events.flatMap Event.bytes

section Yields

variable {α : Type} (table : Table M)

/-- What the events of a run yield, one after the other. -/
def gather (yield : Station M → Event → List α) : Station M → List Event → List α
  | _, [] => []
  | s, event :: rest => yield s event ++ gather yield (s.step table event) rest

/-- The bytes that a node reads at an event: of those that had arrived, all that wait no
longer. -/
def readAt (s : Station M) (event : Event) : List UInt8 :=
  let arrived := s.wiring.rx ++ event.bytes
  arrived.take (arrived.length - (s.step table event).wiring.rx.length)

/-- The bytes that a node sends at an event: those that its queue has got. -/
def sentAt (s : Station M) (event : Event) : List UInt8 :=
  (s.step table event).wiring.tx.queue.drop s.wiring.tx.queue.length

/-- The bytes that a node reads in a run. -/
def read (s : Station M) (events : List Event) : List UInt8 :=
  gather table (readAt table) s events

/-- The bytes that a node sends in a run. -/
def sent (s : Station M) (events : List Event) : List UInt8 :=
  gather table (sentAt table) s events

/-- What a run yields, it yields in parts. -/
theorem gather_append (yield : Station M → Event → List α) (s : Station M)
    (xs ys : List Event) :
  gather table yield s (xs ++ ys) =
    gather table yield s xs ++ gather table yield (s.run table xs) ys
  := by
  induction xs generalizing s with
  | nil => rfl
  | cons event xs ih =>
    rw [List.cons_append, gather, ih, gather, List.append_assoc]
    rfl

end Yields

/-! ### Time -/

/-- Time runs out at an event: at a tick that gives a wait up, or ends a recovery. -/
def expires (s : Station M) : Event → Bool
  | .tick now =>
    match s.engine.phase with
    | .listening heard =>
      heard ≠ .nothing && (s.wiring.rx = [] || s.wiring.tx.room = 0) && s.engine.timedOut now
    | .recovering =>
      !s.wiring.busy (Engine.swallow s.wiring.tx s.wiring.rx).1 &&
        recoveryDelay ≤ s.engine.elapsed now
    | .counting .. => false
    | .sending .. | .relaying .. => s.engine.timedOut now
    | .committing batch =>
      !(batch = .staged && s.engine.staged = []) && !s.wiring.drained && s.engine.timedOut now
  | .receive _ | .drain _ | .capacity _ | .drained _ | .busy _ => false

/-- Time never runs out in a run. -/
def Timely (table : Table M) : Station M → List Event → Prop
  | _, [] => True
  | s, event :: rest => s.expires event = false ∧ (s.step table event).Timely table rest

instance decidableTimely (table : Table M) :
    (s : Station M) → (events : List Event) → Decidable (s.Timely table events)
  | _, [] => .isTrue trivial
  | s, event :: rest =>
    have := decidableTimely table (s.step table event) rest
    inferInstanceAs (Decidable (_ ∧ _))

variable {table : Table M} {now : UInt32}

/-- A run in two parts is timely if both parts are. -/
theorem timely_append {s : Station M} {xs ys : List Event} :
  s.Timely table (xs ++ ys) ↔ s.Timely table xs ∧ (s.run table xs).Timely table ys
  := by
  induction xs generalizing s with
  | nil => simp [Timely, run]
  | cons event xs ih =>
    rw [List.cons_append, Timely, ih, Timely, and_assoc]
    rfl

/-! ### Ticks in time -/

/-- A node without its connections and its clock. -/
def body (s : Station M) : Body M :=
  ⟨s.engine.timeless, s.module⟩

/-- A step from one station to another reads some of the bytes that wait, and sends some of what the
node makes of them. -/
def Leads (table : Table M) (s s' : Station M) : Prop :=
  ∃ read sent, s.wiring.rx = read ++ s'.wiring.rx ∧ s'.wiring.tx = s.wiring.tx.pushAll sent ∧
    Body.Leads table s.body read s'.body sent

/-- Listening in time leads to what the node makes of the bytes, however late they are read. -/
theorem leads_listen (table : Table M) {e : Engine} {heard : Heard}
    (listening : e.phase = .listening heard) (m : M) {tx : Link} {rx : List UInt8}
    (inTime : heard ≠ .nothing → rx = [] ∨ tx.room = 0 → e.timedOut now = false) :
  let r := e.listen now tx rx
  ∃ read sent, rx = read ++ r.2.1 ∧ r.2.2 = tx.pushAll sent ∧
    Body.Leads table ⟨e.timeless, m⟩ read ⟨r.1.timeless, m⟩ sent
  := by
  by_cases fresh : e.Fresh now
  · apply (foreseen_listen tx m rx fresh).leads
  · -- Time has run out, so the node must be about to read a byte, which gives it time again.
    have late : heard ≠ .nothing ∧ e.timedOut now = true := by
      cases heard with
      | nothing => simp [Engine.Fresh, listening] at fresh
      | first byte0 => simpa [Engine.Fresh, listening] using fresh
      | second byte0 byte1 => simpa [Engine.Fresh, listening] using fresh
    cases rx with
    | nil =>
      rw [inTime late.1 (.inl rfl)] at late
      simp at late
    | cons byte rest =>
      have room : tx.room ≠ 0 := by
        intro full
        rw [inTime late.1 (.inr full)] at late
        simp at late
      simp only [Engine.listen, listening, room, if_false]
      apply ((foreseen_hear tx m rest listening byte).trans
        (foreseen_listen _ m rest (fresh_hear e heard byte))).leads

/-- Swallowing bytes in time leads to what the node makes of them. -/
theorem leads_recover (table : Table M) {e : Engine} (recovering : e.phase = .recovering) (m : M)
    (tx : Link) (rx : List UInt8) {busy : Bool}
    (inTime : busy = false → e.elapsed now < recoveryDelay) :
  let r := Engine.swallow tx rx
  ∃ read sent, rx = read ++ r.1 ∧ r.2 = tx.pushAll sent ∧
    Body.Leads table ⟨e.timeless, m⟩ read ⟨(e.recover now busy).timeless, m⟩ sent
  := by
  have still : (e.recover now busy).timeless = e.timeless := by
    unfold Engine.recover
    split
    · rfl
    · next quiet => rw [if_neg (Nat.not_le_of_lt (inTime (Bool.eq_false_iff.mpr quiet)))]
  -- How many bytes are swallowed does not depend on the clock.
  have young : Engine.Fresh { e with since := now } now := by
    simp [Engine.Fresh, recovering, Engine.elapsed, recoveryDelay, nodeTimeout, recoveryMargin]
  rw [still]
  apply (foreseen_swallow table (e := { e with since := now }) tx m rx recovering young).leads

/-- A node that waits for its last byte to leave does nothing in time, unless there is nothing to
apply. -/
theorem leads_commit_stalled (table : Table M) {e : Engine} {batch : Batch}
    (committing : e.phase = .committing batch) (m : M) (tx : Link) (rx : List UInt8)
    (inTime : ¬(batch = .staged ∧ e.staged = []) → e.timedOut now = false) :
  let r := e.commit table now batch false m
  ∃ read sent, rx = read ++ rx ∧ tx = tx.pushAll sent ∧
    Body.Leads table ⟨e.timeless, m⟩ read ⟨r.1.timeless, r.2⟩ sent
  := by
  by_cases idle : batch = .staged ∧ e.staged = []
  · obtain ⟨rfl, bare⟩ := idle
    rw [Engine.commit_bare table now bare, ← Engine.commit_bare table now bare true]
    apply (foreseen_commit tx m rx committing).leads
  · rw [Engine.commit_stalled table now idle, inTime idle]
    exact ⟨[], [], rfl, rfl, Body.Leads.refl table _⟩

/-- A tick at which no time runs out leads to what the node makes of the bytes. -/
theorem leads_tick (table : Table M) {s : Station M} (inTime : s.expires (.tick now) = false) :
  s.Leads table (s.tick table now)
  := by
  obtain ⟨e, wiring, m⟩ := s
  cases is : e.phase with
  | listening heard =>
    have same : heard ≠ .nothing → wiring.rx = [] ∨ wiring.tx.room = 0 →
        e.timedOut now = false := by
      intro begun stuck
      simpa [expires, is, begun, stuck] using inTime
    simp only [Station.Leads, Station.tick, is]
    apply leads_listen table is m same
  | recovering =>
    have early : wiring.busy (Engine.swallow wiring.tx wiring.rx).1 = false →
        e.elapsed now < recoveryDelay := by
      intro quiet
      simpa [expires, is, quiet] using inTime
    simp only [Station.Leads, Station.tick, is]
    apply leads_recover table is m wiring.tx wiring.rx early
  | counting request count kept =>
    simp only [Station.Leads, Station.tick, is]
    apply (foreseen_count wiring.tx m wiring.rx is).leads
  | sending request frame sent =>
    have fresh : e.Fresh now := by simpa [Engine.Fresh, expires, is] using inTime
    simp only [Station.Leads, Station.tick, is]
    apply (foreseen_send wiring.tx m wiring.rx is fresh).leads
  | relaying request count collector =>
    have fresh : e.Fresh now := by simpa [Engine.Fresh, expires, is] using inTime
    have early : e.timedOut now = false := by simpa [expires, is] using inTime
    simp only [Station.Leads, Station.tick, is, Engine.relay, early, Bool.false_eq_true, if_false]
    apply (foreseen_collect wiring.tx m wiring.rx is fresh).leads
  | committing batch =>
    simp only [Station.Leads, Station.tick, is]
    cases drained : wiring.drained with
    | true => apply (foreseen_commit wiring.tx m wiring.rx is).leads
    | false =>
      have early : ¬(batch = .staged ∧ e.staged = []) → e.timedOut now = false := by
        intro some
        have given : (decide (batch = .staged) && decide (e.staged = [])) = false := by
          simpa using some
        simpa [expires, is, drained, given] using inTime
      apply leads_commit_stalled table is m wiring.tx wiring.rx early

/-! ### Timely runs -/

/-- The bytes that a node reads at an event are the first of those that had arrived by then. -/
theorem readAt_append (table : Table M) (s : Station M) (event : Event) :
  s.readAt table event ++ (s.step table event).wiring.rx = s.wiring.rx ++ event.bytes
  := by
  have left : (s.step table event).wiring.rx <:+ s.wiring.rx ++ event.bytes := by
    cases event with
    | tick now =>
      rw [Event.bytes, List.append_nil]
      apply (s.moves_tick table now).2
    | receive bytes => exact List.suffix_rfl
    | _ => simp [step, Event.bytes]
  obtain ⟨read, arrived⟩ := left
  rw [readAt, ← arrived, List.length_append, Nat.add_sub_cancel, List.take_left]

/-- A node reads nothing but at a tick. -/
theorem readAt_eq_nil (table : Table M) (s : Station M) {event : Event}
    (other : ∀ now, event ≠ .tick now) :
  s.readAt table event = []
  := by
  cases event with
  | tick now => exact (other now rfl).elim
  | _ => simp [readAt, step, Event.bytes]

/-- The bytes that a node reads in a run are the first of those that have arrived by then. -/
theorem read_append (table : Table M) (s : Station M) (events : List Event) :
  s.read table events ++ (s.run table events).wiring.rx = s.wiring.rx ++ received events
  := by
  induction events generalizing s with
  | nil => simp [read, gather, run, received]
  | cons event rest ih =>
    calc s.read table (event :: rest) ++ (s.run table (event :: rest)).wiring.rx
      _ = s.readAt table event ++ ((s.step table event).read table rest ++
          ((s.step table event).run table rest).wiring.rx) := List.append_assoc ..
      _ = s.wiring.rx ++ (event.bytes ++ received rest) := by
        rw [ih, ← List.append_assoc, readAt_append, List.append_assoc]

/-- A run may be followed by one more event. -/
theorem run_snoc (table : Table M) (s : Station M) (events : List Event) (event : Event) :
  s.run table (events ++ [event]) = (s.run table events).step table event
  := s.run_append table events [event]

/-- The bytes that a node reads in a run that goes on for one more event. -/
theorem read_snoc (table : Table M) (s : Station M) (events : List Event) (event : Event) :
  s.read table (events ++ [event]) =
    s.read table events ++ (s.run table events).readAt table event
  := by
  simp only [read, gather_append, gather, List.append_nil]

/-- A node reads more in a longer run. -/
theorem read_prefix (table : Table M) (s : Station M) {xs ys : List Event} (begins : xs <+: ys) :
  s.read table xs <+: s.read table ys
  := by
  obtain ⟨more, rfl⟩ := begins
  rw [read, read, gather_append]
  apply List.prefix_append

/-- A node sends more in a longer run. -/
theorem sent_prefix (table : Table M) (s : Station M) {xs ys : List Event} (begins : xs <+: ys) :
  s.sent table xs <+: s.sent table ys
  := by
  obtain ⟨more, rfl⟩ := begins
  rw [sent, sent, gather_append]
  apply List.prefix_append

/-- The bytes that a node reads at a tick are those that wait no longer. -/
theorem readAt_tick {s : Station M} {read : List UInt8}
    (waited : s.wiring.rx = read ++ (s.tick table now).wiring.rx) :
  s.readAt table (.tick now) = read
  := by
  have kept := readAt_append table s (.tick now)
  rw [Event.bytes, List.append_nil, waited] at kept
  exact List.append_cancel_right kept

/-- An event at which no time runs out leads to what the node makes of the bytes that it reads.  All
that it sends is what its queue gets, if its link is undisturbed. -/
theorem leads_step (table : Table M) {s : Station M} {event : Event}
    (inTime : s.expires event = false) :
  ∃ sent, Body.Leads table s.body (s.readAt table event) (s.step table event).body sent ∧
    (s.wiring.tx.disturbances = [] →
      (s.step table event).wiring.tx.disturbances = [] ∧ s.sentAt table event = sent)
  := by
  cases event with
  | tick now =>
    obtain ⟨read, sent, waited, link, leads⟩ := leads_tick table inTime
    refine ⟨sent, ?_, fun quiet => ⟨?_, ?_⟩⟩
    · rw [readAt_tick waited]
      apply leads
    · rw [step, link]
      apply disturbances_pushAll quiet
    · rw [sentAt, step, link, Link.queue_pushAll quiet, List.drop_left]
  | _ =>
    refine ⟨[], ?_, fun quiet => ⟨quiet, ?_⟩⟩
    · rw [readAt_eq_nil table s (by simp)]
      apply Body.Leads.refl
    · simp [sentAt, step, Link.drop]

/-- In a timely run a node makes of the bytes that it reads what it would make of them if nothing
hindered it.  All that it sends is what its queue gets, if its link is undisturbed. -/
theorem Timely.leads {s : Station M} {events : List Event} (timely : s.Timely table events) :
  ∃ sent, Body.Leads table s.body (s.read table events) (s.run table events).body sent ∧
    (s.wiring.tx.disturbances = [] → s.sent table events = sent)
  := by
  induction events generalizing s with
  | nil => exact ⟨[], Body.Leads.refl table _, fun _ => rfl⟩
  | cons event rest ih =>
    obtain ⟨first, leads, link⟩ := leads_step table timely.1
    obtain ⟨others, behind, later⟩ := ih timely.2
    refine ⟨first ++ others, leads.trans behind, fun quiet => ?_⟩
    obtain ⟨quiet', same⟩ := link quiet
    rw [sent, gather, same]
    apply congrArg (first ++ ·) (later quiet')

/-- After a timely run at whose end a node waits, it is what it makes of the bytes that it has read.
It has sent all that it sends on their behalf, if its link is undisturbed. -/
theorem Timely.digest_read {s : Station M} {events : List Event} (timely : s.Timely table events)
    (waiting : (s.run table events).engine.phase.Waiting) :
  ∃ sent, s.body.digest table (s.read table events) = ((s.run table events).body, sent) ∧
    (s.wiring.tx.disturbances = [] → s.sent table events = sent)
  := by
  obtain ⟨sent, leads, all⟩ := timely.leads
  have waiting' : (s.run table events).body.engine.phase.Waiting := waiting
  rw [Body.Leads, Body.rest_of_waiting waiting', List.append_nil] at leads
  exact ⟨sent, leads, all⟩

/-- A node that listens waits. -/
theorem waiting_of_listening {e : Engine} (listens : e.state = .listening) :
  e.phase.Waiting
  := by
  unfold Engine.state at listens
  cases phase : e.phase with
  | listening heard => trivial
  | _ => simp [phase, Phase.state] at listens

end Station

end DaisyChain.Node
