import DaisyChain.Proofs.Node.Current
import DaisyChain.Proofs.Node.Runs
import DaisyChain.SplitFlap.Properties

/-!
# Nodes left in silence

A node that gets no byte any more, and whose bytes stay where they are, gives up whatever it was
about, and listens for a new header (`Station.listens_in_silence`).  How long that takes at most is
the patience of its engine.  Every millisecond in which there is a tick takes one away from it
(`Station.patience_tick`).

The longest way leads from a decision to a frame that gets stuck halfway, and from there through the
recovery.
-/

namespace DaisyChain

/-! ### Links that lose nothing -/

/-- Disturbances that lose no byte leave a byte on the link, and come to lose none. -/
theorem Disturbance.keeps_apply {ds : List Disturbance} (keeps : ∀ d ∈ ds, d.mask ≠ none)
    (b : UInt8) :
  (Disturbance.apply ds (some b)).1 ≠ none ∧
    ∀ d ∈ (Disturbance.apply ds (some b)).2, d.mask ≠ none
  := by
  induction ds generalizing b with
  | nil => simp [apply]
  | cons d ds ih =>
    obtain ⟨own, others⟩ := List.forall_mem_cons.mp keeps
    unfold apply
    split
    · obtain ⟨mask, changes⟩ := Option.ne_none_iff_exists'.mp own
      rw [changes]
      exact ih others (b ^^^ mask)
    · obtain ⟨there, later⟩ := ih others b
      exact ⟨there, List.forall_mem_cons.mpr ⟨own, later⟩⟩

namespace Link

/-- Every byte that is pushed stays on the link, though it may be changed. -/
def Keeps (l : Link) : Prop :=
  ∀ d ∈ l.disturbances, d.mask ≠ none

variable {l : Link}

/-- A link that loses nothing does not come to do so. -/
theorem Keeps.push (keeps : l.Keeps) (b : UInt8) :
  (l.push b).Keeps
  := (Disturbance.keeps_apply keeps b).2

/-- A byte takes up room on a link that loses nothing. -/
theorem Keeps.room_push (keeps : l.Keeps) (b : UInt8) :
  (l.push b).room = l.room - 1
  := by
  obtain ⟨b', there⟩ := Option.ne_none_iff_exists'.mp (Disturbance.keeps_apply keeps b).1
  simp only [room, Link.push, there, Option.toList_some, List.length_append, List.length_singleton]
  omega

/-- Bytes take up room on a link that loses nothing, and it loses nothing after them. -/
theorem Keeps.pushAll (keeps : l.Keeps) (bytes : List UInt8) :
  (l.pushAll bytes).Keeps ∧ (l.pushAll bytes).room = l.room - bytes.length
  := by
  induction bytes generalizing l with
  | nil => exact ⟨keeps, rfl⟩
  | cons b rest ih =>
    obtain ⟨keeps', room'⟩ := ih (keeps.push b)
    refine ⟨keeps', ?_⟩
    change ((l.push b).pushAll rest).room = _
    rw [room', keeps.room_push, List.length_cons]
    omega

end Link

namespace Node

variable {M : Type} {table : Table M} {now : UInt32}

/-! ### Patience -/

namespace Engine

/-- The milliseconds within which an engine listens for a new header if nothing happens but ticks,
with so much room left for its bytes. -/
def patience (e : Engine) (room : Nat) (now : UInt32) : Nat :=
  match e.phase with
  | .listening .nothing => 0
  | .recovering => recoveryDelay - e.elapsed now
  | .listening _ | .relaying .. | .committing _ => recoveryDelay + (nodeTimeout + 1 - e.elapsed now)
  | .sending .. =>
    if room = 0 then recoveryDelay + (nodeTimeout + 1 - e.elapsed now)
    else recoveryDelay + nodeTimeout + 2
  | .counting .. => recoveryDelay + nodeTimeout + 3

variable {room : Nat}

/-- The patience of an engine is bounded. -/
theorem patience_le (e : Engine) (room : Nat) (now : UInt32) :
  e.patience room now ≤ recoveryDelay + nodeTimeout + 3
  := by
  unfold patience
  split <;> (try split) <;> omega

/-- An engine without patience listens for a new header, if it has time left. -/
theorem phase_of_patience {e : Engine} (fresh : e.Fresh now) (impatient : e.patience room now = 0) :
  e.phase = .listening .nothing
  := by
  have long : 0 < recoveryDelay := by decide
  unfold patience at impatient
  unfold Fresh at fresh
  split at impatient
  · assumption
  · next phase =>
    simp only [phase] at fresh
    omega
  · omega
  · omega
  · omega
  · split at impatient <;> omega
  · omega

/-- An engine that has just begun to recover does so for the whole delay. -/
theorem patience_fail (e : Engine) (fault : Fault) (room : Nat) (now : UInt32) :
  (e.fail fault now).patience room now = recoveryDelay
  := by simp [patience, fail, enter, elapsed]

/-- After progress an engine has less patience than before a decision, unless it faces one. -/
theorem patience_of_since {e : Engine} (since : e.since = now) (decided : e.state ≠ .counting) :
  e.patience room now ≤ recoveryDelay + nodeTimeout + 2
  := by
  have elapsed : e.elapsed now = 0 := by simp [Engine.elapsed, since]
  unfold patience
  split
  · omega
  · omega
  · omega
  · omega
  · omega
  · split <;> omega
  · next phase => simp [state, phase, Phase.state] at decided

/-- An engine is patient for what is left of its time, and then for the delay of a recovery. -/
def Waits (e : Engine) (room : Nat) : Prop :=
  ∀ now, e.patience room now = recoveryDelay + (nodeTimeout + 1 - e.elapsed now)

section Waiting

variable {e : Engine} {ms : Nat} (inTime : e.timedOut now = false) (soon : ms ≤ 1)

include inTime soon

/-- When a millisecond passes, an engine that waits has less patience. -/
theorem Waits.patience_later (waits : e.Waits room) :
  e.patience room (now + UInt32.ofNat ms) ≤ e.patience room now - ms
  := by
  have early : e.elapsed now ≤ nodeTimeout := Nat.not_lt.mp (of_decide_eq_false inTime)
  have later : e.elapsed (now + UInt32.ofNat ms) = e.elapsed now + ms :=
    elapsed_soon (Nat.le_trans early (by decide)) soon
  rw [waits, waits, later]
  omega

/-- An engine that waits has the patience to recover. -/
theorem Waits.delay_le (waits : e.Waits room) :
  recoveryDelay ≤ e.patience room now - ms
  := by
  have early : e.elapsed now ≤ nodeTimeout := Nat.not_lt.mp (of_decide_eq_false inTime)
  rw [waits]
  omega

end Waiting

/-! ### Patience in each phase -/

variable {e : Engine} {ms : Nat}

/-- Waiting for the rest of a header takes patience. -/
theorem patience_awaitHeader {heard : Heard} (listening : e.phase = .listening heard)
    (fresh : e.Fresh now) (soon : ms ≤ 1) :
  (e.awaitHeader heard (now + UInt32.ofNat ms)).patience room (now + UInt32.ofNat ms) ≤
    e.patience room now - ms
  := by
  by_cases begun : heard = .nothing
  · subst begun
    simp [awaitHeader, patience, listening]
  · have waits : e.Waits room := by
      intro now
      cases heard with
      | nothing => contradiction
      | first byte0 => simp only [patience, listening]
      | second byte0 byte1 => simp only [patience, listening]
    have inTime : e.timedOut now = false := by
      cases heard with
      | nothing => contradiction
      | first byte0 => simpa only [Fresh, listening] using fresh
      | second byte0 byte1 => simpa only [Fresh, listening] using fresh
    unfold awaitHeader
    split
    · rw [patience_fail]
      exact waits.delay_le inTime soon
    · exact waits.patience_later inTime soon

/-- Recovering takes patience while the line is quiet. -/
theorem patience_recover (recovering : e.phase = .recovering) (fresh : e.Fresh now) (soon : ms ≤ 1) :
  (e.recover (now + UInt32.ofNat ms) false).patience room (now + UInt32.ofNat ms) ≤
    e.patience room now - ms
  := by
  have early : e.elapsed now < recoveryDelay := by simpa only [Fresh, recovering] using fresh
  have later : e.elapsed (now + UInt32.ofNat ms) = e.elapsed now + ms :=
    elapsed_soon (Nat.le_of_lt early) soon
  simp only [recover, Bool.false_eq_true, if_false]
  split
  · simp [patience, enter]
  · simp only [patience, recovering, later]
    omega

/-- A decision takes patience. -/
theorem patience_count (table : Table M) {request : Request} {count : Nat}
    {kept : Option (List UInt8)} (counting : e.phase = .counting request count kept) (m : M)
    (soon : ms ≤ 1) :
  let e' := e.count table (now + UInt32.ofNat ms) request count kept m
  e'.patience room (now + UInt32.ofNat ms) ≤ e.patience room now - ms
  := by
  intro e'
  have bound : e'.patience room (now + UInt32.ofNat ms) ≤ recoveryDelay + nodeTimeout + 2 :=
    patience_of_since (since_count table (now + UInt32.ofNat ms) e request count kept m)
      (state_count_ne e request count kept m)
  have before : e.patience room now = recoveryDelay + nodeTimeout + 3 := by
    simp only [patience, counting]
  omega

/-- Sending takes patience: as much is sent at once as there is room for. -/
theorem patience_send {request : Request} {frame : List UInt8} {sent : Nat}
    (sending : e.phase = .sending request frame sent) (fresh : e.Fresh now) (soon : ms ≤ 1)
    {tx : Link} (keeps : tx.Keeps) :
  let r := e.send (now + UInt32.ofNat ms) request frame sent tx
  r.1.patience r.2.room (now + UInt32.ofNat ms) ≤ e.patience tx.room now - ms
  := by
  have inTime : e.timedOut now = false := by simpa only [Fresh, sending] using fresh
  have early : e.elapsed now ≤ nodeTimeout := Nat.not_lt.mp (of_decide_eq_false inTime)
  intro r
  by_cases gone : e.timedOut (now + UInt32.ofNat ms) = true
  · have given : r = (e.fail .timeout (now + UInt32.ofNat ms), tx) := if_pos gone
    have before : recoveryDelay + (nodeTimeout + 1 - e.elapsed now) ≤ e.patience tx.room now := by
      simp only [patience, sending]
      split <;> omega
    rw [given, patience_fail]
    omega
  · have given : r = (
        let batch := (frame.drop sent).take tx.room
        if frame.length ≤ sent + batch.length then
          e.enter (.listening .nothing) (now + UInt32.ofNat ms)
        else if batch = [] then e
        else e.enter (.sending request frame (sent + batch.length)) (now + UInt32.ofNat ms),
        tx.pushAll ((frame.drop sent).take tx.room)) := if_neg gone
    rw [given, (keeps.pushAll _).2]
    simp only
    split
    · simp [patience, enter]
    · next unfinished =>
      -- What is left does not fit, so the room has been used up.
      have full : tx.room - ((frame.drop sent).take tx.room).length = 0 := by
        rw [List.length_take, List.length_drop] at unfinished ⊢
        omega
      rw [full]
      split
      · next stuck =>
        have closed : tx.room = 0 := by rwa [stuck] at full
        have waits : e.Waits 0 := fun now => by simp only [patience, sending, if_true]
        rw [closed]
        exact waits.patience_later inTime soon
      · next some =>
        have room : tx.room ≠ 0 := by
          intro closed
          rw [closed, List.take_zero] at some
          contradiction
        have before : e.patience tx.room now = recoveryDelay + nodeTimeout + 2 := by
          simp only [patience, sending, room, if_false]
        rw [before]
        simp only [patience, enter, elapsed, UInt32.sub_self, UInt32.toNat_zero, if_true]
        omega

/-- Receiving a frame takes patience if no byte comes. -/
theorem patience_relay {request : Request} {count : Nat} {collector : Frame.Collector}
    (relaying : e.phase = .relaying request count collector) (fresh : e.Fresh now) (soon : ms ≤ 1)
    (tx : Link) :
  let r := e.relay (now + UInt32.ofNat ms) request count collector [] tx
  r.1.patience r.2.2.room (now + UInt32.ofNat ms) ≤ e.patience tx.room now - ms
  := by
  have inTime : e.timedOut now = false := by simpa only [Fresh, relaying] using fresh
  have waits : e.Waits tx.room := fun now => by simp only [patience, relaying]
  simp only [relay, collect]
  split
  · split
    · simp [patience, enter]
    · rw [patience_fail]
      exact waits.delay_le inTime soon
  · exact waits.patience_later inTime soon

/-- Applying values takes patience, whether or not the bytes sent have left. -/
theorem patience_commit (table : Table M) {batch : Batch} (committing : e.phase = .committing batch)
    (fresh : e.Fresh now) (soon : ms ≤ 1) (drained : Bool) (m : M) :
  (e.commit table (now + UInt32.ofNat ms) batch drained m).1.patience room
      (now + UInt32.ofNat ms) ≤ e.patience room now - ms
  := by
  have inTime : e.timedOut now = false := by simpa only [Fresh, committing] using fresh
  have waits : e.Waits room := fun now => by simp only [patience, committing]
  have listens (e' : Engine) : (e'.enter (.listening .nothing) (now + UInt32.ofNat ms)).patience room
      (now + UInt32.ofNat ms) ≤ e.patience room now - ms := by
    simp [patience, enter]
  have fails (e' : Engine) (fault : Fault) : (e'.fail fault (now + UInt32.ofNat ms)).patience room
      (now + UInt32.ofNat ms) ≤ e.patience room now - ms := by
    rw [patience_fail]
    exact waits.delay_le inTime soon
  obtain ⟨same, -⟩ | ⟨idle, ends⟩ | ⟨faulty, fault, ends⟩ :=
    e.commit_ends table (now + UInt32.ofNat ms) batch drained m
  · rw [same]
    exact waits.patience_later inTime soon
  · rw [ends]
    apply listens
  · rw [ends]
    apply fails

end Engine

/-! ### Silence -/

/-- No byte waits to be read, the line is not busy, and no byte leaves the link on which the node
sends. -/
structure Wiring.Silent (w : Wiring) : Prop where
  unheard : w.rx = []
  quiet : w.busy [] = false
  keeps : w.tx.Keeps

namespace Station

variable {s : Station M} {ms : Nat}

/-- A tick does not change what makes the line busy. -/
theorem busy_tick (table : Table M) (now : UInt32) (s : Station M) :
  (s.tick table now).wiring.busy = s.wiring.busy
  := by
  unfold tick
  simp only
  split <;> rfl

/-- In silence a tick makes no noise. -/
theorem silent_tick (table : Table M) (now : UInt32) (silent : s.wiring.Silent) :
  (s.tick table now).wiring.Silent
  := by
  obtain ⟨⟨bytes, sent⟩, read⟩ := s.moves_tick table now
  refine ⟨?_, ?_, ?_⟩
  · rw [silent.unheard] at read
    exact List.suffix_nil.mp read
  · rw [busy_tick]
    exact silent.quiet
  · rw [sent]
    exact (silent.keeps.pushAll bytes).1

/-- The patience of the engine of a node. -/
def patience (s : Station M) (now : UInt32) : Nat :=
  s.engine.patience s.wiring.tx.room now

/-- In silence a tick takes away as much patience as time has passed since the one before, if that is
a millisecond at most. -/
theorem patience_tick (table : Table M) (silent : s.wiring.Silent) (fresh : s.engine.Fresh now)
    (soon : ms ≤ 1) :
  (s.tick table (now + UInt32.ofNat ms)).patience (now + UInt32.ofNat ms) ≤ s.patience now - ms
  := by
  unfold patience
  cases phase : s.engine.phase with
  | listening heard =>
    simp only [tick, phase, silent.unheard, Engine.listen]
    exact Engine.patience_awaitHeader phase fresh soon
  | recovering =>
    simp only [tick, phase, silent.unheard, Engine.swallow, silent.quiet]
    exact Engine.patience_recover phase fresh soon
  | counting request count kept =>
    simp only [tick, phase]
    exact Engine.patience_count table phase s.module soon
  | sending request frame sent =>
    simp only [tick, phase]
    exact Engine.patience_send phase fresh soon silent.keeps
  | relaying request count collector =>
    simp only [tick, phase, silent.unheard]
    exact Engine.patience_relay phase fresh soon _
  | committing batch =>
    simp only [tick, phase]
    exact Engine.patience_commit table phase fresh soon s.wiring.drained s.module

/-! ### Ticks in silence -/

/-- The ticks at each of some milliseconds in a row after the given time, at each of them so many as
the given function tells. -/
def ticking (start : UInt32) (ticks : Nat → Nat) (ms : Nat) : List Event :=
  (List.range ms).flatMap fun k =>
    List.replicate (ticks k) (.tick (start + UInt32.ofNat (k + 1)))

/-- What holds of a node in silence after a tick at the given time. -/
structure Calms (s : Station M) (now : UInt32) (bound : Nat) : Prop where
  silent : s.wiring.Silent
  fresh : s.engine.Fresh now
  patience_le : s.patience now ≤ bound

/-- In silence a tick calms a node by as much time as has passed. -/
theorem Calms.tick {bound : Nat} (calms : s.Calms now bound) (table : Table M) (soon : ms ≤ 1) :
  (s.tick table (now + UInt32.ofNat ms)).Calms (now + UInt32.ofNat ms) (bound - ms)
  := by
  refine ⟨silent_tick table _ calms.silent, fresh_tick table _ s, ?_⟩
  exact Nat.le_trans (patience_tick table calms.silent calms.fresh soon)
    (Nat.sub_le_sub_right calms.patience_le ms)

/-- In silence more ticks at the same time do no harm. -/
theorem Calms.ticks {bound : Nat} (calms : s.Calms now bound) (table : Table M) (count : Nat) :
  (s.run table (List.replicate count (.tick now))).Calms now bound
  := by
  induction count generalizing s with
  | zero => exact calms
  | succ count ih =>
    have first : (s.tick table now).Calms now bound := by
      simpa using calms.tick table (Nat.zero_le 1)
    exact ih first

/-- In silence a node with ticks at every millisecond loses its patience. -/
theorem Calms.ticking {bound : Nat} (calms : s.Calms now bound) (table : Table M)
    {ticks : Nat → Nat} (often : ∀ k, 0 < ticks k) (ms : Nat) :
  (s.run table (ticking now ticks ms)).Calms (now + UInt32.ofNat ms) (bound - ms)
  := by
  induction ms with
  | zero => simpa [Station.ticking, run] using calms
  | succ ms ih =>
    have next : now + UInt32.ofNat (ms + 1) = now + UInt32.ofNat ms + UInt32.ofNat 1 := by
      rw [UInt32.ofNat_add, UInt32.add_assoc]
    obtain ⟨more, count⟩ := Nat.exists_eq_succ_of_ne_zero (Nat.ne_of_gt (often ms))
    -- Only the first tick at a new time takes patience away.
    have first := ih.tick table (Nat.le_refl 1)
    have all := first.ticks table more
    rw [Station.ticking, List.range_succ, List.flatMap_append, run_append, List.flatMap_singleton,
      count, List.replicate_succ, next, ← Nat.sub_sub]
    exact all

/-- In silence a node that listens for a new header goes on listening. -/
theorem listening_of_silent (table : Table M) (silent : s.wiring.Silent)
    (listening : s.engine.phase = .listening .nothing) (later : List UInt32) :
  (s.run table (later.map .tick)).engine.phase = .listening .nothing
  := by
  induction later generalizing s with
  | nil => exact listening
  | cons now later ih =>
    apply ih (silent_tick table now silent)
    simp only [tick, listening, silent.unheard, Engine.listen, Engine.awaitHeader, ne_eq,
      not_true_eq_false, false_and, if_false]

/-- Whatever a node was about at a tick: if it is left in silence from then on, with ticks at every
millisecond, it listens for a new header within the times of a timeout and of a recovery and five
milliseconds more, and goes on listening. -/
theorem listens_in_silence (table : Table M) (s : Station M) (now : UInt32) (m : M) {w : Wiring}
    (silent : w.Silent) {ticks : Nat → Nat} (often : ∀ k, 0 < ticks k) (later : List UInt32) :
  let left : Station M := ⟨(s.tick table now).engine, w, m⟩
  let events := ticking now ticks (nodeTimeout + recoveryDelay + 5) ++ later.map .tick
  (left.run table events).engine.phase = .listening .nothing
  := by
  intro left events
  have begins : left.Calms now (recoveryDelay + nodeTimeout + 3) :=
    ⟨silent, s.fresh_tick table now, Engine.patience_le _ _ _⟩
  have calm := begins.ticking table often (nodeTimeout + recoveryDelay + 5)
  have impatient := Nat.le_zero.mp calm.patience_le
  rw [run_append]
  apply listening_of_silent table calm.silent
  exact Engine.phase_of_patience calm.fresh impatient

/-! ### A frame that gets stuck -/

/-- A node that is asked for its offset. -/
def asked : Station SplitFlap.Module where
  wiring := { rx := (ActionHeader.pack ⟨.read, false, SplitFlap.offset.id, 0⟩).toList }
  module := { offset := 5 }

/-- A port with room for two bytes, which never leave it. -/
def narrow : Wiring where
  tx := { capacity := 2 }
  drained := false

/-- The node has read the header just before its clock wraps round, and half of its frame gets stuck.
It still recovers after 57 milliseconds, and listens three milliseconds later. -/
theorem listens_in_silence_stuck :
  let left : Station SplitFlap.Module := ⟨(asked.tick SplitFlap.table 4294967294).engine, narrow, {}⟩
  let ticks := fun k => k % 2 + 1
  let events := ticking 4294967294 ticks (nodeTimeout + recoveryDelay + 5)
  left.engine.state = .counting ∧ narrow.Silent ∧ (∀ k, 0 < ticks k) ∧
    (left.run SplitFlap.table (ticking 4294967294 ticks 57)).engine.state = .recovering ∧
    (left.run SplitFlap.table (events ++ [58, 3000].map .tick)).engine.phase = .listening .nothing
  := by
  intro left ticks events
  have counting : left.engine.state = .counting := by decide +kernel
  have silent : narrow.Silent := ⟨rfl, rfl, by simp [Link.Keeps, narrow]⟩
  have often (k : Nat) : 0 < ticks k := Nat.succ_pos _
  have recovering :
      (left.run SplitFlap.table (ticking 4294967294 ticks 57)).engine.state = .recovering := by
    decide +kernel
  refine ⟨counting, silent, often, recovering, ?_⟩
  apply listens_in_silence SplitFlap.table asked 4294967294 {} silent often

end Station

end Node

end DaisyChain
