import DaisyChain.Proofs.Node.Current
import DaisyChain.SplitFlap.Properties
import Mathlib.Data.List.Induction

/-!
# Recoveries

A node that has failed recovers until its line has been quiet for the delay of a recovery: it does
not listen a millisecond earlier, and no later than at its next tick
(`Station.recovers_exactly`).  Meanwhile it answers each byte that it reads with one zero, and
forgets nothing.

Nothing connects the ports that the node finds at its ticks, so any bytes may arrive in between, any
may leave, and the line may be busy or quiet as it likes.
-/

namespace DaisyChain.Node

variable {M : Type}

/-! ### Swallowing -/

/-- Between the first wiring and the second one some bytes have been read, each of them when there was
room for a zero, and as many zeros have been sent; either no byte is left, or no room. -/
def Wiring.Swallows (w w' : Wiring) : Prop :=
  ∃ read, w.rx = read ++ w'.rx ∧ w'.tx = w.tx.pushAll (List.replicate read.length 0) ∧
    (∀ k < read.length, (w.tx.pushAll (List.replicate k 0)).room ≠ 0) ∧
    (w'.rx = [] ∨ w'.tx.room = 0)

/-! ### Beats -/

/-- A tick some milliseconds after a fault, with the port as the node finds it then. -/
structure Beat where
  after : Nat
  port : Wiring

/-- The line is busy at a beat, after all has been swallowed that can be answered. -/
def Beat.busy (b : Beat) : Bool :=
  b.port.busy (Engine.swallow b.port.tx b.port.rx).1

/-- The latest beat at which the line was busy, or the fault if it never was. -/
def lastBusy (beats : List Beat) : Nat :=
  ((beats.filter Beat.busy).map Beat.after).foldl max 0

/-- The line is quiet at a beat that comes after the given ones, and long enough after the latest of
them at which it was busy. -/
def ends (beats : List Beat) (b : Beat) : Bool :=
  !b.busy && decide (lastBusy beats + recoveryDelay ≤ b.after)

/-- None of the beats ends the recovery. -/
def Unfinished (beats : List Beat) : Prop :=
  ∀ k, (within : k < beats.length) → ends (beats.take k) beats[k] = false

instance (beats : List Beat) : Decidable (Unfinished beats) :=
  inferInstanceAs (Decidable (∀ k, (within : k < beats.length) → _))

/-- A recovery goes on if it has gone on so far and one more beat does not end it. -/
theorem unfinished_snoc {beats : List Beat} {b : Beat} (unfinished : Unfinished (beats ++ [b])) :
  Unfinished beats ∧ ends beats b = false
  := by
  constructor
  · intro k within
    have longer : k < (beats ++ [b]).length := by
      rw [List.length_append]
      exact Nat.lt_add_right _ within
    have same := unfinished k longer
    rw [List.take_append_of_le_length (Nat.le_of_lt within), List.getElem_append_left within] at same
    exact same
  · simpa using unfinished beats.length (by simp)

/-- The latest beat at which the line was busy, after one more beat. -/
theorem lastBusy_snoc (beats : List Beat) (b : Beat) :
  lastBusy (beats ++ [b]) = if b.busy then max (lastBusy beats) b.after else lastBusy beats
  := by
  simp only [lastBusy, List.filter_append, List.map_append, List.foldl_append]
  cases busy : b.busy <;> simp [busy]

/-- The latest beat at which the line was busy is one of the beats. -/
theorem lastBusy_le {beats : List Beat} {time : Nat} (earlier : ∀ b ∈ beats, b.after ≤ time) :
  lastBusy beats ≤ time
  := by
  induction beats using List.reverseRecOn with
  | nil => exact Nat.zero_le time
  | append_singleton beats b ih =>
    have before := ih fun other member => earlier other (List.mem_append_left _ member)
    have last := earlier b (List.mem_append_right _ (List.mem_singleton_self b))
    rw [lastBusy_snoc]
    split <;> omega

namespace Station

variable (table : Table M) (start : UInt32)

/-- The node after a beat. -/
def beat (s : Station M) (b : Beat) : Station M :=
  { s with wiring := b.port }.tick table (start + UInt32.ofNat b.after)

/-- The node after some beats. -/
def beats (s : Station M) (beats : List Beat) : Station M :=
  beats.foldl (beat table start) s

variable {table start} {s : Station M}

/-- A beat of a node that recovers. -/
theorem beat_of_recovering (recovering : s.engine.phase = .recovering) (b : Beat) :
  s.beat table start b =
    ⟨s.engine.recover (start + UInt32.ofNat b.after) b.busy,
      { b.port with
        rx := (Engine.swallow b.port.tx b.port.rx).1
        tx := (Engine.swallow b.port.tx b.port.rx).2 },
      s.module⟩
  := by
  simp only [beat, tick, recovering]
  rfl

/-- What becomes of an engine that has been recovering since the given time after a fault. -/
theorem engine_beat {since : Nat} (recovering : s.engine.phase = .recovering)
    (began : s.engine.since = start + UInt32.ofNat since) {b : Beat} (later : since ≤ b.after)
    (short : b.after < UInt32.size) :
  (s.beat table start b).engine =
    if b.busy then { s.engine with since := start + UInt32.ofNat b.after }
    else if since + recoveryDelay ≤ b.after then
      s.engine.enter (.listening .nothing) (start + UInt32.ofNat b.after)
    else s.engine
  := by
  have elapsed : s.engine.elapsed (start + UInt32.ofNat b.after) = b.after - since := by
    have now : s.engine.elapsed (start + UInt32.ofNat since) = 0 := by
      simp [Engine.elapsed, began]
    have passed := s.engine.elapsed_add (start + UInt32.ofNat since)
      (show s.engine.elapsed (start + UInt32.ofNat since) + (b.after - since) < UInt32.size by omega)
    rw [now, UInt32.add_assoc, ← UInt32.ofNat_add, Nat.add_sub_cancel' later, Nat.zero_add] at passed
    exact passed
  have ripe : recoveryDelay ≤ b.after - since ↔ since + recoveryDelay ≤ b.after := by
    have some : 0 < recoveryDelay := by decide
    omega
  rw [beat_of_recovering recovering]
  simp only [Engine.recover, elapsed, ripe]

/-- A node that has failed has been recovering since the tick at which it failed. -/
theorem since_of_failed {now : UInt32} (sound : s.engine.state ≠ .recovering)
    (failed : (s.tick table now).engine.state = .recovering) :
  (s.tick table now).engine.since = now
  := by
  rcases s.progress_tick table now with same | moved
  · rw [same] at failed
    contradiction
  · exact moved

/-- An engine whose state is to recover recovers. -/
theorem phase_of_recovering {e : Engine} (recovers : e.state = .recovering) :
  e.phase = .recovering
  := by
  unfold Engine.state at recovers
  cases phase : e.phase with
  | recovering => rfl
  | _ => simp [phase, Phase.state] at recovers

/-- A beat of a node with the given recovery behind it. -/
theorem engine_beat_of_recovering (table : Table M) {front : List Beat} {b : Beat}
    (recovering : s.engine.phase = .recovering)
    (began : s.engine.since = start + UInt32.ofNat (lastBusy front))
    (earlier : ∀ other ∈ front, other.after ≤ b.after) (short : b.after < UInt32.size) :
  (s.beat table start b).engine =
    if ends front b then s.engine.enter (.listening .nothing) (start + UInt32.ofNat b.after)
    else { s.engine with since := start + UInt32.ofNat (lastBusy (front ++ [b])) }
  := by
  have latest := lastBusy_le earlier
  rw [engine_beat recovering began latest short, lastBusy_snoc, ends, Nat.max_eq_right latest]
  cases b.busy with
  | true => rfl
  | false =>
    by_cases ripe : lastBusy front + recoveryDelay ≤ b.after
    · simp [ripe]
    · simp [ripe, ← began]

/-- As long as no beat ends the recovery, all that changes in a node that has failed is since when
its line has been quiet. -/
theorem beats_of_recovering (table : Table M) (recovering : s.engine.phase = .recovering)
    (began : s.engine.since = start) {front : List Beat}
    (ordered : (front.map Beat.after).Pairwise (· ≤ ·)) (short : ∀ b ∈ front, b.after < UInt32.size)
    (unfinished : Unfinished front) :
  (s.beats table start front).engine =
      { s.engine with since := start + UInt32.ofNat (lastBusy front) } ∧
    (s.beats table start front).module = s.module
  := by
  -- From the end, since what the last beat finds depends on all beats before it.
  induction front using List.reverseRecOn with
  | nil =>
    rw [beats, List.foldl_nil, lastBusy, ← began]
    exact ⟨by simp, rfl⟩
  | append_singleton front b ih =>
    rw [List.map_append, List.pairwise_append] at ordered
    obtain ⟨before, -, order⟩ := ordered
    have earlier (other : Beat) (member : other ∈ front) : other.after ≤ b.after :=
      order _ (List.mem_map_of_mem member) _ (List.mem_singleton_self _)
    obtain ⟨unfinished', going⟩ := unfinished_snoc unfinished
    obtain ⟨engine, module⟩ := ih before
      (fun other member => short other (List.mem_append_left _ member))
      unfinished'
    have still : (s.beats table start front).engine.phase = .recovering := by rw [engine, recovering]
    have since : (s.beats table start front).engine.since =
        start + UInt32.ofNat (lastBusy front) := by rw [engine]
    rw [beats, List.foldl_append, List.foldl_cons, List.foldl_nil]
    change ((s.beats table start front).beat table start b).engine = _ ∧
      ((s.beats table start front).beat table start b).module = _
    rw [engine_beat_of_recovering table still since earlier
      (short b (List.mem_append_right _ (List.mem_singleton_self b))), going, engine]
    refine ⟨rfl, ?_⟩
    rw [beat_of_recovering still]
    exact module

/-! ### Exactness -/

/-- What becomes of a node that has failed at a beat that comes after others, none of which has ended
its recovery. -/
structure Recovers (table : Table M) (start : UInt32) (failed : Station M) (front : List Beat)
    (b : Beat) : Prop where
  /-- It still recovers by then. -/
  recovering : (failed.beats table start front).engine.phase = .recovering
  /-- It listens for a new header if the line has been quiet for long enough, and recovers else. -/
  phase : (failed.beats table start (front ++ [b])).engine.phase =
    if ends front b then .listening .nothing else .recovering
  swallows : b.port.Swallows (failed.beats table start (front ++ [b])).wiring
  module : (failed.beats table start (front ++ [b])).module = failed.module
  record : (failed.beats table start (front ++ [b])).engine.record = failed.engine.record
  staged : (failed.beats table start (front ++ [b])).engine.staged = failed.engine.staged

/-- A node that has failed at the given time recovers until the first tick at which its line is quiet
and has been quiet for the delay of a recovery; it listens after that tick.  Until then it answers each
byte that it reads with one zero, and its module, its record and what it holds back stay as they
are. -/
theorem recovers_exactly (table : Table M) {s : Station M} {start : UInt32}
    (sound : s.engine.state ≠ .recovering)
    (failed : (s.tick table start).engine.state = .recovering) {front : List Beat} {b : Beat}
    (ordered : ((front ++ [b]).map Beat.after).Pairwise (· ≤ ·))
    (short : ∀ b' ∈ front ++ [b], b'.after < UInt32.size)
    (unfinished : Unfinished front) :
  Recovers table start (s.tick table start) front b
  := by
  have recovering := phase_of_recovering failed
  have began := since_of_failed sound failed
  rw [List.map_append, List.pairwise_append] at ordered
  obtain ⟨before, -, order⟩ := ordered
  have earlier (other : Beat) (member : other ∈ front) : other.after ≤ b.after :=
    order _ (List.mem_map_of_mem member) _ (List.mem_singleton_self _)
  obtain ⟨engine, module⟩ := beats_of_recovering table recovering began before
    (fun other member => short other (List.mem_append_left _ member)) unfinished
  have still : ((s.tick table start).beats table start front).engine.phase = .recovering := by
    rw [engine, recovering]
  have since : ((s.tick table start).beats table start front).engine.since =
      start + UInt32.ofNat (lastBusy front) := by rw [engine]
  have beat := engine_beat_of_recovering table still since earlier
    (short b (List.mem_append_right _ (List.mem_singleton_self b)))
  have last : (s.tick table start).beats table start (front ++ [b]) =
      ((s.tick table start).beats table start front).beat table start b := by
    rw [beats, List.foldl_append, List.foldl_cons, List.foldl_nil, beats]
  refine ⟨still, ?_, ?_, ?_, ?_, ?_⟩
  · rw [last, beat]
    split
    · rfl
    · exact still
  · rw [last, beat_of_recovering still]
    exact exists_swallowed b.port.tx b.port.rx
  · rw [last, beat_of_recovering still]
    exact module
  · rw [last, beat, engine]
    split <;> rfl
  · rw [last, beat, engine]
    split <;> rfl

/-! ### A broken header -/

/-- A node to which a header of odd parity comes. -/
def misled : Station SplitFlap.Module where
  wiring := { rx := [0, 0, 1] }
  module := {}

/-- The line is busy ten milliseconds after the fault, with two bytes and room for one answer, and
then it is quiet, with a byte that cannot be answered. -/
def restless : List Beat :=
  [⟨10, { rx := [0x55, 0xAA], tx := { capacity := 1 }, busy := fun _ => true }⟩,
    ⟨39, { rx := [0xAA], tx := { capacity := 0 } }⟩]

/-- The node recovers for forty milliseconds, over which its clock wraps round. -/
theorem recovers_exactly_restless :
  let failed := misled.tick SplitFlap.table 4294967280
  let last : Beat := ⟨40, { rx := [0xAA] }⟩
  misled.engine.state ≠ .recovering ∧ failed.engine.state = .recovering ∧
    ((restless ++ [last]).map Beat.after).Pairwise (· ≤ ·) ∧
    (∀ b ∈ restless ++ [last], b.after < UInt32.size) ∧ Unfinished restless ∧
    ends restless last = true ∧ Recovers SplitFlap.table 4294967280 failed restless last
  := by
  intro failed last
  have sound : misled.engine.state ≠ .recovering := by decide
  have fails : failed.engine.state = .recovering := by decide
  have ordered : ((restless ++ [last]).map Beat.after).Pairwise (· ≤ ·) := by decide
  have short : ∀ b ∈ restless ++ [last], b.after < UInt32.size := by decide
  have unfinished : Unfinished restless := by decide
  exact ⟨sound, fails, ordered, short, unfinished, by decide,
    recovers_exactly SplitFlap.table sound fails ordered short unfinished⟩

end Station

end DaisyChain.Node
