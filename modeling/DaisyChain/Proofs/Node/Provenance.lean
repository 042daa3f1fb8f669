import DaisyChain.Proofs.Node.Origins
import DaisyChain.Proofs.Node.Ticks

/-!
# Where values come from

Whatever comes over its line and whenever a node is given time, it puts nothing into its module but
values that it has received (`Station.calls_have_origins`).  No two calls of handlers stem from the
same frame.

A value waits in three places for its call: in the transaction until its frames are counted, in the
phase that applies it, and among the values held back.  `Stage` and `Accounts` tell the origins of
the values in all three of them.
-/

namespace DaisyChain.Node.Station

variable {M : Type} {table : Table M} {s : Station M} {past : List Event} {event : Event}
  {now : UInt32}

/-! ### Stages of a transaction -/

/-- A node takes part in the transaction of a header: the header has come no earlier than at the
given position, and behind it the given frames, and some bytes more. -/
structure Opened (table : Table M) (s : Station M) (past : List Event) (start : Nat)
    (before : List UInt8) (h : RawHeader) (frames : List (List UInt8)) (held : List UInt8) :
    Prop where
  read : s.read table past = before ++ h.toList ++ (frames.flatten ++ held)
  later : start ≤ before.length
  isAction : h.action ≠ .sync
  accepted : accepts h = true
  whole : ∀ bytes ∈ frames, ∃ frame, Frame.Whole bytes frame
  serving : s.Serving table past before h

/-- What a node has of the transaction in progress, if the frames of all other values end by the
given position. -/
def Stage (table : Table M) (s : Station M) (past : List Event) (start : Nat) : Phase → Prop
  | .listening heard =>
    ∃ before, s.read table past = before ++ heard.bytes ∧ heard.Apt ∧ start ≤ before.length
  | .counting request count none =>
    ∃ before h frames, s.Opened table past start before h frames [] ∧ request = .ofHeader h ∧
      frames.length + count = framesAfter h
  | .counting request count (some data) =>
    count = 0 ∧ ∃ o : Origin, o.Received table s past ∧ start < o.finish ∧
      request = .ofHeader o.header ∧ data = o.data
  | .relaying request count collector =>
    ∃ before h frames held, s.Opened table past start before h frames held ∧
      request = .ofHeader h ∧ frames.length + count + 1 = framesAfter h ∧
      collector = ⟨held, false⟩ ∧ 0 ∉ held
  | .committing (.one slot) =>
    ∃ o : Origin, o.Received table s past ∧ start < o.finish ∧ slot = o.slot
  | .recovering | .sending .. | .committing .staged => start ≤ (s.read table past).length

/-- The origins of the values that a node has put into its module, and of those that it holds
back. -/
structure Accounts (table : Table M) (s : Station M) (past : List Event)
    (used held : List Origin) (start : Nat) : Prop where
  staged : (s.run table past).engine.staged = held.map Origin.slot
  apart : held.Pairwise fun o o' => o.header.property ≠ o'.header.property
  received : ∀ o ∈ held, o.Received table s past
  distinct : (used ++ held).Pairwise fun o o' => o.finish ≠ o'.finish
  bounded : ∀ o ∈ used ++ held, o.finish ≤ start
  stage : s.Stage table past start (s.run table past).engine.phase

/-- All other frames have been read. -/
theorem Stage.le {start : Nat} {phase : Phase} (stage : s.Stage table past start phase) :
  start ≤ (s.read table past).length
  := by
  cases phase with
  | listening heard =>
    obtain ⟨before, read, -, later⟩ := stage
    rw [read, List.length_append]
    omega
  | recovering => exact stage
  | counting request count kept =>
    cases kept with
    | none =>
      obtain ⟨before, h, frames, opened, -⟩ := stage
      have later := opened.later
      rw [opened.read, List.length_append, List.length_append]
      omega
    | some data =>
      obtain ⟨-, o, received, later, -⟩ := stage
      have read := finish_le received
      omega
  | sending request frame sent => exact stage
  | relaying request count collector =>
    obtain ⟨before, h, frames, held, opened, -⟩ := stage
    have later := opened.later
    rw [opened.read, List.length_append, List.length_append]
    omega
  | committing batch =>
    cases batch with
    | one slot =>
      obtain ⟨o, received, later, -⟩ := stage
      have read := finish_le received
      omega
    | staged => exact stage

/-- A node that has just begun to listen is at the beginning of a transaction. -/
theorem stage_listening {start : Nat} (all : start ≤ (s.read table past).length) :
  s.Stage table past start (.listening .nothing)
  := ⟨_, (List.append_nil _).symm, trivial, all⟩

/-! ### Ticks -/

section Ticks

variable {start : Nat} {e e' : Engine} {read : List UInt8}

/-- A node that listens is at the beginning of another transaction, or in it. -/
theorem stage_heeds {heard : Heard} {tx : Link} {rx : List UInt8}
    (stage : s.Stage table past start (.listening heard))
    (heeds : Engine.Heeds now e heard tx rx read e')
    (further : s.read table (past ++ [event]) = s.read table past ++ read)
    (engine : (s.run table (past ++ [event])).engine = e') :
  e'.staged = e.staged ∧ s.Stage table (past ++ [event]) start e'.phase
  := by
  obtain ⟨before, said, -, later⟩ := stage
  have upto {skipped others : List UInt8} (bytes : heard.bytes ++ read = skipped ++ others) :
      s.read table (past ++ [event]) = (before ++ skipped) ++ others := by
    rw [further, said, List.append_assoc, bytes, List.append_assoc]
  have all : start ≤ (s.read table (past ++ [event])).length := by
    rw [further, said]
    simp only [List.length_append]
    omega
  have later' (skipped : List UInt8) : start ≤ (before ++ skipped).length := by
    rw [List.length_append]
    omega
  cases heeds with
  | on since bytes syncs apt => exact ⟨rfl, _, upto bytes, apt, later' _⟩
  | @whole h skipped bytes syncs isAction =>
    cases even : h.evenParity with
    | false =>
      simp only [Engine.acceptHeader, even, if_true]
      exact ⟨rfl, all⟩
    | true =>
      cases accepted : accepts h with
      | false =>
        simp only [Engine.acceptHeader, even, accepted, Bool.true_eq_false, if_false, if_true]
        exact ⟨rfl, all⟩
      | true =>
        simp only [Engine.acceptHeader, even, accepted, Bool.true_eq_false, if_false] at engine ⊢
        have serving : s.Serving table (past ++ [event]) (before ++ skipped) h := by
          apply serving_start (upto bytes)
          rw [engine]
          rfl
        refine ⟨rfl, before ++ skipped, h, [], ?_, rfl, Nat.zero_add _⟩
        exact ⟨by simpa using upto bytes, later' _, isAction, accepted, by simp, serving⟩
  | commit bytes syncs isSync isCommit => exact ⟨rfl, all⟩
  | late begun stuck late => exact ⟨rfl, all⟩

/-- A node that has read some bytes more of a frame is still in its transaction, or has received its
value. -/
theorem stage_collects {before : List UInt8} {h : RawHeader} {frames : List (List UInt8)}
    {held : List UInt8} {count : Nat} {keep : Bool}
    (opened : s.Opened table past start before h frames held)
    (turn : frames.length + count + 1 = framesAfter h)
    (own : keep = true → h.action ≠ .read ∧ count = 0)
    (collects : Engine.Collects now e (.ofHeader h) count keep held read e')
    (further : s.read table (past ++ [event]) = s.read table past ++ read)
    (engine : (s.run table (past ++ [event])).engine = e') :
  e'.staged = e.staged ∧ s.Stage table (past ++ [event]) start e'.phase
  := by
  have upto : s.read table (past ++ [event]) =
      before ++ h.toList ++ (frames.flatten ++ (held ++ read)) := by
    simp only [further, opened.read, List.append_assoc]
  have later := opened.later
  cases collects with
  | on since clean =>
    have serving : s.Serving table (past ++ [event]) before h := by
      apply opened.serving.on
      rw [engine]
      rfl
    refine ⟨rfl, before, h, frames, held ++ read, ?_, rfl, turn, rfl, clean⟩
    exact { opened with read := upto, serving }
  | @whole frame whole =>
    have serving : s.Serving table (past ++ [event]) before h := by
      apply opened.serving.on
      rw [engine]
      rfl
    refine ⟨rfl, ?_⟩
    cases kept : (if keep then frame.value? else none) with
    | none =>
      refine ⟨before, h, frames ++ [held ++ read], ?_, rfl, ?_⟩
      · refine { opened with read := ?_, whole := ?_, serving }
        · simpa using upto
        · intro bytes member
          rcases List.mem_append.mp member with earlier | last
          · exact opened.whole bytes earlier
          · rw [List.mem_singleton.mp last]
            exact ⟨frame, whole⟩
      · rw [List.length_append, List.length_singleton]
        omega
    | some data =>
      cases keep with
      | false => simp at kept
      | true =>
        -- Only the last frame is kept, so the value has been received and no frame is left to come.
        obtain ⟨notRead, rfl⟩ := own rfl
        obtain rfl : frame = .data data := by
          cases frame with
          | data value => simpa [Frame.value?] using kept
          | _ => simp [Frame.value?] at kept
        have even := evenParity_of_accepts opened.accepted
        have written : h.action = .write ∨ h.action = .broadcast := by
          have isAction := opened.isAction
          cases action : h.action <;> simp_all
        have counting : (s.run table (past ++ [event])).engine.phase =
            .counting (.ofHeader h) 0 (some data) := by
          rw [engine, kept]
          rfl
        refine ⟨rfl, ⟨before, h, frames, held ++ read, data⟩, ?_, ?_, rfl, rfl⟩
        · exact ⟨written, even, turn, opened.whole, whole,
            past ++ [event], List.prefix_rfl, upto, counting, serving⟩
        · simp only [Origin.finish, Origin.bytes, List.length_append, RawHeader.toList,
            List.length_cons]
          omega
  | failing fault =>
    refine ⟨rfl, ?_⟩
    change start ≤ _
    rw [upto]
    simp only [List.length_append]
    omega

/-- A node that has decided what comes next, and has no value, is still in its transaction, or has
left it. -/
theorem stage_count {request : Request} {count : Nat} {m : M}
    (stage : s.Stage table past start (.counting request count none))
    (further : s.read table (past ++ [event]) = s.read table past)
    (engine : (s.run table (past ++ [event])).engine = e.count table now request count none m) :
  (e.count table now request count none m).staged = e.staged ∧
    s.Stage table (past ++ [event]) start (e.count table now request count none m).phase
  := by
  have all : start ≤ (s.read table (past ++ [event])).length := by
    rw [further]
    exact stage.le
  obtain ⟨before, h, frames, opened, rfl, turn⟩ := stage
  unfold Engine.count at engine ⊢
  split
  · exact ⟨rfl, stage_listening all⟩
  · next more =>
    rw [if_neg more] at engine
    split
    · exact ⟨rfl, all⟩
    · next waits =>
      rw [if_neg waits] at engine
      have serving : s.Serving table (past ++ [event]) before h := by
        apply opened.serving.on
        rw [engine]
        rfl
      refine ⟨rfl, before, h, frames, [], ?_, rfl, by omega, rfl, List.not_mem_nil⟩
      exact { opened with read := further.trans opened.read, serving }

/-- A node that has received some bytes more of a frame, or has given it up, is still in its
transaction, has received its value, or has left it. -/
theorem stage_relay {request : Request} {count : Nat} {collector : Frame.Collector}
    {rx : List UInt8} {tx : Link} (relaying : e.phase = .relaying request count collector)
    (stage : s.Stage table past start (.relaying request count collector)) :
  let r := e.relay now request count collector rx tx
  ∃ read, rx = read ++ r.2.1 ∧
    (s.read table (past ++ [event]) = s.read table past ++ read →
      (s.run table (past ++ [event])).engine = r.1 →
      r.1.staged = e.staged ∧ s.Stage table (past ++ [event]) start r.1.phase)
  := by
  intro r
  have all := stage.le
  obtain ⟨before, h, frames, held, opened, rfl, turn, rfl, clean⟩ := stage
  simp only [r, Engine.relay]
  split
  · refine ⟨[], rfl, fun further _ => ?_⟩
    rw [List.append_nil] at further
    rw [← further] at all
    simp only
    split
    · exact ⟨rfl, stage_listening all⟩
    · exact ⟨rfl, all⟩
  · obtain ⟨read, waited, collects⟩ := @Engine.collects_collect now e (.ofHeader h) count held
      relaying clean (decide (count ≠ 0 ∨ (Request.ofHeader h).action = .broadcast))
      (decide ((Request.ofHeader h).action ≠ .read ∧ count = 0)) tx rx
    refine ⟨read, waited, stage_collects opened turn (fun own => ?_) collects⟩
    exact of_decide_eq_true own

/-- A tick of a node that neither has a value nor is about to apply one: it holds back what it did,
and is at another stage. -/
theorem stage_tick (stage : s.Stage table past start (s.run table past).engine.phase)
    (valueless : ∀ request count data,
      (s.run table past).engine.phase ≠ .counting request count (some data))
    (idle : ∀ batch, (s.run table past).engine.phase ≠ .committing batch) :
  let s' := s.run table (past ++ [.tick now])
  s'.engine.staged = (s.run table past).engine.staged ∧
    s.Stage table (past ++ [.tick now]) start s'.engine.phase
  := by
  intro s'
  have ticked : s' = (s.run table past).tick table now := s.run_snoc table past (.tick now)
  have further {read : List UInt8} (waited : (s.run table past).wiring.rx = read ++ s'.wiring.rx) :
      s.read table (past ++ [.tick now]) = s.read table past ++ read := by
    rw [read_snoc, readAt_tick]
    rwa [← ticked]
  have all : start ≤ (s.read table (past ++ [.tick now])).length :=
    Nat.le_trans stage.le (s.read_prefix table (List.prefix_append _ _)).length_le
  rcases at_past : s.run table past with ⟨e, wiring, m⟩
  simp only [at_past] at stage valueless idle ticked further ⊢
  cases phase : e.phase with
  | listening heard =>
    rw [phase] at stage
    have apt : heard.Apt := stage.choose_spec.2.1
    simp only [tick, phase] at ticked
    obtain ⟨read, waited, heeds⟩ := @Engine.heeds_listen now e heard phase apt wiring.tx wiring.rx
    rw [ticked] at further ⊢
    apply stage_heeds stage heeds (further waited)
    exact congrArg Station.engine ticked
  | recovering =>
    simp only [tick, phase] at ticked
    rw [ticked]
    unfold Engine.recover
    split
    · refine ⟨rfl, ?_⟩
      simp only [phase]
      exact all
    · split
      · exact ⟨rfl, stage_listening all⟩
      · refine ⟨rfl, ?_⟩
        simp only [phase]
        exact all
  | counting request count kept =>
    cases kept with
    | some data => exact (valueless _ _ _ phase).elim
    | none =>
      rw [phase] at stage
      simp only [tick, phase] at ticked
      rw [ticked] at further ⊢
      apply stage_count stage
      · rw [further (List.nil_append _).symm, List.append_nil]
      · exact congrArg Station.engine ticked
  | sending request frame sent =>
    simp only [tick, phase] at ticked
    rw [ticked]
    unfold Engine.send
    split
    · exact ⟨rfl, all⟩
    · simp only
      split
      · exact ⟨rfl, stage_listening all⟩
      · split
        · refine ⟨rfl, ?_⟩
          rw [phase]
          exact all
        · exact ⟨rfl, all⟩
  | relaying request count collector =>
    rw [phase] at stage
    simp only [tick, phase] at ticked
    rw [ticked] at further ⊢
    obtain ⟨read, waited, becomes⟩ :=
      @stage_relay _ _ _ _ _ now _ e request count collector wiring.rx wiring.tx phase stage
    apply becomes (further waited)
    exact congrArg Station.engine ticked
  | committing batch => exact (idle batch phase).elim

end Ticks

/-! ### Accounts -/

section Accounts

variable {used held : List Origin} {start : Nat}

/-- The accounts of a node that holds back what it did. -/
theorem Accounts.on (accounts : s.Accounts table past used held start)
    (same : (s.run table (past ++ [event])).engine.staged = (s.run table past).engine.staged)
    (stage : s.Stage table (past ++ [event]) start (s.run table (past ++ [event])).engine.phase) :
  s.Accounts table (past ++ [event]) used held start
  := { accounts with
    staged := same.trans accounts.staged
    received := fun o member => received_mono (accounts.received o member) (List.prefix_append _ _)
    stage }

/-- A stage at which nothing happens to a node but at its connections. -/
theorem stage_still {phase : Phase} (stage : s.Stage table past start phase)
    (same : s.read table (past ++ [event]) = s.read table past)
    (engine : (s.run table (past ++ [event])).engine = (s.run table past).engine)
    (serves : (s.run table past).engine.phase = phase) :
  s.Stage table (past ++ [event]) start phase
  := by
  have on {before : List UInt8} {h : RawHeader} {frames : List (List UInt8)} {held : List UInt8}
      (opened : s.Opened table past start before h frames held)
      (serves : (s.run table past).engine.phase.Serves (.ofHeader h)) :
      s.Opened table (past ++ [event]) start before h frames held :=
    { opened with
      read := same.trans opened.read
      serving := opened.serving.on (by rwa [engine]) }
  have more {o : Origin} (received : o.Received table s past) :
      o.Received table s (past ++ [event]) :=
    received_mono received (List.prefix_append _ _)
  cases phase with
  | listening heard =>
    obtain ⟨before, read, rest⟩ := stage
    exact ⟨before, same.trans read, rest⟩
  | counting request count kept =>
    cases kept with
    | none =>
      obtain ⟨before, h, frames, opened, rfl, turn⟩ := stage
      refine ⟨before, h, frames, on opened ?_, rfl, turn⟩
      rw [serves]
      rfl
    | some data =>
      obtain ⟨ends, o, received, rest⟩ := stage
      exact ⟨ends, o, more received, rest⟩
  | relaying request count collector =>
    obtain ⟨before, h, frames, held, opened, rfl, rest⟩ := stage
    refine ⟨before, h, frames, held, on opened ?_, rfl, rest⟩
    rw [serves]
    rfl
  | committing batch =>
    cases batch with
    | one slot =>
      obtain ⟨o, received, rest⟩ := stage
      exact ⟨o, more received, rest⟩
    | staged =>
      change start ≤ _
      rw [same]
      exact stage
  | _ =>
    change start ≤ _
    rw [same]
    exact stage

/-- The accounts of a node that reads nothing and stays as it is. -/
theorem Accounts.still (accounts : s.Accounts table past used held start)
    (engine : (s.run table (past ++ [event])).engine = (s.run table past).engine)
    (same : (s.run table past).readAt table event = []) :
  s.Accounts table (past ++ [event]) used held start
  := by
  refine accounts.on (by rw [engine]) ?_
  rw [engine]
  apply stage_still accounts.stage _ engine rfl
  rw [read_snoc, same, List.append_nil]

/-- The accounts of a node that holds back a value it has received, whose frame has come after all
others. -/
theorem Accounts.hold (accounts : s.Accounts table past used held start) {o : Origin}
    (received : o.Received table s (past ++ [event]))
    (earlier : ∀ old ∈ used ++ held, old.finish < o.finish)
    (staged : (s.run table (past ++ [event])).engine.staged =
      Node.hold o.slot (s.run table past).engine.staged)
    (listens : (s.run table (past ++ [event])).engine.phase = .listening .nothing) :
  s.Accounts table (past ++ [event]) used (o.supersede held)
    (s.read table (past ++ [event])).length
  := by
  have read := finish_le received
  refine ⟨?_, Origin.apart_supersede accounts.apart, ?_,
    Origin.distinct_supersede accounts.apart accounts.distinct earlier, ?_, ?_⟩
  · rw [staged, Origin.slots_supersede, ← accounts.staged]
  · intro old member
    rcases Origin.mem_supersede member with rfl | before
    · exact received
    · exact received_mono (accounts.received old before) (List.prefix_append _ _)
  · intro old member
    have whole : old.finish ≤ o.finish := by
      rcases List.mem_append.mp member with before | behind
      · exact Nat.le_of_lt (earlier old (List.mem_append_left _ before))
      · rcases Origin.mem_supersede behind with rfl | before
        · exact Nat.le_refl _
        · exact Nat.le_of_lt (earlier old (List.mem_append_right _ before))
    exact Nat.le_trans whole read
  · rw [listens]
    exact stage_listening (Nat.le_refl _)

/-- A tick of a node that has received a value: it is about to apply the value, or holds it back if
there is room for it. -/
theorem Accounts.receive (accounts : s.Accounts table past used held start) {request : Request}
    {count : Nat} {data : List UInt8}
    (counting : (s.run table past).engine.phase = .counting request count (some data)) :
  ∃ held' start', s.Accounts table (past ++ [.tick now]) used held' start'
  := by
  have ticked : s.run table (past ++ [.tick now]) = (s.run table past).tick table now :=
    s.run_snoc table past (.tick now)
  simp only [tick, counting] at ticked
  have stage := accounts.stage
  rw [counting] at stage
  obtain ⟨rfl, o, received, later, rfl, rfl⟩ := stage
  have received' : o.Received table s (past ++ [.tick now]) :=
    received_mono received (List.prefix_append _ _)
  -- The header of this transaction has come after the frames of all other values, so the value is
  -- from none of these frames, whether it takes the place of another one or not.
  have earlier : ∀ old ∈ used ++ held, old.finish < o.finish := by
    intro old member
    have before := accounts.bounded old member
    omega
  have decided : (s.run table (past ++ [.tick now])).engine =
      if o.header.flag then
        ((s.run table past).engine.stage o.slot).enter (.listening .nothing) now
      else
        (s.run table past).engine.enter (.committing (.one o.slot)) now := by
    rw [ticked]
    rfl
  cases staged : o.header.flag with
  | false =>
    rw [staged, if_neg Bool.false_ne_true] at decided
    refine ⟨held, start, accounts.on ?_ ?_⟩
    · rw [decided]
      rfl
    · rw [decided]
      exact ⟨o, received', later, rfl⟩
  | true =>
    rw [staged, if_pos rfl] at decided
    by_cases room : (s.run table past).engine.HasRoom o.slot.property
    · rw [Engine.stage_eq o.slot room] at decided
      exact ⟨_, _, accounts.hold received' earlier (by rw [decided]; rfl) (by rw [decided]; rfl)⟩
    · rw [Engine.stage_full o.slot room] at decided
      have read := finish_le received'
      refine ⟨held, start, accounts.on ?_ ?_⟩
      · rw [decided]
        rfl
      · rw [decided]
        exact stage_listening (by omega)

/-- The accounts of a node that has applied or given up some values, and is no longer in the
transaction. -/
theorem Accounts.settle (accounts : s.Accounts table past used held start)
    (news held' : List Origin) (fewer : held'.Sublist held)
    (staged : (s.run table (past ++ [event])).engine.staged = held'.map Origin.slot)
    (distinct : (used ++ news ++ held').Pairwise fun o o' => o.finish ≠ o'.finish)
    (received : ∀ o ∈ news, o.Received table s past)
    (left : (s.run table (past ++ [event])).engine.phase = .listening .nothing ∨
      (s.run table (past ++ [event])).engine.phase = .recovering) :
  s.Accounts table (past ++ [event]) (used ++ news) held'
    (s.read table (past ++ [event])).length
  := by
  have further := (s.read_prefix table (List.prefix_append past [event])).length_le
  have all := accounts.stage.le
  have earlier {o : Origin} (member : o ∈ used ++ held) :
      o.finish ≤ (s.read table (past ++ [event])).length := by
    have before := accounts.bounded o member
    omega
  refine ⟨staged, accounts.apart.sublist fewer, ?_, distinct, ?_, ?_⟩
  · intro o member
    exact received_mono (accounts.received o (fewer.subset member)) (List.prefix_append _ _)
  · intro o member
    rcases List.mem_append.mp member with before | behind
    · rcases List.mem_append.mp before with before | new
      · exact earlier (List.mem_append_left _ before)
      · have read := finish_le (received o new)
        omega
    · exact earlier (List.mem_append_right _ (fewer.subset behind))
  · rcases left with listening | recovering
    · rw [listening]
      exact stage_listening (Nat.le_refl _)
    · rw [recovering]
      exact Nat.le_refl _

/-- A tick of a node whose last byte has not left: it waits, has nothing to wait for, or gives all
values up. -/
theorem Accounts.wait (accounts : s.Accounts table past used held start) {batch : Batch}
    (committing : (s.run table past).engine.phase = .committing batch)
    (undrained : (s.run table past).wiring.drained = false) :
  ∃ held' start', s.Accounts table (past ++ [.tick now]) used held' start'
  := by
  have ticked := s.run_snoc table past (.tick now)
  simp only [step, tick, committing, undrained] at ticked
  have engine := congrArg Station.engine ticked
  by_cases idle : batch = .staged ∧ (s.run table past).engine.staged = []
  · obtain ⟨rfl, bare⟩ := idle
    simp only [Engine.commit_bare table now bare] at engine
    have settled := accounts.settle [] held (List.Sublist.refl _)
      (by rw [engine]; exact accounts.staged) (by simpa using accounts.distinct) (by simp)
      (.inl (by rw [engine]; rfl))
    rw [List.append_nil] at settled
    exact ⟨held, _, settled⟩
  · simp only [Engine.commit_stalled table now idle] at engine
    cases late : (s.run table past).engine.timedOut now with
    | false =>
      simp only [late, Bool.false_eq_true, if_false] at engine
      refine ⟨held, start, accounts.still engine (readAt_tick ?_)⟩
      simp only [tick, committing]
      rfl
    | true =>
      simp only [late, if_true] at engine
      obtain ⟨distinct, -⟩ := List.pairwise_append.mp accounts.distinct
      have settled := accounts.settle [] [] (List.nil_sublist _) (by rw [engine]; rfl)
        (by simpa using distinct) (by simp) (.inr (by rw [engine]; rfl))
      rw [List.append_nil] at settled
      exact ⟨[], _, settled⟩

/-- A tick of a node that applies values: the calls of handlers stem from origins of which none has
been used before. -/
theorem Accounts.apply (accounts : s.Accounts table past used held start) {batch : Batch}
    (committing : (s.run table past).engine.phase = .committing batch)
    (drained : (s.run table past).wiring.drained = true) :
  ∃ news held' start', s.Accounts table (past ++ [.tick now]) (used ++ news) held' start' ∧
    List.Forall₂ (fun o call => Call.StemsFrom table s past call o) news
      ((s.run table past).callsAt table (.tick now))
  := by
  have engine := congrArg Station.engine (s.run_snoc table past (.tick now))
  simp only [step, tick, committing, drained] at engine
  obtain ⟨left, phase⟩ :=
    commit_drained table now (s.run table past).engine batch (s.run table past).module
  rw [← engine] at left phase
  simp only [callsAt, committing]
  rw [if_pos drained]
  cases batch with
  | one slot =>
    have stage := accounts.stage
    rw [committing] at stage
    obtain ⟨o, received, later, rfl⟩ := stage
    have received' := List.forall_mem_singleton.mpr received
    obtain ⟨news, some, stem⟩ := calls_stem received'
    refine ⟨news, held, _, accounts.settle news held (List.Sublist.refl _) ?_ ?_ ?_ phase, stem⟩
    · rw [left, Batch.left, accounts.staged]
    · apply Origin.distinct_insert accounts.distinct some
      intro old member
      exact Nat.lt_of_le_of_lt (accounts.bounded old member) later
    · exact fun o' new => received' o' (some.subset new)
  | staged =>
    obtain ⟨news, some, stem⟩ := calls_stem accounts.received
    rw [← accounts.staged] at stem
    refine ⟨news, [], _, accounts.settle news [] (List.nil_sublist _) left ?_ ?_ phase, stem⟩
    · rw [List.append_nil]
      exact accounts.distinct.sublist ((List.Sublist.refl _).append some)
    · exact fun o new => accounts.received o (some.subset new)

/-- The accounts of a node after any event: the calls of handlers at it stem from origins of which
none has been used before. -/
theorem Accounts.step (accounts : s.Accounts table past used held start) (event : Event) :
  ∃ news held' start', s.Accounts table (past ++ [event]) (used ++ news) held' start' ∧
    List.Forall₂ (fun o call => Call.StemsFrom table s past call o) news
      ((s.run table past).callsAt table event)
  := by
  have unused {held' : List Origin} {start' : Nat} {event : Event}
      (further : s.Accounts table (past ++ [event]) used held' start')
      (none : (s.run table past).callsAt table event = []) :
      ∃ news held' start', s.Accounts table (past ++ [event]) (used ++ news) held' start' ∧
        List.Forall₂ (fun o call => Call.StemsFrom table s past call o) news
          ((s.run table past).callsAt table event) := by
    refine ⟨[], held', start', ?_, ?_⟩
    · rwa [List.append_nil]
    · rw [none]
      exact .nil
  cases event with
  | tick now =>
    by_cases committing : ∃ batch, (s.run table past).engine.phase = .committing batch
    · obtain ⟨batch, committing⟩ := committing
      cases drained : (s.run table past).wiring.drained with
      | true => exact accounts.apply committing drained
      | false =>
        obtain ⟨held', start', further⟩ := accounts.wait committing drained
        exact unused further (by simp [callsAt, committing, drained])
    · have idle : (s.run table past).callsAt table (.tick now) = [] := by
        simp only [callsAt]
        split
        · next batch is => exact (committing ⟨batch, is⟩).elim
        · rfl
      by_cases valued : ∃ request count data,
          (s.run table past).engine.phase = .counting request count (some data)
      · obtain ⟨request, count, data, counting⟩ := valued
        obtain ⟨held', start', further⟩ := accounts.receive counting
        exact unused further idle
      · have still := @stage_tick _ _ _ _ now start accounts.stage
          (fun request count data is => valued ⟨request, count, data, is⟩)
          (fun batch is => committing ⟨batch, is⟩)
        exact unused (accounts.on still.1 still.2) idle
  | _ =>
    refine unused (accounts.still ?_ ?_) rfl
    · rw [run_snoc]
      rfl
    · apply readAt_eq_nil
      simp

end Accounts

/-! ### All calls -/

/-- The calls of handlers in the rest of a run, each together with the part of the run before it. -/
def ledger (table : Table M) (s : Station M) (past : List Event) :
    List Event → List (List Event × Call M)
  | [] => []
  | event :: rest =>
    ((s.run table past).callsAt table event).map (fun call => (past, call)) ++
      ledger table s (past ++ [event]) rest

/-- The calls of handlers in a run are those in its ledger. -/
theorem calls_ledger (table : Table M) (s : Station M) (past events : List Event) :
  (s.ledger table past events).map Prod.snd = (s.run table past).calls table events
  := by
  induction events generalizing past with
  | nil => rfl
  | cons event rest ih =>
    rw [ledger, List.map_append, List.map_map, ih, run_snoc]
    simp [calls, gather, Function.comp_def]

/-- The accounts of a node after the rest of a run: the calls of handlers stem from origins of which
none has been used before. -/
theorem Accounts.run {used held : List Origin} {start : Nat}
    (accounts : s.Accounts table past used held start) (events : List Event) :
  ∃ news held' start', s.Accounts table (past ++ events) (used ++ news) held' start' ∧
    List.Forall₂ (fun o (entry : List Event × Call M) =>
      Call.StemsFrom table s entry.1 entry.2 o) news (s.ledger table past events)
  := by
  induction events generalizing past used held start with
  | nil =>
    refine ⟨[], held, start, ?_, .nil⟩
    rwa [List.append_nil, List.append_nil]
  | cons event rest ih =>
    obtain ⟨news, held', start', further, stem⟩ := accounts.step event
    obtain ⟨others, held'', start'', all, stems⟩ := ih further
    refine ⟨news ++ others, held'', start'', ?_, ?_⟩
    · rwa [← List.append_assoc, List.append_cons]
    · refine List.rel_append ?_ stems
      rwa [List.forall₂_map_right_iff]

/-- Nothing that has not been received is ever put into a module, and nothing twice.  Whatever a
node reads from the beginning, and whatever happens to it: its module changes only at ticks at which
the node is about to apply values and its last byte has left, and becomes what the calls of handlers
make of it; each of these calls stems from an origin, and no two of them from the same frame. -/
theorem calls_have_origins (table : Table M) (wiring : Wiring) (m : M) (events : List Event) :
  let s : Station M := ⟨{}, wiring, m⟩
  (∀ past event, (s.run table (past ++ [event])).module ≠ (s.run table past).module →
    ∃ now batch, event = .tick now ∧ (s.run table past).engine.phase = .committing batch ∧
      (s.run table past).wiring.drained = true) ∧
  (s.run table events).module =
    ((s.ledger table [] events).map Prod.snd).foldl (fun m call => call.apply m) m ∧
  ∃ origins : List Origin,
    List.Forall₂ (fun o (entry : List Event × Call M) =>
      Call.StemsFrom table s entry.1 entry.2 o) origins (s.ledger table [] events) ∧
    (origins.map Origin.finish).Nodup
  := by
  intro s
  refine ⟨fun past event changed => ?_, ?_, ?_⟩
  · rw [run_snoc] at changed
    exact committing_of_module_ne changed
  · rw [calls_ledger]
    exact s.module_run table events
  · have opening : s.Accounts table [] [] [] 0 :=
      ⟨rfl, .nil, by simp, .nil, by simp, [], rfl, trivial, Nat.le_refl _⟩
    obtain ⟨origins, held, start, accounts, stems⟩ := opening.run events
    refine ⟨origins, stems, ?_⟩
    rw [List.nil_append] at accounts
    obtain ⟨distinct, -⟩ := List.pairwise_append.mp accounts.distinct
    exact List.pairwise_map.mpr distinct

end DaisyChain.Node.Station
