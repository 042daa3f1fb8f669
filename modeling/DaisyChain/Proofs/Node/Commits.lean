import DaisyChain.Proofs.Node.Calls
import DaisyChain.Proofs.Node.Ticks

/-!
# Commits

A commit applies all values that a node holds back, each one once and in order, even if some of them
fail.  In a timely run in which a node has been told to commit, and is given time once its last byte
has left, it calls the handlers of these values (`Station.run_commit`).

A node that reads nothing but headers of a single byte is idle (`Phase.Idle`), and if it holds no
value back then it calls no handler (`Station.idle_run`).
-/

namespace DaisyChain.Node

variable {M : Type} {table : Table M}

/-! ### Values applied in turn -/

/-- The faults of values that are put into a module in turn. -/
def applyFaults (table : Table M) : List Slot → M → List Fault
  | [], _ => []
  | slot :: rest, m =>
    let (result, m') := applySlot table slot m
    match result with
    | .ok () => applyFaults table rest m'
    | .error fault => fault :: applyFaults table rest m'

/-- Values are put into a module in turn, all of them, whatever faults there are.  The first fault
is told. -/
theorem applyAll_eq (table : Table M) (slots : List Slot) (m : M) :
  applyAll table slots m =
    (match (applyFaults table slots m).head? with
      | none => .ok ()
      | some fault => .error fault,
      slots.foldl (fun m slot => (applySlot table slot m).2) m)
  := by
  induction slots generalizing m with
  | nil => rfl
  | cons slot rest ih =>
    simp only [applyAll, applyFaults, List.foldl_cons]
    rcases applySlot table slot m with ⟨_ | _, m'⟩
    · simp [ih, Except.bind]
    · simp [ih, Except.bind]

/-- A node after a commit, if it held back the given values. -/
def committedBody (table : Table M) (slots : List Slot) (e : Engine) (m : M) : Body M :=
  let m' := slots.foldl (fun m slot => (applySlot table slot m).2) m
  match (applyFaults table slots m).head? with
  | none => Body.listener { e with staged := [] } m'
  | some fault =>
    Body.during { e with staged := [], record := some ⟨fault, .committing⟩ } m' .recovering

/-- The module of a node after a commit. -/
theorem module_committedBody (table : Table M) (slots : List Slot) (e : Engine) (m : M) :
  (committedBody table slots e m).module = (applyAll table slots m).2
  := by
  rw [applyAll_eq, committedBody]
  cases (applyFaults table slots m).head? <;> rfl

/-- A node holds no value back after a commit. -/
theorem staged_committedBody (table : Table M) (slots : List Slot) (e : Engine) (m : M) :
  (committedBody table slots e m).engine.staged = []
  := by
  rw [committedBody]
  cases (applyFaults table slots m).head? <;> rfl

/-- What a node that listens makes of a commit. -/
theorem digest_commit (table : Table M) (e : Engine) (m : M) (categories : Categories) :
  ((Body.listener e m).digest table [SyncHeader.pack ⟨.commit, categories⟩]).1 =
    committedBody table e.staged e m
  := by
  obtain ⟨action, kind, -⟩ := SyncHeader.fields_pack ⟨.commit, categories⟩
  have isSync : Action.ofByte (SyncHeader.pack ⟨.commit, categories⟩) = .sync := action
  have isCommit : SyncKind.ofByte (SyncHeader.pack ⟨.commit, categories⟩) = .commit := kind
  have heard : (Body.listener e m).take (SyncHeader.pack ⟨.commit, categories⟩) =
      (Body.during e m (.committing .staged), [SyncHeader.pack ⟨.commit, categories⟩]) := by
    simp only [Body.take, Body.listener, Body.during, Engine.enter, Engine.hear, isSync, if_true,
      Engine.hearSync, isCommit]
  rw [Body.digest_cons (b := Body.listener e m) trivial, heard]
  simp only [Body.digest, Body.rest, Body.proceed, Body.perform, Body.during, Engine.enter,
    Engine.commit, committedBody]
  split
  · next idle =>
    rw [idle.2]
    simp [applyFaults, Body.listener, Body.during, Engine.enter]
  · simp only [Bool.true_eq_false, if_false, applyAll_eq]
    cases (applyFaults table e.staged m).head? <;> rfl

/-! ### Nodes that read no more than single bytes -/

/-- A node in this phase takes part in no transaction but a commit. -/
def Phase.Idle : Phase → Prop
  | .listening .nothing | .recovering | .committing .staged => True
  | .listening _ | .counting .. | .sending .. | .relaying .. | .committing _ => False

namespace Station

variable {s : Station M} {now : UInt32}

/-- A node that listens, and reads only headers of a single byte, stays idle.  It is about to apply
values only if it has read a commit. -/
theorem idle_heeds {e e' : Engine} {tx : Link} {rx read : List UInt8}
    (heeds : Engine.Heeds now e .nothing tx rx read e')
    (syncs : ∀ byte ∈ read, Action.ofByte byte = .sync) :
  e'.phase.Idle ∧ e'.staged = e.staged ∧ (e'.state = .committing → read ≠ [])
  := by
  cases heeds with
  | @on heard' skipped since split _ apt =>
    have nothing : heard' = .nothing := by
      cases heard' with
      | nothing => rfl
      | first byte0 =>
        have member : byte0 ∈ read := by
          rw [show read = skipped ++ [byte0] from split]
          simp
        exact (apt (syncs byte0 member)).elim
      | second byte0 byte1 =>
        have member : byte0 ∈ read := by
          rw [show read = skipped ++ [byte0, byte1] from split]
          simp
        exact (apt (syncs byte0 member)).elim
    subst nothing
    exact ⟨trivial, rfl, by simp [Engine.state, Phase.state]⟩
  | @whole h skipped split _ isAction =>
    have member : h.byte0 ∈ read := by
      rw [show read = skipped ++ h.toList from split]
      simp [RawHeader.toList]
    exact (isAction (syncs h.byte0 member)).elim
  | @commit byte skipped split _ isSync isCommit =>
    refine ⟨trivial, rfl, fun _ none => ?_⟩
    rw [show read = skipped ++ [byte] from split] at none
    simp at none
  | late begun stuck late => exact (begun rfl).elim

/-- An engine that applies the values held back, or waits to, stays idle.  It is still about to
apply them only if the last byte has not left. -/
theorem idle_commit (table : Table M) (now : UInt32) {e : Engine}
    (committing : e.phase = .committing .staged) (drained : Bool) (m : M) :
  let e' := (e.commit table now .staged drained m).1
  e'.phase.Idle ∧ (e.staged = [] → e'.staged = []) ∧ (e'.state = .committing → drained = false)
  := by
  by_cases bare : e.staged = []
  · rw [Engine.commit_bare table now bare]
    exact ⟨trivial, id, by simp [Engine.state, Engine.enter, Phase.state]⟩
  · cases drained with
    | true =>
      obtain ⟨staged, left⟩ := commit_drained table now e .staged m
      refine ⟨?_, fun _ => staged, ?_⟩
      · rcases left with listening | recovering
        · rw [listening]
          trivial
        · rw [recovering]
          trivial
      · rcases left with listening | recovering
        · simp [Engine.state, listening, Phase.state]
        · simp [Engine.state, recovering, Phase.state]
    | false =>
      rw [Engine.commit_stalled table now (fun idle => bare idle.2)]
      refine ⟨?_, fun none => (bare none).elim, fun _ => rfl⟩
      split
      · trivial
      · rw [committing]
        trivial

/-- An idle node that reads only headers of a single byte stays idle.  It is about to apply values
only if it has read a commit, or if its last byte has not left since it has. -/
theorem idle_tick (table : Table M) (idle : s.engine.phase.Idle)
    (syncs : ∀ byte ∈ s.readAt table (.tick now), Action.ofByte byte = .sync) :
  let s' := s.tick table now
  s'.engine.phase.Idle ∧ (s.engine.staged = [] → s'.engine.staged = []) ∧
    (s'.engine.state = .committing →
      s.readAt table (.tick now) ≠ [] ∨
        s.engine.state = .committing ∧ s.wiring.drained = false)
  := by
  intro s'
  cases phase : s.engine.phase with
  | listening heard =>
    cases heard with
    | nothing =>
      obtain ⟨bytes, waited, heeds⟩ := @Engine.heeds_listen now _ _ phase trivial
        s.wiring.tx s.wiring.rx
      have read : s.readAt table (.tick now) = bytes := by
        apply readAt_tick
        simp only [tick, phase]
        exact waited
      rw [read] at syncs ⊢
      obtain ⟨stays, staged, reads⟩ := idle_heeds heeds syncs
      simp only [s', tick, phase]
      exact ⟨stays, fun bare => staged.trans bare, fun committing => .inl (reads committing)⟩
    | _ => simp [phase, Phase.Idle] at idle
  | recovering =>
    simp only [s', tick, phase, Engine.recover]
    split
    · simp [Phase.Idle, Engine.state, Phase.state]
    · split <;> simp [Engine.enter, Phase.Idle, Engine.state, Phase.state, phase]
  | committing batch =>
    cases batch with
    | one slot => simp [phase, Phase.Idle] at idle
    | staged =>
      obtain ⟨stays, bare, only⟩ := idle_commit table now phase s.wiring.drained s.module
      simp only [s', tick, phase]
      refine ⟨stays, bare, fun committing => .inr ⟨?_, only committing⟩⟩
      rw [Engine.state, phase, Phase.state]
  | _ => simp [phase, Phase.Idle] at idle

/-- An idle node that reads only headers of a single byte calls no handler if it holds no value
back, and stays idle. -/
theorem idle_run (table : Table M) (idle : s.engine.phase.Idle) {events : List Event}
    (syncs : ∀ byte ∈ s.read table events, Action.ofByte byte = .sync) :
  (s.run table events).engine.phase.Idle ∧
    (s.engine.staged = [] → s.calls table events = [])
  := by
  induction events generalizing s with
  | nil => exact ⟨idle, fun _ => rfl⟩
  | cons event rest ih =>
    obtain ⟨first, others⟩ := List.forall_mem_append.mp syncs
    have step : (s.step table event).engine.phase.Idle ∧
        (s.engine.staged = [] → (s.step table event).engine.staged = []) := by
      cases event with
      | tick now =>
        obtain ⟨stays, bare, -⟩ := idle_tick table idle first
        exact ⟨stays, bare⟩
      | _ => exact ⟨idle, id⟩
    obtain ⟨stays, silent⟩ := ih step.1 others
    refine ⟨stays, fun bare => ?_⟩
    have none : s.callsAt table event = [] := by
      cases event with
      | tick now =>
        cases phase : s.engine.phase with
        | committing batch =>
          cases batch with
          | one slot => simp [phase, Phase.Idle] at idle
          | staged => simp [callsAt, phase, Batch.slots, bare]
        | _ => simp [callsAt, phase]
      | _ => rfl
    have later := silent (step.2 bare)
    rw [calls, gather, none, List.nil_append]
    exact later

/-- An idle node that is not about to apply values never is unless it reads a byte. -/
theorem idle_done (table : Table M) (idle : s.engine.phase.Idle)
    (done : s.engine.state ≠ .committing) {events : List Event}
    (none : s.read table events = []) :
  (s.run table events).engine.state ≠ .committing
  := by
  induction events generalizing s with
  | nil => exact done
  | cons event rest ih =>
    obtain ⟨first, others⟩ := List.append_eq_nil_iff.mp none
    cases event with
    | tick now =>
      obtain ⟨stays, -, only⟩ := @idle_tick _ s now table idle (by simp [first])
      apply ih stays _ others
      intro committing
      rcases only committing with read | ⟨before, -⟩
      · exact read first
      · exact done before
    | _ => exact ih idle done others

/-- In a timely run a node reads a commit and nothing else, and it is given time once its last byte
has left. -/
structure Commits (table : Table M) (s : Station M) (events : List Event) : Prop where
  timely : s.Timely table events
  reads : ∃ categories, s.read table events = [SyncHeader.pack ⟨.commit, categories⟩]
  leaves : ∃ xs now ys, events = xs ++ .tick now :: ys ∧ s.read table xs = s.read table events ∧
    (s.run table xs).wiring.drained = true

/-- The byte of a commit is a header of its own. -/
theorem Commits.syncs {events : List Event} (commits : s.Commits table events) :
  ∀ byte ∈ s.read table events, Action.ofByte byte = .sync
  := by
  obtain ⟨categories, reads⟩ := commits.reads
  intro byte member
  rw [reads, List.mem_singleton] at member
  rw [member]
  exact (SyncHeader.fields_pack ⟨.commit, categories⟩).1

/-- A node that has been told to commit does not put it off for ever. -/
theorem Commits.done {events : List Event} (commits : s.Commits table events)
    (listening : s.engine.phase = .listening .nothing) :
  (s.run table events).engine.phase.Idle ∧ (s.run table events).engine.state ≠ .committing
  := by
  have idle : s.engine.phase.Idle := by
    rw [listening]
    trivial
  refine ⟨(idle_run table idle commits.syncs).1, ?_⟩
  obtain ⟨xs, now, ys, rfl, all, drained⟩ := commits.leaves
  have syncs := commits.syncs
  have none : (s.run table xs).readAt table (.tick now) = [] ∧
      ((s.run table xs).tick table now).read table ys = [] := by
    rw [read, read, gather_append, List.self_eq_append_right] at all
    exact List.append_eq_nil_iff.mp all
  have before : (s.run table xs).engine.phase.Idle := by
    rw [← all] at syncs
    exact (idle_run table idle syncs).1
  obtain ⟨stays, -, only⟩ := @idle_tick _ (s.run table xs) now table before (by simp [none.1])
  rw [run_append]
  apply idle_done table stays _ none.2
  intro committing
  rcases only committing with read | ⟨-, stuck⟩
  · exact read none.1
  · rw [drained] at stuck
    contradiction

/-- After a timely run in which a node has been told to commit, it has called the handlers of all
values held back, and is what the commit makes of it. -/
theorem run_commit (listening : s.engine.phase = .listening .nothing) {events : List Event}
    (commits : s.Commits table events) :
  s.calls table events = s.engine.staged.filterMap (Slot.call? table) ∧
    (s.run table events).body = committedBody table s.engine.staged s.engine s.module
  := by
  have made {M : Type} {table : Table M} {s : Station M}
      (listening : s.engine.phase = .listening .nothing) (timely : s.Timely table events)
      (reads : ∃ categories, s.read table events = [SyncHeader.pack ⟨.commit, categories⟩])
      (waiting : (s.run table events).engine.phase.Waiting) :
      (s.run table events).body = committedBody table s.engine.staged s.engine s.module := by
    obtain ⟨sent, made, -⟩ := timely.digest_read waiting
    obtain ⟨categories, read⟩ := reads
    have digested := congrArg Prod.fst made
    rwa [read, body_listening listening, digest_commit, eq_comm] at digested
  have waiting : (s.run table events).engine.phase.Waiting := by
    obtain ⟨idle, done⟩ := commits.done listening
    cases phase : (s.run table events).engine.phase with
    | committing batch => simp [Engine.state, phase, Phase.state] at done
    | counting request count kept => simp [phase, Phase.Idle] at idle
    | sending request frame sent => simp [phase, Phase.Idle] at idle
    | _ => trivial
  refine ⟨?_, made listening commits.timely commits.reads waiting⟩
  have reads : ∃ categories, (s.logging []).read (loggingTable table) events =
      [SyncHeader.pack ⟨.commit, categories⟩] := by
    rw [read_logging]
    exact commits.reads
  -- A module that keeps a log is a module like any other, and its log tells of the calls.
  have logged := @made _ (loggingTable table) (s.logging []) listening (commits.timely.logging [])
    reads (by rw [run_logging]; exact waiting)
  rw [run_logging, List.nil_append] at logged
  have log := congrArg Body.module logged
  rw [module_committedBody] at log
  have told := congrArg Prod.snd log
  simp only [logging, applyAll_logging] at told
  exact told

end Station

end DaisyChain.Node
