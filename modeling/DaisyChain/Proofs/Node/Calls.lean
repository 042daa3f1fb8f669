import DaisyChain.Proofs.Node.Runs

/-!
# Calls of handlers

The handlers that put values into a module are called by ticks of a node that is about to apply
values and whose last byte has left (`Station.callsAt`).  A module is what these calls make of it,
one after the other (`Station.module_run`), and since this holds of every table, the calls are the
ones that a handler sees.
-/

namespace DaisyChain.Node

variable {M : Type} (table : Table M)

/-- A call of the handler that puts a value into a module. -/
structure Call (M : Type) where
  definition : Definition M
  /-- The handler that is called, which is that of the definition. -/
  handler : List UInt8 → M → Bool × M
  value : List UInt8

/-- The module after a call. -/
def Call.apply (call : Call M) (m : M) : M :=
  (call.handler call.value m).2

/-- The call puts the given data of a frame into a module as a value of the given property. -/
structure Call.Puts (call : Call M) (property : PropertyId) (data : List UInt8) : Prop where
  found : table.find? property = some call.definition
  writable : call.definition.access.writable = true
  handles : call.definition.set = some call.handler
  unwraps : call.definition.size.unwrap data = .ok call.value

/-- The call by which a value is applied, if it comes to that. -/
def Slot.call? (slot : Slot) : Option (Call M) :=
  match table.find? slot.property with
  | none => none
  | some d =>
    match d.access.writable, d.set, d.size.unwrap slot.data with
    | true, some handler, .ok value => some ⟨d, handler, value⟩
    | _, _, _ => none

/-- The values of a batch. -/
def Batch.slots (e : Engine) : Batch → List Slot
  | .one slot => [slot]
  | .staged => e.staged

namespace Station

/-- The calls of handlers at an event. -/
def callsAt (s : Station M) : Event → List (Call M)
  | .tick _ =>
    match s.engine.phase with
    | .committing batch =>
      if s.wiring.drained then (batch.slots s.engine).filterMap (Slot.call? table) else []
    | _ => []
  | .receive _ | .drain _ | .capacity _ | .drained _ | .busy _ => []

/-- The calls of handlers in a run. -/
def calls (s : Station M) (events : List Event) : List (Call M) :=
  gather table (callsAt table) s events

end Station

variable {table}

/-! ### Applying values -/

/-- The call by which a value is applied puts it into the module. -/
theorem puts_of_call? {slot : Slot} {call : Call M} (is : slot.call? table = some call) :
  call.Puts table slot.property slot.data
  := by
  unfold Slot.call? at is
  split at is
  · contradiction
  · next d found =>
    split at is
    · next writable handles unwraps =>
      cases is
      exact ⟨found, writable, handles, unwraps⟩
    · contradiction

/-- A module is changed by the call by which a value is applied, and by nothing else. -/
theorem module_applySlot (slot : Slot) (m : M) :
  (applySlot table slot m).2 = (slot.call? table).toList.foldl (fun m call => call.apply m) m
  := by
  unfold applySlot Slot.call?
  cases table.find? slot.property with
  | none => rfl
  | some d =>
    cases writable : d.access.writable with
    | false => simp [writable]
    | true =>
      simp only [writable, if_true, Definition.deserialize]
      cases d.set with
      | none => rfl
      | some handler =>
        cases d.size.unwrap slot.data with
        | error error => rfl
        | ok value =>
          simp only [Option.toList_some, List.foldl_cons, List.foldl_nil, Call.apply]
          rcases handler value m with ⟨_ | _, m'⟩ <;> rfl

/-- A module to which values are applied in turn is changed by the calls that this takes. -/
theorem module_applyAll (slots : List Slot) (m : M) :
  (applyAll table slots m).2 =
    (slots.filterMap (Slot.call? table)).foldl (fun m call => call.apply m) m
  := by
  induction slots generalizing m with
  | nil => rfl
  | cons slot rest ih =>
    rw [applyAll]
    simp only [ih, module_applySlot]
    cases is : slot.call? table with
    | none => simp [is]
    | some call => simp [is]

/-- The values that are still held back once a batch has been applied. -/
def Batch.left (e : Engine) : Batch → List Slot
  | .one _ => e.staged
  | .staged => []

/-- Once its last byte has left, an engine applies a batch, and listens again, or recovers from the
first fault. -/
theorem commit_eq (table : Table M) (now : UInt32) (e : Engine) (batch : Batch) (m : M) :
  e.commit table now batch true m =
    let after := { e with staged := batch.left e }
    ((match (applyAll table (batch.slots e) m).1 with
      | .ok () => after.enter (.listening .nothing) now
      | .error fault => after.fail fault now), (applyAll table (batch.slots e) m).2)
  := by
  cases batch with
  | one slot =>
    rw [Engine.commit, if_neg fun idle => Batch.noConfusion idle.1, if_neg Bool.noConfusion]
    dsimp only [Batch.slots, Batch.left]
    cases (applyAll table [slot] m).1 <;> rfl
  | staged =>
    by_cases bare : e.staged = []
    · obtain ⟨phase, since, staged, record⟩ := e
      subst bare
      rfl
    · rw [Engine.commit, if_neg fun idle => bare idle.2, if_neg Bool.noConfusion]
      dsimp only [Batch.slots, Batch.left]
      cases (applyAll table e.staged m).1 <;> rfl

/-- An engine that has applied a batch listens or recovers. -/
theorem commit_drained (table : Table M) (now : UInt32) (e : Engine) (batch : Batch) (m : M) :
  let r := (e.commit table now batch true m).1
  r.staged = batch.left e ∧ (r.phase = .listening .nothing ∨ r.phase = .recovering)
  := by
  rw [commit_eq]
  cases (applyAll table (batch.slots e) m).1 with
  | ok _ => exact ⟨rfl, .inl rfl⟩
  | error fault => exact ⟨rfl, .inr rfl⟩

/-- A batch that is applied changes a module by the calls that this takes. -/
theorem module_commit (table : Table M) (now : UInt32) (e : Engine) (batch : Batch) (m : M) :
  (e.commit table now batch true m).2 =
    ((batch.slots e).filterMap (Slot.call? table)).foldl (fun m call => call.apply m) m
  := by
  rw [commit_eq]
  apply module_applyAll

namespace Station

/-! ### Calls in a run -/

/-- An event changes a module by the calls of handlers at it, and by nothing else. -/
theorem module_step (table : Table M) (s : Station M) (event : Event) :
  (s.step table event).module = (s.callsAt table event).foldl (fun m call => call.apply m) s.module
  := by
  cases event with
  | tick now =>
    cases phase : s.engine.phase with
    | committing batch =>
      simp only [step, tick, callsAt, phase]
      by_cases idle : batch = .staged ∧ s.engine.staged = []
      · obtain ⟨rfl, bare⟩ := idle
        simp [Engine.commit_bare table now bare, Batch.slots, bare]
      · cases drained : s.wiring.drained with
        | false =>
          rw [Engine.commit_stalled table now idle]
          rfl
        | true => rw [module_commit, if_pos rfl]
    | _ => simp only [step, tick, callsAt, phase, List.foldl_nil]
  | _ => rfl

/-- After a run a module is what the calls in the run make of it. -/
theorem module_run (table : Table M) (s : Station M) (events : List Event) :
  (s.run table events).module = (s.calls table events).foldl (fun m call => call.apply m) s.module
  := by
  induction events generalizing s with
  | nil => rfl
  | cons event rest ih =>
    calc ((s.step table event).run table rest).module
      _ = ((s.step table event).calls table rest).foldl (fun m call => call.apply m)
          (s.step table event).module := ih _
      _ = _ := by rw [module_step, ← List.foldl_append]; rfl

/-- A module changes at no event but a tick of a node that is about to apply values and whose last
byte has left. -/
theorem committing_of_module_ne {table : Table M} {s : Station M} {event : Event}
    (changed : (s.step table event).module ≠ s.module) :
  ∃ now batch, event = .tick now ∧ s.engine.phase = .committing batch ∧ s.wiring.drained = true
  := by
  rw [module_step] at changed
  cases event with
  | tick now =>
    cases phase : s.engine.phase with
    | committing batch =>
      cases drained : s.wiring.drained with
      | true => exact ⟨now, batch, rfl, rfl, rfl⟩
      | false => simp [callsAt, phase, drained] at changed
    | _ => simp [callsAt, phase] at changed
  | _ => simp [callsAt] at changed

end Station

/-! ### Modules that keep a log -/

/-- A definition for modules that keep a log of the calls of their handlers. -/
def loggingDefinition (d : Definition M) : Definition (M × List (Call M)) where
  id := d.id
  name := d.name
  access := d.access
  size := d.size
  multipart := d.multipart
  get := d.get.map fun get m => get m.1
  set := d.set.map fun handler value m =>
    ((handler value m.1).1, (handler value m.1).2, m.2 ++ [⟨d, handler, value⟩])
  compare := d.compare.map fun compare a b => compare a.1 b.1

/-- The table for modules that keep a log of the calls of their handlers. -/
def loggingTable (table : Table M) : Table (M × List (Call M)) :=
  ⟨table.definitions.map loggingDefinition⟩

/-- The same properties are found for modules that keep a log. -/
theorem find?_loggingTable (table : Table M) (property : PropertyId) :
  (loggingTable table).find? property = (table.find? property).map loggingDefinition
  := List.find?_map

/-- Reads are answered alike by modules that keep a log. -/
theorem answer_logging (table : Table M) (m : M) (log : List (Call M)) (property : PropertyId)
    (record : Option Record) :
  answer (loggingTable table) (m, log) property record = answer table m property record
  := by
  have same : fetch (loggingTable table) (m, log) property = fetch table m property := by
    rw [fetch, find?_loggingTable, fetch]
    cases table.find? property with
    | none => rfl
    | some d =>
      have alike : (loggingDefinition d).serialize (m, log) = d.serialize m := by
        simp only [Definition.serialize, loggingDefinition]
        cases d.get <;> rfl
      simp only [Option.map_some, alike]
      rfl
  simp only [answer, same]

/-- A value is put alike into modules that keep a log, which tells of the call. -/
theorem applySlot_logging (table : Table M) (slot : Slot) (m : M) (log : List (Call M)) :
  applySlot (loggingTable table) slot (m, log) =
    ((applySlot table slot m).1, (applySlot table slot m).2, log ++ (slot.call? table).toList)
  := by
  simp only [applySlot, find?_loggingTable, Slot.call?]
  cases table.find? slot.property with
  | none => simp
  | some d =>
    cases writable : d.access.writable with
    | false => simp [writable, loggingDefinition]
    | true =>
      simp only [Option.map_some, writable, loggingDefinition, if_true, Definition.deserialize]
      cases d.set with
      | none => simp
      | some handler =>
        cases d.size.unwrap slot.data with
        | error error => simp
        | ok value =>
          simp only [Option.map_some]
          rcases handler value m with ⟨_ | _, m'⟩ <;> rfl

/-- Values are put alike into modules that keep a log, which tells of the calls. -/
theorem applyAll_logging (table : Table M) (slots : List Slot) (m : M) (log : List (Call M)) :
  applyAll (loggingTable table) slots (m, log) =
    ((applyAll table slots m).1, (applyAll table slots m).2,
      log ++ slots.filterMap (Slot.call? table))
  := by
  induction slots generalizing m log with
  | nil => simp [applyAll]
  | cons slot rest ih =>
    simp only [applyAll, applySlot_logging, ih]
    cases is : slot.call? table with
    | none => simp [is]
    | some call => simp [is]

/-- A batch is applied alike by modules that keep a log, which tells of the calls. -/
theorem commit_logging (table : Table M) (now : UInt32) (e : Engine) (batch : Batch) (m : M)
    (log : List (Call M)) :
  e.commit (loggingTable table) now batch true (m, log) =
    ((e.commit table now batch true m).1, (e.commit table now batch true m).2,
      log ++ (batch.slots e).filterMap (Slot.call? table))
  := by
  rw [commit_eq, commit_eq, applyAll_logging]

namespace Station

/-- The same node with a module that keeps a log. -/
def logging (s : Station M) (log : List (Call M)) : Station (M × List (Call M)) :=
  ⟨s.engine, s.wiring, s.module, log⟩

/-- A node whose module keeps a log is otherwise the same after an event. -/
theorem step_logging (table : Table M) (s : Station M) (log : List (Call M)) (event : Event) :
  (s.logging log).step (loggingTable table) event =
    (s.step table event).logging (log ++ s.callsAt table event)
  := by
  obtain ⟨e, wiring, m⟩ := s
  cases event with
  | tick now =>
    cases phase : e.phase with
    | counting request count kept =>
      simp only [step, tick, logging, callsAt, phase, List.append_nil, Engine.count, answer_logging]
    | committing batch =>
      simp only [step, tick, logging, callsAt, phase]
      by_cases idle : batch = .staged ∧ e.staged = []
      · obtain ⟨rfl, bare⟩ := idle
        simp [Engine.commit_bare _ now bare, Batch.slots, bare]
      · cases drained : wiring.drained with
        | false =>
          rw [Engine.commit_stalled _ now idle, Engine.commit_stalled _ now idle,
            if_neg Bool.false_ne_true, List.append_nil]
        | true => rw [commit_logging, if_pos rfl]
    | _ => simp only [step, tick, logging, callsAt, phase, List.append_nil]
  | _ => simp only [step, logging, callsAt, List.append_nil]

/-- A node whose module keeps a log is otherwise the same after a run, and its log tells of the
calls. -/
theorem run_logging (table : Table M) (s : Station M) (log : List (Call M)) (events : List Event) :
  (s.logging log).run (loggingTable table) events =
    (s.run table events).logging (log ++ s.calls table events)
  := by
  induction events generalizing s log with
  | nil => simp [run, calls, gather]
  | cons event rest ih =>
    calc ((s.logging log).step (loggingTable table) event).run (loggingTable table) rest
      _ = ((s.step table event).logging (log ++ s.callsAt table event)).run
          (loggingTable table) rest := by rw [step_logging]
      _ = _ := by rw [ih, List.append_assoc]; rfl

/-- A node whose module keeps a log reads the same. -/
theorem read_logging (table : Table M) (s : Station M) (log : List (Call M))
    (events : List Event) :
  (s.logging log).read (loggingTable table) events = s.read table events
  := by
  induction events generalizing s log with
  | nil => rfl
  | cons event rest ih =>
    have later := ih (s.step table event) (log ++ s.callsAt table event)
    rw [← step_logging] at later
    have first : (s.logging log).readAt (loggingTable table) event = s.readAt table event := by
      rw [readAt, step_logging]
      rfl
    rw [read, gather, first]
    exact congrArg (s.readAt table event ++ ·) later

/-- A run that is timely is so for a node whose module keeps a log. -/
theorem Timely.logging {s : Station M} {events : List Event} (timely : s.Timely table events)
    (log : List (Call M)) :
  (s.logging log).Timely (loggingTable table) events
  := by
  induction events generalizing s log with
  | nil => trivial
  | cons event rest ih =>
    refine ⟨?_, ?_⟩
    · have same : (s.logging log).expires event = s.expires event := by cases event <;> rfl
      rw [same]
      exact timely.1
    · rw [step_logging]
      exact ih timely.2 _

end Station

end DaisyChain.Node
