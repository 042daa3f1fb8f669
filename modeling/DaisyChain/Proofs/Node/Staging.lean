import DaisyChain.Proofs.Node.Commits
import DaisyChain.Proofs.Node.Slots
import DaisyChain.SplitFlap.Properties

/-!
# Values held back until a commit

A node that sees staged writes and broadcasts, reads and acknowledges calls no handler.  Of the
values that it receives meanwhile it holds back the last one of each property, for as many
properties as it has places.  A commit applies them, each one once and in the order in which their
properties came first, even if some of them fail; a second commit calls no handler any more
(`Station.commit_applies_lastValues`).
-/

namespace DaisyChain.Node

variable {M : Type} {table : Table M}

/-! ### Transactions -/

/-- A transaction that leaves a module as it is. -/
inductive Transaction where
  /-- A staged write or broadcast: the header, the frames of the nodes behind, and the node's own
  frame with what it says. -/
  | hold (header : RawHeader) (others : List (List UInt8)) (own : List UInt8) (frame : Frame)
  /-- A read of any property, the error record included: the header, and the frames of the nodes in
  front. -/
  | read (header : RawHeader) (others : List (List UInt8))
  /-- An acknowledge, with the categories of the nodes in front. -/
  | ack (categories : Categories)

namespace Transaction

/-- What a node receives. -/
def bytes : Transaction → List UInt8
  | .hold h others own _ => h.toList ++ (others.flatten ++ own)
  | .read h others => h.toList ++ others.flatten
  | .ack categories => [SyncHeader.pack ⟨.ack, categories⟩]

/-- The transaction is complete, and as it should be. -/
def Valid : Transaction → Prop
  | .hold h others own frame =>
    h.evenParity = true ∧ h.flag = true ∧ (∀ bytes ∈ others, ∃ frame, Frame.Whole bytes frame) ∧
      Frame.Whole own frame ∧ frame ≠ .empty ∧
      (h.action = .write ∧ h.count = others.length + 1 ∨ h.action = .broadcast ∧ others = [])
  | .read h others =>
    h.evenParity = true ∧ h.action = .read ∧ (∀ bytes ∈ others, ∃ frame, Frame.Whole bytes frame) ∧
      h.count = others.length ∧ others.length + 1 < countModulus
  | .ack _ => True

/-- The value that a node is to hold back. -/
def held? : Transaction → Option Slot
  | .hold h _ _ frame => frame.value?.map fun data => ⟨h.property, data⟩
  | .read .. | .ack _ => none

/-- The engine of a node after the transaction. -/
def after (table : Table M) (m : M) (e : Engine) : Transaction → Engine
  | .hold h _ _ frame =>
    match frame.value? with
    | none => e
    | some data => (e.enter (.counting (.ofHeader h) 0 data) 0).stage ⟨h.property, data⟩
  | .read h _ => { e with record := (answer table m h.property e.record).2 }
  | .ack _ => e

end Transaction

/-- What a node that listens makes of a transaction. -/
theorem digest_transaction (table : Table M) (e : Engine) (m : M) {t : Transaction}
    (valid : t.Valid) :
  ((Body.listener e m).digest table t.bytes).1 = Body.listener (t.after table m e) m
  := by
  cases t with
  | hold h others own frame =>
    obtain ⟨even, staged, whole, mine, useful, shape⟩ := valid
    have received : Body.receive table e m (.ofHeader h) frame.value? =
        Body.listener ((Transaction.hold h others own frame).after table m e) m := by
      rw [Transaction.after]
      cases frame.value? with
      | none => rfl
      | some data =>
        have held : (Request.ofHeader h).staged = true := staged
        rw [Body.receive, if_pos held]
        rfl
    rcases shape with ⟨isWrite, count⟩ | ⟨isBroadcast, rfl⟩
    · rw [Transaction.bytes, Body.digest_write table e m isWrite even whole count mine useful,
        received]
    · rw [Transaction.bytes, List.flatten_nil, List.nil_append,
        Body.digest_broadcast table e m isBroadcast even mine useful, received]
  | read h others =>
    obtain ⟨even, isRead, whole, count, short⟩ := valid
    have answered := Body.digest_read table e m isRead even whole count short
    exact congrArg Prod.fst answered
  | ack categories =>
    have heard := Body.digest_ack table e m categories
    exact congrArg Prod.fst heard

/-- What a node that listens makes of transactions in a row. -/
theorem digest_transactions (table : Table M) (e : Engine) (m : M) {transactions : List Transaction}
    (valid : ∀ t ∈ transactions, t.Valid) :
  ((Body.listener e m).digest table (transactions.flatMap Transaction.bytes)).1 =
    Body.listener (transactions.foldl (Transaction.after table m) e) m
  := by
  induction transactions generalizing e with
  | nil => exact congrArg Prod.fst (Body.digest_nil (b := Body.listener e m) trivial)
  | cons t rest ih =>
    obtain ⟨first, others⟩ := List.forall_mem_cons.mp valid
    rw [List.flatMap_cons, Body.digest_append, digest_transaction table e m first, ih _ others]
    rfl

/-- What an engine holds back after a transaction. -/
theorem staged_after (table : Table M) (m : M) {e : Engine} {values : List Slot}
    (held : e.staged = lastValues values) (t : Transaction) :
  (t.after table m e).staged = lastValues (values ++ t.held?.toList)
  := by
  cases t with
  | hold h others own frame =>
    simp only [Transaction.after, Transaction.held?]
    cases frame.value? with
    | none => simpa using held
    | some data => exact Engine.stage_lastValues (e := e.enter _ 0) held _
  | read h others => simpa [Transaction.after, Transaction.held?] using held
  | ack categories => simpa [Transaction.after, Transaction.held?] using held

/-- What an engine holds back after some transactions. -/
theorem staged_transactions (table : Table M) (m : M) {e : Engine} {values : List Slot}
    (held : e.staged = lastValues values) (transactions : List Transaction) :
  (transactions.foldl (Transaction.after table m) e).staged =
    lastValues (values ++ transactions.filterMap Transaction.held?)
  := by
  induction transactions generalizing e values with
  | nil =>
    rw [List.filterMap_nil, List.append_nil]
    exact held
  | cons t rest ih =>
    rw [List.foldl_cons, ih (staged_after table m held t), List.append_assoc]
    cases is : t.held? with
    | none => rw [List.filterMap_cons_none is]; rfl
    | some slot => rw [List.filterMap_cons_some is]; rfl

/-- A value for which an engine has no room is dropped, which is a fault. -/
theorem after_full (table : Table M) (m : M) {e : Engine} {values : List Slot}
    (held : e.staged = lastValues values) {t : Transaction} {slot : Slot}
    (is : t.held? = some slot) (new : slot.property ∉ firstProperties values)
    (full : slotsMax ≤ (firstProperties values).length) :
  (t.after table m e).staged = e.staged ∧
    (t.after table m e).record = some ⟨.invalidState, .counting⟩
  := by
  have properties : e.staged.map Slot.property = firstProperties values := by
    rw [held, properties_lastValues]
  cases t with
  | hold h others own frame =>
    simp only [Transaction.held?, Option.map_eq_some_iff] at is
    obtain ⟨data, carries, rfl⟩ := is
    have crowded : ¬(e.enter (.counting (.ofHeader h) 0 (some data)) 0).HasRoom h.property := by
      rintro (⟨other, member, same⟩ | room)
      · apply new
        rw [← properties, ← same]
        exact List.mem_map.mpr ⟨other, member, rfl⟩
      · change e.staged.length < slotsMax at room
        rw [← List.length_map Slot.property, properties] at room
        omega
    simp only [Transaction.after, carries]
    rw [Engine.stage_full ⟨h.property, data⟩ crowded]
    exact ⟨rfl, rfl⟩
  | _ => simp [Transaction.held?] at is

/-! ### Transactions and a commit -/

namespace Station

variable {s : Station M}

/-- After a timely run through some transactions a node has called no handler, and is what the
transactions make of it. -/
theorem run_transactions (listening : s.engine.phase = .listening .nothing)
    {transactions : List Transaction} (valid : ∀ t ∈ transactions, t.Valid) {events : List Event}
    (timely : s.Timely table events)
    (read : s.read table events = transactions.flatMap Transaction.bytes)
    (listens : (s.run table events).engine.state = .listening) :
  s.calls table events = [] ∧
    (s.run table events).body =
      Body.listener (transactions.foldl (Transaction.after table s.module) s.engine) s.module
  := by
  have made {M : Type} {table : Table M} {s : Station M}
      (listening : s.engine.phase = .listening .nothing) (timely : s.Timely table events)
      (read : s.read table events = transactions.flatMap Transaction.bytes)
      (listens : (s.run table events).engine.state = .listening) :
      (s.run table events).body =
        Body.listener (transactions.foldl (Transaction.after table s.module) s.engine)
          s.module := by
    obtain ⟨sent, made, -⟩ := timely.digest_read (waiting_of_listening listens)
    have digested := congrArg Prod.fst made
    rwa [read, body_listening listening, digest_transactions table s.engine s.module valid,
      eq_comm] at digested
  refine ⟨?_, made listening timely read listens⟩
  -- The transactions leave the log of a module that keeps one as it is, so there were no calls.
  have logged := @made _ (loggingTable table) (s.logging []) listening (timely.logging [])
    ((s.read_logging table [] events).trans read) (by rw [run_logging]; exact listens)
  rw [run_logging, List.nil_append] at logged
  exact congrArg (fun b => b.module.2) logged

/-- A node that holds no value back holds the last one of each of the first few properties back
after some transactions, and then applies these values at a commit.

Meanwhile it calls no handler, and its module never changes.  A value of a further property is
dropped, and the node has a fault to report.

The commit calls the handlers of the values held back, each one once and in order, whatever faults
there are.  The node then holds no value back; it recovers for the first of the faults, or listens
again if there is none.  Headers of a single byte that follow, further commits among them, call no
handler. -/
theorem commit_applies_lastValues (listening : s.engine.phase = .listening .nothing)
    (bare : s.engine.staged = []) {transactions : List Transaction}
    (valid : ∀ t ∈ transactions, t.Valid) {events : List Event} (timely : s.Timely table events)
    (read : s.read table events = transactions.flatMap Transaction.bytes)
    (listens : (s.run table events).engine.state = .listening) :
  let s' := s.run table events
  let slots := lastValues (transactions.filterMap Transaction.held?)
  s.calls table events = [] ∧ (∀ past, past <+: events → (s.run table past).module = s.module) ∧
  s'.engine.staged = slots ∧
  (∀ front t slot, transactions = front ++ [t] → t.held? = some slot →
    let earlier := front.filterMap Transaction.held?
    slot.property ∉ firstProperties earlier → slotsMax ≤ (firstProperties earlier).length →
    s'.engine.staged = lastValues earlier ∧ s'.engine.record = some ⟨.invalidState, .counting⟩) ∧
  ∀ committing, s'.Commits table committing →
    let s'' := s'.run table committing
    s'.calls table committing = slots.filterMap (Slot.call? table) ∧
    s''.module = slots.foldl (fun m slot => (applySlot table slot m).2) s.module ∧
    s''.engine.staged = [] ∧
    (match (applyFaults table slots s.module).head? with
      | none => s''.engine.phase = .listening .nothing ∧ s''.engine.record = s'.engine.record
      | some fault =>
        s''.engine.phase = .recovering ∧ s''.engine.record = some ⟨fault, .committing⟩) ∧
    ∀ more, (∀ byte ∈ s''.read table more, Action.ofByte byte = .sync) →
      s''.calls table more = []
  := by
  intro s' slots
  obtain ⟨silent, body⟩ := run_transactions listening valid timely read listens
  have still (past : List Event) (begins : past <+: events) :
      (s.run table past).module = s.module := by
    obtain ⟨later, rfl⟩ := begins
    rw [calls, gather_append, List.append_eq_nil_iff] at silent
    rw [module_run, calls, silent.1, List.foldl_nil]
  have none : s.engine.staged = lastValues [] := bare
  have staged : s'.engine.staged = slots := by
    have held := staged_transactions table s.module none transactions
    rw [List.nil_append] at held
    exact (congrArg (fun b => b.engine.staged) body).trans held
  have listening' : s'.engine.phase = .listening .nothing :=
    congrArg (fun b => b.engine.phase) body
  refine ⟨silent, still, staged, ?_, fun committing commits => ?_⟩
  · rintro front t slot rfl is earlier new full
    have held := staged_transactions table s.module none front
    rw [List.nil_append] at held
    obtain ⟨same, record⟩ := after_full table s.module held is new full
    rw [List.foldl_append] at body
    exact ⟨((congrArg (fun b => b.engine.staged) body).trans same).trans held,
      (congrArg (fun b => b.engine.record) body).trans record⟩
  · intro s''
    obtain ⟨calls, body'⟩ := run_commit listening' commits
    have idle := (commits.done listening').1
    have module : s'.module = s.module := still events List.prefix_rfl
    rw [staged] at calls body'
    rw [module] at body'
    have becomes :
        s''.module = slots.foldl (fun m slot => (applySlot table slot m).2) s.module := by
      have same := congrArg Body.module body'
      rwa [module_committedBody, applyAll_eq] at same
    have emptied : s''.engine.staged = [] :=
      (congrArg (fun b => b.engine.staged) body').trans (staged_committedBody ..)
    refine ⟨calls, becomes, emptied, ?_, fun more syncs => (idle_run table idle syncs).2 emptied⟩
    cases first : (applyFaults table slots s.module).head? with
    | none =>
      simp only [committedBody, first] at body'
      exact ⟨congrArg (fun b => b.engine.phase) body', congrArg (fun b => b.engine.record) body'⟩
    | some fault =>
      simp only [committedBody, first] at body'
      exact ⟨congrArg (fun b => b.engine.phase) body', congrArg (fun b => b.engine.record) body'⟩

/-! ### More properties than places -/

/-- The staged broadcast of a value, if the given frame carries it. -/
def broadcastOf (property : PropertyId) (own value : List UInt8) : Transaction :=
  .hold (ActionHeader.pack ⟨.broadcast, true, property, 0⟩) [] own (.data value)

/-- The frame of the value nine. -/
def nine : List UInt8 :=
  [3, 9, 0xF6, 0]

/-- The frame of the value eight. -/
def eight : List UInt8 :=
  [3, 8, 0xF7, 0]

/-- The transactions by which two offsets come, a read and an acknowledge between them, and then the
values of three properties that no module has. -/
def crowding : List Transaction :=
  [broadcastOf SplitFlap.offset.id nine [9],
    .read (ActionHeader.pack ⟨.read, false, SplitFlap.offset.id, 0⟩) [],
    .ack Categories.empty, broadcastOf SplitFlap.offset.id eight [8],
    broadcastOf ⟨100⟩ nine [9], broadcastOf ⟨101⟩ nine [9], broadcastOf ⟨102⟩ eight [8]]

/-- One more value, for which there is no place left. -/
def overflowing : Transaction :=
  broadcastOf ⟨103⟩ nine [9]

/-- All the transactions come at once. -/
def crowdingEvents : List Event :=
  .receive ((crowding ++ [overflowing]).flatMap Transaction.bytes) :: List.replicate 40 (.tick 0)

/-- A commit, whose byte leaves late. -/
def commitEvents : List Event :=
  [.drained false, .receive [SyncHeader.pack ⟨.commit, Categories.empty⟩], .tick 10, .tick 20,
    .drained true, .tick 30, .tick 40]

/-- The value that comes last is dropped.  The commit calls one handler, that of the offset, and the
node recovers since there is none for the other values. -/
theorem commit_applies_lastValues_crowded :
  let s : Station SplitFlap.Module := { module := {} }
  let s' := s.run SplitFlap.table crowdingEvents
  let s'' := s'.run SplitFlap.table commitEvents
  s'.engine.staged = [⟨SplitFlap.offset.id, [8]⟩, ⟨⟨100⟩, [9]⟩, ⟨⟨101⟩, [9]⟩, ⟨⟨102⟩, [8]⟩] ∧
  s'.engine.record = some ⟨.invalidState, .counting⟩ ∧
  (s'.calls SplitFlap.table commitEvents).length = 1 ∧
  s''.engine.staged = [] ∧ s''.engine.phase = .recovering ∧
  s''.engine.record = some ⟨.propertyNotSupported, .committing⟩
  := by
  intro s
  dsimp only
  have whole : Frame.Whole nine (.data [9]) := Frame.whole_of_encode rfl
  have whole' : Frame.Whole eight (.data [8]) := Frame.whole_of_encode rfl
  have broadcast (property : PropertyId) {own value : List UInt8}
      (is : Frame.Whole own (.data value)) : (broadcastOf property own value).Valid := by
    refine ⟨?_, ?_, ?_, is, ?_, .inr ⟨?_, rfl⟩⟩ <;> simp
  have asked : Transaction.Valid
      (.read (ActionHeader.pack ⟨.read, false, SplitFlap.offset.id, 0⟩) []) := by
    refine ⟨?_, ?_, ?_, ?_, ?_⟩ <;> simp [countModulus]
  have valid : ∀ t ∈ crowding ++ [overflowing], t.Valid := by
    simp only [crowding, overflowing, List.cons_append, List.nil_append, List.forall_mem_cons]
    exact ⟨broadcast _ whole, asked, trivial, broadcast _ whole', broadcast _ whole,
      broadcast _ whole, broadcast _ whole', broadcast _ whole, List.forall_mem_nil _⟩
  have timely : s.Timely SplitFlap.table crowdingEvents := by decide +kernel
  have read : s.read SplitFlap.table crowdingEvents =
      (crowding ++ [overflowing]).flatMap Transaction.bytes := by decide +kernel
  have listens : (s.run SplitFlap.table crowdingEvents).engine.state = .listening := by
    decide +kernel
  have commits : (s.run SplitFlap.table crowdingEvents).Commits SplitFlap.table commitEvents := by
    refine ⟨by decide +kernel, ⟨Categories.empty, by decide +kernel⟩, ?_⟩
    exact ⟨commitEvents.take 5, 30, [.tick 40], rfl, by decide +kernel, by decide +kernel⟩
  obtain ⟨-, -, staged, dropped, committed⟩ :=
    commit_applies_lastValues rfl rfl valid timely read listens
  obtain ⟨calls, -, emptied, failed, -⟩ := committed commitEvents commits
  have first : (applyFaults SplitFlap.table
      (lastValues ((crowding ++ [overflowing]).filterMap Transaction.held?)) s.module).head? =
        some .propertyNotSupported := by decide +kernel
  rw [first] at failed
  have kept : lastValues ((crowding ++ [overflowing]).filterMap Transaction.held?) =
      [⟨SplitFlap.offset.id, [8]⟩, ⟨⟨100⟩, [9]⟩, ⟨⟨101⟩, [9]⟩, ⟨⟨102⟩, [8]⟩] := by decide +kernel
  have full := dropped crowding overflowing ⟨⟨103⟩, [9]⟩ rfl rfl (by decide +kernel)
    (by decide +kernel)
  have once : ((lastValues ((crowding ++ [overflowing]).filterMap Transaction.held?)).filterMap
      (Slot.call? SplitFlap.table)).length = 1 := by decide +kernel
  rw [kept] at staged
  rw [← calls] at once
  exact ⟨staged, full.2, once, emptied, failed⟩

end Station

end DaisyChain.Node
