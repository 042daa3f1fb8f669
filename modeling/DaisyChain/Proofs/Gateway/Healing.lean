import DaisyChain.Proofs.Chain.Resuming
import DaisyChain.Proofs.Gateway.Contention
import DaisyChain.Proofs.Gateway.FlippedWrites
import DaisyChain.Proofs.Gateway.Precedence

/-!
# Broadcasts that heal

The header of a broadcast arrives with a flipped bit over one of the links.  Then the attempt fails
with a damaged header (`run_writeAll_garbled`).  While the gateway pauses, the nodes behind that
link recover, with a record of the header.  A second attempt gives the value to all nodes, but meets
the records and fails, too; it takes them along, so that a third one succeeds
(`run_broadcastAgain_recorded`).

So the pass that was to make this broadcast has made it in the end, and no node has a record
(`pass_heals_header`).
-/

namespace DaisyChain

open Node

variable {M : Type}

/-! ### Headers with a flipped bit -/

/-- A flipped bit makes a synchronisation of a broadcast only if it is the one that tells them
apart. -/
theorem Action.ofByte_flipBit {bit : Fin 8} {byte : UInt8} (other : bit ≠ 6)
    (action : Action.ofByte byte = .broadcast) :
  Action.ofByte (flipBit bit byte) ≠ .sync
  := by
  revert byte
  apply forall_byte
  revert bit
  decide +kernel

/-- A flipped bit garbles the header of a broadcast, unless it makes a synchronisation of it. -/
theorem garbles_flipped {position : Nat} {bit : Fin 8} (within : position < Header.actionLength)
    (kept : ¬(position = 0 ∧ bit = 6)) (staged : Bool) (property : PropertyId) (count : Nat) :
  Disturbance.Garbles (flipped position bit)
    (ActionHeader.pack ⟨.broadcast, staged, property, count⟩)
  := by
  let h := ActionHeader.pack ⟨.broadcast, staged, property, count⟩
  obtain ⟨h', changed, odd⟩ := exists_header_flipped (h := h) (ActionHeader.evenParity_pack _)
    within bit []
  rw [List.append_nil, List.append_nil] at changed
  refine ⟨h', Prod.ext ?_ (Disturbance.left_pass_changed _ within), odd, ?_⟩
  · exact (Disturbance.arrived_pass_changed position _ h.toList).trans changed
  · have first : Action.ofByte h.byte0 = .broadcast := ActionHeader.action_pack _
    have head : (if position = 0 then flipBit bit h.byte0 else h.byte0) = h'.byte0 := by
      have same := congrArg (fun bytes : List UInt8 => bytes[0]?) changed
      simp only [List.getElem?_modify] at same
      exact Option.some.inj same
    rw [RawHeader.action, ← head]
    split
    · next hit => exact Action.ofByte_flipBit (fun same => kept ⟨hit, same⟩) first
    · rw [first]
      exact fun sync => by cases sync

namespace Gateway

variable {N : Nat} {g : Gateway M} {d : Definition M} {data : List UInt8}

/-! ### What is broadcast -/

/-- The display, which has at most as many modules as there are nodes, offers a value to all nodes:
that of its first module. -/
structure Session.Offers (count : Nat) (d : Definition M) (data : List UInt8)
    (σ : Session (Site (Chain M) M N)) : Prop where
  first : ∃ m, σ.collection.module? 0 = some m ∧ d.serialize m = .ok data
  fits : σ.env.entries.length ≤ min count N

/-- The nodes once they have received a value and forgotten their records. -/
def supplied (d : Definition M) (data : List UInt8) (nodes : List (Engine × M)) :
    List (Engine × M) :=
  nodes.map fun n => ({ n.1 with record := none }, d.given data n.2)

/-- All nodes receive the same value and forget their records. -/
theorem forgotten_received (d : Definition M) (data : List UInt8) (nodes : List (Engine × M)) :
  forgotten (List.zipWith (received d false) nodes
    (List.replicate nodes.length (some data))) = supplied d data nodes
  := by
  rw [← List.map_const', List.zipWith_map_right, List.zipWith_self, forgotten, List.map_map]
  rfl

/-- What has been supplied to nodes is accepted again. -/
theorem accepts_supplied {nodes : List (Engine × M)} (accepts : ∀ n ∈ nodes, d.Accepts data n.2) :
  ∀ n ∈ supplied d data nodes, d.Accepts data n.2
  := by
  intro n member
  obtain ⟨n', among, rfl⟩ := List.mem_map.mp member
  exact (accepts n' among).given

/-- Nodes have what has been supplied to them, and no record. -/
theorem laid_supplied {nodes : List (Engine × M)} (accepts : ∀ n ∈ nodes, d.Accepts data n.2) :
  ∀ n ∈ supplied d data nodes, n.1.record = none ∧ d.serialize n.2 = .ok data
  := by
  intro n member
  obtain ⟨n', among, rfl⟩ := List.mem_map.mp member
  exact ⟨rfl, (accepts n' among).laid⟩

/-- Something is not supported only if some node has recorded that. -/
theorem notSupported_faultsOf {nodes : List (Engine × M)}
    (supported : ∀ n ∈ nodes, (categoriesOf n.1.lastFault).notSupported = false) :
  (faultsOf nodes).notSupported = false
  := by
  induction nodes with
  | nil => rfl
  | cons n rest ih =>
    have own := supported n List.mem_cons_self
    have others := ih fun n member => supported n (List.mem_cons_of_mem _ member)
    change ((categoriesOf n.1.lastFault).notSupported || (faultsOf rest).notSupported) = false
    rw [own, others]
    rfl

/-- If no node has recorded that something is not supported, a failure with the categories of the
records is worth another attempt. -/
theorem isRetryable_records {nodes : List (Engine × M)}
    (supported : ∀ n ∈ nodes, (categoriesOf n.1.lastFault).notSupported = false) :
  (Failure.nodes (categoriesOfAll (nodes.map fun n => n.1.record))).isRetryable = true
  := by
  have none := notSupported_faultsOf supported
  rw [← faultsOf_eq, Failure.isRetryable, Failure.isNotSupported, Categories.onlyNotSupported]
  generalize faultsOf nodes = categories at none
  have other : (categories == { Categories.empty with notSupported := true }) = false := by
    rw [beq_eq_false_iff_ne]
    rintro rfl
    contradiction
  rw [other]
  rfl

namespace Session.Offers

variable {count : Nat} {σ τ : Session (Site (Chain M) M N)}

/-- What retains the display retains what it offers. -/
theorem retained {P : Definition M → Prop} (offers : σ.Offers count d data)
    (retains : σ.Retains count P τ) (within : P d) :
  τ.Offers count d data
  := by
  obtain ⟨m, here, laid⟩ := offers.first
  rw [← Collection.module?_outline _ d.id] at here
  obtain ⟨m', here', same⟩ := (retains.alike d within).exists_module here
  rw [Collection.module?_outline] at here'
  exact ⟨⟨m', here', same.trans laid⟩, retains.fits⟩

/-- What is offered can be got from a module. -/
theorem gettable (offers : σ.Offers count d data) :
  d.get.isSome
  := by
  obtain ⟨m, -, laid⟩ := offers.first
  exact Definition.gettable_of_serialize laid

/-- What is offered is the value of the first module, and fits a frame. -/
theorem exists_frame [Inhabited M] (offers : σ.Offers count d data) :
  (valueAt d 0 : Act _ (List UInt8)).run σ = (.ok data, σ) ∧
    ∃ bytes, Frame.encode data = .ok bytes
  := by
  obtain ⟨m, here, laid⟩ := offers.first
  have value : d.value m = data := by rw [Definition.value, laid]
  have fits := exists_encode_value (d := d) (m := m) (by rw [value]; exact laid)
  rw [value] at fits
  exact ⟨run_valueAt_of_module here laid, fits⟩

end Session.Offers

/-! ### Attempts -/

section Attempts

variable [Inhabited M] {σ : Session (Site (Chain M) M N)} {nodes : List (Engine × M)}
variable (member : d ∈ definitions g.table) (writable : d.access.writable = true)

include member writable

/-- A broadcast supplies all nodes that listen.  It succeeds if no node has a record, and fails with
the categories of the records otherwise. -/
theorem run_writeAll_supplied (offers : σ.Offers nodes.length d data)
    (accepts : ∀ n ∈ nodes, d.Accepts data n.2) (some : nodes ≠ [])
    (few : nodes.length < countModulus) {out : List UInt8}
    (yields : σ.line.Yields g.table (listeners nodes) out) (short : out.length ≤ frameMax) :
  let categories := categoriesOfAll (nodes.map fun n => n.1.record)
  ∃ (c : Chain M) (τ : Session (Site (Chain M) M N)),
    c.Yields g.table (listeners (supplied d data nodes)) [] ∧
    σ.Retains nodes.length (fun _ => True) τ ∧
    (g.writeAll d.id .all false : Act _ Unit).run σ =
      (if categories.isEmpty then .ok () else .error (.nodes categories), τ.withLine c)
  := by
  obtain ⟨found, bytes, fits⟩ := offers.exists_frame
  have delivers : Delivers d d.id nodes.length σ (List.replicate nodes.length (.some data)) σ
      .all := ⟨data, bytes, found, fits, rfl⟩
  have receivable : List.Forall₂ (Receivable d false) nodes
      (List.replicate nodes.length (.some data)) := by
    rw [List.forall₂_iff_get]
    refine ⟨List.length_replicate.symm, fun i within within' value is => ?_⟩
    rw [List.get_eq_getElem, List.getElem_replicate] at is
    cases is
    exact (accepts _ (List.getElem_mem within)).taken
  have sent := run_writeAll_site member writable offers.gettable some few offers.fits receivable
    delivers yields short
  rw [forgotten_received] at sent
  exact sent

/-- If the header of a broadcast comes back with odd parity, the broadcast fails with a damaged
header. -/
theorem run_writeAll_odd {count : Nat} (offers : σ.Offers count d data)
    (still : σ.line.clearExit = σ.line) {bytes : List UInt8} (fits : Frame.encode data = .ok bytes)
    {h : RawHeader} (odd : h.evenParity = false) {c : Chain M}
    (comes : ∀ timeout, ((σ.line.inject 0
      (ActionHeader.pack ⟨.broadcast, false, d.id, 0⟩).toList).inject 0 bytes).await
        Header.actionLength timeout = (h.toList, c)) :
  (g.writeAll d.id .all false : Act _ Unit).run σ = (.error .headerMismatch, σ.withLine c)
  := by
  obtain ⟨found, low⟩ := mem_definitions.mp member
  have header : ActionHeader.of? .broadcast false d.id 0 =
      some ⟨.broadcast, false, d.id, 0⟩ :=
    (PropertyId.travels_of_le low).of?_eq (by simp) _ (by decide)
  let opened := σ.line.inject 0 (ActionHeader.pack ⟨.broadcast, false, d.id, 0⟩).toList
  have flushed := run_flush_eq σ
  rw [still, Session.withLine_line] at flushed
  have opening := run_send_eq σ (ActionHeader.pack ⟨.broadcast, false, d.id, 0⟩).toList
  have moved := aside_valueAt (S := Site (Chain M) M N) d 0 opened σ
  rw [offers.exists_frame.1] at moved
  have sending := run_send_eq (σ.withLine opened) bytes
  rw [Session.line_withLine, Session.withLine_withLine] at sending
  -- The header is received, but found to be damaged.
  have received : (g.receive Header.actionLength : Act _ (List UInt8)).run
      (σ.withLine (opened.inject 0 bytes)) = (.ok h.toList, σ.withLine c) := by
    have arrived : (σ.withLine (opened.inject 0 bytes)).line.await h.toList.length
        (g.settings.receiveTimeout h.toList.length) = (h.toList, c) := by
      rw [Session.line_withLine]
      exact comes _
    have called := run_receive_of_await g arrived
    rwa [Session.withLine_withLine] at called
  have damaged := run_receiveHeader_of_receive g received
  rw [odd, if_neg Bool.false_ne_true] at damaged
  have echo : (g.receiveEcho .broadcast d.id false : Act _ RawHeader).run
      (σ.withLine (opened.inject 0 bytes)) = (.error .headerMismatch, σ.withLine c) := by
    rw [receiveEcho, run_bind_error damaged]
  rw [writeAll_eq g found writable offers.gettable]
  simp only
  rw [broadcast, header]
  simp only
  rw [run_bind_ok flushed, run_bind_ok opening, run_bind_ok (run_valueFrame moved fits),
    run_bind_ok sending, run_bind_error echo]

/-- A broadcast over a link that garbles its header fails with a damaged header.  After a pause for
the time that a recovery takes all nodes listen, and have recorded nothing but that header. -/
theorem run_writeAll_garbled (shared : σ.line.table = g.table) (idle : σ.line.Idle)
    (offers : σ.Offers σ.line.pairs.length d data)
    (accepts : ∀ n ∈ σ.line.pairs, d.Accepts data n.2) (few : σ.line.pairs.length < countModulus)
    {k : Nat} (within : k ≤ σ.line.pairs.length) {ds : List Disturbance}
    (garbles : ∀ count, Disturbance.Garbles ds
      (ActionHeader.pack ⟨.broadcast, false, d.id, count⟩)) :
  ∃ c : Chain M,
    (g.writeAll d.id .all false : Act _ Unit).run (σ.withLine (σ.line.disturb k ds)) =
      (.error .headerMismatch, σ.withLine c) ∧
    ∀ ms, recoveryDelay ≤ ms → ∃ (nodes : List (Engine × M)) (out : List UInt8),
      nodes.length = σ.line.pairs.length ∧ out.length ≤ frameMax ∧
      (c.advance ms).Yields g.table (listeners nodes) out ∧
      ∀ n ∈ nodes, (categoriesOf n.1.lastFault).notSupported = false ∧ d.Accepts data n.2
  := by
  obtain ⟨found, low⟩ := mem_definitions.mp member
  have travels := PropertyId.travels_of_le low
  obtain ⟨-, bytes, fits⟩ := offers.exists_frame
  let given (n : Engine × M) := received d false n (some data)
  have receives : ∀ n ∈ σ.line.pairs, reached σ.line.table ⟨.broadcast, false, d.id⟩
      (Frame.data data).value? n = Body.listener (given n).1 (given n).2 := by
    intro n among
    rw [shared]
    refine receive_eq_listener found writable .broadcast fun value is => ?_
    cases is
    exact (accepts n among).taken
  obtain ⟨h, c, odd, comes, resumes⟩ := idle.resumes_garbled travels false within few garbles
    (Frame.whole_of_encode fits) (by simp) receives
  have still := (idle.calm_disturb k ds).clearExit_eq (idle.working_disturb k ds)
  let struck := σ.withLine (σ.line.disturb k ds)
  have fails := run_writeAll_odd (σ := struck) member writable ⟨offers.first, offers.fits⟩
    (by rw [Session.line_withLine]; exact still) fits odd
    (by rw [Session.line_withLine]; exact comes)
  rw [Session.withLine_withLine] at fails
  refine ⟨c, fails, fun ms long => ?_⟩
  obtain ⟨out, short, listens⟩ := resumes ms long
  rw [shared] at listens
  refine ⟨_, out, ?_, short, listens, fun n among => ?_⟩
  · rw [List.length_append, List.length_map, blamed, List.length_map, ← List.length_append,
      List.take_append_drop]
  rcases List.mem_append.mp among with front | back
  · -- The node has received the value.
    obtain ⟨n', before, rfl⟩ := List.mem_map.mp front
    have earlier := List.mem_of_mem_take before
    refine ⟨?_, (accepts n' earlier).given⟩
    have unrecorded : (given n').1.lastFault = none :=
      congrArg (Option.map Record.fault) (idle.unrecorded_pairs n' earlier)
    rw [unrecorded]
    rfl
  · -- The node has refused the header.
    obtain ⟨n', behind, rfl⟩ := List.mem_map.mp back
    exact ⟨rfl, accepts n' (List.mem_of_mem_drop behind)⟩

end Attempts

/-! ### Repeated broadcasts -/

/-- The nodes all have a value, listen, and have no record; the display is retained. -/
structure Session.Supplied (g : Gateway M) (d : Definition M) (data : List UInt8) (count : Nat)
    (σ τ : Session (Site (Chain M) M N)) : Prop where
  retains : σ.Retains count (fun _ => True) τ
  nodes : ∃ nodes : List (Engine × M), nodes.length = count ∧
    τ.line.Yields g.table (listeners nodes) [] ∧
    ∀ n ∈ nodes, n.1.record = none ∧ d.serialize n.2 = .ok data

section Repeated

variable [Inhabited M] {σ : Session (Site (Chain M) M N)}
variable (member : d ∈ definitions g.table) (writable : d.access.writable = true)

include member writable

/-- A broadcast to nodes that listen succeeds at the second attempt at the latest, whatever faults
of the line the nodes have recorded. -/
theorem run_broadcastAgain_recorded {nodes : List (Engine × M)}
    (offers : σ.Offers nodes.length d data) (accepts : ∀ n ∈ nodes, d.Accepts data n.2)
    (supported : ∀ n ∈ nodes, (categoriesOf n.1.lastFault).notSupported = false)
    (some : nodes ≠ []) (few : nodes.length < countModulus) {out : List UInt8}
    (yields : σ.line.Yields g.table (listeners nodes) out) (short : out.length ≤ frameMax)
    (retries : Nat) :
  ∃ τ, (g.broadcastAgain d.id (retries + 1) : Act _ Unit).run σ = (.ok (), τ) ∧
    σ.Supplied g d data nodes.length τ
  := by
  have length : (supplied d data nodes).length = nodes.length := List.length_map _
  obtain ⟨c, τ, after, retains, first⟩ := run_writeAll_supplied member writable offers accepts some
    few yields short
  cases clear : (categoriesOfAll (nodes.map fun n => n.1.record)).isEmpty with
  | true =>
    rw [clear, if_pos rfl] at first
    refine ⟨_, run_broadcastAgain g _ first, retains.withLine c, _, length, ?_,
      laid_supplied accepts⟩
    rw [Session.line_withLine]
    exact after
  | false =>
    rw [clear, if_neg Bool.false_ne_true] at first
    let ρ := (τ.withLine c).withLine ((τ.withLine c).line.advance g.settings.pause)
    have retained : σ.Retains nodes.length (fun _ => True) ρ := (retains.withLine c).withLine _
    -- The records have been taken along.
    have unrecorded : categoriesOfAll ((supplied d data nodes).map fun n => n.1.record) = .empty :=
      categoriesOfAll_of_unrecorded fun n among => (laid_supplied accepts n among).1
    obtain ⟨c', τ', after', retains', second⟩ := run_writeAll_supplied (σ := ρ) member writable
      (by rw [length]; exact offers.retained retained trivial) (accepts_supplied accepts)
      (fun none => some (List.map_eq_nil_iff.mp none)) (by rw [length]; exact few)
      (by rw [Session.line_withLine, Session.line_withLine]; exact after.advance_listeners _)
      (Nat.zero_le _)
    rw [unrecorded, if_pos (show Categories.empty.isEmpty = true from rfl)] at second
    rw [length] at retains'
    refine ⟨τ'.withLine c', ?_, retained.trans (retains'.withLine c'), _,
      (List.length_map _).trans length, ?_, laid_supplied (accepts_supplied accepts)⟩
    · rw [run_broadcastAgain_error g first (isRetryable_records supported)]
      exact run_broadcastAgain g retries second
    · rw [Session.line_withLine]
      exact after'

/-- A broadcast over a link that garbles its header succeeds at the third attempt at the latest, if
the gateway waits long enough for the nodes to recover. -/
theorem run_broadcastAgain_garbled (shared : σ.line.table = g.table) (idle : σ.line.Idle)
    (offers : σ.Offers σ.line.pairs.length d data)
    (accepts : ∀ n ∈ σ.line.pairs, d.Accepts data n.2) (some : σ.line.pairs ≠ [])
    (few : σ.line.pairs.length < countModulus) {k : Nat} (within : k ≤ σ.line.pairs.length)
    {ds : List Disturbance}
    (garbles : ∀ count, Disturbance.Garbles ds
      (ActionHeader.pack ⟨.broadcast, false, d.id, count⟩))
    (long : recoveryDelay ≤ g.settings.pause) (retries : Nat) :
  ∃ τ, (g.broadcastAgain d.id (retries + 2) : Act _ Unit).run
      (σ.withLine (σ.line.disturb k ds)) = (.ok (), τ) ∧
    σ.Supplied g d data σ.line.pairs.length τ
  := by
  obtain ⟨c, fails, resumes⟩ := run_writeAll_garbled member writable shared idle offers accepts few
    within garbles
  obtain ⟨nodes, out, length, short, listens, each⟩ := resumes _ long
  let ρ := (σ.withLine c).withLine ((σ.withLine c).line.advance g.settings.pause)
  have retained : σ.Retains σ.line.pairs.length (fun _ => True) ρ :=
    ((Session.Retains.refl offers.fits).withLine c).withLine _
  have offers' := offers.retained retained trivial
  rw [← length] at offers' few
  have filled : nodes ≠ [] := by
    rintro rfl
    exact some (List.length_eq_zero_iff.mp length.symm)
  obtain ⟨τ, ends, supplied⟩ := run_broadcastAgain_recorded (σ := ρ) member writable offers'
    (fun n among => (each n among).2) (fun n among => (each n among).1) filled few
    (by rw [Session.line_withLine, Session.line_withLine]; exact listens) short retries
  rw [length] at supplied
  refine ⟨τ, ?_, retained.trans supplied.retains, supplied.nodes⟩
  rw [run_broadcastAgain_error g fails rfl]
  exact ends

end Repeated

/-! ### Passes -/

/-- The nodes that have been supplied are as many as there were.  Each of them has the value, and no
record. -/
theorem Session.Supplied.nodes_eq {σ τ : Session (Site (Chain M) M N)} {count : Nat}
    (supplied : σ.Supplied g d data count τ) :
  τ.line.nodes.length = count ∧
    ∀ node ∈ τ.line.nodes, d.serialize node.module = .ok data ∧ node.engine.record = none
  := by
  obtain ⟨nodes, length, listens, each⟩ := supplied.nodes
  have bodies := listens.bodies_eq
  constructor
  · have lengths := congrArg List.length bodies
    rw [List.length_map, listeners, List.length_map, length] at lengths
    exact lengths
  · intro node among
    have body := List.mem_map_of_mem (f := ChainNode.body) among
    rw [bodies] at body
    obtain ⟨n, within, same⟩ := List.mem_map.mp body
    obtain ⟨unrecorded, laid⟩ := each n within
    have module : n.2 = node.module := congrArg Body.module same
    have record : n.1.record = node.engine.record :=
      congrArg (fun b : Body M => b.engine.record) same
    exact ⟨module ▸ laid, record ▸ unrecorded⟩

section Passes

variable [Inhabited M] {σ : Session (Site (Chain M) M N)}
variable (member : d ∈ definitions g.table) (writable : d.access.writable = true)
variable (shared : g.table = σ.line.table) (idle : σ.line.Idle) (some : σ.line.nodes ≠ [])
variable (few : σ.line.nodes.length < countModulus)
variable (sized : σ.collection.size = σ.line.nodes.length) (roomy : σ.collection.size ≤ N)
variable {first : M} (leads : σ.collection.module? 0 = .some first)
variable (laid : d.serialize first = .ok data)
variable (accepts : ∀ node ∈ σ.line.nodes, d.Accepts data node.module)
variable (often : 2 ≤ g.settings.retries) (long : recoveryDelay ≤ g.settings.pause)
variable {k : Nat} (link : k ≤ σ.line.nodes.length)

include member writable shared idle some few sized roomy leads laid accepts often long link

/-- A turn in which the header of a broadcast is garbled supplies the nodes all the same, and marks
the property clean. -/
theorem syncProperty_garbled (pending : σ.collection.operation? d.id = .some .broadcast)
    {ds : List Disturbance}
    (garbles : ∀ count, Disturbance.Garbles ds
      (ActionHeader.pack ⟨.broadcast, false, d.id, count⟩)) :
  ∃ τ, (g.syncProperty d.id (σ.withLine (σ.line.disturb k ds))).2 = τ.after (clean d.id) ∧
    σ.Supplied g d data σ.line.nodes.length τ
  := by
  let struck := σ.withLine (σ.line.disturb k ds)
  have count : σ.line.pairs.length = σ.line.nodes.length := List.length_map _
  have offers : σ.Offers σ.line.pairs.length d data := by
    refine ⟨⟨first, leads, laid⟩, ?_⟩
    rw [count]
    exact Nat.le_min.mpr ⟨Nat.le_of_eq sized, roomy⟩
  have accepts' : ∀ n ∈ σ.line.pairs, d.Accepts data n.2 := by
    intro n among
    obtain ⟨node, here, rfl⟩ := List.mem_map.mp among
    exact accepts node here
  have few' : σ.line.pairs.length < countModulus := count.symm ▸ few
  have link' : k ≤ σ.line.pairs.length := count.symm ▸ link
  obtain ⟨retries, enough⟩ := Nat.exists_eq_add_of_le' often
  obtain ⟨τ, ends, supplied⟩ := run_broadcastAgain_garbled member writable shared.symm idle offers
    accepts' (fun none => some (List.map_eq_nil_iff.mp none)) few' link' garbles long retries
  rw [count] at supplied
  refine ⟨τ, ?_, supplied⟩
  have counted : (tally struck.env).1 ≠ 0 := by
    rw [show (tally struck.env).1 = _ from Collection.counted_eq sized few]
    exact fun none => some (List.length_eq_zero_iff.mp none)
  have performed := perform_eq g d.id .broadcast counted struck
  rw [operate, enough, ends] at performed
  rw [syncProperty_ok g (σ := struck) pending performed]

/-- Nothing is to be done on an idle chain but to write the value of the first module to all nodes,
which accept it; the gateway is to repeat the broadcast at least twice, after pauses in which the
nodes recover.  Over one of the links one bit of the header of the broadcast is flipped, other than
the one that tells it apart from a synchronisation.  Then after one pass each node has that value,
and no record, and the property is clean. -/
theorem pass_heals_header (unread : σ.collection.reads.contains d.id = false)
    (written : σ.collection.writes.contains d.id = true)
    (alone : ∀ q, σ.collection.Pending q → q.wire = d.id.wire) {position : Nat} {bit : Fin 8}
    (within : position < Header.actionLength) (kept : ¬(position = 0 ∧ bit = 6)) :
  let σ' := (g.pass (σ.withLine (σ.line.disturb k (flipped position bit)))).2
  σ'.line.nodes.length = σ.line.nodes.length ∧
    (∀ node ∈ σ'.line.nodes, d.serialize node.module = .ok data ∧ node.engine.record = none) ∧
    (∃ m, σ'.collection.module? 0 = .some m ∧ d.serialize m = .ok data) ∧
    ¬σ'.collection.Pending d.id
  := by
  intro σ'
  let struck := σ.withLine (σ.line.disturb k (flipped position bit))
  let ρ := σ.withCollection (promoteAll g.table σ.collection)
  -- Promotion leaves nothing to be done but the broadcast.
  have quiet : ∀ e ∈ definitions g.table, e.id.wire ≠ d.id.wire →
      σ.collection.operation? e.id = none := by
    intro e _ differs
    by_contra pending
    exact differs (alone e.id (Collection.pending_iff.mpr pending))
  have pending : ρ.collection.operation? d.id = .some .broadcast := by
    rw [← Collection.operation?_outline]
    change ((promoteAll g.table σ.collection).outline d.id).operation? = _
    rw [Collection.outline_promoteAll _ member]
    exact Outline.operation?_promote_of_write unread written
  have size : ρ.collection.size = σ.collection.size := length_promotions _ _
  have leads' : ρ.collection.module? 0 = .some first :=
    (Collection.module?_promoteAll _ member 0).trans leads
  obtain ⟨τ, turned, supplied⟩ := syncProperty_garbled (σ := ρ) member writable shared idle some few
    (size.trans sized) (size ▸ roomy) leads' laid accepts often long link pending
    (garbles_flipped within kept false d.id)
  -- Nothing is left to be done.
  have passed : σ' = (τ.after (clean d.id)).finished := by
    rw [← turned]
    refine pass_eq_turn g (σ := struck) member quiet fun e among differs => ?_
    change (g.syncProperty d.id (ρ.withLine (ρ.line.disturb k (flipped position bit)))
      ).2.collection.operation? e.id = none
    rw [turned]
    change (τ.collection.markClean d.id).operation? e.id = none
    rw [← Collection.operation?_outline, Collection.outline_markClean_of_ne _ (Ne.symm differs),
      Collection.operation?_outline, supplied.retains.operation?_eq trivial]
    exact operation?_promotions_of_none _ (quiet e among differs)
  obtain ⟨length, each⟩ := supplied.nodes_eq
  rw [passed]
  refine ⟨length, each, ?_, ?_⟩
  · obtain ⟨m, here, same⟩ := (supplied.retains.alike d trivial).exists_module
      ((Collection.module?_outline _ d.id 0).trans leads')
    rw [Collection.module?_outline] at here
    exact ⟨m, (Collection.module?_markClean _ _ _).trans here, same.trans laid⟩
  · rw [Collection.pending_iff, not_not]
    exact Collection.operation?_markClean d.id

end Passes

/-- A display of three modules over three nodes: the offset of the first module is to be written to
all nodes. -/
def lone : Session (Site (Chain SplitFlap.Module) SplitFlap.Module 4) where
  env := {
    line := Chain.ofModules SplitFlap.table [{ offset := 1 }, { offset := 2 }, { offset := 3 }] 1024 0
    display := {
      collection := {
        entries := [{ module := { offset := 5 } }, { module := {} }, { module := {} }]
        writes := PropertySet.empty.insert ⟨6⟩ } } }

/-- Over the link between the first two nodes a bit of the count of the header is flipped, and all
three nodes get the offset all the same. -/
theorem pass_heals_header_three :
  let σ' := ((⟨SplitFlap.table, {}⟩ : Gateway SplitFlap.Module).pass
    (lone.withLine (lone.line.disturb 1 (flipped 1 3)))).2
  lone.line.Idle ∧ (∀ q, lone.collection.Pending q → q.wire = 6) ∧ σ'.line.nodes.length = 3 ∧
    (∀ node ∈ σ'.line.nodes,
      SplitFlap.offset.serialize node.module = .ok [5] ∧ node.engine.record = none) ∧
    ¬σ'.collection.Pending ⟨6⟩
  := by
  intro σ'
  have idle : lone.line.Idle := Chain.idle_ofModules _ _ (by decide) _
  have alone : ∀ q, lone.collection.Pending q → q.wire = 6 := by
    intro q pending
    rcases pending with read | write | marked
    · change PropertySet.empty.contains q = true at read
      rw [PropertySet.contains_empty] at read
      contradiction
    · exact (wire_of_contains write).symm
    · simp [Collection.anyMarked, Session.collection, lone, PropertySet.contains_empty] at marked
  have accepts : ∀ node ∈ lone.line.nodes, SplitFlap.offset.Accepts [5] node.module :=
    fun node _ => faithful_offset.accepts { offset := 5 } node.module
  obtain ⟨length, each, -, clean⟩ := pass_heals_header (g := ⟨SplitFlap.table, {}⟩) (σ := lone)
    offset_mem_definitions rfl rfl idle (by decide) (by decide) rfl (by decide) rfl rfl accepts
    (by decide) (by decide) (k := 1) (by decide) rfl rfl alone
    (show 1 < Header.actionLength by decide) (show ¬(1 = 0 ∧ (3 : Fin 8) = 6) by decide)
  exact ⟨idle, alone, length, each, clean⟩

end Gateway

end DaisyChain
