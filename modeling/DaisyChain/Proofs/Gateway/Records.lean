import DaisyChain.Gateway.Journal
import DaisyChain.Proofs.Gateway.Collecting
import DaisyChain.SplitFlap.Properties

/-!
# Records that travel to the gateway

An acknowledge of an attentive chain collects the categories of all records and changes no node
(`run_acknowledge`).  When the nodes are asked for their records, the gateway passes each of them on
once, in the order of the chain, and the nodes forget them: a later acknowledge collects nothing,
and the header of a read comes back without the flag (`records_pass_once`).

A journal tells what the gateway passes on.
-/

namespace DaisyChain.Gateway

open Node

variable {S M : Type}

/-! ### Journals on a chain -/

section Journals

namespace Journal

/-- A journal after something was done in the state that it accompanies. -/
def after {α : Type} (j : Journal S) (r : α × S) : α × Journal S :=
  (r.1, { j with state := r.2 })

end Journal

variable [Transport S] [OnChain S M]

/-- A journal of a state on a chain is a state on that chain. -/
instance : OnChain (Journal S) M where
  line := ⟨fun j => OnChain.line.get j.state,
    fun c j => { j with state := OnChain.line.set c j.state }⟩
  get_set c j := OnChain.get_set c j.state
  set_get j := congrArg (fun s => { j with state := s }) (OnChain.set_get j.state)
  set_set c c' j := congrArg (fun s => { j with state := s }) (OnChain.set_set c c' j.state)
  send_eq bytes j := congrArg j.after (OnChain.send_eq bytes j.state)
  receive_eq count timeout j := congrArg j.after (OnChain.receive_eq count timeout j.state)
  flush_eq j := congrArg j.after (OnChain.flush_eq j.state)
  drain_eq j := congrArg j.after (OnChain.drain_eq j.state)
  pause_eq ms j := congrArg j.after (OnChain.pause_eq ms j.state)

variable [Replica S M] [Apart S M]

/-- A journal of a replica that has nothing to do with the line has nothing to do with it either. -/
instance : Apart (Journal S) M where
  count c j := congrArg j.after (Apart.count c j.state)
  capacity c j := congrArg j.capacity.getD (Apart.capacity c j.state)
  module? index c j := congrArg j.after (Apart.module? index c j.state)
  modify index f c j := congrArg j.after (Apart.modify index f c j.state)
  countChanged count c j :=
    congrArg (j.note (.count count)).after (Apart.countChanged count c j.state)
  mustWrite index property c j := congrArg j.after (Apart.mustWrite index property c j.state)
  reported index fault state c j :=
    congrArg (j.note (.record index fault state)).after (Apart.reported index fault state c j.state)

/-- The notices of the records of the nodes from the given index on. -/
def noticesOf (records : List (Option Record)) (index : Nat) : List Notice :=
  (records.zipIdx index).map fun (record, i) =>
    .record i (record.map Record.fault) (record.map Record.state)

omit [Transport S] [OnChain S M] [Apart S M]

/-- Every record is noted down once, in the order of the chain. -/
theorem notices_takeRecords (records : List (Option Record)) (index : Nat) (j : Journal S) :
  (takeRecords records index j).2.notices = j.notices ++ noticesOf records index
  := by
  induction records generalizing index j with
  | nil => exact (List.append_nil _).symm
  | cons record rest ih =>
    rw [noticesOf, List.zipIdx_cons, List.map_cons, ← noticesOf, List.append_cons]
    apply ih (index + 1)

/-- At most the length of the chain is noted down with it. -/
theorem notices_noteCount (count : Nat) (j : Journal S) :
  ∃ counts : List Notice, (counts = [] ∨ counts = [.count count]) ∧
    (noteCount count j).2.notices = j.notices ++ counts
  := by
  unfold noteCount
  split
  · exact ⟨[.count count], .inr rfl, rfl⟩
  · exact ⟨[], .inl rfl, (List.append_nil _).symm⟩

end Journals

/-! ### Acknowledges and reads -/

section Acknowledges

/-- The categories of nodes are those of their records. -/
theorem faultsOf_eq (nodes : List (Engine × M)) :
  faultsOf nodes = categoriesOfAll (nodes.map fun n => n.1.record)
  := by
  have all (before : Categories) :
      (nodes.map fun n => n.1.record).foldl
        (fun categories record => categories ∪ categoriesOf (record.map Record.fault)) before =
        before ∪ faultsOf nodes := by
    induction nodes generalizing before with
    | nil => exact (Categories.union_empty before).symm
    | cons n rest ih =>
      rw [List.map_cons, List.foldl_cons, ih, Categories.union_assoc]
      rfl
  rw [categoriesOfAll, all, Categories.empty_union]

/-- Nodes without records have no categories. -/
theorem categoriesOfAll_of_unrecorded {nodes : List (Engine × M)}
    (unrecorded : ∀ n ∈ nodes, n.1.record = none) :
  categoriesOfAll (nodes.map fun n => n.1.record) = .empty
  := by
  rw [← faultsOf_eq, faultsOf_of_unrecorded unrecorded]

variable [Transport S] [OnChain S M] {σ : Session S}

/-- An acknowledge of nodes that listen collects the categories of their records. -/
theorem run_acknowledge_listeners (g : Gateway M) {table : Table M} {nodes : List (Engine × M)}
    (yields : σ.line.Yields table (listeners nodes) []) :
  ∃ c : Chain M, c.Yields table (listeners nodes) [] ∧
    (g.acknowledge : Act S Categories).run σ =
      (.ok (categoriesOfAll (nodes.map fun n => n.1.record)), σ.withLine c)
  := by
  have comes := flow_ack table nodes .empty
  rw [Categories.empty_union, faultsOf_eq] at comes
  obtain ⟨c, after, synced⟩ := run_sync_ack g yields (Nat.zero_le _) comes
  rw [SyncHeader.unpack_pack] at synced
  exact ⟨c, after, run_bind_ok synced⟩

/-- An acknowledge of an attentive chain collects the categories of all records, and changes no
node but its clock. -/
theorem run_acknowledge (g : Gateway M) (attentive : σ.line.Attentive) :
  ∃ c : Chain M, c.Attentive ∧ c.pairs = σ.line.pairs ∧
    (g.acknowledge : Act S Categories).run σ =
      (.ok (categoriesOfAll (σ.line.pairs.map fun n => n.1.record)), σ.withLine c)
  := by
  obtain ⟨c, after, run⟩ := run_acknowledge_listeners g attentive.yields
  exact ⟨c, after.attentive, after.pairs_eq attentive.listening_pairs, run⟩

/-- The header of a read of an attentive chain comes back with the number of the nodes, and without
the flag if none of them has a record. -/
theorem run_openRead_attentive (g : Gateway M) (attentive : σ.line.Attentive)
    (few : σ.line.pairs.length < countModulus) (unrecorded : ∀ n ∈ σ.line.pairs, n.1.record = none)
    {property : PropertyId} (travels : property.Travels) :
  ∃ (c : Chain M) (header : RawHeader),
    (g.openRead property : Act S RawHeader).run σ = (.ok header, σ.withLine c) ∧
    header.flag = false ∧ header.count = σ.line.pairs.length
  := by
  obtain ⟨c, -, opened⟩ := run_openRead_listeners g travels few attentive.yields
  refine ⟨c, _, opened, ?_, ?_⟩
  · rw [ActionHeader.flag_pack, List.any_eq_false]
    intro n member
    rw [unrecorded n member]
    exact Bool.false_ne_true
  · rw [ActionHeader.count_pack, Nat.mod_eq_of_lt few]

end Acknowledges

/-! ### Records of all nodes -/

/-- The nodes once they have forgotten their records. -/
def forgotten (nodes : List (Engine × M)) : List (Engine × M) :=
  nodes.map fun n => ({ n.1 with record := none }, n.2)

/-- A node that has forgotten its record has none. -/
theorem unrecorded_forgotten {nodes : List (Engine × M)} :
  ∀ n ∈ forgotten nodes, n.1.record = none
  := by
  intro n member
  obtain ⟨_, -, rfl⟩ := List.mem_map.mp member
  rfl

/-- Nodes without records have nothing to forget. -/
theorem forgotten_of_unrecorded {nodes : List (Engine × M)}
    (unrecorded : ∀ n ∈ nodes, n.1.record = none) :
  forgotten nodes = nodes
  := by
  refine (List.map_congr_left fun n member => ?_).trans (List.map_id _)
  rw [← unrecorded n member]
  rfl

variable [Transport S] [OnChain S M] [Replica S M] [Apart S M]

/-- The records of nodes that listen are collected, and forgotten by the nodes. -/
theorem run_nodeErrors_forgotten (g : Gateway M) {σ : Session S} {table : Table M}
    {nodes : List (Engine × M)} (few : nodes.length < countModulus)
    (yields : σ.line.Yields table (listeners nodes) []) :
  let records := nodes.map fun n => n.1.record
  ∃ c : Chain M, c.Yields table (listeners (forgotten nodes)) [] ∧
    (g.nodeErrors : Act S Categories).run σ =
      (.ok (categoriesOfAll records),
        ((σ.noted nodes.length).after (takeRecords records 0)).withLine c)
  := by
  have forget : nodes.map (answered table .errorQuery) = forgotten nodes :=
    List.map_congr_left fun n _ => answered_errorQuery table n
  rw [← forget]
  exact run_nodeErrors g few yields

/-- What nodes that listen have received is confirmed if none of them has a record; else their
records are collected.  Afterwards no node has a record. -/
theorem run_confirm_listeners (g : Gateway M) {σ : Session S} {table : Table M}
    {nodes : List (Engine × M)} (few : nodes.length < countModulus)
    (yields : σ.line.Yields table (listeners nodes) []) :
  let records := nodes.map fun n => n.1.record
  let categories := categoriesOfAll records
  ∃ (c : Chain M) (τ : Session S), c.Yields table (listeners (forgotten nodes)) [] ∧
    (τ = σ ∨ τ = (σ.noted nodes.length).after (takeRecords records 0)) ∧
    (g.confirm : Act S Unit).run σ =
      (if categories.isEmpty then .ok () else .error (.nodes categories), τ.withLine c)
  := by
  intro records categories
  obtain ⟨c, after, collected⟩ := run_acknowledge_listeners g yields
  rw [confirm, run_bind_ok collected]
  cases empty : (categoriesOfAll records).isEmpty with
  | true =>
    rw [isEmpty_categoriesOfAll, List.all_map, List.all_eq_true] at empty
    have unrecorded : ∀ n ∈ nodes, n.1.record = none :=
      fun n member => Option.isNone_iff_eq_none.mp (empty n member)
    rw [forgotten_of_unrecorded unrecorded]
    exact ⟨c, σ, after, .inl rfl, rfl⟩
  | false =>
    obtain ⟨c', silent, asked⟩ := run_nodeErrors_forgotten g few (σ := σ.withLine c)
      (by rw [Session.line_withLine]; exact after)
    rw [Session.noted_withLine, (aside_takeRecords _ 0).after_withLine,
      Session.withLine_withLine] at asked
    refine ⟨c', _, silent, .inr rfl, ?_⟩
    rw [if_neg Bool.false_ne_true]
    exact run_bind_ok asked

/-- The records of an attentive chain, whatever they are, travel to the gateway once.

An acknowledge brings back the categories of all records and changes no node.  When the nodes are
asked for their records, the answer is the same; the gateway passes the record of each of them on
once, in the order of the chain; and no node has a record any more, but is otherwise as before.

Then an acknowledge brings back no category, and changes no node; and before or after it, the header
of a read, whatever its property, comes back without the flag. -/
theorem records_pass_once (g : Gateway M) {σ : Session (Journal S)} (attentive : σ.line.Attentive)
    (few : σ.line.nodes.length < countModulus) :
  let records := σ.line.pairs.map fun n => n.1.record
  let asked := (g.nodeErrors : Act (Journal S) Categories).run σ
  let τ := asked.2
  (∃ c : Chain M, c.Attentive ∧ c.pairs = σ.line.pairs ∧
    (g.acknowledge : Act (Journal S) Categories).run σ =
      (.ok (categoriesOfAll records), σ.withLine c)) ∧
  asked.1 = .ok (categoriesOfAll records) ∧
  τ.line.Attentive ∧ τ.line.pairs = forgotten σ.line.pairs ∧
  (∃ counts : List Notice, (counts = [] ∨ counts = [.count records.length]) ∧
    τ.env.notices = σ.env.notices ++ counts ++ noticesOf records 0) ∧
  ∃ c : Chain M, c.Attentive ∧ c.pairs = τ.line.pairs ∧
    (g.acknowledge : Act (Journal S) Categories).run τ = (.ok .empty, τ.withLine c) ∧
    ∀ later ∈ [τ, τ.withLine c], ∀ property : PropertyId, property.Travels →
      ∃ (c' : Chain M) (header : RawHeader),
        (g.openRead property : Act (Journal S) RawHeader).run later =
          (.ok header, later.withLine c') ∧
        header.flag = false ∧ header.count = records.length
  := by
  intro records asked τ
  have length : records.length = σ.line.pairs.length := List.length_map _
  have few' : σ.line.pairs.length < countModulus := by
    rw [Chain.pairs, List.length_map]
    exact few
  obtain ⟨c, after, collected⟩ := run_nodeErrors_forgotten g few' attentive.yields
  have line : τ.line = c := by
    rw [show τ = _ from congrArg Prod.snd collected, Session.line_withLine]
  have pairs : τ.line.pairs = forgotten σ.line.pairs := by
    rw [line]
    apply after.pairs_eq
    intro n member
    obtain ⟨n', among, rfl⟩ := List.mem_map.mp member
    have listening := attentive.listening_pairs n' among
    rw [Engine.enter] at listening ⊢
    rw [← listening]
  have attentive' : τ.line.Attentive := by rw [line]; exact after.attentive
  have unrecorded : ∀ n ∈ τ.line.pairs, n.1.record = none := by
    rw [pairs]
    exact unrecorded_forgotten
  have count : τ.line.pairs.length = records.length := by
    rw [pairs, forgotten, List.length_map, length]
  obtain ⟨c', still, kept, again⟩ := run_acknowledge g attentive'
  rw [categoriesOfAll_of_unrecorded unrecorded] at again
  refine ⟨run_acknowledge g attentive, congrArg Prod.fst collected, attentive', pairs, ?_,
    c', still, kept, again, ?_⟩
  · obtain ⟨counts, counted, noted⟩ := notices_noteCount σ.line.pairs.length σ.env
    refine ⟨counts, by rw [length]; exact counted, ?_⟩
    rw [show τ = _ from congrArg Prod.snd collected]
    change (takeRecords records 0 (noteCount σ.line.pairs.length σ.env).2).2.notices = _
    rw [notices_takeRecords, noted]
  · intro later among property travels
    rw [← count]
    rcases List.mem_pair.mp among with rfl | rfl
    · exact run_openRead_attentive g attentive' (by rw [count, length]; exact few') unrecorded
        travels
    · have opened := run_openRead_attentive g (σ := τ.withLine c')
        (by rw [Session.line_withLine]; exact still)
        (by rw [Session.line_withLine, kept, count, length]; exact few')
        (by rw [Session.line_withLine, kept]; exact unrecorded) travels
      rwa [Session.line_withLine, kept] at opened

/-- A chain of three nodes, the first one without a record. -/
def troubledChain : Chain SplitFlap.Module where
  table := SplitFlap.table
  nodes := [{ module := {} },
    { module := {}, engine := { record := some ⟨.timeout, .relaying⟩ } },
    { module := {}, engine := { record := some ⟨.setFailed, .committing⟩ } }]

/-- Three records are passed on, among them one that is missing, and what comes back afterwards is
clear. -/
theorem records_pass_once_three :
  let g : Gateway SplitFlap.Module := { table := SplitFlap.table }
  let σ : Session (Journal (Site (Chain SplitFlap.Module) SplitFlap.Module 2)) :=
    { env := { state := { line := troubledChain } } }
  let asked := (g.nodeErrors : Act _ Categories).run σ
  let categories := { Categories.empty with transmission := true, handler := true }
  σ.line.Attentive ∧ σ.line.nodes.length < countModulus ∧
  asked.1 = .ok categories ∧ asked.2.line.pairs.map (fun n => n.1.record) = [none, none, none] ∧
  (∃ counts : List Notice, (counts = [] ∨ counts = [.count 3]) ∧
    asked.2.env.notices = counts ++ [.record 0 none none,
      .record 1 (some .timeout) (some .relaying), .record 2 (some .setFailed) (some .committing)]) ∧
  ∃ c : Chain SplitFlap.Module,
    (g.acknowledge : Act _ Categories).run asked.2 = (.ok .empty, asked.2.withLine c)
  := by
  intro g σ
  dsimp only
  have attentive : σ.line.Attentive := by
    have sound : Link.Sound {} := ⟨rfl, by decide⟩
    change troubledChain.Attentive
    constructor <;> simp [troubledChain, Chain.links, sound]
  have few : σ.line.nodes.length < countModulus := by decide
  obtain ⟨-, found, -, pairs, notices, c, -, -, again, -⟩ := records_pass_once g attentive few
  refine ⟨attentive, few, found, ?_, notices, c, again⟩
  rw [pairs]
  rfl

end DaisyChain.Gateway
