import DaisyChain.Proofs.Gateway.Collecting
import DaisyChain.Proofs.Node.Slots

/-!
# Writes of an idle chain

Which nodes of an idle chain a write reaches, and with what.  A write to each node gives those
nodes the value of their module whose modules wait to be written, and touches no other; a
broadcast gives every node the value of the first module.  A value that is held back takes a place
among the values that the node holds back, and its module is not touched (`writeAll_reaches`).
-/

namespace DaisyChain

open Node

variable {M : Type}

/-! ### Receiving -/

section Receiving

variable {table : Table M} {d : Definition M} {property : PropertyId} {staged : Bool}

/-- The node after it has received a value, or none. -/
def received (d : Definition M) (staged : Bool) (n : Engine × M) :
    Option (List UInt8) → Engine × M
  | none => n
  | some data =>
    if staged then (n.1.stage ⟨d.id, data⟩, n.2) else (n.1, (d.deserialize data n.2).2)

/-- The node can receive the value: it has room for a value that is held back, and its module takes
one that is not. -/
def Receivable (d : Definition M) (staged : Bool) (n : Engine × M) (value : Option (List UInt8)) :
    Prop :=
  ∀ data, value = some data →
    if staged then n.1.HasRoom d.id else (d.deserialize data n.2).1 = .ok ()

/-- Nodes can receive what a write means for them if each can receive the value of the module that
is meant for it. -/
theorem forall₂_receivable {nodes : List (Engine × M)} {means : Nat → Option M}
    (ready : ∀ (i : Nat) (within : i < nodes.length) (m : M), means i = some m →
      if staged then nodes[i].1.HasRoom d.id
      else (d.deserialize (d.value m) nodes[i].2).1 = .ok ()) :
  List.Forall₂ (Receivable d staged) nodes
    ((List.range nodes.length).map fun i => (means i).map d.value)
  := by
  rw [List.forall₂_iff_get]
  refine ⟨by simp only [List.length_map, List.length_range], ?_⟩
  intro i within within' data is
  rw [List.get_eq_getElem, List.getElem_map, List.getElem_range] at is
  obtain ⟨m, meant, rfl⟩ := Option.map_eq_some_iff.mp is
  apply ready i within m meant

/-- Receiving a value changes nothing of an engine but what it holds back. -/
theorem exists_engine_received {n : Engine × M} {value : Option (List UInt8)}
    (receivable : Receivable d staged n value) :
  ∃ slots, (received d staged n value).1 = { n.1 with staged := slots }
  := by
  cases value with
  | none => exact ⟨_, rfl⟩
  | some data =>
    cases staged with
    | false => exact ⟨_, rfl⟩
    | true => exact ⟨_, Engine.stage_eq ⟨d.id, data⟩ (receivable data rfl)⟩

/-- A node that can receive what a write means for it listens afterwards. -/
theorem receive_eq_listener (found : table.find? property = some d)
    (writable : d.access.writable = true) (action : Action) {n : Engine × M}
    {value : Option (List UInt8)} (receivable : Receivable d staged n value) :
  Body.receive table n.1 n.2 ⟨action, staged, property⟩ value =
    Body.listener (received d staged n value).1 (received d staged n value).2
  := by
  have id := Table.id_of_find? found
  subst id
  cases value with
  | none => rfl
  | some data =>
    cases staged with
    | false =>
      have accepted : (d.deserialize data n.2).1 = .ok () := receivable data rfl
      have applied : applySlot table ⟨d.id, data⟩ n.2 = (.ok (), (d.deserialize data n.2).2) := by
        rw [applySlot, found]
        simp only [writable, if_true, accepted]
        rfl
      simp only [Body.receive, applied, Bool.false_eq_true, if_false, received]
    | true =>
      have room : n.1.HasRoom d.id := receivable data rfl
      simp only [Body.receive, if_true, received]
      rw [Engine.stage_eq ⟨d.id, data⟩ room, Engine.stage_eq ⟨d.id, data⟩
        (e := n.1.enter (.counting ⟨action, true, d.id⟩ 0 data) 0) room]
      rfl

/-- Nodes that can receive what a write means for them listen afterwards. -/
theorem written_eq_listeners (found : table.find? property = some d)
    (writable : d.access.writable = true) (action : Action) {nodes : List (Engine × M)}
    {values : List (Option (List UInt8))}
    (receivable : List.Forall₂ (Receivable d staged) nodes values) :
  Gateway.written table ⟨action, staged, property⟩ nodes values =
    listeners (List.zipWith (received d staged) nodes values)
  := by
  induction receivable with
  | nil => rfl
  | cons first _ ih =>
    rw [Gateway.written] at ih ⊢
    rw [List.zipWith_cons_cons, ih, List.zipWith_cons_cons, listeners_cons,
      receive_eq_listener found writable action first]

/-- Nodes that have received what a write means for them have no records, if they had none, and
listen. -/
theorem unrecorded_received {nodes : List (Engine × M)} {values : List (Option (List UInt8))}
    (receivable : List.Forall₂ (Receivable d staged) nodes values)
    (unrecorded : ∀ n ∈ nodes, n.1.record = none)
    (listening : ∀ n ∈ nodes, n.1.enter (.listening .nothing) 0 = n.1) :
  ∀ n ∈ List.zipWith (received d staged) nodes values,
    n.1.record = none ∧ n.1.enter (.listening .nothing) 0 = n.1
  := by
  induction receivable with
  | nil => simp
  | @cons n value nodes values first _ ih =>
    intro n' member
    rw [List.zipWith_cons_cons] at member
    rcases List.mem_cons.mp member with rfl | among
    · obtain ⟨slots, same⟩ := exists_engine_received first
      rw [same]
      refine ⟨unrecorded n List.mem_cons_self, ?_⟩
      have before := listening n List.mem_cons_self
      rw [← before]
      rfl
    · apply ih (fun n member => unrecorded n (List.mem_cons_of_mem _ member))
        (fun n member => listening n (List.mem_cons_of_mem _ member)) n' among

end Receiving

namespace Gateway

/-! ### Writes that are received -/

section Writes

variable {S : Type} [Transport S] [OnChain S M] [Replica S M] [Apart S M]
variable {σ σ' : Session S} {table : Table M} {property : PropertyId} {d : Definition M}

/-- A write that every node can receive leaves every node what it means for it, and is then to be
confirmed. -/
theorem run_writeAll_sent (g : Gateway M) {recipients : Recipients} {staged : Bool}
    {nodes : List (Engine × M)} {values : List (Option (List UInt8))}
    (travels : property.Travels) (shared : g.table = table)
    (found : table.find? property = some d)
    (writable : d.access.writable = true) (gettable : d.get.isSome)
    (some : nodes ≠ []) (few : nodes.length < countModulus)
    (receivable : List.Forall₂ (Receivable d staged) nodes values)
    (delivers : Delivers d property nodes.length σ values σ' recipients) {out : List UInt8}
    (yields : σ.line.Yields table (listeners nodes) out) (short : out.length ≤ frameMax) :
  ∃ c : Chain M, c.Yields table (listeners (List.zipWith (received d staged) nodes values)) [] ∧
    (g.writeAll property recipients staged : Act S Unit).run σ =
      (g.confirm : Act S Unit).run ((σ'.told nodes.length recipients).withLine c)
  := by
  rw [writeAll_eq g (shared ▸ found) writable gettable]
  cases recipients with
  | all =>
    obtain ⟨value, bytes, chosen, fits, rfl⟩ := delivers
    obtain ⟨c, after, sent⟩ := run_broadcast g travels staged chosen fits few yields short
    have reaches : nodes.map (reached table ⟨.broadcast, staged, property⟩ (Option.some value)) =
        listeners (List.zipWith (received d staged) nodes
          (List.replicate nodes.length (Option.some value))) := by
      rw [← written_eq_listeners found writable .broadcast receivable, written, ← List.map_const',
        List.zipWith_map_right, List.zipWith_self]
      rfl
    rw [reaches] at after
    exact ⟨c, after, sent⟩
  | each number =>
    obtain ⟨rfl, batch, chosen, closed⟩ := delivers
    have length := length_chooseAll d property nodes.length chosen
    obtain ⟨c, after, sent⟩ := run_writeEach g travels staged chosen closed some length.symm few
      yields short
    rw [List.reverse_reverse, written_eq_listeners found writable .write receivable] at after
    exact ⟨c, after, sent⟩

/-- A write that every node can receive succeeds, and every node has received what it means. -/
theorem run_writeAll_received (g : Gateway M) {recipients : Recipients} {staged : Bool}
    {nodes : List (Engine × M)} {values : List (Option (List UInt8))}
    (travels : property.Travels) (shared : g.table = table)
    (found : table.find? property = some d)
    (writable : d.access.writable = true) (gettable : d.get.isSome)
    (some : nodes ≠ []) (few : nodes.length < countModulus)
    (unrecorded : ∀ n ∈ nodes, n.1.record = none)
    (listening : ∀ n ∈ nodes, n.1.enter (.listening .nothing) 0 = n.1)
    (receivable : List.Forall₂ (Receivable d staged) nodes values)
    (delivers : Delivers d property nodes.length σ values σ' recipients)
    (yields : σ.line.Yields table (listeners nodes) []) :
  ∃ c : Chain M, c.Idle ∧ c.pairs = List.zipWith (received d staged) nodes values ∧
    (g.writeAll property recipients staged : Act S Unit).run σ =
      (.ok (), (σ'.told nodes.length recipients).withLine c)
  := by
  have fine := unrecorded_received receivable unrecorded listening
  obtain ⟨c, after, sent⟩ := run_writeAll_sent g travels shared found writable gettable some few
    receivable delivers yields (Nat.zero_le _)
  -- An acknowledge confirms the write.
  obtain ⟨c', silent, confirmed⟩ := run_confirm_clean g
    (σ := (σ'.told nodes.length recipients).withLine c) (by rw [Session.line_withLine]; exact after)
    (Nat.zero_le _) (flow_ack_accepted _ fun n member => (fine n member).1)
  rw [Session.withLine_withLine] at confirmed
  exact ⟨c', silent.idle fun n member => (fine n member).1,
    silent.pairs_eq fun n member => (fine n member).2, sent.trans confirmed⟩

end Writes

/-! ### Writes of a site -/

section Sites

variable {L : Type} {N : Nat} [Inhabited M] {d : Definition M} {property : PropertyId}

omit [Inhabited M] in
/-- The module whose value a write to the given recipients means for the node of the given index,
if it means any. -/
def Collection.meant (c : Collection M N) (property : PropertyId) : Recipients → Nat → Option M
  | .all, _ => c.module? 0
  | .each _, index => if c.mustWrite index property then c.module? index else none

omit [Inhabited M] in
/-- A module that waits to be written is there. -/
theorem Collection.exists_module_of_mustWrite {c : Collection M N} {index : Nat}
    (mark : c.mustWrite index property = true) :
  ∃ m, c.module? index = some m
  := by
  rw [mustWrite] at mark
  cases entry : c.entries[index]? with
  | none =>
    rw [entry] at mark
    contradiction
  | some e => exact ⟨e.module, congrArg (Option.map Entry.module) entry⟩

/-- The value of a module of a site. -/
theorem run_valueAt_of_module {σ : Session (Site L M N)} {index : Nat} {m : M}
    {data : List UInt8} (here : σ.env.display.collection.module? index = some m)
    (value : d.serialize m = .ok data) :
  (valueAt d index : Act _ _).run σ = (.ok data, σ)
  := by
  have module : (Replica.module? index : StateM (Site L M N) _) σ.env = (some m, σ.env) := by
    change (σ.env.display.collection.module? index, σ.env) = _
    rw [here]
  rw [valueAt, run_bind_ok (run_within _)]
  simp only [Session.after, module, value]
  rfl

/-- What a write means for a node of a site. -/
theorem run_choose_of_meant {σ : Session (Site L M N)} {index count : Nat}
    (values : ∀ m, σ.env.display.collection.meant property (.each count) index = some m →
      d.serialize m = .ok (d.value m)) :
  (choose d property index : Act _ _).run σ =
    (.ok ((σ.env.display.collection.meant property (.each count) index).map d.value), σ)
  := by
  have marked : (Replica.mustWrite (M := M) index property : StateM (Site L M N) _) σ.env =
      (σ.env.display.collection.mustWrite index property, σ.env) := rfl
  rw [choose, run_bind_ok (run_within _)]
  simp only [Session.after, marked]
  rw [Collection.meant] at values ⊢
  cases mark : σ.env.display.collection.mustWrite index property with
  | false => rfl
  | true =>
    rw [mark, if_pos rfl] at values
    obtain ⟨m, here⟩ := Collection.exists_module_of_mustWrite mark
    change (valueAt d index >>= fun value => pure (some value) : Act _ _).run σ = _
    rw [run_bind_ok (run_valueAt_of_module here (values m here)), if_pos rfl, here]
    rfl

/-- What a write means for the first nodes of a site. -/
theorem run_chooseAll_of_meant {σ : Session (Site L M N)} {number count : Nat}
    (values : ∀ i < count, ∀ m, σ.env.display.collection.meant property (.each number) i = some m →
      d.serialize m = .ok (d.value m)) :
  (chooseAll d property count : Act _ _).run σ =
    (.ok ((List.range count).map fun i =>
      (σ.env.display.collection.meant property (.each number) i).map d.value).reverse, σ)
  := by
  induction count with
  | zero => rfl
  | succ index ih =>
    rw [chooseAll, run_bind_ok (run_choose_of_meant (values index (Nat.lt_succ_self _))),
      run_bind_ok (ih fun i below => values i (Nat.lt_succ_of_lt below)), List.range_succ,
      List.map_append, List.reverse_append]
    rfl

omit [Inhabited M] in
/-- The value of a module fits a frame. -/
theorem exists_encode_value {m : M} (laid : d.serialize m = .ok (d.value m)) :
  ∃ bytes, Frame.encode (d.value m) = .ok bytes
  := by
  obtain ⟨bytes, wrapped⟩ := Definition.exists_wrap laid
  exact ⟨_, if_neg (Nat.not_lt_of_le (PropertySize.length_wrap wrapped))⟩

omit [Inhabited M] in
/-- What a write means for a node can be sent if it is the value of a module. -/
theorem exists_sealed_of_meant (small : placeholderLength d.size ≤ valueMax) {means : Option M}
    (values : ∀ m, means = some m → d.serialize m = .ok (d.value m)) :
  ∃ bytes, sealed d (means.map d.value) = .ok bytes
  := by
  cases means with
  | none => exact ⟨_, if_neg (Nat.not_lt_of_le small)⟩
  | some m => apply exists_encode_value (values m rfl)

omit [Inhabited M] in
/-- What a write means for nodes can be sent if it consists of values of modules. -/
theorem exists_sealedAll_of_meant (small : placeholderLength d.size ≤ valueMax) (indices : List Nat)
    (means : Nat → Option M)
    (values : ∀ i ∈ indices, ∀ m, means i = some m → d.serialize m = .ok (d.value m)) :
  ∃ batch, SealedAll d (indices.map fun i => (means i).map d.value) batch
  := by
  induction indices with
  | nil => exact ⟨[], .nil⟩
  | cons i rest ih =>
    obtain ⟨batch, others⟩ := ih fun j member => values j (List.mem_cons_of_mem _ member)
    obtain ⟨bytes, first⟩ := exists_sealed_of_meant small (values i List.mem_cons_self)
    exact ⟨bytes :: batch, .cons first others⟩

/-- A write to recipients of a site delivers the values that it means for them. -/
theorem delivers_of_meant {σ : Session (Site L M N)} {recipients : Recipients} {count : Nat}
    (small : placeholderLength d.size ≤ valueMax) (present : 0 < count)
    (addressed : recipients = .each count ∨
      recipients = .all ∧ σ.env.display.collection.size ≠ 0)
    (values : ∀ i < count, ∀ m,
      σ.env.display.collection.meant property recipients i = some m →
        d.serialize m = .ok (d.value m)) :
  Delivers d property count σ ((List.range count).map fun i =>
    (σ.env.display.collection.meant property recipients i).map d.value) σ recipients
  := by
  rcases addressed with rfl | ⟨rfl, filled⟩
  · obtain ⟨batch, closed⟩ := exists_sealedAll_of_meant (d := d) small
      (List.range count).reverse (σ.env.display.collection.meant property (.each count))
      fun i member => values i (List.mem_range.mp (List.mem_reverse.mp member))
    rw [List.map_reverse] at closed
    exact ⟨rfl, batch, run_chooseAll_of_meant values, closed⟩
  · obtain ⟨e, entry⟩ : ∃ e, σ.env.display.collection.entries[0]? = some e :=
      ⟨_, List.getElem?_eq_getElem (Nat.pos_of_ne_zero filled)⟩
    have first : σ.env.display.collection.module? 0 = some e.module :=
      congrArg (Option.map Entry.module) entry
    have laid := values 0 present e.module first
    obtain ⟨bytes, fits⟩ := exists_encode_value laid
    refine ⟨d.value e.module, bytes, run_valueAt_of_module first laid, fits, ?_⟩
    simp only [Collection.meant, first, Option.map_some, List.map_const', List.length_range]

/-- The node has received the value of the given module, or nothing if there is none.  A value that
is not held back has been given to the module of the node; one that is has been put among the
values that the node holds back. -/
def Received (d : Definition M) (staged : Bool) (n n' : Engine × M) : Option M → Prop
  | none => n' = n
  | some m => ∃ data, d.serialize m = .ok data ∧
    if staged then
      n'.2 = n.2 ∧ Holding ⟨d.id, data⟩ n.1.staged n'.1.staged
    else
      n' = (n.1, (d.deserialize data n.2).2)

omit [Inhabited M] in
/-- A node that can receive the value of a module has received it. -/
theorem received_of_receivable {staged : Bool} {n : Engine × M} {meant : Option M}
    (value : ∀ m, meant = some m → d.serialize m = .ok (d.value m))
    (receivable : Receivable d staged n (meant.map d.value)) :
  Received d staged n (received d staged n (meant.map d.value)) meant
  := by
  cases meant with
  | none => rfl
  | some m =>
    refine ⟨d.value m, value m rfl, ?_⟩
    cases staged with
    | false => rfl
    | true =>
      refine ⟨rfl, ?_⟩
      have room : n.1.HasRoom d.id := receivable (d.value m) rfl
      have held : (received d true n (some (d.value m))).1 =
          { n.1 with staged := hold ⟨d.id, d.value m⟩ n.1.staged } :=
        Engine.stage_eq ⟨d.id, d.value m⟩ room
      rw [Option.map_some, held]
      apply holding_hold

/-- A write to an idle chain succeeds if every node can receive what the write means for it.  It
reaches the nodes that it is meant for and no other: in a write to each node those whose modules
wait to be written, each with the value of its module, and in a broadcast all of them with the
value of the first module.  After a broadcast the collection counts a module for every node, up to its
capacity. -/
theorem writeAll_reaches {σ : Session (Site (Chain M) M N)} (g : Gateway M)
    {recipients : Recipients} {staged : Bool} (shared : g.table = σ.line.table)
    (real : property.number.toNat ≤ PropertyId.max)
    (found : σ.line.table.find? property = some d) (writable : d.access.writable = true)
    (gettable : d.get.isSome) (small : placeholderLength d.size ≤ valueMax)
    (idle : σ.line.Idle) (nonempty : σ.line.nodes ≠ []) (few : σ.line.nodes.length < countModulus)
    (addressed : recipients = .each σ.line.nodes.length ∨
      recipients = .all ∧ σ.collection.size ≠ 0)
    (sendable : ∀ i < σ.line.nodes.length, ∀ m,
      σ.collection.meant property recipients i = some m → ∃ data, d.serialize m = .ok data)
    (receivable : ∀ i node m data, σ.line.nodes[i]? = some node →
      σ.collection.meant property recipients i = some m → d.serialize m = .ok data →
      if staged then node.engine.HasRoom property
      else (d.deserialize data node.module).1 = .ok ()) :
  let result := (g.writeAll property recipients staged : Act _ Unit).run σ
  result.1 = .ok () ∧ result.2.line.Idle ∧
    result.2.line.nodes.length = σ.line.nodes.length ∧
    (∀ i node node', σ.line.nodes[i]? = some node → result.2.line.nodes[i]? = some node' →
      Received d staged node.pair node'.pair (σ.collection.meant property recipients i)) ∧
    (recipients = .all → result.2.chainLength = σ.line.nodes.length ∧
      σ.collection.Noted σ.line.nodes.length result.2.collection) ∧
    (recipients ≠ .all → result.2.env.display = σ.env.display)
  := by
  intro result
  let nodes := σ.line.nodes.map ChainNode.pair
  let means := σ.collection.meant property recipients
  let values := (List.range nodes.length).map fun i => (means i).map d.value
  have id := Table.id_of_find? found
  have count : nodes.length = σ.line.nodes.length := List.length_map _
  have value {i : Nat} (below : i < σ.line.nodes.length) {m : M} (meant : means i = some m) :
      d.serialize m = .ok (d.value m) := by
    obtain ⟨data, laid⟩ := sendable i below m meant
    rw [Definition.value, laid]
  -- Every node can receive what the write means for it.
  have ready : List.Forall₂ (Receivable d staged) nodes values := by
    refine forall₂_receivable fun i within m meant => ?_
    rw [List.getElem_map, id]
    rw [count] at within
    apply receivable i _ m _ (List.getElem?_eq_getElem within) meant (value within meant)
  have delivers : Delivers d property nodes.length σ values σ recipients := by
    have present : 0 < nodes.length := by
      rw [count]
      apply List.length_pos_iff.mpr nonempty
    apply delivers_of_meant small present (by rw [count]; exact addressed)
    intro i below m meant
    rw [count] at below
    apply value below meant
  obtain ⟨c, idle', pairs, run⟩ := run_writeAll_received g (PropertyId.travels_of_le real) shared
    found writable gettable (fun none => nonempty (List.map_eq_nil_iff.mp none))
    (by rw [count]; exact few) idle.unrecorded_pairs idle.listening_pairs ready delivers idle.yields
  rw [show result = _ from run, count]
  have counted : c.nodes.length = σ.line.nodes.length := by
    have sizes := congrArg List.length pairs
    simp only [Chain.pairs, List.length_zipWith, List.length_map, values, nodes, List.length_range,
      Nat.min_self] at sizes
    apply sizes
  refine ⟨rfl, ?_, ?_, ?_, ?_, ?_⟩
  · rw [Session.line_withLine]
    apply idle'
  · rw [Session.line_withLine]
    apply counted
  · intro i node node' here there
    rw [Session.line_withLine] at there
    have within := (List.getElem?_eq_some_iff.mp here).1
    have same := congrArg (fun l : List (Engine × M) => l[i]?) pairs
    have index : (List.range nodes.length)[i]? = some i := by
      rw [count]
      apply List.getElem?_range within
    simp only [Chain.pairs, List.getElem?_zipWith, nodes, List.getElem?_map, here, there, values,
      Option.map_some] at same
    rw [index] at same
    have node'_eq : node'.pair = received d staged node.pair ((means i).map d.value) :=
      Option.some.inj same
    rw [node'_eq]
    apply received_of_receivable fun m => value within
    intro data is
    obtain ⟨m, meant, rfl⟩ := Option.map_eq_some_iff.mp is
    rw [id]
    apply receivable i node m _ here meant (value within meant)
  · rintro rfl
    exact ⟨rfl, σ.noted_collection (le_modulesMax few)⟩
  · intro single
    cases recipients with
    | all => contradiction
    | each number => rfl

/-- Three nodes, the first of which holds a value back, and a display of two modules, the second of
which waits to be written. -/
def shyWriting : Session (Site (Chain UInt8) UInt8 4) where
  env := {
    line := {
      table := ⟨[shy]⟩
      nodes := [{ engine := { staged := [⟨⟨6⟩, [1]⟩] }, module := 3 }, { module := 0 },
        { module := 5 }] }
    display := {
      collection := {
        entries := [{ module := 9 }, { module := 7, marks := PropertySet.empty.insert ⟨6⟩ }] } } }

/-- The chain of this session is idle. -/
theorem idle_shyWriting :
  shyWriting.line.Idle
  := by
  have node {n : ChainNode UInt8} (member : n ∈ shyWriting.line.nodes) :
      n.out = {} ∧ n.stalled = false ∧ n.engine.phase = .listening .nothing ∧
        n.engine.record = none := by
    simp only [shyWriting, Session.line, OnChain.line, List.mem_cons, List.not_mem_nil,
      or_false] at member
    rcases member with rfl | rfl | rfl <;> exact ⟨rfl, rfl, rfl, rfl⟩
  refine ⟨?_, fun n member => (node member).2.1, fun n member => (node member).2.2.1,
    fun n member => (node member).2.2.2⟩
  intro l member
  have fresh : l = {} := by
    rcases List.mem_cons.mp member with rfl | among
    · rfl
    · obtain ⟨n, within, rfl⟩ := List.mem_map.mp among
      apply (node within).1
  subst fresh
  exact ⟨⟨rfl, by decide⟩, rfl⟩

/-- Of these nodes, a write that is held back reaches the second one, which holds the value of its
module back afterwards. -/
theorem writeAll_reaches_shy :
  let result := ((⟨⟨[shy]⟩, {}⟩ : Gateway UInt8).writeAll ⟨6⟩ (.each 3) true :
    Act _ Unit).run shyWriting
  result.1 = .ok () ∧ result.2.line.Idle ∧ result.2.line.nodes.length = 3 ∧
    ∀ i node node', shyWriting.line.nodes[i]? = some node →
      result.2.line.nodes[i]? = some node' →
      Received shy true node.pair node'.pair (if i = 1 then some 7 else none)
  := by
  have meant : ∀ i, shyWriting.collection.meant ⟨6⟩ (.each 3) i = if i = 1 then some 7 else none
    | 0 => rfl
    | 1 => rfl
    | _ + 2 => rfl
  have real : (⟨6⟩ : PropertyId).number.toNat ≤ PropertyId.max := by decide
  have small : placeholderLength shy.size ≤ valueMax := by decide
  have sendable : ∀ i < 3, ∀ m, shyWriting.collection.meant ⟨6⟩ (.each 3) i = some m →
      ∃ data, shy.serialize m = .ok data := by
    intro i _ m is
    rw [meant] at is
    split at is
    · cases is
      exact ⟨[7], rfl⟩
    · contradiction
  have receivable : ∀ i node m data, shyWriting.line.nodes[i]? = some node →
      shyWriting.collection.meant ⟨6⟩ (.each 3) i = some m → shy.serialize m = .ok data →
      if true then node.engine.HasRoom ⟨6⟩
      else (shy.deserialize data node.module).1 = .ok () := by
    intro i node m data here is laid
    right
    have among := List.mem_of_getElem? here
    simp only [shyWriting, Session.line, OnChain.line, List.mem_cons, List.not_mem_nil,
      or_false] at among
    rcases among with rfl | rfl | rfl <;> decide
  obtain ⟨ok, idle, length, reached, -, -⟩ := writeAll_reaches (⟨⟨[shy]⟩, {}⟩ : Gateway UInt8)
    rfl real rfl rfl rfl small idle_shyWriting (by decide) (by decide) (Or.inl rfl) sendable
    receivable
  refine ⟨ok, idle, length, ?_⟩
  intro i node node' here there
  rw [← meant]
  apply reached i node node' here there

/-- A broadcast to an idle chain adds no module and takes none away if one is counted for every node
before, up to the capacity. -/
theorem size_broadcast_of_counted {σ : Session (Site (Chain M) M N)} (g : Gateway M)
    (real : property.number.toNat ≤ PropertyId.max) (found : g.table.find? property = some d)
    (writable : d.access.writable = true) (gettable : d.get.isSome) (idle : σ.line.Idle)
    (nonempty : σ.line.nodes ≠ []) (few : σ.line.nodes.length < countModulus)
    {values : List (Option (List UInt8))}
    (delivers : Delivers d property σ.line.nodes.length σ values σ .all)
    (counted : σ.collection.counted = min σ.line.nodes.length N) :
  ((g.writeAll property .all false : Act _ Unit).run σ).2.collection.size = σ.collection.size
  := by
  obtain ⟨c, -, run⟩ := run_writeAll_idle g real found writable gettable idle nonempty few delivers
  have same : (noteCount σ.line.nodes.length σ.env).2 = σ.env :=
    noteCount_site_same σ.env (le_modulesMax few) counted
  rw [run, Session.told, Session.noted, same]
  rfl

/-- A display that has more modules than can be counted, and counts as many as there are nodes, keeps
all of them in a broadcast. -/
theorem writeAll_leaves_crowd :
  let result := ((⟨⟨[shy]⟩, {}⟩ : Gateway UInt8).writeAll ⟨6⟩ .all false : Act _ Unit).run crowd
  crowd.line.Idle ∧ min crowd.line.nodes.length 70000 = 3 ∧ result.2.collection.size = 65539
  := by
  have first : crowd.collection.module? 0 = some 9 := by
    rw [Collection.module?, crowd, Session.collection, List.getElem?_replicate]
    rfl
  have value (i : Nat) (_ : i < 3) (m : UInt8) (meant : crowd.collection.meant ⟨6⟩ .all i = some m) :
      shy.serialize m = .ok (shy.value m) := by
    cases first.symm.trans meant
    rfl
  have filled : crowd.collection.size ≠ 0 := by
    rw [size_crowd]
    decide
  have delivers : Delivers shy ⟨6⟩ 3 crowd _ crowd .all :=
    delivers_of_meant (by decide) (by decide) (.inr ⟨rfl, filled⟩) value
  have left := size_broadcast_of_counted (σ := crowd) ⟨⟨[shy]⟩, {}⟩
    (show (⟨6⟩ : PropertyId).number.toNat ≤ PropertyId.max by decide) rfl rfl rfl idle_crowd
    (by decide) (by decide) delivers counted_crowd
  exact ⟨idle_crowd, rfl, left.trans size_crowd⟩

end Sites

end Gateway

end DaisyChain
