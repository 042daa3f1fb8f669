import DaisyChain.Gateway.Transaction
import DaisyChain.Proofs.Chain.Exchange
import DaisyChain.Proofs.Gateway.Line
import Mathlib.Data.List.Forall2

/-!
# Writes to a chain

What a write takes from the replica, told apart from the bytes that travel: `valueAt` is the
value of one module, and `choose` and `chooseAll` what a write means for one node and for all
of them.  `run_writeEach` and `run_broadcast` say that a write to a chain whose nodes all
listen leaves every node its value, and then depends on what an acknowledge brings back.
-/

namespace DaisyChain.Gateway

variable {S M : Type}

/-! ### What the replica gives -/

section Replicas

variable [Replica S M]

/-- A write of a property that travels to the nodes. -/
theorem writeAll_eq [Transport S] (g : Gateway M) {property : PropertyId} {d : Definition M}
    (found : g.table.find? property = some d) (writable : d.access.writable = true)
    (gettable : d.get.isSome) (recipients : Recipients) (staged : Bool) :
  (g.writeAll property recipients staged : Act S Unit) =
    match recipients with
    | .each count => g.writeEach d property count staged
    | .all => g.broadcast d property staged
  := by
  have possible : ¬(d.access.writable = false ∨ d.get.isNone) := by
    rw [writable, Option.isNone_iff_eq_none]
    rintro (h | h)
    · contradiction
    · rw [h] at gettable
      contradiction
  rw [writeAll, found]
  exact if_neg possible

/-- The value of the module of the given index, laid out for a frame. -/
def valueAt (d : Definition M) (index : Nat) : Act S (List UInt8) := do
  match ← within (Replica.module? index) with
  | none => throw .invalidArgument
  | some m => check .ofProperty (d.serialize m)

/-- What a write means for the node of the given index: a value, or none. -/
def choose (d : Definition M) (property : PropertyId) (index : Nat) :
    Act S (Option (List UInt8)) := do
  if ← within (Replica.mustWrite (M := M) index property) then
    return some (← valueAt d index)
  else
    return none

/-- What a write means for the given number of nodes, the farthest one first. -/
def chooseAll (d : Definition M) (property : PropertyId) :
    Nat → Act S (List (Option (List UInt8)))
  | 0 => return []
  | index + 1 => do
    let value ← choose d property index
    return value :: (← chooseAll d property index)

/-- A write means something for every node. -/
theorem length_chooseAll {σ σ' : Session S} (d : Definition M) (property : PropertyId)
    (count : Nat) {values : List (Option (List UInt8))}
    (chosen : (chooseAll d property count : Act S _).run σ = (.ok values, σ')) :
  values.length = count
  := by
  induction count generalizing σ σ' values with
  | zero =>
    cases chosen
    rfl
  | succ index ih =>
    obtain ⟨value, τ, _, others⟩ := exists_of_run_bind chosen
    obtain ⟨rest, τ', later, last⟩ := exists_of_run_bind others
    cases last
    rw [List.length_cons, ih later]

/-- What the frame says that carries a value, or takes the place of one. -/
def frameOf : Option (List UInt8) → Frame
  | some value => .data value
  | none => .placeholder

/-- The bytes of the frame that carries a value, or takes the place of one. -/
def sealed (d : Definition M) : Option (List UInt8) → Except Frame.Error (List UInt8)
  | some value => Frame.encode value
  | none => Frame.placeholderOf (placeholderLength d.size)

/-- The bytes for a node are a frame that it may keep. -/
theorem whole_of_sealed {d : Definition M} {value : Option (List UInt8)} {bytes : List UInt8}
    (h : sealed d value = .ok bytes) :
  Frame.Whole bytes (frameOf value)
  := by
  cases value with
  | some value => apply Frame.whole_of_encode h
  | none => apply Frame.whole_of_placeholderOf h

variable {σ σ' : Session S}

/-- The frame with the value of a module carries that value. -/
theorem run_valueFrame {d : Definition M} {index : Nat} {value bytes : List UInt8}
    (found : (valueAt d index : Act S (List UInt8)).run σ = (.ok value, σ'))
    (fits : Frame.encode value = .ok bytes) :
  (valueFrame d index : Act S (List UInt8)).run σ = (.ok bytes, σ')
  := by
  rw [valueAt, run_bind_ok (run_within _)] at found
  rw [valueFrame, run_bind_ok (run_within _)]
  cases module : (Replica.module? index σ.env : Option M × S).1 with
  | none =>
    rw [module] at found
    cases found
  | some m =>
    rw [module] at found
    simp only at found ⊢
    rw [run_bind_ok found, fits]
    rfl

/-- The frame for a node carries what the write means for it. -/
theorem run_bind_frameFor {α : Type} {d : Definition M} {property : PropertyId} {index : Nat}
    {value : Option (List UInt8)} {bytes : List UInt8}
    (chosen : (choose d property index : Act S _).run σ = (.ok value, σ'))
    (fits : sealed d value = .ok bytes) (k : List UInt8 → Act S α) :
  (do
    let frame ←
      if ← within (Replica.mustWrite (M := M) index property) then
        valueFrame d index
      else
        check .ofFrame (Frame.placeholderOf (placeholderLength d.size))
    k frame : Act S α).run σ = (k bytes).run σ'
  := by
  obtain ⟨marked, τ, asked, rest⟩ := exists_of_run_bind chosen
  rw [run_bind_ok asked]
  cases marked with
  | false =>
    cases rest
    change (check .ofFrame (sealed d none) >>= k).run σ' = _
    rw [fits]
    rfl
  | true =>
    obtain ⟨v, τ', found, last⟩ := exists_of_run_bind rest
    cases last
    apply run_bind_ok (run_valueFrame found fits)

end Replicas

section Apart

variable [Transport S] [OnChain S M]

/-- The result of a computation is given aside from the line. -/
theorem aside_check {α ε : Type} (cause : ε → Failure) (result : Except ε α) :
  (check cause result : Act S α).Aside
  := by
  cases result with
  | ok a => apply Act.Aside.pure a
  | error e => apply Act.Aside.throw (cause e)

variable [Replica S M] [Apart S M]

/-- The value of a module is found aside from the line. -/
theorem aside_valueAt (d : Definition M) (index : Nat) :
  (valueAt d index : Act S (List UInt8)).Aside
  := by
  apply (Act.Aside.within (Apart.module? index)).bind
  intro m
  cases m with
  | none => apply Act.Aside.throw _
  | some m => apply aside_check _ _

/-- What a write means for a node is found aside from the line. -/
theorem aside_choose (d : Definition M) (property : PropertyId) (index : Nat) :
  (choose d property index : Act S (Option (List UInt8))).Aside
  := by
  apply (Act.Aside.within (Apart.mustWrite index property)).bind
  intro marked
  cases marked with
  | false => apply Act.Aside.pure _
  | true => apply (aside_valueAt d index).bind fun value => Act.Aside.pure _

/-- What a write means for all nodes is found aside from the line. -/
theorem aside_chooseAll (d : Definition M) (property : PropertyId) (count : Nat) :
  (chooseAll d property count : Act S (List (Option (List UInt8)))).Aside
  := by
  induction count with
  | zero => apply Act.Aside.pure _
  | succ index ih =>
    apply (aside_choose d property index).bind
    intro value
    apply ih.bind fun values => Act.Aside.pure _

end Apart

variable [Transport S] [OnChain S M]
variable {σ σ' : Session S} {table : Table M} {bodies : List (Node.Body M)} {out : List UInt8}

/-! ### Echoes -/

/-- The header of a write comes back as it left the last node. -/
theorem run_receiveEcho (g : Gateway M) {property : PropertyId} (travels : property.Travels)
    (action : Action) (staged : Bool) (count : Nat)
    (yields : σ.line.Yields table bodies
      ((ActionHeader.pack ⟨action, staged, property, count⟩).toList ++ out)) :
  ∃ c : Chain M, c.Yields table bodies out ∧
    (g.receiveEcho action property staged : Act S RawHeader).run σ =
      (.ok (ActionHeader.pack ⟨action, staged, property, count⟩), σ.withLine c)
  := by
  obtain ⟨c, after, received⟩ := run_receiveHeader g yields
  rw [ActionHeader.evenParity_pack, if_pos rfl] at received
  refine ⟨c, after, ?_⟩
  rw [receiveEcho, run_bind_ok received, if_pos]
  · rfl
  · simp [travels.ofNat_wire]

/-- An acknowledge is sent, and a byte comes back. -/
theorem run_sync_ack (g : Gateway M) {bodies' : List (Node.Body M)} {byte : UInt8}
    (yields : σ.line.Yields table bodies out)
    (short : out.length ≤ frameMax)
    (comes : flow table bodies [SyncHeader.pack ⟨.ack, .empty⟩] = (bodies', [byte])) :
  ∃ c : Chain M, c.Yields table bodies' [] ∧
    (g.sync .ack : Act S SyncHeader).run σ =
      (match SyncHeader.unpack byte with
        | .error _ => throw .headerMismatch
        | .ok header => if header.kind = .ack then return header else throw .headerMismatch :
          Act S SyncHeader).run (σ.withLine c)
  := by
  obtain ⟨c₁, silent, flushed⟩ := run_flush yields short
  obtain ⟨c₂, quiet, drained⟩ := run_drain (σ := σ.withLine c₁)
    (by rw [Session.line_withLine]; exact silent)
  obtain ⟨c₃, sent, sending⟩ := run_send (σ := (σ.withLine c₁).withLine c₂)
    (by rw [Session.line_withLine]; exact quiet) [SyncHeader.pack ⟨.ack, .empty⟩]
  rw [comes, List.nil_append] at sent
  obtain ⟨c₄, after, received⟩ := run_receiveByte g
    (σ := ((σ.withLine c₁).withLine c₂).withLine c₃) (by rw [Session.line_withLine]; exact sent)
  rw [Session.withLine_withLine, Session.withLine_withLine, Session.withLine_withLine] at received
  refine ⟨c₄, after, ?_⟩
  rw [sync, run_bind_ok flushed, run_bind_ok drained, run_bind_ok sending,
    Session.withLine_withLine, Session.withLine_withLine]
  apply (run_bind_ok received).trans
  cases SyncHeader.unpack byte <;> rfl

variable [Replica S M]

/-! ### Acknowledges -/

section Acknowledge

variable {bodies' : List (Node.Body M)}

/-- A transaction is confirmed if an acknowledge comes back as it was sent. -/
theorem run_confirm_clean (g : Gateway M) (yields : σ.line.Yields table bodies out)
    (short : out.length ≤ frameMax)
    (comes : flow table bodies [SyncHeader.pack ⟨.ack, .empty⟩] =
      (bodies', [SyncHeader.pack ⟨.ack, .empty⟩])) :
  ∃ c : Chain M, c.Yields table bodies' [] ∧
    (g.confirm : Act S Unit).run σ = (.ok (), σ.withLine c)
  := by
  obtain ⟨c, after, synced⟩ := run_sync_ack g yields short comes
  refine ⟨c, after, ?_⟩
  have read := SyncHeader.unpack_pack ⟨.ack, .empty⟩
  have acknowledged : (g.acknowledge : Act S Categories).run σ =
      (.ok Categories.empty, σ.withLine c) := by
    rw [read] at synced
    apply run_bind_ok synced
  rw [confirm, run_bind_ok acknowledged]
  rfl

/-- A transaction is not confirmed if an acknowledge comes back as zero: the header counts as
damaged. -/
theorem run_confirm_lost (g : Gateway M) (yields : σ.line.Yields table bodies out)
    (short : out.length ≤ frameMax)
    (comes : flow table bodies [SyncHeader.pack ⟨.ack, .empty⟩] = (bodies', [0])) :
  ∃ c : Chain M, c.Yields table bodies' [] ∧
    (g.confirm : Act S Unit).run σ = (.error .headerMismatch, σ.withLine c)
  := by
  obtain ⟨c, after, synced⟩ := run_sync_ack g yields short comes
  refine ⟨c, after, ?_⟩
  have damaged : SyncHeader.unpack 0 = .error .unexpectedAction := by decide
  have lost : (g.acknowledge : Act S Categories).run σ =
      (.error .headerMismatch, σ.withLine c) := by
    rw [damaged] at synced
    apply run_bind_error synced
  rw [confirm, run_bind_error lost]

end Acknowledge

variable [Apart S M]

/-! ### Sending values -/

/-- The bytes for all nodes, the farthest one first, are frames that the nodes may keep. -/
def SealedAll (d : Definition M) (values : List (Option (List UInt8)))
    (batch : List (List UInt8)) : Prop :=
  List.Forall₂ (fun value bytes => sealed d value = .ok bytes) values batch

/-- What a write means for all nodes is sent to them. -/
theorem run_sendValues (d : Definition M) (property : PropertyId) (count : Nat)
    {values : List (Option (List UInt8))} {batch : List (List UInt8)}
    (chosen : (chooseAll d property count : Act S _).run σ = (.ok values, σ'))
    (closed : SealedAll d values batch) (yields : σ.line.Yields table bodies out) :
  ∃ c : Chain M, c.Yields table (flow table bodies batch.flatten).1
      (out ++ (flow table bodies batch.flatten).2) ∧
    (sendValues d property count : Act S Unit).run σ = (.ok (), σ'.withLine c)
  := by
  induction count generalizing σ σ' bodies out values batch with
  | zero =>
    cases chosen
    cases closed
    refine ⟨σ.line, ?_, ?_⟩
    · rw [List.flatten_nil, yields.flow_nil, List.append_nil]
      apply yields
    · rw [Session.withLine_line]
      rfl
  | succ index ih =>
    obtain ⟨value, τ, first, others⟩ := exists_of_run_bind chosen
    obtain ⟨rest, τ', chosen', last⟩ := exists_of_run_bind others
    cases last
    obtain _ | ⟨fits, closed'⟩ := closed
    next bytes batch =>
    have line : τ.line = σ.line := by
      have same := (aside_choose (S := S) d property index).line_eq σ
      rw [first] at same
      apply same
    obtain ⟨c, after, sent⟩ := run_send (by rw [line]; exact yields) bytes
    have moved := aside_chooseAll (S := S) d property index c τ
    rw [chosen'] at moved
    obtain ⟨c', later, sending⟩ := ih moved closed' (by rw [Session.line_withLine]; exact after)
    refine ⟨c', ?_, ?_⟩
    · rw [List.flatten_cons, flow_append, ← List.append_assoc]
      apply later
    · rw [sendValues, run_bind_frameFor first fits, run_bind_ok sent, sending,
        Session.withLine_withLine]

/-! ### Broadcasts -/

/-- A broadcast to nodes that listen leaves each of them the value of the first module, and is
then to be confirmed.  What waits for the gateway is dropped before. -/
theorem run_broadcast (g : Gateway M) {d : Definition M} {property : PropertyId}
    (travels : property.Travels) (staged : Bool) {value bytes : List UInt8}
    (found : (valueAt d 0 : Act S (List UInt8)).run σ = (.ok value, σ'))
    (fits : Frame.encode value = .ok bytes) {nodes : List (Node.Engine × M)}
    (few : nodes.length < countModulus) (yields : σ.line.Yields table (listeners nodes) out)
    (short : out.length ≤ frameMax) :
  let request : Node.Request := ⟨.broadcast, staged, property⟩
  ∃ c : Chain M, c.Yields table (nodes.map (reached table request (some value))) [] ∧
    (g.broadcast d property staged : Act S Unit).run σ =
      (g.confirm : Act S Unit).run ((σ'.noted nodes.length).withLine c)
  := by
  intro request
  have header : ActionHeader.of? .broadcast staged property 0 =
      some ⟨.broadcast, staged, property, 0⟩ :=
    travels.of?_eq (by simp) _ (by decide)
  have whole := Frame.whole_of_encode fits
  have comes := flow_broadcast table travels staged nodes 0 whole (by simp)
    (by rw [Nat.zero_add]; exact few)
  rw [flow_append, Nat.zero_add, Prod.mk.injEq] at comes
  obtain ⟨c₁, silent, flushed⟩ := run_flush yields short
  obtain ⟨c₂, opened, opening⟩ := run_send (σ := σ.withLine c₁)
    (by rw [Session.line_withLine]; exact silent)
    (ActionHeader.pack ⟨.broadcast, staged, property, 0⟩).toList
  rw [Session.withLine_withLine] at opening
  have moved := aside_valueAt (S := S) d 0 c₂ σ
  rw [found] at moved
  obtain ⟨c₃, sent, sending⟩ := run_send (σ := σ'.withLine c₂)
    (by rw [Session.line_withLine]; exact opened) bytes
  rw [Session.withLine_withLine] at sending
  rw [List.nil_append, comes.1, comes.2] at sent
  obtain ⟨c₄, echoed, received⟩ := run_receiveEcho g (σ := σ'.withLine c₃) travels .broadcast staged
    nodes.length (by rw [Session.line_withLine]; exact sent)
  rw [Session.withLine_withLine] at received
  have count : (ActionHeader.pack ⟨.broadcast, staged, property, nodes.length⟩).count =
      nodes.length := by
    rw [ActionHeader.count_pack, Nat.mod_eq_of_lt few]
  obtain ⟨c₅, after, back⟩ := run_receive g (σ := (σ'.noted nodes.length).withLine c₄) bytes
    bytes.length (by rw [Session.line_withLine, List.append_nil]; exact echoed) rfl whole.fits
  rw [Session.withLine_withLine] at back
  refine ⟨c₅, after, ?_⟩
  rw [broadcast, header]
  simp only
  rw [run_bind_ok flushed, run_bind_ok opening, run_bind_ok (run_valueFrame moved fits),
    run_bind_ok sending, run_bind_ok received, count, run_bind_ok (run_updateCount _ _),
    Session.noted_withLine, run_bind_ok back]
  rw [if_neg fun changed => changed rfl]

/-! ### Writes to each node -/

/-- The nodes after a write, each with what it means for them. -/
def written (table : Table M) (request : Node.Request) (nodes : List (Node.Engine × M))
    (values : List (Option (List UInt8))) : List (Node.Body M) :=
  List.zipWith (fun n value => Node.Body.receive table n.1 n.2 request value) nodes values

/-- Frames that carry what a write means for nodes make up parcels for them. -/
theorem exists_parcels (table : Table M) (request : Node.Request) {d : Definition M}
    {values : List (Option (List UInt8))} {batch : List (List UInt8)}
    (closed : SealedAll d values batch) (nodes : List (Node.Engine × M))
    (length : nodes.length = values.length) :
  ∃ parcels : List (Parcel M), (∀ p ∈ parcels, p.Sealed) ∧
    parcels.map Parcel.node = nodes ∧ parcels.map Parcel.bytes = batch ∧
    parcels.map (Parcel.received table request) = written table request nodes values
  := by
  induction closed generalizing nodes with
  | nil =>
    rw [List.length_nil, List.length_eq_zero_iff] at length
    subst length
    exact ⟨[], by simp, rfl, rfl, rfl⟩
  | @cons value bytes values batch fits _ ih =>
    cases nodes with
    | nil => contradiction
    | cons n rest =>
      obtain ⟨parcels, closed, node, bytesEq, received⟩ := ih rest (Nat.succ.inj length)
      refine ⟨⟨n, bytes, frameOf value⟩ :: parcels, ?_, ?_, ?_, ?_⟩
      · intro p member
        rcases List.mem_cons.mp member with rfl | among
        · exact ⟨whole_of_sealed fits, by cases value <;> simp [frameOf]⟩
        · apply closed p among
      · rw [List.map_cons, node]
      · rw [List.map_cons, bytesEq]
      · rw [List.map_cons, received]
        cases value <;> rfl

/-- The header of a write and the frames for all nodes leave each of them its value. -/
theorem flow_written (table : Table M) {d : Definition M} {property : PropertyId}
    (travels : property.Travels) (staged : Bool) {nodes : List (Node.Engine × M)}
    {values : List (Option (List UInt8))}
    {batch : List (List UInt8)} (closed : SealedAll d values batch)
    (length : nodes.length = values.length) (few : nodes.length < countModulus) :
  flow table (listeners nodes)
      ((ActionHeader.pack ⟨.write, staged, property, nodes.length⟩).toList ++ batch.flatten) =
    (written table ⟨.write, staged, property⟩ nodes values.reverse,
      (ActionHeader.pack ⟨.write, staged, property, 0⟩).toList)
  := by
  have reversed : SealedAll d values.reverse batch.reverse := List.rel_reverse closed
  obtain ⟨parcels, whole, rfl, bytes, received⟩ := exists_parcels table
    ⟨.write, staged, property⟩ reversed nodes (by rw [List.length_reverse]; exact length)
  have comes := flow_write table travels staged whole [] (by simp)
    (by rw [List.length_nil, Nat.zero_add, ← List.length_map Parcel.node]; exact few)
  rw [bytes, List.reverse_reverse, List.nil_append, received, List.length_nil, Nat.zero_add,
    List.flatten_nil, List.append_nil] at comes
  rw [List.length_map]
  apply comes

/-- A write to nodes that listen leaves each of them what it means for it, and is then to be
confirmed. -/
theorem run_writeEach (g : Gateway M) {d : Definition M} {property : PropertyId}
    (travels : property.Travels) (staged : Bool) {values : List (Option (List UInt8))}
    {batch : List (List UInt8)} {nodes : List (Node.Engine × M)}
    (chosen : (chooseAll d property nodes.length : Act S _).run σ = (.ok values, σ'))
    (closed : SealedAll d values batch) (some : nodes ≠ [])
    (length : nodes.length = values.length) (few : nodes.length < countModulus)
    (yields : σ.line.Yields table (listeners nodes) out) (short : out.length ≤ frameMax) :
  let request : Node.Request := ⟨.write, staged, property⟩
  ∃ c : Chain M, c.Yields table (written table request nodes values.reverse) [] ∧
    (g.writeEach d property nodes.length staged : Act S Unit).run σ =
      (g.confirm : Act S Unit).run (σ'.withLine c)
  := by
  intro request
  have header : ActionHeader.of? .write staged property nodes.length =
      .some ⟨.write, staged, property, nodes.length⟩ :=
    travels.of?_eq (by simp) _ few
  have comes := flow_written table travels staged closed length few
  rw [flow_append, Prod.mk.injEq] at comes
  obtain ⟨c₁, silent, flushed⟩ := run_flush yields short
  obtain ⟨c₂, opened, opening⟩ := run_send (σ := σ.withLine c₁)
    (by rw [Session.line_withLine]; exact silent)
    (ActionHeader.pack ⟨.write, staged, property, nodes.length⟩).toList
  rw [Session.withLine_withLine] at opening
  have moved := aside_chooseAll (S := S) d property nodes.length c₂ σ
  rw [chosen] at moved
  obtain ⟨c₃, sent, sending⟩ := run_sendValues d property nodes.length moved closed
    (by rw [Session.line_withLine]; exact opened)
  rw [List.nil_append, comes.1, comes.2] at sent
  rw [Session.withLine_withLine] at sending
  rw [← List.append_nil (RawHeader.toList _)] at sent
  obtain ⟨c₄, after, received⟩ := run_receiveEcho g (σ := σ'.withLine c₃) travels .write staged 0
    (by rw [Session.line_withLine]; exact sent)
  rw [Session.withLine_withLine] at received
  have count : (ActionHeader.pack ⟨.write, staged, property, 0⟩).count = 0 := by
    rw [ActionHeader.count_pack, Nat.zero_mod]
  refine ⟨c₄, after, ?_⟩
  have many : nodes.length ≠ 0 := fun none => some (List.length_eq_zero_iff.mp none)
  rw [writeEach, if_neg many, header]
  simp only
  rw [run_bind_ok flushed, run_bind_ok opening, run_bind_ok sending, run_bind_ok received, count]
  rfl

end DaisyChain.Gateway
