import DaisyChain.Gateway.Transaction
import DaisyChain.Proofs.Chain.Exchange
import DaisyChain.Proofs.Gateway.Line

/-!
# Reads of a chain

What a read does, told apart from the bytes that travel.  `takeValues` puts the values of the
nodes into the replica and `takeRecords` their records; `run_readAll` says that a read of a
chain whose nodes all listen does just that, with what each node answers.
-/

namespace DaisyChain.Gateway

variable {S M : Type}

/-! ### The parts of a read -/

section Parts

variable [Transport S] [Replica S M]

/-- How a read ends once the values of all nodes have been taken. -/
def conclude (g : Gateway M) (flag : Bool) (trouble : Trouble) : Act S Unit := do
  if flag ∨ trouble.missing then
    let categories ← g.nodeErrors
    if trouble.missing then throw (.nodes (atLeastOther categories))
  match trouble.refused with
  | some failure => throw failure
  | none => return ()

/-- A read of a property that travels to the gateway. -/
theorem readAll_eq (g : Gateway M) {property : PropertyId} {d : Definition M}
    (real : property.isErrorQuery = false) (found : g.table.find? property = some d)
    (readable : d.access.readable = true) (settable : d.set.isSome) :
  (g.readAll property : Act S Unit) = (do
    let echo ← g.openRead property
    updateCount echo.count
    let trouble ← g.receiveValues d echo.count 0 {}
    conclude g echo.flag trouble)
  := by
  have possible : ¬(d.access.readable = false ∨ d.set.isNone) := by
    rw [readable, Option.isNone_iff_eq_none]
    rintro (h | h)
    · contradiction
    · rw [h] at settable
      contradiction
  rw [readAll, real]
  simp only [Bool.false_eq_true, if_false, found, possible]
  rfl

/-- A read in which nothing has gone wrong succeeds. -/
theorem run_conclude (g : Gateway M) {trouble : Trouble} (complete : trouble.missing = false)
    (accepted : trouble.refused = none) (σ : Session S) :
  (conclude g false trouble : Act S Unit).run σ = (.ok (), σ)
  := by
  rw [conclude, complete, if_neg (by simp), accepted]
  rfl

end Parts

/-! ### Opening a read -/

section Opening

variable [Transport S] [OnChain S M]
variable {σ : Session S} {table : Table M} {bodies : List (Node.Body M)} {out : List UInt8}

omit [OnChain S M] in
/-- Once its header has been sent, a read is opened if a header for the same property comes back. -/
theorem run_openRead_of_result (g : Gateway M) {property : PropertyId}
    (travels : property.Travels) {σ₁ σ₂ σ₃ : Session S} {result : Except Failure RawHeader}
    (flushed : (flush : Act S Unit).run σ = (.ok (), σ₁))
    (sent : (send (ActionHeader.pack ⟨.read, false, property, 0⟩).toList : Act S Unit).run σ₁ =
      (.ok (), σ₂))
    (received : (g.receiveHeader : Act S RawHeader).run σ₂ = (result, σ₃)) :
  (g.openRead property : Act S RawHeader).run σ =
    (result.bind fun h =>
      if h.action = .read ∧ h.property = property then .ok h else .error .headerMismatch, σ₃)
  := by
  have header : ActionHeader.of? .read false property 0 = some ⟨.read, false, property, 0⟩ :=
    travels.of?_eq (by simp) _ (by decide)
  rw [openRead, header]
  simp only
  rw [run_bind_ok flushed, run_bind_ok sent]
  cases result with
  | error failure => exact run_bind_error received
  | ok h =>
    rw [run_bind_ok received, Except.bind]
    by_cases same : h.action = .read ∧ h.property = property
    · rw [if_pos same, if_pos same]
      rfl
    · rw [if_neg same, if_neg same]
      rfl

omit [OnChain S M] in
/-- Once its header has been sent, a read is opened if the header that comes back has even parity and
is one for the same property. -/
theorem run_openRead_of_header (g : Gateway M) {property : PropertyId}
    (travels : property.Travels) {σ₁ σ₂ σ₃ : Session S} {h : RawHeader}
    (flushed : (flush : Act S Unit).run σ = (.ok (), σ₁))
    (sent : (send (ActionHeader.pack ⟨.read, false, property, 0⟩).toList : Act S Unit).run σ₁ =
      (.ok (), σ₂))
    (received : (g.receiveHeader : Act S RawHeader).run σ₂ =
      (if h.evenParity then .ok h else .error .headerMismatch, σ₃)) :
  (g.openRead property : Act S RawHeader).run σ =
    (if h.evenParity ∧ h.action = .read ∧ h.property = property then .ok h
      else .error .headerMismatch, σ₃)
  := by
  rw [run_openRead_of_result g travels flushed sent received]
  cases h.evenParity with
  | false => simp only [Bool.false_eq_true, false_and, if_false, Except.bind]
  | true => simp only [true_and, if_true, Except.bind]

/-- The header of a read is sent, and what comes back is accepted if it is a header for the
same property. -/
theorem run_openRead (g : Gateway M) {property : PropertyId} (travels : property.Travels)
    {bodies' : List (Node.Body M)} {h : RawHeader} (yields : σ.line.Yields table bodies [])
    (comes : flow table bodies (ActionHeader.pack ⟨.read, false, property, 0⟩).toList =
      (bodies', h.toList ++ out)) :
  ∃ c : Chain M, c.Yields table bodies' out ∧
    (g.openRead property : Act S RawHeader).run σ =
      (if h.evenParity ∧ h.action = .read ∧ h.property = property then .ok h
        else .error .headerMismatch, σ.withLine c)
  := by
  obtain ⟨c₁, silent, flushed⟩ := run_flush yields (Nat.zero_le _)
  obtain ⟨c₂, sent, sending⟩ := run_send (σ := σ.withLine c₁)
    (by rw [Session.line_withLine]; exact silent)
    (ActionHeader.pack ⟨.read, false, property, 0⟩).toList
  rw [comes, List.nil_append] at sent
  obtain ⟨c₃, after, received⟩ := run_receiveHeader g (σ := σ.withLine c₂)
    (by rw [Session.line_withLine]; exact sent)
  rw [Session.withLine_withLine] at sending received
  exact ⟨c₃, after, run_openRead_of_header g travels flushed sending received⟩

/-- A read of nodes that listen is opened, and their answers follow. -/
theorem run_openRead_listeners (g : Gateway M) {property : PropertyId}
    (travels : property.Travels) {nodes : List (Node.Engine × M)}
    (few : nodes.length < countModulus) (yields : σ.line.Yields table (listeners nodes) []) :
  ∃ c : Chain M,
    c.Yields table (listeners (nodes.map (answered table property)))
      (nodes.map fun n => (replyOf table property n).1).flatten ∧
    (g.openRead property : Act S RawHeader).run σ =
      (.ok (ActionHeader.pack ⟨.read, nodes.any fun n => n.1.record.isSome, property,
        nodes.length⟩), σ.withLine c)
  := by
  have comes := flow_read table travels nodes false [] (by simp)
    (by rw [List.length_nil]; omega)
  rw [List.flatten_nil, List.append_nil, List.length_nil, Nat.zero_add, List.nil_append,
    Bool.false_or] at comes
  obtain ⟨c, after, opened⟩ := run_openRead g travels yields comes
  refine ⟨c, after, ?_⟩
  rw [opened, if_pos]
  simp [travels.ofNat_wire]

end Opening

/-! ### What the replica takes -/

section Replicas

variable [Replica S M]

/-- What has gone wrong in a read after one more value. -/
def Trouble.after (trouble : Trouble) : Option (Except PropertyError Unit) → Trouble
  | some (.error e) => { trouble with refused := some (.ofProperty e) }
  | some (.ok ()) | none => trouble

/-- Put the values of the nodes from the given index on into the modules. -/
def takeValues (d : Definition M) : List Frame → Nat → Trouble → StateM S Trouble
  | [], _, trouble => pure trouble
  | .data data :: rest, index, trouble => do
    takeValues d rest (index + 1) (trouble.after (← Replica.modify index (d.deserialize data)))
  | _ :: rest, index, trouble => takeValues d rest (index + 1) { trouble with missing := true }

/-- A value is missing if some node sent none. -/
theorem missing_takeValues (d : Definition M) {frames : List Frame} (index : Nat)
    (values : ∀ frame ∈ frames, frame ≠ .placeholder) (trouble : Trouble) (s : S) :
  (takeValues d frames index trouble s).1.missing =
    (trouble.missing || decide (.empty ∈ frames))
  := by
  induction frames generalizing index trouble s with
  | nil =>
    change trouble.missing = _
    simp
  | cons frame rest ih =>
    have others := fun f member => values f (List.mem_cons_of_mem _ member)
    cases frame with
    | placeholder => apply (values _ List.mem_cons_self rfl).elim
    | empty =>
      apply (ih (index + 1) others { trouble with missing := true } s).trans
      simp
    | data data =>
      apply (ih (index + 1) others _ _).trans
      have same (r : Option (Except PropertyError Unit)) :
          (trouble.after r).missing = trouble.missing := by
        rcases r with _ | ⟨_ | _⟩ <;> rfl
      rw [same]
      simp

/-- Pass on the records of the nodes from the given index on. -/
def takeRecords : List (Option Record) → Nat → StateM S Unit
  | [], _ => pure ()
  | record :: rest, index => do
    Replica.reported index (record.map Record.fault) (record.map Record.state)
    takeRecords rest (index + 1)

/-- The categories of the given records. -/
def categoriesOfAll (records : List (Option Record)) : Categories :=
  records.foldl (fun categories record => categories ∪ categoriesOf (record.map Record.fault))
    .empty

variable [Transport S] [OnChain S M] [Apart S M]

/-- Values are taken aside from the line. -/
theorem aside_takeValues (d : Definition M) (frames : List Frame) (index : Nat)
    (trouble : Trouble) :
  Aside (takeValues d frames index trouble : StateM S Trouble)
  := by
  induction frames generalizing index trouble with
  | nil => apply aside_pure trouble
  | cons frame rest ih =>
    cases frame with
    | data data => apply (Apart.modify index _).bind fun _ => ih _ _
    | placeholder => apply ih _ _
    | empty => apply ih _ _

/-- Records are taken aside from the line. -/
theorem aside_takeRecords (records : List (Option Record)) (index : Nat) :
  Aside (takeRecords records index : StateM S Unit)
  := by
  induction records generalizing index with
  | nil => apply aside_pure ()
  | cons record rest ih => apply (Apart.reported index _ _).bind fun _ => ih _

end Replicas

variable [Transport S] [OnChain S M] [Replica S M] [Apart S M]
variable {σ : Session S} {table : Table M} {bodies : List (Node.Body M)} {out : List UInt8}

/-- The values that the chain yields are taken. -/
theorem run_receiveValues (g : Gateway M) (d : Definition M) {batch : List (List UInt8)}
    {frames : List Frame} (whole : List.Forall₂ Frame.Whole batch frames)
    (values : ∀ frame ∈ frames, frame ≠ .placeholder) (index : Nat) (trouble : Trouble)
    (yields : σ.line.Yields table bodies (batch.flatten ++ out)) :
  ∃ c : Chain M, c.Yields table bodies out ∧
    (g.receiveValues d frames.length index trouble : Act S Trouble).run σ =
      (.ok (takeValues d frames index trouble σ.env).1,
        (σ.after (takeValues d frames index trouble)).withLine c)
  := by
  induction whole generalizing index trouble σ with
  | nil =>
    refine ⟨σ.line, yields, ?_⟩
    change (Except.ok trouble, σ) = (Except.ok trouble, σ.withLine σ.line)
    rw [Session.withLine_line]
  | @cons bytes frame batch frames first others ih =>
    rw [List.flatten_cons, List.append_assoc] at yields
    obtain ⟨c, after, received⟩ := run_receiveFrame g first yields
    have rest := fun other member => values other (List.mem_cons_of_mem _ member)
    rw [List.length_cons, receiveValues, run_bind_ok received]
    cases frame with
    | placeholder => apply (values _ List.mem_cons_self rfl).elim
    | empty =>
      obtain ⟨c', later, taken⟩ := ih (σ := σ.withLine c) rest (index + 1)
        { trouble with missing := true } (by rw [Session.line_withLine]; exact after)
      refine ⟨c', later, taken.trans ?_⟩
      have aside := aside_takeValues (S := S) d frames (index + 1)
        { trouble with missing := true }
      rw [aside.answer_withLine, aside.after_withLine, Session.withLine_withLine]
      rfl
    | data data =>
      have put := Apart.modify (S := S) index (d.deserialize data)
      obtain ⟨c', later, taken⟩ := ih (σ := (σ.withLine c).after
          (Replica.modify index (d.deserialize data))) rest (index + 1)
        (trouble.after (Replica.modify index (d.deserialize data) (σ.withLine c).env).1)
        (by rw [put.line_after, Session.line_withLine]; exact after)
      refine ⟨c', later, ?_⟩
      have step : (do
          match ← within (Replica.modify index (d.deserialize data)) with
          | some (.error e) =>
            g.receiveValues d frames.length (index + 1)
              { trouble with refused := some (.ofProperty e) }
          | some (.ok ()) | none => g.receiveValues d frames.length (index + 1) trouble :
            Act S Trouble).run (σ.withLine c) =
          (g.receiveValues d frames.length (index + 1) (trouble.after
            (Replica.modify index (d.deserialize data) (σ.withLine c).env).1)).run
            ((σ.withLine c).after (Replica.modify index (d.deserialize data))) := by
        rw [run_bind_ok (run_within _)]
        rcases (Replica.modify index (d.deserialize data) (σ.withLine c).env).1 with
          _ | ⟨_ | _⟩ <;> rfl
      refine step.trans (taken.trans ?_)
      have aside := fun t => aside_takeValues (S := S) d frames (index + 1) t
      rw [put.after_withLine, (aside _).answer_withLine, (aside _).after_withLine,
        Session.withLine_withLine, put.answer_withLine]
      rfl

/-- The records that the chain yields are passed on. -/
theorem run_receiveRecords (g : Gateway M) {batch : List (List UInt8)}
    {records : List (Option Record)}
    (whole : List.Forall₂ (fun bytes record => Frame.Whole bytes (.data (reportOf record))) batch
      records)
    (index : Nat) (categories : Categories)
    (yields : σ.line.Yields table bodies (batch.flatten ++ out)) :
  ∃ c : Chain M, c.Yields table bodies out ∧
    (g.receiveRecords records.length index categories : Act S Categories).run σ =
      (.ok (records.foldl
          (fun all record => all ∪ categoriesOf (record.map Record.fault)) categories),
        (σ.after (takeRecords records index)).withLine c)
  := by
  induction whole generalizing index categories σ with
  | nil =>
    refine ⟨σ.line, yields, ?_⟩
    change (Except.ok categories, σ) = (Except.ok categories, σ.withLine σ.line)
    rw [Session.withLine_line]
  | @cons bytes record batch records first others ih =>
    rw [List.flatten_cons, List.append_assoc] at yields
    obtain ⟨c, after, received⟩ := run_receiveFrame g first yields
    let pass : StateM S Unit :=
      Replica.reported index (record.map Record.fault) (record.map Record.state)
    have passed : Aside pass := Apart.reported index _ _
    obtain ⟨c', later, taken⟩ := ih (σ := (σ.withLine c).after pass) (index + 1)
      (categories ∪ categoriesOf (record.map Record.fault))
      (by rw [passed.line_after, Session.line_withLine]; exact after)
    refine ⟨c', later, ?_⟩
    have step : (g.receiveRecords (records.length + 1) index categories : Act S Categories).run σ =
        (g.receiveRecords records.length (index + 1)
          (categories ∪ categoriesOf (record.map Record.fault)) : Act S Categories).run
            ((σ.withLine c).after pass) := by
      rw [receiveRecords, run_bind_ok received]
      cases record with
      | none => rfl
      | some r =>
        simp only [reportOf, Fault.ofByte_toByte, NodeState.ofByte_toByte]
        rfl
    refine step.trans (taken.trans ?_)
    have aside := aside_takeRecords (S := S) records (index + 1)
    rw [passed.after_withLine, aside.after_withLine, Session.withLine_withLine]
    rfl

/-! ### Records of all nodes -/

/-- The records of nodes that listen are collected, and forgotten by the nodes. -/
theorem run_nodeErrors (g : Gateway M) {nodes : List (Node.Engine × M)}
    (few : nodes.length < countModulus) (yields : σ.line.Yields table (listeners nodes) []) :
  let records := nodes.map fun n => n.1.record
  ∃ c : Chain M, c.Yields table (listeners (nodes.map (answered table .errorQuery))) [] ∧
    (g.nodeErrors : Act S Categories).run σ =
      (.ok (categoriesOfAll records),
        ((σ.noted nodes.length).after (takeRecords records 0)).withLine c)
  := by
  intro records
  have travels : PropertyId.errorQuery.Travels := by decide
  obtain ⟨c, answers, opened⟩ := run_openRead_listeners g travels few yields
  have count : (ActionHeader.pack ⟨.read, nodes.any fun n => n.1.record.isSome, .errorQuery,
      nodes.length⟩).count = records.length := by
    rw [ActionHeader.count_pack, Nat.mod_eq_of_lt few, List.length_map]
  have whole : List.Forall₂ (fun bytes record => Frame.Whole bytes (.data (reportOf record)))
      (nodes.map fun n => (replyOf table .errorQuery n).1) records := by
    rw [List.forall₂_map_left_iff, List.forall₂_map_right_iff, List.forall₂_same]
    intro n _
    have reads := whole_said table .errorQuery n
    rw [said_errorQuery] at reads
    apply reads
  have line : ((σ.noted nodes.length).withLine c).line.Yields table
      (listeners (nodes.map (answered table .errorQuery)))
      ((nodes.map fun n => (replyOf table .errorQuery n).1).flatten ++ []) := by
    rw [Session.line_withLine, List.append_nil]
    apply answers
  obtain ⟨c', after, received⟩ := run_receiveRecords g whole 0 .empty line
  refine ⟨c', after, ?_⟩
  rw [nodeErrors, run_bind_ok opened, count,
    run_bind_ok (run_updateCount records.length (σ.withLine c))]
  rw [Session.noted_withLine, show records.length = nodes.length from List.length_map _]
  rw [show records.length = nodes.length from List.length_map _] at received
  rw [received, (aside_takeRecords records 0).after_withLine, Session.withLine_withLine]
  rfl

/-! ### Reads -/

/-- What a read does aside from the line after it has taken the values, if the nodes have the given
records by then; `flag` tells whether some node had a record before. -/
def readRest (flag : Bool) (records : List (Option Record)) (trouble : Trouble) : Act S Unit := do
  if flag ∨ trouble.missing then
    updateCount records.length
    within (takeRecords records 0)
    if trouble.missing then throw (.nodes (atLeastOther (categoriesOfAll records)))
  match trouble.refused with
  | some failure => throw failure
  | none => return ()

/-- What a read does aside from the line, if the nodes answer with the given frames and have the
given records afterwards; `flag` tells whether some node had a record before. -/
def readAside (d : Definition M) (frames : List Frame) (flag : Bool)
    (records : List (Option Record)) : Act S Unit := do
  updateCount frames.length
  let trouble ← within (takeValues d frames 0 {})
  readRest flag records trouble

/-- What nodes that listen have become when they have been read: if one of them had a record or
had no value, they have been asked for their records, too. -/
def afterRead (table : Table M) (property : PropertyId) (nodes : List (Node.Engine × M)) :
    List (Node.Engine × M) :=
  let read := nodes.map (answered table property)
  if (nodes.any fun n => n.1.record.isSome) ∨ .empty ∈ nodes.map (said table property) then
    read.map (answered table .errorQuery)
  else
    read

/-- A read whose header comes back with whole frames behind it takes the values in these
frames. -/
theorem run_readAll_values (g : Gateway M) {property : PropertyId} {d : Definition M}
    (travels : property.Travels) (real : property.isErrorQuery = false)
    (found : g.table.find? property = some d) (readable : d.access.readable = true)
    (settable : d.set.isSome) {bodies' : List (Node.Body M)} {flag : Bool}
    {batch : List (List UInt8)} {frames : List Frame}
    (whole : List.Forall₂ Frame.Whole batch frames)
    (values : ∀ frame ∈ frames, frame ≠ .placeholder) (few : frames.length < countModulus)
    (comes : flow table bodies (ActionHeader.pack ⟨.read, false, property, 0⟩).toList =
      (bodies', (ActionHeader.pack ⟨.read, flag, property, frames.length⟩).toList ++
        (batch.flatten ++ out)))
    (yields : σ.line.Yields table bodies []) :
  let τ := σ.noted frames.length
  ∃ c : Chain M, c.Yields table bodies' out ∧
    (g.readAll property : Act S Unit).run σ =
      (conclude g flag (takeValues d frames 0 {} τ.env).1 : Act S Unit).run
        ((τ.after (takeValues d frames 0 {})).withLine c)
  := by
  intro τ
  obtain ⟨c, answers, opened⟩ := run_openRead g travels yields comes
  have echoed : (ActionHeader.pack ⟨.read, flag, property, frames.length⟩).evenParity ∧
      (ActionHeader.pack ⟨.read, flag, property, frames.length⟩).action = .read ∧
      (ActionHeader.pack ⟨.read, flag, property, frames.length⟩).property = property := by
    simp [travels.ofNat_wire]
  rw [if_pos echoed] at opened
  have count : (ActionHeader.pack ⟨.read, flag, property, frames.length⟩).count =
      frames.length := by
    rw [ActionHeader.count_pack, Nat.mod_eq_of_lt few]
  have flagged : (ActionHeader.pack ⟨.read, flag, property, frames.length⟩).flag = flag := by
    rw [ActionHeader.flag_pack]
  have line : ((σ.withLine c).noted frames.length).line.Yields table bodies'
      (batch.flatten ++ out) := by
    rw [Session.noted_withLine, Session.line_withLine]
    apply answers
  obtain ⟨c', after, received⟩ := run_receiveValues g d whole values 0 {} line
  have taken := aside_takeValues (S := S) d frames 0 {}
  rw [Session.noted_withLine, taken.answer_withLine, taken.after_withLine,
    Session.withLine_withLine] at received
  refine ⟨c', after, ?_⟩
  rw [readAll_eq g real found readable settable, run_bind_ok opened, count, flagged,
    run_bind_ok (run_updateCount frames.length (σ.withLine c)), Session.noted_withLine,
    run_bind_ok received]

/-- A read of nodes that listen does with the replica what their answers ask for. -/
theorem run_readAll (g : Gateway M) {property : PropertyId} {d : Definition M}
    (travels : property.Travels) (real : property.isErrorQuery = false)
    (found : g.table.find? property = some d) (readable : d.access.readable = true)
    (settable : d.set.isSome) {nodes : List (Node.Engine × M)}
    (few : nodes.length < countModulus) (yields : σ.line.Yields table (listeners nodes) []) :
  let aside : Act S Unit := readAside d (nodes.map (said table property))
    (nodes.any fun n => n.1.record.isSome)
    (nodes.map fun n => (answered table property n).1.record)
  ∃ c : Chain M, c.Yields table (listeners (afterRead table property nodes)) [] ∧
    (g.readAll property : Act S Unit).run σ =
      ((aside.run σ).1, (aside.run σ).2.withLine c)
  := by
  intro aside
  let frames := nodes.map (said table property)
  let records := nodes.map fun n => (answered table property n).1.record
  let flag := nodes.any fun n => n.1.record.isSome
  let τ := (σ.noted frames.length).after (takeValues d frames 0 {})
  let trouble := (takeValues d frames 0 {} (σ.noted frames.length).env).1
  have length : frames.length = nodes.length := List.length_map _
  -- The values are taken.
  have whole : List.Forall₂ Frame.Whole (nodes.map fun n => (replyOf table property n).1)
      frames := whole_replies table property nodes
  have values : ∀ frame ∈ frames, frame ≠ .placeholder := said_answers table property nodes
  have comes := flow_read table travels nodes false [] (by simp)
    (by rw [List.length_nil]; omega)
  rw [List.flatten_nil, List.append_nil, List.length_nil, Nat.zero_add, List.nil_append,
    Bool.false_or, ← length, ← List.append_nil (List.flatten _)] at comes
  obtain ⟨c, after, run⟩ := run_readAll_values g travels real found readable settable whole values
    (by rw [length]; exact few) comes yields
  -- What happens aside up to here.
  have apart : aside.run σ = (readRest flag records trouble : Act S Unit).run τ := by
    rw [show aside = readAside d frames flag records from rfl, readAside,
      run_bind_ok (run_updateCount frames.length σ)]
    rfl
  have missing : trouble.missing = decide (.empty ∈ frames) := by
    rw [missing_takeValues d 0 values]
    rfl
  have asked : (flag = true ∨ trouble.missing = true) ↔ (flag = true ∨ .empty ∈ frames) := by
    rw [missing, decide_eq_true_eq]
  rw [run, apart, conclude, readRest]
  by_cases told : flag = true ∨ trouble.missing = true
  · -- The nodes are asked for their records.
    have line : (τ.withLine c).line.Yields table
        (listeners (nodes.map (answered table property))) [] := by
      rw [Session.line_withLine]
      apply after
    obtain ⟨c', silent, collected⟩ := run_nodeErrors g
      (by rw [List.length_map]; exact few) line
    have again : (nodes.map (answered table property)).map (fun n => n.1.record) = records :=
      List.map_map
    have many : (nodes.map (answered table property)).length = records.length := by
      rw [List.length_map, List.length_map]
    rw [again, many, Session.noted_withLine, (aside_takeRecords records 0).after_withLine,
      Session.withLine_withLine] at collected
    refine ⟨c', ?_, ?_⟩
    · rw [afterRead, if_pos (asked.mp told)]
      apply silent
    · rw [if_pos told, if_pos told, run_bind_ok collected,
        run_bind_ok (run_updateCount records.length τ)]
      rw [run_bind_ok (run_within _)]
      cases trouble.missing <;> cases trouble.refused <;> rfl
  · refine ⟨c, ?_, ?_⟩
    · rw [afterRead, if_neg fun h => told (asked.mpr h)]
      apply after
    · rw [if_neg told, if_neg told]
      cases trouble.refused <;> rfl

end DaisyChain.Gateway
