import DaisyChain.Proofs.Gateway.Passes

/-!
# Reads of an idle chain

What a read of an idle chain makes of a display.  Every module that there is room for takes the
value of its node, and the chain is left as it was (`Collected`); a node that cannot send its
value has its module passed over, and its fault is kept beside the module.  The read succeeds if
every node has a value and every module takes it (`readAll_collects`).  The number of modules follows
the number of nodes as far as the modules are counted (`size_readAll_of_counted`).
-/

namespace DaisyChain.Gateway

open Node

variable {M L : Type} {N : Nat} [Inhabited M]

/-! ### Entries -/

/-- The entry after its node has sent the given data, or has not been able to. -/
def Entry.fed (d : Definition M) (e : Entry M) : Except Fault (List UInt8) → Entry M
  | .ok data => { e with module := (d.deserialize data e.module).2 }
  | .error _ => e

/-- The entry with the record that its node has reported. -/
def Entry.told (e : Entry M) (record : Option Record) : Entry M :=
  { e with fault := record.map Record.fault, faultState := record.map Record.state }

omit [Inhabited M] in
/-- Keeping a record changes one entry. -/
theorem getElem?_reported (c : Collection M N) (index : Nat) (record : Option Record) (i : Nat) :
  (c.reported index (record.map Record.fault) (record.map Record.state)).entries[i]? =
    c.entries[i]?.map fun e => if index = i then e.told record else e
  := by
  simp only [Collection.reported, Collection.modifyEntry, List.getElem?_modify]
  by_cases here : index = i
  · simp only [here, if_true]
    rfl
  · simp only [here, if_false]
    rfl

/-- Records are kept beside the modules of a site. -/
theorem takeRecords_entries (records : List (Option Record)) (index : Nat) (s : Site L M N) :
  ∃ entries, (takeRecords records index s).2 = s.withEntries entries ∧
    entries.length = s.entries.length ∧
    ∀ i, entries[i]? = s.entries[i]?.map fun e =>
      if index ≤ i then (records[i - index]?.map e.told).getD e else e
  := by
  induction records generalizing index s with
  | nil =>
    refine ⟨s.entries, rfl, rfl, ?_⟩
    intro i
    simp
  | cons record rest ih =>
    let c := s.display.collection.reported index (record.map Record.fault) (record.map Record.state)
    obtain ⟨entries, state, length, each⟩ := ih (index + 1) (s.withEntries c.entries)
    refine ⟨entries, state, ?_, ?_⟩
    · rw [length]
      apply List.length_modify
    · intro i
      rw [each, Site.entries_withEntries, getElem?_reported, Option.map_map]
      change Option.map _ s.entries[i]? = _
      congr 1
      funext e
      simp only [Function.comp_apply]
      rcases Nat.lt_trichotomy index i with before | here | behind
      · rw [if_neg (Nat.ne_of_lt before), if_pos (Nat.succ_le_of_lt before),
          if_pos (Nat.le_of_lt before), show i - index = i - (index + 1) + 1 by omega,
          List.getElem?_cons_succ]
      · subst here
        rw [if_pos rfl, if_neg (Nat.not_succ_le_self _), if_pos (Nat.le_refl _), Nat.sub_self]
        rfl
      · rw [if_neg (Nat.ne_of_gt behind), if_neg (by omega), if_neg (by omega)]

/-! ### Values and faults -/

section Answers

omit [Inhabited M]

/-- The frame of a node that sends the given data, or is not able to. -/
def frameFrom : Except Fault (List UInt8) → Frame
  | .ok data => .data data
  | .error _ => .empty

/-- The record of a node that had none, after it has sent data or has not been able to. -/
def recordFrom : Except Fault (List UInt8) → Option Record
  | .ok _ => none
  | .error fault => some ⟨fault, .sending⟩

/-- A value that a node sends fits a frame. -/
theorem length_of_fetch {table : Table M} {m : M} {property : PropertyId} {data : List UInt8}
    (value : fetch table m property = .ok data) :
  data.length ≤ valueMax
  := by
  rw [fetch] at value
  split at value
  · contradiction
  · next d _ =>
    split at value
    · cases laid : d.serialize m with
      | error e =>
        rw [laid] at value
        contradiction
      | ok out =>
        rw [laid] at value
        cases value
        obtain ⟨bytes, wrapped⟩ := Definition.exists_wrap laid
        apply PropertySize.length_wrap wrapped
    · contradiction

variable (table : Table M) {property : PropertyId} (real : property.isErrorQuery = false)

include real

/-- A node answers a read with its value, or with an empty frame if it has none. -/
theorem said_eq_frameFrom (n : Engine × M) :
  said table property n = frameFrom (fetch table n.2 property)
  := by
  cases value : fetch table n.2 property with
  | ok data => apply said_of_fetch table real value (length_of_fetch value)
  | error fault =>
    rw [said, valueOf, real, if_neg Bool.false_ne_true, value]
    rfl

/-- A node without a record has one after a read if it could not send its value. -/
theorem answered_eq {n : Engine × M} (unrecorded : n.1.record = none) :
  answered table property n = ({ n.1 with record := recordFrom (fetch table n.2 property) }, n.2)
  := by
  cases value : fetch table n.2 property with
  | ok data =>
    have same : valueOf table property n = .ok data := by
      rw [valueOf, real, if_neg Bool.false_ne_true, value]
    rw [answered_of_value table real same (length_of_fetch value), recordFrom, ← unrecorded]
  | error fault =>
    simp only [answered, replyOf, answer, real, Bool.false_eq_true, if_false, value]
    rfl

/-- Nodes without records are, after a read, what they were before: if they have recorded faults,
they have been asked for them. -/
theorem afterRead_eq {nodes : List (Engine × M)} (unrecorded : ∀ n ∈ nodes, n.1.record = none) :
  afterRead table property nodes = nodes
  := by
  have forgotten : (nodes.map (answered table property)).map (answered table .errorQuery) =
      nodes := by
    rw [List.map_map]
    refine Eq.trans (List.map_congr_left fun n member => ?_) (List.map_id _)
    rw [Function.comp_apply, answered_errorQuery, answered_eq table real (unrecorded n member)]
    obtain ⟨⟨phase, since, staged, record⟩, m⟩ := n
    cases unrecorded _ member
    rfl
  rw [afterRead]
  split
  · apply forgotten
  · next untroubled =>
    refine Eq.trans (List.map_congr_left fun n member => ?_) (List.map_id _)
    have value : recordFrom (fetch table n.2 property) = none := by
      cases value : fetch table n.2 property with
      | ok data => rfl
      | error fault =>
        refine absurd (Or.inr (List.mem_map.mpr ⟨n, member, ?_⟩)) untroubled
        rw [said_eq_frameFrom table real, value]
        rfl
    rw [answered_eq table real (unrecorded n member), value]
    obtain ⟨⟨phase, since, staged, record⟩, m⟩ := n
    cases unrecorded _ member
    rfl

end Answers

/-! ### Categories of faults -/

/-- No category belongs to a union if none belongs to its parts. -/
theorem isEmpty_union (a b : Categories) :
  (a ∪ b).isEmpty = (a.isEmpty && b.isEmpty)
  := by
  rcases a with ⟨_ | _, _ | _, _ | _, _ | _⟩ <;> rcases b with ⟨_ | _, _ | _, _ | _, _ | _⟩ <;> rfl

/-- Every fault has a category. -/
theorem isEmpty_categoriesOf (fault : Option Fault) :
  (categoriesOf fault).isEmpty = fault.isNone
  := by
  rcases fault with _ | fault
  · rfl
  · cases fault <;> rfl

/-- No category belongs to the faults of nodes if no node has recorded one. -/
theorem isEmpty_categoriesOfAll (records : List (Option Record)) :
  (categoriesOfAll records).isEmpty = records.all Option.isNone
  := by
  have all (before : Categories) :
      (records.foldl (fun all record => all ∪ categoriesOf (record.map Record.fault))
        before).isEmpty = (before.isEmpty && records.all Option.isNone) := by
    induction records generalizing before with
    | nil => simp
    | cons record rest ih =>
      rw [List.foldl_cons, ih, isEmpty_union, isEmpty_categoriesOf, Option.isNone_map,
        List.all_cons, Bool.and_assoc]
  apply all .empty

/-- If some node has recorded a fault, the categories are those of the faults. -/
theorem atLeastOther_categoriesOfAll {records : List (Option Record)}
    (failed : ∃ r ∈ records, r ≠ none) :
  atLeastOther (categoriesOfAll records) = categoriesOfAll records
  := by
  have filled : records.all Option.isNone = false := by
    rw [List.all_eq_false]
    obtain ⟨r, member, some⟩ := failed
    exact ⟨r, member, by simpa using some⟩
  rw [atLeastOther, isEmpty_categoriesOfAll, filled, if_neg Bool.false_ne_true]

/-! ### What a read does aside -/

section Aside

variable (d : Definition M) (answers : List (Except Fault (List UInt8)))

omit [Inhabited M] in
/-- No node sends a placeholder. -/
theorem frameFrom_ne_placeholder :
  ∀ frame ∈ answers.map frameFrom, frame ≠ .placeholder
  := by
  intro frame member
  obtain ⟨answer, -, rfl⟩ := List.mem_map.mp member
  cases answer <;> simp [frameFrom]

omit [Inhabited M] in
/-- A frame is empty if a node has recorded a fault. -/
theorem empty_mem_iff :
  Frame.empty ∈ answers.map frameFrom ↔ ∃ r ∈ answers.map recordFrom, r ≠ none
  := by
  constructor
  · intro member
    obtain ⟨answer, among, is⟩ := List.mem_map.mp member
    refine ⟨_, List.mem_map_of_mem among, ?_⟩
    cases answer with
    | ok data => contradiction
    | error fault => simp [recordFrom]
  · rintro ⟨r, member, some⟩
    obtain ⟨answer, among, rfl⟩ := List.mem_map.mp member
    refine List.mem_map.mpr ⟨answer, among, ?_⟩
    cases answer with
    | ok data => contradiction
    | error fault => rfl

/-- What nodes have sent is put into the modules that there is room for. -/
theorem takeValues_answers (few : answers.length ≤ modulesMax) (σ : Session (Site L M N)) :
  let τ := σ.noted answers.length
  let c := σ.env.display.collection
  let frames := answers.map frameFrom
  ∃ entries, (takeValues d frames 0 {} τ.env).2 = σ.env.withEntries entries ∧
    entries.length = τ.collection.size ∧
    (∀ i < N, ∀ answer, answers[i]? = some answer →
      entries[i]? = some ((c.entry i).fed d answer)) ∧
    ((takeValues d frames 0 {} τ.env).1.refused = none ↔ ∀ i < entries.length, ∀ data,
      answers[i]? = some (.ok data) → (d.deserialize data (c.entry i).module).1 = .ok ())
  := by
  intro τ c frames
  obtain ⟨before, noted, fits, each⟩ := noteCount_site (N := N) σ.env few
  have start : τ.env.entries = [] ++ before := congrArg Site.entries noted
  obtain ⟨put, refused⟩ := takeValues_site d frames τ.env start {}
  have length := length_putAll d frames before
  have size : τ.collection.size = before.length := congrArg List.length start
  have framed {i : Nat} {answer : Except Fault (List UInt8)} (sent : answers[i]? = some answer) :
      frames[i]? = some (frameFrom answer) := by
    rw [List.getElem?_map, sent]
    rfl
  refine ⟨putAll d frames before, ?_, ?_, ?_, ?_⟩
  · apply put.trans
    rw [show τ.env = σ.env.withEntries before from noted, Site.withEntries_withEntries,
      List.nil_append]
  · exact length.trans size.symm
  · intro i room answer sent
    have within := (List.getElem?_eq_some_iff.mp sent).1
    have held : i < before.length := Nat.lt_of_lt_of_le (Nat.lt_min.mpr ⟨within, room⟩) fits.le_size
    rw [getElem?_putAll d (framed sent) (each i held)]
    cases answer <;> rfl
  · apply refused.trans
    constructor
    · rintro ⟨-, taken⟩ i within data sent
      apply taken (.data data, c.entry i) _ data rfl
      apply List.mem_of_getElem?
      apply List.getElem?_zip_eq_some.mpr ⟨framed sent, each i (length ▸ within)⟩
    · intro taken
      refine ⟨rfl, ?_⟩
      rintro ⟨frame, e⟩ member data rfl
      obtain ⟨i, here⟩ := List.mem_iff_getElem?.mp member
      obtain ⟨sent, entry⟩ := List.getElem?_zip_eq_some.mp here
      rw [List.getElem?_map, Option.map_eq_some_iff] at sent
      obtain ⟨answer, sent, is⟩ := sent
      have within := (List.getElem?_eq_some_iff.mp entry).1
      have same : e = c.entry i := Option.some.inj (entry.symm.trans (each i within))
      cases answer with
      | ok data' =>
        cases is
        rw [same]
        apply taken i (length ▸ within) data sent
      | error fault => contradiction

/-- A read takes the values first. -/
theorem run_readAside (records : List (Option Record)) (σ : Session (Site L M N)) :
  let take : StateM (Site L M N) Trouble := takeValues d (answers.map frameFrom) 0 {}
  (readAside d (answers.map frameFrom) false records : Act _ Unit).run σ =
    (readRest false records (take (σ.noted answers.length).env).1 : Act _ Unit).run
      ((σ.noted answers.length).after take)
  := by
  rw [readAside, run_bind_ok (run_updateCount _ σ), List.length_map]
  rfl

/-- What a read of nodes without records does aside, if all of them have values: it succeeds if
every module takes the value of its node. -/
theorem readAside_of_complete (few : answers.length ≤ modulesMax) (σ : Session (Site L M N))
    (complete : ∀ r ∈ answers.map recordFrom, r = none) :
  let c := σ.env.display.collection
  let result := (readAside d (answers.map frameFrom) false (answers.map recordFrom) :
    Act _ Unit).run σ
  ∃ entries, result.2 = ⟨σ.env.withEntries entries, answers.length⟩ ∧
    entries.length = (σ.noted answers.length).collection.size ∧
    (∀ i < N, ∀ answer, answers[i]? = some answer →
      entries[i]? = some ((c.entry i).fed d answer)) ∧
    (result.1 = .ok () ↔ ∀ i < entries.length, ∀ data,
      answers[i]? = some (.ok data) → (d.deserialize data (c.entry i).module).1 = .ok ())
  := by
  intro c result
  let frames := answers.map frameFrom
  obtain ⟨entries, state, size, each, taken⟩ := takeValues_answers d answers few σ
  let trouble := (takeValues d frames 0 {} (σ.noted answers.length).env).1
  have missing : trouble.missing = false := by
    rw [missing_takeValues d 0 (frameFrom_ne_placeholder answers), Bool.false_or,
      decide_eq_false_iff_not, empty_mem_iff]
    rintro ⟨r, member, some⟩
    apply some (complete r member)
  have run : result = (readRest false (answers.map recordFrom) trouble : Act _ Unit).run
      ⟨σ.env.withEntries entries, answers.length⟩ := by
    rw [← state]
    apply run_readAside
  rw [run, readRest, missing, if_neg (by simp)]
  refine ⟨entries, ?_, size, each, Iff.trans ?_ taken⟩
  · cases trouble.refused <;> rfl
  · change _ ↔ trouble.refused = none
    cases trouble.refused with
    | none => exact iff_of_true rfl rfl
    | some failure => exact iff_of_false (fun is => by cases is) (fun is => by cases is)

/-- What a read of nodes without records does aside, if some of them have no value: it fails with
the categories of their faults, and what every node reports is kept. -/
theorem readAside_of_missing (few : answers.length ≤ modulesMax) (σ : Session (Site L M N))
    (failed : ∃ r ∈ answers.map recordFrom, r ≠ none) :
  let c := σ.env.display.collection
  let result := (readAside d (answers.map frameFrom) false (answers.map recordFrom) :
    Act _ Unit).run σ
  ∃ entries, result = (.error (.nodes (categoriesOfAll (answers.map recordFrom))),
      ⟨σ.env.withEntries entries, answers.length⟩) ∧
    entries.length = (σ.noted answers.length).collection.size ∧
    ∀ i < N, ∀ answer, answers[i]? = some answer →
      entries[i]? = some (((c.entry i).fed d answer).told (recordFrom answer))
  := by
  intro c result
  let frames := answers.map frameFrom
  let records := answers.map recordFrom
  obtain ⟨fed, state, size, each, -⟩ := takeValues_answers d answers few σ
  let trouble := (takeValues d frames 0 {} (σ.noted answers.length).env).1
  let τ : Session (Site L M N) := ⟨σ.env.withEntries fed, answers.length⟩
  have missing : trouble.missing = true := by
    rw [missing_takeValues d 0 (frameFrom_ne_placeholder answers), Bool.false_or,
      decide_eq_true_iff, empty_mem_iff]
    apply failed
  have run : result = (readRest false records trouble : Act _ Unit).run τ := by
    rw [show τ = ⟨_, answers.length⟩ from rfl, ← state]
    apply run_readAside
  have counted : τ.noted records.length = τ := by
    have held : σ.collection.Noted answers.length τ.collection :=
      (σ.noted_collection few).of_size_eq size
    have same : (noteCount records.length τ.env).2 = τ.env := by
      rw [List.length_map]
      apply noteCount_site_same _ few held.counted
    rw [Session.noted, same, List.length_map]
  obtain ⟨entries, kept, length, told⟩ := takeRecords_entries records 0 τ.env
  refine ⟨entries, ?_, ?_, ?_⟩
  · rw [run, readRest, missing, if_pos (Or.inr rfl), run_bind_ok (run_updateCount _ τ), counted,
      run_bind_ok (run_within _), if_pos rfl, atLeastOther_categoriesOfAll failed]
    rw [Session.after, kept]
    rfl
  · exact length.trans size
  · intro i room answer sent
    rw [told, Site.entries_withEntries, each i room answer sent, Option.map_some,
      if_pos (Nat.zero_le _), Nat.sub_zero, List.getElem?_map, sent]
    rfl

end Aside

/-! ### Reads of idle chains -/

/-- A read has put what the nodes of a chain sent into the modules that there is room for, each
into the module of its node, and has left the chain as it was. -/
structure Collected (d : Definition M) (answers : List (Except Fault (List UInt8)))
    (σ σ' : Session (Site (Chain M) M N)) : Prop where
  counted : σ'.chainLength = answers.length
  noted : σ.collection.Noted answers.length σ'.collection
  taken : ∀ i < N, ∀ answer, answers[i]? = some answer → ∃ e,
    σ'.collection.entries[i]? = some e ∧
      e.module = ((σ.collection.entry i).fed d answer).module ∧
      e.marks = (σ.collection.entry i).marks
  others : σ'.env.display = (σ.env.withEntries σ'.collection.entries).display
  idle : σ'.line.Idle
  kept : σ'.line.pairs = σ.line.pairs

/-- A session with other entries in its collection and another chain, in which every module has
been fed what its node sent. -/
theorem collected_of_entries {d : Definition M} {answers : List (Except Fault (List UInt8))}
    {σ : Session (Site (Chain M) M N)} {entries : List (Entry M)} {c : Chain M}
    (few : answers.length ≤ modulesMax)
    (size : entries.length = (σ.noted answers.length).collection.size)
    (taken : ∀ i < N, ∀ answer, answers[i]? = some answer → ∃ e, entries[i]? = some e ∧
      e.module = ((σ.collection.entry i).fed d answer).module ∧
      e.marks = ((σ.collection.entry i).fed d answer).marks)
    (idle : c.Idle) (kept : c.pairs = σ.line.pairs) :
  Collected d answers σ ((⟨σ.env.withEntries entries, answers.length⟩ : Session _).withLine c)
  := by
  refine ⟨rfl, (σ.noted_collection few).of_size_eq size, ?_, rfl, ?_, ?_⟩
  · intro i room answer sent
    obtain ⟨e, entry, module, marks⟩ := taken i room answer sent
    refine ⟨e, entry, module, marks.trans ?_⟩
    cases answer <;> rfl
  · rw [Session.line_withLine]
    apply idle
  · rw [Session.line_withLine]
    apply kept

/-- A read of an idle chain does with the replica what the values and the faults of its nodes ask for,
and leaves the chain as it was. -/
theorem run_readAll_idle {σ : Session (Site (Chain M) M N)} {property : PropertyId}
    {d : Definition M} (g : Gateway M) (real : property.number.toNat ≤ PropertyId.max)
    (found : g.table.find? property = some d) (readable : d.access.readable = true)
    (settable : d.set.isSome) (idle : σ.line.Idle)
    (few : σ.line.nodes.length < countModulus) :
  let answers := σ.line.nodes.map fun node => fetch σ.line.table node.module property
  let result := (readAside d (answers.map frameFrom) false (answers.map recordFrom) :
    Act _ Unit).run σ
  ∃ c : Chain M, c.Idle ∧ c.pairs = σ.line.pairs ∧
    (g.readAll property : Act _ Unit).run σ = (result.1, result.2.withLine c)
  := by
  intro answers
  let pairs := σ.line.nodes.map ChainNode.pair
  have real' := PropertyId.isErrorQuery_of_le real
  have unrecorded : ∀ n ∈ pairs, n.1.record = none := idle.unrecorded_pairs
  have count : pairs.length = σ.line.nodes.length := List.length_map _
  -- What the nodes answer, and what has been recorded by then.
  have said : pairs.map (said σ.line.table property) = answers.map frameFrom := by
    rw [List.map_map, List.map_map]
    apply List.map_congr_left fun node _ => said_eq_frameFrom _ real' node.pair
  have recorded : (pairs.map fun n => (answered σ.line.table property n).1.record) =
      answers.map recordFrom := by
    simp only [pairs, answers, List.map_map]
    apply List.map_congr_left
    intro node member
    simp only [Function.comp_apply]
    rw [answered_eq _ real' (unrecorded _ (List.mem_map_of_mem member))]
    rfl
  have quietly : (pairs.any fun n => n.1.record.isSome) = false := by
    rw [List.any_eq_false]
    intro n member
    rw [unrecorded n member]
    simp
  obtain ⟨c, after, run⟩ := run_readAll g (PropertyId.travels_of_le real) real' found readable
    settable (by rw [count]; exact few) idle.yields
  rw [afterRead_eq σ.line.table real' unrecorded] at after
  rw [said, quietly, recorded] at run
  exact ⟨c, after.idle unrecorded, after.pairs_eq idle.listening_pairs, run⟩

/-- A read of an idle chain collects the values of all nodes: the collection counts a module for every
node, up to its capacity, and each of these has been handed the value of its node.  If every node has
a value, the read succeeds if and only if every module takes the value of its node.  If some node has
none, the read fails with the categories of the faults, and the fault of every node is kept beside its
module. -/
theorem readAll_collects {σ : Session (Site (Chain M) M N)} {property : PropertyId}
    {d : Definition M} (g : Gateway M) (real : property.number.toNat ≤ PropertyId.max)
    (found : g.table.find? property = some d) (readable : d.access.readable = true)
    (settable : d.set.isSome) (idle : σ.line.Idle)
    (few : σ.line.nodes.length < countModulus) :
  let answers := σ.line.nodes.map fun node => fetch σ.line.table node.module property
  let records := answers.map recordFrom
  let result := (g.readAll property : Act _ Unit).run σ
  Collected d answers σ result.2 ∧
    ((∀ r ∈ records, r = none) → (result.1 = .ok () ↔ ∀ i < result.2.collection.size,
      ∀ data, answers[i]? = some (.ok data) →
        (d.deserialize data (σ.collection.entry i).module).1 = .ok ())) ∧
    ((∃ r ∈ records, r ≠ none) → result.1 = .error (.nodes (categoriesOfAll records)) ∧
      ∀ i < N, ∀ r, records[i]? = some r → ∃ e, result.2.collection.entries[i]? = some e ∧
        e.fault = r.map Record.fault ∧ e.faultState = r.map Record.state)
  := by
  intro answers records result
  have countable : answers.length ≤ modulesMax := by
    rw [List.length_map]
    apply le_modulesMax few
  obtain ⟨c, idle', kept, run⟩ := run_readAll_idle g real found readable settable idle few
  by_cases complete : ∀ r ∈ records, r = none
  · obtain ⟨entries, state, size, each, taken⟩ := readAside_of_complete d answers countable σ
      complete
    have ends : result.2 = (⟨σ.env.withEntries entries, answers.length⟩ : Session _).withLine c :=
      (congrArg Prod.snd run).trans (congrArg (fun τ => Session.withLine τ c) state)
    refine ⟨?_, fun _ => ?_, ?_⟩
    · rw [ends]
      apply collected_of_entries countable size _ idle' kept
      intro i room answer sent
      exact ⟨_, each i room answer sent, rfl, rfl⟩
    · rw [show result.1 = _ from congrArg Prod.fst run, ends]
      apply taken
    · rintro ⟨r, member, some⟩
      apply (some (complete r member)).elim
  · have failed : ∃ r ∈ records, r ≠ none := by
      simpa only [Classical.not_forall, exists_prop] using complete
    obtain ⟨entries, state, size, each⟩ := readAside_of_missing d answers countable σ failed
    rw [state] at run
    rw [show result = _ from run]
    refine ⟨?_, fun all => absurd all complete, fun _ => ⟨rfl, ?_⟩⟩
    · apply collected_of_entries countable size _ idle' kept
      intro i room answer sent
      exact ⟨_, each i room answer sent, rfl, rfl⟩
    · intro i room r here
      rw [List.getElem?_map, Option.map_eq_some_iff] at here
      obtain ⟨answer, sent, rfl⟩ := here
      exact ⟨_, each i room answer sent, rfl, rfl⟩

/-- A property that a module has no value of while it is zero. -/
def shy : Definition UInt8 where
  id := ⟨6⟩
  name := "offset"
  access := .readWrite
  size := .static 1
  get := some fun m _ => if m = 0 then none else some [m]
  set := some fun bytes _ => (true, bytes.headD 0)
  compare := some fun a b => a == b

/-- Three nodes, the second of which has no value, and a display of one module that has room for
another one. -/
def shySession : Session (Site (Chain UInt8) UInt8 2) where
  env := {
    line := Chain.ofModules ⟨[shy]⟩ [3, 0, 5] 1024 0
    display := { collection := { entries := [{ module := 9 }] } } }

/-- The first module takes the value of its node, the second one is passed over, and the fault of
its node is reported. -/
theorem readAll_collects_shy :
  let result := ((⟨⟨[shy]⟩, {}⟩ : Gateway UInt8).readAll ⟨6⟩ : Act _ Unit).run shySession
  Collected shy [.ok [3], .error .getFailed, .ok [5]] shySession result.2 ∧
    result.1 = .error (.nodes (categoriesOf (some .getFailed))) ∧
    ∃ e, result.2.collection.entries[1]? = some e ∧ e.fault = some .getFailed ∧
      e.faultState = some .sending
  := by
  obtain ⟨collected, -, failed⟩ := readAll_collects (σ := shySession) ⟨⟨[shy]⟩, {}⟩
    (show (⟨6⟩ : PropertyId).number.toNat ≤ PropertyId.max by decide) rfl rfl rfl
    (Chain.idle_ofModules _ _ (by decide) _) (by decide)
  obtain ⟨reported, kept⟩ := failed ⟨some ⟨.getFailed, .sending⟩, by decide, by decide⟩
  exact ⟨collected, reported, kept 1 (by decide) _ rfl⟩

/-- A read of an idle chain adds no module and takes none away if one is counted for every node before,
up to the capacity. -/
theorem size_readAll_of_counted {σ : Session (Site (Chain M) M N)} {property : PropertyId}
    {d : Definition M} (g : Gateway M) (real : property.number.toNat ≤ PropertyId.max)
    (found : g.table.find? property = some d) (readable : d.access.readable = true)
    (settable : d.set.isSome) (idle : σ.line.Idle) (few : σ.line.nodes.length < countModulus)
    (counted : σ.collection.counted = min σ.line.nodes.length N) :
  ((g.readAll property : Act _ Unit).run σ).2.collection.size = σ.collection.size
  := by
  let answers := σ.line.nodes.map fun node => fetch σ.line.table node.module property
  have many : answers.length = σ.line.nodes.length := List.length_map _
  have countable : answers.length ≤ modulesMax := many ▸ le_modulesMax few
  have same : (σ.noted answers.length).collection = σ.collection :=
    congrArg (fun s : Site (Chain M) M N => s.display.collection)
      (noteCount_site_same σ.env countable (many ▸ counted))
  obtain ⟨c, -, -, run⟩ := run_readAll_idle g real found readable settable idle few
  rw [run]
  by_cases complete : ∀ r ∈ answers.map recordFrom, r = none
  · obtain ⟨entries, state, size, -⟩ := readAside_of_complete d answers countable σ complete
    rw [same] at size
    rw [state]
    exact size
  · have failed : ∃ r ∈ answers.map recordFrom, r ≠ none := by
      simpa only [Classical.not_forall, exists_prop] using complete
    obtain ⟨entries, state, size, -⟩ := readAside_of_missing d answers countable σ failed
    rw [same] at size
    rw [state]
    exact size

/-- Three nodes, and a display that has more modules than can be counted, and counts three. -/
def crowd : Session (Site (Chain UInt8) UInt8 70000) where
  env := {
    line := Chain.ofModules ⟨[shy]⟩ [3, 4, 5] 1024 0
    display := { collection := { entries := List.replicate 65539 { module := 9 } } } }

/-- These nodes are idle. -/
theorem idle_crowd :
  crowd.line.Idle
  := Chain.idle_ofModules _ _ (by decide) _

/-- This display has more modules than can be counted. -/
theorem size_crowd :
  crowd.collection.size = 65539
  := List.length_replicate

/-- It counts as many of them as there are nodes. -/
theorem counted_crowd :
  crowd.collection.counted = 3
  := by rw [Collection.counted, size_crowd, modulesMax]

/-- All these modules stay when the nodes are read. -/
theorem readAll_leaves_crowd :
  let result := ((⟨⟨[shy]⟩, {}⟩ : Gateway UInt8).readAll ⟨6⟩ : Act _ Unit).run crowd
  crowd.line.Idle ∧ min crowd.line.nodes.length 70000 = 3 ∧ result.2.collection.size = 65539
  := by
  have left := size_readAll_of_counted (σ := crowd) ⟨⟨[shy]⟩, {}⟩
    (show (⟨6⟩ : PropertyId).number.toNat ≤ PropertyId.max by decide) rfl rfl rfl idle_crowd
    (by decide) counted_crowd
  exact ⟨idle_crowd, rfl, left.trans size_crowd⟩

end DaisyChain.Gateway
