import DaisyChain.Proofs.Chain.Waking
import DaisyChain.Proofs.Gateway.Sites
import DaisyChain.SplitFlap.Properties

/-!
# Reads of a quiet chain

What a read of a quiet chain, whose nodes listen or recover, may claim.  If no node is late, a
read that succeeds has found every node (`complete_of_readAll`).  If some node is late, a read of
any property but zero fails (`run_readAll_late`).  A late node answers as if it asked for
property zero, so a read of that property goes on as if the chain began behind the last late
node: it may succeed without having found all nodes (`run_readAll_behind`).
-/

namespace DaisyChain.Gateway

open Node

/-! ### Complete reads -/

section Complete

variable {M : Type} {N : Nat}

/-- The module is what taking the given data makes of some module. -/
def Holds (d : Definition M) (m : M) (data : List UInt8) : Prop :=
  ∃ before, d.deserialize data before = (.ok (), m)

/-- In the second session every node of the first one has been found, and every module that there
is room for holds the value of its node. -/
structure Complete (d : Definition M) (σ σ' : Session (Site (Chain M) M N)) : Prop where
  counted : σ'.chainLength = σ.line.nodes.length
  noted : σ.collection.Noted σ.line.nodes.length σ'.collection
  taken : ∀ i < min σ.line.nodes.length N, ∃ node m data, σ.line.nodes[i]? = some node ∧
    σ'.collection.module? i = some m ∧
    fetch σ.line.table node.module d.id = .ok data ∧ Holds d m data

variable {L : Type} [Inhabited M]

/-- What is left to do of a read keeps the modules, and succeeds only if nothing went wrong. -/
theorem readRest_ok {flag : Bool} {records : List (Option Record)} {trouble : Trouble}
    {τ σ' : Session (Site L M N)} (length : τ.chainLength = records.length)
    (same : (noteCount records.length τ.env).2 = τ.env)
    (ok : (readRest flag records trouble : Act _ Unit).run τ = (.ok (), σ')) :
  σ'.chainLength = τ.chainLength ∧
    σ'.env.entries.map Entry.module = τ.env.entries.map Entry.module ∧
    trouble.missing = false ∧ trouble.refused = none
  := by
  rw [readRest] at ok
  by_cases told : flag = true ∨ trouble.missing = true
  · obtain ⟨entries, kept, modules⟩ := takeRecords_site records 0 (τ.noted records.length).env
    rw [if_pos told, run_bind_ok (run_updateCount records.length τ),
      run_bind_ok (run_within _)] at ok
    cases lost : trouble.missing with
    | true =>
      rw [lost] at ok
      cases ok
    | false =>
      rw [lost] at ok
      cases failed : trouble.refused with
      | some failure =>
        rw [failed] at ok
        cases ok
      | none =>
        rw [failed] at ok
        cases ok
        refine ⟨length.symm, ?_, rfl, rfl⟩
        rw [← same]
        apply (congrArg (fun s => s.entries.map Entry.module) kept).trans modules
  · rw [if_neg told] at ok
    cases failed : trouble.refused with
    | some failure =>
      rw [failed] at ok
      cases ok
    | none =>
      rw [failed] at ok
      have ends : τ = σ' := congrArg Prod.snd ok
      subst ends
      exact ⟨rfl, rfl, Bool.eq_false_iff.mpr fun h => told (Or.inr h), rfl⟩

/-- What a read does aside puts the value of every node into its module, if it succeeds. -/
theorem readAside_ok (d : Definition M) {frames : List Frame} {flag : Bool}
    {records : List (Option Record)} (values : ∀ frame ∈ frames, frame ≠ .placeholder)
    (length : records.length = frames.length) (few : frames.length ≤ modulesMax)
    {σ σ' : Session (Site L M N)}
    (ok : (readAside d frames flag records : Act _ Unit).run σ = (.ok (), σ')) :
  σ'.chainLength = frames.length ∧
    σ.env.display.collection.Noted frames.length σ'.env.display.collection ∧
    ∀ i < min frames.length N, ∃ m data, frames[i]? = some (.data data) ∧
      σ'.env.display.collection.module? i = some m ∧ Holds d m data
  := by
  let τ := σ.noted frames.length
  obtain ⟨before, noted, fits, -⟩ := noteCount_site (N := N) σ.env few
  have start : τ.env.entries = [] ++ before := by
    rw [show τ.env = _ from noted]
    rfl
  obtain ⟨put, refused⟩ := takeValues_site d frames τ.env start {}
  let trouble := (takeValues d frames 0 {} τ.env).1
  let τ' := τ.after (takeValues d frames 0 {})
  have held : τ'.env.entries = putAll d frames before := congrArg Site.entries put
  have missing : trouble.missing = decide (.empty ∈ frames) := by
    rw [missing_takeValues d 0 values]
    rfl
  have stays {s : Site L M N} (entries : s.entries.length = (putAll d frames before).length) :
      σ.env.display.collection.Noted frames.length s.display.collection :=
    fits.of_size_eq (entries.trans (length_putAll d frames before))
  have same : (noteCount records.length τ'.env).2 = τ'.env := by
    rw [length]
    apply noteCount_site_same _ few (stays (congrArg List.length held)).counted
  rw [readAside, run_bind_ok (run_updateCount frames.length σ), run_bind_ok (run_within _)] at ok
  obtain ⟨counted, modules, found, accepted⟩ := readRest_ok (τ := τ') length.symm same ok
  rw [held] at modules
  refine ⟨counted, ?_, ?_⟩
  · have sizes := congrArg List.length modules
    rw [List.length_map, List.length_map] at sizes
    apply stays sizes
  · intro i below
    obtain ⟨e, entry⟩ : ∃ e, before[i]? = some e :=
      ⟨_, List.getElem?_eq_getElem (Nat.lt_of_lt_of_le below fits.le_size)⟩
    obtain ⟨frame, sent⟩ : ∃ frame, frames[i]? = some frame :=
      ⟨_, List.getElem?_eq_getElem (Nat.lt_of_lt_of_le below (Nat.min_le_left _ _))⟩
    have takes : e.Takes d frame := by
      apply (refused.mp accepted).2 (frame, e)
      apply List.mem_of_getElem?
      apply List.getElem?_zip_eq_some.mpr ⟨sent, entry⟩
    have module : σ'.env.display.collection.module? i = some (e.put d frame).module := by
      have same := congrArg (fun l => l[i]?) modules
      simp only [List.getElem?_map, getElem?_putAll d sent entry] at same
      apply same
    cases frame with
    | placeholder => apply (values _ (List.mem_of_getElem? sent) rfl).elim
    | empty =>
      have found : trouble.missing = false := found
      rw [missing, decide_eq_false_iff_not] at found
      apply (found (List.mem_of_getElem? sent)).elim
    | data data => exact ⟨_, data, sent, module, e.module, Prod.ext (takes data rfl) rfl⟩

end Complete

/-! ### Late nodes -/

section Late

variable {S M : Type} [Transport S] [OnChain S M] [Replica S M]
variable {σ : Session S} {property : PropertyId} {d : Definition M}

/-- A read of a quiet chain first lets its nodes wake. -/
theorem run_readAll_wake (g : Gateway M) (travels : property.Travels)
    (real : property.isErrorQuery = false) (found : g.table.find? property = some d)
    (readable : d.access.readable = true) (settable : d.set.isSome) (quiet : σ.line.Quiet) :
  (g.readAll property : Act S Unit).run σ =
    (g.readAll property : Act S Unit).run (σ.withLine σ.line.wake)
  := by
  have header : ActionHeader.of? .read false property 0 = some ⟨.read, false, property, 0⟩ :=
    travels.of?_eq (by simp) _ (by decide)
  have cleared : (flush : Act S Unit).run σ =
      (flush : Act S Unit).run (σ.withLine σ.line.wake) := by
    rw [run_flush_eq, run_flush_eq, Session.line_withLine, Session.withLine_withLine,
      quiet.clearExit_eq]
  have opened : (g.openRead property : Act S RawHeader).run σ =
      (g.openRead property : Act S RawHeader).run (σ.withLine σ.line.wake) := by
    rw [openRead, header]
    apply run_bind_congr _ cleared
  rw [readAll_eq g real found readable settable]
  apply run_bind_congr _ opened

/-- The nodes of a quiet chain listen or recover once they have been let wake. -/
theorem ready_roused (now : UInt32) (nodes : List (ChainNode M)) :
  ∀ b ∈ nodes.map (ChainNode.roused now), b.Ready
  := by
  intro b member
  obtain ⟨node, -, rfl⟩ := List.mem_map.mp member
  unfold ChainNode.roused
  split
  · apply Or.inr ⟨_, _, rfl⟩
  · apply Or.inl ⟨_, _, rfl⟩

/-- A late node recovers. -/
theorem recovers_roused {now : UInt32} {node : ChainNode M} (late : node.Late now) :
  (node.roused now).Recovers
  := by
  rw [ChainNode.roused, if_pos late]
  exact ⟨_, _, rfl⟩

/-- Nodes that are not late listen. -/
theorem roused_of_awake {now : UInt32} {nodes : List (ChainNode M)}
    (awake : ∀ node ∈ nodes, ¬node.Late now) :
  nodes.map (ChainNode.roused now) = listeners (nodes.map ChainNode.pair)
  := by
  rw [listeners, List.map_map]
  apply List.map_congr_left
  intro node member
  apply if_neg (awake node member)

variable (g : Gateway M) (travels : property.Travels) (real : property.isErrorQuery = false)
    (found : g.table.find? property = some d) (readable : d.access.readable = true)
    (settable : d.set.isSome) (quiet : σ.line.Quiet)

include travels real found readable settable quiet

/-- A read of another property than zero fails if some node is late. -/
theorem run_readAll_late (other : property ≠ ⟨0⟩)
    (some : ∃ node ∈ σ.line.nodes, node.Late σ.line.now) :
  ((g.readAll property : Act S Unit).run σ).1 = .error .headerMismatch
  := by
  have late : ∃ b ∈ σ.line.nodes.map (ChainNode.roused σ.line.now), b.Recovers := by
    obtain ⟨node, member, late⟩ := some
    exact ⟨_, List.mem_map_of_mem member, recovers_roused late⟩
  obtain ⟨flag, count, more, damaged⟩ := exists_flow_late σ.line.table
    (ready_roused σ.line.now σ.line.nodes) late property false 0 []
  rw [List.append_nil] at damaged
  have yields : (σ.withLine σ.line.wake).line.Yields σ.line.table
      (σ.line.nodes.map (ChainNode.roused σ.line.now)) [] := by
    rw [Session.line_withLine]
    apply quiet.yields_wake
  obtain ⟨c, -, opened⟩ := run_openRead g travels yields (Prod.ext rfl damaged)
  have refused : ¬((ActionHeader.pack ⟨.read, flag, ⟨0⟩, count⟩).evenParity ∧
      (ActionHeader.pack ⟨.read, flag, ⟨0⟩, count⟩).action = .read ∧
      (ActionHeader.pack ⟨.read, flag, ⟨0⟩, count⟩).property = property) := by
    rintro ⟨-, -, same⟩
    apply other
    rw [← same, ActionHeader.property_pack]
    rfl
  rw [if_neg refused] at opened
  rw [run_readAll_wake g travels real found readable settable quiet,
    readAll_eq g real found readable settable, run_bind_error opened]

omit travels real in
/-- A read of property zero goes on as if the chain began behind the last late node. -/
theorem run_readAll_behind [Apart S M] (zero : property = ⟨0⟩)
    {front behind : List (ChainNode M)} {node : ChainNode M}
    (split : σ.line.nodes = front ++ node :: behind) (late : node.Late σ.line.now)
    (awake : ∀ other ∈ behind, ¬other.Late σ.line.now) (few : behind.length < countModulus) :
  let nodes := behind.map ChainNode.pair
  let frames := nodes.map (said σ.line.table property)
  let flag := nodes.any fun n => n.1.record.isSome
  let τ := σ.noted frames.length
  ∃ c : Chain M, (g.readAll property : Act S Unit).run σ =
    (conclude g flag (takeValues d frames 0 {} τ.env).1 : Act S Unit).run
      ((τ.after (takeValues d frames 0 {})).withLine c)
  := by
  intro nodes frames flag τ
  subst zero
  have travels : (⟨0⟩ : PropertyId).Travels := by decide
  have length : frames.length = nodes.length := List.length_map _
  have short : nodes.length < countModulus := by
    rw [show nodes.length = behind.length from List.length_map _]
    apply few
  have roused : σ.line.nodes.map (ChainNode.roused σ.line.now) =
      front.map (ChainNode.roused σ.line.now) ++
        node.roused σ.line.now :: listeners nodes := by
    rw [split, List.map_append, List.map_cons, roused_of_awake awake]
  obtain ⟨bodies, out, comes⟩ := flow_read_behind σ.line.table
    (ready_roused σ.line.now front) (recovers_roused late) short ⟨0⟩ false 0 []
  rw [List.append_nil, ← roused, ← length] at comes
  have whole : List.Forall₂ Frame.Whole
      (nodes.map fun n => (replyOf σ.line.table ⟨0⟩ n).1) frames :=
    whole_replies σ.line.table ⟨0⟩ nodes
  have values : ∀ frame ∈ frames, frame ≠ .placeholder := said_answers σ.line.table ⟨0⟩ nodes
  have yields : (σ.withLine σ.line.wake).line.Yields σ.line.table
      (σ.line.nodes.map (ChainNode.roused σ.line.now)) [] := by
    rw [Session.line_withLine]
    apply quiet.yields_wake
  obtain ⟨c, -, run⟩ := run_readAll_values g travels (by decide) found readable settable whole
    values (by rw [length]; exact short) comes yields
  refine ⟨c, ?_⟩
  have taken := aside_takeValues (S := S) d frames 0 {}
  rw [run_readAll_wake g travels (by decide) found readable settable quiet, run,
    Session.noted_withLine, taken.answer_withLine, taken.after_withLine,
    Session.withLine_withLine]

end Late

/-! ### Reads of sites -/

section Sites

variable {M : Type} {N : Nat} [Inhabited M]
variable {σ σ' : Session (Site (Chain M) M N)} {property : PropertyId} {d : Definition M}

/-- A read that succeeds, of a chain without late nodes, is complete. -/
theorem complete_of_readAll (g : Gateway M) (travels : property.Travels)
    (real : property.isErrorQuery = false) (found : g.table.find? property = some d)
    (readable : d.access.readable = true) (settable : d.set.isSome)
    (quiet : σ.line.Quiet) (few : σ.line.nodes.length < countModulus)
    (awake : ∀ node ∈ σ.line.nodes, ¬node.Late σ.line.now)
    (ok : (g.readAll property : Act _ Unit).run σ = (.ok (), σ')) :
  Complete d σ σ'
  := by
  let nodes := σ.line.nodes.map ChainNode.pair
  let frames := nodes.map (said σ.line.table property)
  have size : nodes.length = σ.line.nodes.length := List.length_map _
  have length : frames.length = σ.line.nodes.length := (List.length_map _).trans size
  have yields : (σ.withLine σ.line.wake).line.Yields σ.line.table (listeners nodes) [] := by
    rw [Session.line_withLine, ← roused_of_awake awake]
    apply quiet.yields_wake
  obtain ⟨c, -, run⟩ := run_readAll g travels real found readable settable
    (by rw [size]; exact few) yields
  rw [run_readAll_wake g travels real found readable settable quiet, run] at ok
  cases ended : (readAside d frames (nodes.any fun n => n.1.record.isSome)
      (nodes.map fun n => (answered σ.line.table property n).1.record) : Act _ Unit).run
        (σ.withLine σ.line.wake) with
  | mk result τ =>
    rw [ended] at ok
    obtain ⟨rfl, rfl⟩ := Prod.mk.inj ok
    have values : ∀ frame ∈ frames, frame ≠ .placeholder :=
      said_answers σ.line.table property nodes
    obtain ⟨counted, noted, taken⟩ := readAside_ok d values
      ((List.length_map _).trans (List.length_map _).symm)
      (by rw [length]; exact le_modulesMax few) ended
    rw [length] at counted noted taken
    refine ⟨counted, noted, ?_⟩
    intro i below
    obtain ⟨m, data, sent, held, holds⟩ := taken i below
    obtain ⟨node, here⟩ : ∃ node, σ.line.nodes[i]? = some node :=
      ⟨_, List.getElem?_eq_getElem (Nat.lt_of_lt_of_le below (Nat.min_le_left _ _))⟩
    have answers : said σ.line.table property node.pair = .data data := by
      rw [List.getElem?_map, List.getElem?_map, here] at sent
      apply Option.some.inj sent
    refine ⟨node, m, data, here, held, ?_, holds⟩
    rw [Table.id_of_find? found]
    apply fetch_of_said _ real answers

/-- The node has a value of the property, and no module refuses that value. -/
def Sends (table : Table M) (d : Definition M) (node : ChainNode M) : Prop :=
  ∃ data, fetch table node.module d.id = .ok data ∧ data.length ≤ valueMax ∧
    ∀ m, (d.deserialize data m).1 = .ok ()

/-- A read of property zero succeeds if the nodes behind the last late one have values and no
records, and takes them for the whole chain. -/
theorem readAll_behind (g : Gateway M) (found : g.table.find? ⟨0⟩ = some d)
    (readable : d.access.readable = true) (settable : d.set.isSome) (quiet : σ.line.Quiet)
    (few : σ.line.nodes.length < countModulus) {front behind : List (ChainNode M)}
    {node : ChainNode M} (split : σ.line.nodes = front ++ node :: behind)
    (late : node.Late σ.line.now) (awake : ∀ other ∈ behind, ¬other.Late σ.line.now)
    (unrecorded : ∀ other ∈ behind, other.engine.record = none)
    (sends : ∀ other ∈ behind, Sends σ.line.table d other) :
  ∃ σ', (g.readAll ⟨0⟩ : Act _ Unit).run σ = (.ok (), σ') ∧ σ'.chainLength = behind.length ∧
    σ.collection.Noted behind.length σ'.collection
  := by
  let nodes := behind.map ChainNode.pair
  let frames := nodes.map (said σ.line.table ⟨0⟩)
  have length : frames.length = behind.length := (List.length_map _).trans (List.length_map _)
  have short : behind.length < countModulus := by
    rw [split, List.length_append, List.length_cons] at few
    omega
  obtain ⟨c, run⟩ := run_readAll_behind g found readable settable quiet rfl split late awake short
  have quietly : (nodes.any fun n => n.1.record.isSome) = false := by
    rw [List.any_eq_false]
    intro n member
    obtain ⟨other, among, rfl⟩ := List.mem_map.mp member
    rw [show other.pair.1.record = none from unrecorded other among]
    simp
  have values : ∀ frame ∈ frames, ∃ data, frame = .data data ∧
      ∀ m, (d.deserialize data m).1 = .ok () := by
    intro frame member
    obtain ⟨n, within, rfl⟩ := List.mem_map.mp member
    obtain ⟨other, among, rfl⟩ := List.mem_map.mp within
    obtain ⟨data, value, fits, taken⟩ := sends other among
    rw [Table.id_of_find? found] at value
    exact ⟨data, said_of_fetch _ (by decide) value fits, taken⟩
  let τ := σ.noted frames.length
  let trouble := (takeValues d frames 0 {} τ.env).1
  have countable : frames.length ≤ modulesMax := by
    rw [length]
    apply le_modulesMax short
  obtain ⟨before, noted, fits, -⟩ := noteCount_site (N := N) σ.env countable
  have start : τ.env.entries = [] ++ before := congrArg Site.entries noted
  obtain ⟨put, refused⟩ := takeValues_site d frames τ.env start {}
  have complete : trouble.missing = false := by
    rw [missing_takeValues d 0 fun frame member => by
      obtain ⟨data, rfl, -⟩ := values frame member
      simp]
    rw [Bool.false_or, decide_eq_false_iff_not]
    intro member
    obtain ⟨data, is, -⟩ := values _ member
    contradiction
  have accepted : trouble.refused = none := by
    refine refused.mpr ⟨rfl, ?_⟩
    intro x member data is
    obtain ⟨data', same, taken⟩ := values x.1 (List.of_mem_zip member).1
    rw [is] at same
    cases same
    apply taken _
  have flagless : (behind.map ChainNode.pair).any (fun n => n.1.record.isSome) = false := quietly
  rw [flagless, run_conclude g complete accepted] at run
  refine ⟨_, run, length, ?_⟩
  have sizes := congrArg (fun s => s.entries.length) put
  rw [Site.entries_withEntries, List.nil_append, length_putAll] at sizes
  rw [length] at fits
  apply fits.of_size_eq sizes

/-- What a read of a quiet chain may claim.  If it succeeds, it is complete, unless it was a read
of property zero and some node was late.  With a late node, a read of any other property fails;
a read of property zero succeeds as soon as the nodes behind the last late one have values and
no records, though it has not found all nodes. -/
theorem readAll_of_quiet (g : Gateway M) (real : property.number.toNat ≤ PropertyId.max)
    (found : g.table.find? property = some d) (readable : d.access.readable = true)
    (quiet : σ.line.Quiet) (few : σ.line.nodes.length < countModulus) :
  let nodes := σ.line.nodes
  let now := σ.line.now
  let result := (g.readAll property : Act _ Unit).run σ
  ((property ≠ ⟨0⟩ ∨ ∀ node ∈ nodes, ¬node.Late now) → result.1 = .ok () →
      Complete d σ result.2) ∧
    (property ≠ ⟨0⟩ → (∃ node ∈ nodes, node.Late now) → d.set.isSome →
      result.1 = .error .headerMismatch) ∧
    (property = ⟨0⟩ → d.set.isSome → ∀ front node behind, nodes = front ++ node :: behind →
      node.Late now → (∀ other ∈ behind, ¬other.Late now ∧ other.engine.record = none ∧
        Sends σ.line.table d other) →
      result.1 = .ok () ∧ result.2.chainLength = behind.length ∧
        result.2.chainLength < nodes.length)
  := by
  intro nodes now result
  have travels : property.Travels := Nat.lt_of_le_of_lt real (by decide)
  have real' : property.isErrorQuery = false := by
    rw [PropertyId.isErrorQuery, beq_eq_false_iff_ne]
    rintro rfl
    exact absurd real (by decide)
  have late (other : property ≠ ⟨0⟩) (some : ∃ node ∈ nodes, node.Late now)
      (settable : d.set.isSome) : result.1 = .error .headerMismatch :=
    run_readAll_late g travels real' found readable settable quiet other some
  refine ⟨?_, late, ?_⟩
  · intro allowed ok
    have settable : d.set.isSome := by
      cases handler : d.set with
      | some set => rfl
      | none =>
        have failed : result.1 = .error .notSupported := by
          simp only [result, readAll, real', found, handler, Option.isNone_none, or_true, if_true,
            Bool.false_eq_true, if_false]
          rfl
        rw [failed] at ok
        contradiction
    have awake : ∀ node ∈ nodes, ¬node.Late now := by
      rcases allowed with other | awake
      · intro node member is
        rw [late other ⟨node, member, is⟩ settable] at ok
        contradiction
      · apply awake
    apply complete_of_readAll g travels real' found readable settable quiet few awake
      (Prod.ext ok rfl)
  · intro zero settable front node behind split isLate others
    subst zero
    obtain ⟨σ', run, counted, -⟩ := readAll_behind g found readable settable quiet few split isLate
      (fun other member => (others other member).1) (fun other member => (others other member).2.1)
      fun other member => (others other member).2.2
    have ends : result = (.ok (), σ') := run
    rw [ends]
    refine ⟨rfl, counted, ?_⟩
    rw [counted, show nodes = _ from split, List.length_append, List.length_cons]
    omega

/-- A node with the given offset that has just refused a header. -/
def refuser (offset : UInt8) : ChainNode SplitFlap.Module where
  engine := { phase := .recovering, record := some ⟨.headerParity, .listening⟩ }
  module := { offset := offset }

/-- A chain of two nodes that have just refused a header. -/
def refusers : Session (Site (Chain SplitFlap.Module) SplitFlap.Module 8) where
  env := { line := { table := SplitFlap.table, nodes := [refuser 1, refuser 2] } }

/-- Nodes that have just refused a header are on a quiet chain. -/
theorem quiet_refusers :
  refusers.line.Quiet
  := by
  constructor
  · intro l member
    have fresh : l = {} := by
      simpa [refusers, Session.line, OnChain.line, Chain.links, refuser] using member
    subst fresh
    exact ⟨⟨rfl, by decide⟩, rfl⟩
  · intro node member
    have here : node = refuser 1 ∨ node = refuser 2 := by
      simpa [refusers, Session.line, OnChain.line] using member
    rcases here with rfl | rfl <;> rfl
  · intro node member
    have here : node = refuser 1 ∨ node = refuser 2 := by
      simpa [refusers, Session.line, OnChain.line] using member
    rcases here with rfl | rfl <;> exact Or.inr rfl

/-- A gateway of split-flap modules. -/
def flapGateway : Gateway SplitFlap.Module where
  table := SplitFlap.table

/-- A read of the offsets of nodes that have just refused a header fails. -/
theorem readAll_refusers_offset :
  ((flapGateway.readAll ⟨6⟩ : Act _ Unit).run refusers).1 =
    .error .headerMismatch
  := by
  have found : flapGateway.table.find? ⟨6⟩ = some SplitFlap.offset := rfl
  have result := readAll_of_quiet flapGateway (by decide) found rfl quiet_refusers (by decide)
  apply result.2.1 (by decide) ⟨refuser 1, List.mem_cons_self, by decide⟩ rfl

/-- A read of the firmware versions of two nodes that have just refused a header succeeds, but
finds no node. -/
theorem readAll_refusers_version :
  ∃ σ', (flapGateway.readAll ⟨0⟩ : Act _ Unit).run refusers = (.ok (), σ') ∧
    refusers.line.Quiet ∧ refusers.line.nodes.length = 2 ∧ σ'.chainLength = 0 ∧
    σ'.env.display.collection.size = 0
  := by
  have split : refusers.line.nodes = [refuser 1] ++ refuser 2 :: [] := rfl
  have found : flapGateway.table.find? ⟨0⟩ = some SplitFlap.firmwareVersion := rfl
  obtain ⟨σ', run, counted, noted⟩ := readAll_behind flapGateway found rfl rfl quiet_refusers
    (by decide) split (by decide) (by simp) (by simp) (by simp)
  exact ⟨σ', run, quiet_refusers, rfl, counted, noted.sized (by decide)⟩

end Sites

end DaisyChain.Gateway
