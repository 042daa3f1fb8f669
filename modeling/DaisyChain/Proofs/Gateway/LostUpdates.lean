import DaisyChain.Proofs.Gateway.Updates
import DaisyChain.Proofs.SplitFlap.Faithful

/-!
# Lost updates

Which of the updates that an application makes during a pass are kept (`pass_keeps_iff`).  An update
of a property that is to be read is lost if it comes before the property has its turn: the module is
read over, and marking the property clean forgets that the module waited to be written
(`exists_lost`).
-/

namespace DaisyChain.Gateway

open Node

variable {M : Type} {N : Nat}

/-! ### Updates that are kept -/

/-- The node of its index shows what the update made of the property, or the property still waits
for the module. -/
def Made.Kept (d : Definition M) (u : Made M) (s : Contended (Chain M) M N) : Prop :=
  (∃ node, s.line.nodes[u.index]? = some node ∧ d.equal? u.module node.module = some true) ∨
    s.display.collection.PendingAt u.index d.id

/-- Which updates are kept follows from what a pass has made of the property of the node. -/
theorem Fate.kept_iff {d : Definition M} {s : Contended (Chain M) M N} {c : Collection M N}
    {look clean : Nat} {before : List UInt8} {node : ChainNode M} {u : Made M}
    (fate : Fate d s c look clean u.index before (d.value node.module)) (faithful : d.Faithful)
    (here : s.line.nodes[u.index]? = some node) (member : u ∈ s.made)
    (property : u.property = d.id) :
  (c.operation? d.id = none → u.Kept d s) ∧
    ∀ operation, c.operation? d.id = some operation →
      ∃ value, Drawn s.found d look clean u.index operation value ∧
        (u.Kept d s ↔ (∃ v ∈ s.made, v.index = u.index ∧ v.property = d.id ∧ clean < v.clock) ∨
          d.value u.module = value.getD before)
  := by
  cases fate with
  | idle nothing _ waiting =>
    refine ⟨fun _ => Or.inr (waiting u member rfl property).2, fun operation found => ?_⟩
    rw [nothing] at found
    contradiction
  | @done operation value found _ drawn sent waiting =>
    refine ⟨fun nothing => ?_, fun operation' found' => ?_⟩
    · rw [nothing] at found
      contradiction
    · rw [found] at found'
      cases found'
      refine ⟨value, drawn, ?_⟩
      rw [Made.Kept, waiting, here, or_comm, ← sent, ← faithful.equal?_iff]
      simp only [Option.some.injEq, exists_eq_left']

/-- What becomes of the updates during a pass. -/
structure Accounted [Inhabited M] (g : Gateway M) (σ : Session (Contended (Chain M) M N)) :
    Prop where
  /-- What is planned of modules that exist is done. -/
  complete : let τ := (g.pass σ).2
    ∀ t, σ.env.found.length ≤ t → t < τ.env.found.length →
      ∀ v ∈ σ.env.plan t, v.index < σ.line.nodes.length → ∃ u ∈ τ.env.made, u.clock = t ∧ u.Of v
  /-- An update is kept if nothing was to be done for its property when this had its turn.
  Otherwise it is kept if and only if some update of the same module came after the property was
  marked clean, which is the last access of the turn, or its value is the one that the turn has left
  in the node: that which the worker found after it looked for what is to be done, if it has sent
  one. -/
  kept : let τ := (g.pass σ).2
    ∀ u ∈ τ.env.made, ∃ front d back node,
      definitions g.table = front ++ d :: back ∧ d.id = u.property ∧
      σ.line.nodes[u.index]? = some node ∧
      let σ' := reach g front σ
      let look := σ'.env.found.length
      let clean := (g.syncProperty d.id σ').2.env.found.length - 1
      τ.env.found[look]? = some σ'.env.seen ∧
      (σ'.env.seen.operation? d.id = none → u.Kept d τ.env) ∧
      ∀ operation, σ'.env.seen.operation? d.id = some operation →
        ∃ value, Drawn τ.env.found d look clean u.index operation value ∧
          (u.Kept d τ.env ↔
            (∃ v ∈ τ.env.made, v.index = u.index ∧ v.property = d.id ∧ clean < v.clock) ∨
            d.value u.module = value.getD (d.value node.module))

/-- If a property is to be read and has not had its turn, the last update of it is lost, unless it
has made a module what the node shows. -/
theorem exists_lost [Inhabited M] {table : Table M} {carried : PropertyId → Prop}
    {d : Definition M} {σ : Session (Contended (Chain M) M N)} (g : Gateway M)
    (civil : Civil table carried σ) (shared : g.table = table) (carries : table.Carries carried)
    (fresh : σ.env.made = []) (carry : carried d.id) (found : table.find? d.id = some d)
    (read : (σ.promoted table).env.display.collection.reads.contains d.id = true)
    (last : ∀ t, ∀ v ∈ σ.env.plan t, t ≤ σ.env.found.length + 1) {index : Nat} {change : M → M}
    (planned : ⟨index, d.id, change⟩ ∈ σ.env.plan (σ.env.found.length + 1))
    {node : ChainNode M} (here : σ.line.nodes[index]? = some node)
    (differs : ∀ m, d.value (change m) ≠ d.value node.module) :
  let τ := (g.pass σ).2
  ∃ u ∈ τ.env.made, u.Of ⟨index, d.id, change⟩ ∧ ¬u.Kept d τ.env
  := by
  obtain ⟨front, back, split, ahead, behind⟩ :=
    exists_split_definitions (mem_definitions.mpr ⟨found, carries.real carry⟩)
  intro τ
  let σ' := reach g front σ
  obtain ⟨-, ⟨_, early⟩, -⟩ := turn_pass g civil shared carries carry split ahead behind
  -- When the property has its turn, it is still to be read.
  have reads : σ'.env.seen.operation? d.id = some .readAll := by
    obtain ⟨_, pass⟩ := σ'.env.follows_pass fun _ => True
    have same : σ'.env.seen.reads.contains d.id = true :=
      ((pass.marked _ trivial).reads.trans (early.marked _ rfl).reads).trans read
    rw [Collection.operation?, if_pos same]
  have look : σ.env.found.length + 1 ≤ (reach g front σ).env.found.length := by
    have grown := early.found.length_le
    rw [show (σ.promoted table).env.found.length = σ.env.found.length + 1 from
      List.length_append] at grown
    apply grown
  have within := (List.getElem?_eq_some_iff.mp here).1
  obtain ⟨looked, before, after, here', there, fate⟩ := fate_pass g civil shared carries fresh carry
    split ahead behind within
  rw [here] at here'
  cases here'
  obtain ⟨made, passed⟩ := follows_whole g civil shared carries
  have same : τ.env.made = made := by rw [passed.made, fresh, List.nil_append]
  have sized : σ.env.display.collection.size = σ.line.nodes.length :=
    civil.serving.sized.trans (List.length_map _)
  obtain ⟨u, among, -, of⟩ := passed.complete _ (Nat.le_succ _)
    (Nat.lt_of_le_of_lt look (List.getElem?_eq_some_iff.mp looked).1) _ planned
    (Nat.lt_of_lt_of_eq within sized.symm)
  refine ⟨u, same ▸ among, of, ?_⟩
  obtain ⟨at', -, m, module⟩ := of
  cases fate with
  | idle nothing _ _ =>
    rw [reads] at nothing
    contradiction
  | @done operation value seen since drawn sent waiting =>
    cases reads.symm.trans seen
    cases drawn
    rintro (⟨_, is, shows⟩ | pending)
    · rw [at'] at is
      cases there.symm.trans is
      rw [(carries.faithful carry found).equal?_iff, sent, module] at shows
      apply differs m shows
    · rw [at', waiting, same] at pending
      obtain ⟨w, member, -, -, later⟩ := pending
      obtain ⟨w', plan, -⟩ := passed.planned w member
      have soon := last _ w' plan
      omega

/-! ### Split-flap displays -/

/-- If an application changes properties that travel both ways during a pass, then an update is
lost if and only if it comes before the property is marked clean, is followed by none of the same
module after that, and is not what the turn of the property leaves in the node. -/
theorem pass_keeps_iff (g : Gateway SplitFlap.Module) (shared : g.table = SplitFlap.table)
    {σ : Session (Contended (Chain SplitFlap.Module) SplitFlap.Module N)}
    (chain : σ.line.table = SplitFlap.table) (idle : σ.line.Idle) (some : σ.line.nodes ≠ [])
    (few : σ.line.nodes.length < countModulus) (roomy : σ.line.nodes.length ≤ N)
    (sized : σ.env.display.collection.size = σ.line.nodes.length)
    (short : σ.chainLength ≤ σ.line.nodes.length)
    (bits : ∀ p : PropertyId, p.Travels → σ.env.display.collection.Pending p →
      SplitFlap.BothWays p)
    (planned : ∀ t, ∀ v ∈ σ.env.plan t, SplitFlap.BothWays v.property)
    (fresh : σ.env.made = []) :
  Accounted g σ
  := by
  let τ := (g.pass σ).2
  have civil : Civil SplitFlap.table SplitFlap.BothWays σ :=
    ⟨.of_idle chain idle some few roomy sized short bits, planned⟩
  obtain ⟨more, passed⟩ := follows_whole g civil shared SplitFlap.carries_table
  have made : τ.env.made = more := by rw [passed.made, fresh, List.nil_append]
  constructor
  · intro _
    rw [made, ← sized]
    apply passed.complete
  · intro _ u member
    have among := member
    rw [made] at among
    have carry : SplitFlap.BothWays u.property := by
      obtain ⟨v, among, -, property, -⟩ := passed.planned u among
      rw [property]
      apply planned u.clock v among
    obtain ⟨d, found, faithful⟩ := SplitFlap.carries_table.exists_faithful carry
    have id := Table.id_of_find? found
    rw [← id] at carry found
    have within : u.index < σ.line.nodes.length := sized ▸ passed.indices u among
    obtain ⟨front, back, split, ahead, behind⟩ :=
      exists_split_definitions (mem_definitions.mpr ⟨found, SplitFlap.carries_table.real carry⟩)
    obtain ⟨looked, node, node', here, there, fate⟩ := fate_pass g civil shared
      SplitFlap.carries_table fresh carry split ahead behind within
    rw [← shared] at split
    refine ⟨front, d, back, node, split, id, here, looked, ?_⟩
    apply fate.kept_iff faithful there member id.symm

/-- A display of two modules over two nodes.  The offsets are to be read; while the worker looks for
what else is to be done, the offset of the second module changes. -/
def hurried : Session (Contended (Chain SplitFlap.Module) SplitFlap.Module 4) where
  env := {
    line := Chain.ofModules SplitFlap.table [{}, {}] 1024 0
    display := {
      collection := {
        entries := [{ module := {} }, { module := {} }]
        reads := PropertySet.empty.insert ⟨6⟩ } }
    plan := fun t => if t = 1 then [⟨1, ⟨6⟩, fun m => { m with offset := 9 }⟩] else [] }

/-- In this display, nothing but the offsets is to be done. -/
theorem bothWays_of_pending_hurried {p : PropertyId} (travels : p.Travels)
    (pending : hurried.env.display.collection.Pending p) :
  SplitFlap.BothWays p
  := by
  have unmarked : hurried.env.display.collection.anyMarked p = false := by
    change (PropertySet.empty.contains p || (PropertySet.empty.contains p || false)) = false
    rw [PropertySet.contains_empty]
    rfl
  rcases pending with read | write | marked
  · rw [← PropertyId.Travels.eq_of_wire (by decide) travels (wire_of_contains read)]
    exact ⟨by decide, by decide⟩
  · have empty : PropertySet.empty.contains p = true := write
    rw [PropertySet.contains_empty] at empty
    contradiction
  · rw [unmarked] at marked
    contradiction

/-- In this display, nothing but one offset changes, and that once. -/
theorem planned_hurried {t : Nat} {v : Update SplitFlap.Module} (planned : v ∈ hurried.env.plan t) :
  t = 1 ∧ v.property = ⟨6⟩
  := by
  simp only [hurried] at planned
  split at planned
  · next now =>
    rw [List.mem_singleton.mp planned]
    exact ⟨now, rfl⟩
  · contradiction

/-- What becomes of the update in this display. -/
theorem pass_keeps_iff_hurried :
  Accounted ⟨SplitFlap.table, {}⟩ hurried
  := by
  refine pass_keeps_iff ⟨SplitFlap.table, {}⟩ rfl rfl (Chain.idle_ofModules _ _ (by decide) _)
    (by decide) (by decide) (by decide) rfl (by decide) ?_ ?_ rfl
  · exact fun p travels pending => bothWays_of_pending_hurried travels pending
  · intro t v planned
    rw [(planned_hurried planned).2]
    exact ⟨by decide, by decide⟩

/-- In this display the update is lost: the node does not show it, and it does not wait any more. -/
theorem pass_loses_update :
  let τ := ((⟨SplitFlap.table, {}⟩ : Gateway SplitFlap.Module).pass hurried).2
  ∃ u ∈ τ.env.made, u.Of ⟨1, SplitFlap.offset.id, fun m => { m with offset := 9 }⟩ ∧
    ¬u.Kept SplitFlap.offset τ.env
  := by
  have carry : SplitFlap.BothWays SplitFlap.offset.id := ⟨by decide, by decide⟩
  have civil : Civil SplitFlap.table SplitFlap.BothWays hurried := by
    refine ⟨.of_idle rfl (Chain.idle_ofModules _ _ (by decide) _) (by decide) (by decide)
      (by decide) rfl (by decide) fun p => bothWays_of_pending_hurried, fun t v planned => ?_⟩
    rw [(planned_hurried planned).2]
    apply carry
  refine exists_lost ⟨SplitFlap.table, {}⟩ civil rfl SplitFlap.carries_table rfl carry rfl rfl
    (fun t v planned => Nat.le_of_eq (planned_hurried planned).1) (List.mem_singleton_self _) rfl
    fun m => ?_
  change ([9] : List UInt8) ≠ [0]
  decide

end DaisyChain.Gateway
