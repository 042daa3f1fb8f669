import DaisyChain.Proofs.Gateway.Interleaving

/-!
# Updates during a pass

What becomes of a property of a node when an application makes updates while a worker makes a pass
(`fate_pass`).  Each property has one turn.  The turn sends to a node a value that was found during
the turn, and then forgets all that waits to be done for the property.
-/

namespace DaisyChain.Gateway

open Node

variable {M : Type} {N : Nat}

/-! ### What is noted -/

namespace Collection

variable {c c' : Collection M N} {q : PropertyId} {marked : Nat → Prop}

/-- What waits to be done for a module is what waited before, and what it has been marked for. -/
theorem Marked.pendingAt_iff (step : Marked q marked c c') (i : Nat) :
  c'.PendingAt i q ↔ c.PendingAt i q ∨ marked i
  := by
  rw [PendingAt, PendingAt, step.reads, step.writes, step.marks, or_assoc, or_assoc]

/-- If nothing is to be done for a property, nothing waits to be done for it. -/
theorem not_pendingAt (nothing : c.operation? q = none) (i : Nat) :
  ¬c.PendingAt i q
  := by
  obtain ⟨reads, writes, marks⟩ := operation?_eq_none_iff.mp nothing
  rw [PendingAt, reads, writes, marks]
  simp

/-- If nothing was to be done for a property, and no module has been marked, nothing is. -/
theorem Marked.operation?_eq_none (step : Marked q marked c c') (nothing : c.operation? q = none)
    (unmarked : ∀ i, ¬marked i) :
  c'.operation? q = none
  := by
  obtain ⟨reads, writes, marks⟩ := operation?_eq_none_iff.mp nothing
  refine operation?_eq_none_iff.mpr ⟨step.reads.trans reads, step.writes.trans writes, fun i => ?_⟩
  rw [Bool.eq_false_iff, ne_eq, step.marks, marks]
  simp [unmarked i]

/-- Promotion forgets nothing. -/
theorem pendingAt_promote {i : Nat} (d : Definition M) (pending : c.PendingAt i q) :
  (c.promote d).2.PendingAt i q
  := by
  by_cases same : d.id.wire = q.wire
  · rw [promote]
    split
    · -- What waited for single nodes now waits for all of them.
      right
      left
      apply (PropertySet.contains_insert _ _ _).trans
      rw [decide_eq_true same, Bool.or_true]
    · apply pending
  · rw [(kept_promote same).pendingAt_iff]
    apply Or.inl pending

/-- Promotion of some properties forgets nothing. -/
theorem pendingAt_promotions {i : Nat} (ds : List (Definition M)) (pending : c.PendingAt i q) :
  (ds.foldl (fun c d => (c.promote d).2) c).PendingAt i q
  := by
  induction ds generalizing c with
  | nil => apply pending
  | cons d ds ih => apply ih (pendingAt_promote d pending)

end Collection

namespace Contended

variable {L : Type} {s s' : Contended L M N} {Q : PropertyId → Prop} {q : PropertyId}

/-- All updates so far came before the accesses so far. -/
def Timely (s : Contended L M N) : Prop :=
  ∀ u ∈ s.made, u.clock < s.found.length

/-- All updates of a property so far wait to be written. -/
def Noted (q : PropertyId) (s : Contended L M N) : Prop :=
  ∀ u ∈ s.made, u.property.wire = q.wire → s.display.collection.PendingAt u.index q

/-- Updates stay timely. -/
theorem Timely.follows (timely : s.Timely) (follows : s.Follows Q s') :
  s'.Timely
  := by
  obtain ⟨more, passed⟩ := follows
  intro u member
  rw [passed.made] at member
  rcases List.mem_append.mp member with among | among
  · apply Nat.lt_of_lt_of_le (timely u among) passed.found.length_le
  · apply (passed.clocks u among).2

/-- Updates of a property wait as long as nothing is done for it. -/
theorem Noted.follows (noted : s.Noted q) (follows : s.Follows Q s') (which : Q q) :
  s'.Noted q
  := by
  obtain ⟨more, passed⟩ := follows
  intro u member wire
  rw [passed.made] at member
  rw [(passed.marked q which).pendingAt_iff]
  rcases List.mem_append.mp member with among | among
  · apply Or.inl (noted u among wire)
  · apply Or.inr ⟨u, among, rfl, wire⟩

/-- If nothing was to be done for a property, what waits now is what has been updated since. -/
theorem Follows.pendingAt_iff (follows : s.Follows Q s') (which : Q q) (timely : s.Timely)
    (nothing : s.display.collection.operation? q = none) (i : Nat) :
  s'.display.collection.PendingAt i q ↔
    ∃ u ∈ s'.made, u.index = i ∧ u.property.wire = q.wire ∧ s.found.length ≤ u.clock
  := by
  obtain ⟨more, passed⟩ := follows
  rw [(passed.marked q which).pendingAt_iff, passed.made]
  constructor
  · rintro (pending | ⟨u, among, index, wire⟩)
    · apply (Collection.not_pendingAt nothing i pending).elim
    · exact ⟨u, List.mem_append_right _ among, index, wire, (passed.clocks u among).1⟩
  · rintro ⟨u, member, index, wire, late⟩
    rcases List.mem_append.mp member with among | among
    · exact absurd (timely u among) (Nat.not_lt_of_le late)
    · apply Or.inr ⟨u, among, index, wire⟩

/-- Updates of a property for which nothing was found to be done came after that. -/
theorem Noted.lt_clock (noted : s.Noted q) (nothing : s.seen.operation? q = none)
    (follows : s.pass.Follows Q s') {u : Made M} (member : u ∈ s'.made)
    (wire : u.property.wire = q.wire) :
  s.found.length < u.clock
  := by
  obtain ⟨more, passed⟩ := follows
  rcases List.mem_append.mp (passed.made ▸ member) with among | among
  · -- An update by then would have been found.
    have noted := noted.follows (s.follows_pass fun _ => True) trivial
    apply (Collection.not_pendingAt nothing _ (noted u among wire)).elim
  · have late := (passed.clocks u among).1
    rw [show s.pass.found.length = s.found.length + 1 from List.length_append] at late
    apply late

end Contended

/-! ### Turns in a row -/

section Passes

variable {table : Table M} {carried : PropertyId → Prop} {d : Definition M}
variable {σ τ : Session (Contended (Chain M) M N)}

/-- The values of a property in the nodes of a chain. -/
def shown (d : Definition M) (line : Chain M) : List (List UInt8) :=
  line.pairs.map fun n => d.value n.2

/-- The value of a property in the node of the given index. -/
theorem getElem?_shown (d : Definition M) (line : Chain M) (index : Nat) :
  (shown d line)[index]? = line.nodes[index]?.map fun node => d.value node.module
  := by
  rw [shown, Chain.pairs, List.getElem?_map, List.getElem?_map, Option.map_map]
  rfl

/-- A value that is shown is that of a node. -/
theorem exists_node_of_shown {line : Chain M} {index : Nat} {bytes : List UInt8}
    (shows : (shown d line)[index]? = some bytes) :
  ∃ node, line.nodes[index]? = some node ∧ d.value node.module = bytes
  := by
  rw [getElem?_shown, Option.map_eq_some_iff] at shows
  apply shows

/-- The chain serves, and the application updates nothing but properties that the table carries. -/
structure Civil (table : Table M) (carried : PropertyId → Prop)
    (σ : Session (Contended (Chain M) M N)) : Prop where
  serving : Serving table carried σ.line σ.env.display.collection σ.chainLength
  planned : ∀ t, ∀ u ∈ σ.env.plan t, carried u.property

/-- Accesses that do nothing but for carried properties leave a chain that serves, if it yields as
many nodes with engines that it had. -/
theorem Civil.next (civil : Civil table carried σ) (carries : table.Carries carried)
    {Q : PropertyId → Prop} (follows : σ.env.Follows Q τ.env)
    (which : ∀ q : PropertyId, q.Travels → ¬carried q → Q q) {nodes : List (Engine × M)}
    (yields : τ.line.Yields table (listeners nodes) [])
    (engines : ∀ n ∈ nodes, ∃ n' ∈ σ.line.pairs, n.1 = n'.1)
    (length : nodes.length = σ.line.pairs.length) (short : τ.chainLength ≤ σ.line.pairs.length) :
  τ.line.pairs = nodes ∧ Civil table carried τ
  := by
  obtain ⟨more, passed⟩ := follows
  obtain ⟨pairs, serving⟩ := civil.serving.next yields engines length
    (passed.size.trans civil.serving.sized) short fun q travels uncarried => by
      apply (passed.marked q (which q travels uncarried)).operation?_eq_none
        (civil.serving.nothing q travels uncarried)
      -- What has been updated is carried.
      rintro i ⟨u, among, -, wire⟩
      obtain ⟨v, planned, -, same, -⟩ := passed.planned u among
      have carry := civil.planned u.clock v planned
      rw [← same] at carry
      have is := (PropertyId.travels_of_le (carries.real carry)).eq_of_wire travels wire
      rw [is] at carry
      apply uncarried carry
  refine ⟨pairs, serving, fun t u member => ?_⟩
  rw [passed.plan] at member
  apply civil.planned t u member

/-- Nodes that have been given values show these. -/
theorem value_delivered (faithful : d.Faithful) (nodes : List (Engine × M))
    {values : List (Option (List UInt8))}
    (sent : ∀ value ∈ values, Definition.Faithful.Sent d value) :
  (List.zipWith (delivered d) nodes values).map (fun n => d.value n.2) =
    List.zipWith (fun before value => value.getD before) (nodes.map fun n => d.value n.2) values
  := by
  rw [List.zipWith_map_left, List.map_zipWith, ← List.map_uncurry_zip_eq_zipWith,
    ← List.map_uncurry_zip_eq_zipWith]
  apply List.map_congr_left
  rintro ⟨n, value⟩ member
  cases value with
  | none => rfl
  | some data =>
    obtain ⟨m, rfl⟩ := sent _ (List.of_mem_zip member).2 data rfl
    apply faithful.value_given m n.2

/-- Nodes that have been given values of one property show what they did of another one. -/
theorem value_delivered_of_spares {d' : Definition M} (spares : d.Spares d')
    {nodes : List (Engine × M)} {values : List (Option (List UInt8))}
    (length : values.length = nodes.length) :
  (List.zipWith (delivered d) nodes values).map (fun n => d'.value n.2) =
    nodes.map fun n => d'.value n.2
  := by
  have fst := congrArg (List.map fun n : Engine × M => d'.value n.2)
    (List.map_fst_zip (Nat.le_of_eq length.symm))
  rw [← fst, List.map_zipWith, ← List.map_uncurry_zip_eq_zipWith, List.map_map]
  apply List.map_congr_left
  rintro ⟨n, value⟩ _
  cases value with
  | none => rfl
  | some data => apply spares data n.2

/-- What a turn has done for its own property. -/
inductive Outcome (d : Definition M) (σ τ : Session (Contended (Chain M) M N)) : Prop
  /-- Nothing was found that was to be done. -/
  | idle (nothing : σ.env.seen.operation? d.id = none) (same : shown d τ.line = shown d σ.line)
    (follows : σ.env.pass.Follows (fun _ => True) τ.env)
  /-- An operation was found and has sent some values to the nodes. -/
  | done {operation : Operation} {values : List (Option (List UInt8))}
    (found : σ.env.seen.operation? d.id = some operation)
    (sent : shown d τ.line =
      List.zipWith (fun before value => value.getD before) (shown d σ.line) values)
    (length : values.length = σ.line.pairs.length)
    (turned : Turned d operation values σ.env τ.env)

/-- An access that leaves the collection as it is leaves a chain that serves. -/
theorem Civil.proceed (civil : Civil table carried σ) (carries : table.Carries carried)
    {display : Display M N} (same : display.collection = σ.env.seen) :
  let τ : Session (Contended (Chain M) M N) := { σ with env := σ.env.proceed display }
  τ.line = σ.line ∧ Civil table carried τ ∧ σ.env.Follows (fun _ => True) τ.env
  := by
  intro τ
  have line : τ.line = σ.line := σ.env.line_arrive
  have follows : σ.env.Follows (fun _ => True) τ.env := by
    apply σ.env.follows_proceed
    · rw [same]
    · intro q _
      rw [same]
      exact .refl _ q
  obtain ⟨-, next⟩ := civil.next (τ := τ) carries follows (fun _ _ _ => trivial)
    (by rw [line]; exact civil.serving.yields) (fun n member => ⟨n, member, rfl⟩) rfl
    civil.serving.short
  exact ⟨line, next, follows⟩

/-- The session after what can be promoted has been promoted. -/
def Session.promoted (σ : Session (Contended (Chain M) M N)) (table : Table M) :
    Session (Contended (Chain M) M N) :=
  { σ with env := σ.env.leave (promoteAll table σ.env.seen) }

/-- Promotion adds no module and takes none away. -/
theorem follows_promoted (table : Table M) :
  σ.env.Follows (fun _ => False) (σ.promoted table).env
  := σ.env.follows_proceed (length_promotions _ _) fun _ which => which.elim

/-- Promotion leaves a chain that serves. -/
theorem Civil.promoted (civil : Civil table carried σ) (carries : table.Carries carried) :
  (σ.promoted table).line = σ.line ∧ Civil table carried (σ.promoted table)
  := by
  obtain ⟨line, passed, -⟩ : σ.passed.line = σ.line ∧ Civil table carried σ.passed ∧ _ :=
    civil.proceed carries rfl
  refine ⟨line, { passed.serving with sized := ?_, nothing := ?_ }, passed.planned⟩
  · apply (length_promotions _ _).trans passed.serving.sized
  · intro p low uncarried
    apply operation?_promotions_of_none _ (passed.serving.nothing p low uncarried)

/-- Promotion forgets nothing. -/
theorem noted_promoted (table : Table M) (fresh : σ.env.made = []) (q : PropertyId) :
  (σ.promoted table).env.Noted q ∧ (σ.promoted table).env.Timely
  := by
  have noted : σ.env.Noted q := by
    intro u member
    rw [fresh] at member
    contradiction
  have timely : σ.env.Timely := by
    intro u member
    rw [fresh] at member
    contradiction
  have seen := noted.follows (σ.env.follows_pass fun _ => True) trivial
  refine ⟨fun u member wire => ?_, timely.follows (follows_promoted table)⟩
  apply Collection.pendingAt_promotions _ (seen u member wire)

/-- What a pass has made of a property of one node, which showed one value before and shows another
one now.  In the turn of the property the worker looked for what is to be done, and marked the
property clean, at the accesses of the given numbers; at the first of them it found the given
collection. -/
inductive Fate (d : Definition M) (s : Contended (Chain M) M N) (c : Collection M N)
    (look clean index : Nat) (before after : List UInt8) : Prop
  /-- Nothing was found that was to be done.  The node shows what it did, and all updates came later
  and still wait. -/
  | idle (nothing : c.operation? d.id = none) (same : after = before)
    (waiting : ∀ u ∈ s.made, u.index = index → u.property = d.id →
      look < u.clock ∧ s.display.collection.PendingAt index d.id)
  /-- An operation was found.  The node shows what was found in between, if the operation sent that,
  and updates wait if they came after the property was marked clean. -/
  | done {operation : Operation} {value : Option (List UInt8)}
    (found : c.operation? d.id = some operation) (since : look ≤ clean)
    (drawn : Drawn s.found d look clean index operation value) (sent : after = value.getD before)
    (waiting : s.display.collection.PendingAt index d.id ↔
      ∃ u ∈ s.made, u.index = index ∧ u.property = d.id ∧ clean < u.clock)

/-- What becomes of a property of a node if nothing was to be done for it in its turn. -/
theorem fate_of_idle {σ' : Session (Contended (Chain M) M N)} {index : Nat} {bytes : List UInt8}
    (nothing : σ'.env.seen.operation? d.id = none) (noted : σ'.env.Noted d.id)
    (timely : σ'.env.Timely) (follows : σ'.env.pass.Follows (fun q => q = d.id) τ.env)
    (clean : Nat) :
  Fate d τ.env σ'.env.seen σ'.env.found.length clean index bytes bytes
  := by
  have timely' := timely.follows (σ'.env.follows_pass fun _ => True)
  have waits := follows.pendingAt_iff rfl timely' nothing index
  refine .idle nothing rfl fun u member at' property => ?_
  have wire := congrArg PropertyId.wire property
  have late := noted.lt_clock nothing follows member wire
  refine ⟨late, waits.mpr ⟨u, member, at', wire, ?_⟩⟩
  rw [show σ'.env.pass.found.length = σ'.env.found.length + 1 from List.length_append]
  apply late

/-- What becomes of a property of a node if an operation has sent it a value. -/
theorem fate_of_turned {σ' τ' : Session (Contended (Chain M) M N)} {operation : Operation}
    {values : List (Option (List UInt8))} {index : Nat} {value : Option (List UInt8)}
    {before : List UInt8} (seen : σ'.env.seen.operation? d.id = some operation)
    (turned : Turned d operation values σ'.env τ'.env) (timely : σ'.env.Timely)
    (follows : τ'.env.Follows (fun q => q = d.id) τ.env)
    (named : ∀ u ∈ τ.env.made, u.property.wire = d.id.wire ↔ u.property = d.id)
    (sent : values[index]? = some value) :
  Fate d τ.env σ'.env.seen σ'.env.found.length (τ'.env.found.length - 1) index before
    (value.getD before)
  := by
  obtain ⟨clean, last, drawn⟩ := turned.drawn
  have first := σ'.env.follows_pass fun _ => True
  have timely' := (timely.follows first).follows turned.follows
  have waits := follows.pendingAt_iff rfl timely' turned.nothing index
  have since : σ'.env.found.length ≤ clean := by
    have grown := turned.follows.lt_length
    rw [last] at grown
    apply Nat.le_of_lt_succ grown
  obtain ⟨_, rest⟩ := follows
  rw [last] at waits
  rw [last, Nat.add_sub_cancel]
  refine .done seen since ((drawn index value sent).mono rest.found (Nat.le_refl _)) rfl
    (waits.trans ?_)
  constructor
  · rintro ⟨u, member, at', wire, later⟩
    exact ⟨u, member, at', (named u member).mp wire, later⟩
  · rintro ⟨u, member, at', property, later⟩
    exact ⟨u, member, at', (named u member).mpr property, later⟩

variable [Inhabited M]

/-- The turn of a property. -/
theorem civil_syncProperty (g : Gateway M) (civil : Civil table carried σ)
    (shared : g.table = table) (carries : table.Carries carried) (member : d ∈ definitions table) :
  let τ := (g.syncProperty d.id σ).2
  Civil table carried τ ∧ σ.env.Follows (fun q => d.id.wire ≠ q.wire) τ.env ∧
    (carried d.id → Outcome d σ τ) ∧
    ∀ d', carried d'.id → table.find? d'.id = some d' → d.id.wire ≠ d'.id.wire →
      shown d' τ.line = shown d' σ.line
  := by
  obtain ⟨found, real⟩ := mem_definitions.mp member
  have travels := PropertyId.travels_of_le real
  have first := σ.env.follows_pass fun q => d.id.wire ≠ q.wire
  obtain ⟨line, idle, -⟩ : σ.passed.line = σ.line ∧ Civil table carried σ.passed ∧ _ :=
    civil.proceed carries rfl
  intro τ
  cases pending : σ.env.seen.operation? d.id with
  | none =>
    have same : τ = σ.passed := congrArg Prod.snd (syncProperty_contended_none g pending)
    rw [same]
    refine ⟨idle, first, fun _ => ?_, fun d' _ _ _ => by rw [line]⟩
    exact .idle pending (by rw [line]) (.refl _ _)
  | some operation =>
    have carry : carried d.id := idle.serving.carried_of_operation travels pending
    obtain ⟨_, run, values, length, yields, short, turned⟩ := syncProperty_contended g
      civil.serving shared carries carry found pending
    have same : τ = _ := congrArg Prod.snd run
    subst same
    have follows := first.trans turned.follows
    have differs (q : PropertyId) (low : q.Travels) (uncarried : ¬carried q) :
        d.id.wire ≠ q.wire := fun same => uncarried (travels.eq_of_wire low same ▸ carry)
    obtain ⟨pairs, civil'⟩ := civil.next carries follows differs yields
      (fun n member => by
        rw [← List.map_uncurry_zip_eq_zipWith] at member
        obtain ⟨x, among, rfl⟩ := List.mem_map.mp member
        exact ⟨x.1, (List.of_mem_zip among).1, rfl⟩)
      (by rw [List.length_zipWith, length, Nat.min_self]) short
    have sent : ∀ value ∈ values, Definition.Faithful.Sent d value := by
      intro value among
      obtain ⟨i, here⟩ := List.mem_iff_getElem?.mp among
      obtain ⟨clean, -, drawn⟩ := turned.drawn
      apply (drawn i value here).sent
    refine ⟨civil', follows, fun _ => .done pending ?_ length turned,
      fun d' carry' found' apart => ?_⟩
    · rw [shown, pairs]
      apply value_delivered (carries.faithful carry found) _ sent
    · have other : d.id ≠ d'.id := fun same => apart (congrArg PropertyId.wire same)
      rw [shown, pairs]
      apply value_delivered_of_spares (carries.spares carry carry' other found found') length

/-- Turns of other properties. -/
theorem civil_turns (g : Gateway M) (civil : Civil table carried σ) (shared : g.table = table)
    (carries : table.Carries carried) {ds : List (Definition M)}
    (among : ∀ d ∈ ds, d ∈ definitions table) :
  let τ := (ds.forM (fun d => g.syncProperty d.id) σ).2
  Civil table carried τ ∧ σ.env.Follows (fun q => ∀ d ∈ ds, d.id.wire ≠ q.wire) τ.env ∧
    ∀ d', carried d'.id → table.find? d'.id = some d' → (∀ d ∈ ds, d.id.wire ≠ d'.id.wire) →
      shown d' τ.line = shown d' σ.line
  := by
  induction ds generalizing σ with
  | nil => exact ⟨civil, .refl _ _, fun _ _ _ _ => rfl⟩
  | cons d ds ih =>
    obtain ⟨next, first, -, others⟩ := civil_syncProperty g civil shared carries
      (among d List.mem_cons_self)
    obtain ⟨last, rest, kept⟩ := ih next fun e member => among e (List.mem_cons_of_mem _ member)
    refine ⟨last, (first.mono fun q apart => apart d List.mem_cons_self).trans
      (rest.mono fun q apart e member => apart e (List.mem_cons_of_mem _ member)), ?_⟩
    intro d' carry found apart
    apply (kept d' carry found fun e member => apart e (List.mem_cons_of_mem _ member)).trans
    apply others d' carry found (apart d List.mem_cons_self)

/-- The session after the notice that a pass has ended. -/
def Session.noticed (σ : Session (Contended (Chain M) M N)) : Session (Contended (Chain M) M N) :=
  { σ with env := σ.env.proceed σ.env.arrive.display.finishPass }

/-- A pass promotes, gives every property a turn, and gives notice. -/
theorem pass_contended (g : Gateway M) (σ : Session (Contended (Chain M) M N)) :
  g.pass σ = ((), ((definitions g.table).forM (fun d => g.syncProperty d.id)
    (σ.promoted g.table)).2.noticed)
  := rfl

/-- A pass is a number of accesses. -/
theorem follows_whole (g : Gateway M) (civil : Civil table carried σ) (shared : g.table = table)
    (carries : table.Carries carried) :
  σ.env.Follows (fun _ => False) (g.pass σ).2.env
  := by
  subst shared
  obtain ⟨-, start⟩ := civil.promoted carries
  obtain ⟨civil', turns, -⟩ := civil_turns g start rfl carries
    fun d (member : d ∈ definitions g.table) => member
  let last := ((definitions g.table).forM (fun d => g.syncProperty d.id) (σ.promoted g.table)).2
  obtain ⟨-, -, notice⟩ : _ ∧ _ ∧ last.env.Follows (fun _ => True) last.noticed.env :=
    civil'.proceed carries rfl
  refine (follows_promoted g.table).trans (.trans (turns.mono ?_) (notice.mono ?_))
  · exact fun _ which => which.elim
  · exact fun _ which => which.elim

/-- The session in which the given properties have had their turns. -/
def reach (g : Gateway M) (front : List (Definition M))
    (σ : Session (Contended (Chain M) M N)) : Session (Contended (Chain M) M N) :=
  (front.forM (fun d => g.syncProperty d.id) (σ.promoted g.table)).2

/-- What comes before and after the turn of a property in a pass does not interfere with it. -/
theorem turn_pass (g : Gateway M) (civil : Civil table carried σ) (shared : g.table = table)
    (carries : table.Carries carried) (carry : carried d.id)
    {front back : List (Definition M)} (split : definitions table = front ++ d :: back)
    (ahead : ∀ e ∈ front, e.id.wire ≠ d.id.wire) (behind : ∀ e ∈ back, e.id.wire ≠ d.id.wire) :
  let τ := (g.pass σ).2
  let σ' := g.reach front σ
  let τ' := (g.syncProperty d.id σ').2
  Outcome d σ' τ' ∧ (σ.promoted table).env.Follows (fun q => q = d.id) σ'.env ∧
    τ'.env.Follows (fun q => q = d.id) τ.env ∧
    shown d σ'.line = shown d σ.line ∧ shown d τ.line = shown d τ'.line
  := by
  subst shared
  intro τ σ' τ'
  obtain ⟨before, after⟩ := mem_of_split split
  have member : d ∈ definitions g.table := by
    rw [split]
    simp
  have found : g.table.find? d.id = some d := (mem_definitions.mp member).1
  obtain ⟨line, start⟩ := civil.promoted carries
  obtain ⟨first, early, kept⟩ := civil_turns g start rfl carries before
  obtain ⟨second, -, outcome, -⟩ := civil_syncProperty g first rfl carries member
  obtain ⟨third, late, left⟩ := civil_turns g second rfl carries after
  let last := (back.forM (fun d => g.syncProperty d.id) τ').2
  have ends : τ = last.noticed := by
    apply (congrArg Prod.snd (pass_contended g σ)).trans
    rw [split, turns_split]
    rfl
  obtain ⟨same, -, notice⟩ : last.noticed.line = last.line ∧ Civil g.table carried last.noticed ∧
      last.env.Follows (fun _ => True) last.noticed.env := third.proceed carries rfl
  rw [← ends] at same notice
  refine ⟨outcome carry, early.mono ?_, ?_, ?_, ?_⟩
  · rintro q rfl
    apply ahead
  · refine (late.mono ?_).trans (notice.mono fun _ _ => trivial)
    rintro q rfl
    apply behind
  · apply (kept d carry found ahead).trans (congrArg (shown d) line)
  · apply (congrArg (shown d) same).trans (left d carry found behind)

/-- What a pass makes of a property of a node. -/
theorem fate_pass (g : Gateway M) (civil : Civil table carried σ) (shared : g.table = table)
    (carries : table.Carries carried) (fresh : σ.env.made = []) (carry : carried d.id)
    {front back : List (Definition M)} (split : definitions table = front ++ d :: back)
    (ahead : ∀ e ∈ front, e.id.wire ≠ d.id.wire) (behind : ∀ e ∈ back, e.id.wire ≠ d.id.wire)
    {index : Nat} (within : index < σ.line.nodes.length) :
  let τ := (g.pass σ).2
  let σ' := reach g front σ
  let look := σ'.env.found.length
  let clean := (g.syncProperty d.id σ').2.env.found.length - 1
  τ.env.found[look]? = some σ'.env.seen ∧
    ∃ node node', σ.line.nodes[index]? = some node ∧ τ.line.nodes[index]? = some node' ∧
      Fate d τ.env σ'.env.seen look clean index (d.value node.module) (d.value node'.module)
  := by
  obtain ⟨made, passed⟩ := follows_whole g civil shared carries
  obtain ⟨outcome, early, follows, start, ends⟩ :=
    turn_pass g civil shared carries carry split ahead behind
  intro τ σ' look clean
  have travels := PropertyId.travels_of_le (carries.real carry)
  -- What has been updated is carried, and such properties are told apart on the line.
  have named (u : Made M) (member : u ∈ τ.env.made) :
      u.property.wire = d.id.wire ↔ u.property = d.id := by
    rw [passed.made, fresh, List.nil_append] at member
    obtain ⟨v, planned, -, same, -⟩ := passed.planned u member
    have carry' := civil.planned u.clock v planned
    rw [← same] at carry'
    have travels' := PropertyId.travels_of_le (carries.real carry')
    exact ⟨fun wire => travels'.eq_of_wire travels wire, congrArg PropertyId.wire⟩
  obtain ⟨noted, timely⟩ := noted_promoted table fresh d.id
  have noted := noted.follows early rfl
  have timely := timely.follows early
  obtain ⟨node, here⟩ : ∃ node, σ.line.nodes[index]? = some node :=
    ⟨_, List.getElem?_eq_getElem within⟩
  have before : (shown d σ'.line)[index]? = some (d.value node.module) := by
    rw [start, getElem?_shown, here]
    rfl
  cases outcome with
  | idle nothing same rest =>
    have rest := (rest.mono fun _ _ => trivial).trans follows
    obtain ⟨node', there, shows⟩ := exists_node_of_shown (ends.trans same ▸ before)
    refine ⟨rest.getElem?_found, node, node', here, there, ?_⟩
    rw [shows]
    apply fate_of_idle nothing noted timely rest clean
  | @done operation values seen sent size turned =>
    have rest := (turned.follows.mono fun _ which => which.elim).trans
      (follows.mono fun _ (which : False) => which.elim)
    have among : index < values.length := by
      rw [size, ← List.length_map (f := fun n => d.value n.2)]
      apply (List.getElem?_eq_some_iff.mp before).1
    have value : values[index]? = some values[index] := List.getElem?_eq_getElem among
    have after : (shown d τ.line)[index]? = some (values[index].getD (d.value node.module)) := by
      rw [ends, sent, List.getElem?_zipWith, before, value]
    obtain ⟨node', there, shows⟩ := exists_node_of_shown after
    refine ⟨rest.getElem?_found, node, node', here, there, ?_⟩
    rw [shows]
    apply fate_of_turned seen turned timely follows named value

end Passes

end DaisyChain.Gateway
