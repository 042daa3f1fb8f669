import DaisyChain.Gateway.Worker
import DaisyChain.Proofs.Gateway.Transfers

/-!
# The turn of a property

What the worker does for one property of a pass: it looks for what is to be done, does it, and
marks the property clean.  With nodes that listen and have no records, and a faithful property,
nothing can go wrong (`syncProperty_readAll`, `syncProperty_broadcast`,
`syncProperty_writeMarked`).
-/

namespace DaisyChain.Gateway

open Node

variable {S M : Type} {N : Nat}

/-! ### Accesses -/

section Accesses

variable [Shared S M N]

/-- Find out what is to be done for a property. -/
def look (property : PropertyId) : StateM S (Option Operation) :=
  Shared.onCollection fun c => (c.operation? property, c)

/-- Forget all that waits to be done for a property. -/
def clean (property : PropertyId) : StateM S Unit :=
  Shared.onCollection fun c => ((), c.markClean property)

/-- Count the modules. -/
def tally [Inhabited M] : StateM S Nat :=
  Replica.count (M := M)

/-- Finding out what is to be done is done aside from the line. -/
theorem aside_look [Transport S] [OnChain S M] [SharedApart S M N] (property : PropertyId) :
  Aside (look property : StateM S _)
  := SharedApart.access _

/-- Marking a property clean is done aside from the line. -/
theorem aside_clean [Transport S] [OnChain S M] [SharedApart S M N] (property : PropertyId) :
  Aside (clean property : StateM S Unit)
  := SharedApart.access _

end Accesses

/-! ### Chains that serve -/

/-- Something waits to be done for a property. -/
def Collection.Pending (c : Collection M N) (property : PropertyId) : Prop :=
  c.reads.contains property ∨ c.writes.contains property ∨ c.anyMarked property

/-- If something waits to be done for a property, there is an operation that does it. -/
theorem Collection.pending_iff {c : Collection M N} {property : PropertyId} :
  c.Pending property ↔ c.operation? property ≠ none
  := by
  rw [Pending, operation?]
  cases c.reads.contains property <;> cases c.writes.contains property <;>
    cases c.anyMarked property <;> simp

/-- Nothing has gone wrong on the chain, the collection has a module for each node, and nothing is
to be done but for the given properties. -/
structure Serving (table : Table M) (carried : PropertyId → Prop) (line : Chain M)
    (collection : Collection M N) (chainLength : Nat) : Prop where
  yields : line.Yields table (listeners line.pairs) []
  listening : ∀ n ∈ line.pairs, n.1.enter (.listening .nothing) 0 = n.1
  unrecorded : ∀ n ∈ line.pairs, n.1.record = none
  nonempty : line.pairs ≠ []
  few : line.pairs.length < countModulus
  sized : collection.entries.length = line.pairs.length
  roomy : line.pairs.length ≤ N
  short : chainLength ≤ line.pairs.length
  nothing : ∀ p : PropertyId, p.Travels → ¬carried p → collection.operation? p = none

section Serving

variable {table : Table M} {carried : PropertyId → Prop} {line line' : Chain M}
variable {collection collection' : Collection M N} {count count' : Nat}

/-- The modules of a collection that has one for each node are counted. -/
theorem Serving.counted (serving : Serving table carried line collection count) :
  collection.counted = line.pairs.length
  := Collection.counted_eq serving.sized serving.few

/-- A chain still serves if it yields as many nodes with engines that it had. -/
theorem Serving.next (serving : Serving table carried line collection count)
    {nodes : List (Engine × M)} (yields : line'.Yields table (listeners nodes) [])
    (engines : ∀ n ∈ nodes, ∃ n' ∈ line.pairs, n.1 = n'.1)
    (length : nodes.length = line.pairs.length)
    (sized : collection'.entries.length = line.pairs.length)
    (short : count' ≤ line.pairs.length)
    (nothing : ∀ p : PropertyId, p.Travels → ¬carried p → collection'.operation? p = none) :
  line'.pairs = nodes ∧ Serving table carried line' collection' count'
  := by
  have listening : ∀ n ∈ nodes, n.1.enter (.listening .nothing) 0 = n.1 := by
    intro n member
    obtain ⟨n', among, same⟩ := engines n member
    rw [same]
    apply serving.listening n' among
  have pairs : line'.pairs = nodes := yields.pairs_eq listening
  have unrecorded : ∀ n ∈ nodes, n.1.record = none := by
    intro n member
    obtain ⟨n', among, same⟩ := engines n member
    rw [same]
    apply serving.unrecorded n' among
  have some : nodes ≠ [] := by
    rintro rfl
    apply serving.nonempty (List.length_eq_zero_iff.mp length.symm)
  refine ⟨pairs, ?_⟩
  rw [← length] at sized short
  subst pairs
  exact ⟨yields, listening, unrecorded, some, length ▸ serving.few, sized, length ▸ serving.roomy,
    short, nothing⟩

/-- What is to be done is to be done for the given properties. -/
theorem Serving.carried_of_operation (serving : Serving table carried line collection count)
    {p : PropertyId} {operation : Operation} (travels : p.Travels)
    (pending : collection.operation? p = some operation) :
  carried p
  := by
  apply Classical.byContradiction
  intro uncarried
  rw [serving.nothing p travels uncarried] at pending
  contradiction

/-- An idle chain serves if the collection has a module for each node and nothing else is to be
done. -/
theorem Serving.of_idle (chain : line.table = table) (idle : line.Idle)
    (some : line.nodes ≠ []) (few : line.nodes.length < countModulus)
    (roomy : line.nodes.length ≤ N) (sized : collection.size = line.nodes.length)
    (short : count ≤ line.nodes.length)
    (nothing : ∀ p : PropertyId, p.Travels → collection.Pending p → carried p) :
  Serving table carried line collection count
  := by
  have length : line.pairs.length = line.nodes.length := List.length_map _
  rw [← length] at few roomy sized short
  refine ⟨?_, ?_, ?_, ?_, few, sized, roomy, short, ?_⟩
  · rw [← chain]
    apply idle.yields
  · intro n member
    obtain ⟨node, among, rfl⟩ := List.mem_map.mp member
    have listening := idle.listening node among
    obtain ⟨⟨phase, since, staged, record⟩, m, out, stalled⟩ := node
    cases listening
    rfl
  · intro n member
    obtain ⟨node, among, rfl⟩ := List.mem_map.mp member
    apply idle.unrecorded node among
  · exact fun none => some (List.map_eq_nil_iff.mp none)
  · intro p low uncarried
    apply Classical.byContradiction
    intro pending
    apply uncarried (nothing p low (Collection.pending_iff.mpr pending))

end Serving

/-- Nodes that are all given the same, or nothing. -/
theorem zipWith_delivered_replicate (d : Definition M) (nodes : List (Engine × M))
    (value : Option (List UInt8)) :
  List.zipWith (delivered d) nodes (List.replicate nodes.length value) =
    nodes.map fun n => delivered d n value
  := by
  induction nodes with
  | nil => rfl
  | cons n rest ih =>
    rw [List.length_cons, List.replicate_succ, List.zipWith_cons_cons, ih, List.map_cons]

/-! ### Turns -/

variable [Transport S] [Shared S M N] [Inhabited M]
variable {σ τ : Session S} {property : PropertyId}

/-- What is done in the turn of a property after a look for what is to be done. -/
def attend (g : Gateway M) (property : PropertyId) : Option Operation → StateM (Session S) Unit
  | none => return ()
  | some operation => do
    let count ← inside tally
    let result? ← g.perform property operation count
    if result?.any settled then inside (clean property)

/-- The turn of a property begins with a look for what is to be done. -/
theorem syncProperty_eq (g : Gateway M) :
  g.syncProperty property σ =
    attend g property (look property σ.env).1 (σ.after (look property))
  := rfl

/-- If nothing is to be done for a property, nothing is done. -/
theorem syncProperty_none (g : Gateway M) (nothing : (look property σ.env).1 = none) :
  g.syncProperty property σ = ((), σ.after (look property))
  := by
  rw [syncProperty_eq, nothing]
  rfl

/-- If something is to be done for a property, it is done, unless there is no module to be written;
the property is marked clean once it is settled. -/
theorem syncProperty_performed (g : Gateway M) {operation : Operation}
    {result? : Option (Except Failure Unit)}
    (pending : (look property σ.env).1 = some operation)
    (performed : g.perform property operation (tally (σ.after (look property)).env).1
      ((σ.after (look property)).after tally) = (result?, τ)) :
  g.syncProperty property σ = ((), if result?.any settled then τ.after (clean property) else τ)
  := by
  rw [syncProperty_eq, pending]
  change (fun r : Option (Except Failure Unit) × Session S =>
    (if r.1.any settled then inside (clean property) else pure () : StateM (Session S) Unit) r.2)
      (g.perform property operation (tally (σ.after (look property)).env).1
        ((σ.after (look property)).after tally)) = _
  rw [performed]
  cases done : result?.any settled <;> simp only [done] <;> rfl

/-- If something is to be done for a property, it is done, and the property is marked clean unless
it is to be done again. -/
theorem syncProperty_some (g : Gateway M) {operation : Operation} {result : Except Failure Unit}
    (pending : (look property σ.env).1 = some operation)
    (performed : g.perform property operation (tally (σ.after (look property)).env).1
      ((σ.after (look property)).after tally) = (some result, τ)) :
  g.syncProperty property σ = ((), if settled result then τ.after (clean property) else τ)
  := syncProperty_performed g pending performed

/-- If something is to be done for a property and succeeds, the property is marked clean. -/
theorem syncProperty_ok (g : Gateway M) {operation : Operation}
    (pending : (look property σ.env).1 = some operation)
    (performed : g.perform property operation (tally (σ.after (look property)).env).1
      ((σ.after (look property)).after tally) = (some (.ok ()), τ)) :
  g.syncProperty property σ = ((), τ.after (clean property))
  := syncProperty_some g pending performed

/-- The turn of a property comes between those of the properties before and after it. -/
theorem turns_split (g : Gateway M) (front back : List (Definition M)) (d : Definition M)
    (σ : Session S) :
  (front ++ d :: back).forM (fun d => g.syncProperty d.id) σ =
    back.forM (fun d => g.syncProperty d.id)
      (g.syncProperty d.id (front.forM (fun d => g.syncProperty d.id) σ).2).2
  := by
  have turns : (front ++ d :: back).forM (fun d => g.syncProperty d.id) = (do
      front.forM fun d => g.syncProperty d.id
      (d :: back).forM fun d => g.syncProperty d.id :
        StateM (Session S) Unit) := List.forM_append
  rw [turns]
  rfl

/-- A broadcast that succeeds is not repeated. -/
theorem run_broadcastAgain (g : Gateway M) (retries : Nat)
    (sent : (g.writeAll property .all false : Act S Unit).run σ = (.ok (), τ)) :
  (g.broadcastAgain property retries : Act S Unit).run σ = (.ok (), τ)
  := by
  cases retries with
  | zero => apply sent
  | succ retries =>
    rw [broadcastAgain]
    apply run_tryCatch_ok sent

/-- A broadcast that fails is not repeated if no other attempt can succeed. -/
theorem run_broadcastAgain_final (g : Gateway M) {failure : Failure}
    (failed : (g.writeAll property .all false : Act S Unit).run σ = (.error failure, τ))
    (final : failure.isRetryable = false) (retries : Nat) :
  (g.broadcastAgain property retries : Act S Unit).run σ = (.error failure, τ)
  := by
  cases retries with
  | zero => apply failed
  | succ retries =>
    rw [broadcastAgain, run_tryCatch_error failed, final]
    rfl

/-- A broadcast that fails is repeated after a pause, if another attempt may succeed. -/
theorem run_broadcastAgain_error [OnChain S M] (g : Gateway M) {failure : Failure}
    (failed : (g.writeAll property .all false : Act S Unit).run σ = (.error failure, τ))
    (retryable : failure.isRetryable = true) (retries : Nat) :
  (g.broadcastAgain property (retries + 1) : Act S Unit).run σ =
    (g.broadcastAgain property retries : Act S Unit).run
      (τ.withLine (τ.line.advance g.settings.pause))
  := by
  rw [broadcastAgain, run_tryCatch_error failed, if_pos retryable]
  exact run_bind_ok (run_recover g τ)

/-- Single nodes are written to by a write to as many nodes as are known of. -/
theorem run_writeMarked (g : Gateway M) (σ : Session S) :
  (g.writeMarked property : Act S Unit).run σ =
    (g.writeAll property (.each (max (tally σ.env).1 σ.chainLength)) false : Act S Unit).run
      (σ.after tally)
  := by
  have counted : (within Replica.count : Act S Nat).run σ =
      (.ok (tally σ.env).1, σ.after tally) := rfl
  have seen : (get : Act S (Session S)).run (σ.after tally) =
      (.ok (σ.after tally), σ.after tally) := rfl
  rw [writeMarked, run_bind_ok counted, run_bind_ok seen]
  rfl

/-! ### Turns without failures -/

section Faithful

variable [OnChain S M] [SharedApart S M N] {table : Table M} {d : Definition M}
variable {nodes : List (Engine × M)}

/-- Counting the modules is done aside from the line. -/
theorem aside_tally :
  Aside (tally : StateM S Nat)
  := SharedApart.access _

/-- A property that waits to be read is read from every node. -/
theorem syncProperty_readAll (g : Gateway M) (faithful : d.Faithful)
    (shared : g.table = table) (found : table.find? property = some d)
    (travels : property.Travels) (real : property.isErrorQuery = false)
    (few : nodes.length < countModulus) (unrecorded : ∀ n ∈ nodes, n.1.record = none)
    (yields : σ.line.Yields table (listeners nodes) [])
    (pending : (look property σ.env).1 = some .readAll) :
  let τ := (σ.after (look property)).after tally
  let take : StateM S Trouble :=
    takeValues d (nodes.map fun n => Frame.data (d.value n.2)) 0 {}
  (take (τ.noted nodes.length).env).1.refused = none →
    ∃ c : Chain M, c.Yields table (listeners nodes) [] ∧
      g.syncProperty property σ =
        ((), (((τ.noted nodes.length).after take).after (clean property)).withLine c)
  := by
  intro τ take accepted
  have line : τ.line = σ.line := by
    rw [aside_tally.line_after, (aside_look property).line_after]
  obtain ⟨c, after, run⟩ := run_readAll_faithful g faithful shared found travels real few unrecorded
    (by rw [line]; exact yields) accepted
  refine ⟨c, after, ?_⟩
  have performed : g.perform property .readAll (tally (σ.after (look property)).env).1 τ =
      (some (.ok ()), ((τ.noted nodes.length).after take).withLine c) :=
    congrArg (fun r : Except Failure Unit × Session S => (some r.1, r.2)) run
  rw [syncProperty_ok g pending performed, (aside_clean property).after_withLine]

/-- A property that waits to be written to all nodes is broadcast. -/
theorem syncProperty_broadcast (g : Gateway M) (faithful : d.Faithful)
    (shared : g.table = table) (found : table.find? property = some d)
    (travels : property.Travels) (some : nodes ≠ []) (few : nodes.length < countModulus)
    (unrecorded : ∀ n ∈ nodes, n.1.record = none)
    (yields : σ.line.Yields table (listeners nodes) [])
    (pending : (look property σ.env).1 = .some .broadcast)
    (counted : (tally (σ.after (look property)).env).1 ≠ 0) {m : M}
    (chosen : (valueAt d 0 : Act S _).run ((σ.after (look property)).after tally) =
      (.ok (d.value m), τ)) :
  ∃ c : Chain M,
    c.Yields table (listeners (nodes.map fun n => delivered d n (.some (d.value m)))) [] ∧
      g.syncProperty property σ =
        ((), ((τ.noted nodes.length).after (clean property)).withLine c)
  := by
  have line : ((σ.after (look property)).after tally).line = σ.line := by
    rw [aside_tally.line_after, (aside_look property).line_after]
  obtain ⟨bytes, fits⟩ := faithful.exists_encode m
  have delivers : Delivers d property nodes.length ((σ.after (look property)).after tally)
      (List.replicate nodes.length (.some (d.value m))) τ .all := ⟨_, bytes, chosen, fits, rfl⟩
  have sent : ∀ value ∈ List.replicate nodes.length (.some (d.value m)),
      Definition.Faithful.Sent d value := by
    intro value member data is
    rw [List.eq_of_mem_replicate member] at is
    cases is
    exact ⟨m, rfl⟩
  obtain ⟨c, after, run⟩ := run_writeAll_faithful g faithful shared found travels some few
    unrecorded sent delivers (by rw [line]; exact yields)
  rw [zipWith_delivered_replicate] at after
  refine ⟨c, after, ?_⟩
  have performed : g.perform property .broadcast (tally (σ.after (look property)).env).1
      ((σ.after (look property)).after tally) =
        (.some (.ok ()), (τ.noted nodes.length).withLine c) := by
    rw [perform, if_neg counted]
    apply congrArg (fun r : Except Failure Unit × Session S => (Option.some r.1, r.2))
      (run_broadcastAgain g g.settings.retries run)
  rw [syncProperty_ok g pending performed, (aside_clean property).after_withLine]

/-- A property that waits to be written to single nodes is written to these. -/
theorem syncProperty_writeMarked (g : Gateway M) (faithful : d.Faithful)
    (shared : g.table = table) (found : table.find? property = some d)
    (travels : property.Travels) (some : nodes ≠ []) (few : nodes.length < countModulus)
    (unrecorded : ∀ n ∈ nodes, n.1.record = none)
    (yields : σ.line.Yields table (listeners nodes) [])
    (pending : (look property σ.env).1 = .some .writeMarked)
    (counted : (tally (σ.after (look property)).env).1 ≠ 0)
    (spanned : max (tally ((σ.after (look property)).after tally).env).1 σ.chainLength =
      nodes.length)
    {values : List (Option (List UInt8))}
    (sent : ∀ value ∈ values, Definition.Faithful.Sent d value)
    (chosen : (chooseAll d property nodes.length : Act S _).run
      (((σ.after (look property)).after tally).after tally) = (.ok values.reverse, τ)) :
  ∃ c : Chain M, c.Yields table (listeners (List.zipWith (delivered d) nodes values)) [] ∧
    g.syncProperty property σ = ((), (τ.after (clean property)).withLine c)
  := by
  let ρ := (σ.after (look property)).after tally
  have line : (ρ.after tally).line = σ.line := by
    rw [aside_tally.line_after, aside_tally.line_after, (aside_look property).line_after]
  have sent' : ∀ value ∈ values.reverse, Definition.Faithful.Sent d value :=
    fun value member => sent value (List.mem_reverse.mp member)
  obtain ⟨batch, closed⟩ := faithful.exists_sealedAll sent'
  have delivers : Delivers d property nodes.length (ρ.after tally) values τ (.each nodes.length) :=
    ⟨rfl, batch, chosen, closed⟩
  obtain ⟨c, after, run⟩ := run_writeAll_faithful g faithful shared found travels some few
    unrecorded sent delivers (by rw [line]; exact yields)
  refine ⟨c, after, ?_⟩
  have written : (g.writeMarked property : Act S Unit).run ρ = (.ok (), τ.withLine c) := by
    rw [run_writeMarked, show max (tally ρ.env).1 ρ.chainLength = nodes.length from spanned]
    apply run
  have performed : g.perform property .writeMarked (tally (σ.after (look property)).env).1 ρ =
      (.some (.ok ()), τ.withLine c) := by
    rw [perform, if_neg counted]
    apply congrArg (fun r : Except Failure Unit × Session S => (Option.some r.1, r.2)) written
  rw [syncProperty_ok g pending performed, (aside_clean property).after_withLine]

end Faithful

end DaisyChain.Gateway
