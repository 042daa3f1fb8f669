import DaisyChain.Proofs.Gateway.Sites
import DaisyChain.Proofs.Gateway.Slices
import DaisyChain.Proofs.Gateway.Turns

/-!
# Passes over a site

A pass over a site, a chain with a display that nobody else has access to.  A site that serves
(`Serving`) has as many modules as its chain has nodes, all nodes listen, and nothing is to be done
but for properties that the table carries.  Every turn keeps it that way, performs what is to be
done on the slice of its property and leaves the other slices alone (`serving_syncProperty`), so
a pass promotes every slice and gives it one turn (`serving_pass`).
-/

namespace DaisyChain

open Node

variable {M : Type}

namespace Gateway

variable {L : Type} {N : Nat} {d : Definition M} {property : PropertyId}

/-! ### Operations -/

/-- Faithful values are put into all modules. -/
theorem putAll_values (d : Definition M) {entries : List (Entry M)} {nodes : List (Engine × M)}
    (length : entries.length = nodes.length) :
  putAll d (nodes.map fun n => Frame.data (d.value n.2)) entries =
    (entries.zip nodes).map fun x => { x.1 with module := d.given (d.value x.2.2) x.1.module }
  := by
  induction nodes generalizing entries with
  | nil =>
    rw [List.length_eq_zero_iff.mp length]
    rfl
  | cons n nodes ih =>
    cases entries with
    | nil => contradiction
    | cons e entries =>
      rw [List.map_cons, putAll, ih (Nat.succ.inj length)]
      rfl

/-- What a write means for the node of an entry. -/
def Entry.chosen (d : Definition M) (property : PropertyId) (e : Entry M) : Option (List UInt8) :=
  if e.marks.contains property then some (d.value e.module) else none

section Operations

variable {c : Collection M N} {nodes : List (Engine × M)}

/-- A read puts the values of the nodes into the modules. -/
theorem Collection.performed_readAll (d : Definition M)
    (length : c.entries.length = nodes.length) :
  c.performed d .readAll nodes =
    { c with
      entries := putAll d (nodes.map fun n => Frame.data (d.value n.2)) c.entries : Collection M N
    }.markClean d.id
  := by
  rw [putAll_values d length]
  rfl

/-- A write does not touch the modules. -/
theorem Collection.performed_of_written (d : Definition M) {operation : Operation}
    (written : operation ≠ .readAll) (length : c.entries.length = nodes.length) :
  c.performed d operation nodes = c.markClean d.id
  := by
  have same : (c.entries.zip nodes).map (fun x => { x.1 with module := operation.held d x }) =
      c.entries := by
    refine Eq.trans (List.map_congr_left fun x _ => ?_) (List.map_fst_zip (Nat.le_of_eq length))
    cases operation with
    | readAll => contradiction
    | broadcast => rfl
    | writeMarked => rfl
  rw [performed, same]

/-- A read does not touch the nodes. -/
theorem Collection.nodesAfter_readAll (d : Definition M)
    (length : c.entries.length = nodes.length) :
  c.nodesAfter d .readAll nodes = nodes
  := List.map_snd_zip (Nat.le_of_eq length.symm)

/-- A broadcast gives every node the value of the first module. -/
theorem Collection.nodesAfter_broadcast (d : Definition M)
    (length : c.entries.length = nodes.length) :
  c.nodesAfter d .broadcast nodes =
    nodes.map fun n => delivered d n (some (c.slice d nodes).first)
  := by
  have same := congrArg (List.map fun n => delivered d n (some (c.slice d nodes).first))
    (List.map_snd_zip (Nat.le_of_eq length.symm))
  rw [List.map_map] at same
  apply same

/-- Nodes are given the values of the modules that wait for it. -/
theorem Collection.nodesAfter_writeMarked (d : Definition M) :
  c.nodesAfter d .writeMarked nodes =
    List.zipWith (delivered d) nodes (c.entries.map (Entry.chosen d d.id))
  := by
  rw [List.zipWith_map_right, List.zipWith_comm, ← List.map_uncurry_zip_eq_zipWith]
  apply List.map_congr_left
  rintro ⟨e, n⟩ _
  change (n.1, if e.marks.contains d.id then d.given (d.value e.module) n.2 else n.2) =
    delivered d n (e.chosen d d.id)
  rw [Entry.chosen]
  cases e.marks.contains d.id <;> rfl

end Operations

/-! ### Sites that serve -/

/-- The slice of a property in a session. -/
def Session.slice (σ : Session (Site (Chain M) M N)) (d : Definition M) : Slice :=
  σ.collection.slice d σ.line.pairs

/-- The session with another chain, another collection and another length of the chain. -/
def Session.become (σ : Session (Site (Chain M) M N)) (line : Chain M) (collection : Collection M N)
    (chainLength : Nat) : Session (Site (Chain M) M N) :=
  ⟨⟨line, { σ.env.display with collection := collection }⟩, chainLength⟩

variable {table : Table M} {carried : PropertyId → Prop} {σ : Session (Site (Chain M) M N)}

/-- An operation leaves a site that serves. -/
theorem serving_become (serving : Serving table carried σ.line σ.collection σ.chainLength)
    {operation : Operation} {c : Chain M} {count : Nat} (carry : carried d.id)
    (travels : d.id.Travels)
    (yields : c.Yields table (listeners (σ.collection.nodesAfter d operation σ.line.pairs)) [])
    (short : count ≤ σ.line.pairs.length) :
  let collection := σ.collection.performed d operation σ.line.pairs
  let σ' := σ.become c collection count
  σ'.line.pairs = σ.collection.nodesAfter d operation σ.line.pairs ∧
    Serving table carried c collection count
  := by
  refine serving.next yields ?_ ?_ ?_ short ?_
  · intro n member
    obtain ⟨x, among, rfl⟩ := List.mem_map.mp member
    exact ⟨x.2, (List.of_mem_zip among).2, rfl⟩
  · rw [Collection.nodesAfter, List.length_map, List.length_zip, serving.sized]
    apply Nat.min_self _
  · change (List.map _ (List.map _ (σ.collection.entries.zip σ.line.pairs))).length = _
    rw [List.length_map, List.length_map, List.length_zip, serving.sized]
    apply Nat.min_self _
  · intro p low uncarried
    have differs : d.id.wire ≠ p.wire := fun same => uncarried (travels.eq_of_wire low same ▸ carry)
    apply (Collection.operation?_performed_of_ne (Nat.le_of_eq serving.sized) differs _).trans
      (serving.nothing p low uncarried)

/-! ### Accesses to a site -/

variable [Inhabited M]

/-- The value of a module of a site. -/
theorem run_valueAt_site (faithful : d.Faithful) {σ : Session (Site L M N)} {index : Nat}
    {e : Entry M} (here : σ.env.entries[index]? = some e) :
  (valueAt d index : Act _ _).run σ = (.ok (d.value e.module), σ)
  := by
  have module : (Replica.module? index : StateM (Site L M N) _) σ.env =
      (some e.module, σ.env) := by
    change (σ.env.entries[index]?.map Entry.module, σ.env) = _
    rw [here]
    rfl
  rw [valueAt, run_bind_ok (run_within _)]
  simp only [Session.after, module, faithful.serialize_eq]
  rfl

/-- What a write means for a node of a site. -/
theorem run_choose_site (faithful : d.Faithful) {σ : Session (Site L M N)} {index : Nat}
    {e : Entry M} (here : σ.env.entries[index]? = some e) :
  (choose d property index : Act _ _).run σ = (.ok (e.chosen d property), σ)
  := by
  have marked : (Replica.mustWrite (M := M) index property : StateM (Site L M N) _) σ.env =
      (e.marks.contains property, σ.env) := by
    change (σ.env.entries[index]?.any fun e => e.marks.contains property, σ.env) = _
    rw [here]
    rfl
  rw [choose, run_bind_ok (run_within _)]
  simp only [Session.after, marked]
  rw [Entry.chosen]
  cases e.marks.contains property with
  | false => rfl
  | true =>
    change (valueAt d index >>= fun value => pure (some value) : Act _ _).run σ = _
    rw [run_bind_ok (run_valueAt_site faithful here)]
    rfl

/-- What a write means for the first nodes of a site. -/
theorem run_chooseAll_site (faithful : d.Faithful) (σ : Session (Site L M N)) {p : PropertyId}
    {count : Nat} (within : count ≤ σ.env.entries.length) :
  (chooseAll d p count : Act _ _).run σ =
    (.ok ((σ.env.entries.take count).map (Entry.chosen d p)).reverse, σ)
  := by
  induction count with
  | zero => rfl
  | succ index ih =>
    have here : σ.env.entries[index]? = some σ.env.entries[index] :=
      List.getElem?_eq_getElem within
    rw [chooseAll, run_bind_ok (run_choose_site faithful here),
      run_bind_ok (ih (Nat.le_of_succ_le within)), List.take_succ_eq_append_getElem within,
      List.map_append, List.reverse_append]
    rfl

/-! ### Turns -/

/-- The turn of a property performs the given operation, and leaves a chain with as many nodes. -/
def Completes (g : Gateway M) (table : Table M) (d : Definition M) (operation : Operation)
    (σ : Session (Site (Chain M) M N)) : Prop :=
  ∃ c count, c.Yields table (listeners (σ.collection.nodesAfter d operation σ.line.pairs)) [] ∧
    count ≤ σ.line.pairs.length ∧
    g.syncProperty d.id σ = ((), σ.become c (σ.collection.performed d operation σ.line.pairs) count)

section Operations

variable (g : Gateway M)
variable (serving : Serving table carried σ.line σ.collection σ.chainLength)

include serving

/-- There are modules after the look of a turn. -/
theorem tally_site (property : PropertyId) :
  (tally (σ.after (look property)).env).1 ≠ 0
  := by
  have counted : (tally (σ.after (look property)).env).1 = σ.line.pairs.length := serving.counted
  rw [counted]
  exact fun none => serving.nonempty (List.length_eq_zero_iff.mp none)

/-- Noting the number of nodes again changes nothing. -/
theorem noted_site :
  σ.noted σ.line.pairs.length = ⟨σ.env, σ.line.pairs.length⟩
  := by
  apply congrArg fun env => Session.mk env σ.line.pairs.length
  apply noteCount_site_same σ.env
  · apply le_modulesMax serving.few
  · rw [Nat.min_eq_left serving.roomy]
    apply serving.counted

variable (shared : g.table = table) (carries : table.Carries carried) (carry : carried d.id)
variable (found : table.find? d.id = some d)

include shared carries carry found

/-- The turn of a property that is to be read. -/
theorem completes_readAll (pending : σ.collection.operation? d.id = some .readAll) :
  Completes g table d .readAll σ
  := by
  have travels := PropertyId.travels_of_le (carries.real carry)
  have wide := carries.isErrorQuery_eq carry
  have faithful := carries.faithful carry found
  have noted : σ.noted σ.line.pairs.length = _ := noted_site serving
  let frames := σ.line.pairs.map fun n => Frame.data (d.value n.2)
  obtain ⟨put, refused⟩ : (takeValues d frames 0 {} σ.env).2 =
        σ.env.withEntries (putAll d frames σ.env.entries) ∧ (_ ↔ _) :=
    takeValues_site d frames σ.env (List.nil_append _).symm {}
  have accepted :
      (takeValues d frames 0 {} (σ.noted σ.line.pairs.length).env).1.refused = none := by
    rw [noted]
    refine refused.mpr ⟨rfl, ?_⟩
    rintro ⟨frame, e⟩ member data is
    obtain ⟨n, _, rfl⟩ := List.mem_map.mp (List.of_mem_zip member).1
    cases is
    apply faithful.takes _ _
  obtain ⟨c, after, run⟩ := syncProperty_readAll g faithful shared found travels wide serving.few
    serving.unrecorded serving.yields pending accepted
  refine ⟨c, σ.line.pairs.length, ?_, Nat.le_refl _, run.trans ?_⟩
  · rw [Collection.nodesAfter_readAll d serving.sized]
    apply after
  · rw [Collection.performed_readAll d serving.sized,
      show ((σ.after (look d.id)).after tally).noted _ = _ from noted]
    change ((), (Session.mk (clean d.id (takeValues d frames 0 {} σ.env).2).2 _).withLine c) = _
    rw [put]
    rfl

/-- The turn of a property that is to be written to all nodes alike. -/
theorem completes_broadcast (pending : σ.collection.operation? d.id = some .broadcast) :
  Completes g table d .broadcast σ
  := by
  have travels := PropertyId.travels_of_le (carries.real carry)
  have faithful := carries.faithful carry found
  have nonempty : σ.collection.entries ≠ [] := fun none =>
    serving.nonempty (List.length_eq_zero_iff.mp (serving.sized.symm.trans (congrArg List.length none)))
  obtain ⟨e, rest, entries⟩ := List.exists_cons_of_ne_nil nonempty
  have here : σ.env.entries[0]? = some e := congrArg (fun l => l[0]?) entries
  obtain ⟨c, after, run⟩ := syncProperty_broadcast g faithful shared found travels serving.nonempty
    serving.few serving.unrecorded serving.yields pending (tally_site serving d.id)
    (run_valueAt_site faithful here)
  refine ⟨c, σ.line.pairs.length, ?_, Nat.le_refl _, run.trans ?_⟩
  · rw [Collection.nodesAfter_broadcast d serving.sized,
      Collection.first_slice entries serving.sized]
    apply after
  · have noted : ((σ.after (look d.id)).after tally).noted σ.line.pairs.length = _ :=
      noted_site serving
    rw [Collection.performed_of_written d (by simp) serving.sized, noted]
    rfl

/-- The turn of a property that is to be written to some nodes. -/
theorem completes_writeMarked (pending : σ.collection.operation? d.id = some .writeMarked) :
  Completes g table d .writeMarked σ
  := by
  have travels := PropertyId.travels_of_le (carries.real carry)
  have faithful := carries.faithful carry found
  have spanned : max (tally ((σ.after (look d.id)).after tally).env).1 σ.chainLength =
      σ.line.pairs.length := by
    rw [show (tally ((σ.after (look d.id)).after tally).env).1 = σ.line.pairs.length from
      serving.counted]
    apply Nat.max_eq_left serving.short
  have chosen := run_chooseAll_site (p := d.id) faithful σ (Nat.le_of_eq serving.sized.symm)
  have every : σ.env.entries.take σ.line.pairs.length = σ.env.entries :=
    List.take_of_length_le (Nat.le_of_eq serving.sized)
  rw [every] at chosen
  have sent : ∀ value ∈ σ.env.entries.map (Entry.chosen d d.id),
      Definition.Faithful.Sent d value := by
    intro value member data is
    obtain ⟨e, _, rfl⟩ := List.mem_map.mp member
    rw [Entry.chosen] at is
    split at is
    · cases is
      exact ⟨e.module, rfl⟩
    · contradiction
  obtain ⟨c, after, run⟩ := syncProperty_writeMarked g faithful shared found travels serving.nonempty
    serving.few serving.unrecorded serving.yields pending (tally_site serving d.id) spanned sent
    chosen
  refine ⟨c, σ.chainLength, ?_, serving.short, run.trans ?_⟩
  · rw [Collection.nodesAfter_writeMarked]
    apply after
  · rw [Collection.performed_of_written d (by simp) serving.sized]
    rfl

/-- What is to be done for a property is done. -/
theorem syncProperty_site {operation : Operation}
    (pending : σ.collection.operation? d.id = some operation) :
  Completes g table d operation σ
  := by
  cases operation with
  | readAll => apply completes_readAll g serving shared carries carry found pending
  | broadcast => apply completes_broadcast g serving shared carries carry found pending
  | writeMarked => apply completes_writeMarked g serving shared carries carry found pending

end Operations

/-- A turn changes nothing if nothing is to be done. -/
theorem syncProperty_site_none (g : Gateway M) (nothing : σ.collection.operation? property = none) :
  g.syncProperty property σ = ((), σ)
  := syncProperty_none g nothing

/-- The turn of a property leaves a site that serves; it is the turn of its slice, and leaves the
slices of other properties alone. -/
theorem serving_syncProperty (g : Gateway M)
    (serving : Serving table carried σ.line σ.collection σ.chainLength) (shared : g.table = table)
    (carries : table.Carries carried) (member : d ∈ definitions table) :
  let σ' := (g.syncProperty d.id σ).2
  Serving table carried σ'.line σ'.collection σ'.chainLength ∧
    (carried d.id → σ'.slice d = (σ.slice d).turn) ∧
    ∀ d', carried d'.id → table.find? d'.id = some d' → d.id.wire ≠ d'.id.wire →
      σ'.slice d' = σ.slice d'
  := by
  obtain ⟨found, real⟩ := mem_definitions.mp member
  have travels := PropertyId.travels_of_le real
  have operation : (σ.slice d).operation? = σ.collection.operation? d.id :=
    Collection.operation?_slice (Nat.le_of_eq serving.sized)
  intro σ'
  cases pending : σ.collection.operation? d.id with
  | none =>
    have same : σ' = σ := congrArg Prod.snd (syncProperty_site_none g pending)
    rw [same]
    refine ⟨serving, fun _ => ?_, fun _ _ _ _ => rfl⟩
    rw [Slice.turn, operation, pending]
  | some op =>
    have carry := serving.carried_of_operation travels pending
    obtain ⟨c, count, yields, short, run⟩ := syncProperty_site g serving shared carries carry found
      pending
    have same : σ' = σ.become c (σ.collection.performed d op σ.line.pairs) count :=
      congrArg Prod.snd run
    obtain ⟨nodes, serving'⟩ := serving_become serving carry travels yields short
    rw [same]
    refine ⟨serving', fun _ => ?_, fun d' carry' found' differs => ?_⟩
    · rw [Session.slice, nodes, Slice.turn, operation, pending]
      apply Collection.slice_performed (carries.faithful carry found) op
    · have apart : d.id ≠ d'.id := fun same => differs (congrArg PropertyId.wire same)
      rw [Session.slice, nodes]
      apply Collection.slice_performed_of_ne (carries.spares carry carry' apart found found')
        differs op

/-! ### Passes -/

/-- Turns leave a site that serves, and the slices of properties that had no turn. -/
theorem serving_turns (g : Gateway M)
    (serving : Serving table carried σ.line σ.collection σ.chainLength) (shared : g.table = table)
    (carries : table.Carries carried) {ds : List (Definition M)}
    (among : ∀ d ∈ ds, d ∈ definitions table) :
  let σ' := (ds.forM (fun d => g.syncProperty d.id) σ).2
  Serving table carried σ'.line σ'.collection σ'.chainLength ∧
    ∀ d', carried d'.id → table.find? d'.id = some d' → (∀ d ∈ ds, d.id.wire ≠ d'.id.wire) →
      σ'.slice d' = σ.slice d'
  := by
  induction ds generalizing σ with
  | nil => exact ⟨serving, fun _ _ _ _ => rfl⟩
  | cons d ds ih =>
    obtain ⟨next, -, others⟩ := serving_syncProperty g serving shared carries
      (among d List.mem_cons_self)
    obtain ⟨last, kept⟩ := ih next fun e member => among e (List.mem_cons_of_mem _ member)
    refine ⟨last, fun d' carry found apart => ?_⟩
    apply (kept d' carry found fun e member => apart e (List.mem_cons_of_mem _ member)).trans
    apply others d' carry found (apart d List.mem_cons_self)

/-- The session with another collection. -/
def Session.withCollection (σ : Session (Site L M N)) (collection : Collection M N) :
    Session (Site L M N) :=
  { σ with env := { σ.env with display := { σ.env.display with collection := collection } } }

/-- The session after the notice that a pass has ended. -/
def Session.finished (σ : Session (Site L M N)) : Session (Site L M N) :=
  { σ with env := { σ.env with display := σ.env.display.finishPass } }

/-- A pass promotes, gives every property a turn, and gives notice. -/
theorem pass_site [Transport L] (g : Gateway M) (σ : Session (Site L M N)) :
  g.pass σ = ((), ((definitions g.table).forM (fun d => g.syncProperty d.id)
    (σ.withCollection (promoteAll g.table σ.collection))).2.finished)
  := rfl

/-- A pass leaves a site that serves; every slice is promoted and has its turn. -/
theorem serving_pass (g : Gateway M)
    (serving : Serving table carried σ.line σ.collection σ.chainLength) (shared : g.table = table)
    (carries : table.Carries carried) :
  let σ' := (g.pass σ).2
  Serving table carried σ'.line σ'.collection σ'.chainLength ∧ σ'.env.display.synchronized = true ∧
    ∀ d, carried d.id → table.find? d.id = some d → σ'.slice d = (σ.slice d).promote.turn
  := by
  subst shared
  let τ := σ.withCollection (promoteAll g.table σ.collection)
  have promoted : Serving g.table carried τ.line τ.collection τ.chainLength := by
    refine { serving with sized := ?_, nothing := ?_ }
    · apply (length_promotions _ _).trans serving.sized
    · intro p low uncarried
      apply operation?_promotions_of_none _ (serving.nothing p low uncarried)
  rw [pass_site]
  refine ⟨?_, rfl, fun d carry found => ?_⟩
  · obtain ⟨last, -⟩ := serving_turns (σ := τ) g promoted rfl carries fun d member => member
    exact { last with }
  · have member : d ∈ definitions g.table := mem_definitions.mpr ⟨found, carries.real carry⟩
    -- The turns before and after that of the property leave its slice alone.
    obtain ⟨front, back, split, before, behind⟩ := exists_split_definitions member
    obtain ⟨early, late⟩ := mem_of_split split
    obtain ⟨first, kept⟩ := serving_turns (σ := τ) g promoted rfl carries early
    obtain ⟨second, turned, -⟩ := serving_syncProperty g first rfl carries member
    obtain ⟨-, left⟩ := serving_turns g second rfl carries late
    have run := left d carry found behind
    rw [turned carry, kept d carry found before] at run
    rw [split]
    refine Eq.trans ?_ (run.trans (congrArg Slice.turn ?_))
    · rw [turns_split]
      rfl
    · apply slice_promoteAll (carries.faithful carry found) member serving.sized

/-- If nothing is to be done for properties, their turns do nothing, whatever the line. -/
theorem turns_of_none [Transport L] (g : Gateway M) {σ : Session (Site L M N)}
    {ds : List (Definition M)} (nothing : ∀ d ∈ ds, σ.collection.operation? d.id = none) :
  ds.forM (fun d => g.syncProperty d.id) σ = ((), σ)
  := by
  induction ds with
  | nil => rfl
  | cons d ds ih =>
    have first : g.syncProperty d.id σ = ((), σ) :=
      syncProperty_none g (nothing d List.mem_cons_self)
    have rest := ih fun e member => nothing e (List.mem_cons_of_mem _ member)
    change ds.forM (fun d => g.syncProperty d.id) (g.syncProperty d.id σ).2 = _
    rw [first]
    apply rest

/-- If nothing is to be done, a pass gives notice and does nothing else, whatever the line. -/
theorem pass_eq_finished [Transport L] (g : Gateway M) {σ : Session (Site L M N)}
    (nothing : ∀ d ∈ definitions g.table, σ.collection.operation? d.id = none) :
  g.pass σ = ((), σ.finished)
  := by
  have promoted : σ.withCollection (promoteAll g.table σ.collection) = σ := by
    rw [promoteAll, promotions_of_none nothing]
    rfl
  rw [pass_site, promoted, turns_of_none g nothing]

/-- If nothing is to be done and notice of that has been given, a pass does nothing, whatever the
line. -/
theorem pass_of_none [Transport L] (g : Gateway M) {σ : Session (Site L M N)}
    (nothing : ∀ d ∈ definitions g.table, σ.collection.operation? d.id = none)
    (noticed : σ.env.display.synchronized = true) :
  g.pass σ = ((), σ)
  := by
  rw [pass_eq_finished g nothing]
  obtain ⟨⟨line, collection, desynchronized, synchronized⟩, chainLength⟩ := σ
  cases noticed
  rfl

/-- If nothing is to be done but for one property, before its turn and after it, a pass is that
turn. -/
theorem pass_eq_turn [Transport L] (g : Gateway M) {σ : Session (Site L M N)}
    (member : d ∈ definitions g.table)
    (before : ∀ e ∈ definitions g.table, e.id.wire ≠ d.id.wire →
      σ.collection.operation? e.id = none) :
  let τ := (g.syncProperty d.id (σ.withCollection (promoteAll g.table σ.collection))).2
  (∀ e ∈ definitions g.table, e.id.wire ≠ d.id.wire → τ.collection.operation? e.id = none) →
    (g.pass σ).2 = τ.finished
  := by
  intro τ behind
  obtain ⟨front, back, split, apart, apart'⟩ := exists_split_definitions member
  obtain ⟨early, late⟩ := mem_of_split split
  let ρ := σ.withCollection (promoteAll g.table σ.collection)
  have first : front.forM (fun d => g.syncProperty d.id) ρ = ((), ρ) := by
    refine turns_of_none g fun e within => operation?_promotions_of_none _ ?_
    exact before e (early e within) (apart e within)
  have last : back.forM (fun d => g.syncProperty d.id) τ = ((), τ) := by
    exact turns_of_none g fun e within => behind e (late e within) (apart' e within)
  rw [pass_site, split, turns_split, first]
  exact congrArg (fun r : Unit × Session (Site L M N) => r.2.finished) last

end Gateway

end DaisyChain
