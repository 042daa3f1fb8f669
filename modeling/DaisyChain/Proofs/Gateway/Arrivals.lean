import DaisyChain.Proofs.Gateway.Attending

/-!
# What a pass conveys

A pass on an attentive chain conveys all values that are due once the properties have been promoted
(`pass_conveys`), if the properties leave each other alone and what is due can be conveyed.  So it
does not matter which turns come before that of a property, and which ones come after it.
-/

namespace DaisyChain

variable {M : Type}

/-- Giving a module a value of one property of a pass does not change what another one is laid out
as. -/
def Gateway.Independent (table : Table M) : Prop :=
  ∀ d ∈ definitions table, ∀ d' ∈ definitions table, d.id ≠ d'.id → d.Leaves d'

namespace Gateway

variable {N : Nat} {d : Definition M} {g : Gateway M} {table : Table M}

/-- Independent properties that are told apart on the line avoid each other. -/
theorem Independent.avoids (independent : Independent table) {d' : Definition M}
    (member : d ∈ definitions table) (member' : d' ∈ definitions table)
    (differs : d.id.wire ≠ d'.id.wire) :
  d.Avoids d'
  := ⟨differs, independent d member d' member' fun same => differs (congrArg PropertyId.wire same)⟩

/-- The properties of a pass avoid those that come later. -/
theorem Independent.pairwise (independent : Independent table) :
  (definitions table).Pairwise Definition.Avoids
  := by
  have apart := List.pairwise_map.mp (nodup_definitions table)
  exact apart.imp_of_mem fun member member' differs => independent.avoids member member' differs

/-- What is due of a property can be conveyed. -/
def Session.Conveys (σ : Session (Site (Chain M) M N)) (d : Definition M) : Prop :=
  ∀ i m, (σ.collection.outline d.id).due d i = some m → d.Conveys m

/-! ### Properties without a turn -/

/-- Turns of other properties leave a session that attends; outlines stay alike, and the modules of
the nodes are laid out as before. -/
structure Session.Spared (g : Gateway M) (P : Definition M → Prop)
    (σ σ' : Session (Site (Chain M) M N)) : Prop where
  attending : σ'.Attending g
  length : σ'.line.modules.length = σ.line.modules.length
  alike : ∀ {d}, P d → Outline.Alike d (σ.collection.outline d.id) (σ'.collection.outline d.id)
  same : ∀ {d}, P d → ∀ {i : Nat} {m m' : M}, σ.line.modules[i]? = some m →
    σ'.line.modules[i]? = some m' → d.serialize m' = d.serialize m

variable {P Q : Definition M → Prop} {σ σ' σ'' : Session (Site (Chain M) M N)}

namespace Session.Spared

/-- Without any turn, everything is spared. -/
theorem refl (attending : σ.Attending g) :
  σ.Spared g P σ
  := by
  refine ⟨attending, rfl, fun _ => .refl _ _, ?_⟩
  intro d _ i m m' here here'
  rw [here] at here'
  cases here'
  rfl

/-- What two turns spare is spared by both in turn. -/
theorem trans (first : σ.Spared g P σ') (second : σ'.Spared g Q σ'') :
  σ.Spared g (fun d => P d ∧ Q d) σ''
  := by
  refine ⟨second.attending, second.length.trans first.length,
    fun both => (first.alike both.1).trans (second.alike both.2), ?_⟩
  intro d both i m m'' here here''
  have within := (List.getElem?_eq_some_iff.mp here).1
  rw [← first.length] at within
  have here' := List.getElem?_eq_getElem within
  exact (second.same both.2 here' here'').trans (first.same both.1 here here')

/-- What is due of a property that is spared can still be conveyed. -/
theorem conveys (spared : σ.Spared g P σ') (attending : σ.Attending g) (within : P d)
    (conveys : σ.Conveys d) :
  σ'.Conveys d
  := by
  intro i m' due'
  have filled : (σ.collection.outline d.id).places ≠ [] := fun none =>
    attending.filled (List.map_eq_nil_iff.mp none)
  have like := (spared.alike within).due_rel filled i
  generalize due : (σ.collection.outline d.id).due d i = source at like
  rw [due'] at like
  cases like with
  | some laid => exact (conveys i _ due).of_serialize laid

end Session.Spared

/-- A turn spares what its property avoids. -/
theorem Session.Turned.spared (turned : σ.Turned g d σ') :
  σ.Spared g d.Avoids σ'
  := ⟨turned.attending, turned.conveyed.length,
    fun avoids => turned.alike avoids.leaves avoids.differs,
    fun avoids _ _ _ here here' => turned.conveyed.touched here here' _ avoids.leaves⟩

variable [Inhabited M]

/-- Turns spare what their properties avoid. -/
theorem spared_turns {ds : List (Definition M)} (attending : σ.Attending g)
    (among : ∀ d ∈ ds, d ∈ definitions g.table) (apart : ds.Pairwise Definition.Avoids)
    (conveys : ∀ d ∈ ds, σ.Conveys d) :
  σ.Spared g (fun d' => ∀ d ∈ ds, d.Avoids d') (ds.forM (fun d => g.syncProperty d.id) σ).2
  := by
  induction ds generalizing σ with
  | nil => exact .refl attending
  | cons d ds ih =>
    obtain ⟨before, apart⟩ := List.pairwise_cons.mp apart
    have first := (turned_syncProperty attending (among d List.mem_cons_self)
      (conveys d List.mem_cons_self)).spared
    have rest := ih first.attending (fun e member => among e (List.mem_cons_of_mem _ member)) apart
      fun e member => first.conveys attending (before e member)
        (conveys e (List.mem_cons_of_mem _ member))
    obtain ⟨attending, length, alike, same⟩ := first.trans rest
    have both {d'} (avoided : ∀ e ∈ d :: ds, e.Avoids d') :
        d.Avoids d' ∧ ∀ e ∈ ds, e.Avoids d' :=
      ⟨avoided d List.mem_cons_self, fun e member => avoided e (List.mem_cons_of_mem _ member)⟩
    exact ⟨attending, length, fun avoided => alike (both avoided),
      fun avoided => same (both avoided)⟩

/-! ### Passes -/

/-- The turns of all properties convey what is due; the other nodes keep their values, and so do the
modules unless the property is read. -/
theorem turns_convey (attending : σ.Attending g) (independent : Independent g.table)
    (conveys : ∀ d ∈ definitions g.table, σ.Conveys d) (member : d ∈ definitions g.table) :
  let due := (σ.collection.outline d.id).due d
  let σ' := ((definitions g.table).forM (fun d => g.syncProperty d.id) σ).2
  σ'.line.modules.length = σ.line.modules.length ∧
  (∀ {i : Nat} {m m' : M}, σ.line.modules[i]? = some m → σ'.line.modules[i]? = some m' →
    d.value m' = d.value ((due i).getD m)) ∧
  (σ.collection.operation? d.id ≠ some .readAll → ∀ {i : Nat} {m : M},
    σ.collection.module? i = some m →
      ∃ m', σ'.collection.module? i = some m' ∧ d.serialize m' = d.serialize m)
  := by
  intro due σ'
  obtain ⟨front, back, split, before, behind⟩ := exists_split_definitions member
  obtain ⟨early, late⟩ := mem_of_split split
  have ordered := independent.pairwise
  rw [split, List.pairwise_append, List.pairwise_cons] at ordered
  obtain ⟨apart, ⟨avoided, apart'⟩, across⟩ := ordered
  -- The turns before that of the property spare it, and what comes later.
  let τ := (front.forM (fun d => g.syncProperty d.id) σ).2
  have first : σ.Spared g (fun d' => ∀ e ∈ front, e.Avoids d') τ :=
    spared_turns attending early apart fun e within => conveys e (early e within)
  have sendable (e) (within : e ∈ d :: back) : τ.Conveys e :=
    first.conveys attending (fun e' within' => across e' within' e within)
      (conveys e (List.forall_mem_cons.mpr ⟨member, late⟩ e within))
  -- Its own turn conveys what is due.
  let τ' := (g.syncProperty d.id τ).2
  have turned : τ.Turned g d τ' :=
    turned_syncProperty first.attending member (sendable d List.mem_cons_self)
  -- The turns after it spare it, too.
  have second : τ'.Spared g (fun d' => ∀ e ∈ back, e.Avoids d')
      (back.forM (fun d => g.syncProperty d.id) τ').2 :=
    spared_turns turned.attending late apart' fun e within =>
      turned.spared.conveys first.attending (avoided e within)
        (sendable e (List.mem_cons_of_mem _ within))
  have ends : σ' = (back.forM (fun d => g.syncProperty d.id) τ').2 := by
    change ((definitions g.table).forM (fun d => g.syncProperty d.id) σ).2 = _
    rw [split, turns_split]
  rw [← ends] at second
  have clear : ∀ e ∈ front, e.Avoids d := fun e within =>
    independent.avoids (early e within) member (before e within)
  have clear' : ∀ e ∈ back, e.Avoids d := fun e within =>
    independent.avoids (late e within) member (behind e within)
  have alike := first.alike clear
  refine ⟨second.length.trans (turned.conveyed.length.trans first.length), ?_, ?_⟩
  · intro i m m' here here'
    have filled : (σ.collection.outline d.id).places ≠ [] := fun none =>
      attending.filled (List.map_eq_nil_iff.mp none)
    have conveyed := turned.conveyed.congr (alike.due_rel filled)
    have within := (List.getElem?_eq_some_iff.mp here).1
    rw [← first.length] at within
    have here₁ := List.getElem?_eq_getElem within
    rw [← conveyed.length] at within
    have here₂ := List.getElem?_eq_getElem within
    rw [Definition.value_of_serialize (second.same clear' here₂ here')]
    cases is : due i with
    | none =>
      rw [conveyed.untouched here₁ here₂ is]
      exact Definition.value_of_serialize (first.same clear here here₁)
    | some source => exact conveyed.arrived here₂ is
  · intro unread i m here
    rw [← σ.collection.module?_outline d.id] at here
    obtain ⟨m₁, here₁, laid₁⟩ := alike.exists_module here
    have unread' : τ.collection.operation? d.id ≠ some .readAll := by
      rw [← Collection.operation?_outline, alike.operation?_eq, Collection.operation?_outline]
      exact unread
    rw [Collection.module?_outline] at here₁
    obtain ⟨m₂, here₂, laid₂⟩ := turned.kept unread' here₁
    rw [← τ'.collection.module?_outline d.id] at here₂
    obtain ⟨m', here', laid'⟩ := (second.alike clear').exists_module here₂
    rw [Collection.module?_outline] at here'
    exact ⟨m', here', laid'.trans (laid₂.trans laid₁)⟩

/-- The module whose value is due to the node of the given index once the property has been
promoted, if one is. -/
def Session.dueOf (σ : Session (Site (Chain M) M N)) (d : Definition M) (i : Nat) : Option M :=
  ((σ.collection.outline d.id).promote d).due d i

/-- A pass conveys what is due after a promotion; the other nodes keep their values, and so do the
modules of properties that do not wait to be read. -/
theorem pass_conveys (attending : σ.Attending g) (independent : Independent g.table)
    (conveys : ∀ d ∈ definitions g.table, ∀ i m, σ.dueOf d i = some m → d.Conveys m)
    (member : d ∈ definitions g.table) :
  let σ' := (g.pass σ).2
  σ'.line.modules.length = σ.line.modules.length ∧
  (∀ {i : Nat} {m m' : M}, σ.line.modules[i]? = some m → σ'.line.modules[i]? = some m' →
    d.value m' = d.value ((σ.dueOf d i).getD m)) ∧
  (σ.collection.reads.contains d.id = false → ∀ {i : Nat} {m : M},
    σ.collection.module? i = some m →
      ∃ m', σ'.collection.module? i = some m' ∧ d.serialize m' = d.serialize m)
  := by
  intro σ'
  let τ := σ.withCollection (promoteAll g.table σ.collection)
  have outline {e : Definition M} (member : e ∈ definitions g.table) :
      τ.collection.outline e.id = (σ.collection.outline e.id).promote e :=
    σ.collection.outline_promoteAll member
  have promoted : τ.Attending g :=
    attending.of_entries (length_promotions _ _)
  have sendable : ∀ e ∈ definitions g.table, τ.Conveys e := by
    intro e among i m due
    rw [outline among] at due
    exact conveys e among i m due
  obtain ⟨length, values, kept⟩ := turns_convey promoted independent sendable member
  rw [outline member] at values
  refine ⟨length, values, ?_⟩
  intro unread i m here
  refine kept ?_ ?_
  · rw [← Collection.operation?_outline, outline member]
    exact Outline.operation?_promote unread
  · rw [← Collection.module?_outline _ d.id, outline member, ← List.getElem?_map,
      Outline.modules_promote, List.getElem?_map, Collection.module?_outline]
    exact here

end Gateway

end DaisyChain
