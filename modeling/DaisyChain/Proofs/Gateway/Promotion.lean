import DaisyChain.Proofs.Gateway.Earned
import DaisyChain.Proofs.Gateway.Outlines

/-!
# Promotion

Promotion turns what waits to be written to single nodes into a write to all nodes.  It takes place if
some module is marked and all modules are called equal, and then does nothing to other properties nor to
any module (`promotes_exactly`).  A property that cannot be compared is not promoted, unless there is
only one module: that one is not compared with any other (`lone_module_promoted`).

What is not to be done for single nodes is not changed by a promotion, with one exception: a property
that waits to be read is not read any more once it has been promoted (`promotion_upgrades`).  The next
pass then writes to all nodes what it should have read (`promotion_drops_read`).
-/

namespace DaisyChain.Gateway

variable {L M : Type} {N : Nat}

namespace Collection

variable {c : Collection M N} {d : Definition M}

/-! ### When a property is promoted -/

/-- Every module behind the first one is called equal to it. -/
def Uniform (c : Collection M N) (d : Definition M) : Prop :=
  ∀ i first other, c.module? 0 = some first → c.module? (i + 1) = some other →
    d.equal? first other = some true

/-- Modules are called equal if those behind the first one are called equal to it. -/
theorem allEqual_iff (some : c.entries ≠ []) :
  c.allEqual d = true ↔ c.Uniform d
  := by
  unfold allEqual Uniform module?
  cases entries : c.entries with
  | nil => contradiction
  | cons first rest =>
    simp only [List.all_eq_true, beq_iff_eq, List.getElem?_cons_zero, Option.map_some,
      Option.some.injEq, List.getElem?_cons_succ, Option.map_eq_some_iff]
    constructor
    · rintro equal i _ _ rfl ⟨e, here, rfl⟩
      exact equal e (List.mem_of_getElem? here)
    · intro equal e member
      obtain ⟨i, here⟩ := List.mem_iff_getElem?.mp member
      exact equal i _ _ rfl ⟨e, here, rfl⟩

/-- A property is promoted if some module is marked and those behind the first one are called equal to
it. -/
theorem promote_iff :
  (c.promote d).1 = true ↔ (∃ i, c.mustWrite i d.id = true) ∧ c.Uniform d
  := by
  have condition : (c.promote d).1 = (c.anyMarked d.id && c.allEqual d) := by
    rw [promote]
    cases (c.anyMarked d.id && c.allEqual d) <;> rfl
  rw [condition, Bool.and_eq_true, ← anyMarked_iff]
  apply and_congr_right
  intro marked
  apply allEqual_iff
  intro none
  rw [anyMarked, none] at marked
  contradiction

/-- Modules that are uniform in a property can be compared, if there are several. -/
theorem Uniform.comparable (uniform : c.Uniform d) (several : 1 < c.size) :
  d.compare.isSome = true
  := by
  have there (i : Nat) (inside : i < c.entries.length) : c.module? i = some c.entries[i].module := by
    rw [module?, List.getElem?_eq_getElem inside, Option.map_some]
  -- The second module cannot be called equal to the first one without a comparison.
  have equal := uniform 0 _ _ (there 0 (Nat.lt_trans Nat.zero_lt_one several)) (there 1 several)
  rw [Definition.equal?, Option.map_eq_some_iff] at equal
  obtain ⟨compare, handler, -⟩ := equal
  rw [handler, Option.isSome_some]

/-- A module alone is uniform in every property. -/
theorem uniform_of_lone (lone : c.size = 1) :
  c.Uniform d
  := by
  intro i _ _ _ there
  have beyond : c.module? (i + 1) = none := by
    rw [module?, List.getElem?_eq_none, Option.map_none]
    apply Nat.le_trans (Nat.le_of_eq lone) (Nat.le_add_left 1 i)
  rw [beyond] at there
  contradiction

/-! ### What a promotion does -/

/-- What promotion of a property does to a collection, and when. -/
structure Promotion (c : Collection M N) (d : Definition M) : Prop where
  /-- Several modules are promoted if they can be compared, one is marked, and all are equal. -/
  several : c.size ≠ 1 → ((c.promote d).1 = true ↔
    d.compare.isSome = true ∧ (∃ i, c.mustWrite i d.id = true) ∧ c.Uniform d)
  /-- A module alone is promoted if it is marked, whether or not it can be compared. -/
  lone : c.size = 1 → ((c.promote d).1 = true ↔ c.mustWrite 0 d.id = true)
  /-- After a promotion the property waits to be written to all nodes, and to no single one. -/
  promoted : (c.promote d).1 = true → (c.promote d).2.writes.contains d.id = true ∧
    (c.promote d).2.reads.contains d.id = false ∧ ∀ i, (c.promote d).2.mustWrite i d.id = false
  refused : (c.promote d).1 = false → (c.promote d).2 = c
  /-- No module and no fault is changed. -/
  entries : (c.promote d).2.entries.map (fun e => (e.module, e.fault, e.faultState)) =
    c.entries.map fun e => (e.module, e.fault, e.faultState)
  others : ∀ q, d.id.wire ≠ q.wire → Kept q c (c.promote d).2

/-- Modules are marked in the outline of a property as they are in the collection. -/
theorem mustWrite_outline (c : Collection M N) (p : PropertyId) (i : Nat) :
  (c.outline p).places[i]?.any Prod.snd = c.mustWrite i p
  := by
  rw [getElem?_outline, Option.any_map]
  rfl

/-- The outline of a property that has been promoted. -/
theorem outline_of_promoted (promoted : (c.promote d).1 = true) :
  (c.promote d).2.outline d.id = ⟨(c.outline d.id).places.map fun x => (x.1, false), false, true⟩
  := by rw [outline_promote, Outline.promote, promotes_outline, if_pos promoted]

/-- A promotion that does not take place changes nothing. -/
theorem promote_of_refused (refused : (c.promote d).1 = false) :
  (c.promote d).2 = c
  := by
  rw [promote] at refused ⊢
  split at refused
  · contradiction
  · next condition => rw [if_neg condition]

/-- Promotion happens exactly when it may, and does nothing to other properties nor to any module; but
a module alone is promoted even if the property cannot be compared. -/
theorem promotes_exactly (c : Collection M N) (d : Definition M) :
  c.Promotion d
  := by
  refine ⟨fun several => ?_, fun lone => ?_, fun promoted => ?_, promote_of_refused, ?_, ?_⟩
  · rw [promote_iff]
    constructor
    · rintro ⟨⟨i, marked⟩, uniform⟩
      have inside := lt_of_mustWrite marked
      refine ⟨uniform.comparable ?_, ⟨i, marked⟩, uniform⟩
      omega
    · apply And.right
  · rw [promote_iff, and_iff_left (uniform_of_lone lone)]
    constructor
    · rintro ⟨i, marked⟩
      have inside := lt_of_mustWrite marked
      rw [lone, Nat.lt_one_iff] at inside
      rw [← inside, marked]
    · intro marked
      exact ⟨0, marked⟩
  · have outlined := outline_of_promoted promoted
    refine ⟨congrArg Outline.write outlined, congrArg Outline.read outlined, fun i => ?_⟩
    rw [← mustWrite_outline, outlined, List.getElem?_map, Option.any_map]
    cases (c.outline d.id).places[i]? <;> rfl
  · rw [promote]
    split
    · apply List.map_map
    · rfl
  · intro q differs
    apply kept_promote differs

/-- A module that waits for a property that cannot be compared. -/
def lone : Collection SplitFlap.Module 8 :=
  ((({} : Collection SplitFlap.Module 8).resize 1).markModuleDirty 0 SplitFlap.moduleInfo.id).2

/-- A property without a comparison is promoted if there is one module. -/
theorem lone_module_promoted :
  SplitFlap.moduleInfo.compare.isNone = true ∧
    (lone.promote SplitFlap.moduleInfo).1 = true ∧
    (lone.promote SplitFlap.moduleInfo).2.operation? SplitFlap.moduleInfo.id = some .broadcast
  := by decide

/-! ### What is to be done after a promotion -/

/-- What promotion of a property does to what is to be done for it. -/
structure Upgrade (c : Collection M N) (d : Definition M) : Prop where
  nothing : c.operation? d.id = none → (c.promote d).2.operation? d.id = none
  broadcast : c.operation? d.id = some .broadcast →
    (c.promote d).2.operation? d.id = some .broadcast
  writeMarked : c.operation? d.id = some .writeMarked →
    (c.promote d).2.operation? d.id = some (if (c.promote d).1 then .broadcast else .writeMarked)
  readAll : c.operation? d.id = some .readAll →
    (c.promote d).2.operation? d.id = some (if (c.promote d).1 then .broadcast else .readAll)

/-- After a promotion the property is to be written to all nodes; otherwise nothing has changed. -/
theorem operation?_promote (c : Collection M N) (d : Definition M) :
  (c.promote d).2.operation? d.id =
    if (c.promote d).1 then some .broadcast else c.operation? d.id
  := by
  rw [← operation?_outline, outline_promote, Outline.promote, promotes_outline]
  split
  · rfl
  · apply operation?_outline

/-- Nothing is promoted if nothing is to be done. -/
theorem promote_eq_false (nothing : c.operation? d.id = none) :
  (c.promote d).1 = false
  := by
  rw [Bool.eq_false_iff, ne_eq, promote_iff]
  rintro ⟨⟨i, marked⟩, -⟩
  rw [(operation?_eq_none_iff.mp nothing).2.2 i] at marked
  contradiction

/-- What promotion does to what is to be done for a property. -/
theorem upgrade_promote (c : Collection M N) (d : Definition M) :
  c.Upgrade d
  := by
  constructor <;> intro before <;> rw [operation?_promote, before]
  · rw [promote_eq_false before]
    rfl
  · apply ite_self
  · exact (apply_ite some _ _ _).symm
  · exact (apply_ite some _ _ _).symm

end Collection

/-! ### Reads in a pass -/

section Reads

variable {q : PropertyId} {s s' s'' : Contended L M N}

/-- In both states the same is asked of all modules for a property. -/
structure SameAsked (q : PropertyId) (s s' : Contended L M N) : Prop where
  reads : s'.display.collection.reads.contains q = s.display.collection.reads.contains q
  writes : s'.display.collection.writes.contains q = s.display.collection.writes.contains q

/-- What stays asked twice stays asked. -/
theorem SameAsked.trans (first : SameAsked q s s') (second : SameAsked q s' s'') :
  SameAsked q s s''
  := ⟨second.reads.trans first.reads, second.writes.trans first.writes⟩

/-- The application does not ask anything of all modules. -/
theorem asked_seen (q : PropertyId) (s : Contended L M N) :
  s.seen.reads.contains q = s.display.collection.reads.contains q ∧
    s.seen.writes.contains q = s.display.collection.writes.contains q
  := by
  obtain ⟨_, -, -, -, -, -, marked⟩ := Contended.exists_made (s.plan s.found.length) s
  exact ⟨(marked q).reads, (marked q).writes⟩

/-- An access that does not ask anything of all modules, and does nothing that was asked. -/
theorem sameAsked_access {α : Type} {f : StateM (Display M N) α}
    (keeps : ∀ d, (f d).2.collection.reads.contains q = d.collection.reads.contains q ∧
      (f d).2.collection.writes.contains q = d.collection.writes.contains q) :
  SameAsked q s (Shared.access f s).2
  := by
  obtain ⟨reads, writes⟩ := keeps s.arrive.display
  exact ⟨reads.trans (asked_seen q s).1, writes.trans (asked_seen q s).2⟩

variable [Transport L] [Inhabited M]

/-- No call asks anything of all modules, nor does what was asked. -/
theorem callsObey_sameAsked (q : PropertyId) :
  CallsObey (M := M) (SameAsked q : Contended L M N → Contended L M N → Prop)
  where
  refl _ := ⟨rfl, rfl⟩
  trans first second := first.trans second
  send _ _ := ⟨rfl, rfl⟩
  receive _ _ _ := ⟨rfl, rfl⟩
  flush _ := ⟨rfl, rfl⟩
  drain _ := ⟨rfl, rfl⟩
  pause _ _ := ⟨rfl, rfl⟩
  count _ := sameAsked_access fun _ => ⟨rfl, rfl⟩
  module? _ _ := sameAsked_access fun _ => ⟨rfl, rfl⟩
  modify i f _ := sameAsked_access fun _ =>
    ⟨(Collection.kept_modifyModule i f).reads, (Collection.kept_modifyModule i f).writes⟩
  countChanged _ _ := sameAsked_access fun _ => ⟨rfl, rfl⟩
  mustWrite _ _ _ := sameAsked_access fun _ => ⟨rfl, rfl⟩
  reported _ _ _ _ := sameAsked_access fun _ => ⟨rfl, rfl⟩

variable {σ : Session (Contended L M N)} {property : PropertyId} {g : Gateway M} {d : Definition M}

/-- In a turn the same stays asked until, in the end, its property may be marked clean. -/
theorem sameAsked_turn (g : Gateway M) (q property : PropertyId) (σ : Session (Contended L M N)) :
  ∃ τ, SameAsked q σ.env τ.env ∧ (g.syncProperty property σ).2 =
    if (g.performed? property σ).any fun done => settled done.2 then τ.after (clean property) else τ
  := by
  obtain ⟨τ, same, turned⟩ := exists_turn (callsObey_sameAsked q) g property σ
  have looking : SameAsked q σ.env (σ.after (look property)).env :=
    sameAsked_access fun _ => ⟨rfl, rfl⟩
  exact ⟨τ, looking.trans same, turned⟩

/-- In turns of other properties the same stays asked. -/
theorem sameAsked_turns (g : Gateway M) (ds : List (Definition M))
    (apart : ∀ e ∈ ds, e.id.wire ≠ q.wire) (σ : Session (Contended L M N)) :
  SameAsked q σ.env (ds.forM (fun d => g.syncProperty d.id) σ).2.env
  := by
  induction ds generalizing σ with
  | nil => exact ⟨rfl, rfl⟩
  | cons d ds ih =>
    obtain ⟨τ, asked, turned⟩ := sameAsked_turn g q d.id σ
    have turn : SameAsked q σ.env (g.syncProperty d.id σ).2.env := by
      rw [turned]
      split
      · apply asked.trans
        apply sameAsked_access
        intro old
        have kept := Collection.kept_markClean (c := old.collection) (apart d List.mem_cons_self)
        exact ⟨kept.reads, kept.writes⟩
      · apply asked
    apply turn.trans
    apply ih fun e member => apart e (List.mem_cons_of_mem _ member)

/-- What waits to be read is read in its turn, and goes on waiting if that has to be repeated. -/
theorem read_of_turn (g : Gateway M) (asked : σ.env.seen.reads.contains property = true) :
  ∃ result, g.performed? property σ = some (.readAll, result) ∧
    (g.syncProperty property σ).2.env.display.collection.reads.contains property = !settled result
  := by
  have pending : (look property σ.env).1 = some .readAll := if_pos asked
  let ended := (g.readAll property : Act _ Unit).run ((σ.after (look property)).after tally)
  -- Unlike a write, a read takes place even if no module is known.
  have performed : g.performed? property σ = some (.readAll, ended.1) := by
    rw [performed?, pending]
    rfl
  obtain ⟨τ, same, turned⟩ := sameAsked_turn g property property σ
  refine ⟨ended.1, performed, ?_⟩
  rw [turned, performed, Option.any_some]
  cases settled ended.1 with
  | true => apply contains_remove_self
  | false =>
    apply same.reads.trans
    rw [← (asked_seen property σ.env).1]
    apply asked

/-- What does not wait to be read does not after its turn. -/
theorem unread_of_turn (g : Gateway M)
    (unread : σ.env.display.collection.reads.contains property = false) :
  (g.syncProperty property σ).2.env.display.collection.reads.contains property = false
  := by
  obtain ⟨τ, same, turned⟩ := sameAsked_turn g property property σ
  rw [turned]
  split
  · apply contains_remove_self
  · rw [same.reads, unread]

/-- What becomes in a pass of a property that waits to be read. -/
structure Awaited (g : Gateway M) (d : Definition M) (σ : Session (Contended L M N)) : Prop where
  /-- If the property is not promoted, it is read in its turn; it waits on if that has to be repeated. -/
  read : (σ.env.seen.promote d).1 = false →
    ∀ front back, definitions g.table = front ++ d :: back →
    ∃ result, g.performed? d.id (σ.upTo g front) = some (.readAll, result) ∧
      (g.pass σ).2.env.display.collection.reads.contains d.id = !settled result
  /-- If it is promoted, its turn brings nothing but a broadcast, and it does not wait any more. -/
  dropped : (σ.env.seen.promote d).1 = true →
    ∀ front back, definitions g.table = front ++ d :: back →
    (∀ operation result, g.performed? d.id (σ.upTo g front) = some (operation, result) →
      operation = .broadcast) ∧
    (g.pass σ).2.env.display.collection.reads.contains d.id = false

/-- The notice at the end of a pass asks nothing. -/
theorem sameAsked_finish (g : Gateway M) (q : PropertyId) (σ : Session (Contended L M N)) :
  SameAsked q (σ.upTo g (definitions g.table)).env (g.pass σ).2.env
  := by
  let finish : StateM (Display M N) Unit := fun d => ((), d.finishPass)
  change SameAsked q _ (Shared.access finish (σ.upTo g (definitions g.table)).env).2
  apply sameAsked_access
  intro _
  exact ⟨rfl, rfl⟩

/-- Before the turn of a property, and after it, the same stays asked for that property. -/
theorem sameAsked_around {front back : List (Definition M)}
    (split : definitions g.table = front ++ d :: back) (σ : Session (Contended L M N)) :
  SameAsked d.id (σ.upTo g []).env (σ.upTo g front).env ∧
    SameAsked d.id (g.syncProperty d.id (σ.upTo g front)).2.env (g.pass σ).2.env
  := by
  obtain ⟨before, behind⟩ := apart_of_split split
  constructor
  · apply sameAsked_turns g front before
  · have rest := sameAsked_turns g back behind (g.syncProperty d.id (σ.upTo g front)).2
    have last := sameAsked_finish g d.id σ
    rw [split, upTo_append] at last
    apply rest.trans last

/-- A property that waits to be read is read in the next pass or waits on, unless it is promoted. -/
theorem awaited_of_pass (g : Gateway M) (asked : σ.env.seen.reads.contains d.id = true) :
  Awaited g d σ
  := by
  -- The promotions of the other properties do nothing to this one.
  have outlined {front back : List (Definition M)}
      (split : definitions g.table = front ++ d :: back) :
      (σ.upTo g []).env.display.collection.outline d.id = (σ.env.seen.promote d).2.outline d.id := by
    have member : d ∈ definitions g.table := by
      rw [split]
      apply List.mem_append_right _ List.mem_cons_self
    rw [Collection.outline_promote]
    apply Collection.outline_promoteAll _ member
  constructor
  · intro refused front back split
    obtain ⟨before, after⟩ := sameAsked_around split σ
    have reads := congrArg Outline.read (outlined split)
    rw [Collection.promote_of_refused refused] at reads
    have waits : (σ.upTo g front).env.seen.reads.contains d.id = true := by
      rw [(asked_seen d.id _).1, before.reads]
      apply reads.trans asked
    obtain ⟨result, performed, rest⟩ := read_of_turn g waits
    exact ⟨result, performed, after.reads.trans rest⟩
  · intro promoted front back split
    obtain ⟨before, after⟩ := sameAsked_around split σ
    have outline := (outlined split).trans (Collection.outline_of_promoted promoted)
    have unread := before.reads.trans (congrArg Outline.read outline)
    have written := before.writes.trans (congrArg Outline.write outline)
    constructor
    · intro operation result performed
      have found : (σ.upTo g front).env.seen.operation? d.id = some operation :=
        look_of_performed performed
      rw [Collection.operation?, (asked_seen d.id _).1, unread, (asked_seen d.id _).2,
        written] at found
      cases found
      rfl
    · apply after.reads.trans (unread_of_turn g unread)

/-- Promotion does nothing to what is to be done but that it turns writes to single nodes, and reads,
into a broadcast.  Unless it takes place, what waits to be read is read in the next pass or waits on. -/
theorem promotion_upgrades (c : Collection M N) (d : Definition M) :
  c.Upgrade d ∧ ∀ (g : Gateway M) (σ : Session (Contended L M N)), σ.env.seen = c →
    c.reads.contains d.id = true → Awaited g d σ
  := by
  refine ⟨c.upgrade_promote d, ?_⟩
  rintro g σ rfl asked
  apply awaited_of_pass g asked

end Reads

/-- A display of modules that hold different offsets.  These are to be read, and the second one is to be
written. -/
def differing : Session (Contended Script SplitFlap.Module 4) where
  env := {
    line := {}
    display := {
      collection := {
        entries := [{ module := { offset := 5 } },
          { module := { offset := 7 }, marks := PropertySet.empty.insert ⟨6⟩ }]
        reads := PropertySet.empty.insert ⟨6⟩ } }
    plan := fun _ => [] }

/-- In the next pass over this display, the offsets are read. -/
theorem promotion_upgrades_differing :
  let g : Gateway SplitFlap.Module := ⟨SplitFlap.table, {}⟩
  (differing.env.seen.promote SplitFlap.offset).2.operation? SplitFlap.offset.id = some .readAll ∧
    ∃ front back, definitions g.table = front ++ SplitFlap.offset :: back ∧
      ∃ result, g.performed? SplitFlap.offset.id (differing.upTo g front) = some (.readAll, result)
  := by
  intro g
  obtain ⟨upgrade, awaited⟩ := promotion_upgrades (L := Script) differing.env.seen SplitFlap.offset
  obtain ⟨front, back, split⟩ := List.append_of_mem (mem_definitions.mpr ⟨rfl, by decide⟩ :
    SplitFlap.offset ∈ definitions g.table)
  obtain ⟨result, performed, -⟩ :=
    (awaited g differing rfl (by decide)).read (by decide) front back split
  exact ⟨upgrade.readAll (by decide), front, back, split, result, performed⟩

/-- Modules that hold the same offset, which is to be read, and to be written to the second node. -/
def crossed : Collection SplitFlap.Module 4 :=
  (((({} : Collection SplitFlap.Module 4).resize 2).markModuleDirty 1 SplitFlap.offset.id).2).markDirty
    SplitFlap.offset.id .read

/-- The offset is to be read, and after its promotion it is to be written to all nodes. -/
theorem promotion_drops_read :
  crossed.operation? SplitFlap.offset.id = some .readAll ∧
    (crossed.promote SplitFlap.offset).2.operation? SplitFlap.offset.id = some .broadcast ∧
    (promoteAll SplitFlap.table crossed).reads.contains SplitFlap.offset.id = false
  := by decide

end DaisyChain.Gateway
