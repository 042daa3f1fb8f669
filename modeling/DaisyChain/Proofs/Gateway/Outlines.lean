import DaisyChain.Proofs.Gateway.Reaching
import DaisyChain.Proofs.Property.Conveying

/-!
# Outlines of a property

The outline of a property is what concerns that property in a collection: every module with its
mark, and what waits to be done for all of them.  It tells what is to be done
(`Outline.operation?`), whether the property is promoted (`Outline.promote`), and which value is due
to which node (`Outline.due`).  A promotion of all properties promotes every outline
(`outline_promoteAll`).

Two outlines are alike in a property if they differ at most in new modules without marks, and in
what the property is not laid out as (`Outline.Alike`).  Then the same values are due
(`Outline.Alike.due_rel`).
-/

namespace DaisyChain.Gateway

variable {M : Type} {N : Nat}

/-- A property in a collection. -/
structure Outline (M : Type) where
  /-- The modules, each with its mark. -/
  places : List (M × Bool)
  /-- The property waits to be read. -/
  read : Bool
  /-- The property waits to be written to all nodes. -/
  write : Bool

namespace Outline

variable (d : Definition M) (o : Outline M)

/-- What is to be done. -/
def operation? : Option Operation :=
  if o.read then some .readAll
  else if o.write then some .broadcast
  else if o.places.any Prod.snd then some .writeMarked
  else none

/-- The first module. -/
def first? : Option M :=
  o.places[0]?.map Prod.fst

/-- The module of the given index, if it is marked. -/
def marked? (index : Nat) : Option M :=
  (o.places[index]?.filter Prod.snd).map Prod.fst

/-- Every module has the same value as the first one. -/
def uniform : Bool :=
  match o.places with
  | [] => false
  | first :: rest => rest.all fun x => d.equal? first.1 x.1 == some true

/-- Some module is marked, and all modules have the same value. -/
def promotes : Bool :=
  o.places.any Prod.snd && o.uniform d

/-- The outline after the property has been promoted. -/
def promote : Outline M :=
  if o.promotes d then ⟨o.places.map fun x => (x.1, false), false, true⟩ else o

/-- The module whose value is due to the node of the given index, if one is and the property can be
written. -/
def due (index : Nat) : Option M :=
  if d.access.writable && d.get.isSome then
    match o.operation? with
    | some .broadcast => o.first?
    | some .writeMarked => o.marked? index
    | some .readAll | none => none
  else
    none

/-! ### What is due -/

variable {d o}

/-- Nothing is marked in an outline without marks. -/
theorem marked?_of_any (unmarked : o.places.any Prod.snd = false) (index : Nat) :
  o.marked? index = none
  := by
  rw [marked?]
  cases place : o.places[index]? with
  | none => rfl
  | some x =>
    have plain := List.any_eq_false.mp unmarked x (List.mem_of_getElem? place)
    rw [Option.filter_some_neg (Bool.eq_false_iff.mpr plain)]
    rfl

/-- What is to be broadcast waits to be written to all nodes. -/
theorem write_of_operation (operation : o.operation? = some .broadcast) :
  o.write = true
  := by
  rw [operation?] at operation
  split at operation
  · contradiction
  · split at operation
    · assumption
    · split at operation <;> contradiction

/-- Some module is marked if single nodes are to be written to. -/
theorem exists_marked? (operation : o.operation? = some .writeMarked) :
  ∃ i m, o.marked? i = some m
  := by
  have marked : o.places.any Prod.snd = true := by
    rw [operation?] at operation
    split at operation
    · contradiction
    · split at operation
      · contradiction
      · split at operation
        · assumption
        · contradiction
  obtain ⟨x, member, mark⟩ := List.any_eq_true.mp marked
  obtain ⟨i, place⟩ := List.mem_iff_getElem?.mp member
  refine ⟨i, x.1, ?_⟩
  rw [marked?, place, Option.filter_some_pos mark]
  rfl

/-- What is due is the value of a module, and the property waits to be written. -/
theorem written_of_due {index : Nat} {m : M} (due : o.due d index = some m) :
  d.access.writable = true ∧ m ∈ o.places.map Prod.fst ∧
    (o.write = true ∨ o.places.any Prod.snd = true)
  := by
  rw [Outline.due] at due
  split at due
  · next possible =>
    refine ⟨(Bool.and_eq_true_iff.mp possible).1, ?_⟩
    split at due
    · next operation =>
      obtain ⟨x, place, rfl⟩ := Option.map_eq_some_iff.mp due
      refine ⟨List.mem_map_of_mem (List.mem_of_getElem? place), ?_⟩
      exact .inl (write_of_operation operation)
    · next operation =>
      obtain ⟨x, marked, rfl⟩ := Option.map_eq_some_iff.mp due
      obtain ⟨place, mark⟩ := Option.filter_eq_some_iff.mp marked
      have member := List.mem_of_getElem? place
      exact ⟨List.mem_map_of_mem member, .inr (List.any_eq_true.mpr ⟨x, member, mark⟩)⟩
    · contradiction
    · contradiction
  · contradiction

/-! ### Promotion -/

/-- Promotion does not touch the modules. -/
theorem modules_promote :
  (o.promote d).places.map Prod.fst = o.places.map Prod.fst
  := by
  rw [promote]
  split
  · rw [List.map_map]
    rfl
  · rfl

/-- A property waits to be written after a promotion only if it did so before. -/
theorem written_of_promote
    (written : (o.promote d).write = true ∨ (o.promote d).places.any Prod.snd = true) :
  o.write = true ∨ o.places.any Prod.snd = true
  := by
  rw [promote] at written
  split at written
  · next promoted => exact .inr (Bool.and_eq_true_iff.mp promoted).1
  · exact written

/-- If the property is promoted, every module is compared with the first one and found equal. -/
theorem equal_of_promotes (promoted : o.promotes d = true) {m : M} (first : o.first? = some m)
    {x : M × Bool} (member : x ∈ o.places) :
  x.1 = m ∨ d.equal? m x.1 = some true
  := by
  have uniform := (Bool.and_eq_true_iff.mp promoted).2
  rw [Outline.uniform] at uniform
  rw [Outline.first?] at first
  cases places : o.places with
  | nil => rw [places] at member; contradiction
  | cons y rest =>
    rw [places] at uniform member first
    cases first
    rcases List.mem_cons.mp member with rfl | among
    · exact .inl rfl
    · exact .inr (eq_of_beq (List.all_eq_true.mp uniform x among))

/-- Promotion does not make a property wait to be read. -/
theorem operation?_promote (unread : o.read = false) :
  (o.promote d).operation? ≠ some .readAll
  := by
  rw [promote, operation?]
  split
  · exact fun h => by cases h
  · rw [unread, if_neg Bool.false_ne_true]
    split
    · exact fun h => by cases h
    · split <;> exact fun h => by cases h

/-- What waits to be written to all nodes does so after a promotion, too. -/
theorem operation?_promote_of_write (unread : o.read = false) (written : o.write = true) :
  (o.promote d).operation? = some .broadcast
  := by
  rw [promote]
  split
  · rfl
  · rw [operation?, unread, written]
    rfl

/-- After a promotion the first value is due to all nodes if the property is promoted or waited for
that before; else its own value is due to each node whose module is marked. -/
theorem due_promote (unread : o.read = false) (writable : d.access.writable = true)
    (gettable : d.get.isSome) (index : Nat) :
  (o.promote d).due d index = if o.write || o.promotes d then o.first? else o.marked? index
  := by
  have possible : (d.access.writable && d.get.isSome) = true := by rw [writable, gettable]; rfl
  rw [due, if_pos possible, promote]
  cases promoted : o.promotes d with
  | true =>
    simp only [if_true, Bool.or_true, operation?, first?, Bool.false_eq_true, if_false]
    rw [List.getElem?_map, Option.map_map]
    rfl
  | false =>
    simp only [Bool.false_eq_true, if_false, Bool.or_false, operation?, unread]
    cases o.write with
    | true => rfl
    | false =>
      cases marked : o.places.any Prod.snd with
      | true => rfl
      | false => exact (marked?_of_any marked index).symm

/-! ### Likeness -/

/-- The outlines differ at most in new modules without marks, and in what the property is not laid
out as. -/
structure Alike (d : Definition M) (o o' : Outline M) : Prop where
  read : o'.read = o.read
  write : o'.write = o.write
  grows : o.places.length ≤ o'.places.length
  each : ∀ (i : Nat) (x : M × Bool), o.places[i]? = some x →
    ∃ x' : M × Bool, o'.places[i]? = some x' ∧ d.serialize x'.1 = d.serialize x.1 ∧ x'.2 = x.2
  fresh : ∀ (i : Nat) (x' : M × Bool), o.places.length ≤ i → o'.places[i]? = some x' → x'.2 = false

namespace Alike

variable {o' o'' : Outline M}

/-- An outline is like itself. -/
theorem refl (d : Definition M) (o : Outline M) :
  Alike d o o
  := by
  refine ⟨rfl, rfl, Nat.le_refl _, fun i x place => ⟨x, place, rfl, rfl⟩, ?_⟩
  intro i x beyond place
  exact absurd (List.getElem?_eq_some_iff.mp place).1 (Nat.not_lt_of_le beyond)

/-- Outlines that are like a third one are alike. -/
theorem trans (first : Alike d o o') (second : Alike d o' o'') :
  Alike d o o''
  := by
  refine ⟨second.read.trans first.read, second.write.trans first.write,
    Nat.le_trans first.grows second.grows, ?_, ?_⟩
  · intro i x place
    obtain ⟨x', place', laid, mark⟩ := first.each i x place
    obtain ⟨x'', place'', laid', mark'⟩ := second.each i x' place'
    exact ⟨x'', place'', laid'.trans laid, mark'.trans mark⟩
  · intro i x'' beyond place''
    by_cases new : o'.places.length ≤ i
    · exact second.fresh i x'' new place''
    · have place' := List.getElem?_eq_getElem (Nat.lt_of_not_le new)
      obtain ⟨_, same, -, mark⟩ := second.each i _ place'
      rw [place''] at same
      cases same
      exact mark.trans (first.fresh i _ beyond place')

variable (alike : Alike d o o')

include alike

/-- Alike outlines have marks if one of them has. -/
theorem any_eq :
  o'.places.any Prod.snd = o.places.any Prod.snd
  := by
  rw [Bool.eq_iff_iff, List.any_eq_true, List.any_eq_true]
  constructor
  · rintro ⟨x', member, marked⟩
    obtain ⟨i, place'⟩ := List.mem_iff_getElem?.mp member
    by_cases new : o.places.length ≤ i
    · rw [alike.fresh i x' new place'] at marked
      contradiction
    · have place := List.getElem?_eq_getElem (Nat.lt_of_not_le new)
      obtain ⟨_, same, -, mark⟩ := alike.each i _ place
      rw [place'] at same
      cases same
      exact ⟨_, List.mem_of_getElem? place, mark.symm.trans marked⟩
  · rintro ⟨x, member, marked⟩
    obtain ⟨i, place⟩ := List.mem_iff_getElem?.mp member
    obtain ⟨x', place', -, mark⟩ := alike.each i x place
    exact ⟨x', List.mem_of_getElem? place', mark.trans marked⟩

/-- In alike outlines the same is to be done. -/
theorem operation?_eq :
  o'.operation? = o.operation?
  := by
  rw [operation?, operation?, alike.read, alike.write, alike.any_eq]

/-- Alike outlines have like modules at the same places. -/
theorem exists_module {i : Nat} {m : M} (here : o.places[i]?.map Prod.fst = some m) :
  ∃ m', o'.places[i]?.map Prod.fst = some m' ∧ d.serialize m' = d.serialize m
  := by
  obtain ⟨x, place, rfl⟩ := Option.map_eq_some_iff.mp here
  obtain ⟨x', place', laid, -⟩ := alike.each i x place
  exact ⟨x'.1, congrArg (Option.map Prod.fst) place', laid⟩

/-- In alike outlines like modules are marked. -/
theorem marked?_rel (i : Nat) :
  Option.Rel (fun m m' => d.serialize m' = d.serialize m) (o.marked? i) (o'.marked? i)
  := by
  rw [marked?, marked?]
  cases place : o.places[i]? with
  | none =>
    cases place' : o'.places[i]? with
    | none => exact .none
    | some x' =>
      have plain := alike.fresh i x' (List.getElem?_eq_none_iff.mp place) place'
      rw [Option.filter_some_neg plain]
      exact .none
  | some x =>
    obtain ⟨x', place', laid, mark⟩ := alike.each i x place
    rw [place', Option.filter_some, Option.filter_some, mark]
    cases x.2 with
    | true => exact .some laid
    | false => exact .none

/-- In alike outlines like modules are due. -/
theorem due_rel (some : o.places ≠ []) (i : Nat) :
  Option.Rel (fun m m' => d.serialize m' = d.serialize m) (o.due d i) (o'.due d i)
  := by
  rw [due, due, alike.operation?_eq]
  split
  · split
    · have place := List.getElem?_eq_getElem (List.length_pos_iff.mpr some)
      obtain ⟨m', here', laid⟩ := alike.exists_module (congrArg (Option.map Prod.fst) place)
      rw [Outline.first?, Outline.first?, place, here']
      exact .some laid
    · exact alike.marked?_rel i
    · exact .none
    · exact .none
  · exact .none

end Alike

end Outline

/-! ### Outlines of a collection -/

namespace Collection

/-- The outline of a property. -/
def outline (c : Collection M N) (property : PropertyId) : Outline M :=
  ⟨c.entries.map fun e => (e.module, e.marks.contains property), c.reads.contains property,
    c.writes.contains property⟩

variable {c c' : Collection M N} {d : Definition M} {p : PropertyId}

/-- A place of an outline belongs to an entry. -/
theorem getElem?_outline (c : Collection M N) (p : PropertyId) (i : Nat) :
  (c.outline p).places[i]? = c.entries[i]?.map fun e => (e.module, e.marks.contains p)
  := List.getElem?_map

/-- The outline of a property tells what is to be done for it. -/
theorem operation?_outline (c : Collection M N) (p : PropertyId) :
  (c.outline p).operation? = c.operation? p
  := by
  rw [Outline.operation?, outline, List.any_map]
  rfl

/-- The modules of an outline are those of the collection. -/
theorem module?_outline (c : Collection M N) (p : PropertyId) (i : Nat) :
  (c.outline p).places[i]?.map Prod.fst = c.module? i
  := by
  rw [getElem?_outline, Option.map_map]
  rfl

/-- Modules are marked in the outline of a property if they are in the collection. -/
theorem any_outline (c : Collection M N) (p : PropertyId) :
  (c.outline p).places.any Prod.snd = c.anyMarked p
  := List.any_map

/-- A broadcast is meant to carry the value of the first module. -/
theorem meant_all (c : Collection M N) (p : PropertyId) (i : Nat) :
  c.meant p .all i = (c.outline p).first?
  := (c.module?_outline p 0).symm

/-- A write to each node is meant to carry the values of marked modules. -/
theorem meant_each (c : Collection M N) (p : PropertyId) (count i : Nat) :
  c.meant p (.each count) i = (c.outline p).marked? i
  := by
  rw [meant, mustWrite, module?, Outline.marked?, getElem?_outline]
  cases c.entries[i]? with
  | none => rfl
  | some e =>
    rw [Option.any_some, Option.map_some, Option.map_some, Option.filter_some]
    cases e.marks.contains p <;> rfl

/-- A property is promoted if its outline says so. -/
theorem promotes_outline (c : Collection M N) (d : Definition M) :
  (c.outline d.id).promotes d = (c.promote d).1
  := by
  have condition : (c.outline d.id).promotes d = (c.anyMarked d.id && c.allEqual d) := by
    rw [Outline.promotes, any_outline, Outline.uniform, outline, allEqual]
    cases c.entries with
    | nil => simp
    | cons e rest => simp only [List.map_cons, List.all_map]; rfl
  rw [condition, promote]
  cases (c.anyMarked d.id && c.allEqual d) <;> rfl

/-- Promotion of a property promotes its outline. -/
theorem outline_promote (c : Collection M N) (d : Definition M) :
  (c.promote d).2.outline d.id = (c.outline d.id).promote d
  := by
  rw [Outline.promote, promotes_outline, promote]
  split
  · simp only [if_true, outline, unmarkModules, markDirty, List.map_map, Outline.mk.injEq]
    refine ⟨List.map_congr_left fun e _ => ?_, contains_remove_self _ _, ?_⟩
    · rw [Function.comp_apply, contains_remove_self]
      rfl
    · rw [PropertySet.contains_insert, decide_eq_true rfl, Bool.or_true]
  · rfl

/-- Promotion of a property does nothing to the outline of another one. -/
theorem outline_promote_of_ne (c : Collection M N) (differs : d.id.wire ≠ p.wire) :
  (c.promote d).2.outline p = c.outline p
  := by
  rw [promote]
  split
  · simp only [outline, unmarkModules, markDirty, List.map_map, Outline.mk.injEq]
    refine ⟨List.map_congr_left fun e _ => ?_, contains_remove_of_ne _ differs, ?_⟩
    · rw [Function.comp_apply, contains_remove_of_ne _ differs]
    · rw [PropertySet.contains_insert, decide_eq_false differs, Bool.or_false]
  · rfl

/-- Promotion of other properties does nothing to an outline. -/
theorem outline_promotions_of_ne (c : Collection M N) {ds : List (Definition M)}
    (apart : ∀ e ∈ ds, e.id.wire ≠ p.wire) :
  (ds.foldl (fun c d => (c.promote d).2) c).outline p = c.outline p
  := by
  induction ds generalizing c with
  | nil => rfl
  | cons e ds ih =>
    apply (ih _ fun other member => apart other (List.mem_cons_of_mem _ member)).trans
    apply c.outline_promote_of_ne (apart e List.mem_cons_self)

/-- Promotion of all properties promotes the outline of each of them. -/
theorem outline_promoteAll (c : Collection M N) {table : Table M} (member : d ∈ definitions table) :
  (promoteAll table c).outline d.id = (c.outline d.id).promote d
  := by
  obtain ⟨front, back, split, before, behind⟩ := exists_split_definitions member
  rw [promoteAll, split, List.foldl_append, List.foldl_cons, outline_promotions_of_ne _ behind,
    outline_promote, outline_promotions_of_ne _ before]

/-- Promotion of all properties does not touch the modules. -/
theorem module?_promoteAll (c : Collection M N) {table : Table M} (member : d ∈ definitions table)
    (i : Nat) :
  (promoteAll table c).module? i = c.module? i
  := by
  rw [← module?_outline _ d.id, outline_promoteAll c member, ← module?_outline _ d.id,
    ← List.getElem?_map, ← List.getElem?_map, Outline.modules_promote]

/-- Marking a property clean does not touch the modules. -/
theorem module?_markClean (c : Collection M N) (p : PropertyId) (i : Nat) :
  (c.markClean p).module? i = c.module? i
  := by
  rw [module?, module?, markClean, unmarkModules, List.getElem?_map, Option.map_map]
  rfl

/-- Marking a property clean does nothing to the outline of another one. -/
theorem outline_markClean_of_ne (c : Collection M N) {q : PropertyId} (differs : q.wire ≠ p.wire) :
  (c.markClean q).outline p = c.outline p
  := by
  simp only [outline, markClean, unmarkModules, List.map_map, contains_remove_of_ne _ differs,
    Outline.mk.injEq, and_true]
  apply List.map_congr_left fun e _ => ?_
  rw [Function.comp_apply, contains_remove_of_ne _ differs]

end Collection

end DaisyChain.Gateway
