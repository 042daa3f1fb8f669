import DaisyChain.Proofs.Gateway.Slices
import DaisyChain.Proofs.Gateway.Turns

/-!
# Displays in use

A display that an application changes while a worker makes a pass (`Contended`).  The worker has
the display for one access at a time; before each of them the application makes what updates it
likes.  What the worker finds at its accesses is kept, and so are the updates that were made.

Whatever happens, what waits to be written for a property is what waited before and what has been
updated since, as long as no access of the worker takes it away (`Follows`).
-/

namespace DaisyChain.Gateway

variable {L M : Type} {N : Nat}

/-! ### The state -/

/-- A change of a module, which is then marked. -/
structure Update (M : Type) where
  index : Nat
  property : PropertyId
  change : M → M

/-- An update that was made. -/
structure Made (M : Type) where
  /-- The number of accesses that the worker had made by then. -/
  clock : Nat
  index : Nat
  property : PropertyId
  /-- The module as the update left it. -/
  module : M

/-- The update that was made is this one. -/
def Made.Of (made : Made M) (u : Update M) : Prop :=
  made.index = u.index ∧ made.property = u.property ∧ ∃ m, made.module = u.change m

/-- A line, and a display over it that an application changes. -/
structure Contended (L M : Type) (N : Nat) where
  line : L
  display : Display M N := {}
  /-- The updates that the application makes before each access of the worker. -/
  plan : Nat → List (Update M)
  /-- What the worker found at its accesses so far. -/
  found : List (Collection M N) := []
  /-- The updates so far. -/
  made : List (Made M) := []

namespace Contended

/-- The state after an update. -/
def update (s : Contended L M N) (u : Update M) : Contended L M N :=
  { s with
    display := (s.display.updateModule u.index u.property u.change).2
    made := s.made ++ (s.display.collection.module? u.index).toList.map fun m =>
      ⟨s.found.length, u.index, u.property, u.change m⟩ }

/-- The state after the updates before the next access of the worker. -/
def arrive (s : Contended L M N) : Contended L M N :=
  (s.plan s.found.length).foldl update s

/-- What the worker finds at its next access. -/
def seen (s : Contended L M N) : Collection M N :=
  s.arrive.display.collection

/-- The state after an access of the worker that leaves the given display. -/
def proceed (s : Contended L M N) (display : Display M N) : Contended L M N :=
  { s.arrive with display := display, found := s.found ++ [s.seen] }

/-- The state after an access of the worker that leaves the given collection. -/
def leave (s : Contended L M N) (collection : Collection M N) : Contended L M N :=
  s.proceed { s.arrive.display with collection := collection }

end Contended

instance [Transport L] : Transport (Contended L M N) :=
  .ofPart ⟨Contended.line, fun line s => { s with line := line }⟩

instance : Shared (Contended L M N) M N where
  access f s := ((f s.arrive.display).1, s.proceed (f s.arrive.display).2)

/-- A contended display over a chain is a state on that chain. -/
instance : OnChain (Contended (Chain M) M N) M where
  line := ⟨Contended.line, fun line s => { s with line := line }⟩
  get_set _ _ := rfl
  set_get _ := rfl
  set_set _ _ _ := rfl
  send_eq _ _ := rfl
  receive_eq _ _ _ := rfl
  flush_eq _ := rfl
  drain_eq _ := rfl
  pause_eq _ _ := rfl

namespace Contended

/-- The application does not look at the line. -/
theorem arrive_line (s : Contended L M N) (line : L) :
  { s with line := line }.arrive = { s.arrive with line := line }
  := by
  have same (us : List (Update M)) (s : Contended L M N) :
      us.foldl update { s with line := line } = { us.foldl update s with line := line } := by
    induction us generalizing s with
    | nil => rfl
    | cons u us ih => apply ih (s.update u)
  apply same _ s

/-- The application does not touch the line. -/
theorem line_arrive (s : Contended L M N) :
  s.arrive.line = s.line
  := by
  have same := congrArg Contended.line (s.arrive_line s.line)
  apply same

end Contended

instance : SharedApart (Contended (Chain M) M N) M N where
  access f c s := by
    change ((f ({ s with line := c } : Contended (Chain M) M N).arrive.display).1,
      ({ s with line := c } : Contended (Chain M) M N).proceed
        (f ({ s with line := c } : Contended (Chain M) M N).arrive.display).2) = _
    simp only [Contended.proceed, Contended.seen, Contended.arrive_line]
    rfl

/-! ### What waits for one module -/

namespace Collection

variable {c c' c'' : Collection M N} {p q : PropertyId}

/-- Something waits to be done for a property of the module of the given index. -/
def PendingAt (c : Collection M N) (index : Nat) (property : PropertyId) : Prop :=
  c.reads.contains property ∨ c.writes.contains property ∨ c.mustWrite index property

/-- Between two collections of one size, nothing has been done for a property, but modules for
which the condition holds have been marked. -/
structure Marked (q : PropertyId) (marked : Nat → Prop) (c c' : Collection M N) : Prop where
  size : c'.size = c.size
  reads : c'.reads.contains q = c.reads.contains q
  writes : c'.writes.contains q = c.writes.contains q
  marks : ∀ i, c'.mustWrite i q = true ↔ c.mustWrite i q = true ∨ marked i

/-- Nothing has been done for a property. -/
abbrev Kept (q : PropertyId) (c c' : Collection M N) : Prop :=
  Marked q (fun _ => False) c c'

/-- Nothing has been done for a property if its marks are the same. -/
theorem Kept.of_eq (size : c'.size = c.size)
    (reads : c'.reads.contains q = c.reads.contains q)
    (writes : c'.writes.contains q = c.writes.contains q)
    (marks : ∀ i, c'.mustWrite i q = c.mustWrite i q) :
  Kept q c c'
  := ⟨size, reads, writes, fun i => by rw [marks, or_false]⟩

/-- What is the same collection has been kept. -/
theorem Kept.refl (c : Collection M N) (q : PropertyId) :
  Kept q c c
  := .of_eq rfl rfl rfl fun _ => rfl

/-- Modules may be marked in turn. -/
theorem Marked.trans {marked marked' both : Nat → Prop} (first : Marked q marked c c')
    (second : Marked q marked' c' c'') (either : ∀ i, both i ↔ marked i ∨ marked' i) :
  Marked q both c c''
  := by
  refine ⟨second.size.trans first.size, second.reads.trans first.reads,
    second.writes.trans first.writes, fun i => ?_⟩
  rw [second.marks, first.marks, either, or_assoc]

/-- Some module waits to be written if one of them does. -/
theorem anyMarked_iff :
  c.anyMarked q = true ↔ ∃ i, c.mustWrite i q = true
  := by
  rw [anyMarked, List.any_eq_true]
  constructor
  · rintro ⟨e, member, marked⟩
    obtain ⟨i, here⟩ := List.mem_iff_getElem?.mp member
    exact ⟨i, by rw [mustWrite, here]; exact marked⟩
  · rintro ⟨i, marked⟩
    rw [mustWrite] at marked
    cases here : c.entries[i]? with
    | none =>
      rw [here] at marked
      contradiction
    | some e =>
      rw [here] at marked
      exact ⟨e, List.mem_of_getElem? here, marked⟩

/-- If nothing waits to be done for a property of any module, nothing is to be done for it. -/
theorem operation?_eq_none_iff :
  c.operation? q = none ↔ c.reads.contains q = false ∧ c.writes.contains q = false ∧
    ∀ i, c.mustWrite i q = false
  := by
  have marks : c.anyMarked q = false ↔ ∀ i, c.mustWrite i q = false := by
    rw [← Bool.not_eq_true, anyMarked_iff, not_exists]
    simp only [Bool.not_eq_true]
  rw [← marks, operation?]
  cases c.reads.contains q <;> cases c.writes.contains q <;> cases c.anyMarked q <;> simp

/-- What becomes of one entry does nothing for a property if it leaves the mark of that property. -/
theorem kept_modifyEntry {i : Nat} {f : Entry M → Entry M}
    (same : ∀ e, (f e).marks.contains q = e.marks.contains q) :
  Kept q c (c.modifyEntry i f)
  := by
  refine .of_eq (List.length_modify _ _ _) rfl rfl fun j => ?_
  simp only [mustWrite, modifyEntry, List.getElem?_modify]
  cases c.entries[j]? with
  | none => rfl
  | some e =>
    by_cases here : i = j
    · simp [here, same]
    · simp [here]

/-- Changing a module does nothing for a property. -/
theorem kept_modifyModule {α : Type} (i : Nat) (f : M → α × M) :
  Kept q c (c.modifyModule i f).2
  := by
  rw [modifyModule]
  split
  · exact .refl c q
  · exact kept_modifyEntry fun _ => rfl

/-- Marking a module for a property does nothing but that. -/
theorem marked_markModuleDirty (i : Nat) :
  Marked q (fun j => i = j ∧ i < c.size ∧ p.wire = q.wire) c (c.markModuleDirty i p).2
  := by
  refine ⟨List.length_modify _ _ _, rfl, rfl, fun j => ?_⟩
  simp only [mustWrite, markModuleDirty, modifyEntry, List.getElem?_modify]
  cases here : c.entries[j]? with
  | none =>
    have absent : c.size ≤ j := List.getElem?_eq_none_iff.mp here
    have outside : ¬(i = j ∧ i < c.size ∧ p.wire = q.wire) := by omega
    simp [outside]
  | some e =>
    have within : j < c.size := (List.getElem?_eq_some_iff.mp here).1
    by_cases same : i = j
    · subst same
      simp [PropertySet.contains_insert, within]
    · simp [same]

/-- Modules that are no longer marked for one property are marked for the others as before. -/
theorem mustWrite_unmarkModules (c : Collection M N) (p q : PropertyId) (i : Nat) :
  (c.unmarkModules p).mustWrite i q = (c.mustWrite i q && decide (p.wire ≠ q.wire))
  := by
  simp only [mustWrite, unmarkModules, List.getElem?_map, Option.any_map]
  cases c.entries[i]? with
  | none => rfl
  | some e => exact PropertySet.contains_remove e.marks p q

/-- A property that is marked clean does not concern other properties. -/
theorem kept_markClean (differs : p.wire ≠ q.wire) :
  Kept q c (c.markClean p)
  := by
  refine .of_eq (List.length_map _) (contains_remove_of_ne _ differs)
    (contains_remove_of_ne _ differs) fun i => ?_
  apply (mustWrite_unmarkModules c p q i).trans
  rw [decide_eq_true differs, Bool.and_true]

/-- Promotion of a property does not concern other properties. -/
theorem kept_promote {d : Definition M} (differs : d.id.wire ≠ q.wire) :
  Kept q c (c.promote d).2
  := by
  rw [promote]
  split
  · refine .of_eq (List.length_map _) (contains_remove_of_ne _ differs) ?_ fun i => ?_
    · apply (PropertySet.contains_insert _ _ _).trans
      rw [decide_eq_false differs, Bool.or_false]
      rfl
    · apply (mustWrite_unmarkModules c d.id q i).trans
      rw [decide_eq_true differs, Bool.and_true]
  · apply Kept.refl

/-- Nothing waits to be done for a property that is marked clean. -/
theorem operation?_markClean (p : PropertyId) :
  (c.markClean p).operation? p = none
  := by
  refine operation?_eq_none_iff.mpr
    ⟨contains_remove_self _ _, contains_remove_self _ _, fun i => ?_⟩
  apply (mustWrite_unmarkModules c p p i).trans
  rw [decide_eq_false (not_not_intro rfl), Bool.and_false]

end Collection

/-! ### Accesses -/

/-- Some of the updates concern a property of the module of the given index. -/
def Updated (made : List (Made M)) (q : PropertyId) (index : Nat) : Prop :=
  ∃ u ∈ made, u.index = index ∧ u.property.wire = q.wire

/-- Updates in turn. -/
theorem updated_append (made made' : List (Made M)) (q : PropertyId) (index : Nat) :
  Updated (made ++ made') q index ↔ Updated made q index ∨ Updated made' q index
  := by
  simp only [Updated, List.mem_append, or_and_right, exists_or]

namespace Contended

/-- From the first state to the second one some accesses have passed, between which the given
updates were made; they have done nothing for the given properties.  The updates are those that were
planned, but for such as are of no module. -/
structure Passed (Q : PropertyId → Prop) (s s' : Contended L M N) (more : List (Made M)) :
    Prop where
  plan : s'.plan = s.plan
  found : s.found <+: s'.found
  made : s'.made = s.made ++ more
  clocks : ∀ u ∈ more, s.found.length ≤ u.clock ∧ u.clock < s'.found.length
  indices : ∀ u ∈ more, u.index < s.display.collection.size
  planned : ∀ u ∈ more, ∃ v ∈ s.plan u.clock, u.Of v
  complete : ∀ t, s.found.length ≤ t → t < s'.found.length → ∀ v ∈ s.plan t,
    v.index < s.display.collection.size → ∃ u ∈ more, u.clock = t ∧ u.Of v
  size : s'.display.collection.size = s.display.collection.size
  marked : ∀ q, Q q →
    Collection.Marked q (Updated more q) s.display.collection s'.display.collection

/-- Some accesses have passed that have done nothing for the given properties. -/
def Follows (Q : PropertyId → Prop) (s s' : Contended L M N) : Prop :=
  ∃ more, Passed Q s s' more

/-- Accesses that have done nothing for some properties, and then others. -/
theorem Follows.trans {Q : PropertyId → Prop} {s s' s'' : Contended L M N} (first : Follows Q s s')
    (second : Follows Q s' s'') :
  Follows Q s s''
  := by
  obtain ⟨more, first⟩ := first
  obtain ⟨more', second⟩ := second
  refine ⟨more ++ more', second.plan.trans first.plan, first.found.trans second.found, ?_, ?_, ?_,
    ?_, ?_, second.size.trans first.size, fun q which => ?_⟩
  · rw [second.made, first.made, List.append_assoc]
  · intro u member
    have before := first.found.length_le
    have after := second.found.length_le
    rcases List.mem_append.mp member with among | among
    · have bounds := first.clocks u among
      omega
    · have bounds := second.clocks u among
      omega
  · intro u member
    rcases List.mem_append.mp member with among | among
    · apply first.indices u among
    · rw [← first.size]
      apply second.indices u among
  · intro u member
    rcases List.mem_append.mp member with among | among
    · apply first.planned u among
    · rw [← first.plan]
      apply second.planned u among
  · intro t since until' v planned within
    by_cases early : t < s'.found.length
    · obtain ⟨u, among, is⟩ := first.complete t since early v planned within
      exact ⟨u, List.mem_append_left _ among, is⟩
    · rw [← first.plan] at planned
      rw [← first.size] at within
      obtain ⟨u, among, is⟩ := second.complete t (Nat.not_lt.mp early) until' v planned within
      exact ⟨u, List.mem_append_right _ among, is⟩
  · apply (first.marked q which).trans (second.marked q which) (updated_append more more' q)

/-- Accesses that have done nothing for some properties have done nothing for fewer ones. -/
theorem Follows.mono {Q Q' : PropertyId → Prop} {s s' : Contended L M N} (follows : Follows Q s s')
    (fewer : ∀ q, Q' q → Q q) :
  Follows Q' s s'
  := by
  obtain ⟨more, passed⟩ := follows
  exact ⟨more, { passed with marked := fun q which => passed.marked q (fewer q which) }⟩

/-- No access changes nothing. -/
theorem Follows.refl (Q : PropertyId → Prop) (s : Contended L M N) :
  Follows Q s s
  := by
  refine ⟨[], rfl, List.prefix_refl _, (List.append_nil _).symm, by simp, by simp, by simp, ?_, rfl,
    fun q _ => ?_⟩
  · intro t since until'
    exact absurd until' (Nat.not_lt_of_le since)
  refine ⟨rfl, rfl, rfl, fun i => ?_⟩
  simp [Updated]

/-- What goes on aside from the line may be told whatever has become of the line. -/
theorem Follows.over {Q : PropertyId → Prop} {s s' : Contended L M N} (follows : Follows Q s s')
    (line : L) :
  Follows Q s { s' with line := line }
  := by
  obtain ⟨more, passed⟩ := follows
  exact ⟨more, { passed with }⟩

/-- What an update does: if there is such a module, the update is noted and marks it. -/
theorem exists_made_update (s : Contended L M N) (u : Update M) :
  ∃ first, (s.update u).made = s.made ++ first ∧
    (∀ made ∈ first, made.clock = s.found.length ∧ made.index < s.display.collection.size ∧
      made.Of u) ∧
    (u.index < s.display.collection.size →
      ∃ made ∈ first, made.clock = s.found.length ∧ made.Of u) ∧
    ∀ q, Collection.Marked q (Updated first q) s.display.collection
      (s.update u).display.collection
  := by
  let c := s.display.collection
  have kept (q : PropertyId) :
      Collection.Kept q c (c.modifyModule u.index fun m => ((), u.change m)).2 :=
    Collection.kept_modifyModule _ _
  have marked (q : PropertyId) (first : List (Made M)) (updated : ∀ i, Updated first q i ↔
      u.index = i ∧ u.index < c.size ∧ u.property.wire = q.wire) :
      Collection.Marked q (Updated first q) c (s.update u).display.collection := by
    refine (kept q).trans (Collection.marked_markModuleDirty u.index) fun i => ?_
    rw [(kept q).size, false_or]
    exact updated i
  cases here : c.entries[u.index]? with
  | none =>
    have absent : c.size ≤ u.index := List.getElem?_eq_none_iff.mp here
    refine ⟨[], ?_, by simp, fun within => absurd within (Nat.not_lt_of_le absent),
      fun q => marked q [] fun i => ?_⟩
    · rw [update, Collection.module?, here]
      rfl
    · simp only [Updated, List.not_mem_nil, false_and, exists_false, false_iff]
      omega
  | some e =>
    have within : u.index < c.size := (List.getElem?_eq_some_iff.mp here).1
    let made : Made M := ⟨s.found.length, u.index, u.property, u.change e.module⟩
    have is : made.Of u := ⟨rfl, rfl, e.module, rfl⟩
    refine ⟨[made], ?_, ?_, fun _ => ⟨made, List.mem_singleton_self _, rfl, is⟩,
      fun q => marked q _ fun i => ?_⟩
    · rw [update, Collection.module?, here]
      rfl
    · intro one member
      rw [List.mem_singleton.mp member]
      exact ⟨rfl, within, is⟩
    · simp only [Updated, List.mem_singleton, exists_eq_left, made, within, true_and]

/-- What updates in turn do. -/
theorem exists_made (us : List (Update M)) (s : Contended L M N) :
  let s' := us.foldl update s
  ∃ more, s'.made = s.made ++ more ∧ s'.plan = s.plan ∧ s'.found = s.found ∧
    (∀ made ∈ more, made.clock = s.found.length ∧ made.index < s.display.collection.size ∧
      ∃ u ∈ us, made.Of u) ∧
    (∀ u ∈ us, u.index < s.display.collection.size →
      ∃ made ∈ more, made.clock = s.found.length ∧ made.Of u) ∧
    ∀ q, Collection.Marked q (Updated more q) s.display.collection s'.display.collection
  := by
  induction us generalizing s with
  | nil =>
    refine ⟨[], (List.append_nil _).symm, rfl, rfl, by simp, by simp, fun q => ?_⟩
    refine ⟨rfl, rfl, rfl, fun i => ?_⟩
    simp [Updated]
  | cons u us ih =>
    obtain ⟨first, made, noted, complete, marked⟩ := exists_made_update s u
    obtain ⟨more, made', plan, found, noted', complete', marked'⟩ := ih (s.update u)
    have size : (s.update u).display.collection.size = s.display.collection.size :=
      (marked u.property).size
    refine ⟨first ++ more, ?_, plan, found, ?_, ?_, fun q => ?_⟩
    · apply made'.trans
      rw [made, List.append_assoc]
    · intro one member
      rcases List.mem_append.mp member with among | among
      · obtain ⟨clock, index, is⟩ := noted one among
        exact ⟨clock, index, u, List.mem_cons_self, is⟩
      · obtain ⟨clock, index, v, within, is⟩ := noted' one among
        rw [size] at index
        exact ⟨clock, index, v, List.mem_cons_of_mem _ within, is⟩
    · intro v member within
      rcases List.mem_cons.mp member with rfl | later
      · obtain ⟨one, among, is⟩ := complete within
        exact ⟨one, List.mem_append_left _ among, is⟩
      · obtain ⟨one, among, is⟩ := complete' v later (by rw [size]; exact within)
        exact ⟨one, List.mem_append_right _ among, is⟩
    · apply (marked q).trans (marked' q) (updated_append first more q)

/-- An access that does nothing for some properties. -/
theorem follows_proceed {Q : PropertyId → Prop} (s : Contended L M N) {display : Display M N}
    (size : display.collection.size = s.seen.size)
    (kept : ∀ q, Q q → Collection.Kept q s.seen display.collection) :
  Follows Q s (s.proceed display)
  := by
  obtain ⟨more, made, plan, -, noted, complete, marked⟩ := exists_made (s.plan s.found.length) s
  have length : (s.proceed display).found.length = s.found.length + 1 := List.length_append
  refine ⟨more, plan, List.prefix_append _ _, made, ?_, fun u member => (noted u member).2.1, ?_,
    ?_, ?_, fun q which => ?_⟩
  · intro u member
    rw [(noted u member).1, length]
    exact ⟨Nat.le_refl _, Nat.lt_succ_self _⟩
  · intro u member
    obtain ⟨clock, -, planned⟩ := noted u member
    rw [clock]
    apply planned
  · intro t since until' v planned within
    have now : t = s.found.length := by omega
    subst now
    apply complete v planned within
  · apply size.trans (marked default).size
  · apply (marked q).trans (kept q which) fun i => (or_false _).symm ▸ Iff.rfl

end Contended

end DaisyChain.Gateway
