import DaisyChain.Gateway.Script
import DaisyChain.Proofs.Gateway.Contention
import DaisyChain.Proofs.Gateway.Openings
import DaisyChain.SplitFlap.Properties

/-!
# Marks that are earned

When a pass forgets that something waits to be done (`pass_forgets_earned`).  Nothing is assumed of the
line; that the application leaves the display alone is said by an empty plan of its updates.

Apart from that, a mark goes only with the module that has it, if the chain turns out to be shorter.
What the worker found at its accesses tells which modules have been there all the time
(`Contended.Lasts`).
-/

namespace DaisyChain.Gateway

variable {L M : Type} {N : Nat} {p q : PropertyId}

/-! ### Collections that lose modules -/

namespace Collection

variable {c c' : Collection M N}

/-- Nothing has been done for a property, but modules may have been taken away and added. -/
structure Pruned (q : PropertyId) (c c' : Collection M N) : Prop where
  reads : c'.reads.contains q = c.reads.contains q
  writes : c'.writes.contains q = c.writes.contains q
  marks : ∀ i, c'.mustWrite i q = true ↔ c.mustWrite i q = true ∧ i < c'.size

/-- A module that waits to be written is there. -/
theorem lt_of_mustWrite {i : Nat} (marked : c.mustWrite i q = true) :
  i < c.size
  := by
  rw [mustWrite] at marked
  cases here : c.entries[i]? with
  | none =>
    rw [here] at marked
    contradiction
  | some e => exact (List.getElem?_eq_some_iff.mp here).1

/-- If nothing has been done for a property, modules may have been taken away all the same. -/
theorem Kept.pruned (kept : Kept q c c') :
  Pruned q c c'
  := by
  refine ⟨kept.reads, kept.writes, fun i => ?_⟩
  rw [kept.marks, or_false, kept.size]
  exact ⟨fun marked => ⟨marked, lt_of_mustWrite marked⟩, And.left⟩

/-- A change of size takes modules away, and adds some for which nothing waits to be done. -/
theorem pruned_resize [Inhabited M] (c : Collection M N) (count : Nat) :
  Pruned q c (c.resize count)
  := by
  refine ⟨rfl, rfl, fun i => ?_⟩
  rw [length_resize, mustWrite, resize]
  by_cases inside : i < min count N
  · by_cases old : i < c.entries.length
    · rw [List.getElem?_append_left (by rw [List.length_take]; omega), List.getElem?_take_of_lt inside]
      exact ⟨fun marked => ⟨marked, inside⟩, And.left⟩
    · have absent : c.entries[i]? = none := List.getElem?_eq_none (Nat.not_lt.mp old)
      rw [List.getElem?_append_right (by rw [List.length_take]; omega), List.getElem?_replicate,
        mustWrite, absent]
      split <;> simp [PropertySet.contains_empty]
  · rw [List.getElem?_eq_none]
    · simp [inside]
    · simp only [List.length_append, List.length_take, List.length_replicate]
      omega

end Collection

/-! ### What a pass leaves alone -/

namespace Contended

variable {s s' s'' : Contended L M N} {Q Q' : PropertyId → Prop}

/-- The application leaves the display alone. -/
def Undisturbed (s : Contended L M N) : Prop :=
  ∀ t, s.plan t = []

/-- From the first state to the second one, the module of the given index has been there. -/
def Lasts (index : Nat) (s s' : Contended L M N) : Prop :=
  (∀ c ∈ s'.found.drop s.found.length, index < c.size) ∧ index < s'.display.collection.size

/-- From the first state to the second one, nothing has been done for a property; only with modules
that did not last went what waited for them. -/
structure Spares (q : PropertyId) (s s' : Contended L M N) : Prop where
  reads : s'.display.collection.reads.contains q = s.display.collection.reads.contains q
  writes : s'.display.collection.writes.contains q = s.display.collection.writes.contains q
  marks : ∀ i, s'.display.collection.mustWrite i q = true ↔
    s.display.collection.mustWrite i q = true ∧ Lasts i s s'

/-- From the first state to the second one, some accesses have passed that spared the given
properties. -/
structure Leads (Q : PropertyId → Prop) (s s' : Contended L M N) : Prop where
  plan : s'.plan = s.plan
  found : s.found <+: s'.found
  /-- A module that lasts was there in the beginning. -/
  begins : ∀ i, Lasts i s s' → i < s.display.collection.size
  spares : ∀ q, Q q → Spares q s s'

/-- A display is left alone as long as nothing else is planned. -/
theorem Leads.undisturbed (leads : Leads Q s s') (undisturbed : s.Undisturbed) :
  s'.Undisturbed
  := by
  rw [Undisturbed, leads.plan]
  apply undisturbed

/-- Accesses that have spared some properties have spared fewer ones. -/
theorem Leads.mono (leads : Leads Q s s') (fewer : ∀ q, Q' q → Q q) :
  Leads Q' s s'
  := { leads with spares := fun q which => leads.spares q (fewer q which) }

/-- A module lasts through two stretches of accesses if it lasts through each of them. -/
theorem Leads.lasts_iff (first : Leads Q s s') (second : Leads Q' s' s'') (i : Nat) :
  Lasts i s s'' ↔ Lasts i s s' ∧ Lasts i s' s''
  := by
  obtain ⟨early, foundFirst⟩ := first.found
  obtain ⟨late, foundSecond⟩ := second.found
  have begins := second.begins i
  simp only [Lasts] at begins ⊢
  rw [← foundSecond, List.drop_left] at begins ⊢
  rw [← foundFirst, List.append_assoc, List.drop_left, List.drop_left, List.forall_mem_append]
  constructor
  · rintro ⟨⟨there, later⟩, now⟩
    exact ⟨⟨there, begins ⟨later, now⟩⟩, later, now⟩
  · rintro ⟨⟨there, -⟩, later, now⟩
    exact ⟨⟨there, later⟩, now⟩

/-- Accesses that have spared some properties, and then others. -/
theorem Leads.trans (first : Leads Q s s') (second : Leads Q s' s'') :
  Leads Q s s''
  := by
  refine ⟨second.plan.trans first.plan, first.found.trans second.found, fun i lasts => ?_,
    fun q which => ?_⟩
  · apply first.begins i ((first.lasts_iff second i).mp lasts).1
  · have before := first.spares q which
    have after := second.spares q which
    refine ⟨after.reads.trans before.reads, after.writes.trans before.writes, fun i => ?_⟩
    rw [after.marks, before.marks, first.lasts_iff second, and_assoc]

/-- If nothing has been done for a property, nothing waits that did not. -/
theorem Spares.pending (spares : Spares q s s') (pending : s'.display.collection.Pending q) :
  s.display.collection.Pending q
  := by
  rw [Collection.Pending, spares.reads, spares.writes, Collection.anyMarked_iff] at pending
  rcases pending with read | write | ⟨i, marked⟩
  · apply Or.inl read
  · apply Or.inr (Or.inl write)
  · exact Or.inr (Or.inr (Collection.anyMarked_iff.mpr ⟨i, ((spares.marks i).mp marked).1⟩))

/-- If nothing has been done for a property, what is to be done for it was to be done before. -/
theorem Spares.operation?_eq_some {operation : Operation} (spares : Spares q s s')
    (pending : s'.display.collection.operation? q = some operation) :
  s.display.collection.operation? q = some operation
  := by
  rw [Collection.operation?, spares.reads, spares.writes] at pending
  rw [Collection.operation?]
  split at pending
  · next read => rw [if_pos read, pending]
  · next unread =>
    rw [if_neg unread]
    split at pending
    · next write => rw [if_pos write, pending]
    · next unwritten =>
      rw [if_neg unwritten]
      split at pending
      · next marked =>
        obtain ⟨i, here⟩ := Collection.anyMarked_iff.mp marked
        rw [if_pos (Collection.anyMarked_iff.mpr ⟨i, ((spares.marks i).mp here).1⟩), pending]
      · cases pending

/-- If nothing has been done for a property, and yet nothing is to be done any more, the modules that
were to be written have been taken away. -/
theorem Spares.writeMarked_of_none {operation : Operation} (spares : Spares q s s')
    (pending : s.display.collection.operation? q = some operation)
    (nothing : s'.display.collection.operation? q = none) :
  operation = .writeMarked ∧
    ∀ i, s.display.collection.mustWrite i q = true → ¬Lasts i s s'
  := by
  obtain ⟨unread, unwritten, unmarked⟩ := Collection.operation?_eq_none_iff.mp nothing
  constructor
  · rw [Collection.operation?, ← spares.reads, unread, ← spares.writes, unwritten,
      if_neg Bool.false_ne_true, if_neg Bool.false_ne_true] at pending
    split at pending <;> cases pending
    rfl
  · intro i marked lasts
    have there := (spares.marks i).mpr ⟨marked, lasts⟩
    rw [unmarked] at there
    contradiction

/-- No access spares everything. -/
theorem Leads.refl (Q : PropertyId → Prop) (s : Contended L M N) :
  Leads Q s s
  := by
  have lasts (i : Nat) : Lasts i s s ↔ i < s.display.collection.size := by
    rw [Lasts, List.drop_length]
    simp
  refine ⟨rfl, List.prefix_refl _, fun i => (lasts i).mp, fun q _ => ⟨rfl, rfl, fun i => ?_⟩⟩
  rw [lasts]
  exact ⟨fun marked => ⟨marked, Collection.lt_of_mustWrite marked⟩, And.left⟩

/-- What goes on aside from the display spares everything. -/
theorem leads_line (Q : PropertyId → Prop) (s : Contended L M N) (line : L) :
  Leads Q s { s with line := line }
  := by
  have same := Leads.refl Q s
  exact ⟨same.plan, same.found, same.begins, fun q which =>
    ⟨(same.spares q which).reads, (same.spares q which).writes, (same.spares q which).marks⟩⟩

/-- What the worker finds in a display that is left alone is what is there. -/
theorem Undisturbed.arrive_eq (undisturbed : s.Undisturbed) :
  s.arrive = s
  := by
  rw [arrive, undisturbed]
  rfl

/-- An access to a display that is left alone. -/
theorem leads_access {α : Type} (undisturbed : s.Undisturbed) {f : StateM (Display M N) α}
    (prunes : ∀ d q, Q q → Collection.Pruned q d.collection (f d).2.collection) :
  Leads Q s (Shared.access f s).2
  := by
  change Leads Q s (s.proceed (f s.arrive.display).2)
  rw [proceed, seen, undisturbed.arrive_eq]
  have lasts (i : Nat) :
      Lasts i s { s with
        display := (f s.display).2, found := s.found ++ [s.display.collection] } ↔
      i < s.display.collection.size ∧ i < (f s.display).2.collection.size := by
    rw [Lasts, List.drop_left]
    simp
  refine ⟨rfl, List.prefix_append _ _, fun i there => ((lasts i).mp there).1, fun q which => ?_⟩
  have pruned := prunes s.display q which
  refine ⟨pruned.reads, pruned.writes, fun i => ?_⟩
  rw [lasts]
  apply (pruned.marks i).trans
  exact ⟨fun ⟨marked, now⟩ => ⟨marked, Collection.lt_of_mustWrite marked, now⟩,
    fun ⟨marked, _, now⟩ => ⟨marked, now⟩⟩

variable [Transport L] [Inhabited M]

/-- A display that is left alone is led on by every call. -/
theorem callsObey (Q : PropertyId → Prop) :
  CallsObey (M := M) fun s s' : Contended L M N => s.Undisturbed → Leads Q s s'
  where
  refl s _ := .refl Q s
  trans first second undisturbed :=
    (first undisturbed).trans (second ((first undisturbed).undisturbed undisturbed))
  send _ s _ := leads_line Q s _
  receive _ _ s _ := leads_line Q s _
  flush s _ := leads_line Q s _
  drain s _ := leads_line Q s _
  pause _ s _ := leads_line Q s _
  count _ undisturbed := leads_access undisturbed fun d q _ => (Collection.Kept.refl d.collection q).pruned
  module? _ _ undisturbed := leads_access undisturbed fun d q _ => (Collection.Kept.refl d.collection q).pruned
  modify i f _ undisturbed :=
    leads_access undisturbed fun _ _ _ => (Collection.kept_modifyModule i f).pruned
  countChanged count _ undisturbed :=
    leads_access undisturbed fun d _ _ => Collection.pruned_resize d.collection count
  mustWrite _ _ _ undisturbed :=
    leads_access undisturbed fun d q _ => (Collection.Kept.refl d.collection q).pruned
  reported _ _ _ _ undisturbed :=
    leads_access undisturbed fun _ _ _ =>
      Collection.Kept.pruned (Collection.kept_modifyEntry fun _ => rfl)

end Contended

/-! ### Turns -/

section Performing

variable {S : Type} [Transport S] [Shared S M N] [Inhabited M]

/-- The operation that is performed in the turn of a property, and how it ends.  There is none if
nothing is to be done, or if there is no module to be written. -/
def performed? (g : Gateway M) (property : PropertyId) (σ : Session S) :
    Option (Operation × Except Failure Unit) := do
  let operation ← (look property σ.env).1
  let looked := σ.after (look property)
  let result ← (g.perform property operation (tally looked.env).1 (looked.after tally)).1
  return (operation, result)

variable {σ τ : Session S} {property : PropertyId} {g : Gateway M}

/-- If something is to be done for a property, it is done, unless there is no module to be written;
the property is marked clean once it is settled. -/
theorem syncProperty_of_pending {operation : Operation}
    {result? : Option (Except Failure Unit)}
    (pending : (look property σ.env).1 = some operation)
    (performed : g.perform property operation (tally (σ.after (look property)).env).1
      ((σ.after (look property)).after tally) = (result?, τ)) :
  g.performed? property σ = result?.map (operation, ·) ∧
    g.syncProperty property σ = ((), if result?.any settled then τ.after (clean property) else τ)
  := by
  refine ⟨?_, syncProperty_performed g pending performed⟩
  rw [performed?, pending]
  change (g.perform property operation _ _).1 >>= (fun result => pure (operation, result)) = _
  rw [performed]
  cases result? <;> rfl

/-- An operation that is performed is the one that the worker finds. -/
theorem look_of_performed {operation : Operation} {result : Except Failure Unit}
    (performed : g.performed? property σ = some (operation, result)) :
  (look property σ.env).1 = some operation
  := by
  obtain ⟨found, here, rest⟩ := Option.bind_eq_some_iff.mp performed
  obtain ⟨ended, -, same⟩ := Option.bind_eq_some_iff.mp rest
  cases same
  apply here

/-- An operation that is found is performed if a module is counted. -/
theorem tally_of_skipped {operation : Operation} (found : (look property σ.env).1 = some operation)
    (skipped : g.performed? property σ = none) :
  (tally (σ.after (look property)).env).1 = 0
  := by
  have nothing : (g.perform property operation (tally (σ.after (look property)).env).1
      ((σ.after (look property)).after tally)).1 = none := by
    have rest := Option.bind_eq_none_iff.mp skipped operation found
    rw [← Option.not_isSome_iff_eq_none, Option.isSome_iff_exists]
    rintro ⟨result, ended⟩
    exact absurd (Option.bind_eq_none_iff.mp rest result ended) (Option.some_ne_none _)
  by_contra some
  cases operation with
  | readAll => cases nothing
  | broadcast =>
    rw [perform, if_neg some] at nothing
    cases nothing
  | writeMarked =>
    rw [perform, if_neg some] at nothing
    cases nothing

/-- After its look for what is to be done, a turn obeys what all calls obey.  In the end it marks its
property clean, if the operation is settled. -/
theorem exists_turn {R : S → S → Prop} (calls : CallsObey (M := M) R) (g : Gateway M)
    (property : PropertyId) (σ : Session S) :
  ∃ τ, R (σ.after (look property)).env τ.env ∧ (g.syncProperty property σ).2 =
    if (g.performed? property σ).any fun done => settled done.2 then τ.after (clean property) else τ
  := by
  cases pending : (look property σ.env).1 with
  | none =>
    rw [syncProperty_none g pending, performed?, pending]
    exact ⟨_, calls.refl _, rfl⟩
  | some operation =>
    cases performed : g.perform property operation (tally (σ.after (look property)).env).1
        ((σ.after (look property)).after tally) with
    | mk result? τ =>
      refine ⟨τ, ?_, ?_⟩
      · apply calls.trans (calls.count (σ.after (look property)).env)
        rw [show τ = (g.perform property operation (tally (σ.after (look property)).env).1
          ((σ.after (look property)).after tally)).2 by rw [performed]]
        apply calls.perform g property operation _ ((σ.after (look property)).after tally)
      · obtain ⟨same, turned⟩ := syncProperty_of_pending pending performed
        rw [same, turned, Option.any_map]

end Performing

section Turns

open Contended

variable {σ : Session (Contended L M N)} {property : PropertyId}

/-- What the worker finds that is to be done, in a display that is left alone. -/
theorem look_eq (undisturbed : σ.env.Undisturbed) (property : PropertyId) :
  (look property σ.env).1 = σ.env.display.collection.operation? property
  := by
  change σ.env.arrive.display.collection.operation? property = _
  rw [undisturbed.arrive_eq]

variable [Transport L] [Inhabited M]

/-- If an operation is found and not performed in a display that is left alone, no module is
counted. -/
theorem counted_of_skipped {g : Gateway M} {operation : Operation} (undisturbed : σ.env.Undisturbed)
    (found : (look property σ.env).1 = some operation)
    (skipped : g.performed? property σ = none) :
  σ.env.display.collection.counted = 0
  := by
  have looking : Leads (fun _ => True) σ.env (σ.after (look property)).env :=
    leads_access undisturbed fun d q _ => (Collection.Kept.refl d.collection q).pruned
  have none := tally_of_skipped found skipped
  change (σ.after (look property)).env.arrive.display.collection.counted = 0 at none
  rw [(looking.undisturbed undisturbed).arrive_eq] at none
  change σ.env.arrive.display.collection.counted = 0 at none
  rw [undisturbed.arrive_eq] at none
  apply none

/-- A turn does nothing for other properties, and for its own one only as far as the operation
succeeds or cannot be done at all. -/
theorem leads_turn (g : Gateway M) (property : PropertyId) (undisturbed : σ.env.Undisturbed) :
  let τ := (g.syncProperty property σ).2
  Leads (fun q => property.wire ≠ q.wire) σ.env τ.env ∧
    if (g.performed? property σ).any fun done => settled done.2 then
      τ.env.display.collection.operation? property = none
    else
      Leads (fun _ => True) σ.env τ.env
  := by
  intro τ
  have looking : Leads (fun _ => True) σ.env (σ.after (look property)).env :=
    leads_access undisturbed fun d q _ => (Collection.Kept.refl d.collection q).pruned
  obtain ⟨ρ, leads, turned⟩ := exists_turn (callsObey fun _ => True) g property σ
  have performing := looking.trans (leads (looking.undisturbed undisturbed))
  rw [show τ = _ from turned]
  split
  · constructor
    · apply (performing.mono fun _ _ => trivial).trans
      apply leads_access (performing.undisturbed undisturbed)
      intro d q differs
      apply (Collection.kept_markClean differs).pruned
    · apply Collection.operation?_markClean
  · exact ⟨performing.mono fun _ _ => trivial, performing⟩

/-- Turns in a row do nothing for properties that have none of them. -/
theorem leads_turns (g : Gateway M) (ds : List (Definition M)) (undisturbed : σ.env.Undisturbed) :
  Leads (fun q => ∀ d ∈ ds, d.id.wire ≠ q.wire) σ.env
    (ds.forM (fun d => g.syncProperty d.id) σ).2.env
  := by
  induction ds generalizing σ with
  | nil => apply Leads.refl
  | cons d ds ih =>
    have turn := (leads_turn g d.id undisturbed).1
    have rest := ih (turn.undisturbed undisturbed)
    apply (turn.mono fun q others => others d List.mem_cons_self).trans
    apply rest.mono fun q others e member => others e (List.mem_cons_of_mem d member)

/-- After a turn, nothing waits to be done that did not before. -/
theorem pending_of_turn (g : Gateway M) (undisturbed : σ.env.Undisturbed)
    (pending : (g.syncProperty property σ).2.env.display.collection.Pending q) :
  σ.env.display.collection.Pending q
  := by
  obtain ⟨others, own⟩ := leads_turn g property undisturbed
  by_cases differs : property.wire ≠ q.wire
  · apply (others.spares q differs).pending pending
  · rw [not_ne_iff] at differs
    split at own
    · rw [Collection.operation?_of_wire differs] at own
      exact absurd own (Collection.pending_iff.mp pending)
    · apply (own.spares q trivial).pending pending

/-- After some turns, nothing waits to be done that did not before. -/
theorem pending_of_turns (g : Gateway M) (ds : List (Definition M)) (undisturbed : σ.env.Undisturbed)
    (pending : (ds.forM (fun d => g.syncProperty d.id) σ).2.env.display.collection.Pending q) :
  σ.env.display.collection.Pending q
  := by
  induction ds generalizing σ with
  | nil => apply pending
  | cons d ds ih =>
    have turn := (leads_turn g d.id undisturbed).1
    apply pending_of_turn g undisturbed (ih (turn.undisturbed undisturbed) pending)

end Turns

/-! ### Passes -/

section Passes

open Contended

variable [Transport L] [Inhabited M]

/-- A pass in which all properties have been promoted and the given ones have had their turns. -/
def Session.upTo (g : Gateway M) (front : List (Definition M)) (σ : Session (Contended L M N)) :
    Session (Contended L M N) :=
  (front.forM (fun d => g.syncProperty d.id)
    (σ.after (Shared.onCollection fun c => ((), promoteAll g.table c)))).2

/-- What becomes of the marks in a pass. -/
structure Earned (g : Gateway M) (σ : Session (Contended L M N)) : Prop where
  /-- If nothing is to be done for a property after the promotion, nothing is after the pass. -/
  nothing : ∀ d ∈ definitions g.table,
    (σ.upTo g []).env.display.collection.operation? d.id = none →
      ¬(g.pass σ).2.env.display.collection.Pending d.id
  /-- An operation that is performed is the one that was to be done after the promotion.  Nothing
  waits to be done for its property any more if it succeeds or cannot be done at all. -/
  performed : ∀ front d back, definitions g.table = front ++ d :: back →
    ∀ operation result, g.performed? d.id (σ.upTo g front) = some (operation, result) →
      (σ.upTo g []).env.display.collection.operation? d.id = some operation ∧
        if settled result then ¬(g.pass σ).2.env.display.collection.Pending d.id
        else Spares d.id (σ.upTo g []).env (g.pass σ).2.env
  /-- If no operation is performed although one was to be done, no module is counted by then, or those
  that were to be written have been taken away. -/
  skipped : ∀ front d back, definitions g.table = front ++ d :: back →
    g.performed? d.id (σ.upTo g front) = none →
      Spares d.id (σ.upTo g []).env (g.pass σ).2.env ∧
        ∀ operation, (σ.upTo g []).env.display.collection.operation? d.id = some operation →
          (σ.upTo g front).env.display.collection.counted = 0 ∨ operation = .writeMarked ∧
            ∀ i, (σ.upTo g []).env.display.collection.mustWrite i d.id = true →
              ¬Lasts i (σ.upTo g []).env (σ.upTo g front).env
  /-- The turn of a property does nothing for other properties. -/
  others : ∀ front d back, definitions g.table = front ++ d :: back →
    ∀ q, d.id.wire ≠ q.wire → Spares q (σ.upTo g front).env (σ.upTo g (front ++ [d])).env
  /-- After the pass nothing waits to be done that did not before. -/
  pending : ∀ q, (g.pass σ).2.env.display.collection.Pending q → σ.env.display.collection.Pending q
  /-- The application gets its notice. -/
  synchronized : (g.pass σ).2.env.display.synchronized = true

variable {σ : Session (Contended L M N)} {g : Gateway M}

/-- The turns of some properties come before those of others. -/
theorem upTo_append (front back : List (Definition M)) (σ : Session (Contended L M N)) :
  σ.upTo g (front ++ back) = (back.forM (fun d => g.syncProperty d.id) (σ.upTo g front)).2
  := by
  have turns : (front ++ back).forM (fun d => g.syncProperty d.id) = (do
      front.forM fun d => g.syncProperty d.id
      back.forM fun d => g.syncProperty d.id :
        StateM (Session (Contended L M N)) Unit) := List.forM_append
  rw [Session.upTo, turns]
  rfl

/-- A display stays left alone in a pass. -/
theorem undisturbed_upTo (undisturbed : σ.env.Undisturbed) (front : List (Definition M)) :
  (σ.upTo g front).env.Undisturbed
  := by
  have promoted : (σ.upTo g []).env.Undisturbed := by
    intro t
    change σ.env.arrive.plan t = []
    rw [undisturbed.arrive_eq, undisturbed]
  apply (leads_turns g front promoted).undisturbed promoted

/-- The notice at the end of a pass does nothing for any property. -/
theorem leads_finish (undisturbed : σ.env.Undisturbed) :
  Leads (fun _ => True) (σ.upTo g (definitions g.table)).env (g.pass σ).2.env
  := by
  let finish : StateM (Display M N) Unit := fun d => ((), d.finishPass)
  change Leads _ _ (Shared.access finish (σ.upTo g (definitions g.table)).env).2
  apply leads_access (undisturbed_upTo undisturbed _)
  intro d q _
  apply (Collection.Kept.refl d.collection q).pruned

/-- Before the turn of a property, and after it, nothing is done for that property. -/
theorem leads_around (undisturbed : σ.env.Undisturbed) {front back : List (Definition M)}
    {d : Definition M} (split : definitions g.table = front ++ d :: back) :
  Leads (· = d.id) (σ.upTo g []).env (σ.upTo g front).env ∧
    Leads (· = d.id) (g.syncProperty d.id (σ.upTo g front)).2.env (g.pass σ).2.env
  := by
  obtain ⟨before, behind⟩ := apart_of_split split
  have reached := undisturbed_upTo (g := g) undisturbed front
  constructor
  · apply (leads_turns g front (undisturbed_upTo undisturbed [])).mono
    rintro q rfl
    apply before
  · have turned := (leads_turn g d.id reached).1.undisturbed reached
    have rest := leads_turns g back turned
    have last := leads_finish (g := g) undisturbed
    rw [split, upTo_append] at last
    apply (rest.mono _).trans (last.mono fun _ _ => trivial)
    rintro q rfl
    apply behind

/-- A pass forgets that something waits to be done only if it has been done, or cannot be done at
all. -/
theorem pass_forgets_earned (g : Gateway M) {σ : Session (Contended L M N)}
    (undisturbed : σ.env.Undisturbed) :
  Earned g σ
  := by
  have promoted := undisturbed_upTo (g := g) undisturbed []
  refine ⟨?_, ?_, ?_, ?_, ?_, ?_⟩
  · intro d _ nothing pending
    have before := pending_of_turns g (definitions g.table) promoted
      (((leads_finish undisturbed).spares d.id trivial).pending pending)
    exact Collection.pending_iff.mp before nothing
  · intro front d back split operation result performed
    have reached := undisturbed_upTo (g := g) undisturbed front
    obtain ⟨before, after⟩ := leads_around undisturbed split
    obtain ⟨-, own⟩ := leads_turn g d.id reached
    rw [performed, Option.any_some] at own
    constructor
    · apply (before.spares d.id rfl).operation?_eq_some
      rw [← look_eq reached]
      apply look_of_performed performed
    · split at own
      · next exceeds =>
        rw [if_pos exceeds]
        intro pending
        exact Collection.pending_iff.mp ((after.spares d.id rfl).pending pending) own
      · next again =>
        rw [if_neg again]
        apply ((before.trans (own.mono fun _ _ => trivial)).trans after).spares d.id rfl
  · intro front d back split skipped
    have reached := undisturbed_upTo (g := g) undisturbed front
    obtain ⟨before, after⟩ := leads_around undisturbed split
    obtain ⟨-, own⟩ := leads_turn g d.id reached
    rw [skipped, Option.any_none, if_neg Bool.false_ne_true] at own
    constructor
    · apply ((before.trans (own.mono fun _ _ => trivial)).trans after).spares d.id rfl
    · intro operation pending
      have spared := before.spares d.id rfl
      cases found : (look d.id (σ.upTo g front).env).1 with
      | none =>
        rw [look_eq reached] at found
        apply Or.inr (spared.writeMarked_of_none pending found)
      | some found => apply Or.inl (counted_of_skipped reached found skipped)
  · intro front d back split q differs
    rw [upTo_append]
    apply (leads_turn g d.id (undisturbed_upTo undisturbed front)).1.spares q differs
  · intro q pending
    have before := pending_of_turns g (definitions g.table) promoted
      (((leads_finish undisturbed).spares q trivial).pending pending)
    rw [Collection.pending_iff] at before ⊢
    intro nothing
    apply before
    change (promoteAll g.table σ.env.arrive.display.collection).operation? q = none
    rw [undisturbed.arrive_eq]
    apply operation?_promotions_of_none _ nothing
  · rfl

/-- A display of two modules over a line that reports one node and then falls silent.  The character
sets are to be read, and the offset of the second module is to be written to a node that is not there
any more. -/
def shrinking : Session (Contended Script SplitFlap.Module 4) where
  env := {
    line := { replies := [opening .read false ⟨4⟩ 1] }
    display := {
      collection := {
        entries := [{ module := {} },
          { module := { offset := 9 }, marks := PropertySet.empty.insert ⟨6⟩ }]
        reads := PropertySet.empty.insert ⟨4⟩ } }
    plan := fun _ => [] }

/-- What becomes of the marks of this display. -/
theorem pass_forgets_earned_shrinking :
  Earned ⟨SplitFlap.table, {}⟩ shrinking
  := pass_forgets_earned ⟨SplitFlap.table, {}⟩ fun _ => rfl

end Passes

end DaisyChain.Gateway
