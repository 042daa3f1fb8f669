import DaisyChain.Proofs.Gateway.Notices
import DaisyChain.Proofs.Gateway.Ports

/-!
# Orderly collections

What holds of a collection at all times (`Collection.Orderly`): no property waits to be read and to be
written to all nodes at once, there is room for every module, and nothing waits to be done exactly if
nothing is to be done for any property.

The collection begins empty.  An application changes it (`Change`), and a gateway has access to it in
its transactions and in passes of the worker, while the application comes in between; what the line
brings is anything at all.  Every access leaves the collection orderly, and either all modules stay or
the collection is resized (`Collection.Follows`).  A resize keeps the modules for which there is room
before and afterwards, with their marks and faults, and the new ones are blank (`Collection.Resized`).
-/

namespace DaisyChain.Gateway

variable {L M : Type} {N : Nat}

namespace Collection

variable {c c' c'' : Collection M N}

/-! ### What is orderly -/

/-- What holds of a collection at all times. -/
structure Orderly (c : Collection M N) : Prop where
  /-- No property waits to be read and to be written to all nodes at once. -/
  exclusive : ∀ p, ¬(c.reads.contains p = true ∧ c.writes.contains p = true)
  /-- There is room for every module. -/
  fits : c.size ≤ N
  /-- Nothing waits to be done exactly if nothing is to be done for any property. -/
  synchronized : c.isSynchronized = true ↔ ∀ p : PropertyId, p.number.toNat < 128 → c.operation? p = none

/-- A collection is orderly if its marks exclude each other and there is room for its modules. -/
theorem orderly_of (exclusive : ∀ p, ¬(c.reads.contains p = true ∧ c.writes.contains p = true))
    (fits : c.size ≤ N) :
  c.Orderly
  := ⟨exclusive, fits, fun synchronized p _ => operation?_of_isSynchronized synchronized p,
    isSynchronized_of_none⟩

/-- An empty collection is orderly. -/
theorem orderly_empty :
  Orderly ({} : Collection M N)
  := by
  apply orderly_of
  · intro p both
    simp at both
  · apply Nat.zero_le

/-! ### Changes that keep the modules -/

/-- The second collection is orderly if the first one is, and it has as many modules. -/
structure Tends (c c' : Collection M N) : Prop where
  orderly : c.Orderly → c'.Orderly
  size : c'.size = c.size

theorem Tends.refl (c : Collection M N) :
  Tends c c
  := ⟨id, rfl⟩

theorem Tends.trans (first : Tends c c') (second : Tends c' c'') :
  Tends c c''
  := ⟨second.orderly ∘ first.orderly, second.size.trans first.size⟩

/-- To change entries is to leave the marks of the collection alone. -/
theorem tends_entries {entries : List (Entry M)} (length : entries.length = c.entries.length) :
  Tends c { c with entries := entries }
  := ⟨fun orderly =>
      orderly_of orderly.exclusive (Nat.le_trans (Nat.le_of_eq length) orderly.fits), length⟩

theorem tends_modifyEntry (i : Nat) (f : Entry M → Entry M) :
  Tends c (c.modifyEntry i f)
  := tends_entries (List.length_modify f _ i)

theorem tends_modifyModule {α : Type} (i : Nat) (f : M → α × M) :
  Tends c (c.modifyModule i f).2
  := by
  rw [modifyModule]
  split
  · apply Tends.refl
  · apply tends_modifyEntry

theorem tends_unmarkModules (p : PropertyId) :
  Tends c (c.unmarkModules p)
  := tends_entries (List.length_map _)

/-- To ask for one way to bring a property up to date is to forget the other one. -/
theorem tends_markDirty (p : PropertyId) (method : SyncMethod) :
  Tends c (c.markDirty p method)
  := by
  refine ⟨fun orderly => orderly_of (fun q both => ?_) ?_, ?_⟩
  · have before := orderly.exclusive q
    cases method <;>
      simp only [markDirty, PropertySet.contains_insert, PropertySet.contains_remove] at both <;>
      grind
  · cases method <;> exact orderly.fits
  · cases method <;> rfl

/-- To forget all that waits for a property is to forget both ways to bring it up to date. -/
theorem tends_markClean (p : PropertyId) :
  Tends c (c.markClean p)
  := by
  have unmarked := tends_unmarkModules (c := c) p
  refine ⟨fun orderly => orderly_of (fun q both => ?_) (unmarked.orderly orderly).fits, unmarked.size⟩
  simp only [markClean, PropertySet.contains_remove, Bool.and_eq_true] at both
  exact orderly.exclusive q ⟨both.1.1, both.2.1⟩

theorem tends_promote (d : Definition M) :
  Tends c (c.promote d).2
  := by
  rw [promote]
  split
  · exact (tends_unmarkModules d.id).trans (tends_markDirty d.id .write)
  · apply Tends.refl

theorem tends_promoteAll (table : Table M) (c : Collection M N) :
  Tends c (promoteAll table c)
  := by
  rw [promoteAll]
  induction definitions table generalizing c with
  | nil => apply Tends.refl
  | cons d ds ih => exact (tends_promote d).trans (ih _)

/-! ### Changes of size -/

/-- The second collection is the first one in another size: the modules for which there is room in both
are the same, with their marks and faults, and those beyond are blank. -/
structure Resized [Inhabited M] (c c' : Collection M N) : Prop where
  kept : ∀ i, i < c.size → i < c'.size → c'.entries[i]? = c.entries[i]?
  blank : ∀ i, c.size ≤ i → i < c'.size →
    c'.entries[i]? = some { module := default, marks := .empty, fault := none, faultState := none }

/-- A resize leaves the modules for which there is room, and adds blank ones. -/
theorem resized_resize [Inhabited M] (c : Collection M N) (count : Nat) :
  Resized c (c.resize count)
  := by
  constructor
  · intro i old inside
    rw [length_resize] at inside
    have here : c.entries[i]? = some _ := List.getElem?_eq_getElem old
    rw [getElem?_resize c inside, entry_of_getElem? here, here]
  · intro i new inside
    rw [length_resize] at inside
    rw [getElem?_resize c inside, entry, List.getElem?_eq_none new, Option.getD_none]

/-- A resize leaves a collection orderly. -/
theorem Orderly.resize [Inhabited M] (orderly : c.Orderly) (count : Nat) :
  (c.resize count).Orderly
  := by
  refine orderly_of (c := c.resize count) orderly.exclusive ?_
  rw [length_resize]
  apply Nat.min_le_right

/-! ### One access after the other -/

/-- What one access makes of a collection: either all modules stay, or it is resized. -/
inductive Follows [Inhabited M] (c : Collection M N) : Collection M N → Prop where
  | tends {c' : Collection M N} (tends : Tends c c') : Follows c c'
  | resize (count : Nat) : Follows c (c.resize count)

/-- An access leaves a collection orderly. -/
theorem Follows.orderly [Inhabited M] (follows : Follows c c') (orderly : c.Orderly) :
  c'.Orderly
  := by
  cases follows with
  | tends tends => apply tends.orderly orderly
  | resize count => apply orderly.resize count

/-- If an access does not leave a collection in its size, it is a resize. -/
theorem Follows.sized [Inhabited M] (follows : Follows c c') :
  c'.size = c.size ∨ ∃ count, c' = c.resize count
  := by
  cases follows with
  | tends tends => exact .inl tends.size
  | resize count => exact .inr ⟨count, rfl⟩

end Collection

/-! ### What is done to a collection -/

/-- What an application does to a collection without interruption. -/
inductive Change (M : Type) where
  | mark (property : PropertyId) (method : SyncMethod)
  | markModule (index : Nat) (property : PropertyId)
  | clean (property : PropertyId)
  | promote (d : Definition M)
  | resize (count : Nat)
  | module (index : Nat) (f : M → M)
  | report (index : Nat) (fault : Option Fault) (state : Option NodeState)

namespace Change

variable [Inhabited M]

/-- The collection after a change. -/
def apply (c : Collection M N) : Change M → Collection M N
  | mark property method => c.markDirty property method
  | markModule index property => (c.markModuleDirty index property).2
  | clean property => c.markClean property
  | promote d => (c.promote d).2
  | resize count => c.resize count
  | module index f => (c.modifyModule index fun m => ((), f m)).2
  | report index fault state => c.reported index fault state

/-- A change as a step of an application. -/
def step (change : Change M) : Step M N :=
  .change fun c => change.apply c

/-- A change keeps all modules, unless it is a resize. -/
theorem follows_apply (c : Collection M N) (change : Change M) :
  c.Follows (change.apply c)
  := by
  cases change with
  | mark property method => exact .tends (Collection.tends_markDirty property method)
  | markModule index property => exact .tends (Collection.tends_modifyEntry index _)
  | clean property => exact .tends (Collection.tends_markClean property)
  | promote d => exact .tends (Collection.tends_promote d)
  | resize count => exact .resize count
  | module index f => exact .tends (Collection.tends_modifyModule index _)
  | report index fault state => exact .tends (Collection.tends_modifyEntry index _)

end Change

/-- What is done over a line and to the collection that is shown over it. -/
inductive Move (M : Type) where
  /-- The application makes a change. -/
  | change (change : Change M)
  /-- The gateway makes a transaction. -/
  | transact {α : Type} (transaction : Transaction α)
  /-- The gateway lets the nodes recover. -/
  | recover
  /-- The worker makes a pass. -/
  | pass

section Moves

variable [Transport L] [Inhabited M]

/-- The session after a move. -/
def Move.play (g : Gateway M) (σ : Session (Frequented L M N)) : Move M → Session (Frequented L M N)
  | change made => { σ with env := σ.env.step made.step }
  | transact transaction => ((transaction.act g).run σ).2
  | recover => (g.recover.run σ).2
  | pass => (g.pass σ).2

/-- The session after some moves of a gateway and an application, which begin with an empty collection.
Before each access of the gateway, the application makes the changes that it plans to make. -/
def play (g : Gateway M) (line : L) (plan : Nat → List (Change M)) (moves : List (Move M)) :
    Session (Frequented L M N) :=
  moves.foldl (Move.play g) { env := { line := line, plan := fun t => (plan t).map Change.step } }

end Moves

/-! ### What the past tells -/

namespace Frequented

variable [Inhabited M] {plan : Nat → List (Change M)} {s s' : Frequented L M N}

/-- The application keeps to its plan, and so far the collection has been orderly at all times, and each
access has either kept all modules or resized it. -/
structure Kept (plan : Nat → List (Change M)) (s : Frequented L M N) : Prop where
  plans : s.plan = fun t => (plan t).map Change.step
  orderly : ∀ t ≤ s.past.length, (s.shown t).collection.Orderly
  follows : ∀ t < s.past.length, (s.shown t).collection.Follows (s.shown (t + 1)).collection

/-- What has been kept is kept by one more access. -/
theorem Kept.next {step? : Option (Step M N)} (kept : Kept plan s)
    (past : s'.past = s.past ++ [⟨step?, s.display⟩]) (plans : s'.plan = s.plan)
    (follows : s.display.collection.Follows s'.display.collection) :
  Kept plan s'
  := by
  have length : s'.past.length = s.past.length + 1 := by
    rw [past, List.length_append, List.length_singleton]
  have last : s'.shown (s.past.length + 1) = s'.display := by
    rw [← length, shown_length]
  refine ⟨plans.trans kept.plans, fun t within => ?_, fun t within => ?_⟩
  · rw [length] at within
    rcases Nat.le_or_eq_of_le_succ within with early | rfl
    · rw [shown_next past early]
      apply kept.orderly t early
    · rw [last]
      apply follows.orderly
      rw [← shown_length]
      apply kept.orderly _ (Nat.le_refl _)
  · rw [length] at within
    rcases Nat.lt_succ_iff_lt_or_eq.mp within with early | rfl
    · rw [shown_next past (Nat.le_of_lt early), shown_next past early]
      apply kept.follows t early
    · rw [last, shown_next past (Nat.le_refl _), shown_length]
      exact follows

/-- A change of the application keeps what has been kept. -/
theorem Kept.change (kept : Kept plan s) (change : Change M) :
  Kept plan (s.step change.step)
  := kept.next rfl rfl (change.follows_apply s.display.collection)

/-- The changes before an access keep what has been kept. -/
theorem Kept.arrive (kept : Kept plan s) :
  Kept plan s.arrive
  := by
  have steps (changes : List (Change M)) {s : Frequented L M N} (kept : Kept plan s) :
      Kept plan ((changes.map Change.step).foldl step s) := by
    induction changes generalizing s with
    | nil => exact kept
    | cons change changes ih => exact ih (kept.change change)
  rw [Frequented.arrive, kept.plans]
  apply steps _ kept

/-- An access keeps what has been kept if it keeps all modules or resizes the collection. -/
theorem Kept.access {α : Type} {f : StateM (Display M N) α} (kept : Kept plan s)
    (follows : ∀ d : Display M N, d.collection.Follows (f d).2.collection) :
  Kept plan (Shared.access f s).2
  := kept.arrive.next (past_access f s) rfl (follows _)

/-- An access to the collection alone keeps what has been kept if it keeps all modules or resizes it. -/
theorem Kept.onCollection {α : Type} {f : StateM (Collection M N) α} (kept : Kept plan s)
    (follows : ∀ c : Collection M N, c.Follows (f c).2) :
  Kept plan (Shared.onCollection f s).2
  := kept.access fun d => follows d.collection

/-- What goes on aside from the display keeps what has been kept. -/
theorem Kept.overLine (kept : Kept plan s) (line : L) :
  Kept plan { s with line := line }
  := ⟨kept.plans, kept.orderly, kept.follows⟩

variable [Transport L]

/-- Every call keeps what has been kept. -/
theorem callsObey_kept (plan : Nat → List (Change M)) :
  CallsObey (M := M) fun s s' : Frequented L M N => Kept plan s → Kept plan s'
  where
  refl _ := id
  trans first second := second ∘ first
  send _ _ kept := kept.overLine _
  receive _ _ _ kept := kept.overLine _
  flush _ kept := kept.overLine _
  drain _ kept := kept.overLine _
  pause _ _ kept := kept.overLine _
  count _ kept := kept.onCollection fun c => .tends (.refl c)
  module? _ _ kept := kept.onCollection fun c => .tends (.refl c)
  modify i f _ kept := kept.onCollection fun _ => .tends (Collection.tends_modifyModule i f)
  countChanged count _ kept := kept.onCollection fun _ => .resize count
  mustWrite _ _ _ kept := kept.onCollection fun c => .tends (.refl c)
  reported i _ _ _ kept := kept.onCollection fun _ => .tends (Collection.tends_modifyEntry i _)

end Frequented

/-! ### Moves in a row -/

section Moves

open Frequented

variable [Transport L] [Inhabited M] {plan : Nat → List (Change M)} {σ : Session (Frequented L M N)}

/-- A turn of a property keeps what has been kept. -/
theorem kept_turn (g : Gateway M) (property : PropertyId) (kept : Kept plan σ.env) :
  Kept plan (g.syncProperty property σ).2.env
  := by
  obtain ⟨τ, obeys, turned⟩ := exists_turn (callsObey_kept plan) g property σ
  have looked : Kept plan (σ.after (look property)).env := kept.onCollection fun c => .tends (.refl c)
  have after := obeys looked
  rw [turned]
  split
  · exact after.onCollection fun _ => .tends (Collection.tends_markClean property)
  · exact after

/-- A pass keeps what has been kept. -/
theorem kept_pass (g : Gateway M) (kept : Kept plan σ.env) :
  Kept plan (g.pass σ).2.env
  := by
  have turns (ds : List (Definition M)) {σ : Session (Frequented L M N)} (kept : Kept plan σ.env) :
      Kept plan (ds.forM (fun d => g.syncProperty d.id) σ).2.env := by
    induction ds generalizing σ with
    | nil => exact kept
    | cons d ds ih => exact ih (kept_turn g d.id kept)
  have promoted : Kept plan
      (σ.after (Shared.onCollection fun c => ((), promoteAll g.table c))).env :=
    kept.onCollection fun c => .tends (Collection.tends_promoteAll g.table c)
  have turned : Kept plan (g.amid (definitions g.table) σ).env := turns _ promoted
  rw [pass_eq_finish]
  exact turned.access (f := fun d => ((), d.finishPass)) fun d => .tends (.refl d.collection)

/-- A transaction obeys what all calls obey. -/
theorem CallsObey.transaction {S M α : Type} [Transport S] [Replica S M] {R : S → S → Prop}
    (calls : CallsObey (M := M) R) (g : Gateway M) (transaction : Transaction α) :
  (transaction.act g : Act S α).Obeys R
  := by
  cases transaction with
  | read property => apply calls.readAll
  | write property recipients staged => apply calls.writeAll
  | writeMarked property => apply calls.writeMarked
  | records => apply (opens_nodeErrors g).obeys calls
  | acknowledge => apply calls.afterDrain (opens_acknowledge g)
  | commit => apply calls.afterDrain (opens_commit g)

/-- A move keeps what has been kept. -/
theorem kept_move (g : Gateway M) (move : Move M) (kept : Kept plan σ.env) :
  Kept plan (move.play g σ).env
  := by
  cases move with
  | change made => exact kept.change made
  | transact transaction => exact (callsObey_kept plan).transaction g transaction σ kept
  | recover => exact (callsObey_kept plan).pause _ σ.env kept
  | pass => exact kept_pass g kept

/-- Any number of moves keeps what has been kept. -/
theorem kept_play (g : Gateway M) (line : L) (plan : Nat → List (Change M)) (moves : List (Move M)) :
  Kept plan (play g line plan moves : Session (Frequented L M N)).env
  := by
  have every (σ : Session (Frequented L M N)) (kept : Kept plan σ.env) :
      Kept plan (moves.foldl (Move.play g) σ).env := by
    induction moves generalizing σ with
    | nil => exact kept
    | cons move moves ih => apply ih _ (kept_move g move kept)
  apply every
  refine ⟨rfl, fun t within => ?_, fun t within => ?_⟩
  · apply Collection.orderly_empty
  · contradiction

/-- Whatever an application and a gateway do over any line, in any order and with changes in between,
the collection is orderly at all times.  From one moment to the next it keeps its size, unless it is
resized; and a resize, by the application or in a transaction, keeps the modules that it does not take
away as they are, and adds blank ones. -/
theorem collection_orderly (g : Gateway M) (line : L) (plan : Nat → List (Change M))
    (moves : List (Move M)) :
  let s : Frequented L M N := (play g line plan moves).env
  (∀ t ≤ s.past.length, (s.shown t).collection.Orderly) ∧
  (∀ t < s.past.length, (s.shown (t + 1)).collection.size = (s.shown t).collection.size ∨
    ∃ count, (s.shown (t + 1)).collection = (s.shown t).collection.resize count) ∧
  ∀ (c : Collection M N) (count : Nat),
    (c.resize count).size = min count N ∧ c.Resized (c.resize count)
  := by
  intro s
  have kept : Kept plan s := kept_play g line plan moves
  exact ⟨kept.orderly, fun t within => (kept.follows t within).sized,
    fun c count => ⟨c.length_resize count, c.resized_resize count⟩⟩

end Moves

/-- An application makes room for three modules, and a chain of one node answers a read.  Before the
length of the chain is noted, the application marks the first module. -/
theorem collection_orderly_shrunk :
  let g : Gateway SplitFlap.Module := ⟨SplitFlap.table, {}⟩
  let line : Script := { replies := [opening .read false ⟨6⟩ 1] }
  let plan : Nat → List (Change SplitFlap.Module) := fun t => if t = 1 then [.markModule 0 ⟨4⟩] else []
  let s : Frequented Script SplitFlap.Module 4 :=
    (play g line plan [.change (.resize 3), .transact (.read ⟨6⟩)]).env
  (s.shown 3).collection.size = 3 ∧ (s.shown 4).collection.size = 1 ∧
    (∃ count, (s.shown 4).collection = (s.shown 3).collection.resize count) ∧
    (s.shown 4).collection.mustWrite 0 ⟨4⟩ = true ∧ (s.shown 4).collection.Orderly
  := by
  intro g line plan s
  obtain ⟨orderly, sized, -⟩ :=
    collection_orderly g line plan [.change (.resize 3), .transact (.read ⟨6⟩)] (N := 4)
  have before : (s.shown 3).collection.size = 3 := by decide +kernel
  have after : (s.shown 4).collection.size = 1 := by decide +kernel
  refine ⟨before, after, (sized 3 (by decide +kernel)).resolve_left ?_, by decide +kernel,
    orderly 4 (by decide +kernel)⟩
  change ¬(s.shown 4).collection.size = (s.shown 3).collection.size
  rw [before, after]
  decide

end DaisyChain.Gateway
