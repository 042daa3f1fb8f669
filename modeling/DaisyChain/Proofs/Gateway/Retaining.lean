import DaisyChain.Proofs.Gateway.Outlines
import DaisyChain.Proofs.Gateway.Records

/-!
# What a session retains

What an act does to the display of a session on a chain of a given number of nodes, apart from
marking a property clean: modules are added, are given values of one property, and have the records
of their nodes kept beside them, and the length of the chain is noted (`Session.Retains`).  All
outlines stay alike but those of properties that the given one does not leave alone.
-/

namespace DaisyChain.Gateway

open Node

variable {L M : Type} {N : Nat} {d : Definition M}

/-! ### Entries -/

section Entries

variable {c c' : Collection M N}

/-- An outline stays alike if all modules stay alike and keep their marks, and new ones have
none. -/
theorem Collection.alike_entries (reads : c'.reads = c.reads) (writes : c'.writes = c.writes)
    (grows : c.entries.length ≤ c'.entries.length)
    (each : ∀ (i : Nat) (e : Entry M), c.entries[i]? = some e →
      ∃ e' : Entry M, c'.entries[i]? = some e' ∧ d.serialize e'.module = d.serialize e.module ∧
        e'.marks = e.marks)
    (fresh : ∀ (i : Nat) (e' : Entry M), c.entries.length ≤ i → c'.entries[i]? = some e' →
      e'.marks = .empty) :
  Outline.Alike d (c.outline d.id) (c'.outline d.id)
  := by
  refine ⟨congrArg (·.contains d.id) reads, congrArg (·.contains d.id) writes, ?_, ?_, ?_⟩
  · rw [outline, outline, List.length_map, List.length_map]
    exact grows
  · intro i x place
    rw [getElem?_outline, Option.map_eq_some_iff] at place
    obtain ⟨e, here, rfl⟩ := place
    obtain ⟨e', here', laid, marks⟩ := each i e here
    refine ⟨(e'.module, e'.marks.contains d.id), ?_, laid, congrArg (·.contains d.id) marks⟩
    rw [getElem?_outline, here']
    rfl
  · intro i x' beyond place'
    rw [outline, List.length_map] at beyond
    rw [getElem?_outline, Option.map_eq_some_iff] at place'
    obtain ⟨e', here', rfl⟩ := place'
    change e'.marks.contains d.id = false
    rw [fresh i e' beyond here', PropertySet.contains_empty]

/-- An outline stays alike if no module is added. -/
theorem Collection.alike_entries_same (reads : c'.reads = c.reads) (writes : c'.writes = c.writes)
    (length : c'.entries.length = c.entries.length)
    (each : ∀ (i : Nat) (e : Entry M), c.entries[i]? = some e →
      ∃ e' : Entry M, c'.entries[i]? = some e' ∧ d.serialize e'.module = d.serialize e.module ∧
        e'.marks = e.marks) :
  Outline.Alike d (c.outline d.id) (c'.outline d.id)
  := by
  refine alike_entries reads writes (Nat.le_of_eq length.symm) each ?_
  intro i e' beyond here'
  have within := (List.getElem?_eq_some_iff.mp here').1
  omega

/-- Values that are put into modules change at most what their property touches. -/
theorem exists_putAll (d : Definition M) (frames : List Frame) {entries : List (Entry M)} {i : Nat}
    {e : Entry M} (here : entries[i]? = some e) :
  ∃ e' : Entry M, (putAll d frames entries)[i]? = some e' ∧ d.Alters e.module e'.module ∧
    e'.marks = e.marks
  := by
  induction frames generalizing entries i with
  | nil => exact ⟨e, here, Definition.Alters.refl d _, rfl⟩
  | cons frame rest ih =>
    cases entries with
    | nil => simp at here
    | cons first others =>
      cases i with
      | zero =>
        cases here
        refine ⟨e.put d frame, rfl, ?_⟩
        cases frame with
        | data data => exact ⟨d.alters_given data e.module, rfl⟩
        | placeholder => exact ⟨Definition.Alters.refl d _, rfl⟩
        | empty => exact ⟨Definition.Alters.refl d _, rfl⟩
      | succ i => exact ih here

end Entries

/-! ### Sessions -/

/-- Of a display with at most as many modules as the given number of nodes, and of the length of its
chain, an act retains what concerns the given properties. -/
structure Session.Retains (count : Nat) (P : Definition M → Prop)
    (σ σ' : Session (Site L M N)) : Prop where
  alike : ∀ d, P d → Outline.Alike d (σ.env.display.collection.outline d.id)
    (σ'.env.display.collection.outline d.id)
  grows : σ.env.entries.length ≤ σ'.env.entries.length
  fits : σ'.env.entries.length ≤ min count N
  counted : σ'.chainLength = σ.chainLength ∨ σ'.chainLength = count

namespace Session.Retains

variable {count : Nat} {P Q : Definition M → Prop} {σ σ' σ'' : Session (Site L M N)}

/-- Doing nothing retains everything. -/
theorem refl (fits : σ.env.entries.length ≤ min count N) :
  σ.Retains count P σ
  := ⟨fun d _ => .refl d _, Nat.le_refl _, fits, .inl rfl⟩

/-- Two acts in turn retain what both of them do. -/
theorem trans (first : σ.Retains count P σ') (second : σ'.Retains count P σ'') :
  σ.Retains count P σ''
  := by
  refine ⟨fun d within => (first.alike d within).trans (second.alike d within),
    Nat.le_trans first.grows second.grows, second.fits, ?_⟩
  rcases second.counted with same | all
  · rw [same]
    exact first.counted
  · exact .inr all

/-- What concerns some of the properties is retained, too. -/
theorem mono (retains : σ.Retains count P σ') (fewer : ∀ d, Q d → P d) :
  σ.Retains count Q σ'
  := ⟨fun d within => retains.alike d (fewer d within), retains.grows, retains.fits,
    retains.counted⟩

/-- What is to be done for a property is retained. -/
theorem operation?_eq (retains : σ.Retains count P σ') (within : P d) :
  σ'.collection.operation? d.id = σ.collection.operation? d.id
  := by
  rw [← Collection.operation?_outline, ← Collection.operation?_outline]
  exact (retains.alike d within).operation?_eq

/-- The display is retained on whatever chain. -/
theorem withLine {σ σ' : Session (Site (Chain M) M N)} (retains : σ.Retains count P σ')
    (c : Chain M) :
  σ.Retains count P (σ'.withLine c)
  := ⟨retains.alike, retains.grows, retains.fits, retains.counted⟩

variable [Inhabited M]

/-- Records are kept beside the modules. -/
theorem takeRecords (fits : σ.env.entries.length ≤ min count N)
    (records : List (Option Record)) (index : Nat) :
  σ.Retains count P (σ.after (Gateway.takeRecords records index))
  := by
  obtain ⟨entries, state, length, each⟩ := takeRecords_entries records index σ.env
  rw [Session.after, state]
  refine ⟨fun d _ => ?_, Nat.le_of_eq length.symm, ?_, .inl rfl⟩
  · refine Collection.alike_entries_same rfl rfl length fun i e here => ?_
    refine ⟨if index ≤ i then (records[i - index]?.map e.told).getD e else e, ?_, ?_, ?_⟩
    · change entries[i]? = _
      rw [each i, show σ.env.entries[i]? = some e from here, Option.map_some]
    · split
      · cases records[i - index]? <;> rfl
      · rfl
    · split
      · cases records[i - index]? <;> rfl
      · rfl
  · change entries.length ≤ _
    rw [length]
    exact fits

/-- The length of the chain is noted. -/
theorem noted (few : count ≤ modulesMax) (fits : σ.env.entries.length ≤ min count N) :
  σ.Retains count P (σ.noted count)
  := by
  obtain ⟨entries, state, noted, each⟩ := noteCount_site (N := N) σ.env few
  have length : entries.length = min count N :=
    noted.sized (Nat.le_trans fits (Nat.le_trans (Nat.min_le_left _ _) few))
  have grows : σ.env.entries.length ≤ entries.length := by
    rw [length]
    exact fits
  rw [Session.noted, state]
  refine ⟨fun d _ => ?_, grows, Nat.le_of_eq length, .inr rfl⟩
  refine Collection.alike_entries rfl rfl grows ?_ ?_
  · intro i e here
    have within := (List.getElem?_eq_some_iff.mp here).1
    refine ⟨e, ?_, rfl, rfl⟩
    change entries[i]? = _
    rw [each i (Nat.lt_of_lt_of_le within grows), Collection.entry_of_getElem? here]
  · intro i e' beyond here'
    change entries[i]? = _ at here'
    have within := (List.getElem?_eq_some_iff.mp here').1
    rw [each i within, Collection.entry, List.getElem?_eq_none beyond] at here'
    cases here'
    rfl

/-- Modules are given values of one property. -/
theorem takeValues (fits : σ.env.entries.length ≤ min count N) (d : Definition M)
    (frames : List Frame) (trouble : Trouble) :
  σ.Retains count d.Leaves (σ.after (Gateway.takeValues d frames 0 trouble))
  := by
  obtain ⟨state, -⟩ : (Gateway.takeValues d frames 0 trouble σ.env).2 = σ.env.withEntries
      (putAll d frames σ.env.entries) ∧ (_ ↔ _) :=
    takeValues_site d frames σ.env (List.nil_append _).symm trouble
  have length := length_putAll d frames σ.env.entries
  rw [Session.after, state]
  refine ⟨fun d' leaves => ?_, Nat.le_of_eq length.symm, ?_, .inl rfl⟩
  · refine Collection.alike_entries_same rfl rfl length fun i e here => ?_
    obtain ⟨e', here', alters, marks⟩ := exists_putAll d frames here
    exact ⟨e', here', alters d' leaves, marks⟩
  · change (putAll d frames σ.env.entries).length ≤ _
    rw [length]
    exact fits

/-- What a read does aside from the line. -/
theorem readAside (few : count ≤ modulesMax) (fits : σ.env.entries.length ≤ min count N)
    (d : Definition M) {frames : List Frame} (length : frames.length = count) (flag : Bool)
    {records : List (Option Record)} (length' : records.length = count) :
  σ.Retains count d.Leaves ((Gateway.readAside d frames flag records : Act _ Unit).run σ).2
  := by
  have first : σ.Retains count d.Leaves (σ.noted count) := noted few fits
  have second := first.trans (takeValues first.fits d frames {})
  let τ := (σ.noted count).after (Gateway.takeValues d frames 0 {})
  let trouble := (Gateway.takeValues d frames 0 {} (σ.noted count).env).1
  have third : σ.Retains count d.Leaves (τ.noted count) :=
    second.trans (noted few second.fits)
  have fourth := third.trans (takeRecords third.fits records 0)
  rw [Gateway.readAside, length, run_bind_ok (run_updateCount count σ), run_bind_ok (run_within _)]
  change σ.Retains count d.Leaves ((readRest flag records trouble : Act _ Unit).run τ).2
  rw [readRest]
  split
  · rw [length', run_bind_ok (run_updateCount count τ), run_bind_ok (run_within _)]
    cases trouble.missing with
    | true => exact fourth
    | false => cases trouble.refused <;> exact fourth
  · cases trouble.refused <;> exact second

end Session.Retains

end DaisyChain.Gateway
