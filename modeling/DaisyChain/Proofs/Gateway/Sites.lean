import DaisyChain.Proofs.Gateway.Reading

/-!
# Reads of a site

What a read does to the collection of a site, a chain with a display that nobody else has
access to.  Each frame that carries a value is put into the module of its node (`putAll`), and
records are kept beside the modules.
-/

namespace DaisyChain.Gateway

variable {L M : Type} {N : Nat}

/-- The site with other entries in its collection. -/
def Site.withEntries (s : Site L M N) (entries : List (Entry M)) : Site L M N :=
  { s with display := { s.display with
      collection := { s.display.collection with entries := entries } } }

/-- The entries of the collection of a site. -/
def Site.entries (s : Site L M N) : List (Entry M) :=
  s.display.collection.entries

@[simp]
theorem Site.entries_withEntries (s : Site L M N) (entries : List (Entry M)) :
  (s.withEntries entries).entries = entries
  := rfl

@[simp]
theorem Site.withEntries_withEntries (s : Site L M N) (entries others : List (Entry M)) :
  (s.withEntries others).withEntries entries = s.withEntries entries
  := rfl

/-- The collection of a session. -/
def Session.collection (σ : Session (Site L M N)) : Collection M N :=
  σ.env.display.collection

/-- The session with the same display over another line. -/
def Session.over {L' : Type} (σ : Session (Site L M N)) (line : L') : Session (Site L' M N) :=
  ⟨⟨line, σ.env.display⟩, σ.chainLength⟩

/-! ### Values -/

/-- The entry after a frame from its node. -/
def Entry.put (d : Definition M) (e : Entry M) : Frame → Entry M
  | .data data => { e with module := (d.deserialize data e.module).2 }
  | .placeholder | .empty => e

/-- The module of the entry takes what is in the frame. -/
def Entry.Takes (d : Definition M) (e : Entry M) (frame : Frame) : Prop :=
  ∀ data, frame = .data data → (d.deserialize data e.module).1 = .ok ()

theorem Entry.takes_data (d : Definition M) (e : Entry M) (data : List UInt8) :
  e.Takes d (.data data) ↔ (d.deserialize data e.module).1 = .ok ()
  := by
  constructor
  · intro takes
    apply takes data rfl
  · rintro taken _ ⟨⟩
    apply taken

/-- The entries after frames from the nodes. -/
def putAll (d : Definition M) : List Frame → List (Entry M) → List (Entry M)
  | [], entries => entries
  | _ :: _, [] => []
  | frame :: frames, e :: entries => e.put d frame :: putAll d frames entries

/-- What becomes of an entry when frames come from the nodes. -/
theorem getElem?_putAll (d : Definition M) {frames : List Frame} {entries : List (Entry M)}
    {i : Nat} {frame : Frame} {e : Entry M} (sent : frames[i]? = some frame)
    (held : entries[i]? = some e) :
  (putAll d frames entries)[i]? = some (e.put d frame)
  := by
  induction frames generalizing entries i with
  | nil => simp at sent
  | cons first rest ih =>
    cases entries with
    | nil => simp at held
    | cons e' entries =>
      cases i with
      | zero =>
        cases sent
        cases held
        rfl
      | succ i => apply ih sent held

/-- An entry is left alone if no frame has come from its node. -/
theorem getElem?_putAll_unsent (d : Definition M) {frames : List Frame} {entries : List (Entry M)}
    {i : Nat} (unsent : frames.length ≤ i) :
  (putAll d frames entries)[i]? = entries[i]?
  := by
  induction frames generalizing entries i with
  | nil => rfl
  | cons first rest ih =>
    cases entries with
    | nil => rfl
    | cons e entries =>
      cases i with
      | zero => contradiction
      | succ i => apply ih (Nat.le_of_succ_le_succ unsent)

/-- Frames from the nodes add no entry and take none away. -/
theorem length_putAll (d : Definition M) (frames : List Frame) (entries : List (Entry M)) :
  (putAll d frames entries).length = entries.length
  := by
  induction frames generalizing entries with
  | nil => rfl
  | cons frame rest ih =>
    cases entries with
    | nil => rfl
    | cons e entries => rw [putAll, List.length_cons, ih, List.length_cons]

/-- Keeping a record does not touch the modules of a collection. -/
theorem modules_reported (c : Collection M N) (index : Nat) (fault : Option Fault)
    (state : Option NodeState) :
  (c.reported index fault state).entries.map Entry.module = c.entries.map Entry.module
  := by
  apply List.ext_getElem?
  intro i
  simp only [Collection.reported, Collection.modifyEntry, List.getElem?_map, List.getElem?_modify]
  by_cases here : index = i
  · simp only [here, if_true]
    cases c.entries[i]? <;> rfl
  · simp only [here, if_false]
    cases c.entries[i]? <;> rfl

variable [Inhabited M]

/-- Changing a module of a site that has it. -/
theorem modify_site {α : Type} (s : Site L M N) {front back : List (Entry M)} {e : Entry M}
    (entries : s.entries = front ++ e :: back) (f : M → α × M) :
  (Replica.modify front.length f : StateM (Site L M N) (Option α)) s =
    (some (f e.module).1, s.withEntries (front ++ { e with module := (f e.module).2 } :: back))
  := by
  have here : s.display.collection.entries[front.length]? = some e := by
    rw [show s.display.collection.entries = _ from entries]
    simp
  have changed : s.display.collection.modifyModule front.length f =
      (some (f e.module).1, { s.display.collection with
        entries := front ++ { e with module := (f e.module).2 } :: back }) := by
    simp only [Collection.modifyModule, here, Collection.modifyEntry]
    rw [show s.display.collection.entries = _ from entries, Chain.modify_length_append]
  change ((s.display.collection.modifyModule front.length f).1, { s with
    display := { s.display with
      collection := (s.display.collection.modifyModule front.length f).2 } }) = _
  rw [changed]
  rfl

/-- Changing a module that a site does not have. -/
theorem modify_site_none {α : Type} (s : Site L M N) {index : Nat}
    (absent : s.entries.length ≤ index) (f : M → α × M) :
  (Replica.modify index f : StateM (Site L M N) (Option α)) s = (none, s)
  := by
  have none : s.display.collection.entries[index]? = none :=
    List.getElem?_eq_none absent
  change ((s.display.collection.modifyModule index f).1, { s with
    display := { s.display with
      collection := (s.display.collection.modifyModule index f).2 } }) = _
  simp only [Collection.modifyModule, none]

/-- Values for modules that a site does not have are dropped. -/
theorem takeValues_site_none (d : Definition M) (frames : List Frame) (s : Site L M N) {index : Nat}
    (absent : s.entries.length ≤ index) (trouble : Trouble) :
  (takeValues d frames index trouble s).2 = s ∧
    (takeValues d frames index trouble s).1.refused = trouble.refused
  := by
  induction frames generalizing index trouble with
  | nil => exact ⟨rfl, rfl⟩
  | cons frame rest ih =>
    have further : s.entries.length ≤ index + 1 := Nat.le_succ_of_le absent
    cases frame with
    | data data =>
      have put := modify_site_none s absent (d.deserialize data)
      have step : takeValues d (.data data :: rest) index trouble s =
          takeValues d rest (index + 1)
            (trouble.after (Replica.modify index (d.deserialize data) s).1)
            (Replica.modify index (d.deserialize data) s).2 := rfl
      rw [step, put]
      apply ih further _
    | placeholder => apply ih further _
    | empty => apply ih further _

/-- What has been refused after one more value. -/
theorem refused_after (trouble : Trouble) (answer : Except PropertyError Unit) :
  (trouble.after (some answer)).refused = none ↔ trouble.refused = none ∧ answer = .ok ()
  := by
  rcases answer with e | ⟨⟩ <;> simp [Trouble.after]

/-- Values are put into the modules of a site; a failure is noted if a module does not take
one. -/
theorem takeValues_site (d : Definition M) (frames : List Frame) (s : Site L M N)
    {front back : List (Entry M)} (entries : s.entries = front ++ back) (trouble : Trouble) :
  (takeValues d frames front.length trouble s).2 = s.withEntries (front ++ putAll d frames back) ∧
    ((takeValues d frames front.length trouble s).1.refused = none ↔
      trouble.refused = none ∧ ∀ x ∈ frames.zip back, x.2.Takes d x.1)
  := by
  induction frames generalizing s front back trouble with
  | nil =>
    constructor
    · rw [putAll, ← entries]
      rfl
    · change trouble.refused = none ↔ _
      simp
  | cons frame rest ih =>
    cases back with
    | nil =>
      rw [List.append_nil] at entries
      obtain ⟨state, refused⟩ := takeValues_site_none d (frame :: rest) s
        (Nat.le_of_eq (congrArg List.length entries)) trouble
      rw [state, refused, putAll, List.append_nil, ← entries]
      exact ⟨rfl, by simp⟩
    | cons e back =>
      have length (e' : Entry M) : front.length + 1 = (front ++ [e']).length := by simp
      have split (e' : Entry M) : front ++ e' :: back = (front ++ [e']) ++ back := by simp
      -- A frame without a value does not touch the entry.
      have without (t : Trouble) (same : t.refused = trouble.refused)
          (empty : ∀ data, frame ≠ .data data) :
          (takeValues d rest (front.length + 1) t s).2 =
              s.withEntries (front ++ e :: putAll d rest back) ∧
            ((takeValues d rest (front.length + 1) t s).1.refused = none ↔
              trouble.refused = none ∧ ∀ x ∈ (frame :: rest).zip (e :: back), x.2.Takes d x.1) := by
        obtain ⟨state, refused⟩ := ih s (entries.trans (split e)) t
        rw [← length e] at state refused
        refine ⟨by rw [state, List.append_assoc]; rfl, refused.trans ?_⟩
        rw [same, List.zip_cons_cons, List.forall_mem_cons]
        have vacuous : e.Takes d frame := fun data is => absurd is (empty data)
        simp only [vacuous, true_and]
      cases frame with
      | placeholder => apply without { trouble with missing := true } rfl (by simp)
      | empty => apply without { trouble with missing := true } rfl (by simp)
      | data data =>
        have put := modify_site s entries (d.deserialize data)
        have step : takeValues d (.data data :: rest) front.length trouble s =
            takeValues d rest (front.length + 1)
              (trouble.after (Replica.modify front.length (d.deserialize data) s).1)
              (Replica.modify front.length (d.deserialize data) s).2 := rfl
        rw [step, put]
        obtain ⟨state, refused⟩ := ih (s.withEntries (front ++ e.put d (.data data) :: back))
          (split _) (trouble.after (some (d.deserialize data e.module).1))
        rw [← length] at state refused
        refine ⟨?_, refused.trans ?_⟩
        · apply state.trans
          rw [Site.withEntries_withEntries, List.append_assoc]
          rfl
        · rw [refused_after, List.zip_cons_cons, List.forall_mem_cons, and_assoc, Entry.takes_data]

/-! ### The length of the chain -/

section Length

variable {c c' c'' : Collection M N} {count count' : Nat}

omit [Inhabited M]

/-- The number of modules is that of a collection for which a chain of the given length has been
noted.  No capacity that a collection states exceeds `modulesMax`, and a collection that has kept to
one counts all its modules; only of more than that it may count too few, and be left as it is. -/
structure Collection.Noted (c : Collection M N) (count : Nat) (c' : Collection M N) : Prop where
  /-- As many modules are counted as there are nodes, up to the capacity. -/
  counted : c'.counted = min count N
  /-- There are as many, unless there were more than can be counted before. -/
  sized : c.size ≤ modulesMax → c'.size = min count N
  /-- There are no more than there is room for, unless there were before. -/
  fits : c.size ≤ N → c'.size ≤ N

/-- There is a module for every node, up to the capacity. -/
theorem Collection.Noted.le_size (noted : c.Noted count c') :
  min count N ≤ c'.size
  := noted.counted ▸ c'.counted_le_size

/-- A collection that counts as many modules as there are nodes is left as it is. -/
theorem Collection.Noted.refl (counted : c.counted = min count N) :
  c.Noted count c
  := ⟨counted, fun few => (Collection.counted_of_size_le few).symm.trans counted, id⟩

/-- Nothing but the number of modules matters. -/
theorem Collection.Noted.of_size_eq (noted : c.Noted count c') (same : c''.size = c'.size) :
  c.Noted count c''
  := by
  refine ⟨?_, fun few => same.trans (noted.sized few), fun roomy => same ▸ noted.fits roomy⟩
  rw [Collection.counted, same]
  exact noted.counted

/-- A length may be noted after another one. -/
theorem Collection.Noted.trans (first : c.Noted count c') (next : c'.Noted count' c'') :
  c.Noted count' c''
  := by
  refine ⟨next.counted, fun few => next.sized ?_, fun roomy => next.fits (first.fits roomy)⟩
  rw [first.sized few, ← first.counted]
  exact Nat.le_of_lt_succ (Nat.mod_lt _ (Nat.succ_pos _))

end Length

/-- When the length of the chain is noted, the collection of a site has a module for every node, up to
its capacity: those that it had, and new ones. -/
theorem noteCount_site (s : Site L M N) {count : Nat} (few : count ≤ modulesMax) :
  ∃ entries, (noteCount count s).2 = s.withEntries entries ∧
    s.display.collection.Noted count (s.withEntries entries).display.collection ∧
    ∀ i < entries.length, entries[i]? = some (s.display.collection.entry i)
  := by
  let c := s.display.collection
  by_cases differs : c.counted ≠ min count (min N modulesMax)
  · have length : (c.resize count).entries.length = min count N := Collection.length_resize c count
    refine ⟨(c.resize count).entries, congrArg Prod.snd (if_pos differs),
      ⟨?_, fun _ => length, fun _ => ?_⟩, ?_⟩
    · have countable : (c.resize count).size ≤ modulesMax := by
        rw [Collection.length_resize]
        omega
      exact (Collection.counted_of_size_le countable).trans length
    · exact Nat.le_trans (Nat.le_of_eq length) (Nat.min_le_right _ _)
    · intro i within
      apply c.getElem?_resize (length ▸ within)
  · have known : c.counted = min count N := by omega
    refine ⟨s.entries, congrArg Prod.snd (if_neg differs), .refl known, ?_⟩
    intro i within
    have here : c.entries[i]? = some _ := List.getElem?_eq_getElem within
    rw [Collection.entry_of_getElem? here, ← here]
    rfl

/-- What the length of the chain does to the number of modules. -/
theorem Session.noted_collection (σ : Session (Site L M N)) {count : Nat} (few : count ≤ modulesMax) :
  σ.collection.Noted count (σ.noted count).collection
  := by
  obtain ⟨entries, state, noted, -⟩ := noteCount_site (N := N) σ.env few
  rw [Session.noted, state]
  exact noted

/-- Noting the length that the collection of a site counts already does nothing. -/
theorem noteCount_site_same (s : Site L M N) {count : Nat} (few : count ≤ modulesMax)
    (same : s.display.collection.counted = min count N) :
  (noteCount count s).2 = s
  := by
  have known : ¬s.display.collection.counted ≠ min count (min N modulesMax) := by omega
  apply congrArg Prod.snd (if_neg known)

/-! ### Records -/

/-- Keeping records does not touch the modules of a site. -/
theorem takeRecords_site (records : List (Option Record)) (index : Nat) (s : Site L M N) :
  ∃ entries, (takeRecords records index s).2 = s.withEntries entries ∧
    entries.map Entry.module = s.entries.map Entry.module
  := by
  induction records generalizing index s with
  | nil => exact ⟨s.entries, rfl, rfl⟩
  | cons record rest ih =>
    let c := s.display.collection.reported index (record.map Record.fault) (record.map Record.state)
    obtain ⟨entries, state, modules⟩ := ih (index + 1) (s.withEntries c.entries)
    refine ⟨entries, state, modules.trans ?_⟩
    apply modules_reported _ _ _ _

end DaisyChain.Gateway
