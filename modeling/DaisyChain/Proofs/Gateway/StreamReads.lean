import DaisyChain.Proofs.Gateway.Collecting
import DaisyChain.Proofs.Gateway.Scripted

/-!
# Reads of any stream

What a read makes of a display if anything at all arrives behind the header that has come back.
The read takes the frames that there are, up to as many as the header says, and hands each value
to its module; a frame that cannot be had stops it (`Takes`).  However it ends, the modules are
those that the frames taken so far make of them, and it succeeds only if nothing was wrong with
any of them (`readAll_of_stream`).

A read may end by asking the nodes for their records, and what comes back then may be anything as
well.  Records are kept beside the modules, so this changes no module (`SameModules`), though it may say
that the chain has another length (`Resized`).
-/

namespace DaisyChain.Gateway

variable {L M : Type} {N : Nat}

/-! ### Values for the modules -/

/-- The module after the frame of its node, if that has been received: a value that has the right
size is handed to the module. -/
def handed (size : PropertySize) (set : List UInt8 → M → Bool × M) : Option Frame → M → M
  | some (.data data), m =>
    match size.unwrap data with
    | .ok value => (set value m).2
    | .error _ => m
  | _, m => m

/-- The module accepts the value that the data say, which have the right size. -/
def Admits (size : PropertySize) (set : List UInt8 → M → Bool × M) (data : List UInt8) (m : M) :
    Prop :=
  ∃ value, size.unwrap data = .ok value ∧ (set value m).1 = true

section Values

variable {d : Definition M} {set : List UInt8 → M → Bool × M} (settable : d.set = some set)

include settable

/-- What a frame makes of the module of an entry. -/
theorem module_put (e : Entry M) (frame : Frame) :
  (e.put d frame).module = handed d.size set (some frame) e.module
  := by
  cases frame with
  | placeholder => rfl
  | empty => rfl
  | data data =>
    rw [Entry.put, handed]
    cases unwrapped : d.size.unwrap data with
    | error error => rw [Definition.deserialize_of_unwrap_error settable unwrapped]
    | ok value => rw [Definition.deserialize_of_unwrap settable unwrapped]

/-- An entry takes data if its module accepts the value that they say. -/
theorem takes_iff_admits (e : Entry M) (data : List UInt8) :
  e.Takes d (.data data) ↔ Admits d.size set data e.module
  := by
  rw [Entry.takes_data, Admits]
  cases unwrapped : d.size.unwrap data with
  | error error => simp [Definition.deserialize_of_unwrap_error settable unwrapped]
  | ok value => simp [Definition.deserialize_of_unwrap settable unwrapped]

end Values

/-! ### Sessions with the same modules -/

/-- A session that has gone on, with the same modules for a chain of the same length. -/
structure SameModules (σ τ : Session (Site L M N)) : Prop where
  length : τ.chainLength = σ.chainLength
  modules : τ.env.entries.map Entry.module = σ.env.entries.map Entry.module

/-- A session that has gone on with as many modules as its chain has nodes, those that it had among
them. -/
structure Resized (σ τ : Session (Site L M N)) : Prop where
  noted : σ.collection.Noted τ.chainLength τ.collection
  kept : ∀ i < τ.collection.size, ∀ m, σ.collection.module? i = some m →
    τ.collection.module? i = some m

/-- A reply begins with a header that says the given length of the chain. -/
def Announces (replies : List (List UInt8)) (length : Nat) : Prop :=
  ∃ echo answer others, replies = (RawHeader.toList echo ++ answer) :: others ∧ echo.count = length

variable {σ τ τ' : Session (Site L M N)}

theorem SameModules.trans (first : SameModules σ τ) (next : SameModules τ τ') :
  SameModules σ τ'
  := ⟨next.length.trans first.length, next.modules.trans first.modules⟩

theorem SameModules.module? (same : SameModules σ τ) (i : Nat) :
  τ.collection.module? i = σ.collection.module? i
  := by
  have modules := congrArg (fun modules => modules[i]?) same.modules
  rw [List.getElem?_map, List.getElem?_map] at modules
  apply modules

theorem SameModules.size (same : SameModules σ τ) :
  τ.collection.size = σ.collection.size
  := by
  have lengths := congrArg List.length same.modules
  rw [List.length_map, List.length_map] at lengths
  apply lengths

theorem Resized.refl (counted : σ.collection.counted = min σ.chainLength N) :
  Resized σ σ
  := ⟨.refl counted, fun _ _ _ => id⟩

theorem Resized.trans_same (resized : Resized σ τ) (same : SameModules τ τ') :
  Resized σ τ'
  := by
  constructor
  · rw [same.length]
    exact resized.noted.of_size_eq same.size
  · intro i below m held
    rw [same.size] at below
    rw [same.module?]
    apply resized.kept i below m held

variable [Inhabited M]

/-- When the length of the chain is noted, the modules that there is still room for stay. -/
theorem resized_noted (σ : Session (Site L M N)) {count : Nat} (few : count ≤ modulesMax) :
  Resized σ (σ.noted count)
  := by
  obtain ⟨entries, state, noted, each⟩ := noteCount_site (N := N) σ.env few
  rw [Session.noted, state]
  refine ⟨noted, ?_⟩
  intro i below m held
  rw [Collection.module?, Option.map_eq_some_iff] at held
  obtain ⟨e, entry, rfl⟩ := held
  have here : entries[i]? = some (σ.collection.entry i) := each i below
  rw [Collection.entry_of_getElem? entry] at here
  exact congrArg (Option.map Entry.module) here

/-- When the frames of a chain of the given length have been taken, each module has been handed the
value that its own frame says. -/
theorem takeValues_handed {d : Definition M} {set : List UInt8 → M → Bool × M}
    (settable : d.set = some set) (σ : Session (Site L M N)) {count : Nat}
    (few : count ≤ modulesMax) (frames : List Frame) :
  let τ := (σ.noted count).after (takeValues d frames 0 {})
  σ.collection.Noted count τ.collection ∧
    (∀ i < min count N, τ.collection.module? i =
      some (handed d.size set frames[i]? (σ.collection.entry i).module)) ∧
    ((takeValues d frames 0 {} (σ.noted count).env).1.refused = none ↔ ∀ i < τ.collection.size,
      ∀ data, frames[i]? = some (.data data) →
        Admits d.size set data (σ.collection.entry i).module)
  := by
  intro τ
  obtain ⟨before, state, noted, each⟩ := noteCount_site (N := N) σ.env few
  have start : (σ.noted count).env.entries = [] ++ before := congrArg Site.entries state
  obtain ⟨put, accepted⟩ := takeValues_site d frames (σ.noted count).env start {}
  have entries : τ.collection.entries = putAll d frames before := congrArg Site.entries put
  have size : τ.collection.size = before.length := by
    rw [Collection.size, entries, length_putAll]
  refine ⟨noted.of_size_eq size, ?_, ?_⟩
  · intro i below
    have held := each i (Nat.lt_of_lt_of_le below noted.le_size)
    rw [Collection.module?, entries]
    rcases unsent : frames[i]? with _ | frame
    · rw [getElem?_putAll_unsent d (List.getElem?_eq_none_iff.mp unsent), held]
      rfl
    · rw [getElem?_putAll d unsent held, Option.map_some, module_put settable]
      rfl
  · apply accepted.trans
    constructor
    · rintro ⟨-, taken⟩ i below data sent
      apply (takes_iff_admits settable _ data).mp
      apply taken (.data data, σ.env.display.collection.entry i)
      apply List.mem_of_getElem?
      apply List.getElem?_zip_eq_some.mpr ⟨sent, each i (size ▸ below)⟩
    · intro admitted
      refine ⟨rfl, ?_⟩
      rintro ⟨frame, e⟩ member data rfl
      obtain ⟨i, here⟩ := List.mem_iff_getElem?.mp member
      obtain ⟨sent, held⟩ := List.getElem?_zip_eq_some.mp here
      have within := (List.getElem?_eq_some_iff.mp held).1
      have same : e = σ.collection.entry i := Option.some.inj (held.symm.trans (each i within))
      rw [same]
      apply (takes_iff_admits settable _ data).mpr (admitted i (size ▸ within) data sent) data rfl

/-! ### Asking for records -/

section Records

variable {σ : Session (Site Script M N)} {input : List UInt8} {replies : List (List UInt8)}

/-- Whatever arrives in place of the records, no module changes. -/
theorem sameModules_receiveRecords (g : Gateway M) (count index : Nat) (categories : Categories)
    (hears : σ.Hears input replies) :
  SameModules σ ((g.receiveRecords count index categories : Act _ Categories).run σ).2
  := by
  induction count generalizing σ input index categories with
  | zero => exact ⟨rfl, rfl⟩
  | succ count ih =>
    obtain ⟨outcome, rest, first⟩ := exists_receives input
    obtain ⟨l, after, received⟩ := run_receiveFrame_script g first hears
    cases outcome with
    | error failure =>
      rw [receiveRecords, run_bind_error received]
      exact ⟨rfl, rfl⟩
    | ok frame =>
      rw [receiveRecords, run_bind_ok received]
      split
      · next fault state =>
        let keep : StateM (Site Script M N) Unit :=
          Replica.reported index (Fault.ofByte fault) (NodeState.ofByte state)
        rw [run_bind_ok (run_within _)]
        have kept : SameModules σ ((σ.over l).after keep) := ⟨rfl, modules_reported _ _ _ _⟩
        apply kept.trans (ih _ _ ⟨after.input_eq, after.replies_eq, after.fine⟩)
      · have same : SameModules σ (σ.over l) := ⟨rfl, rfl⟩
        apply same.trans (ih _ _ after)

/-- Whatever comes back when the nodes are asked for their records, no module changes. -/
theorem resized_nodeErrors (g : Gateway M) (counted : σ.collection.counted = min σ.chainLength N)
    (hears : σ.Hears input replies) :
  let τ := ((g.nodeErrors : Act _ Categories).run σ).2
  Resized σ τ ∧ (τ.chainLength = σ.chainLength ∨ Announces replies τ.chainLength)
  := by
  intro τ
  obtain ⟨failure, l, opened⟩ | ⟨h, answer, others, l, rfl, after, opened⟩ :=
    exists_openRead g (show PropertyId.errorQuery.Travels by decide) hears
  · have state : τ = σ.over l := by
      apply congrArg Prod.snd (run_bind_error opened)
    rw [state]
    exact ⟨(Resized.refl counted).trans_same ⟨rfl, rfl⟩, .inl rfl⟩
  · have few : h.count ≤ modulesMax := le_modulesMax h.count_lt
    have state : τ = ((g.receiveRecords h.count 0 .empty : Act _ Categories).run
        ((σ.over l).noted h.count)).2 := by
      apply congrArg Prod.snd (run_bind_ok opened |>.trans (run_bind_ok (run_updateCount _ _)))
    have same := sameModules_receiveRecords g h.count 0 .empty (after.noted few)
    rw [← state] at same
    refine ⟨?_, .inr ⟨h, answer, others, rfl, same.length.symm⟩⟩
    have resized := (resized_noted (σ.over l) few).trans_same same
    exact ⟨resized.noted, resized.kept⟩

end Records

/-! ### The end of a read -/

section Reads

variable {σ : Session (Site Script M N)} {input : List UInt8} {replies : List (List UInt8)}

/-- Once the values have been taken, no module changes any more, the length of the chain is another
one only if the nodes have been asked for their records, and the read succeeds only if nothing has
gone wrong. -/
theorem resized_conclude (g : Gateway M) {flag : Bool} {trouble : Trouble}
    (counted : σ.collection.counted = min σ.chainLength N) (hears : σ.Hears input replies)
    {result : Except Failure Unit} {τ : Session (Site Script M N)}
    (ends : (conclude g flag trouble : Act _ Unit).run σ = (result, τ)) :
  Resized σ τ ∧
    (τ.chainLength = σ.chainLength ∨
      (flag = true ∨ trouble.missing = true) ∧ Announces replies τ.chainLength) ∧
    (result = .ok () → trouble.missing = false ∧ trouble.refused = none)
  := by
  rw [conclude] at ends
  by_cases asks : flag = true ∨ trouble.missing = true
  · obtain ⟨resized, announced⟩ := resized_nodeErrors g counted hears
    have announced := announced.imp_right fun announced => And.intro asks announced
    rcases asked : (g.nodeErrors : Act _ Categories).run σ with ⟨failure | categories, τ'⟩
    · rw [if_pos asks, run_bind_error asked] at ends
      cases ends
      rw [asked] at resized announced
      exact ⟨resized, announced, by simp⟩
    · rw [if_pos asks, run_bind_ok asked] at ends
      rw [asked] at resized announced
      rcases trouble with ⟨_ | failure, _ | _⟩ <;> cases ends
      · exact ⟨resized, announced, fun _ => ⟨rfl, rfl⟩⟩
      all_goals exact ⟨resized, announced, by simp⟩
  · rw [if_neg asks] at ends
    have complete : trouble.missing = false := by
      rw [not_or, Bool.not_eq_true trouble.missing] at asks
      apply asks.2
    cases refused : trouble.refused with
    | none =>
      rw [refused] at ends
      cases ends
      exact ⟨.refl counted, .inl rfl, fun _ => ⟨complete, rfl⟩⟩
    | some failure =>
      rw [refused] at ends
      cases ends
      exact ⟨.refl counted, .inl rfl, by simp⟩

/-- Nothing is wrong with what a read has taken: it is a value of every node, and there is no module
that does not accept its own. -/
def Faultless (size : PropertySize) (set : List UInt8 → M → Bool × M) (count : Nat)
    (c : Collection M N) (frames : List Frame) (stop : Option Failure) : Prop :=
  stop = none ∧ frames.length = count ∧
    ∀ i < count, ∃ data, frames[i]? = some (.data data) ∧
      (i < N → Admits size set data (c.entry i).module)

/-- Nothing is wrong with all frames that were to come if none of them is empty and every module
accepts what its own says. -/
theorem faultless_iff {size : PropertySize} {set : List UInt8 → M → Bool × M} {count : Nat}
    {c : Collection M N} {frames : List Frame} (length : frames.length = count)
    (values : ∀ frame ∈ frames, frame ≠ .placeholder) :
  Faultless size set count c frames none ↔
    .empty ∉ frames ∧ ∀ i < min count N, ∀ data, frames[i]? = some (.data data) →
      Admits size set data (c.entry i).module
  := by
  constructor
  · rintro ⟨-, -, each⟩
    constructor
    · intro member
      obtain ⟨i, here⟩ := List.mem_iff_getElem?.mp member
      obtain ⟨data, sent, -⟩ := each i (length ▸ (List.getElem?_eq_some_iff.mp here).1)
      rw [here] at sent
      cases sent
    · intro i below data sent
      obtain ⟨data', sent', admits⟩ := each i (by omega)
      rw [sent] at sent'
      cases sent'
      apply admits (by omega)
  · rintro ⟨filled, admitted⟩
    refine ⟨rfl, length, ?_⟩
    intro i below
    obtain ⟨frame, sent⟩ : ∃ frame, frames[i]? = some frame :=
      ⟨_, List.getElem?_eq_getElem (by rw [length]; exact below)⟩
    have member := List.mem_of_getElem? sent
    cases frame with
    | placeholder => exact (values _ member rfl).elim
    | empty => contradiction
    | data data => exact ⟨data, sent, fun room => admitted i (by omega) data sent⟩

/-- How a read ends, and what has become of the collection `c`, if the header `h` has come back and
the stream behind it, and `later` is what there is to reply to other headers: some frames have been
taken, one more may have stopped the read, and the rest of the stream has been left. -/
structure ReadOut (d : Definition M) (set : List UInt8 → M → Bool × M) (h : RawHeader)
    (stream : List UInt8) (later : List (List UInt8)) (c : Collection M N)
    (frames : List Frame) (stop : Option Failure) (rest : List UInt8)
    (result : Except Failure Unit) (τ : Session (Site Script M N)) : Prop where
  takes : Takes h.count stream frames stop rest
  /-- The read ends, whatever arrives. -/
  bounded : ∃ taken, stream = taken ++ rest ∧ taken.length ≤ h.count * frameMax + 1
  /-- Nothing is done any more once the read has been stopped. -/
  stopped : ∀ failure, stop = some failure → result = .error failure ∧ τ.Hears rest later
  /-- The chain has the length that the header says, unless the nodes are asked for their records
  and the reply says another one. -/
  counted : τ.chainLength = h.count ∨
    stop = none ∧ (h.flag = true ∨ .empty ∈ frames) ∧ Announces later τ.chainLength
  noted : c.Noted τ.chainLength τ.collection
  /-- Every module is what its own frame makes of it. -/
  modules : ∀ i < min h.count N, i < τ.collection.size →
    τ.collection.module? i = some (handed d.size set frames[i]? (c.entry i).module)
  /-- A read succeeds only if nothing is wrong. -/
  complete : result = .ok () → Faultless d.size set h.count c frames stop
  /-- It does succeed then, unless the header says that some node has a record to be asked for; this
  supposes that there were no more modules than there is room for, or than can be counted. -/
  succeeds : c.size ≤ max N modulesMax → Faultless d.size set h.count c frames stop →
    h.flag = false → result = .ok ()

/-- If nothing replies to other headers, there are as many modules as the header says, up to the
capacity, and each is what its own frame makes of it. -/
theorem ReadOut.silent {d : Definition M} {set : List UInt8 → M → Bool × M} {h : RawHeader}
    {stream rest : List UInt8} {c : Collection M N} {frames : List Frame} {stop : Option Failure}
    {result : Except Failure Unit} {τ : Session (Site Script M N)}
    (readOut : ReadOut d set h stream [] c frames stop rest result τ) :
  c.Noted h.count τ.collection ∧
    ∀ i < min h.count N,
      τ.collection.module? i = some (handed d.size set frames[i]? (c.entry i).module)
  := by
  have noted : c.Noted h.count τ.collection := by
    obtain counted | ⟨-, -, echo, answer, others, replied, -⟩ := readOut.counted
    · rw [← counted]
      exact readOut.noted
    · contradiction
  refine ⟨noted, ?_⟩
  intro i below
  apply readOut.modules i below (Nat.lt_of_lt_of_le below noted.le_size)

/-- Whatever arrives behind the header that has come back, a read ends, and each module has been
handed the value that its own frame says, once, if this frame has been taken and says one of the
right size, and has been left alone otherwise, on success as on every failure (`ReadOut`).  The
handler may well count how often it is called. -/
theorem readAll_of_stream {property : PropertyId} {d : Definition M}
    {set : List UInt8 → M → Bool × M} (g : Gateway M)
    (real : property.number.toNat ≤ PropertyId.max) (found : g.table.find? property = some d)
    (readable : d.access.readable = true) (settable : d.set = some set) {h : RawHeader}
    (even : h.evenParity = true) (reads : h.action = .read) (same : h.property = property)
    {stream : List UInt8} {later : List (List UInt8)}
    (hears : σ.Hears input ((h.toList ++ stream) :: later)) :
  ∃ frames stop rest result τ,
    (g.readAll property : Act _ Unit).run σ = (result, τ) ∧
    ReadOut d set h stream later σ.collection frames stop rest result τ
  := by
  have few : h.count ≤ modulesMax := le_modulesMax h.count_lt
  obtain ⟨frames, stop, rest, takes⟩ := exists_takes h.count stream
  obtain ⟨l, heard, opening⟩ := run_openRead_script g (PropertyId.travels_of_le real) hears
  rw [if_pos ⟨even, reads, same⟩] at opening
  obtain ⟨l', after, received⟩ := run_receiveValues_takes g d takes 0 {} (heard.noted few)
  obtain ⟨noted, modules, accepted⟩ := takeValues_handed settable (σ.over l) few frames
  let trouble := (takeValues d frames 0 {} ((σ.over l).noted h.count).env).1
  let σ' := (((σ.over l).noted h.count).after (takeValues d frames 0 {})).over l'
  have run := readAll_eq (S := Site Script M N) g (PropertyId.isErrorQuery_of_le real) found
    readable (by rw [settable]; rfl)
  cases stop with
  | some failure =>
    refine ⟨frames, some failure, rest, .error failure, σ', ?_, takes, takes.exists_taken, ?_,
      .inl rfl, noted, fun i below _ => modules i below, by simp, by simp [Faultless]⟩
    · rw [run, run_bind_ok opening, run_bind_ok (run_updateCount _ _), run_bind_error received]
    · rintro _ ⟨⟩
      exact ⟨rfl, after⟩
  | none =>
    rcases ends : (conclude g h.flag trouble : Act _ Unit).run σ' with ⟨result, τ⟩
    obtain ⟨resized, counted, untroubled⟩ := resized_conclude g (σ := σ') noted.counted after ends
    have missing : trouble.missing = decide (.empty ∈ frames) := by
      rw [missing_takeValues d 0 takes.ne_placeholder, Bool.false_or]
    rw [missing, decide_eq_true_eq] at counted
    rw [missing, decide_eq_false_iff_not] at untroubled
    obtain ⟨-, -, -, length⟩ := takes.exists_batch
    refine ⟨frames, none, rest, result, τ, ?_, takes, takes.exists_taken, by simp,
      counted.imp_right fun polled => ⟨rfl, polled⟩, noted.trans resized.noted,
      fun i below room => resized.kept i room _ (modules i below), fun ok => ?_,
      fun roomy faultless unflagged => ?_⟩
    · rw [run, run_bind_ok opening, run_bind_ok (run_updateCount _ _), run_bind_ok received]
      apply ends
    · obtain ⟨filled, untouched⟩ := untroubled ok
      refine (faultless_iff length takes.ne_placeholder).mpr ⟨filled, fun i below => ?_⟩
      apply accepted.mp untouched i (Nat.lt_of_lt_of_le below noted.le_size)
    · obtain ⟨filled, admitted⟩ := (faultless_iff length takes.ne_placeholder).mp faultless
      have within : σ'.collection.size ≤ N := by
        have : σ.collection.size ≤ N ∨ σ.collection.size ≤ modulesMax := by omega
        rcases this with fits | countable
        · exact noted.fits fits
        · exact Nat.le_trans (Nat.le_of_eq (noted.sized countable)) (Nat.min_le_right _ _)
      have untouched : trouble.refused = none := by
        refine accepted.mpr fun i below data sent => admitted i (Nat.lt_min.mpr ⟨?_, ?_⟩) data sent
        · exact length ▸ (List.getElem?_eq_some_iff.mp sent).1
        · exact Nat.lt_of_lt_of_le below within
      have concluded := run_conclude g (missing.trans (decide_eq_false filled)) untouched σ'
      rw [unflagged, concluded] at ends
      cases ends
      rfl

/-- A property of one byte, of which a module keeps every value that it has been handed. -/
def accumulated : Definition (List (List UInt8)) where
  id := ⟨6⟩
  name := "offset"
  access := .readWrite
  size := .static 1
  get := none
  set := some fun value values => (true, values ++ [value])

/-- A line on which the second of two frames is cut off, and a display of one module that has room
for another one. -/
def cutSession : Session (Site Script (List (List UInt8)) 2) where
  env := {
    line := {
      replies := [(ActionHeader.pack ⟨.read, false, ⟨6⟩, 2⟩).toList ++ [3, 7, 248, 0, 4, 1]] }
    display := { collection := { entries := [{ module := [[9]] }] } } }

/-- The first module is handed the value of its node, once, and the second one, which is new, has
been handed none. -/
theorem readAll_of_stream_cut :
  ∃ τ, ((⟨⟨[accumulated]⟩, {}⟩ : Gateway (List (List UInt8))).readAll ⟨6⟩ : Act _ Unit).run cutSession =
      (.error .timeout, τ) ∧
    τ.collection.size = 2 ∧ τ.collection.module? 0 = some [[9], [7]] ∧
    τ.collection.module? 1 = some []
  := by
  obtain ⟨frames, stop, rest, result, τ, run, readOut⟩ := readAll_of_stream (σ := cutSession)
    ⟨⟨[accumulated]⟩, {}⟩ (show (⟨6⟩ : PropertyId).number.toNat ≤ PropertyId.max by decide) rfl rfl rfl
    (h := ActionHeader.pack ⟨.read, false, ⟨6⟩, 2⟩) (by decide) (by decide) (by decide)
    ⟨rfl, rfl, fun _ => rfl⟩
  have whole : Frame.Whole [3, 7, 248, 0] (.data [7]) := Frame.whole_of_encode rfl
  have cut : Receives [4, 1] (.error .timeout) [] := .cutOff (by decide) (by decide)
  obtain ⟨rfl, rfl, rfl⟩ := readOut.takes.unique
    (.next (.of_whole whole [4, 1]) (by simp) (.fails cut))
  obtain ⟨rfl, -⟩ := readOut.stopped .timeout rfl
  obtain ⟨noted, modules⟩ := readOut.silent
  exact ⟨τ, run, noted.sized (by decide), modules 0 (by decide), modules 1 (by decide)⟩

end Reads

end DaisyChain.Gateway
