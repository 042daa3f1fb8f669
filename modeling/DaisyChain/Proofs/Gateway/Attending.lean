import DaisyChain.Proofs.Chain.Disturbed
import DaisyChain.Proofs.Gateway.Openings
import DaisyChain.Proofs.Gateway.Records
import DaisyChain.Proofs.Gateway.Retaining

/-!
# Turns on an attentive chain

What the turn of a property does on a chain on which nothing is under way, whatever its nodes have
recorded, and whether or not it is as long as the display (`Session.Attending`).  The nodes to which
a value is due have it afterwards, if it can be conveyed at all; the others are as they were, and
so are the modules of the display unless the property is read (`tends_turn`).  A write that meets
records fails and takes them along, but what it carries arrives all the same.
-/

namespace DaisyChain

open Node

variable {M : Type}

/-! ### Modules of nodes -/

/-- The modules of a chain that yields nothing more are those that it yields. -/
theorem Chain.Yields.modules_eq {c : Chain M} {table : Table M} {nodes : List (Engine × M)}
    (yields : c.Yields table (listeners nodes) []) :
  c.modules = nodes.map Prod.snd
  := by
  have same := congrArg (List.map Body.module) yields.bodies_eq
  rw [listeners, List.map_map, List.map_map] at same
  exact same

/-- The modules of a chain are those of its nodes without their links. -/
theorem Chain.modules_eq (c : Chain M) :
  c.pairs.map Prod.snd = c.modules
  := List.map_map

/-- A chain has as many modules as nodes. -/
theorem Chain.length_pairs (c : Chain M) :
  c.pairs.length = c.modules.length
  := by
  rw [← Chain.modules_eq, List.length_map]

namespace Gateway

variable {N : Nat} {d : Definition M} {g : Gateway M}

/-- Nodes keep their modules when they are read. -/
theorem modules_afterRead (table : Table M) (property : PropertyId) (nodes : List (Engine × M)) :
  (afterRead table property nodes).map Prod.snd = nodes.map Prod.snd
  := by
  rw [afterRead]
  split
  · rw [List.map_map, List.map_map]
    rfl
  · rw [List.map_map]
    rfl

/-- Nodes keep their modules when they forget their records. -/
theorem modules_forgotten (nodes : List (Engine × M)) :
  (forgotten nodes).map Prod.snd = nodes.map Prod.snd
  := List.map_map

/-! ### Values that arrive -/

/-- Modules before and after values of a property were due to some of them: these have the values,
the others are as they were, and none differs but in what the property touches. -/
structure Conveyed (d : Definition M) (due : Nat → Option M) (modules modules' : List M) :
    Prop where
  length : modules'.length = modules.length
  touched : ∀ {i : Nat} {m m' : M}, modules[i]? = some m → modules'[i]? = some m' → d.Alters m m'
  untouched : ∀ {i : Nat} {m m' : M}, modules[i]? = some m → modules'[i]? = some m' →
    due i = none → m' = m
  arrived : ∀ {i : Nat} {m' source : M}, modules'[i]? = some m' → due i = some source →
    d.value m' = d.value source

namespace Conveyed

variable {due due' : Nat → Option M} {modules modules' modules'' : List M}

/-- If nothing is due, nothing happens. -/
theorem refl (nothing : ∀ i, due i = none) :
  Conveyed d due modules modules
  := by
  constructor
  · rfl
  · intro i m m' here here'
    rw [here] at here'
    cases here'
    exact .refl d m
  · intro i m m' here here' _
    rw [here] at here'
    cases here'
    rfl
  · intro i m' source _ is
    rw [nothing] at is
    contradiction

/-- Values that are due again arrive again. -/
theorem trans (first : Conveyed d due modules modules')
    (second : Conveyed d due modules' modules'') :
  Conveyed d due modules modules''
  := by
  have between {i : Nat} {m : M} (here : modules[i]? = some m) : ∃ m', modules'[i]? = some m' := by
    have within := (List.getElem?_eq_some_iff.mp here).1
    rw [← first.length] at within
    exact ⟨_, List.getElem?_eq_getElem within⟩
  constructor
  · exact second.length.trans first.length
  · intro i m m'' here here''
    obtain ⟨m', here'⟩ := between here
    exact (first.touched here here').trans (second.touched here' here'')
  · intro i m m'' here here'' none
    obtain ⟨m', here'⟩ := between here
    exact (second.untouched here' here'' none).trans (first.untouched here here' none)
  · exact second.arrived

/-- It does not matter which of two modules a value is taken from that are laid out alike. -/
theorem congr (conveyed : Conveyed d due' modules modules')
    (alike : ∀ i, Option.Rel (fun m m' => d.serialize m' = d.serialize m) (due i) (due' i)) :
  Conveyed d due modules modules'
  := by
  refine ⟨conveyed.length, conveyed.touched, ?_, ?_⟩
  · intro i m m' here here' nothing
    refine conveyed.untouched here here' ?_
    have same := alike i
    generalize due' i = other at same
    rw [nothing] at same
    cases same
    rfl
  · intro i m' source here' is
    have same := alike i
    generalize is' : due' i = other at same
    rw [is] at same
    cases same with
    | some laid =>
      rw [conveyed.arrived here' is']
      exact Definition.value_of_serialize laid

/-- Values of modules arrive if they can be conveyed. -/
theorem of_received {nodes : List (Engine × M)} {means : Nat → Option M}
    (conveys : ∀ i < nodes.length, ∀ m, means i = some m → d.Conveys m) :
  Conveyed d means (nodes.map Prod.snd)
    ((List.zipWith (received d false) nodes
      ((List.range nodes.length).map fun i => (means i).map d.value)).map Prod.snd)
  := by
  let values := (List.range nodes.length).map fun i => (means i).map d.value
  let after := (List.zipWith (received d false) nodes values).map Prod.snd
  have length : after.length = nodes.length := by
    simp only [after, values, List.length_map, List.length_zipWith, List.length_range, Nat.min_self]
  have arrives {i : Nat} {n : Engine × M} {m' : M} (here : nodes[i]? = some n)
      (here' : after[i]? = some m') :
      m' = (received d false n ((means i).map d.value)).2 := by
    have within := (List.getElem?_eq_some_iff.mp here).1
    rw [List.getElem?_map, List.getElem?_zipWith, here, List.getElem?_map,
      List.getElem?_range within] at here'
    exact (Option.some.inj here').symm
  refine ⟨length.trans (List.length_map _).symm, ?_, ?_, ?_⟩
  · intro i m m' here here'
    rw [List.getElem?_map, Option.map_eq_some_iff] at here
    obtain ⟨n, here, rfl⟩ := here
    rw [arrives here here']
    cases means i with
    | none => exact .refl d n.2
    | some source => exact d.alters_given _ n.2
  · intro i m m' here here' nothing
    rw [List.getElem?_map, Option.map_eq_some_iff] at here
    obtain ⟨n, here, rfl⟩ := here
    rw [arrives here here', nothing]
    rfl
  · intro i m' source here' is
    have within := (List.getElem?_eq_some_iff.mp here').1
    rw [length] at within
    rw [arrives (List.getElem?_eq_getElem within) here', is]
    exact (conveys i within source is).kept _

end Conveyed

/-! ### Sessions that attend -/

/-- The gateway has the full attention of a chain that it can count and that is as long as it
thinks, and has modules for some of its nodes. -/
structure Session.Attending (g : Gateway M) (σ : Session (Site (Chain M) M N)) : Prop where
  shared : σ.line.table = g.table
  attentive : σ.line.Attentive
  few : σ.line.modules.length < countModulus
  filled : σ.env.entries ≠ []
  fits : σ.env.entries.length ≤ min σ.line.modules.length N
  spanned : max σ.env.entries.length σ.chainLength = σ.line.modules.length

/-- An act leaves a session that attends, retains what concerns the given properties, and conveys
the values that are due. -/
structure Session.Tends (g : Gateway M) (d : Definition M) (due : Nat → Option M)
    (P : Definition M → Prop) (σ τ : Session (Site (Chain M) M N)) : Prop where
  attending : τ.Attending g
  retains : σ.Retains σ.line.modules.length P τ
  conveyed : Conveyed d due σ.line.modules τ.line.modules

variable {due due' : Nat → Option M} {P : Definition M → Prop}
variable {σ τ ρ : Session (Site (Chain M) M N)}

namespace Session.Attending

variable (attending : σ.Attending g)

include attending

/-- The chain yields nothing. -/
theorem yields :
  σ.line.Yields g.table (listeners σ.line.pairs) []
  := by
  rw [← attending.shared]
  exact attending.attentive.yields

/-- There are nodes. -/
theorem modules_pos :
  0 < σ.line.modules.length
  := by
  have filled := List.length_pos_iff.mpr attending.filled
  have fits := attending.fits
  omega

/-- All modules are counted. -/
theorem tally_eq [Inhabited M] :
  (tally σ.env).1 = σ.env.entries.length
  := by
  apply Collection.counted_eq rfl
  apply Nat.lt_of_le_of_lt attending.fits
  apply Nat.lt_of_le_of_lt (Nat.min_le_left _ _) attending.few

/-- After something that retains the display, on a chain with nodes that listen, the gateway still
attends. -/
theorem next {nodes : List (Engine × M)} {c : Chain M}
    (retains : σ.Retains σ.line.modules.length P τ)
    (yields : c.Yields g.table (listeners nodes) [])
    (conveyed : Conveyed d due σ.line.modules (nodes.map Prod.snd)) :
  σ.Tends g d due P (τ.withLine c)
  := by
  have modules : (τ.withLine c).line.modules = nodes.map Prod.snd := by
    rw [Session.line_withLine]
    exact yields.modules_eq
  have length := conveyed.length
  refine ⟨⟨?_, ?_, ?_, ?_, ?_, ?_⟩, retains.withLine c, ?_⟩
  · rw [Session.line_withLine]
    exact yields.table_eq
  · rw [Session.line_withLine]
    exact yields.attentive
  · rw [modules, length]
    exact attending.few
  · have before := List.length_pos_iff.mpr attending.filled
    exact List.length_pos_iff.mp (Nat.lt_of_lt_of_le before retains.grows)
  · rw [modules, length]
    exact retains.fits
  · rw [modules, length]
    have spanned := attending.spanned
    have grows := retains.grows
    have fits := retains.fits
    change max τ.env.entries.length τ.chainLength = _
    rcases retains.counted with same | all
    · rw [same]
      omega
    · rw [all]
      omega
  · rw [modules]
    exact conveyed

/-- Doing nothing tends what nothing is due to. -/
theorem idly (nothing : ∀ i, due i = none) :
  σ.Tends g d due P σ
  := ⟨attending, .refl attending.fits, .refl nothing⟩

/-- The gateway still attends if the display has other entries, but as many. -/
theorem of_entries {display : Display M N}
    (length : display.collection.entries.length = σ.env.entries.length) :
  Session.Attending g { σ with env := { σ.env with display := display } }
  := by
  refine ⟨attending.shared, attending.attentive, attending.few, ?_, ?_, ?_⟩
  · exact List.length_pos_iff.mp (length ▸ List.length_pos_iff.mpr attending.filled)
  · exact length ▸ attending.fits
  · exact length ▸ attending.spanned

end Session.Attending

namespace Session.Tends

/-- Two acts in turn tend what both of them do. -/
theorem trans (first : σ.Tends g d due P τ) (second : τ.Tends g d due P ρ) :
  σ.Tends g d due P ρ
  := by
  have retains := second.retains
  rw [first.conveyed.length] at retains
  exact ⟨second.attending, first.retains.trans retains, first.conveyed.trans second.conveyed⟩

/-- It does not matter which of two modules a value is taken from that are laid out alike. -/
theorem congr (tends : σ.Tends g d due' P τ)
    (alike : ∀ i, Option.Rel (fun m m' => d.serialize m' = d.serialize m) (due i) (due' i)) :
  σ.Tends g d due P τ
  := ⟨tends.attending, tends.retains, tends.conveyed.congr alike⟩

/-- What concerns some of the properties is retained, too. -/
theorem mono {Q : Definition M → Prop} (tends : σ.Tends g d due P τ) (fewer : ∀ d, Q d → P d) :
  σ.Tends g d due Q τ
  := ⟨tends.attending, tends.retains.mono fewer, tends.conveyed⟩

/-- The chain stays as it is while the gateway waits. -/
theorem paused (tends : σ.Tends g d due P τ) (ms : Nat) :
  σ.Tends g d due P (τ.withLine (τ.line.advance ms))
  := by
  obtain ⟨attentive, table, pairs⟩ := tends.attending.attentive.advance ms
  have modules : (τ.line.advance ms).modules = τ.line.modules := by
    rw [← Chain.modules_eq, pairs, Chain.modules_eq]
  have attending := tends.attending
  refine ⟨⟨?_, ?_, ?_, attending.filled, ?_, ?_⟩, tends.retains.withLine _, ?_⟩
  · rw [Session.line_withLine, table]
    exact attending.shared
  · rw [Session.line_withLine]
    exact attentive
  · rw [Session.line_withLine, modules]
    exact attending.few
  · rw [Session.line_withLine, modules]
    exact attending.fits
  · rw [Session.line_withLine, modules]
    exact attending.spanned
  · rw [Session.line_withLine, modules]
    exact tends.conveyed

end Session.Tends

/-! ### Reads and writes -/

/-- Nodes keep their records when they receive values that are not held back. -/
theorem records_received (d : Definition M) {nodes : List (Engine × M)}
    {values : List (Option (List UInt8))} (length : nodes.length = values.length) :
  (List.zipWith (received d false) nodes values).map (fun n => n.1.record) =
    nodes.map fun n => n.1.record
  := by
  induction nodes generalizing values with
  | nil => rfl
  | cons n nodes ih =>
    cases values with
    | nil => contradiction
    | cons value values =>
      rw [List.zipWith_cons_cons, List.map_cons, List.map_cons, ih (Nat.succ.inj length)]
      cases value <;> rfl

section Acts

variable [Inhabited M]

/-- A write that every node can receive leaves every node what it means for it, and without a
record.  It succeeds if no node had one, and fails with the categories of the records otherwise. -/
theorem run_writeAll_site {recipients : Recipients} {nodes : List (Engine × M)}
    {values : List (Option (List UInt8))} {out : List UInt8} (member : d ∈ definitions g.table)
    (writable : d.access.writable = true) (gettable : d.get.isSome) (some : nodes ≠ [])
    (few : nodes.length < countModulus) (fits : σ.env.entries.length ≤ min nodes.length N)
    (receivable : List.Forall₂ (Receivable d false) nodes values)
    (delivers : Delivers d d.id nodes.length σ values σ recipients)
    (yields : σ.line.Yields g.table (listeners nodes) out) (short : out.length ≤ frameMax) :
  let categories := categoriesOfAll (nodes.map fun n => n.1.record)
  ∃ (c : Chain M) (τ : Session (Site (Chain M) M N)),
    c.Yields g.table (listeners (forgotten (List.zipWith (received d false) nodes values))) [] ∧
    σ.Retains nodes.length (fun _ => True) τ ∧
    (g.writeAll d.id recipients false : Act _ Unit).run σ =
      (if categories.isEmpty then .ok () else .error (.nodes categories), τ.withLine c)
  := by
  intro categories
  obtain ⟨found, low⟩ := mem_definitions.mp member
  have paired := receivable.length_eq
  obtain ⟨c, after, sent⟩ := run_writeAll_sent g (PropertyId.travels_of_le low) rfl found writable
    gettable some few receivable delivers yields short
  let σ₁ := (σ.told nodes.length recipients).withLine c
  have number : (List.zipWith (received d false) nodes values).length = nodes.length := by
    rw [List.length_zipWith, ← paired, Nat.min_self]
  -- The number of the nodes may have been noted, and noted again with their records.
  have countable : nodes.length ≤ modulesMax := le_modulesMax few
  have told : σ.Retains nodes.length (fun _ => True) σ₁ := by
    refine Session.Retains.withLine ?_ c
    cases recipients with
    | all => exact .noted countable fits
    | each _ => exact .refl fits
  obtain ⟨c', τ, silent, aside, confirmed⟩ := run_confirm_listeners g (σ := σ₁)
    (by rw [number]; exact few) (by rw [Session.line_withLine]; exact after)
  rw [records_received d paired] at aside confirmed
  refine ⟨c', τ, silent, ?_, sent.trans confirmed⟩
  rcases aside with rfl | rfl
  · exact told
  · rw [number]
    have noted := told.trans (.noted countable told.fits)
    exact noted.trans (.takeRecords noted.fits _ 0)

variable (attending : σ.Attending g) (member : d ∈ definitions g.table)

include attending member

/-- A read retains all properties that the one that is read leaves alone. -/
theorem tends_readAll (nothing : ∀ i, due i = none) :
  σ.Tends g d due d.Leaves ((g.readAll d.id : Act _ Unit).run σ).2
  := by
  obtain ⟨found, low⟩ := mem_definitions.mp member
  cases refused : g.readRefusal? d.id with
  | some failure =>
    rw [readAll_of_refused g refused]
    exact attending.idly nothing
  | none =>
    obtain ⟨real, d', found', readable, settable⟩ := exists_readable g refused
    obtain rfl : d = d' := Option.some.inj (found.symm.trans found')
    have few := attending.few
    rw [← Chain.length_pairs] at few
    obtain ⟨c, after, run⟩ := run_readAll g (PropertyId.travels_of_le low) real found readable
      settable few attending.yields
    rw [congrArg Prod.snd run]
    refine attending.next (.readAside ?_ attending.fits d ?_ _ ?_) after ?_
    · exact le_modulesMax attending.few
    · rw [List.length_map, Chain.length_pairs]
    · rw [List.length_map, Chain.length_pairs]
    · rw [modules_afterRead, Chain.modules_eq]
      exact .refl nothing

/-- A write conveys the values that it is meant to. -/
theorem tends_writeAll {recipients : Recipients} (writable : d.access.writable = true)
    (addressed : recipients = .each σ.line.modules.length ∨ recipients = .all)
    (conveys : ∀ i m, σ.collection.meant d.id recipients i = some m → d.Conveys m)
    (some : ∃ i m, σ.collection.meant d.id recipients i = some m) :
  σ.Tends g d (σ.collection.meant d.id recipients) (fun _ => True)
    ((g.writeAll d.id recipients false : Act _ Unit).run σ).2
  := by
  obtain ⟨j, m, meant⟩ := some
  have small := placeholderLength_le (conveys j m meant).laid
  have present := attending.modules_pos
  have few := attending.few
  have fits := attending.fits
  rw [← Chain.length_pairs] at present few addressed fits
  let nodes := σ.line.pairs
  let means := σ.collection.meant d.id recipients
  let values := (List.range nodes.length).map fun i => (means i).map d.value
  have ready : List.Forall₂ (Receivable d false) nodes values :=
    forall₂_receivable fun i _ m meant => (conveys i m meant).taken _
  have delivers : Delivers d d.id nodes.length σ values σ recipients := by
    apply delivers_of_meant small present
    · refine addressed.imp_right fun all => ⟨all, ?_⟩
      exact fun none => attending.filled (List.length_eq_zero_iff.mp none)
    · exact fun i _ m meant => (conveys i m meant).laid
  obtain ⟨c, τ, after, retains, run⟩ := run_writeAll_site member writable
    (conveys j m meant).gettable (List.length_pos_iff.mp present) few fits ready delivers
    attending.yields (Nat.zero_le _)
  rw [Chain.length_pairs] at retains
  rw [run]
  refine attending.next retains after ?_
  rw [modules_forgotten, ← Chain.modules_eq]
  exact .of_received fun i _ => conveys i

/-- A write to single nodes conveys the values of the modules that are marked. -/
theorem tends_writeMarked (writable : d.access.writable = true)
    (conveys : ∀ i m, (σ.collection.outline d.id).marked? i = some m → d.Conveys m)
    (some : ∃ i m, (σ.collection.outline d.id).marked? i = some m) :
  σ.Tends g d (σ.collection.outline d.id).marked? (fun _ => True)
    ((g.writeMarked d.id : Act _ Unit).run σ).2
  := by
  have means : σ.collection.meant d.id (.each σ.line.modules.length) =
      (σ.collection.outline d.id).marked? := funext (σ.collection.meant_each d.id _)
  rw [← means] at conveys some ⊢
  rw [run_writeMarked, attending.tally_eq, attending.spanned]
  exact tends_writeAll attending member writable (.inl rfl) conveys some

/-- A broadcast conveys the value of the first module. -/
theorem tends_broadcast (writable : d.access.writable = true) {m : M} (conveys : d.Conveys m)
    (first : ∃ m', (σ.collection.outline d.id).first? = some m' ∧ d.serialize m' = d.serialize m) :
  σ.Tends g d (fun _ => some m) (fun _ => True)
    ((g.writeAll d.id .all false : Act _ Unit).run σ).2
  := by
  obtain ⟨m', here, laid⟩ := first
  have means (i : Nat) : σ.collection.meant d.id .all i = some m' :=
    (σ.collection.meant_all d.id i).trans here
  refine (tends_writeAll attending member writable (.inr rfl) ?_ ⟨0, m', means 0⟩).congr ?_
  · intro i x is
    rw [means] at is
    cases is
    exact conveys.of_serialize laid
  · intro i
    rw [means]
    exact .some laid

omit attending in
/-- A broadcast conveys the value of the first module, however often it is repeated. -/
theorem tends_broadcastAgain (writable : d.access.writable = true) {m : M} (conveys : d.Conveys m)
    (retries : Nat) (attending : σ.Attending g)
    (first : ∃ m', (σ.collection.outline d.id).first? = some m' ∧ d.serialize m' = d.serialize m) :
  σ.Tends g d (fun _ => some m) (fun _ => True)
    ((g.broadcastAgain d.id retries : Act _ Unit).run σ).2
  := by
  induction retries generalizing σ with
  | zero => exact tends_broadcast attending member writable conveys first
  | succ retries ih =>
    have tends := tends_broadcast attending member writable conveys first
    cases result : (g.writeAll d.id .all false : Act _ Unit).run σ with
    | mk answer τ =>
      rw [result] at tends
      cases answer with
      | ok => rwa [run_broadcastAgain g _ result]
      | error failure =>
        cases retryable : failure.isRetryable with
        | true =>
          rw [run_broadcastAgain_error g result retryable]
          have paused := tends.paused g.settings.pause
          refine paused.trans (ih paused.attending ?_)
          -- The first module is laid out as before.
          obtain ⟨m', here, laid⟩ := first
          obtain ⟨m'', here', laid'⟩ := (paused.retains.alike d trivial).exists_module here
          exact ⟨m'', here', laid'.trans laid⟩
        | false =>
          rw [run_broadcastAgain_final g result retryable]
          exact tends

end Acts

/-! ### What cannot be written -/

section Unsupported

variable {S : Type} [Transport S] [Shared S M N] [Inhabited M] {property : PropertyId}
variable (found : g.table.find? property = some d)
variable (impossible : ¬(d.access.writable && d.get.isSome) = true)

include found impossible

/-- Nothing is sent for a property that cannot be written. -/
theorem run_writeAll_unsupported (recipients : Recipients) (staged : Bool) (σ : Session S) :
  (g.writeAll property recipients staged : Act S Unit).run σ = (.error .notSupported, σ)
  := by
  have refused : g.writeRefusal? property recipients = some .notSupported := by
    rw [writeRefusal?, found]
    exact if_neg impossible
  rw [writeAll_of_refused g refused]
  rfl

/-- A broadcast of a property that cannot be written is not repeated. -/
theorem run_broadcastAgain_unsupported (retries : Nat) (σ : Session S) :
  (g.broadcastAgain property retries : Act S Unit).run σ = (.error .notSupported, σ)
  := run_broadcastAgain_final g (run_writeAll_unsupported found impossible .all false σ) rfl retries

end Unsupported

/-! ### Turns -/

section Turns

variable [Inhabited M]

/-- What is done for a property. -/
def operate {S : Type} [Transport S] [Shared S M N] (g : Gateway M) (property : PropertyId) :
    Operation → Act S Unit
  | .readAll => g.readAll property
  | .broadcast => g.broadcastAgain property g.settings.retries
  | .writeMarked => g.writeMarked property

/-- If there are modules, an operation is performed. -/
theorem perform_eq {S : Type} [Transport S] [Shared S M N] (g : Gateway M) (property : PropertyId)
    (operation : Operation) {count : Nat} (some : count ≠ 0) (σ : Session S) :
  let ran := (g.operate property operation : Act S Unit).run σ
  g.perform property operation count σ = (.some ran.1, ran.2)
  := by
  cases operation with
  | readAll => rfl
  | broadcast =>
    rw [perform, if_neg some]
    rfl
  | writeMarked =>
    rw [perform, if_neg some]
    rfl

/-- What a turn has done: the values that were due have arrived, the outlines of properties that the
one that had its turn leaves alone stay alike, and the modules have kept their values unless the
property was read. -/
structure Session.Turned (g : Gateway M) (d : Definition M)
    (σ σ' : Session (Site (Chain M) M N)) : Prop where
  attending : σ'.Attending g
  conveyed : Conveyed d ((σ.collection.outline d.id).due d) σ.line.modules σ'.line.modules
  alike : ∀ {d'}, d.Leaves d' → d.id.wire ≠ d'.id.wire →
    Outline.Alike d' (σ.collection.outline d'.id) (σ'.collection.outline d'.id)
  kept : σ.collection.operation? d.id ≠ some .readAll → ∀ {i m},
    σ.collection.module? i = some m →
      ∃ m', σ'.collection.module? i = some m' ∧ d.serialize m' = d.serialize m

/-- The properties that are retained by what is done for the given one. -/
def Retained (d : Definition M) (operation : Option Operation) (d' : Definition M) : Prop :=
  operation = some .readAll → d.Leaves d'

variable (attending : σ.Attending g) (member : d ∈ definitions g.table)
variable (conveys : ∀ i m, (σ.collection.outline d.id).due d i = some m → d.Conveys m)

include attending member conveys

/-- An operation conveys the values that are due. -/
theorem tends_operate {operation : Operation}
    (pending : σ.collection.operation? d.id = some operation) :
  σ.Tends g d ((σ.collection.outline d.id).due d) (Retained d (some operation))
    ((g.operate d.id operation : Act _ Unit).run σ).2
  := by
  obtain ⟨found, -⟩ := mem_definitions.mp member
  have known := (σ.collection.operation?_outline d.id).trans pending
  by_cases possible : (d.access.writable && d.get.isSome) = true
  · have writable : d.access.writable = true := (Bool.and_eq_true_iff.mp possible).1
    cases operation with
    | readAll =>
      refine (tends_readAll attending member fun i => ?_).mono fun d' retained => retained rfl
      rw [Outline.due, if_pos possible, known]
    | broadcast =>
      obtain ⟨m, first⟩ : ∃ m, (σ.collection.outline d.id).first? = some m := by
        obtain ⟨e, rest, entries⟩ := List.exists_cons_of_ne_nil attending.filled
        refine ⟨e.module, (σ.collection.module?_outline d.id 0).trans ?_⟩
        rw [Collection.module?, show σ.collection.entries = e :: rest from entries]
        rfl
      have due (i : Nat) : (σ.collection.outline d.id).due d i = some m := by
        rw [Outline.due, if_pos possible, known]
        exact first
      have again := tends_broadcastAgain member writable (conveys 0 m (due 0)) g.settings.retries
        attending ⟨m, first, rfl⟩
      rw [show (σ.collection.outline d.id).due d = fun _ => some m from funext due]
      exact again.mono fun _ _ => trivial
    | writeMarked =>
      have due : (σ.collection.outline d.id).due d = (σ.collection.outline d.id).marked? := by
        funext i
        rw [Outline.due, if_pos possible, known]
      rw [due] at conveys ⊢
      have waiting := Outline.exists_marked? known
      exact (tends_writeMarked attending member writable conveys waiting).mono fun _ _ => trivial
  · have nothing (i : Nat) : (σ.collection.outline d.id).due d i = none := by
      rw [Outline.due, if_neg possible]
    cases operation with
    | readAll =>
      exact (tends_readAll attending member nothing).mono fun d' retained => retained rfl
    | broadcast =>
      rw [operate, run_broadcastAgain_unsupported found possible]
      exact attending.idly nothing
    | writeMarked =>
      rw [operate, run_writeMarked, run_writeAll_unsupported found possible]
      exact attending.idly nothing

/-- A turn does what is to be done for its property, and may mark it clean. -/
theorem tends_turn :
  ∃ τ, σ.Tends g d ((σ.collection.outline d.id).due d)
      (Retained d (σ.collection.operation? d.id)) τ ∧
    ((g.syncProperty d.id σ).2 = τ ∨ (g.syncProperty d.id σ).2 = τ.after (clean d.id))
  := by
  cases pending : σ.collection.operation? d.id with
  | none =>
    refine ⟨σ, attending.idly fun i => ?_, .inl ?_⟩
    · rw [Outline.due, (σ.collection.operation?_outline d.id).trans pending, ite_self]
    · rw [syncProperty_site_none g pending]
  | some operation =>
    have counted : (tally (σ.after (look d.id)).env).1 ≠ 0 := fun none =>
      attending.filled (List.length_eq_zero_iff.mp (attending.tally_eq.symm.trans none))
    have performed := perform_eq g d.id operation counted ((σ.after (look d.id)).after tally)
    rw [syncProperty_some g (σ := σ) pending performed]
    refine ⟨_, tends_operate attending member conveys pending, ?_⟩
    split
    · exact .inr rfl
    · exact .inl rfl

/-- What a turn does. -/
theorem turned_syncProperty :
  σ.Turned g d (g.syncProperty d.id σ).2
  := by
  obtain ⟨τ, tends, ended⟩ := tends_turn attending member conveys
  have turned : σ.Turned g d τ := by
    refine ⟨tends.attending, tends.conveyed, ?_, ?_⟩
    · exact fun leaves _ => tends.retains.alike _ fun _ => leaves
    · intro unread i m here
      rw [← Collection.module?_outline _ d.id] at here
      obtain ⟨m', here', laid⟩ :=
        (tends.retains.alike d fun read => absurd read unread).exists_module here
      rw [Collection.module?_outline] at here'
      exact ⟨m', here', laid⟩
  rcases ended with same | cleaned
  · rw [same]
    exact turned
  · rw [cleaned]
    refine ⟨turned.attending.of_entries (List.length_map _), turned.conveyed, ?_, ?_⟩
    · intro d' leaves differs
      change Outline.Alike d' _ ((τ.collection.markClean d.id).outline d'.id)
      rw [Collection.outline_markClean_of_ne _ differs]
      exact turned.alike leaves differs
    · intro unread i m here
      change ∃ m', (τ.collection.markClean d.id).module? i = some m' ∧ _
      rw [Collection.module?_markClean]
      exact turned.kept unread here

end Turns

end Gateway

end DaisyChain
