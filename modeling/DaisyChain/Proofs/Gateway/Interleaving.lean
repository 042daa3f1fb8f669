import DaisyChain.Proofs.Gateway.Contention

/-!
# Turns between updates

The turn of a property of a contended display.  The value that an operation sends to a node is one
that the worker found at one of its accesses, after it looked for what is to be done and before it
marked the property clean (`Drawn`).
-/

namespace DaisyChain.Gateway

open Node

variable {M : Type} {N : Nat}

/-! ### Accesses to a contended display -/

section Accesses

variable {L : Type}

namespace Contended

/-- An access to the collection that leaves it as it is. -/
def pass (s : Contended L M N) : Contended L M N :=
  s.leave s.seen

/-- The application adds no module and takes none away. -/
theorem size_seen (s : Contended L M N) :
  s.seen.size = s.display.collection.size
  := by
  obtain ⟨_, -, -, -, -, -, marked⟩ := exists_made (s.plan s.found.length) s
  apply (marked default).size

/-- An access that leaves the collection as it is does nothing. -/
theorem follows_pass (Q : PropertyId → Prop) (s : Contended L M N) :
  Follows Q s s.pass
  := follows_proceed s rfl fun q _ => Collection.Kept.refl _ q

/-- What has been found at an access is still known later. -/
theorem Follows.getElem?_found {Q : PropertyId → Prop} {s s' : Contended L M N}
    (follows : s.pass.Follows Q s') :
  s'.found[s.found.length]? = some s.seen
  := by
  obtain ⟨_, passed⟩ := follows
  obtain ⟨rest, same⟩ := passed.found
  have here : s.pass.found[s.found.length]? = some s.seen := List.getElem?_concat_length
  rw [← same, List.getElem?_append_left (List.getElem?_eq_some_iff.mp here).1]
  apply here

/-- After an access more has been found. -/
theorem Follows.lt_length {Q : PropertyId → Prop} {s s' : Contended L M N}
    (follows : s.pass.Follows Q s') :
  s.found.length < s'.found.length
  := (List.getElem?_eq_some_iff.mp follows.getElem?_found).1

end Contended

/-- The session after an access that leaves the collection as it is. -/
def Session.passed (σ : Session (Contended L M N)) : Session (Contended L M N) :=
  { σ with env := σ.env.pass }

variable [Inhabited M] {d : Definition M} {σ : Session (Contended L M N)}

/-- Noting the length that the collection counts already changes nothing. -/
theorem noteCount_contended {s : Contended L M N} {count : Nat} (few : count ≤ modulesMax)
    (roomy : count ≤ N) (counted : s.seen.counted = count) :
  noteCount count s = ((), s.pass)
  := by
  have known : ¬s.seen.counted ≠ min count (min N modulesMax) := by omega
  apply if_neg known

/-- Faithful values are taken; that does nothing but change modules. -/
theorem takeValues_contended (faithful : d.Faithful) (Q : PropertyId → Prop) (frames : List Frame)
    (values : ∀ frame ∈ frames, ∃ m, frame = .data (d.value m)) (index : Nat) {trouble : Trouble}
    (accepted : trouble.refused = none) (s : Contended L M N) :
  (takeValues d frames index trouble s).1.refused = none ∧
    s.Follows Q (takeValues d frames index trouble s).2
  := by
  induction frames generalizing index trouble s with
  | nil => exact ⟨accepted, .refl Q s⟩
  | cons frame rest ih =>
    obtain ⟨m, rfl⟩ := values frame List.mem_cons_self
    let answer := s.seen.modifyModule index (d.deserialize (d.value m))
    have follows : s.Follows Q (s.leave answer.2) := by
      apply s.follows_proceed
      · apply (Collection.kept_modifyModule (q := default) _ _).size
      · exact fun q _ => Collection.kept_modifyModule _ _
    have taken : (trouble.after answer.1).refused = none := by
      simp only [answer, Collection.modifyModule]
      split
      · apply accepted
      · rw [faithful.deserialize_value]
        apply accepted
    obtain ⟨none, later⟩ := ih (fun frame member => values frame (List.mem_cons_of_mem _ member))
      (index + 1) taken (s.leave answer.2)
    exact ⟨none, follows.trans later⟩

/-- The value of a module is that which the worker finds. -/
theorem run_valueAt_contended (faithful : d.Faithful) {index : Nat}
    (within : index < σ.env.display.collection.size) :
  ∃ m, σ.env.seen.module? index = some m ∧
    (valueAt d index : Act _ _).run σ = (.ok (d.value m), σ.passed)
  := by
  rw [← σ.env.size_seen] at within
  let e := σ.env.seen.entries[index]
  have here : σ.env.seen.module? index = some e.module := by
    rw [Collection.module?, List.getElem?_eq_getElem within]
    rfl
  have module : (Replica.module? index : StateM (Contended L M N) _) σ.env =
      (some e.module, σ.env.pass) := by
    change (σ.env.seen.module? index, _) = _
    rw [here]
    rfl
  refine ⟨e.module, here, ?_⟩
  rw [valueAt, run_bind_ok (run_within _)]
  simp only [Session.after, module, faithful.serialize_eq]
  rfl

end Accesses

/-! ### Values found -/

/-- Where an operation has the value from that it sends to a node, if it sends one.  The worker
looked for what is to be done, and marked the property clean, at the accesses of the given numbers;
the value is one that it found in between. -/
inductive Drawn (found : List (Collection M N)) (d : Definition M) (look clean index : Nat) :
    Operation → Option (List UInt8) → Prop
  | read : Drawn found d look clean index .readAll none
  | first {t : Nat} {c : Collection M N} {m : M} (after : look < t) (before : t < clean)
      (here : found[t]? = some c) (module : c.module? 0 = some m) :
    Drawn found d look clean index .broadcast (some (d.value m))
  | own {t : Nat} {c c' : Collection M N} {m : M} (after : look < t) (before : t + 1 < clean)
      (here : found[t]? = some c) (marked : c.mustWrite index d.id = true)
      (next : found[t + 1]? = some c') (module : c'.module? index = some m) :
    Drawn found d look clean index .writeMarked (some (d.value m))
  | other {t : Nat} {c : Collection M N} (after : look < t) (before : t < clean)
      (here : found[t]? = some c) (unmarked : c.mustWrite index d.id = false) :
    Drawn found d look clean index .writeMarked none

/-- What has been found is still known later. -/
theorem Drawn.mono {found found' : List (Collection M N)} {d : Definition M}
    {look clean clean' index : Nat} {operation : Operation} {value : Option (List UInt8)}
    (drawn : Drawn found d look clean index operation value) (more : found <+: found')
    (later : clean ≤ clean') :
  Drawn found' d look clean' index operation value
  := by
  have still {t : Nat} {c : Collection M N} (here : found[t]? = some c) : found'[t]? = some c := by
    obtain ⟨rest, rfl⟩ := more
    rw [List.getElem?_append_left (List.getElem?_eq_some_iff.mp here).1]
    apply here
  cases drawn with
  | read => exact .read
  | first after before here module =>
    exact .first after (Nat.lt_of_lt_of_le before later) (still here) module
  | own after before here marked next module =>
    exact .own after (Nat.lt_of_lt_of_le before later) (still here) marked (still next) module
  | other after before here unmarked =>
    exact .other after (Nat.lt_of_lt_of_le before later) (still here) unmarked

/-- A value that is sent is that of some module. -/
theorem Drawn.sent {found : List (Collection M N)} {d : Definition M} {look clean index : Nat}
    {operation : Operation} {value : Option (List UInt8)}
    (drawn : Drawn found d look clean index operation value) :
  Definition.Faithful.Sent d value
  := by
  intro data is
  cases drawn with
  | read => contradiction
  | first _ _ _ _ =>
    cases is
    exact ⟨_, rfl⟩
  | own _ _ _ _ _ _ =>
    cases is
    exact ⟨_, rfl⟩
  | other _ _ _ _ => contradiction

section Choices

variable {L : Type} [Inhabited M] {d : Definition M} {σ : Session (Contended L M N)}

/-- What a write means for a node is what the worker finds. -/
theorem run_choose_contended (faithful : d.Faithful) (Q : PropertyId → Prop) {index look : Nat}
    (within : index < σ.env.display.collection.size) (looked : look < σ.env.found.length) :
  ∃ value τ, (choose d d.id index : Act _ _).run σ = (.ok value, τ) ∧ σ.env.Follows Q τ.env ∧
    τ.chainLength = σ.chainLength ∧
    Drawn τ.env.found d look τ.env.found.length index .writeMarked value
  := by
  have marked : (Replica.mustWrite (M := M) index d.id : StateM (Contended L M N) _) σ.env =
      (σ.env.seen.mustWrite index d.id, σ.env.pass) := rfl
  have here : σ.passed.env.found[σ.env.found.length]? = some σ.env.seen :=
    List.getElem?_concat_length
  have length : σ.passed.env.found.length = σ.env.found.length + 1 := List.length_append
  have first := σ.env.follows_pass Q
  rw [choose, run_bind_ok (run_within _)]
  simp only [Session.after, marked]
  cases must : σ.env.seen.mustWrite index d.id with
  | false =>
    refine ⟨none, σ.passed, rfl, first, rfl, ?_⟩
    exact .other looked (by rw [length]; exact Nat.lt_succ_self _) here must
  | true =>
    have within' : index < σ.passed.env.display.collection.size := by
      obtain ⟨_, passed⟩ := first
      rw [show σ.passed.env = σ.env.pass from rfl, passed.size]
      apply within
    obtain ⟨m, module, valued⟩ := run_valueAt_contended (σ := σ.passed) faithful within'
    have next : σ.passed.passed.env.found[σ.env.found.length + 1]? = some σ.passed.env.seen := by
      rw [← length]
      apply List.getElem?_concat_length
    have length' : σ.passed.passed.env.found.length = σ.passed.env.found.length + 1 :=
      List.length_append
    have second := first.trans (Contended.follows_pass Q σ.env.pass)
    refine ⟨some (d.value m), σ.passed.passed, ?_, second, rfl, ?_⟩
    · change (valueAt d index >>= fun value => pure (some value) : Act _ _).run σ.passed = _
      rw [run_bind_ok valued]
      rfl
    · refine .own looked (by rw [length', length]; exact Nat.lt_succ_self _) ?_ must next module
      apply (List.getElem?_append_left (by rw [length]; exact Nat.lt_succ_self _)).trans here

/-- What a write means for the first nodes is what the worker finds. -/
theorem run_chooseAll_contended (faithful : d.Faithful) (Q : PropertyId → Prop) {count look : Nat}
    (within : count ≤ σ.env.display.collection.size) (looked : look < σ.env.found.length) :
  ∃ (values : List (Option (List UInt8))) (τ : Session (Contended L M N)),
    (chooseAll d d.id count : Act _ _).run σ = (.ok values.reverse, τ) ∧
    σ.env.Follows Q τ.env ∧ τ.chainLength = σ.chainLength ∧ values.length = count ∧
    ∀ i value, values[i]? = some value →
      Drawn τ.env.found d look τ.env.found.length i .writeMarked value
  := by
  induction count generalizing σ with
  | zero => exact ⟨[], σ, rfl, .refl Q _, rfl, rfl, by simp⟩
  | succ index ih =>
    obtain ⟨value, τ, chosen, follows, length, drawn⟩ :=
      run_choose_contended faithful Q within looked
    obtain ⟨more, passed⟩ := follows
    obtain ⟨values, τ', others, follows', length', size, drawn'⟩ := ih (σ := τ)
      (by rw [passed.size]; exact Nat.le_of_succ_le within)
      (Nat.lt_of_lt_of_le looked passed.found.length_le)
    refine ⟨values ++ [value], τ', ?_, .trans ⟨more, passed⟩ follows', length'.trans length,
      by rw [List.length_append, size]; rfl, ?_⟩
    · rw [chooseAll, run_bind_ok chosen, run_bind_ok others, List.reverse_append]
      rfl
    · intro i v here
      by_cases below : i < values.length
      · rw [List.getElem?_append_left below] at here
        apply drawn' i v here
      · rw [List.getElem?_append_right (Nat.not_lt.mp below), List.getElem?_singleton] at here
        split at here
        · next last =>
          cases here
          have same : i = index := by omega
          subst same
          obtain ⟨_, passed'⟩ := follows'
          apply drawn.mono passed'.found passed'.found.length_le
        · contradiction

end Choices

/-! ### Turns -/

section Turns

variable {table : Table M} {carried : PropertyId → Prop} {d : Definition M}

/-- A turn in which the given operation has sent the given values to the nodes.  Its first access
has found what was to be done, and its last one has marked the property clean; nothing has been done
for other properties. -/
structure Turned (d : Definition M) (operation : Operation) (values : List (Option (List UInt8)))
    (s s' : Contended (Chain M) M N) : Prop where
  follows : s.pass.Follows (fun q => d.id.wire ≠ q.wire) s'
  nothing : s'.display.collection.operation? d.id = none
  drawn : ∃ clean, s'.found.length = clean + 1 ∧ ∀ i value, values[i]? = some value →
    Drawn s'.found d s.found.length clean i operation value

/-- A turn ends when the property is marked clean. -/
theorem Turned.of_clean {operation : Operation} {values : List (Option (List UInt8))}
    {s s' : Contended (Chain M) M N} (follows : s.pass.Follows (fun _ => True) s')
    (drawn : ∀ i value, values[i]? = some value →
      Drawn s'.found d s.found.length s'.found.length i operation value) (line : Chain M) :
  Turned d operation values s { s'.leave (s'.seen.markClean d.id) with line := line }
  := by
  have last : s'.Follows (fun q => d.id.wire ≠ q.wire) (s'.leave (s'.seen.markClean d.id)) := by
    apply s'.follows_proceed
    · apply List.length_map _
    · exact fun q differs => Collection.kept_markClean differs
  refine ⟨((follows.mono fun _ _ => trivial).trans last).over line,
    Collection.operation?_markClean d.id, s'.found.length, List.length_append, ?_⟩
  intro i value here
  apply (drawn i value here).mono (List.prefix_append _ _) (Nat.le_refl _)

variable {σ : Session (Contended (Chain M) M N)}

/-- The number of modules is that of the nodes, whatever the application does. -/
theorem size_of_follows {Q : PropertyId → Prop} {s : Contended (Chain M) M N}
    (serving : Serving table carried σ.line σ.env.display.collection σ.chainLength)
    (follows : σ.env.Follows Q s) :
  s.display.collection.size = σ.line.pairs.length
  := by
  obtain ⟨_, passed⟩ := follows
  apply passed.size.trans serving.sized

/-- All modules are counted, whatever the application does. -/
theorem counted_of_follows {Q : PropertyId → Prop} {s : Contended (Chain M) M N}
    (serving : Serving table carried σ.line σ.env.display.collection σ.chainLength)
    (follows : σ.env.Follows Q s) :
  s.seen.counted = σ.line.pairs.length
  := Collection.counted_eq (s.size_seen.trans (size_of_follows serving follows)) serving.few

variable [Inhabited M]

/-- If nothing is found that is to be done for a property, nothing is done. -/
theorem syncProperty_contended_none (g : Gateway M)
    (nothing : σ.env.seen.operation? d.id = none) :
  g.syncProperty d.id σ = ((), σ.passed)
  := syncProperty_none g nothing

/-- A turn has ended in which the given operation has sent values to the nodes. -/
def Performed (table : Table M) (d : Definition M) (operation : Operation)
    (σ τ : Session (Contended (Chain M) M N)) : Prop :=
  ∃ values, values.length = σ.line.pairs.length ∧
    τ.line.Yields table (listeners (List.zipWith (delivered d) σ.line.pairs values)) [] ∧
    τ.chainLength ≤ σ.line.pairs.length ∧ Turned d operation values σ.env τ.env

section Operations

variable (g : Gateway M)
variable (serving : Serving table carried σ.line σ.env.display.collection σ.chainLength)

include serving

/-- There are modules after the look of a turn. -/
theorem tally_contended (property : PropertyId) :
  (tally (σ.after (look property)).env).1 ≠ 0
  := by
  intro nothing
  have counted : (tally (σ.after (look property)).env).1 = σ.line.pairs.length :=
    counted_of_follows serving (σ.env.follows_pass fun _ => True)
  rw [counted] at nothing
  apply serving.nonempty (List.length_eq_zero_iff.mp nothing)

/-- Noting the number of nodes again changes nothing. -/
theorem noted_contended {ρ : Session (Contended (Chain M) M N)} {Q : PropertyId → Prop}
    (follows : σ.env.Follows Q ρ.env) :
  ρ.noted σ.line.pairs.length = ⟨ρ.env.pass, σ.line.pairs.length⟩
  := by
  have known : noteCount σ.line.pairs.length ρ.env = ((), ρ.env.pass) :=
    noteCount_contended (le_modulesMax serving.few) serving.roomy
      (counted_of_follows serving follows)
  apply congrArg (fun r => Session.mk r.2 σ.line.pairs.length) known

variable (shared : g.table = table) (carries : table.Carries carried) (carry : carried d.id)
variable (found : table.find? d.id = some d)

include shared carries carry found

/-- The turn of a property that is to be read. -/
theorem performed_readAll (pending : σ.env.seen.operation? d.id = some .readAll) :
  ∃ τ, g.syncProperty d.id σ = ((), τ) ∧ Performed table d .readAll σ τ
  := by
  have travels := PropertyId.travels_of_le (carries.real carry)
  have faithful := carries.faithful carry found
  have wide := carries.isErrorQuery_eq carry
  let frames := σ.line.pairs.map fun n => Frame.data (d.value n.2)
  let ρ : Session (Contended (Chain M) M N) := σ.passed.passed
  have first := Contended.follows_pass (fun _ => True) σ.env.pass
  have noted : ρ.noted σ.line.pairs.length = ⟨ρ.env.pass, σ.line.pairs.length⟩ :=
    noted_contended serving ((σ.env.follows_pass _).trans first)
  have second := first.trans (Contended.follows_pass _ σ.env.pass.pass)
  have values : ∀ frame ∈ frames, ∃ m, frame = .data (d.value m) := by
    intro frame member
    obtain ⟨n, _, rfl⟩ := List.mem_map.mp member
    exact ⟨n.2, rfl⟩
  obtain ⟨accepted, taken⟩ := takeValues_contended faithful (fun _ => True) frames values 0
    (show ({} : Trouble).refused = none from rfl) ρ.env.pass
  obtain ⟨c, after, run⟩ := syncProperty_readAll g faithful shared found travels wide serving.few
    serving.unrecorded serving.yields pending
    (by rw [show ((σ.after (look d.id)).after tally).noted _ = _ from noted]; exact accepted)
  rw [show ((σ.after (look d.id)).after tally).noted _ = _ from noted] at run
  refine ⟨_, run, List.replicate σ.line.pairs.length none, List.length_replicate, ?_, Nat.le_refl _,
    .of_clean (second.trans taken) ?_ c⟩
  · rw [zipWith_delivered_replicate]
    apply (List.map_id σ.line.pairs).symm ▸ after
  · intro i value here
    rw [List.eq_of_mem_replicate (List.mem_of_getElem? here)]
    exact .read

/-- The turn of a property that is to be written to all nodes alike. -/
theorem performed_broadcast (pending : σ.env.seen.operation? d.id = some .broadcast) :
  ∃ τ, g.syncProperty d.id σ = ((), τ) ∧ Performed table d .broadcast σ τ
  := by
  have travels := PropertyId.travels_of_le (carries.real carry)
  have faithful := carries.faithful carry found
  let ρ : Session (Contended (Chain M) M N) := σ.passed.passed
  have first := Contended.follows_pass (fun _ => True) σ.env.pass
  have second := first.trans (Contended.follows_pass _ ρ.env)
  have size : ρ.env.display.collection.size = σ.line.pairs.length :=
    size_of_follows serving ((σ.env.follows_pass _).trans first)
  have within : 0 < ρ.env.display.collection.size := by
    rw [size]
    apply List.length_pos_iff.mpr serving.nonempty
  obtain ⟨m, here, chosen⟩ := run_valueAt_contended faithful within
  have noted : ρ.passed.noted σ.line.pairs.length = ⟨ρ.env.pass.pass, σ.line.pairs.length⟩ :=
    noted_contended serving ((σ.env.follows_pass _).trans second)
  obtain ⟨c, after, run⟩ := syncProperty_broadcast g faithful shared found travels serving.nonempty
    serving.few serving.unrecorded serving.yields pending (tally_contended serving d.id) chosen
  rw [noted] at run
  refine ⟨_, run, List.replicate σ.line.pairs.length (some (d.value m)), List.length_replicate, ?_,
    Nat.le_refl _, .of_clean (second.trans (Contended.follows_pass _ ρ.env.pass)) ?_ c⟩
  · rw [zipWith_delivered_replicate]
    apply after
  · intro i value among
    rw [List.eq_of_mem_replicate (List.mem_of_getElem? among)]
    have last : ρ.env.pass.found[ρ.env.found.length]? = some ρ.env.seen :=
      List.getElem?_concat_length
    have drawn : Drawn ρ.env.pass.found d σ.env.found.length ρ.env.pass.found.length i .broadcast
        (some (d.value m)) :=
      .first first.lt_length (List.getElem?_eq_some_iff.mp last).1 last here
    apply drawn.mono (List.prefix_append _ _) (List.prefix_append _ _).length_le

/-- The turn of a property that is to be written to some nodes. -/
theorem performed_writeMarked (pending : σ.env.seen.operation? d.id = some .writeMarked) :
  ∃ τ, g.syncProperty d.id σ = ((), τ) ∧ Performed table d .writeMarked σ τ
  := by
  have travels := PropertyId.travels_of_le (carries.real carry)
  have faithful := carries.faithful carry found
  let ρ : Session (Contended (Chain M) M N) := σ.passed.passed.passed
  have first := Contended.follows_pass (fun _ => True) σ.env.pass
  have second := first.trans (Contended.follows_pass _ σ.env.pass.pass)
  have size : ρ.env.display.collection.size = σ.line.pairs.length :=
    size_of_follows serving ((σ.env.follows_pass _).trans second)
  obtain ⟨values, τ, chosen, taken, length, sized, drawn⟩ := run_chooseAll_contended (σ := ρ)
    faithful (fun _ => True) (Nat.le_of_eq size.symm) second.lt_length
  have spanned : max (tally ((σ.after (look d.id)).after tally).env).1 σ.chainLength =
      σ.line.pairs.length := by
    rw [show (tally ((σ.after (look d.id)).after tally).env).1 = σ.line.pairs.length from
      counted_of_follows serving ((σ.env.follows_pass _).trans first)]
    apply Nat.max_eq_left serving.short
  have sent : ∀ value ∈ values, Definition.Faithful.Sent d value := by
    intro value member
    obtain ⟨i, here⟩ := List.mem_iff_getElem?.mp member
    apply (drawn i value here).sent
  obtain ⟨c, after, run⟩ := syncProperty_writeMarked g faithful shared found travels serving.nonempty
    serving.few serving.unrecorded serving.yields pending (tally_contended serving d.id) spanned
    sent chosen
  refine ⟨_, run, values, sized, after, ?_, .of_clean (second.trans taken) drawn c⟩
  apply Nat.le_trans (Nat.le_of_eq length) serving.short

/-- What is found that is to be done for a property is done. -/
theorem syncProperty_contended {operation : Operation}
    (pending : σ.env.seen.operation? d.id = some operation) :
  ∃ τ, g.syncProperty d.id σ = ((), τ) ∧ Performed table d operation σ τ
  := by
  cases operation with
  | readAll => apply performed_readAll g serving shared carries carry found pending
  | broadcast => apply performed_broadcast g serving shared carries carry found pending
  | writeMarked => apply performed_writeMarked g serving shared carries carry found pending

end Operations

end Turns

end DaisyChain.Gateway
