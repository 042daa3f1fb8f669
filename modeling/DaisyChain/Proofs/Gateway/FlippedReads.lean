import DaisyChain.Proofs.Frame.Flips
import DaisyChain.Proofs.Gateway.Collecting
import DaisyChain.Proofs.Gateway.Scripted

/-!
# Reads over a line that flips a bit

What a read may claim if one bit of the answer of a chain has been flipped on its way.  A flipped
bit of the header is found by its parity.  A flipped bit of a frame leaves frames that say what
the nodes sent, up to one at most that says a proper beginning of a value, which no module takes.
So a read that succeeds has put the values of the nodes into their modules
(`readAll_of_flipped`).
-/

namespace DaisyChain

/-! ### Headers -/

/-- If one bit of a header is flipped, what arrives is a header without even parity. -/
theorem exists_header_flipped {h : RawHeader} (even : h.evenParity = true) {position : Nat}
    (within : position < 3) (bit : Fin 8) (rest : List UInt8) :
  ∃ h' : RawHeader, (h.toList ++ rest).modify position (flipBit bit) = h'.toList ++ rest ∧
    h'.evenParity = false
  := by
  obtain ⟨b0, b1, b2⟩ := h
  have odd0 := ones_flipBit bit b0
  have odd1 := ones_flipBit bit b1
  have odd2 := ones_flipBit bit b2
  simp only [RawHeader.evenParity, beq_iff_eq] at even
  simp only [RawHeader.evenParity, beq_eq_false_iff_ne]
  obtain rfl | rfl | rfl : position = 0 ∨ position = 1 ∨ position = 2 := by omega
  · exact ⟨⟨flipBit bit b0, b1, b2⟩, rfl, by simp only; omega⟩
  · exact ⟨⟨b0, flipBit bit b1, b2⟩, rfl, by simp only; omega⟩
  · exact ⟨⟨b0, b1, flipBit bit b2⟩, rfl, by simp only; omega⟩

/-- If one byte behind a header is changed, the header arrives as it was sent. -/
theorem modify_header (h : RawHeader) (rest : List UInt8) (position : Nat) (f : UInt8 → UInt8) :
  (h.toList ++ rest).modify (position + 3) f = h.toList ++ rest.modify position f
  := rfl

/-! ### Beginnings of values -/

/-- If a value can be recovered from data and from a beginning of them, that is all of them. -/
theorem PropertySize.eq_of_unwraps {size : PropertySize}
    {value value' data start : List UInt8}
    (begins : start <+: data) (read : size.unwrap start = .ok value)
    (read' : size.unwrap data = .ok value') :
  start = data
  := by
  apply begins.eq_of_length
  cases size with
  | static length =>
    simp only [unwrap] at read read'
    split at read
    · next first =>
      split at read'
      · next second => rw [first, second]
      · contradiction
    · contradiction
  | dynamic =>
    simp only [unwrap] at read read'
    split at read
    · contradiction
    · next long =>
      split at read
      · next number =>
        split at read'
        · contradiction
        · split at read'
          · next number' =>
            -- The lengths that the two announce are the same.
            obtain ⟨more, rfl⟩ := begins
            rw [List.take_append_of_le_length (Nat.le_of_not_lt long), number] at number'
            simp only [List.length_append, List.length_drop] at number' long ⊢
            omega
          · contradiction
      · contradiction

/-- The only error of data from which no value can be recovered. -/
theorem PropertySize.unwrap_error {size : PropertySize} {data : List UInt8} {error : Error}
    (fails : size.unwrap data = .error error) :
  error = .mismatch
  := by
  cases size with
  | static length =>
    simp only [unwrap] at fails
    split at fails <;> cases fails
    rfl
  | dynamic =>
    simp only [unwrap] at fails
    split at fails
    · cases fails
      rfl
    · split at fails <;> cases fails
      rfl

/-- A proper beginning of a value that was laid out is no value that was laid out. -/
theorem PropertySize.unwrap_of_prefix {size : PropertySize} {value data start : List UInt8}
    (wrapped : size.wrap value = .ok data) (begins : start <+: data) (proper : start ≠ data) :
  size.unwrap start = .error .mismatch
  := by
  cases read : size.unwrap start with
  | ok value' => exact (proper (eq_of_unwraps begins read (unwrap_of_wrap wrapped))).elim
  | error error => rw [unwrap_error read]

/-- A module that takes a value has been given it by the handler. -/
theorem Definition.set_of_deserialize {M : Type} {d : Definition M}
    {set : List UInt8 → M → Bool × M} {value data : List UInt8} {m : M}
    (settable : d.set = some set)
    (wrapped : d.size.wrap value = .ok data) (taken : (d.deserialize data m).1 = .ok ()) :
  set value m = (true, (d.deserialize data m).2)
  := by
  rw [deserialize_of_unwrap settable (PropertySize.unwrap_of_wrap wrapped)] at taken ⊢
  rcases put : set value m with ⟨_ | _, m'⟩
  · rw [put] at taken
    contradiction
  · rfl

/-- No module takes a proper beginning of a value. -/
theorem Definition.deserialize_of_prefix {M : Type} {d : Definition M}
    {value data start : List UInt8} (wrapped : d.size.wrap value = .ok data)
    (begins : start <+: data) (proper : start ≠ data) (m : M) :
  (d.deserialize start m).1 ≠ .ok ()
  := by
  rw [deserialize]
  cases d.set with
  | none => simp
  | some set => simp [PropertySize.unwrap_of_prefix wrapped begins proper]

namespace Gateway

variable {M : Type} {N : Nat} [Inhabited M]

/-! ### Reads -/

/-- What a chain answers to a read if its nodes send the given frames. -/
def answerOf (property : PropertyId) (batch : List (List UInt8)) : List UInt8 :=
  (ActionHeader.pack ⟨.read, false, property, batch.length⟩).toList ++ batch.flatten

omit [Inhabited M] in
/-- A read has nothing left to do if it succeeds. -/
theorem conclude_ok {S : Type} [Transport S] [Replica S M] (g : Gateway M) {trouble : Trouble}
    {τ τ' : Session S} (ok : (conclude g false trouble : Act S Unit).run τ = (.ok (), τ')) :
  trouble.missing = false ∧ trouble.refused = none ∧ τ' = τ
  := by
  rw [conclude] at ok
  cases missing : trouble.missing with
  | true =>
    rw [missing, if_pos (by simp)] at ok
    obtain ⟨categories, σ, -, rest⟩ := exists_of_run_bind ok
    cases rest
  | false =>
    rw [missing, if_neg (by simp)] at ok
    cases refused : trouble.refused with
    | some failure =>
      rw [refused] at ok
      cases ok
    | none =>
      rw [refused] at ok
      cases ok
      exact ⟨rfl, rfl, rfl⟩

/-- Frames that are neither empty nor placeholders say values. -/
theorem exists_values {frames : List Frame} (values : ∀ frame ∈ frames, frame ≠ .placeholder)
    (filled : .empty ∉ frames) :
  ∃ got : List (List UInt8), frames = got.map .data
  := by
  induction frames with
  | nil => exact ⟨[], rfl⟩
  | cons frame rest ih =>
    obtain ⟨got, rfl⟩ := ih (fun other member => values other (List.mem_cons_of_mem _ member))
      fun empty => filled (List.mem_cons_of_mem _ empty)
    cases frame with
    | data value => exact ⟨value :: got, rfl⟩
    | placeholder => exact (values _ List.mem_cons_self rfl).elim
    | empty => exact (filled List.mem_cons_self).elim

/-- A read that succeeds has received a header with even parity. -/
theorem evenParity_of_readAll {σ τ : Session (Site Script M N)} {property : PropertyId}
    {d : Definition M} (g : Gateway M) (real : property.number.toNat ≤ PropertyId.max)
    (found : g.table.find? property = some d) (readable : d.access.readable = true)
    (settable : d.set.isSome) {h : RawHeader} {input answer : List UInt8}
    (hears : σ.Hears input [h.toList ++ answer])
    (ok : (g.readAll property : Act _ Unit).run σ = (.ok (), τ)) :
  h.evenParity = true
  := by
  rw [readAll_eq g (PropertyId.isErrorQuery_of_le real) found readable settable] at ok
  obtain ⟨echo, σ₁, opened, -⟩ := exists_of_run_bind ok
  obtain ⟨l, -, opening⟩ := run_openRead_script g (PropertyId.travels_of_le real) hears
  rw [opening] at opened
  split at opened
  · next accepted => apply accepted.1
  · cases opened

/-- A read that succeeds has received as many values as the header says, and every module has taken
its value. -/
theorem exists_of_readAll {σ τ : Session (Site Script M N)} {property : PropertyId}
    {d : Definition M} (g : Gateway M) (real : property.number.toNat ≤ PropertyId.max)
    (found : g.table.find? property = some d) (readable : d.access.readable = true)
    (settable : d.set.isSome) {count : Nat} (few : count < countModulus) {h : RawHeader}
    {answer : List UInt8} (counted : h.count = count) (unflagged : h.flag = false)
    {input : List UInt8} (hears : σ.Hears input [h.toList ++ answer])
    (ok : (g.readAll property : Act _ Unit).run σ = (.ok (), τ)) :
  ∃ batch got rest,
    List.Forall₂ (fun bytes value => Frame.Whole bytes (.data value)) batch got ∧
    got.length = count ∧ answer = batch.flatten ++ rest ∧
    ∀ i < N, ∀ data, got[i]? = some data → ∃ e, τ.collection.entries[i]? = some e ∧
      d.deserialize data (σ.collection.entry i).module = (.ok (), e.module)
  := by
  have countable : count ≤ modulesMax := le_modulesMax few
  rw [readAll_eq g (PropertyId.isErrorQuery_of_le real) found readable settable] at ok
  obtain ⟨echo, σ₁, opened, ok⟩ := exists_of_run_bind ok
  obtain ⟨l, heard, opening⟩ := run_openRead_script g (PropertyId.travels_of_le real) hears
  rw [opening] at opened
  split at opened
  · next accepted =>
    cases opened
    rw [counted, unflagged, run_bind_ok (run_updateCount count _)] at ok
    obtain ⟨trouble, σ₂, received, ok⟩ := exists_of_run_bind ok
    obtain ⟨complete, accepted, rfl⟩ := conclude_ok g ok
    obtain ⟨batch, frames, rest, l', whole, length, values, arrived, rfl, rfl⟩ :=
      exists_of_receiveValues g d (heard.noted countable) received
    rw [missing_takeValues d 0 values, Bool.false_or, decide_eq_false_iff_not] at complete
    obtain ⟨got, rfl⟩ := exists_values values complete
    rw [List.length_map] at length
    let answers : List (Except Fault (List UInt8)) := got.map .ok
    have said : answers.map frameFrom = got.map .data := List.map_map
    have many : answers.length = count := (List.length_map _).trans length
    obtain ⟨entries, put, -, each, taken⟩ := takeValues_answers d answers
      (by rw [many]; exact countable) (σ.over l)
    rw [said, many] at put taken
    refine ⟨batch, got, rest, ?_, length, arrived, ?_⟩
    · rw [List.forall₂_map_right_iff] at whole
      apply whole
    · intro i room data here
      have sent : answers[i]? = some (.ok data) := by
        rw [List.getElem?_map, here]
        rfl
      have held := each i room (.ok data) sent
      have within := (List.getElem?_eq_some_iff.mp held).1
      exact ⟨(σ.collection.entry i).fed d (.ok data),
        (congrArg (fun s : Site Script M N => s.entries[i]?) put).trans held,
        Prod.ext (taken.mp accepted i within data sent) rfl⟩
  · cases opened

/-- A read succeeds if as many values arrive as the header says and every module takes its value. -/
theorem exists_readAll_ok {σ : Session (Site Script M N)} {property : PropertyId}
    {d : Definition M} (g : Gateway M) (real : property.number.toNat ≤ PropertyId.max)
    (found : g.table.find? property = some d) (readable : d.access.readable = true)
    (settable : d.set.isSome) {batch got : List (List UInt8)} {input rest : List UInt8}
    (few : got.length < countModulus) (sized : σ.collection.size ≤ modulesMax)
    (whole : List.Forall₂ (fun bytes value => Frame.Whole bytes (.data value)) batch got)
    (hears : σ.Hears input
      [(ActionHeader.pack ⟨.read, false, property, got.length⟩).toList ++ (batch.flatten ++ rest)])
    (taken : ∀ i < N, ∀ data, got[i]? = some data →
      (d.deserialize data (σ.collection.entry i).module).1 = .ok ()) :
  ∃ τ, (g.readAll property : Act _ Unit).run σ = (.ok (), τ)
  := by
  have countable : got.length ≤ modulesMax := le_modulesMax few
  have travels := PropertyId.travels_of_le real
  let answers : List (Except Fault (List UInt8)) := got.map .ok
  have said : answers.map frameFrom = got.map .data := List.map_map
  have many : answers.length = got.length := List.length_map _
  have whole' : List.Forall₂ Frame.Whole batch (got.map .data) := by
    rw [List.forall₂_map_right_iff]
    apply whole
  have values : ∀ frame ∈ got.map Frame.data, frame ≠ .placeholder := by
    rw [← said]
    apply frameFrom_ne_placeholder
  obtain ⟨l, heard, opening⟩ := run_openRead_script g travels hears
  rw [if_pos (by simp [travels.ofNat_wire])] at opening
  obtain ⟨l', received⟩ := run_receiveValues_script g d whole' values 0 {}
    (heard.noted countable)
  obtain ⟨entries, -, size, -, accepted⟩ := takeValues_answers d answers
    (by rw [many]; exact countable) (σ.over l)
  rw [said, many] at accepted
  rw [many] at size
  have noted := ((σ.over l).noted_collection countable).sized sized
  have complete : (takeValues d (got.map .data) 0 {}
      ((σ.over l).noted got.length).env).1.missing = false := by
    rw [missing_takeValues d 0 values]
    simp
  have held : (takeValues d (got.map .data) 0 {}
      ((σ.over l).noted got.length).env).1.refused = none := by
    apply accepted.mpr
    intro i within data sent
    have room : i < N := by omega
    rw [List.getElem?_map, Option.map_eq_some_iff] at sent
    obtain ⟨_, here, is⟩ := sent
    cases is
    apply taken i room data here
  rw [readAll_eq g (PropertyId.isErrorQuery_of_le real) found readable settable,
    run_bind_ok opening, ActionHeader.count_pack, ActionHeader.flag_pack, Nat.mod_eq_of_lt few,
    run_bind_ok (run_updateCount _ _)]
  rw [List.length_map] at received
  rw [run_bind_ok received]
  exact ⟨_, run_conclude g complete held _⟩

omit [Inhabited M] in
/-- Frames with values lay these values out. -/
theorem exists_laid {d : Definition M} {values batch : List (List UInt8)}
    (sent : List.Forall₂ (fun value bytes => ∃ data, d.size.wrap value = .ok data ∧
      Frame.encode data = .ok bytes) values batch) :
  ∃ laid, List.Forall₂ (fun value data => d.size.wrap value = .ok data) values laid ∧
    List.Forall₂ (fun bytes data => Frame.Whole bytes (.data data)) batch laid
  := by
  induction sent with
  | nil => exact ⟨[], .nil, .nil⟩
  | cons first _ ih =>
    obtain ⟨data, wrapped, fits⟩ := first
    obtain ⟨laid, wraps, whole⟩ := ih
    exact ⟨data :: laid, .cons wrapped wraps, .cons (Frame.whole_of_encode fits) whole⟩

omit [Inhabited M] in
/-- If every module takes what it has received, it has received what was sent. -/
theorem get?_of_spoilt {d : Definition M} {values laid got : List (List UInt8)} (modules : Nat → M)
    (wraps : List.Forall₂ (fun value data => d.size.wrap value = .ok data) values laid)
    (spoilt : Frame.Spoilt laid got)
    (taken : ∀ i < N, ∀ data, got[i]? = some data → (d.deserialize data (modules i)).1 = .ok ())
    {i : Nat} (room : i < N) (within : i < laid.length) :
  got[i]? = laid[i]?
  := by
  cases spoilt with
  | rfl => rfl
  | @cut data start front back back' begins proper =>
    by_cases before : i < front.length
    · rw [List.getElem?_append_left before, List.getElem?_append_left before]
    · -- The module of the frame that was cut short has not taken it.
      obtain ⟨value, here⟩ : ∃ value, values[front.length]? = some value := by
        refine ⟨_, List.getElem?_eq_getElem ?_⟩
        rw [wraps.length_eq, List.length_append, List.length_cons]
        omega
      have wrapped : d.size.wrap value = .ok data := by
        apply List.forall₂_zip wraps
        apply List.mem_of_getElem? (i := front.length)
        apply List.getElem?_zip_eq_some.mpr ⟨here, by simp⟩
      have got : (front ++ start :: back')[front.length]? = some start := by simp
      apply (Definition.deserialize_of_prefix wrapped begins proper _
        (taken front.length (by omega) start got)).elim

/-- A read that succeeds has put the values of the nodes into their modules, even if one bit of what
the nodes have sent has been flipped on its way. -/
theorem readAll_of_flipped {σ : Session (Site Script M N)} {property : PropertyId}
    {d : Definition M} {set : List UInt8 → M → Bool × M} (g : Gateway M)
    (real : property.number.toNat ≤ PropertyId.max) (found : g.table.find? property = some d)
    (readable : d.access.readable = true) (settable : d.set = some set)
    {values batch : List (List UInt8)}
    (sent : List.Forall₂ (fun value bytes => ∃ data, d.size.wrap value = .ok data ∧
      Frame.encode data = .ok bytes) values batch)
    (few : values.length < countModulus) {position : Nat}
    (within : position < (answerOf property batch).length) (bit : Fin 8)
    (fine : ∀ kind, σ.env.line.failing kind = none)
    (replies : σ.env.line.replies = [(answerOf property batch).modify position (flipBit bit)])
    {τ : Session (Site Script M N)}
    (ok : (g.readAll property : Act _ Unit).run σ = (.ok (), τ)) :
  ∀ i < N, ∀ value, values[i]? = some value → ∃ m, τ.collection.module? i = some m ∧
    set value (σ.collection.entry i).module = (true, m)
  := by
  let h := ActionHeader.pack ⟨.read, false, property, batch.length⟩
  have settable' : d.set.isSome := by
    rw [settable]
    rfl
  have counted : h.count = values.length := by
    rw [ActionHeader.count_pack, Nat.mod_eq_of_lt (sent.length_eq ▸ few), sent.length_eq]
  rw [answerOf] at within replies
  by_cases head : position < 3
  · -- A flipped bit of the header is found by its parity.
    obtain ⟨h', flipped, odd⟩ := exists_header_flipped (ActionHeader.evenParity_pack _) head bit
      batch.flatten
    rw [flipped] at replies
    have even := evenParity_of_readAll g real found readable settable' ⟨rfl, replies, fine⟩ ok
    rw [odd] at even
    contradiction
  · obtain ⟨behind, rfl⟩ : ∃ behind, position = behind + 3 := ⟨position - 3, by omega⟩
    have inside : behind < batch.flatten.length := by
      have header (h : RawHeader) : h.toList.length = 3 := rfl
      rw [List.length_append, header] at within
      omega
    obtain ⟨front, byte, back, stream, -, changed⟩ := exists_modify_eq inside (flipBit bit)
    rw [modify_header, changed] at replies
    obtain ⟨laid, wraps, whole⟩ := exists_laid sent
    obtain ⟨batch', got, rest, whole', length, arrived, held⟩ := exists_of_readAll g real found
      readable settable' few counted (ActionHeader.flag_pack _) ⟨rfl, replies, fine⟩ ok
    have spoilt := Frame.spoilt_of_changed whole whole' (length.trans wraps.length_eq) stream
      (flipBit_ne bit byte) arrived.symm
    intro i room value here
    have below := (List.getElem?_eq_some_iff.mp here).1
    have same := get?_of_spoilt (N := N) (fun i => (σ.collection.entry i).module) wraps
      spoilt (fun i room data got => by
        obtain ⟨e, -, taken⟩ := held i room data got
        rw [taken]) room (wraps.length_eq ▸ below)
    obtain ⟨data, there⟩ : ∃ data, laid[i]? = some data :=
      ⟨_, List.getElem?_eq_getElem (wraps.length_eq ▸ below)⟩
    obtain ⟨e, entry, taken⟩ := held i room data (same.trans there)
    refine ⟨e.module, congrArg (Option.map Entry.module) entry, ?_⟩
    have wrapped : d.size.wrap value = .ok data := by
      apply List.forall₂_zip wraps
      apply List.mem_of_getElem? (i := i)
      apply List.getElem?_zip_eq_some.mpr ⟨here, there⟩
    rw [Definition.set_of_deserialize settable wrapped (congrArg Prod.fst taken), taken]

/-- A property of two bytes. -/
def pairOf : Definition (List UInt8) where
  id := ⟨6⟩
  name := "offset"
  access := .readWrite
  size := .static 2
  get := some fun m _ => some m
  set := some fun bytes _ => (true, bytes)

/-- A line on which a bit of the second of two frames is flipped, so that it ends early, and a
display that has room for the first module alone. -/
def flippedSession : Session (Site Script (List UInt8) 1) where
  env := {
    line := {
      replies := [(answerOf ⟨6⟩ [[4, 1, 2, 252, 0], [2, 255, 1, 1, 0]]).modify 10 (flipBit 0)] } }

/-- A read succeeds although the frame of the second node has been cut short: the frame says a
value, but there is no module for it.  The first module holds the value of its node. -/
theorem readAll_of_flipped_second :
  ∃ τ, ((⟨⟨[pairOf]⟩, {}⟩ : Gateway (List UInt8)).readAll ⟨6⟩ : Act _ Unit).run flippedSession =
      (.ok (), τ) ∧ τ.collection.module? 0 = some [1, 2]
  := by
  let g : Gateway (List UInt8) := ⟨⟨[pairOf]⟩, {}⟩
  have first : Frame.Whole [4, 1, 2, 252, 0] (.data [1, 2]) := Frame.whole_of_encode rfl
  have second : Frame.Whole [2, 255, 0] (.data []) := Frame.whole_of_encode rfl
  have real : (⟨6⟩ : PropertyId).number.toNat ≤ PropertyId.max := by decide
  have arrived : flippedSession.Hears [] [(ActionHeader.pack ⟨.read, false, ⟨6⟩, 2⟩).toList ++
      ([[4, 1, 2, 252, 0], [2, 255, 0]].flatten ++ [1, 0])] :=
    ⟨rfl, by decide, fun _ => rfl⟩
  obtain ⟨τ, ok⟩ := exists_readAll_ok g real rfl rfl rfl (by decide) (by decide)
    (.cons first (.cons second .nil)) arrived (fun i room data got => by
      obtain rfl : i = 0 := by omega
      cases got
      rfl)
  have sent : List.Forall₂ (fun value bytes => ∃ data, pairOf.size.wrap value = .ok data ∧
      Frame.encode data = .ok bytes) [[1, 2], [255, 0]]
      [[4, 1, 2, 252, 0], [2, 255, 1, 1, 0]] :=
    .cons ⟨_, rfl, rfl⟩ (.cons ⟨_, rfl, rfl⟩ .nil)
  have within : 10 < (answerOf ⟨6⟩ [[4, 1, 2, 252, 0], [2, 255, 1, 1, 0]]).length := by decide
  obtain ⟨m, held, put⟩ := readAll_of_flipped g real rfl rfl rfl sent (by decide) within 0
    (fun _ => rfl) rfl ok 0 (by decide) [1, 2] rfl
  cases put
  exact ⟨τ, ok, held⟩

end Gateway

end DaisyChain
