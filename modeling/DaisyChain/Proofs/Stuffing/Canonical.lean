import DaisyChain.Proofs.Stuffing.Buffers
import DaisyChain.Proofs.Stuffing.Spelling

/-!
# Canonical blocks

Blocks are well formed if their code bytes lead from one to the next and in the end to the terminator
(`Codes`).  These blocks and no others stand for some bytes, and stuffing these bytes gives the blocks
again, but for one more block, which is empty, behind a last one that is full (`Spells.exists_codes`).

Blocks need not be cut before they are undone.  `decodeInto` follows the code bytes from place to place
and puts what it finds directly into a buffer.  It never looks at a place outside of the blocks, whatever
they hold, and finds what `decode` does (`decodeInto_eq`).

All of this together says which blocks are undone, and how far they are the only ones for what they stand
for (`decode_canonical`).
-/

namespace DaisyChain.Stuffing

/-! ### Following the code bytes -/

/-- From the given place on, each code byte tells how far away the next one is, and the last one leads to
the end.  These are the code bytes on the way; none of them is zero. -/
inductive Codes (body : List UInt8) : Nat → List UInt8 → Prop where
  | finish : Codes body body.length []
  | next {place : Nat} {code : UInt8} {codes : List UInt8} (here : body[place]? = some code)
    (nonzero : code ≠ 0) (behind : Codes body (place + code.toNat) codes) :
    Codes body place (code :: codes)

section Codes

variable {body bytes codes codes' : List UInt8} {place : Nat}

/-- Code bytes do not lead beyond the end. -/
theorem Codes.le_length (follows : Codes body place codes) :
  place ≤ body.length
  := by
  cases follows with
  | finish => exact Nat.le_refl _
  | next here => exact Nat.le_of_lt (List.getElem?_eq_some_iff.mp here).1

/-- There is one way to follow the code bytes. -/
theorem Codes.unique (follows : Codes body place codes) (follows' : Codes body place codes') :
  codes = codes'
  := by
  have apart {code : UInt8} (here : body[body.length]? = some code) : False := by simp at here
  induction follows generalizing codes' with
  | finish =>
    cases follows' with
    | finish => rfl
    | next here => exact (apart here).elim
  | next here _ _ ih =>
    cases follows' with
    | finish => exact (apart here).elim
    | next here' _ behind' =>
      obtain rfl := Option.some.inj (here.symm.trans here')
      rw [ih behind']

/-- There are no code bytes behind the end, and nowhere else. -/
theorem Codes.eq_nil_iff (follows : Codes body place codes) :
  codes = [] ↔ place = body.length
  := by
  constructor
  · rintro rfl
    cases follows
    rfl
  · rintro rfl
    exact follows.unique .finish

/-- Blocks whose code bytes lead to the end stand for some bytes. -/
theorem Codes.exists_spells (follows : Codes body place codes) :
  ∃ bytes, Spells (body.drop place) bytes
  := by
  induction follows with
  | finish =>
    rw [List.drop_length]
    exact ⟨[], .nothing⟩
  | @next place code codes here nonzero behind ih =>
    obtain ⟨more, spells⟩ := ih
    obtain ⟨within, is⟩ := List.getElem?_eq_some_iff.mp here
    have enough := behind.le_length
    have bound := code.toNat_lt
    have positive : code.toNat ≠ 0 := fun zero => nonzero (UInt8.toNat_inj.mp zero)
    -- The run is what stands between the code byte and the place that it leads to.
    let run := (body.drop (place + 1)).take (code.toNat - 1)
    have length : run.length = code.toNat - 1 := by
      rw [List.length_take, List.length_drop]
      omega
    have short : run.length ≤ runMax := by
      rw [length, runMax]
      omega
    have counts : UInt8.ofNat (run.length + 1) = code := by
      rw [length, Nat.sub_add_cancel (Nat.pos_of_ne_zero positive), UInt8.ofNat_toNat]
    have split : body.drop place = coded run ++ body.drop (place + code.toNat) := by
      have far : place + code.toNat = place + 1 + (code.toNat - 1) := by omega
      have further : body.drop (place + code.toNat) = (body.drop (place + 1)).drop (code.toNat - 1) := by
        rw [List.drop_drop, far]
      rw [List.drop_eq_getElem_cons within, is, further, coded, counts, List.cons_append,
        List.take_append_drop]
    rw [split]
    exact ⟨_, .block short spells⟩

/-- What stuffing puts behind blocks that have been undone: one more block, which is empty, if there is
none or the last one is full. -/
def closing (codes : List UInt8) : List UInt8 :=
  if codes = [] ∨ codes.getLast? = some 0xFF then [1] else []

/-- What is put behind blocks depends on the last one of them. -/
theorem closing_cons (code : UInt8) :
  closing (code :: codes) = if codes = [] then (if code = 0xFF then [1] else []) else closing codes
  := by
  cases codes with
  | nil => simp [closing]
  | cons next codes => simp [closing]

/-! ### Stuffing again -/

/-- Bytes other than zero lengthen the run that is open, as long as it is not full. -/
theorem blocksFrom_append {run more : List UInt8} (clean : 0 ∉ more)
    (short : run.length + more.length < runMax) (bytes : List UInt8) :
  blocksFrom run (more ++ bytes) = blocksFrom (run ++ more) bytes
  := by
  induction more generalizing run with
  | nil => rw [List.nil_append, List.append_nil]
  | cons b more ih =>
    rw [List.mem_cons, not_or] at clean
    rw [List.length_cons] at short
    rw [List.cons_append, blocksFrom, if_neg (Ne.symm clean.1), if_neg (by omega),
      ih clean.2 (by rw [List.length_append, List.length_singleton]; omega), List.append_assoc,
      List.singleton_append]

/-- Bytes other than zero open a run, as long as it is not full. -/
theorem blocksFrom_open {run : List UInt8} (clean : 0 ∉ run) (short : run.length < runMax)
    (bytes : List UInt8) :
  blocksFrom [] (run ++ bytes) = blocksFrom run bytes
  := by
  rw [blocksFrom_append clean (by rw [List.length_nil, Nat.zero_add]; exact short), List.nil_append]

/-- A full run is a block, whatever comes behind it. -/
theorem blocksFrom_full {run : List UInt8} (clean : 0 ∉ run) (full : run.length = runMax)
    (bytes : List UInt8) :
  blocksFrom [] (run ++ bytes) = coded run ++ blocksFrom [] bytes
  := by
  rcases List.eq_nil_or_concat' run with rfl | ⟨front, last, rfl⟩
  · contradiction
  · rw [List.mem_append, List.mem_singleton, not_or] at clean
    rw [List.length_append, List.length_singleton] at full
    rw [List.append_assoc, blocksFrom_open clean.1 (by omega), List.singleton_append, blocksFrom,
      if_neg (Ne.symm clean.2), if_pos full]

/-- Blocks that stand for some bytes have code bytes that lead to the end, and if they hold no zero, they
are what these bytes are stuffed into, but for a last block that is empty. -/
theorem Spells.exists_codes {rest : List UInt8} (spells : Spells rest bytes) (front : List UInt8) :
  ∃ codes, Codes (front ++ rest) front.length codes ∧
    (0 ∉ rest → blocksFrom [] bytes = rest ++ closing codes)
  := by
  induction spells generalizing front with
  | nothing =>
    refine ⟨[], ?_, fun _ => rfl⟩
    rw [List.append_nil]
    exact .finish
  | @block run rest more short behind ih =>
    obtain ⟨codes, follows, again⟩ := ih (front ++ coded run)
    have fits : run.length + 1 < 256 := by
      rw [runMax] at short
      omega
    have number : (UInt8.ofNat (run.length + 1)).toNat = run.length + 1 := by
      rw [UInt8.toNat_ofNat', Nat.mod_eq_of_lt fits]
    have full : UInt8.ofNat (run.length + 1) = 0xFF ↔ run.length = runMax := by
      rw [← UInt8.toNat_inj, number]
      change run.length + 1 = 254 + 1 ↔ run.length = 254
      omega
    have last : codes = [] ↔ rest = [] := by
      have sum := @List.length_append _ (front ++ coded run) rest
      rw [follows.eq_nil_iff, sum, Nat.left_eq_add, List.length_eq_zero_iff]
    refine ⟨UInt8.ofNat (run.length + 1) :: codes, ?_, fun clean => ?_⟩
    · apply Codes.next
      · rw [coded, List.cons_append, List.getElem?_append_right (Nat.le_refl _), Nat.sub_self,
          List.getElem?_cons_zero]
      · apply code_ne_zero short
      · rw [number, ← length_coded, ← List.length_append, ← List.append_assoc]
        exact follows
    · rw [coded, List.cons_append, List.mem_cons, List.mem_append, not_or, not_or] at clean
      obtain ⟨-, cleanRun, cleanRest⟩ := clean
      rw [closing_cons]
      by_cases ended : rest = []
      · -- The last block: what is behind it stands for nothing.
        have nothing : more = [] := by
          subst ended
          exact List.length_eq_zero_iff.mp (Nat.le_zero.mp behind.length_le)
        rw [if_pos (.inr ended), if_pos (last.mpr ended), ended, nothing, List.append_nil,
          List.append_nil]
        by_cases whole : run.length = runMax
        · have again := blocksFrom_full cleanRun whole []
          rw [List.append_nil] at again
          rw [again, if_pos (full.mpr whole)]
          rfl
        · have again := blocksFrom_open cleanRun (by omega) []
          rw [List.append_nil] at again
          rw [again, if_neg (mt full.mp whole), List.append_nil, blocksFrom]
      · rw [if_neg (mt last.mp ended), List.append_assoc, ← again cleanRest]
        by_cases whole : run.length = runMax
        · rw [if_pos (.inl whole), blocksFrom_full cleanRun whole]
        · rw [if_neg (not_or.mpr ⟨whole, ended⟩), blocksFrom_open cleanRun (by omega), blocksFrom,
            if_pos rfl]

/-- Blocks stand for fewer bytes than they take. -/
theorem Spells.length_lt (spells : Spells body bytes) (some : body ≠ []) :
  bytes.length < body.length
  := by
  induction spells with
  | nothing => contradiction
  | @block run rest more short behind ih =>
    have within := behind.length_le
    split
    · simp only [List.length_append, length_coded]
      omega
    · next further =>
      have fewer := ih fun last => further (.inr last)
      simp only [List.length_append, List.length_cons, length_coded]
      omega

end Codes

/-! ### Undoing blocks in place -/

/-- So many bytes of a block from the given place on.  There is no result if some of them lie outside. -/
def stretch (block : List UInt8) (place length : Nat) : Option (List UInt8) :=
  if place + length ≤ block.length then some ((block.drop place).take length) else none

/-- A buffer into which bytes are delivered one behind the other. -/
structure Delivery where
  buffer : List UInt8
  /-- The place of the next byte. -/
  next : Nat

namespace Delivery

/-- Deliver bytes, if the buffer has room for them. -/
def deliver (w : Delivery) (bytes : List UInt8) : Except Error Delivery :=
  if w.next + bytes.length ≤ w.buffer.length then
    .ok ⟨w.buffer.take w.next ++ bytes ++ w.buffer.drop (w.next + bytes.length),
      w.next + bytes.length⟩
  else
    .error .bufferTooSmall

end Delivery

/-- Undo the blocks from the given place up to the end.  There is no result if a byte outside of them was
looked at. -/
def decodeFrom (block : List UInt8) (finish place : Nat) (w : Delivery) :
    Option (Except Error Delivery) :=
  if _inside : place < finish then do
    let code ← block[place]?
    if _wrong : code = 0 ∨ finish < place + code.toNat then
      return .error .malformed
    else
      let run ← stretch block (place + 1) (code.toNat - 1)
      let delivered := do
        let w ← w.deliver run
        if code ≠ 0xFF ∧ place + code.toNat < finish then w.deliver [0] else .ok w
      match delivered with
      | .error e => return .error e
      | .ok w => decodeFrom block finish (place + code.toNat) w
  else
    return .ok w
termination_by finish - place
decreasing_by
  have positive : code.toNat ≠ 0 := fun zero => _wrong (.inl (UInt8.toNat_inj.mp zero))
  omega

/-- Undo a terminated block in the given buffer.  The result is the number of bytes found, and the buffer.
There is none if a byte outside of the block was looked at. -/
def decodeInto (buffer block : List UInt8) : Option (Except Error (Nat × List UInt8)) :=
  if block.getLast? = some 0 then
    (decodeFrom block (block.length - 1) 0 ⟨buffer, 0⟩).map
      (Except.map fun w => (w.next, w.buffer))
  else
    some (.error .missingTerminator)

namespace Delivery

/-- A buffer into which some bytes have been delivered. -/
def within (done back : List UInt8) : Delivery :=
  ⟨done ++ back, done.length⟩

/-- Bytes are delivered behind those that have been. -/
theorem deliver_within (done back bytes : List UInt8) :
  (within done back).deliver bytes =
    if back.length < bytes.length then .error .bufferTooSmall
    else .ok (within (done ++ bytes) (back.drop bytes.length))
  := by
  rw [deliver, within]
  simp only [List.length_append, Nat.add_le_add_iff_left]
  split
  · next enough =>
    have front : (done ++ back).take done.length = done := List.take_left
    have behind : (done ++ back).drop (done.length + bytes.length) = back.drop bytes.length := by
      rw [← List.drop_drop, List.drop_left]
    rw [if_neg (Nat.not_lt.mpr enough), front, behind, within, List.length_append]
  · next scant => rw [if_pos (Nat.not_le.mp scant)]

end Delivery

open Delivery

/-- Undoing a block in place: its run is delivered, and a zero behind it if more follows, unless the run
is full. -/
theorem decodeFrom_block (front : List UInt8) {code : UInt8} {body run rest : List UInt8}
    (split : body = run ++ rest) (length : run.length + 1 = code.toNat) (w : Delivery) :
  decodeFrom (front ++ code :: body ++ [0]) (front.length + (code :: body).length) front.length w =
    match (do
      let w ← w.deliver run
      if code ≠ 0xFF ∧ rest ≠ [] then w.deliver [0] else .ok w : Except Error Delivery) with
    | .error e => some (.error e)
    | .ok w =>
      decodeFrom (front ++ code :: run ++ rest ++ [0]) ((front ++ code :: run).length + rest.length)
        (front ++ code :: run).length w
  := by
  have here : (front ++ code :: body ++ [0])[front.length]? = some code := by simp
  have formed : ¬(code = 0 ∨ front.length + (code :: body).length < front.length + code.toNat) := by
    rintro (rfl | beyond)
    · contradiction
    · rw [split, List.length_cons, List.length_append] at beyond
      omega
  have found : stretch (front ++ code :: body ++ [0]) (front.length + 1) (code.toNat - 1) =
      some run := by
    have length' : code.toNat - 1 = run.length := by omega
    have before : (front ++ [code]).length = front.length + 1 := List.length_append
    have shape : front ++ code :: body ++ [0] = front ++ [code] ++ (run ++ (rest ++ [0])) := by
      simp [split]
    rw [stretch, length', shape, ← before, List.drop_left, List.take_left, if_pos]
    simp only [List.length_append]
    omega
  have place : front.length + code.toNat = (front ++ code :: run).length := by
    rw [List.length_append, List.length_cons, length]
  have finish : front.length + (code :: body).length = (front ++ code :: run).length + rest.length := by
    simp only [split, List.length_append, List.length_cons]
    omega
  have further : (front ++ code :: run).length < (front ++ code :: run).length + rest.length ↔
      rest ≠ [] := by
    rw [← List.length_pos_iff]
    omega
  have blocks : front ++ code :: body ++ [0] = front ++ code :: run ++ rest ++ [0] := by simp [split]
  rw [decodeFrom, dif_pos (by simp), here]
  simp only [Option.bind_eq_bind, Option.bind_some, dif_neg formed, found]
  rw [place, finish]
  simp only [further]
  rw [blocks]
  rfl

/-- A code byte that is well formed tells the length of its run. -/
theorem length_take_of_formed {code : UInt8} {body : List UInt8}
    (formed : ¬(code = 0 ∨ body.length < code.toNat - 1)) :
  (body.take (code.toNat - 1)).length + 1 = code.toNat
  := by
  obtain ⟨nonzero, enough⟩ := not_or.mp formed
  have positive : code.toNat ≠ 0 := fun zero => nonzero (UInt8.toNat_inj.mp zero)
  rw [List.length_take]
  omega

/-- Undoing blocks in place finds what they stand for, and puts it where it belongs. -/
theorem decodeFrom_eq (front rest done back : List UInt8) :
  decodeFrom (front ++ rest ++ [0]) (front.length + rest.length) front.length (within done back) =
    some ((unstuff back.length rest).map fun more => within (done ++ more) (back.drop more.length))
  := by
  generalize roomy : back.length = room
  fun_induction unstuff room rest generalizing front done back with
  | case1 room =>
    rw [decodeFrom, dif_neg (by simp)]
    simp [Except.map]
  | case2 room code body wrong =>
    have here : (front ++ code :: body ++ [0])[front.length]? = some code := by simp
    have wrong' : code = 0 ∨ front.length + (code :: body).length < front.length + code.toNat := by
      rw [List.length_cons]
      rcases wrong with zero | beyond
      · exact .inl zero
      · exact .inr (by omega)
    rw [decodeFrom, dif_pos (by simp), here]
    simp only [Option.bind_eq_bind, Option.bind_some, dif_pos wrong']
    rfl
  | case3 room code body formed run small =>
    have split : body = run ++ body.drop (code.toNat - 1) := (List.take_append_drop _ body).symm
    rw [decodeFrom_block front split (length_take_of_formed formed), deliver_within,
      if_pos (by omega)]
    rfl
  | case4 room code body formed run rest enough last ih =>
    have split : body = run ++ rest := (List.take_append_drop _ body).symm
    have single : ¬(code ≠ 0xFF ∧ rest ≠ []) := by
      rintro ⟨other, further⟩
      exact last.elim other further
    rw [decodeFrom_block front split (length_take_of_formed formed), deliver_within,
      if_neg (by omega)]
    simp only [bind, Except.bind, if_neg single]
    rw [ih _ _ _ (by rw [List.length_drop, roomy])]
    cases unstuff (room - run.length) rest with
    | error e => rfl
    | ok more => simp [Except.map, Functor.map]
  | case5 room code body formed run rest enough further none =>
    have split : body = run ++ rest := (List.take_append_drop _ body).symm
    have double : code ≠ 0xFF ∧ rest ≠ [] := not_or.mp further
    rw [decodeFrom_block front split (length_take_of_formed formed), deliver_within,
      if_neg (by omega)]
    simp only [bind, Except.bind, if_pos double]
    rw [deliver_within, if_pos (by rw [List.length_drop, List.length_singleton]; omega)]
    rfl
  | case6 room code body formed run rest enough further some ih =>
    have split : body = run ++ rest := (List.take_append_drop _ body).symm
    have double : code ≠ 0xFF ∧ rest ≠ [] := not_or.mp further
    rw [decodeFrom_block front split (length_take_of_formed formed), deliver_within,
      if_neg (by omega)]
    simp only [bind, Except.bind, if_pos double]
    rw [deliver_within, if_neg (by rw [List.length_drop, List.length_singleton]; omega)]
    simp only
    rw [ih _ _ _ (by rw [List.length_drop, List.length_drop, List.length_singleton, roomy])]
    cases unstuff (room - run.length - 1) rest with
    | error e => rfl
    | ok more =>
      have far : run.length + 1 + more.length = (run ++ 0 :: more).length := by
        rw [List.length_append, List.length_cons]
        omega
      simp [Except.map, Functor.map, far]

/-- Undoing a block in place never looks outside of it, finds what undoing it finds, and puts that at the
beginning of the buffer. -/
theorem decodeInto_eq (buffer block : List UInt8) :
  decodeInto buffer block =
    some ((decode buffer.length block).map fun out => (out.length, out ++ buffer.drop out.length))
  := by
  rw [decodeInto, decode]
  split
  · next ends =>
    have found := decodeFrom_eq [] block.dropLast [] buffer
    rw [List.nil_append, List.dropLast_append_getLast? 0 ends, List.length_nil, Nat.zero_add,
      List.length_dropLast] at found
    change (decodeFrom block (block.length - 1) 0 (within [] buffer)).map _ = _
    rw [found]
    cases unstuff buffer.length block.dropLast with
    | error e => rfl
    | ok out => simp [Except.map, within]
  · rfl

/-! ### Blocks are canonical -/

/-- Undoing a block in a buffer, which must be as long as the block, never looks outside of the block.  It
fails for a missing terminator if and only if there is none; otherwise it succeeds if and only if the code
bytes lead to the terminator, and fails for malformed blocks if they do not.  What is found is shorter than
the blocks.  If they hold no zero, stuffing it again gives the block as it was, unless the last one of the
blocks is full or there is none: then an empty one comes behind. -/
theorem decode_canonical (buffer block : List UInt8) :
  decodeInto buffer block =
    some ((decode buffer.length block).map fun out => (out.length, out ++ buffer.drop out.length)) ∧
  (block.length ≤ buffer.length →
    (decode buffer.length block = .error .missingTerminator ↔
      block = [] ∨ ∃ front last, block = front ++ [last] ∧ last ≠ 0) ∧
    ∀ body, block = body ++ [0] →
      ((∃ out, decode buffer.length block = .ok out) ↔ ∃ codes, Codes body 0 codes) ∧
      (decode buffer.length block = .error .malformed ↔ ¬∃ codes, Codes body 0 codes) ∧
      ∀ out, decode buffer.length block = .ok out →
        (body = [] → out.length = 0) ∧ (body ≠ [] → out.length ≤ body.length - 1) ∧
        (0 ∉ body → ∀ codes, Codes body 0 codes → ∀ room, maxLength out.length ≤ room →
          encode room out =
            .ok (if body = [] ∨ codes.getLast? = some 0xFF then body ++ [1, 0] else block)))
  := by
  refine ⟨decodeInto_eq buffer block, fun roomy => ⟨?_, ?_⟩⟩
  · rw [decode_eq_error_iff roomy]
    rcases List.eq_nil_or_concat' block with rfl | ⟨front, last, rfl⟩
    · simp
    · simp
  · rintro body rfl
    have formed : (∃ bytes, Stands (body ++ [0]) bytes) ↔ ∃ codes, Codes body 0 codes := by
      constructor
      · rintro ⟨bytes, body', same, spells⟩
        obtain rfl := List.append_cancel_right same
        obtain ⟨codes, follows, -⟩ := spells.exists_codes []
        exact ⟨codes, follows⟩
      · rintro ⟨codes, follows⟩
        obtain ⟨bytes, spells⟩ := follows.exists_spells
        exact ⟨bytes, body, rfl, spells⟩
    refine ⟨?_, ?_, fun out found => ?_⟩
    · simp only [decode_eq_ok_iff roomy, formed]
    · rw [decode_eq_error_iff roomy, ← formed]
      simp
    · obtain ⟨body', same, spells⟩ := (decode_eq_ok_iff roomy).mp found
      obtain rfl := List.append_cancel_right same
      refine ⟨?_, ?_, fun clean codes follows room enough => ?_⟩
      · rintro rfl
        exact Nat.le_zero.mp spells.length_le
      · intro some
        have fewer := spells.length_lt some
        omega
      · obtain ⟨codes', follows', again⟩ := spells.exists_codes []
        obtain rfl := follows.unique follows'
        have none : codes = [] ↔ body = [] := by
          rw [follows.eq_nil_iff, eq_comm, List.length_eq_zero_iff]
        rw [encode, if_neg (Nat.not_lt.mpr enough), stuff, again clean, closing]
        simp only [none]
        split <;> simp

/-- A full block with nothing behind it: what it stands for is stuffed with one more block. -/
theorem decode_canonical_full :
  let run : List UInt8 := List.replicate 254 66
  let body : List UInt8 := 255 :: run
  let buffer : List UInt8 := List.replicate 256 0xAA
  (body ++ [0]).length ≤ buffer.length ∧ Codes body 0 [255] ∧ 0 ∉ body ∧
    decode buffer.length (body ++ [0]) = .ok run ∧ encode 258 run = .ok (body ++ [1, 0])
  := by
  intro run body buffer
  have roomy : (body ++ [0]).length ≤ buffer.length := by decide +kernel
  have leads : 0 + (255 : UInt8).toNat = body.length := by decide +kernel
  have behind : Codes body (0 + (255 : UInt8).toNat) [] := leads ▸ .finish
  have follows : Codes body 0 [255] := .next rfl (by decide) behind
  have clean : 0 ∉ body := by decide +kernel
  have enough : maxLength run.length ≤ 258 := by decide +kernel
  obtain ⟨-, undone⟩ := decode_canonical buffer (body ++ [0])
  obtain ⟨-, known⟩ := undone roomy
  obtain ⟨-, -, again⟩ := known body rfl
  have found : decode buffer.length (body ++ [0]) = .ok run := by
    have short : run.length ≤ runMax := by decide +kernel
    have shape : coded run = body := by decide +kernel
    have spells : Spells (coded run ++ []) _ := .block short .nothing
    rw [if_pos (.inr rfl), List.append_nil, List.append_nil, shape] at spells
    exact (decode_eq_ok_iff roomy).mpr ⟨body, rfl, spells⟩
  refine ⟨roomy, follows, clean, found, ?_⟩
  have stuffed := (again run found).2.2 clean [255] follows 258 enough
  rw [if_pos (.inr rfl)] at stuffed
  exact stuffed

end DaisyChain.Stuffing
