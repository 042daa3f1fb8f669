import DaisyChain.Proofs.Frame.Damage

/-!
# What blocks stand for

Which bytes some blocks stand for can be said without a buffer, block by block (`Spells`).  Unstuffing
finds these bytes if its buffer can hold them (`Spells.unstuff_eq`), and finds none that the blocks do
not stand for (`spells_of_unstuff`).  Blocks never stand for more bytes than they take, so in a buffer
of their own length nothing but malformed blocks can be refused (`eq_malformed_of_unstuff`).
-/

namespace DaisyChain.Stuffing

/-- Blocks, without the terminator, stand for some bytes.  Behind each run but the last one a zero is
implied, unless the run is full. -/
inductive Spells : List UInt8 → List UInt8 → Prop where
  | nothing : Spells [] []
  | block {run rest more : List UInt8} (short : run.length ≤ runMax) (behind : Spells rest more) :
    Spells (coded run ++ rest)
      (if run.length = runMax ∨ rest = [] then run ++ more else run ++ 0 :: more)

variable {room : Nat} {body bytes bytes' : List UInt8}

/-- Blocks stand for as many bytes as they take, at most. -/
theorem Spells.length_le (spells : Spells body bytes) :
  bytes.length ≤ body.length
  := by
  induction spells with
  | nothing => exact Nat.le_refl 0
  | block short behind ih =>
    split <;> simp only [List.length_append, List.length_cons, length_coded] <;> omega

/-- What blocks stand for is found in a buffer that can hold it. -/
theorem Spells.unstuff_eq (spells : Spells body bytes) (fits : bytes.length ≤ room) :
  unstuff room body = .ok bytes
  := by
  induction spells generalizing room with
  | nothing => rw [unstuff]
  | @block run rest more short behind ih =>
    split at fits
    · next last =>
      rw [List.length_append] at fits
      rw [unstuff_coded short (by omega), if_pos last, if_pos last, ih (by omega)]
      rfl
    · next further =>
      rw [List.length_append, List.length_cons] at fits
      rw [unstuff_coded short (by omega), if_neg further, if_neg further, if_neg (by omega),
        ih (by omega)]
      rfl

/-- What is found is what the blocks stand for. -/
theorem spells_of_unstuff {room : Nat} {body bytes : List UInt8}
    (read : unstuff room body = .ok bytes) :
  Spells body bytes
  := by
  cases body with
  | nil =>
    rw [unstuff] at read
    cases read
    exact .nothing
  | cons code body =>
    obtain ⟨run, rest, room', more, rfl, length, behind, rfl⟩ := exists_of_unstuff read
    have bound := code.toNat_lt
    have short : run.length ≤ runMax := by
      rw [runMax]
      omega
    have is : UInt8.ofNat (run.length + 1) = code := by rw [length, UInt8.ofNat_toNat]
    have full : code = 0xFF ↔ run.length = runMax := by
      rw [← UInt8.toNat_inj, ← length]
      change run.length + 1 = 254 + 1 ↔ run.length = 254
      omega
    have block := Spells.block short (spells_of_unstuff behind)
    rw [coded, is] at block
    simp only [joined, full]
    exact block
termination_by body.length

/-- Blocks stand for one sequence of bytes at most. -/
theorem Spells.unique (spells : Spells body bytes) (spells' : Spells body bytes') :
  bytes = bytes'
  := by
  have read := spells.unstuff_eq (Nat.le_max_left bytes.length bytes'.length)
  rw [spells'.unstuff_eq (Nat.le_max_right _ _)] at read
  exact (Except.ok.inj read).symm

/-- A buffer of the length of the blocks is never too small. -/
theorem eq_malformed_of_unstuff {e : Error} (roomy : body.length ≤ room)
    (read : unstuff room body = .error e) :
  e = .malformed
  := by
  have mapped {α : Type} {f : List UInt8 → α} {x : Except Error (List UInt8)}
      (is : f <$> x = .error e) : x = .error e := by
    cases x with
    | error e' => exact congrArg Except.error (Except.error.inj is)
    | ok _ => contradiction
  have parts (n : Nat) (body : List UInt8) :
      (body.take n).length + (body.drop n).length = body.length := by
    rw [← List.length_append, List.take_append_drop]
  fun_induction unstuff room body with
  | case1 => contradiction
  | case2 =>
    cases read
    rfl
  | case3 room code body _ run small =>
    have sum : run.length + _ = body.length := parts _ body
    rw [List.length_cons] at roomy
    omega
  | case4 room code body _ run rest _ _ ih =>
    have sum : run.length + rest.length = body.length := parts _ body
    rw [List.length_cons] at roomy
    apply ih (by omega) (mapped read)
  | case5 room code body _ run rest _ _ full =>
    have sum : run.length + rest.length = body.length := parts _ body
    rw [List.length_cons] at roomy
    omega
  | case6 room code body _ run rest _ _ _ ih =>
    have sum : run.length + rest.length = body.length := parts _ body
    rw [List.length_cons] at roomy
    apply ih (by omega) (mapped read)

/-! ### Terminated blocks -/

/-- Blocks with their terminator stand for some bytes. -/
def Stands (block bytes : List UInt8) : Prop :=
  ∃ body, block = body ++ [0] ∧ Spells body bytes

variable {block : List UInt8}

/-- Blocks with their terminator stand for one sequence of bytes at most. -/
theorem Stands.unique (stands : Stands block bytes) (stands' : Stands block bytes') :
  bytes = bytes'
  := by
  obtain ⟨body, rfl, spells⟩ := stands
  obtain ⟨body', same, spells'⟩ := stands'
  obtain rfl := List.append_cancel_right same
  apply spells.unique spells'

/-- What is decoded is what the blocks stand for. -/
theorem decode_eq_ok_iff (roomy : block.length ≤ room) :
  decode room block = .ok bytes ↔ Stands block bytes
  := by
  constructor
  · intro read
    rw [decode] at read
    split at read
    · next ends =>
      exact ⟨block.dropLast, (List.dropLast_append_getLast? 0 ends).symm, spells_of_unstuff read⟩
    · contradiction
  · rintro ⟨body, rfl, spells⟩
    have fits := spells.length_le
    rw [List.length_append, List.length_singleton] at roomy
    rw [decode, if_pos (by simp), List.dropLast_concat, spells.unstuff_eq (by omega)]

/-- Nothing but a missing terminator and malformed blocks is refused. -/
theorem decode_eq_error_iff {e : Error} (roomy : block.length ≤ room) :
  decode room block = .error e ↔
    e = .missingTerminator ∧ block.getLast? ≠ some 0 ∨
      e = .malformed ∧ block.getLast? = some 0 ∧ ∀ bytes, ¬Stands block bytes
  := by
  by_cases ends : block.getLast? = some 0
  · have malformed {e : Error} (read : decode room block = .error e) : e = .malformed := by
      rw [decode, if_pos ends] at read
      apply eq_malformed_of_unstuff _ read
      rw [List.length_dropLast]
      omega
    constructor
    · intro read
      refine .inr ⟨malformed read, ends, fun bytes stands => ?_⟩
      rw [(decode_eq_ok_iff roomy).mpr stands] at read
      contradiction
    · rintro (⟨-, unended⟩ | ⟨rfl, -, none⟩)
      · contradiction
      · cases read : decode room block with
        | ok bytes => exact absurd ((decode_eq_ok_iff roomy).mp read) (none bytes)
        | error e => rw [malformed read]
  · rw [decode, if_neg ends]
    simp [ends, eq_comm]

end DaisyChain.Stuffing
