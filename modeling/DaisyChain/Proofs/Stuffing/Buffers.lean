import DaisyChain.Proofs.Frame.Whole
import DaisyChain.Proofs.Stuffing.Lengths

/-!
# Stuffing in a buffer

Blocks need not be put together before they are sent.  `encodeInto` puts the bytes of a run directly
into the buffer, and the code byte before them once the run has ended; it looks at every byte once and
at none of the buffer.  It never puts a byte outside of the buffer, leaves what is behind the
terminator as it was, and so does what `encode` does (`encodeInto_eq`).

Bytes of any length can be stuffed, within known bounds and without a zero but the last, and they are
recovered (`encode_exact`).
-/

namespace DaisyChain.Stuffing

/-! ### Writers -/

/-- Put a byte into a buffer.  There is no result if its place lies outside of the buffer. -/
def put (buffer : List UInt8) (place : Nat) (b : UInt8) : Option (List UInt8) :=
  if place < buffer.length then some (buffer.set place b) else none

/-- A buffer into which blocks are written. -/
structure Writer where
  buffer : List UInt8
  /-- The place of the code byte of the run that is open. -/
  place : Nat
  /-- The place of the next byte. -/
  next : Nat
  /-- The code byte of the run that is open. -/
  code : UInt8

namespace Writer

/-- Nothing has been written. -/
def start (buffer : List UInt8) : Writer :=
  ⟨buffer, 0, 1, 1⟩

/-- End the run that is open, and open the next one. -/
def close (w : Writer) : Option Writer := do
  let buffer ← put w.buffer w.place w.code
  return ⟨buffer, w.next, w.next + 1, 1⟩

/-- Make the run that is open longer by a byte. -/
def extend (w : Writer) (b : UInt8) : Option Writer := do
  let buffer ← put w.buffer w.next b
  return { w with buffer := buffer, next := w.next + 1, code := w.code + 1 }

/-- Write one byte. -/
def write (w : Writer) (b : UInt8) : Option Writer := do
  if b = 0 then
    w.close
  else
    let longer ← w.extend b
    if longer.code = 0xFF then longer.close else return longer

/-- End the last run and write the terminator.  The result is the number of bytes written, and the
buffer. -/
def finish (w : Writer) : Option (Nat × List UInt8) := do
  let coded ← put w.buffer w.place w.code
  let ended ← put coded w.next 0
  return (w.next + 1, ended)

end Writer

/-- Stuff into the given buffer, which must suffice for the worst case.  There is no result if a byte
was put outside of it. -/
def encodeInto (buffer bytes : List UInt8) : Option (Except Error (Nat × List UInt8)) :=
  if buffer.length < maxLength bytes.length then
    some (.error .bufferTooSmall)
  else do
    let w ← bytes.foldlM Writer.write (.start buffer)
    let written ← w.finish
    return .ok written

/-- A byte is put in the place of another one. -/
theorem put_length (front back : List UInt8) (old b : UInt8) :
  put (front ++ old :: back) front.length b = some (front ++ b :: back)
  := by
  rw [put, if_pos (by simp), List.set_append_right _ _ (Nat.le_refl _), Nat.sub_self,
    List.set_cons_zero]

namespace Writer

/-- A writer that has written some blocks, and a part of a run behind the place of its code byte. -/
def within (blocks : List UInt8) (old : UInt8) (run back : List UInt8) : Writer where
  buffer := blocks ++ old :: (run ++ back)
  place := blocks.length
  next := blocks.length + 1 + run.length
  code := UInt8.ofNat (run.length + 1)

variable (blocks run back : List UInt8) (old other : UInt8)

/-- Another byte is put behind the run. -/
theorem put_next (b : UInt8) :
  put (blocks ++ old :: (run ++ other :: back)) (blocks.length + 1 + run.length) b =
    some (blocks ++ old :: (run ++ b :: back))
  := by
  have front (back : List UInt8) : blocks ++ old :: (run ++ back) = blocks ++ old :: run ++ back := by
    rw [List.append_assoc, List.cons_append]
  have length : (blocks ++ old :: run).length = blocks.length + 1 + run.length := by
    rw [List.length_append, List.length_cons]
    omega
  rw [front, front, ← length, put_length]

/-- With its code byte, a run is a block. -/
theorem put_place :
  put (blocks ++ old :: (run ++ other :: back)) blocks.length (UInt8.ofNat (run.length + 1)) =
    some (blocks ++ coded run ++ other :: back)
  := by rw [put_length, coded, List.append_assoc, List.cons_append]

/-- Behind a run is behind its block. -/
theorem length_append_coded :
  (blocks ++ coded run).length = blocks.length + 1 + run.length
  := by
  rw [List.length_append, length_coded]
  omega

/-- A run that ends becomes a block. -/
theorem close_within :
  (within blocks old run (other :: back)).close = some (within (blocks ++ coded run) other [] back)
  := by
  rw [close, within, put_place, within, length_append_coded]
  rfl

/-- A run becomes longer. -/
theorem extend_within (b : UInt8) :
  (within blocks old run (other :: back)).extend b = some (within blocks old (run ++ [b]) back)
  := by
  have length : (run ++ [b]).length = run.length + 1 := by simp
  have code : UInt8.ofNat (run.length + 1 + 1) = UInt8.ofNat (run.length + 1) + 1 :=
    UInt8.ofNat_add (run.length + 1) 1
  rw [extend, within, put_next, within, length, code, List.append_assoc, List.singleton_append,
    ← Nat.add_assoc]
  rfl

/-- The code byte tells whether a run is full. -/
theorem code_within {run : List UInt8} (short : run.length ≤ runMax) :
  (within blocks old run back).code = 0xFF ↔ run.length = runMax
  := by
  rw [runMax] at short ⊢
  change UInt8.ofNat (run.length + 1) = 0xFF ↔ _
  rw [← UInt8.toNat_inj, UInt8.toNat_ofNat', Nat.mod_eq_of_lt (by omega)]
  change run.length + 1 = 255 ↔ _
  omega

/-- The last run becomes a block, and the terminator is put behind it. -/
theorem finish_within :
  (within blocks old run (other :: back)).finish =
    some ((blocks ++ coded run).length + 1, blocks ++ coded run ++ 0 :: back)
  := by
  have ended := put_length (blocks ++ coded run) back other 0
  rw [finish, within, put_place, ← length_append_coded]
  change (put (blocks ++ coded run ++ other :: back) (blocks ++ coded run).length 0 >>= _) = _
  rw [ended]
  rfl

/-- As long as the blocks fit the buffer, they are what is written. -/
theorem foldlM_within {run : List UInt8} (short : run.length < runMax) (filled bytes : List UInt8)
    (fits : (blocksFrom run bytes).length = run.length + filled.length) :
  (bytes.foldlM write (within blocks old run (filled ++ back)) >>= finish) =
    some ((blocks ++ blocksFrom run bytes).length + 1, blocks ++ blocksFrom run bytes ++ 0 :: back)
  := by
  induction bytes generalizing blocks old run filled with
  | nil =>
    obtain _ | ⟨other, _ | ⟨_, _⟩⟩ := filled
    · simp [blocksFrom] at fits
    · apply finish_within
    · simp [blocksFrom] at fits
  | cons b rest ih =>
    have enough := length_blocksFrom run (b :: rest) short
    rw [List.length_cons] at enough
    obtain _ | ⟨other, filled⟩ := filled
    · rw [List.length_nil] at fits
      omega
    rw [List.length_cons] at fits
    rw [List.foldlM_cons, List.cons_append, bind_assoc]
    rw [blocksFrom] at fits ⊢
    split
    · next zero =>
      rw [if_pos zero, List.length_append, length_coded] at fits
      rw [write, if_pos zero, close_within, ← List.append_assoc]
      apply ih (blocks ++ coded run) other (by decide) filled
      rw [List.length_nil]
      omega
    · next nonzero =>
      have longer : (run ++ [b]).length = run.length + 1 := by simp
      have within : (run ++ [b]).length ≤ runMax := by omega
      have code := code_within blocks (filled ++ back) old within
      rw [if_neg nonzero] at fits
      rw [write, if_neg nonzero, extend_within]
      split
      · next full =>
        rw [if_pos full, List.length_append, length_coded, longer] at fits
        have enough := length_blocksFrom [] rest (by decide)
        obtain _ | ⟨other, filled⟩ := filled
        · rw [List.length_nil] at fits
          omega
        rw [List.length_cons] at fits
        change ((if _ then _ else _ : Option Writer) >>= _) = _
        rw [if_pos (code.mpr (longer.trans full)), List.cons_append, close_within,
          ← List.append_assoc]
        apply ih (blocks ++ coded (run ++ [b])) other (by decide) filled
        rw [List.length_nil]
        omega
      · next notFull =>
        rw [if_neg notFull] at fits
        change ((if _ then _ else _ : Option Writer) >>= _) = _
        rw [if_neg fun full => notFull (longer.symm.trans (code.mp full))]
        apply ih blocks old (by omega) filled
        omega

end Writer

/-- Stuffing in a buffer puts the stuffed bytes at its beginning and leaves what is behind them as it
was. -/
theorem encodeInto_eq (buffer bytes : List UInt8) :
  encodeInto buffer bytes =
    some ((encode buffer.length bytes).map fun out => (out.length, out ++ buffer.drop out.length))
  := by
  rw [encodeInto, encode]
  split
  · rfl
  · next enough =>
    have most := length_stuff_le bytes
    have least := le_length_stuff bytes
    have length : (stuff bytes).length = (blocksFrom [] bytes).length + 1 := by
      rw [stuff, List.length_append, List.length_singleton]
    obtain _ | ⟨old, rest⟩ := buffer
    · rw [List.length_nil] at enough
      omega
    rw [List.length_cons] at enough
    let back := rest.drop (blocksFrom [] bytes).length
    have parts : rest = rest.take (blocksFrom [] bytes).length ++ back :=
      (List.take_append_drop _ rest).symm
    have written := Writer.foldlM_within [] back old (show [].length < runMax by decide)
      (rest.take (blocksFrom [] bytes).length) bytes (by rw [List.length_take, List.length_nil]; omega)
    rw [← parts] at written
    change (bytes.foldlM Writer.write (.within [] old [] rest) >>= fun w => w.finish >>= _) = _
    rw [← bind_assoc, written]
    change some (Except.ok ((blocksFrom [] bytes).length + 1, blocksFrom [] bytes ++ 0 :: back)) =
      some (Except.ok ((stuff bytes).length, stuff bytes ++ (old :: rest).drop (stuff bytes).length))
    rw [length, List.drop_succ_cons, stuff, List.append_assoc]
    rfl

/-! ### Stuffing is exact -/

/-- Stuffing fails if and only if the buffer does not suffice for the worst case.  Otherwise the
stuffed bytes are put at the beginning of the buffer, and nothing is put anywhere else; they are at
least two more than the bytes, and not more than in the worst case; the last of them is zero, and no
other one is; and any buffer that can hold the bytes recovers them. -/
theorem encode_exact (buffer bytes : List UInt8) :
  (encode buffer.length bytes = .error .bufferTooSmall ↔
    buffer.length < maxLength bytes.length) ∧
  (encodeInto buffer bytes = some (.error .bufferTooSmall) ↔
    buffer.length < maxLength bytes.length) ∧
  (maxLength bytes.length ≤ buffer.length →
    ∃ out, encode buffer.length bytes = .ok out ∧
      encodeInto buffer bytes = some (.ok (out.length, out ++ buffer.drop out.length)) ∧
      bytes.length + 2 ≤ out.length ∧ out.length ≤ maxLength bytes.length ∧
      (∃ body, out = body ++ [0] ∧ 0 ∉ body) ∧
      ∀ room, bytes.length ≤ room → decode room out = .ok bytes)
  := by
  have fails : encode buffer.length bytes = .error .bufferTooSmall ↔
      buffer.length < maxLength bytes.length := by
    rw [encode]
    split <;> simp_all
  refine ⟨fails, ?_, fun enough => ?_⟩
  · rw [encodeInto_eq, ← fails]
    cases encode buffer.length bytes <;> simp [Except.map]
  · have encoded : encode buffer.length bytes = .ok (stuff bytes) :=
      if_neg (Nat.not_lt.mpr enough)
    refine ⟨stuff bytes, encoded, ?_, le_length_stuff bytes, length_stuff_le bytes,
      Frame.ends_stuff bytes, fun room fits => decode_stuff fits⟩
    rw [encodeInto_eq, encoded]
    rfl

/-- A run of the greatest length: the block that it fills is followed by one more, which is empty. -/
theorem encode_exact_full :
  let bytes : List UInt8 := List.replicate 254 66
  let buffer : List UInt8 := List.replicate 260 0xAA
  let out : List UInt8 := 255 :: List.replicate 254 66 ++ [1, 0]
  maxLength bytes.length ≤ buffer.length ∧
    encodeInto buffer bytes = some (.ok (257, out ++ [0xAA, 0xAA, 0xAA])) ∧
    bytes.length ≤ 254 ∧ decode 254 out = .ok bytes
  := by
  intro bytes buffer out
  have enough : maxLength bytes.length ≤ buffer.length := by decide +kernel
  have fits : bytes.length ≤ 254 := by decide +kernel
  have stuffed : stuff bytes = out := by decide +kernel
  have length : out.length = 257 := by decide +kernel
  have rest : buffer.drop 257 = [0xAA, 0xAA, 0xAA] := by decide +kernel
  obtain ⟨out', encoded, written, -, -, -, recovered⟩ := (encode_exact buffer bytes).2.2 enough
  have same : encode buffer.length bytes = .ok out := by
    rw [← stuffed]
    exact if_neg (Nat.not_lt.mpr enough)
  have is : out' = out := Except.ok.inj (encoded.symm.trans same)
  rw [is, length, rest] at written
  rw [is] at recovered
  exact ⟨enough, written, fits, recovered 254 fits⟩

end DaisyChain.Stuffing
