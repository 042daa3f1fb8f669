import DaisyChain.Proofs.Frame.Lengths
import DaisyChain.Proofs.Gateway.Reaching
import DaisyChain.Proofs.Gateway.Scripted
import DaisyChain.Proofs.Property.Sizes

/-!
# How long writes are

How many bytes a write to each node sends before the gateway listens.  The frame for a node takes three bytes
more than a value, whether it carries one or is a placeholder, and a byte more yet if it carries a dense one
(`length_of_sealed`).  So which nodes are skipped makes no difference but for those whose values are dense
(`exists_run_writeEach`), and values of 252 bytes or fewer never are (`denseBelow_eq_zero`).
-/

namespace DaisyChain.Gateway

/-! ### What has been sent -/

/-- The bytes that a call sends. -/
def Call.sent : Call → List UInt8
  | .write bytes => bytes
  | _ => []

namespace Script

/-- The bytes that have been sent so far, in their order. -/
def sent (s : Script) : List UInt8 :=
  s.log.reverse.flatMap Call.sent

/-- What a call sends comes last. -/
@[simp]
theorem sent_note (s : Script) (call : Call) :
  (s.note call).sent = s.sent ++ call.sent
  := by
  simp [sent, note]

/-- Nothing is sent when a reply arrives. -/
@[simp]
theorem sent_reply (s : Script) :
  s.reply.sent = s.sent
  := by
  rw [reply]
  split <;> rfl

end Script

variable {M : Type} {N : Nat} {σ : Session (Site Script M N)}

/-- What is sent comes last. -/
theorem exists_run_send_sent (fine : ∀ kind, σ.env.line.failing kind = none) (bytes : List UInt8) :
  ∃ l : Script, (∀ kind, l.failing kind = none) ∧ l.sent = σ.env.line.sent ++ bytes ∧
    (send bytes : Act (Site Script M N) Unit).run σ = (.ok (), σ.over l)
  := by
  refine ⟨_, fun kind => ?_, ?_, run_send_fine fine bytes⟩
  · rw [Script.reply]
    split <;> exact fine kind
  · rw [Script.sent_reply, Script.sent_note, Call.sent]

/-! ### The frames of a write -/

section Frames

variable {d : Definition M} {property : PropertyId} {size : UInt16}

/-- The value that a write means for a node is dense; it is not if the write means none. -/
def dense (d : Definition M) (means : Option M) : Bool :=
  means.any fun m => Frame.Dense (d.value m)

/-- The number of nodes below the given index for which a write means a dense value. -/
def denseBelow (d : Definition M) (means : Nat → Option M) (index : Nat) : Nat :=
  (List.range index).countP fun i => dense d (means i)

/-- The nodes below the next index are those below an index, and the one of that index. -/
theorem denseBelow_succ (d : Definition M) (means : Nat → Option M) (index : Nat) :
  denseBelow d means (index + 1) = denseBelow d means index + if dense d (means index) then 1 else 0
  := by
  rw [denseBelow, List.range_succ, List.countP_append, List.countP_singleton]
  rfl

/-- No value is dense if all of them are short. -/
theorem denseBelow_eq_zero (static : d.size = .static size) (short : size.toNat ≤ 252)
    {means : Nat → Option M} {index : Nat}
    (laid : ∀ i < index, ∀ m, means i = some m → d.serialize m = .ok (d.value m)) :
  denseBelow d means index = 0
  := by
  rw [denseBelow, List.countP_eq_zero]
  intro i among
  cases meant : means i with
  | none => simp [dense]
  | some m =>
    have length := Definition.length_value_of_static static (laid i (List.mem_range.mp among) m meant)
    have sparse : ¬Frame.Dense (d.value m) := fun dense => by
      have long := dense.le_length
      omega
    simpa [dense] using sparse

/-- The frame for a node is three bytes longer than a value, whether it carries one or is a placeholder, and
a byte longer yet if it carries a dense one. -/
theorem length_of_sealed (static : d.size = .static size) {means : Option M}
    (laid : ∀ m, means = some m → d.serialize m = .ok (d.value m)) {bytes : List UInt8}
    (closed : sealed d (means.map d.value) = .ok bytes) :
  bytes.length = size.toNat + 3 + if dense d means then 1 else 0
  := by
  cases means with
  | none =>
    rw [Option.map_none, sealed, static] at closed
    exact Frame.length_eq_of_placeholderOf closed
  | some m =>
    have length := Frame.length_eq_of_encode closed
    rw [Definition.length_value_of_static static (laid m rfl)] at length
    simpa [dense] using length

variable [Inhabited M]

/-- The frames of a write are as long as their number and the number of dense values say. -/
theorem length_of_sendValues (static : d.size = .static size) (fits : size.toNat ≤ valueMax)
    {index count : Nat} (fine : ∀ kind, σ.env.line.failing kind = none)
    (laid : ∀ i < index, ∀ m, σ.env.display.collection.meant property (.each count) i = some m →
      d.serialize m = .ok (d.value m)) :
  ∃ l : Script, (sendValues d property index : Act (Site Script M N) Unit).run σ = (.ok (), σ.over l) ∧
    l.sent.length = σ.env.line.sent.length + index * (size.toNat + 3) +
      denseBelow d (σ.env.display.collection.meant property (.each count)) index
  := by
  induction index generalizing σ with
  | zero => exact ⟨σ.env.line, rfl, by simp [denseBelow]⟩
  | succ index ih =>
    have small : placeholderLength d.size ≤ valueMax := by rw [static]; exact fits
    have here := laid index (Nat.lt_succ_self _)
    obtain ⟨bytes, closed⟩ := exists_sealed_of_meant small here
    obtain ⟨l, further, sent, sending⟩ := exists_run_send_sent fine bytes
    obtain ⟨l', run, length⟩ := ih (σ := σ.over l) further fun i below =>
      laid i (Nat.lt_succ_of_lt below)
    refine ⟨l', ?_, ?_⟩
    · rw [sendValues, run_bind_frameFor (run_choose_of_meant here) closed, run_bind_ok sending, run]
      rfl
    · rw [length]
      change l.sent.length + _ + denseBelow d (σ.env.display.collection.meant property _) index = _
      rw [sent, List.length_append, length_of_sealed static here closed, denseBelow_succ, Nat.succ_mul]
      omega

end Frames

/-! ### Writes -/

section Writes

variable {S : Type} [Transport S] [Replica S M]

/-- What is left of a write to each of the given number of nodes once its frames have been sent. -/
def finishWrite (g : Gateway M) (property : PropertyId) (count : Nat) (staged : Bool) : Act S Unit := do
  let echo ← g.receiveEcho .write property staged
  if echo.count ≠ 0 then updateCount (count - echo.count)
  g.confirm

/-- The header of a write to each of the given number of nodes. -/
def writeHeader (property : PropertyId) (count : Nat) (staged : Bool) : ActionHeader :=
  ⟨.write, staged, ⟨UInt8.ofNat property.wire⟩, count % countModulus⟩

/-- A write sends its header and its frames and is then to be finished. -/
theorem writeEach_eq (g : Gateway M) (d : Definition M) (property : PropertyId) {count : Nat}
    (some : count ≠ 0) (staged : Bool) :
  (g.writeEach d property count staged : Act S Unit) = (do
    flush
    send (writeHeader property count staged).pack.toList
    sendValues d property count
    g.finishWrite property count staged)
  := by
  have header : ActionHeader.of? .write staged property count =
      Option.some (writeHeader property count staged) := rfl
  rw [writeEach, if_neg some, header]
  rfl

end Writes

/-- A write of the property to so many nodes can be sent: no call on the line will fail, and there are values
of the modules that wait to be written. -/
structure Session.Sendable (σ : Session (Site Script M N)) (d : Definition M) (property : PropertyId)
    (count : Nat) : Prop where
  fine : ∀ kind, σ.env.line.failing kind = none
  some : count ≠ 0
  laid : ∀ index < count, ∀ m,
    σ.env.display.collection.meant property (.each count) index = Option.some m →
      d.serialize m = .ok (d.value m)

/-- Whatever the nodes for which it means values, a write sends its header and then as many bytes for each
node, but for one more byte for each dense value. -/
theorem exists_run_writeEach [Inhabited M] (g : Gateway M) {d : Definition M} {size : UInt16}
    (static : d.size = .static size) (fits : size.toNat ≤ valueMax) {property : PropertyId} {count : Nat}
    (staged : Bool) (sendable : σ.Sendable d property count) :
  ∃ l : Script, (g.writeEach d property count staged : Act _ Unit).run σ =
      (g.finishWrite property count staged : Act _ Unit).run (σ.over l) ∧
    l.sent.length = σ.env.line.sent.length + 3 + count * (size.toNat + 3) +
      denseBelow d (σ.env.display.collection.meant property (.each count)) count
  := by
  let l := { σ.env.line with input := [] }.note (.flush σ.env.line.input.length)
  have flushing : (flush : Act _ Unit).run σ = (.ok (), σ.over l) := run_flush_fine sendable.fine
  have unsent : l.sent = σ.env.line.sent := (Script.sent_note _ _).trans (List.append_nil _)
  obtain ⟨l₁, fine, opened, opening⟩ := exists_run_send_sent (σ := σ.over l) sendable.fine
    (writeHeader property count staged).pack.toList
  obtain ⟨l₂, sending, length⟩ := length_of_sendValues (σ := σ.over l₁) static fits fine sendable.laid
  refine ⟨l₂, ?_, length.trans ?_⟩
  · rw [writeEach_eq g d property sendable.some, run_bind_ok flushing,
      run_bind_ok opening]
    apply run_bind_ok sending
  · change l₁.sent.length + _ + _ = _
    rw [opened, List.length_append]
    change l.sent.length + 3 + _ + _ = _
    rw [unsent]
    rfl

/-- The frame with a value is as long as the placeholder that may take its place, unless the value is dense:
then it is longer by a byte.  Only values of 253 and 254 bytes can be dense.  So a write to each node sends the
same number of bytes before the gateway listens, whichever nodes it skips, but for one more byte for each dense
value. -/
theorem placeholders_keep_length (size : UInt16) (fits : size.toNat ≤ 254) :
  (∀ value : List UInt8, value.length = size.toNat →
    ∃ frame place, Frame.encode value = .ok frame ∧ Frame.placeholderOf size.toNat = .ok place ∧
      place.length = size.toNat + 3 ∧
      frame.length = place.length + (if Frame.Dense value then 1 else 0) ∧
      (Frame.Dense value → 253 ≤ size.toNat)) ∧
  ∀ {M : Type} {N : Nat} [Inhabited M] (g : Gateway M) (d : Definition M) (property : PropertyId)
    (count : Nat) (staged : Bool) (σ : Session (Site Script M N)),
    d.size = .static size → σ.Sendable d property count →
    ∃ l : Script, (g.writeEach d property count staged : Act _ Unit).run σ =
        (g.finishWrite property count staged : Act _ Unit).run (σ.over l) ∧
      l.sent.length = σ.env.line.sent.length + 3 + count * (size.toNat + 3) +
        denseBelow d (σ.env.display.collection.meant property (.each count)) count ∧
      (size.toNat ≤ 252 →
        denseBelow d (σ.env.display.collection.meant property (.each count)) count = 0)
  := by
  refine ⟨fun value length => ?_, fun g d property count staged σ static sendable => ?_⟩
  · have sent : Frame.encode value = .ok (Stuffing.stuff (value ++ [Frame.checksum value])) :=
      Frame.encode_eq_ok_iff.mpr ⟨length ▸ fits, rfl⟩
    have placed : Frame.placeholderOf size.toNat =
        .ok (Stuffing.stuff (List.replicate (size.toNat + 1) 0)) :=
      Frame.placeholderOf_eq_ok_iff.mpr ⟨fits, rfl⟩
    have place := Frame.length_eq_of_placeholderOf placed
    refine ⟨_, _, sent, placed, place, ?_, fun dense => length ▸ dense.le_length⟩
    rw [place, Frame.length_eq_of_encode sent, length]
  · obtain ⟨l, run, sent⟩ := exists_run_writeEach g static fits staged sendable
    exact ⟨l, run, sent, fun short => denseBelow_eq_zero static short sendable.laid⟩

/-- A property of 253 bytes, which a module holds as they are. -/
def inscription : Definition (List UInt8) where
  id := ⟨6⟩
  name := "inscription"
  access := .readWrite
  size := .static 253
  get := some fun text _ => some text

/-- A value of 253 bytes without a zero, whose checksum is no zero either. -/
def denseText : List UInt8 := List.replicate 253 1

/-- A silent line, and a display of two modules, of which the first one waits to be written and holds a dense
value. -/
def denseSession : Session (Site Script (List UInt8) 2) where
  env := {
    line := {}
    display := { collection := {
      entries := [{ module := denseText, marks := PropertySet.empty.insert ⟨6⟩ },
        { module := List.replicate 253 0 }] } } }

/-- The frame with the dense value takes a byte more than its placeholder, and so does the write with it. -/
theorem placeholders_keep_length_dense :
  ∃ frame place, Frame.encode denseText = .ok frame ∧ Frame.placeholderOf 253 = .ok place ∧
    place.length = 256 ∧ frame.length = 257 ∧
    ∃ l : Script,
      ((⟨⟨[inscription]⟩, {}⟩ : Gateway _).writeEach inscription ⟨6⟩ 2 false : Act _ Unit).run denseSession =
        ((⟨⟨[inscription]⟩, {}⟩ : Gateway _).finishWrite ⟨6⟩ 2 false : Act _ Unit).run (denseSession.over l) ∧
      l.sent.length = 3 + 2 * 256 + 1
  := by
  obtain ⟨frames, writes⟩ := placeholders_keep_length 253 (by decide)
  obtain ⟨frame, place, sent, placed, short, long, -⟩ := frames denseText (by decide +kernel)
  have laid : inscription.serialize denseText = .ok (inscription.value denseText) := by decide +kernel
  have first : denseSession.env.display.collection.meant ⟨6⟩ (.each 2) 0 = some denseText := rfl
  have second : denseSession.env.display.collection.meant ⟨6⟩ (.each 2) 1 = none := rfl
  have sendable : denseSession.Sendable inscription ⟨6⟩ 2 := by
    refine ⟨fun _ => rfl, by decide, fun index below m meant => ?_⟩
    match index with
    | 0 =>
      rw [first] at meant
      exact Option.some.inj meant ▸ laid
    | 1 =>
      rw [second] at meant
      exact absurd meant.symm (Option.some_ne_none m)
  obtain ⟨l, run, length, -⟩ := writes ⟨⟨[inscription]⟩, {}⟩ inscription ⟨6⟩ 2 false denseSession rfl sendable
  have dense : Frame.Dense denseText := by decide +kernel
  have one : denseBelow inscription
      (denseSession.env.display.collection.meant ⟨6⟩ (.each 2)) 2 = 1 := by decide +kernel
  rw [if_pos dense, short] at long
  rw [one] at length
  exact ⟨frame, place, sent, placed, short, long, l, run, length⟩

/-- A frame is not always as long as the placeholder for its value. -/
theorem placeholder_shorter :
  denseText.length = 253 ∧ (Frame.encode denseText).map List.length = .ok 257 ∧
    (Frame.placeholderOf 253).map List.length = .ok 256
  := by decide +kernel

end DaisyChain.Gateway
