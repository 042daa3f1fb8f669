import DaisyChain.Proofs.Node.Tame

/-!
# Writes on their way

A load is the header of a write or broadcast with the frames behind it.  What arrives at a node of
such a transaction is a beginning of the load with something behind it (`Load.Begun`), or it breaks
off within the load, where a barren stream stands in the place of a frame (`Load.Broken`).  What the
node sends on is of the same kind (`Load.Begun.digest`, `Load.Broken.digest`); the module of the
node stays as it is, or takes the value of its own frame (`Load.Begun.serves`,
`Load.Broken.module_eq`).
-/

namespace DaisyChain.Node

variable {M : Type} {table : Table M}

/-- A header with frames that follow it. -/
structure Load where
  header : RawHeader
  frames : List (List UInt8)

namespace Load

variable {l : Load}

/-- All bytes of a load. -/
def bytes (l : Load) : List UInt8 :=
  l.header.toList ++ l.frames.flatten

/-- A node accepts the header, which is that of a write or broadcast, and the frames are no more
than the node is to see. It may keep each of them. -/
structure Sound (l : Load) : Prop where
  accepted : accepts l.header = true
  written : l.header.action = .write ∨ l.header.action = .broadcast
  whole : ∀ bytes ∈ l.frames, ∃ frame, Frame.Whole bytes frame ∧ frame ≠ .empty
  few : l.frames.length ≤ framesAfter l.header

/-- All frames have followed that a node is to see. -/
def Complete (l : Load) : Prop :=
  l.frames.length = framesAfter l.header

/-- What a node sends on: a write leaves its last frame to the node, a broadcast keeps it. -/
def passed (l : Load) : Load where
  header := forward none l.header
  frames :=
    if l.header.action = .broadcast then l.frames else l.frames.take (framesAfter l.header - 1)

/-- What arrives is a beginning of the load, with something behind it if the load is complete. -/
def Begun (l : Load) (ends : List UInt8 → Prop) (stream : List UInt8) : Prop :=
  ∃ tail, ends tail ∧ (tail = [] ∨ l.Complete) ∧ stream <+: l.bytes ++ tail

/-- What arrives breaks off within the load, or a barren stream takes the place of one of its
frames. -/
def Broken (l : Load) (stream : List UInt8) : Prop :=
  ∃ j bad, j < framesAfter l.header ∧ j ≤ l.frames.length ∧
    Frame.Barren (j + 1 = framesAfter l.header) bad ∧
    stream <+: l.header.toList ++ ((l.frames.take j).flatten ++ bad)

/-- The module of a node stays as it was, or takes the value of the last frame that the node is to
see. -/
def Serves (l : Load) (table : Table M) (e : Engine) (m m' : M) : Prop :=
  m' = m ∨ ∃ own frame, l.frames[framesAfter l.header - 1]? = some own ∧ Frame.Whole own frame ∧
    m' = (Body.receive table e m (.ofHeader l.header) frame.value?).module

/-! ### Headers -/

namespace Sound

variable (sound : l.Sound)
include sound

/-- The header is not that of a read. -/
theorem ne_read :
  l.header.action ≠ .read
  := by
  rcases sound.written with is | is <;> simp [is]

/-- The header is one of three bytes. -/
theorem ne_sync :
  l.header.action ≠ .sync
  := by
  rcases sound.written with is | is <;> simp [is]

/-- Every frame is a whole one. -/
theorem exists_whole {bytes : List UInt8} (member : bytes ∈ l.frames) :
  ∃ frame, Frame.Whole bytes frame
  := by
  obtain ⟨frame, whole, -⟩ := sound.whole bytes member
  exact ⟨frame, whole⟩

/-- A node is to see its own frame at least. -/
theorem framesAfter_ne_zero :
  framesAfter l.header ≠ 0
  := by
  have accepted := sound.accepted
  rcases sound.written with is | is
  · simp only [accepts, is, framesAfter] at accepted ⊢
    simpa using (Bool.and_eq_true_iff.mp accepted).2
  · simp [framesAfter, is]

/-- The header leaves every node alike. -/
theorem forward_eq (record : Option Record) :
  forward record l.header = l.passed.header
  := by
  have first (r : Option Record) : forwardFirst r l.header.byte0 = l.header.byte0 :=
    if_neg fun told => sound.ne_read told.1
  simp only [passed, forward, first]

/-- The next node is to see one frame less of a write, and the same frame of a broadcast. -/
theorem framesAfter_passed :
  framesAfter l.passed.header =
    if l.header.action = .broadcast then 1 else framesAfter l.header - 1
  := by
  have some := sound.framesAfter_ne_zero
  rcases sound.written with is | is
  · have fits := l.header.count_lt
    simp only [framesAfter, passed, action_forward, is, count_forward, countAfter, countMax,
      countModulus] at some fits ⊢
    simp only [reduceCtorEq, if_false]
    omega
  · simp only [framesAfter, passed, action_forward, is, if_true]

/-- If a load is complete, so is what a node sends on of it. -/
theorem complete_passed (complete : l.Complete) :
  l.passed.Complete
  := by
  rw [Complete] at complete ⊢
  rw [sound.framesAfter_passed]
  rcases sound.written with is | is
  · simp only [passed, is, reduceCtorEq, if_false, List.length_take]
    omega
  · simp only [passed, is, if_true, complete, framesAfter]

end Sound

/-! ### Nodes that listen -/

variable {e : Engine} {m : M}

/-- What a node that listens makes of a complete load: it receives what its own frame says. -/
theorem Sound.digest_complete (sound : l.Sound) (table : Table M) (complete : l.Complete)
    (e : Engine) (m : M) (tail : List UInt8) :
  ∃ own frame, l.frames[framesAfter l.header - 1]? = some own ∧ Frame.Whole own frame ∧
    let b := Body.receive table e m (.ofHeader l.header) frame.value?
    (Body.listener e m).digest table (l.bytes ++ tail) =
      ((b.digest table tail).1, l.passed.bytes ++ (b.digest table tail).2)
  := by
  have even : l.header.evenParity = true := (Bool.and_eq_true_iff.mp sound.accepted).1
  have positive := sound.framesAfter_ne_zero
  rw [Complete] at complete
  obtain ⟨front, own, split⟩ : ∃ front own, l.frames = front ++ [own] := by
    rcases List.eq_nil_or_concat' l.frames with none | some
    · rw [none] at complete
      exact (positive complete.symm).elim
    · exact some
  obtain ⟨frame, mine, useful⟩ := sound.whole own (by simp [split])
  have length : framesAfter l.header = front.length + 1 := by simp [← complete, split]
  refine ⟨own, frame, by simp [split, length], mine, ?_⟩
  have others : ∀ bytes ∈ front, ∃ frame, Frame.Whole bytes frame := by
    intro bytes member
    apply sound.exists_whole (by simp [split, member])
  suffices all : (Body.listener e m).digest table l.bytes =
      (Body.receive table e m (.ofHeader l.header) frame.value?, l.passed.bytes) by
    rw [Body.digest_append, all]
  rw [bytes, bytes, split, ← sound.forward_eq e.record]
  rcases sound.written with is | is
  · have count : l.header.count = front.length + 1 := by simpa [framesAfter, is] using length
    have left : l.passed.frames = front := by simp [passed, is, split, length]
    rw [left, List.flatten_append, List.flatten_singleton]
    apply Body.digest_write table e m is even others count mine useful
  · have alone : front = [] := by simpa [framesAfter, is] using length
    have kept : l.passed.frames = [own] := by simp [passed, is, split, alone]
    rw [kept, alone, List.nil_append, List.flatten_singleton]
    apply Body.digest_broadcast table e m is even mine useful

/-- What a node that listens makes of a load that breaks off: it waits for the next frame. -/
theorem Sound.digest_partial (sound : l.Sound) (table : Table M) {j : Nat}
    (before : j < framesAfter l.header) (sent : j ≤ l.frames.length) (e : Engine) (m : M)
    (more : List UInt8) :
  let relaying := Body.during e m
    (.relaying (.ofHeader l.header) (framesAfter l.header - (j + 1)) .start)
  (Body.listener e m).digest table (l.header.toList ++ ((l.frames.take j).flatten ++ more)) =
    ((relaying.digest table more).1, l.passed.header.toList ++
      ((l.frames.take j).flatten ++ (relaying.digest table more).2))
  := by
  have turns : framesAfter l.header =
      (l.frames.take j).length + ((framesAfter l.header - (j + 1)) + 1) := by
    rw [List.length_take_of_le sent]
    omega
  have begun := Body.digest_begun table e m sound.ne_sync sound.accepted
    (fun bytes member => sound.exists_whole (List.mem_of_mem_take member)) turns
    (fun turn => sound.ne_read turn.1) more
  rw [sound.forward_eq] at begun
  apply begun

/-- A node that listens keeps its module as it is if a barren stream takes the place of a frame. -/
theorem Sound.module_partial (sound : l.Sound) (table : Table M) {j : Nat}
    (before : j < framesAfter l.header) (sent : j ≤ l.frames.length) {bad : List UInt8}
    (barren : Frame.Barren (j + 1 = framesAfter l.header) bad) (e : Engine) (m : M) :
  ((Body.listener e m).digest table
    (l.header.toList ++ ((l.frames.take j).flatten ++ bad))).1.module = m
  := by
  have awaits : j + 1 = framesAfter l.header →
      keeps (.ofHeader l.header) (framesAfter l.header - (j + 1)) = true := by
    intro last
    have written : (Request.ofHeader l.header).action ≠ .read := sound.ne_read
    simp [keeps, written, last]
  rw [sound.digest_partial table before sent e m bad]
  apply (Body.digest_barren table e m _ _ List.not_mem_nil (barren.mono awaits)).1

/-! ### Loads that begin -/

section Begun

variable {ends ends' : List UInt8 → Prop} {stream : List UInt8}

/-- Something else may come behind a load. -/
theorem Begun.mono (begun : l.Begun ends stream) (imp : ∀ tail, ends tail → ends' tail) :
  l.Begun ends' stream
  := by
  obtain ⟨tail, ended, cut, begins⟩ := begun
  exact ⟨tail, imp tail ended, cut, begins⟩

/-- A part of what begins a load begins it. -/
theorem Begun.of_begins (begun : l.Begun ends stream) {part : List UInt8}
    (begins : part <+: stream) :
  l.Begun ends part
  := by
  obtain ⟨tail, ended, cut, all⟩ := begun
  exact ⟨tail, ended, cut, begins.trans all⟩

/-- What a node that listens sends on of a load that begins is one that begins too, with behind it
what the node makes of what came behind. -/
theorem Begun.digest (begun : l.Begun ends stream) (sound : l.Sound) (nothing : ends' [])
    (hands : ∀ b : Body M, b.Between → ∀ tail, ends tail → ends' (b.digest table tail).2)
    (e : Engine) (m : M) :
  l.passed.Begun ends' ((Body.listener e m).digest table stream).2
  := by
  obtain ⟨tail, ended, cut, begins⟩ := begun
  have first := Body.digest_prefix table (.listener e m) begins
  by_cases complete : l.Complete
  · obtain ⟨own, frame, -, -, all⟩ := sound.digest_complete table complete e m tail
    simp only [all] at first
    exact ⟨_, hands _ (Body.between_receive table e m _ _) tail ended,
      .inr (sound.complete_passed complete), first⟩
  · obtain rfl := cut.resolve_right complete
    have fewer : l.frames.length < framesAfter l.header :=
      Nat.lt_of_le_of_ne sound.few complete
    have all := sound.digest_partial table fewer (Nat.le_refl _) e m []
    simp only [Body.digest_nil (Body.waiting_relaying e m _ _ _), List.take_length,
      List.append_nil] at all
    have whole : l.passed.frames = l.frames := by
      simp only [passed]
      split
      · rfl
      · apply List.take_of_length_le (by omega)
    rw [List.append_nil, bytes, all] at first
    refine ⟨[], nothing, .inl rfl, ?_⟩
    rw [List.append_nil, bytes, whole]
    apply first

/-- A node that listens stays as it is or takes the value of its own frame if a load begins, as long
as what comes behind is tame. -/
theorem Begun.serves (begun : l.Begun ends stream) (sound : l.Sound) {bound : Nat}
    (few : bound + 1 < countModulus) (tame : ∀ tail, ends tail → Tamed bound tail) (e : Engine)
    (m : M) :
  l.Serves table e m ((Body.listener e m).digest table stream).1.module
  := by
  obtain ⟨tail, ended, cut, begins⟩ := begun
  rw [bytes, List.append_assoc] at begins
  rcases prefix_append_cases begins with part | ⟨behind, further, rfl⟩
  · exact .inl (Body.module_header table e m sound.ne_sync sound.accepted part)
  · rcases Frame.prefix_of_flatten (fun _ member => sound.exists_whole member) further with
      ⟨more, later, rfl⟩ | ⟨j, some, part, clean, rfl⟩
    · by_cases complete : l.Complete
      · obtain ⟨own, frame, here, mine, all⟩ :=
          sound.digest_complete table complete e m more
        rw [← List.append_assoc]
        refine .inr ⟨own, frame, here, mine, ?_⟩
        rw [show l.header.toList ++ l.frames.flatten = l.bytes from rfl, all]
        obtain ⟨full, tamed, start⟩ := tame tail ended
        apply Tamed.module_eq ⟨full, tamed, later.trans start⟩ few
          (Body.between_receive table e m _ _)
      · obtain rfl := cut.resolve_right complete
        obtain rfl := List.prefix_nil.mp later
        have fewer : l.frames.length < framesAfter l.header :=
          Nat.lt_of_le_of_ne sound.few complete
        have all := sound.module_partial table fewer (Nat.le_refl _)
          (Frame.barren_of_clean List.not_mem_nil) e m
        rw [List.take_length] at all
        exact .inl all
    · exact .inl (sound.module_partial table (Nat.lt_of_lt_of_le some sound.few) (Nat.le_of_lt some)
        (Frame.barren_of_clean clean) e m)

end Begun

/-! ### Loads that break off -/

section Broken

variable {stream : List UInt8}

/-- A part of a load that breaks off breaks off. -/
theorem Broken.of_begins (broken : l.Broken stream) {part : List UInt8} (begins : part <+: stream) :
  l.Broken part
  := by
  obtain ⟨j, bad, before, sent, barren, all⟩ := broken
  exact ⟨j, bad, before, sent, barren, begins.trans all⟩

/-- If a load breaks off, what a node that listens sends on of it breaks off too; or it is all of a
write that the next node is to see, if the frame of the node itself was to come next, and zeros come
behind. -/
theorem Broken.digest (broken : l.Broken stream) (sound : l.Sound) (e : Engine) (m : M) :
  l.passed.Broken ((Body.listener e m).digest table stream).2 ∨
    l.header.action = .write ∧ l.passed.Begun (fun tail => ∃ n, tail = List.replicate n 0)
      ((Body.listener e m).digest table stream).2
  := by
  obtain ⟨j, bad, before, sent, barren, begins⟩ := broken
  have first := Body.digest_prefix table (.listener e m) begins
  rw [sound.digest_partial table before sent e m bad] at first
  have keep : keeps (.ofHeader l.header) (framesAfter l.header - (j + 1)) = true ↔
      j + 1 = framesAfter l.header := by
    have written : (Request.ofHeader l.header).action ≠ .read := sound.ne_read
    simp only [keeps, written, ne_eq, not_false_iff, true_and, decide_eq_true_iff]
    omega
  obtain ⟨-, bad', zeros⟩ := Body.digest_barren table e m (.ofHeader l.header)
    (framesAfter l.header - (j + 1)) (List.not_mem_nil (a := 0))
    (show Frame.Barren _ ([] ++ bad) from barren.mono keep.mpr)
  rw [show Frame.Collector.start = ⟨[], false⟩ from rfl] at first
  generalize ((Body.during e m (.relaying (.ofHeader l.header) (framesAfter l.header - (j + 1))
    ⟨[], false⟩)).digest table bad).2 = out at first bad' zeros
  have shared : passes (.ofHeader l.header) (framesAfter l.header - (j + 1)) =
      decide (framesAfter l.header - (j + 1) ≠ 0 ∨ l.header.action = .broadcast) := rfl
  have next := sound.framesAfter_passed
  rcases sound.written with is | is
  · have frames : l.passed.frames = l.frames.take (framesAfter l.header - 1) := by
      simp [passed, is]
    have same : (l.passed.frames.take j) = l.frames.take j := by
      rw [frames, List.take_take, Nat.min_eq_left (by omega)]
    simp only [is, reduceCtorEq, if_false] at next
    by_cases last : j + 1 = framesAfter l.header
    · -- The node awaits its own frame, which it does not send on.
      right
      obtain ⟨n, rfl⟩ := zeros (by rw [shared, last]; simp [is])
      have all : l.passed.frames = l.frames.take j := by
        rw [frames, ← last, Nat.add_sub_cancel]
      refine ⟨is, _, ⟨n, rfl⟩, .inr ?_, ?_⟩
      · rw [Complete, next, all, List.length_take_of_le sent]
        omega
      · rw [bytes, all, List.append_assoc]
        apply first
    · left
      refine ⟨j, out, by omega, ?_, ?_, ?_⟩
      · rw [frames, List.length_take]
        omega
      · have pass := bad' (by simp [shared]; omega)
        apply pass.mono fun kept => (last (keep.mp kept)).elim
      · rw [same]
        apply first
  · left
    have alone : framesAfter l.header = 1 := by simp only [framesAfter, is]
    obtain rfl : j = 0 := by omega
    simp only [is, if_true] at next
    refine ⟨0, out, by omega, Nat.zero_le _, ?_, ?_⟩
    · have pass := bad' (by simp [shared, is])
      apply pass.mono fun _ => next.symm
    · rw [List.take_zero] at first ⊢
      apply first

/-- If a load breaks off, the module of a node that listens stays as it is. -/
theorem Broken.module_eq (broken : l.Broken stream) (sound : l.Sound) (e : Engine) (m : M) :
  ((Body.listener e m).digest table stream).1.module = m
  := by
  obtain ⟨j, bad, before, sent, barren, begins⟩ := broken
  rcases prefix_append_cases begins with part | ⟨behind, further, rfl⟩
  · apply Body.module_header table e m sound.ne_sync sound.accepted part
  · rcases Frame.prefix_of_flatten
        (fun _ member => sound.exists_whole (List.mem_of_mem_take member)) further with
      ⟨part, later, rfl⟩ | ⟨i, some, part, clean, rfl⟩
    · apply sound.module_partial table before sent (barren.of_begins later)
    · rw [List.length_take_of_le sent] at some
      rw [List.take_take, Nat.min_eq_left (Nat.le_of_lt some)]
      apply sound.module_partial table (Nat.lt_trans some before) (by omega)
        (Frame.barren_of_clean clean)

end Broken

/-! ### Frames without an end -/

/-- With the part of the last frame of a complete write that has arrived, a node waits for the end of
the frame, which is its own. -/
theorem Sound.digest_waiting (sound : l.Sound) (table : Table M)
    (isWrite : l.header.action = .write) (complete : l.Complete) {front : List (List UInt8)}
    {own : List UInt8} (split : l.frames = front ++ [own]) {body : List UInt8} (clean : 0 ∉ body)
    (fits : body.length ≤ frameMax) (e : Engine) (m : M) (more : List UInt8) :
  let relaying := Body.during e m (.relaying (.ofHeader l.header) 0 ⟨body, false⟩)
  (Body.listener e m).digest table (l.header.toList ++ (front.flatten ++ (body ++ more))) =
    ((relaying.digest table more).1, l.passed.bytes ++ (relaying.digest table more).2)
  := by
  intro relaying
  rw [Complete, split, List.length_append, List.length_singleton] at complete
  have sent : front.length ≤ l.frames.length := by simp [split]
  have taken : l.frames.take front.length = front := by simp [split]
  have left : l.passed.frames = front := by simp [passed, isWrite, split, ← complete]
  have last : framesAfter l.header - (front.length + 1) = 0 := by omega
  have block : passes (.ofHeader l.header) 0 = false := by simp [passes, Request.ofHeader, isWrite]
  have begun := sound.digest_partial table (by omega) sent e m (body ++ more)
  rw [taken, last] at begun
  have room : ([] : List UInt8).length + body.length ≤ frameMax := by simpa using fits
  have opens := Body.digest_open table e m (.ofHeader l.header) 0 clean room more
  rw [block] at opens
  rw [show Frame.Collector.start = ⟨[], false⟩ from rfl] at begun
  simp only [opens, List.nil_append, Bool.false_eq_true, if_false] at begun
  rw [begun, bytes, left]
  simp only [relaying, List.append_assoc]

/-- What a node that listens makes of a complete write whose last frame has lost its terminator,
with no more than a single byte behind it: it sends on what it would have sent on, and nothing
behind; its module stays as it is, or takes what the frame says if that byte ends it. -/
theorem Sound.digest_unended (sound : l.Sound) (table : Table M)
    (isWrite : l.header.action = .write) (complete : l.Complete) {front : List (List UInt8)}
    {own : List UInt8} (split : l.frames = front ++ [own]) {body tail stream : List UInt8}
    (clean : 0 ∉ body) (fits : body.length ≤ frameMax) (short : tail.length ≤ 1)
    (begins : stream <+: l.header.toList ++ (front.flatten ++ (body ++ tail))) (e : Engine)
    (m : M) :
  let r := (Body.listener e m).digest table stream
  r.2 <+: l.passed.bytes ∧ (r.1.module = m ∨
    ∃ value, Frame.decode (body ++ [0]) = .ok (.data value) ∧
      r.1.module = (Body.receive table e m (.ofHeader l.header) (some value)).module)
  := by
  intro r
  have waits := sound.digest_waiting table isWrite complete split clean fits e m
  have all : (l.header.toList ++ (front.flatten ++ body)) ++ tail =
      l.header.toList ++ (front.flatten ++ (body ++ tail)) := by simp
  rw [← all] at begins
  rcases prefix_append_cases begins with part | ⟨more, later, rfl⟩
  · constructor
    · have first := Body.digest_prefix table (.listener e m) part
      have whole := waits []
      rw [List.append_nil] at whole
      rw [whole] at first
      simp only [Body.digest_nil (Body.waiting_relaying e m _ _ _), List.append_nil] at first
      apply first
    · left
      rw [Complete, split, List.length_append, List.length_singleton] at complete
      refine Broken.module_eq
        ⟨front.length, body, by omega, by simp [split], Frame.barren_of_clean clean, ?_⟩ sound e m
      rw [split, List.take_left]
      apply part
  · have whole := waits more
    rw [show l.header.toList ++ (front.flatten ++ (body ++ more)) =
      l.header.toList ++ (front.flatten ++ body) ++ more by simp] at whole
    simp only [r, whole]
    cases more with
    | nil =>
      rw [Body.digest_nil (Body.waiting_relaying e m _ _ _), List.append_nil]
      exact ⟨List.prefix_refl _, .inl rfl⟩
    | cons byte rest =>
      obtain rfl : rest = [] := by
        have length := Nat.le_trans later.length_le short
        apply List.eq_nil_of_length_eq_zero
        rw [List.length_cons] at length
        omega
      obtain ⟨silent, module⟩ := Body.digest_single table e m (.ofHeader l.header) body isWrite
        byte
      rw [silent, List.append_nil]
      refine ⟨List.prefix_refl _, module.imp_right ?_⟩
      rintro ⟨value, -, reads, is⟩
      exact ⟨value, reads, is⟩

end Load

end DaisyChain.Node
