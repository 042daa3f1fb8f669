import DaisyChain.Proofs.Frame.Barren
import DaisyChain.Proofs.Node.Exchange

/-!
# A node in a transaction that breaks off

What a node makes of a transaction of which only a beginning arrives, or whose frames are
followed by something that is no frame.  With a header and some of its frames a node waits for
the next one (`digest_begun`).  In a barren stream it finds none and does not touch its module;
what it sends on is as barren, or nothing but zeros (`digest_barren`).
-/

namespace DaisyChain.Node.Body

variable {M : Type} (table : Table M) (e : Engine) (m : M)

/-! ### Frames that are to come -/

/-- What a node that listens makes of a header that it accepts and of some of the frames behind it:
it passes them on, and waits for the next one. -/
theorem digest_begun {h : RawHeader} (isAction : h.action ≠ .sync) (accepted : accepts h = true)
    {frames : List (List UInt8)} (whole : ∀ bytes ∈ frames, ∃ frame, Frame.Whole bytes frame)
    {count : Nat} (turns : framesAfter h = frames.length + (count + 1))
    (others : ¬(h.action = .read ∧ count = 0)) (more : List UInt8) :
  let relaying := during e m (.relaying (.ofHeader h) count .start)
  (listener e m).digest table (h.toList ++ (frames.flatten ++ more)) =
    ((relaying.digest table more).1,
      (forward e.record h).toList ++ (frames.flatten ++ (relaying.digest table more).2))
  := by
  intro relaying
  have passed := digest_frames table e m (.ofHeader h) (Nat.succ_ne_zero count) whole more
  have waits : (during e m (.counting (.ofHeader h) (count + 1) none)).digest table more =
      relaying.digest table more := digest_counting table e m others more
  simp only [waits] at passed
  rw [digest_header table e m isAction accepted, turns, passed]

/-- A node that is about to count, and has kept nothing, does not touch its module. -/
theorem module_counting (request : Request) (count : Nat) :
  ((during e m (.counting request count none)).rest table).1.module = m
  := by
  simp only [rest, proceed, during, Engine.enter, Engine.count]
  split
  · rfl
  · split <;> rfl

/-- Neither a header that a node accepts nor a part of it changes a module. -/
theorem module_header {h : RawHeader} (isAction : h.action ≠ .sync) (accepted : accepts h = true)
    {bytes : List UInt8} (begins : bytes <+: h.toList) :
  ((listener e m).digest table bytes).1.module = m
  := by
  rcases (@List.prefix_concat_iff _ bytes [h.byte0, h.byte1] h.byte2).mp begins with rfl | begins
  · have all := digest_header table e m isAction accepted []
    rw [List.append_nil] at all
    change ((listener e m).digest table h.toList).1.module = m
    rw [all]
    apply module_counting
  · rcases (@List.prefix_concat_iff _ bytes [h.byte0] h.byte1).mp begins with rfl | begins
    · change ((listener e m).digest table [h.byte0, h.byte1]).1.module = m
      rw [digest_cons (b := listener e m) trivial, take_first e m isAction,
        digest_cons (b := during e m (.listening (.first h.byte0))) trivial, take_second]
      rfl
    · rcases (@List.prefix_concat_iff _ bytes [] h.byte0).mp begins with rfl | begins
      · change ((listener e m).digest table [h.byte0]).1.module = m
        rw [digest_cons (b := listener e m) trivial, take_first e m isAction]
        rfl
      · rw [List.prefix_nil.mp begins]
        rfl

/-! ### Bytes of a frame -/

section Relaying

variable (request : Request) (count : Nat) {held : List UInt8}

/-- A node recovers once a frame has ended that cannot be read, or that is empty although a value
is awaited. -/
theorem exists_take_failing (room : held.length < frameMax)
    (fails : ∀ frame, Frame.decode (held ++ [0]) = .ok frame →
      keeps request count = true ∧ frame = .empty) :
  ∃ e', (during e m (.relaying request count ⟨held, false⟩)).take 0 =
    (during e' m .recovering, if passes request count then [0] else [])
  := by
  have ended : Frame.Collector.feed ⟨held, false⟩ 0 = (.ok true, ⟨held ++ [0], true⟩) :=
    Frame.Collector.feed_open room 0
  simp only [take, during, Engine.enter, Engine.relayByte, ended, Frame.Collector.decode]
  cases reads : Frame.decode (held ++ [0]) with
  | error failure => cases failure <;> exact ⟨_, rfl⟩
  | ok frame =>
    obtain ⟨keep, rfl⟩ := fails frame reads
    simp only [Engine.finishFrame, keep, if_true]
    exact ⟨_, rfl⟩

/-- A node recovers once a frame has become too long. -/
theorem exists_take_overflow (full : frameMax ≤ held.length) (byte : UInt8) :
  ∃ e', (during e m (.relaying request count ⟨held, false⟩)).take byte =
    (during e' m .recovering, if passes request count then [byte] else [])
  := by
  have fed : Frame.Collector.feed ⟨held, false⟩ byte = (.error .overflow, .start) := by
    simp [Frame.Collector.feed, Frame.Collector.reopen, Nat.not_lt_of_le full]
  simp only [take, during, Engine.enter, Engine.relayByte, fed]
  exact ⟨_, rfl⟩

/-- What a node within a frame makes of a stream that does not end it: its module stays as it is,
and what it sends on does not end the frame either, or is nothing but zeros. -/
theorem digest_barren {stream : List UInt8} (clean : 0 ∉ held)
    (barren : Frame.Barren (keeps request count = true) (held ++ stream)) :
  let r := (during e m (.relaying request count ⟨held, false⟩)).digest table stream
  r.1.module = m ∧
    (passes request count = true →
      Frame.Barren (keeps request count = true) (held ++ r.2)) ∧
    (passes request count = false → ∃ n, r.2 = List.replicate n 0)
  := by
  induction stream generalizing held with
  | nil =>
    rw [digest_nil (waiting_relaying e m request count _)]
    exact ⟨rfl, fun _ => barren, fun _ => ⟨0, rfl⟩⟩
  | cons byte stream ih =>
    rw [digest_cons (waiting_relaying e m request count _)]
    -- Once the node recovers, zeros follow the byte that has made it fail.
    have failed {e' : Engine} (took : (during e m (.relaying request count ⟨held, false⟩)).take byte =
          (during e' m .recovering, if passes request count then [byte] else []))
        (stays : ∀ more, Frame.Barren (keeps request count = true) (held ++ byte :: more)) :
        let b := (during e m (.relaying request count ⟨held, false⟩)).take byte
        (b.1.digest table stream).1.module = m ∧
          (passes request count = true → Frame.Barren (keeps request count = true)
            (held ++ (b.2 ++ (b.1.digest table stream).2))) ∧
          (passes request count = false →
            ∃ n, b.2 ++ (b.1.digest table stream).2 = List.replicate n 0) := by
      simp only [took, digest_recovering]
      refine ⟨rfl, fun pass => ?_, fun block => ⟨stream.length, ?_⟩⟩
      · rw [pass, if_pos rfl]
        apply stays
      · rw [block]
        rfl
    by_cases room : held.length < frameMax
    · by_cases zero : byte = 0
      · subst zero
        obtain ⟨e', took⟩ := exists_take_failing e m request count room fun frame reads =>
          barren (held ++ [0]) frame ⟨stream, by simp⟩
            ⟨⟨held, rfl, clean⟩, by rw [List.length_append]; exact room, reads⟩
        apply failed took
        have stands : held ++ 0 :: stream = (held ++ [0]) ++ stream := by simp
        intro more
        rw [stands] at barren
        have stays := (barren.of_begins (List.prefix_append _ _)).append (by simp) more
        rw [List.append_assoc] at stays
        apply stays
      · have clean' : 0 ∉ held ++ [byte] := by
          rw [List.mem_append, List.mem_singleton, not_or]
          exact ⟨clean, Ne.symm zero⟩
        have later := ih clean' (by rw [List.append_assoc]; exact barren)
        rw [take_open e m request count room zero]
        refine ⟨later.1, fun pass => ?_, fun block => ?_⟩
        · have stays := later.2.1 pass
          rw [pass, if_pos rfl]
          rw [List.append_assoc] at stays
          apply stays
        · obtain ⟨n, zeros⟩ := later.2.2 block
          refine ⟨n, ?_⟩
          rw [block]
          apply zeros
    · obtain ⟨e', took⟩ := exists_take_overflow e m request count (Nat.le_of_not_lt room) byte
      apply failed took
      intro more
      apply Frame.barren_of_long clean (Nat.le_of_not_lt room)

/-- What a node within its own frame of a write makes of a single byte: it sends nothing on, and its
module stays as it is unless the byte ends the frame. -/
theorem digest_single (held : List UInt8) (isWrite : request.action = .write) (byte : UInt8) :
  let r := (during e m (.relaying request 0 ⟨held, false⟩)).digest table [byte]
  r.2 = [] ∧ (r.1.module = m ∨ ∃ value, byte = 0 ∧ Frame.decode (held ++ [0]) = .ok (.data value) ∧
    r.1.module = (receive table e m request (some value)).module)
  := by
  intro r
  have block : passes request 0 = false := by simp [passes, isWrite]
  have keep : keeps request 0 = true := by simp [keeps, isWrite]
  have step : r = _ := digest_cons (waiting_relaying e m request 0 ⟨held, false⟩) byte []
  by_cases room : held.length < frameMax
  · by_cases zero : byte = 0
    · subst zero
      by_cases fails : ∀ frame, Frame.decode (held ++ [0]) = .ok frame → frame = .empty
      · obtain ⟨e', took⟩ := exists_take_failing e m request 0 room
          fun frame reads => ⟨keep, fails frame reads⟩
        rw [took, block] at step
        rw [step]
        exact ⟨rfl, .inl rfl⟩
      · simp only [not_forall] at fails
        obtain ⟨frame, reads, useful⟩ := fails
        have none : (0 : UInt8) ∉ [] := List.not_mem_nil
        have all : r = _ := digest_collecting table e m request 0 held none (by simpa using room)
          (by simpa using reads) (fun _ => useful) []
        rw [digest_last, block] at all
        rw [all]
        refine ⟨rfl, ?_⟩
        cases frame with
        | data value =>
          right
          refine ⟨value, rfl, reads, ?_⟩
          simp only [keptOf, keep, if_true]
        | placeholder => exact .inl rfl
        | empty => exact (useful rfl).elim
    · rw [take_open e m request 0 room zero, block] at step
      rw [step]
      exact ⟨rfl, .inl rfl⟩
  · obtain ⟨e', took⟩ := exists_take_overflow e m request 0 (Nat.le_of_not_lt room) byte
    rw [took, block] at step
    rw [step]
    exact ⟨rfl, .inl rfl⟩

end Relaying

end DaisyChain.Node.Body
