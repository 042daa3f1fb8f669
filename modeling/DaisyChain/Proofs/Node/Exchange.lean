import DaisyChain.Proofs.Frame.Whole
import DaisyChain.Proofs.Header.Forwarded
import DaisyChain.Proofs.Node.Digest

/-!
# A node in a transaction

What a node that listens makes of a whole transaction: of a read with the frames of the nodes
before it (`digest_read`), of a write with the frames of the nodes behind it (`digest_write`),
of a broadcast (`digest_broadcast`), and of an acknowledge (`digest_ack`).  A node that
recovers answers every byte with zero (`digest_recovering`).

`Body.receive` is the node after it has received a value, or none.
-/

namespace DaisyChain.Node

variable {M : Type} (table : Table M)

namespace Body

/-- A node in the given phase, with what the given engine holds besides. -/
def during (e : Engine) (m : M) (phase : Phase) : Body M :=
  ⟨e.enter phase 0, m⟩

/-- A node that listens for a header. -/
def listener (e : Engine) (m : M) : Body M :=
  during e m (.listening .nothing)

variable (e : Engine) (m : M)

/-! ### Headers -/

/-- A node that listens forwards the first byte of a header of more than one. -/
theorem take_first {h : RawHeader} (isAction : h.action ≠ .sync) :
  (listener e m).take h.byte0 =
    (during e m (.listening (.first h.byte0)), [forwardFirst e.record h.byte0])
  := by
  have other : Action.ofByte h.byte0 ≠ .sync := isAction
  simp only [take, listener, during, Engine.enter, Engine.hear, if_neg other]

/-- A node that listens forwards the second byte of a header. -/
theorem take_second (byte0 byte1 : UInt8) :
  (during e m (.listening (.first byte0))).take byte1 =
    (during e m (.listening (.second byte0 byte1)), [forwardSecond byte0 byte1])
  := rfl

/-- A node that listens forwards a header, whether it accepts it or not. -/
theorem digest_heard {h : RawHeader} (isAction : h.action ≠ .sync) (more : List UInt8) :
  let after : Body M := ⟨(listener e m).engine.acceptHeader h 0, m⟩
  (listener e m).digest table (h.toList ++ more) =
    ((after.digest table more).1, (forward e.record h).toList ++ (after.digest table more).2)
  := by
  intro after
  have third : (during e m (.listening (.second h.byte0 h.byte1))).take h.byte2 =
      (after, [(forward e.record h).byte2]) := rfl
  have bytes : h.toList ++ more = h.byte0 :: h.byte1 :: h.byte2 :: more := rfl
  rw [bytes, digest_cons (b := listener e m) trivial, take_first e m isAction,
    digest_cons (b := during e m (.listening (.first h.byte0))) trivial, take_second,
    digest_cons (b := during e m (.listening (.second h.byte0 h.byte1))) trivial, third,
    bytes_forward]
  rfl

/-- A node that listens forwards a header that it accepts, and is about to count. -/
theorem digest_header {h : RawHeader} (isAction : h.action ≠ .sync) (accepted : accepts h = true)
    (more : List UInt8) :
  (listener e m).digest table (h.toList ++ more) =
    (((during e m (.counting (.ofHeader h) (framesAfter h) none)).digest table more).1,
      (forward e.record h).toList ++
        ((during e m (.counting (.ofHeader h) (framesAfter h) none)).digest table more).2)
  := by
  have even := evenParity_of_accepts accepted
  have counts : (listener e m).engine.acceptHeader h 0 =
      e.enter (.counting (.ofHeader h) (framesAfter h) none) 0 := by
    simp only [Engine.acceptHeader, even, accepted, Bool.true_eq_false, if_false]
    rfl
  rw [digest_heard table e m isAction, counts]
  rfl

/-! ### Frames -/

/-- What a node keeps of a frame that ends while `count` more are to come. -/
def keptOf (request : Request) (count : Nat) : Frame → Option (List UInt8)
  | .data value => if keeps request count then some value else none
  | .placeholder | .empty => none

/-- A node within a frame waits for the next byte. -/
theorem waiting_relaying (request : Request) (count : Nat) (collector : Frame.Collector) :
  (during e m (.relaying request count collector)).engine.phase.Waiting
  := trivial

/-- A node within a frame goes on with a byte that is not its end. -/
theorem take_open (request : Request) (count : Nat) {held : List UInt8}
    (room : held.length < frameMax) {byte : UInt8} (filled : byte ≠ 0) :
  (during e m (.relaying request count ⟨held, false⟩)).take byte =
    (during e m (.relaying request count ⟨held ++ [byte], false⟩),
      if passes request count then [byte] else [])
  := by
  have goes : Frame.Collector.feed ⟨held, false⟩ byte = (.ok false, ⟨held ++ [byte], false⟩) := by
    rw [Frame.Collector.feed_open room, beq_eq_false_iff_ne.mpr filled]
  simp only [take, during, Engine.enter, Engine.relayByte, goes]

/-- A node within a frame goes on with all bytes that are not its end. -/
theorem digest_open (request : Request) (count : Nat) {held bytes : List UInt8} (clean : 0 ∉ bytes)
    (fits : held.length + bytes.length ≤ frameMax) (more : List UInt8) :
  let further := during e m (.relaying request count ⟨held ++ bytes, false⟩)
  (during e m (.relaying request count ⟨held, false⟩)).digest table (bytes ++ more) =
    ((further.digest table more).1,
      (if passes request count then bytes else []) ++ (further.digest table more).2)
  := by
  intro further
  induction bytes generalizing held with
  | nil =>
    simp only [further, List.append_nil, List.nil_append, ite_self]
  | cons byte bytes ih =>
    rw [List.mem_cons, not_or] at clean
    rw [List.length_cons] at fits
    have fits' : (held ++ [byte]).length + bytes.length ≤ frameMax := by
      rw [List.length_append, List.length_singleton]
      omega
    have later := ih clean.2 fits'
    simp only [List.append_assoc, List.singleton_append] at later
    rw [List.cons_append, digest_cons (waiting_relaying e m request count _),
      take_open e m request count (by omega) (Ne.symm clean.1), later]
    cases passes request count <;> rfl

/-- A node takes the byte that ends a frame which it can read, and is about to count again. -/
theorem take_end (request : Request) (count : Nat) {held : List UInt8} {frame : Frame}
    (room : held.length < frameMax) (reads : Frame.decode (held ++ [0]) = .ok frame)
    (useful : keeps request count = true → frame ≠ .empty) :
  (during e m (.relaying request count ⟨held, false⟩)).take 0 =
    (during e m (.counting request count (keptOf request count frame)),
      if passes request count then [0] else [])
  := by
  let receiving := e.enter (.relaying request count ⟨held, false⟩) 0
  let counting := e.enter (.counting request count (keptOf request count frame)) 0
  have ended : Frame.Collector.feed ⟨held, false⟩ 0 = (.ok true, ⟨held ++ [0], true⟩) :=
    Frame.Collector.feed_open room 0
  have finished :
      receiving.finishFrame 0 request count (keeps request count) (.ok frame) = counting := by
    cases frame with
    | data value => rfl
    | placeholder => rfl
    | empty =>
      have unkept : keeps request count = false := by
        cases keep : keeps request count with
        | false => rfl
        | true => apply (useful keep rfl).elim
      simp only [Engine.finishFrame, unkept, Bool.false_eq_true, if_false]
      rfl
  have step : receiving.relayByte 0 request count ⟨held, false⟩ 0 = counting := by
    simp only [Engine.relayByte, ended, Frame.Collector.decode, reads]
    apply finished
  rw [show during e m (.counting request count (keptOf request count frame)) = ⟨counting, m⟩ from rfl,
    ← step]
  rfl

/-- A node that has received some bytes of a frame receives the others, and is about to count
again. -/
theorem digest_collecting (request : Request) (count : Nat) (held : List UInt8)
    {body : List UInt8} {frame : Frame} (clean : 0 ∉ body)
    (fits : held.length + body.length < frameMax)
    (reads : Frame.decode (held ++ body ++ [0]) = .ok frame)
    (useful : keeps request count = true → frame ≠ .empty) (more : List UInt8) :
  let counting := during e m (.counting request count (keptOf request count frame))
  (during e m (.relaying request count ⟨held, false⟩)).digest table (body ++ 0 :: more) =
    ((counting.digest table more).1,
      (if passes request count then body ++ [0] else []) ++ (counting.digest table more).2)
  := by
  intro counting
  have room : (held ++ body).length < frameMax := by
    rw [List.length_append]
    exact fits
  rw [digest_open table e m request count clean (Nat.le_of_lt fits) (0 :: more),
    digest_cons (waiting_relaying e m request count _), take_end e m request count room reads useful]
  cases passes request count with
  | false => rfl
  | true => simp only [counting, if_true, List.append_assoc]

/-- A node that waits for a frame receives it, and is about to count again. -/
theorem digest_frame (request : Request) (count : Nat) {bytes : List UInt8} {frame : Frame}
    (whole : Frame.Whole bytes frame) (useful : keeps request count = true → frame ≠ .empty)
    (more : List UInt8) :
  let counting := during e m (.counting request count (keptOf request count frame))
  (during e m (.relaying request count .start)).digest table (bytes ++ more) =
    ((counting.digest table more).1,
      (if passes request count then bytes else []) ++ (counting.digest table more).2)
  := by
  obtain ⟨⟨body, rfl, clean⟩, fits, reads⟩ := whole
  rw [List.length_append, List.length_singleton] at fits
  have all := digest_collecting table e m request count [] clean
    (by rw [List.length_nil]; omega) reads useful more
  rw [List.append_assoc]
  apply all

/-- A node that is to see more frames than its own waits for the next one. -/
theorem digest_counting {request : Request} {count : Nat} {kept : Option (List UInt8)}
    (others : ¬(request.action = .read ∧ count = 0)) (bytes : List UInt8) :
  (during e m (.counting request (count + 1) kept)).digest table bytes =
    (during e m (.relaying request count .start)).digest table bytes
  := by
  apply digest_congr
  have decided : (during e m (.counting request (count + 1) kept)).proceed table =
      during e m (.relaying request count .start) := by
    have further : ¬(request.action = .read ∧ count + 1 = 1) :=
      fun turn => others ⟨turn.1, Nat.succ.inj turn.2⟩
    simp only [proceed, during, Engine.enter, Engine.count, Nat.succ_ne_zero, if_false, further,
      Nat.add_sub_cancel]
  rw [rest, decided]
  apply (rest_of_waiting (b := during e m (.relaying request count .start)) trivial).symm

/-- A node passes on the frames that are meant for others. -/
theorem digest_frames (request : Request) {count : Nat} (own : count ≠ 0)
    {frames : List (List UInt8)} (whole : ∀ bytes ∈ frames, ∃ frame, Frame.Whole bytes frame)
    (more : List UInt8) :
  let counting := during e m (.counting request count none)
  (during e m (.counting request (frames.length + count) none)).digest table
      (frames.flatten ++ more) =
    ((counting.digest table more).1, frames.flatten ++ (counting.digest table more).2)
  := by
  intro counting
  induction frames with
  | nil => simp only [List.length_nil, Nat.zero_add, List.flatten_nil, List.nil_append, counting]
  | cons bytes rest ih =>
    obtain ⟨frame, first⟩ := whole bytes List.mem_cons_self
    have later := ih fun other member => whole other (List.mem_cons_of_mem _ member)
    have meant : rest.length + count ≠ 0 := by omega
    have pass : passes request (rest.length + count) = true := by simp [passes, own]
    have keep : keeps request (rest.length + count) = false := by simp [keeps, own]
    have kept : keptOf request (rest.length + count) frame = none := by
      cases frame <;> simp [keptOf, keep]
    have step := digest_frame table e m request (rest.length + count) first
      (by simp [keep]) (rest.flatten ++ more)
    rw [kept, pass] at step
    rw [if_pos rfl] at step
    rw [List.length_cons, Nat.add_right_comm, List.flatten_cons, List.append_assoc,
      digest_counting table e m (fun h => meant h.2), step, later, List.append_assoc]

/-! ### Reads -/

/-- A node whose turn it is answers a read. -/
theorem digest_turn (request : Request) (isRead : request.action = .read)
    (bytes : List UInt8) :
  let reply := answer table m request.property e.record
  let after := listener { e with record := reply.2 } m
  (during e m (.counting request 1 none)).digest table bytes =
    ((after.digest table bytes).1, reply.1 ++ (after.digest table bytes).2)
  := by
  intro reply after
  have turn : (during e m (.counting request 1 none)).rest table = (after, reply.1) := by
    simp only [rest, proceed, during, Engine.enter, Engine.count, Nat.one_ne_zero, if_false,
      isRead, and_self, if_true, perform, List.drop_zero]
    rfl
  have split : (during e m (.counting request 1 none)).digest table ([] ++ bytes) = _ :=
    digest_append _ _ _
  rw [List.nil_append] at split
  rw [split]
  simp only [digest, turn]

/-- What a node that listens makes of a read, with the frames of the nodes before it. -/
theorem digest_read {h : RawHeader} (isRead : h.action = .read) (even : h.evenParity = true)
    {frames : List (List UInt8)} (whole : ∀ bytes ∈ frames, ∃ frame, Frame.Whole bytes frame)
    (count : h.count = frames.length) (short : frames.length + 1 < countModulus) :
  let reply := answer table m h.property e.record
  (listener e m).digest table (h.toList ++ frames.flatten) =
    (listener { e with record := reply.2 } m,
      (forward e.record h).toList ++ (frames.flatten ++ reply.1))
  := by
  intro reply
  have isAction : h.action ≠ .sync := by simp [isRead]
  have accepted : accepts h = true := by simp [accepts, even, isRead]
  have turns : framesAfter h = frames.length + 1 := by
    simp only [framesAfter, isRead, count, Nat.mod_eq_of_lt short]
  have others := digest_frames table e m (.ofHeader h) Nat.one_ne_zero whole []
  have turn := digest_turn table e m (.ofHeader h) isRead []
  rw [List.append_nil] at others
  rw [digest_header table e m isAction accepted, turns, others, turn,
    digest_nil (b := listener _ m) trivial, List.append_nil]
  rfl

/-! ### Writes -/

/-- A node after it has received a value, or nothing that it keeps. -/
def receive (request : Request) : Option (List UInt8) → Body M
  | none => listener e m
  | some data =>
    if request.staged then
      listener ((e.enter (.counting request 0 data) 0).stage ⟨request.property, data⟩) m
    else
      match applySlot table ⟨request.property, data⟩ m with
      | (.ok (), m') => listener e m'
      | (.error fault, m') =>
        during { e with record := some ⟨fault, .committing⟩ } m' .recovering

/-- A node that has seen all frames keeps the value of the last one. -/
theorem digest_last (request : Request) (kept : Option (List UInt8)) :
  (during e m (.counting request 0 kept)).digest table [] =
    (receive table e m request kept, [])
  := by
  cases kept with
  | none => rfl
  | some data =>
    cases staged : request.staged with
    | true =>
      have decided : (during e m (.counting request 0 (some data))).proceed table =
          receive table e m request (some data) := by
        simp only [proceed, during, Engine.enter, Engine.count, staged, if_true, receive, listener]
      rw [digest, rest, decided]
      simp only [receive, staged, if_true]
      rfl
    | false =>
      have decided : (during e m (.counting request 0 (some data))).proceed table =
          during e m (.committing (.one ⟨request.property, data⟩)) := by
        simp only [proceed, during, Engine.enter, Engine.count, staged, Bool.false_eq_true,
          if_true, if_false]
      rw [digest, rest, decided]
      simp only [perform, during, Engine.enter, Engine.commit, applyAll, receive, staged,
        Bool.false_eq_true, if_false]
      rcases applySlot table ⟨request.property, data⟩ m with ⟨_ | _, m'⟩ <;> rfl

/-- A node that waits for the last frame of a write or broadcast receives its value. -/
theorem digest_own {request : Request} (written : request.action ≠ .read) {bytes : List UInt8}
    {frame : Frame} (whole : Frame.Whole bytes frame) (useful : frame ≠ .empty) :
  (during e m (.counting request 1 none)).digest table bytes =
    (receive table e m request frame.value?,
      if request.action = .broadcast then bytes else [])
  := by
  have keep : keeps request 0 = true := by simp [keeps, written]
  have kept : keptOf request 0 frame = frame.value? := by
    cases frame <;> simp [keptOf, keep, Frame.value?]
  have pass : passes request 0 = decide (request.action = .broadcast) := by simp [passes]
  have seen := digest_frame table e m request 0 whole (fun _ => useful) []
  rw [kept] at seen
  simp only [digest_last, List.append_nil, pass, decide_eq_true_eq] at seen
  rw [digest_counting table e m (fun h => written h.1), seen]

/-- What a node that listens makes of a write, with the frames of the nodes behind it and its
own. -/
theorem digest_write {h : RawHeader} (isWrite : h.action = .write) (even : h.evenParity = true)
    {frames : List (List UInt8)} (whole : ∀ bytes ∈ frames, ∃ frame, Frame.Whole bytes frame)
    (count : h.count = frames.length + 1) {own : List UInt8} {frame : Frame}
    (mine : Frame.Whole own frame) (useful : frame ≠ .empty) :
  (listener e m).digest table (h.toList ++ (frames.flatten ++ own)) =
    (receive table e m (.ofHeader h) frame.value?,
      (forward e.record h).toList ++ frames.flatten)
  := by
  have isAction : h.action ≠ .sync := by simp [isWrite]
  have accepted : accepts h = true := by simp [accepts, even, count]
  have turns : framesAfter h = frames.length + 1 := by simp only [framesAfter, isWrite, count]
  have written : (Request.ofHeader h).action ≠ .read := by simp [Request.ofHeader, isWrite]
  have alone : (Request.ofHeader h).action ≠ .broadcast := by simp [Request.ofHeader, isWrite]
  have others := digest_frames table e m (.ofHeader h) Nat.one_ne_zero whole own
  simp only at others
  rw [digest_own table e m written mine useful, if_neg alone, List.append_nil] at others
  rw [digest_header table e m isAction accepted, turns, others]

/-! ### Broadcasts -/

/-- What a node that listens makes of a broadcast. -/
theorem digest_broadcast {h : RawHeader} (isBroadcast : h.action = .broadcast)
    (even : h.evenParity = true) {bytes : List UInt8} {frame : Frame}
    (whole : Frame.Whole bytes frame) (useful : frame ≠ .empty) :
  (listener e m).digest table (h.toList ++ bytes) =
    (receive table e m (.ofHeader h) frame.value?, (forward e.record h).toList ++ bytes)
  := by
  have isAction : h.action ≠ .sync := by simp [isBroadcast]
  have accepted : accepts h = true := by simp [accepts, even, isBroadcast]
  have turns : framesAfter h = 1 := by simp only [framesAfter, isBroadcast]
  have written : (Request.ofHeader h).action ≠ .read := by simp [Request.ofHeader, isBroadcast]
  have shared : (Request.ofHeader h).action = .broadcast := isBroadcast
  rw [digest_header table e m isAction accepted, turns, digest_own table e m written whole useful,
    if_pos shared]

/-! ### Acknowledges -/

/-- What a node that listens makes of an acknowledge: it adds the categories of its fault. -/
theorem digest_ack (categories : Categories) :
  (listener e m).digest table [SyncHeader.pack ⟨.ack, categories⟩] =
    (listener e m, [SyncHeader.pack ⟨.ack, categories ∪ categoriesOf e.lastFault⟩])
  := by
  obtain ⟨action, kind, -⟩ := SyncHeader.fields_pack ⟨.ack, categories⟩
  have added := SyncHeader.addCategories_pack ⟨.ack, categories⟩ (categoriesOf e.lastFault)
  have heard : (listener e m).take (SyncHeader.pack ⟨.ack, categories⟩) =
      (listener e m, [SyncHeader.pack ⟨.ack, categories ∪ categoriesOf e.lastFault⟩]) := by
    have isSync : Action.ofByte (SyncHeader.pack ⟨.ack, categories⟩) = .sync := action
    have isAck : SyncKind.ofByte (SyncHeader.pack ⟨.ack, categories⟩) = .ack := kind
    simp only [take, listener, during, Engine.enter, Engine.hear, isSync, if_true,
      Engine.hearSync, isAck]
    rw [← added]
    rfl
  rw [digest_cons (b := listener e m) trivial, heard, digest_nil (b := listener e m) trivial]
  rfl

/-! ### Recovering -/

/-- A node that recovers answers every byte with zero. -/
theorem digest_recovering (bytes : List UInt8) :
  (during e m .recovering).digest table bytes =
    (during e m .recovering, List.replicate bytes.length 0)
  := by
  induction bytes with
  | nil => apply digest_nil (b := during e m .recovering) trivial
  | cons byte rest ih =>
    have zero : (during e m .recovering).take byte = (during e m .recovering, [0]) := rfl
    rw [digest_cons (b := during e m .recovering) trivial, zero, ih]
    rfl

end Body

end DaisyChain.Node
