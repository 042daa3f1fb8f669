import DaisyChain.Proofs.Node.Exchange
import DaisyChain.Proofs.Node.Runs

/-!
# What a tick does

A tick of a node that listens reads acknowledges and the like, and then a part of a header, all of
one, or a commit (`Engine.Heeds`).  A tick of a node that receives a frame reads a part of it, or
the rest (`Engine.Collects`).  This holds of ticks at any time and with any room to send.
-/

namespace DaisyChain.Node

/-- The bytes of a header that have been heard. -/
def Heard.bytes : Heard → List UInt8
  | .nothing => []
  | .first byte0 => [byte0]
  | .second byte0 byte1 => [byte0, byte1]

/-- What has been heard is the beginning of a header of more than one byte. -/
def Heard.Apt : Heard → Prop
  | .nothing => True
  | .first byte0 | .second byte0 _ => Action.ofByte byte0 ≠ .sync

namespace Engine

variable {now : UInt32}

/-! ### Listening -/

/-- What becomes of an engine that has heard part of a header and goes on listening, if it reads the
given bytes of those that wait: the headers of a single byte among them are of no consequence to
it. -/
inductive Heeds (now : UInt32) (e : Engine) (heard : Heard) (tx : Link) (rx : List UInt8)
    (read : List UInt8) : Engine → Prop
  /-- It still listens. -/
  | on {heard' : Heard} {skipped : List UInt8} (since : UInt32) :
    heard.bytes ++ read = skipped ++ heard'.bytes →
    (∀ byte ∈ skipped, Action.ofByte byte = .sync) → heard'.Apt →
    Heeds now e heard tx rx read { e with phase := .listening heard', since := since }
  /-- It has heard a whole header. -/
  | whole {h : RawHeader} {skipped : List UInt8} :
    heard.bytes ++ read = skipped ++ h.toList →
    (∀ byte ∈ skipped, Action.ofByte byte = .sync) → h.action ≠ .sync →
    Heeds now e heard tx rx read (e.acceptHeader h now)
  /-- It has been told to commit. -/
  | commit {byte : UInt8} {skipped : List UInt8} :
    heard.bytes ++ read = skipped ++ [byte] →
    (∀ byte ∈ skipped, Action.ofByte byte = .sync) → Action.ofByte byte = .sync →
    SyncKind.ofByte byte = .commit →
    Heeds now e heard tx rx read (e.enter (.committing .staged) now)
  /-- It has waited too long for the rest of a header. -/
  | late :
    heard ≠ .nothing → rx = [] ∨ tx.room = 0 → e.timedOut now = true →
    Heeds now e heard tx rx read (e.fail .timeout now)

/-- How much of a header an engine has heard does not matter once it has heard all of it. -/
theorem acceptHeader_listening {e : Engine} {heard : Heard} (listening : e.phase = .listening heard)
    (heard' : Heard) (since : UInt32) (h : RawHeader) :
  acceptHeader { e with phase := .listening heard', since := since } h now = e.acceptHeader h now
  := by
  have state : e.state = .listening := by rw [Engine.state, listening, Phase.state]
  have state' : Engine.state { e with phase := .listening heard', since := since } =
      .listening := rfl
  unfold acceptHeader
  split
  · simp only [fail, note, enter, state, state']
  · split
    · simp only [fail, note, enter, state, state']
    · rfl

/-- What becomes of an engine after one more byte of a header becomes of it before. -/
theorem Heeds.of_heard {e e' : Engine} {heard heard' : Heard} {byte : UInt8}
    {rx read : List UInt8} {tx tx' : Link} (listening : e.phase = .listening heard)
    (heeds : Heeds now (e.enter (.listening heard') now) heard' tx' rx read e')
    {skipped : List UInt8} (bytes : heard.bytes ++ [byte] = skipped ++ heard'.bytes)
    (syncs : ∀ byte ∈ skipped, Action.ofByte byte = .sync) :
  Heeds now e heard tx (byte :: rx) (byte :: read) e'
  := by
  have further {more : List UInt8} {others : List UInt8}
      (later : heard'.bytes ++ read = others ++ more) :
      heard.bytes ++ byte :: read = (skipped ++ others) ++ more := by
    rw [← List.singleton_append, ← List.append_assoc, bytes, List.append_assoc, later,
      List.append_assoc]
  have both {others : List UInt8} (more : ∀ byte ∈ others, Action.ofByte byte = .sync) :
      ∀ byte ∈ skipped ++ others, Action.ofByte byte = .sync := by
    intro other member
    rcases List.mem_append.mp member with before | behind
    · apply syncs other before
    · apply more other behind
  cases heeds with
  | on since later more apt => exact .on since (further later) (both more) apt
  | whole later more isAction =>
    rw [enter, acceptHeader_listening listening]
    exact .whole (further later) (both more) isAction
  | commit later more isSync isCommit =>
    exact .commit (further later) (both more) isSync isCommit
  | late begun stuck late =>
    simp [timedOut, elapsed, enter] at late

/-- Among no bytes all are headers of a single byte. -/
theorem syncs_nil :
  ∀ byte ∈ ([] : List UInt8), Action.ofByte byte = .sync
  := List.forall_mem_nil _

/-- An engine that goes on waiting for the rest of a header has read nothing. -/
theorem heeds_awaitHeader {e : Engine} {heard : Heard} (listening : e.phase = .listening heard)
    (apt : heard.Apt) {tx : Link} {rx : List UInt8} (stuck : rx = [] ∨ tx.room = 0) :
  Heeds now e heard tx rx [] (e.awaitHeader heard now)
  := by
  unfold awaitHeader
  split
  · next late => exact .late late.1 stuck late.2
  · have still : Heeds now e heard tx rx []
        { e with phase := .listening heard, since := e.since } :=
      .on e.since (by simp) syncs_nil apt
    rwa [← listening] at still

/-- An engine that does not listen reads no header. -/
theorem listen_idle {e : Engine} (other : e.state ≠ .listening) (tx : Link) (rx : List UInt8) :
  e.listen now tx rx = (e, rx, tx)
  := by
  have deaf (heard : Heard) : e.phase ≠ .listening heard := by
    intro listening
    rw [Engine.state, listening] at other
    exact other rfl
  cases rx with
  | nil =>
    unfold listen
    split
    · next heard listening => exact (deaf heard listening).elim
    · rfl
  | cons byte rest =>
    unfold listen
    split
    · next heard listening => exact (deaf heard listening).elim
    · rfl

/-- An engine that has heard all of a header does not listen. -/
theorem state_acceptHeader_ne (e : Engine) (h : RawHeader) :
  (e.acceptHeader h now).state ≠ .listening
  := by
  unfold acceptHeader
  split
  · simp [fail, enter, Engine.state, Phase.state]
  · split <;> simp [fail, enter, Engine.state, Phase.state]

/-- What listening makes of an engine. -/
theorem heeds_listen {e : Engine} {heard : Heard} (listening : e.phase = .listening heard)
    (apt : heard.Apt) (tx : Link) (rx : List UInt8) :
  ∃ read, rx = read ++ (e.listen now tx rx).2.1 ∧
    Heeds now e heard tx rx read (e.listen now tx rx).1
  := by
  induction rx generalizing e heard tx with
  | nil =>
    simp only [listen, listening]
    exact ⟨[], rfl, heeds_awaitHeader listening apt (.inl rfl)⟩
  | cons byte rest ih =>
    simp only [listen, listening]
    split
    · next full => exact ⟨[], rfl, heeds_awaitHeader listening apt (.inr full)⟩
    · have goes (heard' : Heard) (apt' : heard'.Apt) (out : UInt8) {skipped : List UInt8}
          (bytes : heard.bytes ++ [byte] = skipped ++ heard'.bytes)
          (syncs : ∀ byte ∈ skipped, Action.ofByte byte = .sync) :
          let r := listen now (e.enter (.listening heard') now) (tx.push out) rest
          ∃ read, byte :: rest = read ++ r.2.1 ∧ Heeds now e heard tx (byte :: rest) read r.1 := by
        obtain ⟨read, left, heeds⟩ :=
          @ih (e.enter (.listening heard') now) heard' rfl apt' (tx.push out)
        exact ⟨byte :: read, congrArg (byte :: ·) left, heeds.of_heard listening bytes syncs⟩
      have stops {e' : Engine} (other : e'.state ≠ .listening) (tx' : Link)
          (heeds : Heeds now e heard tx (byte :: rest) [byte] e') :
          ∃ read, byte :: rest = read ++ (listen now e' tx' rest).2.1 ∧
            Heeds now e heard tx (byte :: rest) read (listen now e' tx' rest).1 := by
        rw [listen_idle other]
        exact ⟨[byte], rfl, heeds⟩
      cases heard with
      | nothing =>
        simp only [hear]
        split
        · next isSync =>
          have alone : ∀ other ∈ [byte], Action.ofByte other = .sync := by simpa using isSync
          cases kind : SyncKind.ofByte byte with
          | commit =>
            simp only [hearSync, kind]
            apply stops (by simp [enter, Engine.state, Phase.state])
            exact .commit (by rfl) syncs_nil isSync kind
          | ack =>
            simp only [hearSync, kind]
            apply goes .nothing trivial _ (List.append_nil _).symm alone
          | reserved1 =>
            simp only [hearSync, kind]
            apply goes .nothing trivial _ (List.append_nil _).symm alone
          | reserved2 =>
            simp only [hearSync, kind]
            apply goes .nothing trivial _ (List.append_nil _).symm alone
        · next isAction => exact goes (.first byte) isAction _ (by rfl) syncs_nil
      | first byte0 => exact goes (.second byte0 byte) apt _ (by rfl) syncs_nil
      | second byte0 byte1 =>
        apply stops (state_acceptHeader_ne e ⟨byte0, byte1, byte⟩)
        exact .whole (by rfl) syncs_nil apt

/-! ### Receiving a frame -/

/-- What becomes of an engine that has received some bytes of a frame and goes on receiving it, if
it reads the given bytes. -/
inductive Collects (now : UInt32) (e : Engine) (request : Request) (count : Nat) (keep : Bool)
    (held read : List UInt8) : Engine → Prop
  /-- It still receives the frame. -/
  | on (since : UInt32) :
    0 ∉ held ++ read →
    Collects now e request count keep held read
      { e with phase := .relaying request count ⟨held ++ read, false⟩, since := since }
  /-- It has received the whole frame. -/
  | whole {frame : Frame} :
    Frame.Whole (held ++ read) frame →
    Collects now e request count keep held read
      (e.enter (.counting request count (if keep then frame.value? else none)) now)
  /-- It cannot read the frame. -/
  | failing (fault : Fault) : Collects now e request count keep held read (e.fail fault now)

/-- What becomes of an engine after one more byte of a frame becomes of it before. -/
theorem Collects.of_collected {e e' : Engine} {request : Request} {count : Nat} {keep : Bool}
    {held read : List UInt8} {collector : Frame.Collector} {byte : UInt8}
    (relaying : e.phase = .relaying request count collector)
    (collects : Collects now (e.enter (.relaying request count ⟨held ++ [byte], false⟩) now) request
      count keep (held ++ [byte]) read e') :
  Collects now e request count keep held (byte :: read) e'
  := by
  have joined : held ++ [byte] ++ read = held ++ byte :: read := by simp
  cases collects with
  | on since clean =>
    rw [joined] at clean ⊢
    exact .on since clean
  | whole is =>
    rw [joined] at is
    exact .whole is
  | failing fault =>
    have same : e.state = .relaying := by rw [Engine.state, relaying, Phase.state]
    have alike : (e.enter (.relaying request count ⟨held ++ [byte], false⟩) now).fail fault now =
        e.fail fault now := by
      rw [fail, note, fail, note, same]
      rfl
    rw [alike]
    exact .failing fault

/-- What the end of a frame makes of an engine. -/
theorem collects_finishFrame (e : Engine) (request : Request) (count : Nat) (keep : Bool)
    {held : List UInt8} (clean : 0 ∉ held) (room : held.length < frameMax) :
  Collects now e request count keep held [0]
    (e.finishFrame now request count keep (Frame.decode (held ++ [0])))
  := by
  have whole {frame : Frame} (reads : Frame.decode (held ++ [0]) = .ok frame) :
      Frame.Whole (held ++ [0]) frame :=
    ⟨⟨held, rfl, clean⟩, by rw [List.length_append]; exact room, reads⟩
  cases reads : Frame.decode (held ++ [0]) with
  | error failure => cases failure <;> exact .failing _
  | ok frame =>
    have taken : Collects now e request count keep held [0]
        (e.enter (.counting request count (if keep then frame.value? else none)) now) :=
      .whole (whole reads)
    cases frame with
    | data value => exact taken
    | placeholder =>
      rw [Frame.value?, ite_self] at taken
      exact taken
    | empty =>
      cases keep with
      | true => exact .failing _
      | false => exact taken

/-- What receiving the bytes of a frame makes of an engine. -/
theorem collects_collect {e : Engine} {request : Request} {count : Nat} {held : List UInt8}
    (relaying : e.phase = .relaying request count ⟨held, false⟩) (clean : 0 ∉ held)
    (pass keep : Bool) (tx : Link) (rx : List UInt8) :
  let r := e.collect now request count pass keep ⟨held, false⟩ tx rx
  ∃ read, rx = read ++ r.2.1 ∧ Collects now e request count keep held read r.1
  := by
  have waits {e : Engine} {held : List UInt8}
      (relaying : e.phase = .relaying request count ⟨held, false⟩) (clean : 0 ∉ held) :
      Collects now e request count keep held [] e := by
    have still : Collects now e request count keep held []
        { e with phase := .relaying request count ⟨held ++ [], false⟩, since := e.since } :=
      .on e.since (by rwa [List.append_nil])
    rw [List.append_nil, ← relaying] at still
    exact still
  induction rx generalizing e held tx with
  | nil => exact ⟨[], rfl, waits relaying clean⟩
  | cons byte rest ih =>
    simp only [collect]
    split
    · exact ⟨[], rfl, waits relaying clean⟩
    · by_cases room : held.length < frameMax
      · rw [Frame.Collector.feed_open room]
        by_cases zero : byte = 0
        · subst zero
          exact ⟨[0], rfl, collects_finishFrame e request count keep clean room⟩
        · have further : 0 ∉ held ++ [byte] := by
            rw [List.mem_append, List.mem_singleton, not_or]
            exact ⟨clean, Ne.symm zero⟩
          rw [beq_eq_false_iff_ne.mpr zero]
          obtain ⟨read, left, collects⟩ :=
            @ih (e.enter (.relaying request count ⟨held ++ [byte], false⟩) now) _ rfl further
              (if pass then tx.push byte else tx)
          exact ⟨byte :: read, congrArg (byte :: ·) left, collects.of_collected relaying⟩
      · have fed : Frame.Collector.feed ⟨held, false⟩ byte = (.error .overflow, .start) := by
          simp [Frame.Collector.feed, Frame.Collector.reopen, room]
        rw [fed]
        exact ⟨[byte], rfl, .failing _⟩

end Engine

/-- A node that listens for a header, without its connections and its clock. -/
theorem Station.body_listening {M : Type} {s : Station M}
    (listening : s.engine.phase = .listening .nothing) :
  s.body = Body.listener s.engine s.module
  := by
  rw [body, Engine.timeless, Body.listener, Body.during, Engine.enter, listening]

end DaisyChain.Node
