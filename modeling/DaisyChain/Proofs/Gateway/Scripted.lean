import DaisyChain.Gateway.Script
import DaisyChain.Proofs.Gateway.Sites
import DaisyChain.Proofs.Gateway.Streams

/-!
# Acts on a scripted line

What an act of the gateway makes of what it hears on a line that answers as it is told and never
fails (`Session.Hears`).  Whatever has arrived, a read takes the frames that there are in it
(`run_receiveFrame_script`, `run_receiveValues_takes`).  So frames that a read has received were on
the line one after another (`exists_of_receiveValues`), and whole frames that are on the line are
received (`run_receiveValues_script`).
-/

namespace DaisyChain.Gateway

variable {M : Type} {N : Nat}

/-- The given bytes have arrived on the line, the given replies are still to come, and no call will
fail. -/
structure Session.Hears (σ : Session (Site Script M N)) (input : List UInt8)
    (replies : List (List UInt8)) : Prop where
  input_eq : σ.env.line.input = input
  replies_eq : σ.env.line.replies = replies
  fine : ∀ kind, σ.env.line.failing kind = none

variable {σ τ : Session (Site Script M N)} {input : List UInt8} {replies : List (List UInt8)}

/-! ### Calls -/

/-- A call that is not to fail is performed. -/
theorem attempt_eq {α : Type} {kind : CallKind} {l : Script} (fine : l.failing kind = none)
    (failure : α) (f : StateM Script α) :
  Script.attempt kind failure f l = f l
  := by
  rw [Script.attempt, fine]

/-- What a call on the line of a site does. -/
theorem run_within_line {α : Type} (f : StateM Script α) (σ : Session (Site Script M N)) :
  (within (Part.run ⟨Site.line, fun line s => { s with line := line }⟩ f) : Act _ α).run σ =
    (.ok (f σ.env.line).1, σ.over (f σ.env.line).2)
  := rfl

/-- What has arrived is dropped, and no more than that. -/
theorem run_flush_fine (fine : ∀ kind, σ.env.line.failing kind = none) :
  (flush : Act (Site Script M N) Unit).run σ =
    (.ok (), σ.over ({ σ.env.line with input := [] }.note (.flush σ.env.line.input.length)))
  := by
  have called : (within Transport.flush : Act (Site Script M N) Bool).run σ = (.ok true,
      σ.over ({ σ.env.line with input := [] }.note (.flush σ.env.line.input.length))) := by
    apply (run_within_line _ σ).trans
    simp only [Transport.flush, attempt_eq (fine .flush)]
  apply run_bind_ok called

/-- What has arrived is dropped. -/
theorem run_flush_script (hears : σ.Hears input replies) :
  ∃ l : Script, (σ.over l).Hears [] replies ∧
    (flush : Act (Site Script M N) Unit).run σ = (.ok (), σ.over l)
  := by
  refine ⟨_, ?_, run_flush_fine hears.fine⟩
  exact ⟨rfl, hears.replies_eq, hears.fine⟩

/-- Bytes that are sent are logged, and bring about the next reply. -/
theorem run_send_fine (fine : ∀ kind, σ.env.line.failing kind = none) (bytes : List UInt8) :
  (send bytes : Act (Site Script M N) Unit).run σ =
    (.ok (), σ.over (σ.env.line.note (.write bytes)).reply)
  := by
  have called : (within (Transport.send bytes) : Act (Site Script M N) Bool).run σ =
      (.ok true, σ.over (σ.env.line.note (.write bytes)).reply) := by
    apply (run_within_line _ σ).trans
    simp only [Transport.send, attempt_eq (fine .write)]
  apply run_bind_ok called

/-- When something is sent, the next reply arrives, if one is still to come. -/
theorem run_send_script (hears : σ.Hears input replies) (bytes : List UInt8) :
  ∃ l : Script, (σ.over l).Hears (input ++ replies.headD []) replies.tail ∧
    (send bytes : Act (Site Script M N) Unit).run σ = (.ok (), σ.over l)
  := by
  refine ⟨_, ?_, run_send_fine hears.fine bytes⟩
  have replied : (σ.env.line.note (.write bytes)).reply = { σ.env.line.note (.write bytes) with
      replies := replies.tail, input := input ++ replies.headD [] } := by
    rw [← hears.input_eq, ← hears.replies_eq]
    simp only [Script.reply, Script.note]
    cases comes : σ.env.line.replies with
    | nil => simp
    | cons reply others => rfl
  rw [replied]
  exact ⟨rfl, rfl, hears.fine⟩

/-- Bytes are received if enough of them have arrived. -/
theorem run_receive_script (g : Gateway M) (hears : σ.Hears input replies) (count : Nat) :
  ∃ l : Script, (σ.over l).Hears (input.drop count) replies ∧
    (g.receive count : Act (Site Script M N) (List UInt8)).run σ =
      (if input.length < count then .error .timeout else .ok (input.take count), σ.over l)
  := by
  let timeout := g.settings.receiveTimeout count
  let l := { σ.env.line with input := σ.env.line.input.drop count }.note
    (.read count timeout (σ.env.line.input.take count))
  refine ⟨l, ⟨by rw [← hears.input_eq]; rfl, hears.replies_eq, hears.fine⟩, ?_⟩
  have called : (within (Transport.receive count timeout) : Act (Site Script M N) _).run σ =
      (.ok (some (input.take count)), σ.over l) := by
    apply (run_within_line _ σ).trans
    simp only [Transport.receive, attempt_eq (hears.fine .read)]
    rw [← hears.input_eq]
  rw [receive, run_bind_ok called]
  simp only [List.length_take, List.take_take, Nat.min_self]
  by_cases few : input.length < count
  · rw [if_pos few, if_pos (by omega)]
    rfl
  · rw [if_neg few, if_neg (by omega)]
    rfl

/-- A byte that has arrived is received. -/
theorem run_receiveByte_script (g : Gateway M) {byte : UInt8}
    (hears : σ.Hears (byte :: input) replies) :
  ∃ l : Script, (σ.over l).Hears input replies ∧
    (g.receiveByte : Act (Site Script M N) UInt8).run σ = (.ok byte, σ.over l)
  := by
  obtain ⟨l, after, received⟩ := run_receive_script g hears 1
  rw [if_neg (by simp)] at received
  refine ⟨l, after, ?_⟩
  rw [receiveByte, run_bind_ok received]
  rfl

/-- No byte is received if none has arrived. -/
theorem run_receiveByte_silent (g : Gateway M) (hears : σ.Hears [] replies) :
  ∃ l : Script, (σ.over l).Hears [] replies ∧
    (g.receiveByte : Act (Site Script M N) UInt8).run σ = (.error .timeout, σ.over l)
  := by
  obtain ⟨l, after, received⟩ := run_receive_script g hears 1
  rw [if_pos (by simp)] at received
  exact ⟨l, after, run_bind_error received⟩

/-- The bytes of a header that have arrived are received and checked for their parity. -/
theorem run_receiveHeader_script (g : Gateway M) {h : RawHeader}
    (hears : σ.Hears (h.toList ++ input) replies) :
  ∃ l : Script, (σ.over l).Hears input replies ∧
    (g.receiveHeader : Act (Site Script M N) RawHeader).run σ =
      (if h.evenParity then .ok h else .error .headerMismatch, σ.over l)
  := by
  obtain ⟨l, after, received⟩ := run_receive_script g hears Header.actionLength
  rw [if_neg (by simp [RawHeader.toList, Header.actionLength])] at received
  refine ⟨l, after, ?_⟩
  rw [receiveHeader, run_bind_ok received]
  change (if h.evenParity then pure h else throw Failure.headerMismatch :
    Act (Site Script M N) RawHeader).run _ = _
  cases h.evenParity <;> rfl

/-! ### Frames -/

/-- What becomes of a frame of which some bytes have been collected when one more byte has
arrived. -/
theorem run_receiveRest_cons (g : Gateway M) (held : List UInt8) {byte : UInt8}
    (hears : σ.Hears (byte :: input) replies) :
  ∃ l : Script, (σ.over l).Hears input replies ∧
    (g.receiveRest ⟨held, false⟩ : Act (Site Script M N) Frame).run σ =
      (if held.length < frameMax then
        if byte = 0 then check .ofFrame (Frame.decode (held ++ [0]))
        else g.receiveRest ⟨held ++ [byte], false⟩
      else throw (.ofFrame .overflow) : Act (Site Script M N) Frame).run (σ.over l)
  := by
  obtain ⟨l, after, received⟩ := run_receiveByte_script g hears
  refine ⟨l, after, ?_⟩
  rw [receiveRest, run_bind_ok received]
  by_cases room : held.length < frameMax
  · have fed := Frame.Collector.feed_open room byte
    rw [if_pos room]
    by_cases zero : byte = 0
    · subst zero
      rw [if_pos rfl]
      split
      · next goes => simp [fed] at goes
      · next collector' finished =>
        rw [fed] at finished
        cases finished
        rfl
      · next failed => simp [fed] at failed
    · rw [if_neg zero]
      rw [beq_eq_false_iff_ne.mpr zero] at fed
      split
      · next collector' goes =>
        rw [fed] at goes
        cases goes
        rfl
      · next finished => simp [fed] at finished
      · next failed => simp [fed] at failed
  · have full : Frame.Collector.feed ⟨held, false⟩ byte = (.error .overflow, .start) := by
      simp [Frame.Collector.feed, Frame.Collector.reopen, room]
    rw [if_neg room]
    split
    · next goes => simp [full] at goes
    · next finished => simp [full] at finished
    · next failed =>
      rw [full] at failed
      cases failed
      rfl

/-- Bytes that end no frame are collected as long as there is room for them. -/
theorem run_receiveRest_append (g : Gateway M) (held : List UInt8) {body : List UInt8}
    (clean : 0 ∉ body) (room : held.length + body.length ≤ frameMax)
    (hears : σ.Hears (body ++ input) replies) :
  ∃ l : Script, (σ.over l).Hears input replies ∧
    (g.receiveRest ⟨held, false⟩ : Act (Site Script M N) Frame).run σ =
      (g.receiveRest ⟨held ++ body, false⟩ : Act (Site Script M N) Frame).run (σ.over l)
  := by
  induction body generalizing held σ with
  | nil =>
    rw [List.append_nil]
    exact ⟨σ.env.line, hears, rfl⟩
  | cons b body ih =>
    rw [List.mem_cons, not_or] at clean
    rw [List.length_cons] at room
    obtain ⟨l, after, run⟩ := run_receiveRest_cons g held hears
    rw [if_pos (by omega), if_neg (Ne.symm clean.1)] at run
    obtain ⟨l', later, rest⟩ := ih (held ++ [b]) clean.2
      (by rw [List.length_append, List.length_singleton]; omega) after
    rw [List.append_assoc held [b] body] at rest
    exact ⟨l', later, run.trans rest⟩

/-- A frame that has ended is read. -/
theorem run_receiveFrame_ended (g : Gateway M) {body : List UInt8} (clean : 0 ∉ body)
    (fits : body.length < frameMax) (hears : σ.Hears (body ++ 0 :: input) replies) :
  ∃ l : Script, (σ.over l).Hears input replies ∧
    (g.receiveFrame : Act (Site Script M N) Frame).run σ =
      (check .ofFrame (Frame.decode (body ++ [0])) : Act _ Frame).run (σ.over l)
  := by
  have room : ([] : List UInt8).length + body.length ≤ frameMax := by
    rw [List.length_nil]
    omega
  obtain ⟨l, next, run⟩ := run_receiveRest_append g [] clean room hears
  obtain ⟨l', after, ended⟩ := run_receiveRest_cons g body next
  rw [if_pos fits, if_pos rfl] at ended
  exact ⟨l', after, run.trans ended⟩

/-- What comes of the first frame that has arrived. -/
theorem run_receiveFrame_script (g : Gateway M) {rest : List UInt8}
    {outcome : Except Failure Frame} (receives : Receives input outcome rest)
    (hears : σ.Hears input replies) :
  ∃ l : Script, (σ.over l).Hears rest replies ∧
    (g.receiveFrame : Act (Site Script M N) Frame).run σ = (outcome, σ.over l)
  := by
  cases receives with
  | cutOff clean room =>
    rw [← List.append_nil input] at hears
    obtain ⟨l, silent, run⟩ := run_receiveRest_append g [] clean (by simpa using room) hears
    obtain ⟨l', after, timeout⟩ := run_receiveByte_silent g silent
    refine ⟨l', after, run.trans ?_⟩
    rw [receiveRest, run_bind_error timeout]
    rfl
  | @overlong body clean full byte =>
    obtain ⟨l, next, run⟩ := run_receiveRest_append g [] clean (by simp [full]) hears
    obtain ⟨l', after, full⟩ := run_receiveRest_cons g body next
    rw [if_neg (by omega)] at full
    exact ⟨l', after, run.trans full⟩
  | refused clean fits fails =>
    obtain ⟨l, after, ended⟩ := run_receiveFrame_ended g clean fits hears
    rw [fails] at ended
    exact ⟨l, after, ended⟩
  | read clean fits reads =>
    obtain ⟨l, after, ended⟩ := run_receiveFrame_ended g clean fits hears
    rw [reads] at ended
    exact ⟨l, after, ended⟩

/-- Only one thing comes of the first frame of a stream, since a gateway that hears the stream
receives it. -/
theorem Receives.unique {stream rest rest' : List UInt8} {outcome outcome' : Except Failure Frame}
    (receives : Receives stream outcome rest) (receives' : Receives stream outcome' rest') :
  outcome = outcome' ∧ rest = rest'
  := by
  let g : Gateway Unit := ⟨⟨[]⟩, {}⟩
  let σ : Session (Site Script Unit 0) := { env := { line := { input := stream } } }
  have hears : σ.Hears stream [] := ⟨rfl, rfl, fun _ => rfl⟩
  obtain ⟨l, after, received⟩ := run_receiveFrame_script g receives hears
  obtain ⟨l', after', received'⟩ := run_receiveFrame_script g receives' hears
  rw [received, Prod.mk.injEq] at received'
  obtain ⟨same, state⟩ := received'
  rw [← state] at after'
  exact ⟨same, after.input_eq.symm.trans after'.input_eq⟩

/-- There is one way to take frames from a stream. -/
theorem Takes.unique {count : Nat} {stream rest rest' : List UInt8} {frames frames' : List Frame}
    {stop stop' : Option Failure} (takes : Takes count stream frames stop rest)
    (takes' : Takes count stream frames' stop' rest') :
  frames = frames' ∧ stop = stop' ∧ rest = rest'
  := by
  induction takes generalizing frames' stop' rest' with
  | done =>
    cases takes'
    exact ⟨rfl, rfl, rfl⟩
  | next first goes _ ih =>
    cases takes' with
    | next first' _ others' =>
      obtain ⟨⟨⟩, rfl⟩ := first.unique first'
      obtain ⟨rfl, rfl, rfl⟩ := ih others'
      exact ⟨rfl, rfl, rfl⟩
    | placeholder first' =>
      obtain ⟨⟨⟩, -⟩ := first.unique first'
      contradiction
    | fails first' => cases (first.unique first').1
  | placeholder first =>
    cases takes' with
    | next first' goes =>
      obtain ⟨⟨⟩, -⟩ := first.unique first'
      contradiction
    | placeholder first' => exact ⟨rfl, rfl, (first.unique first').2⟩
    | fails first' => cases (first.unique first').1
  | fails first =>
    cases takes' with
    | next first' => cases (first.unique first').1
    | placeholder first' => cases (first.unique first').1
    | fails first' =>
      obtain ⟨⟨⟩, rfl⟩ := first.unique first'
      exact ⟨rfl, rfl, rfl⟩

/-! ### Reads -/

/-- What comes back is accepted if it is a header for the same property. -/
theorem run_openRead_script (g : Gateway M) {property : PropertyId} (travels : property.Travels)
    {h : RawHeader} {answer : List UInt8}
    (hears : σ.Hears input ((h.toList ++ answer) :: replies)) :
  ∃ l : Script, (σ.over l).Hears answer replies ∧
    (g.openRead property : Act (Site Script M N) RawHeader).run σ =
      (if h.evenParity ∧ h.action = .read ∧ h.property = property then .ok h
        else .error .headerMismatch, σ.over l)
  := by
  obtain ⟨l₁, flushed, flushing⟩ := run_flush_script hears
  obtain ⟨l₂, sent, sending⟩ := run_send_script flushed
    (ActionHeader.pack ⟨.read, false, property, 0⟩).toList
  obtain ⟨l₃, after, received⟩ := run_receiveHeader_script g sent
  exact ⟨l₃, after, run_openRead_of_header g travels flushing sending received⟩

/-- No header comes back if too little arrives. -/
theorem run_openRead_short (g : Gateway M) {property : PropertyId} (travels : property.Travels)
    (few : (replies.headD []).length < Header.actionLength) (hears : σ.Hears input replies) :
  ∃ l : Script, (g.openRead property : Act (Site Script M N) RawHeader).run σ =
    (.error .timeout, σ.over l)
  := by
  obtain ⟨l₁, flushed, flushing⟩ := run_flush_script hears
  obtain ⟨l₂, sent, sending⟩ := run_send_script flushed
    (ActionHeader.pack ⟨.read, false, property, 0⟩).toList
  obtain ⟨l₃, -, received⟩ := run_receive_script g sent Header.actionLength
  rw [List.nil_append, if_pos few] at received
  have silent : (g.receiveHeader : Act (Site Script M N) RawHeader).run (σ.over l₂) =
      (.error .timeout, σ.over l₃) := run_bind_error received
  exact ⟨l₃, run_openRead_of_result g travels flushing sending silent⟩

/-- What may come back when a read is opened: nothing that is accepted, or a header. -/
theorem exists_openRead (g : Gateway M) {property : PropertyId} (travels : property.Travels)
    (hears : σ.Hears input replies) :
  (∃ failure l, (g.openRead property : Act _ RawHeader).run σ = (.error failure, σ.over l)) ∨
    ∃ h answer others l, replies = (RawHeader.toList h ++ answer) :: others ∧
      (σ.over l).Hears answer others ∧
      (g.openRead property : Act _ RawHeader).run σ = (.ok h, σ.over l)
  := by
  rcases replies with _ | ⟨_ | ⟨b0, _ | ⟨b1, _ | ⟨b2, answer⟩⟩⟩, others⟩
  case cons.cons.cons.cons =>
    obtain ⟨l, after, opened⟩ := run_openRead_script g travels (h := ⟨b0, b1, b2⟩) hears
    split at opened
    · exact .inr ⟨_, _, _, l, rfl, after, opened⟩
    · exact .inl ⟨_, l, opened⟩
  all_goals
    obtain ⟨l, silent⟩ := run_openRead_short g travels (by simp [Header.actionLength]) hears
    exact .inl ⟨_, l, silent⟩

variable [Inhabited M]

/-- Noting the length of the chain is done aside from the line. -/
theorem Session.Hears.noted (hears : σ.Hears input replies) {count : Nat}
    (few : count ≤ modulesMax) :
  (σ.noted count).Hears input replies
  := by
  obtain ⟨entries, state, -⟩ := noteCount_site (N := N) σ.env few
  rw [Session.noted, state]
  exact ⟨hears.input_eq, hears.replies_eq, hears.fine⟩

/-- What is left to receive after the value of a node has been put into its module. -/
theorem run_receiveValues_data (g : Gateway M) (d : Definition M) (data : List UInt8)
    (remaining index : Nat) (trouble : Trouble) (σ : Session (Site Script M N)) :
  (do
    match ← within (Replica.modify index (d.deserialize data)) with
    | some (.error e) =>
      g.receiveValues d remaining (index + 1) { trouble with refused := some (.ofProperty e) }
    | some (.ok ()) | none => g.receiveValues d remaining (index + 1) trouble :
    Act (Site Script M N) Trouble).run σ =
  (g.receiveValues d remaining (index + 1)
    (trouble.after (Replica.modify index (d.deserialize data) σ.env).1) : Act _ Trouble).run
      (σ.after (Replica.modify index (d.deserialize data)))
  := by
  rw [run_bind_ok (run_within _)]
  rcases (Replica.modify index (d.deserialize data) σ.env).1 with _ | ⟨_ | _⟩ <;> rfl

/-- Values are taken whatever the line. -/
theorem takeValues_over (d : Definition M) (frames : List Frame) (index : Nat) (trouble : Trouble)
    (σ : Session (Site Script M N)) (l : Script) :
  (takeValues d frames index trouble (σ.over l).env).1 =
      (takeValues d frames index trouble σ.env).1 ∧
    (σ.over l).after (takeValues d frames index trouble) =
      (σ.after (takeValues d frames index trouble)).over l
  := by
  induction frames generalizing index trouble σ with
  | nil => exact ⟨rfl, rfl⟩
  | cons frame rest ih =>
    cases frame with
    | data data =>
      apply ih (index + 1) (trouble.after (Replica.modify index (d.deserialize data) σ.env).1)
        (σ.after (Replica.modify index (d.deserialize data)))
    | placeholder => apply ih
    | empty => apply ih

/-- The frames that have arrived are taken one after another, and their values put into the
modules, until all are taken or one of them stops this. -/
theorem run_receiveValues_takes (g : Gateway M) (d : Definition M) {count : Nat}
    {rest : List UInt8} {frames : List Frame} {stop : Option Failure}
    (takes : Takes count input frames stop rest) (index : Nat) (trouble : Trouble)
    (hears : σ.Hears input replies) :
  ∃ l : Script, ((σ.after (takeValues d frames index trouble)).over l).Hears rest replies ∧
    (g.receiveValues d count index trouble : Act (Site Script M N) Trouble).run σ =
      (stop.elim (.ok (takeValues d frames index trouble σ.env).1) .error,
        (σ.after (takeValues d frames index trouble)).over l)
  := by
  induction takes generalizing index trouble σ with
  | done => exact ⟨σ.env.line, hears, rfl⟩
  | @next count _ _ _ frame frames _ first goes _ ih =>
    obtain ⟨l, after, received⟩ := run_receiveFrame_script g first hears
    rw [receiveValues, run_bind_ok received]
    cases frame with
    | placeholder => contradiction
    | empty =>
      obtain ⟨l', behind, taken⟩ := ih (index + 1) { trouble with missing := true } after
      obtain ⟨same, state⟩ := takeValues_over d frames (index + 1)
        { trouble with missing := true } σ l
      rw [state] at behind
      refine ⟨l', behind, taken.trans ?_⟩
      rw [same, state]
      rfl
    | data data =>
      let put : StateM (Site Script M N) _ := Replica.modify index (d.deserialize data)
      obtain ⟨l', behind, taken⟩ := ih (index + 1) (trouble.after (put σ.env).1)
        (σ := (σ.over l).after put) ⟨after.input_eq, after.replies_eq, after.fine⟩
      obtain ⟨same, state⟩ := takeValues_over d frames (index + 1) (trouble.after (put σ.env).1)
        (σ.after put) l
      rw [show (σ.over l).after put = (σ.after put).over l from rfl, state] at behind
      refine ⟨l', behind, (run_receiveValues_data g d data count index trouble (σ.over l)).trans
        (taken.trans ?_)⟩
      rw [show (σ.over l).after put = (σ.after put).over l from rfl, same, state]
      rfl
  | placeholder first =>
    obtain ⟨l, after, received⟩ := run_receiveFrame_script g first hears
    refine ⟨l, after, ?_⟩
    rw [receiveValues, run_bind_ok received]
    rfl
  | fails first =>
    obtain ⟨l, after, received⟩ := run_receiveFrame_script g first hears
    refine ⟨l, after, ?_⟩
    rw [receiveValues, run_bind_error received]
    rfl

/-- Values that have arrived are taken. -/
theorem run_receiveValues_script (g : Gateway M) (d : Definition M) {batch : List (List UInt8)}
    {frames : List Frame} (whole : List.Forall₂ Frame.Whole batch frames)
    (values : ∀ frame ∈ frames, frame ≠ .placeholder) (index : Nat) (trouble : Trouble)
    (hears : σ.Hears (batch.flatten ++ input) replies) :
  ∃ l : Script, (g.receiveValues d frames.length index trouble :
    Act (Site Script M N) Trouble).run σ =
      (.ok (takeValues d frames index trouble σ.env).1,
        (σ.after (takeValues d frames index trouble)).over l)
  := by
  obtain ⟨l, -, taken⟩ := run_receiveValues_takes g d (.of_whole whole values input) index trouble
    hears
  exact ⟨l, taken⟩

/-- Values that are received have arrived. -/
theorem exists_of_receiveValues (g : Gateway M) (d : Definition M) {count index : Nat}
    {trouble trouble' : Trouble} (hears : σ.Hears input replies)
    (ok : (g.receiveValues d count index trouble : Act (Site Script M N) Trouble).run σ =
      (.ok trouble', τ)) :
  ∃ batch frames rest l, List.Forall₂ Frame.Whole batch frames ∧ frames.length = count ∧
    (∀ frame ∈ frames, frame ≠ .placeholder) ∧ input = batch.flatten ++ rest ∧
    trouble' = (takeValues d frames index trouble σ.env).1 ∧
    τ = (σ.after (takeValues d frames index trouble)).over l
  := by
  obtain ⟨frames, stop, rest, takes⟩ := exists_takes count input
  obtain ⟨l, -, taken⟩ := run_receiveValues_takes g d takes index trouble hears
  rw [taken] at ok
  cases stop with
  | some failure => cases ok
  | none =>
    cases ok
    obtain ⟨batch, arrived, whole, length⟩ := takes.exists_batch
    exact ⟨batch, frames, rest, l, whole, length, takes.ne_placeholder, arrived, rfl, rfl⟩

end DaisyChain.Gateway
