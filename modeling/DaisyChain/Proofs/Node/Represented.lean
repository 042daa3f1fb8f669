import DaisyChain.Proofs.Node.Registers
import DaisyChain.Proofs.Node.Ticks

/-!
# Engines and their registers

The engine of a node is what its registers mean in the state in which they are (`Registers.engine`).
Coherent registers do with what the port offers them what their engine does with the wires, state by
state, and so a tick of the node is a tick of its registers (`Registers.Coherent.exists_offer`).
-/

namespace DaisyChain.Node

namespace Registers

variable {M : Type} {r : Registers}

/-! ### What registers mean -/

/-- The bytes of a header that is not yet complete. -/
def heard (r : Registers) : Heard :=
  match r.progress with
  | 0 => .nothing
  | 1 => .first r.received.byte0
  | _ => .second r.received.byte0 r.received.byte1

/-- What the header of the transaction in progress asks for. -/
def request (r : Registers) : Request :=
  ⟨r.action, r.holdsBack, r.property⟩

/-- The values that wait to be applied. -/
def batch (r : Registers) : Batch :=
  match r.committing, r.pending with
  | false, some slot => .one slot
  | _, _ => .staged

/-- What the node is doing. -/
def phase (r : Registers) : Phase :=
  match r.state with
  | .listening => .listening r.heard
  | .recovering => .recovering
  | .counting => .counting r.request r.remaining r.kept
  | .sending => .sending r.request r.frame r.progress
  | .relaying => .relaying r.request r.remaining r.collector
  | .committing => .committing r.batch

/-- The engine that the registers are those of. -/
def engine (r : Registers) : Engine :=
  ⟨r.phase, r.since, r.staged, r.record⟩

/-! ### Engines in each state -/

/-- A node that has not heard anything. -/
theorem heard_nothing (progress : r.progress = 0) :
  r.heard = .nothing
  := by
  simp only [heard, progress]

/-- A node that has heard one byte. -/
theorem heard_first (progress : r.progress = 1) :
  r.heard = .first r.received.byte0
  := by
  simp only [heard, progress]

/-- A node that has heard two bytes. -/
theorem heard_second (progress : 1 < r.progress) :
  r.heard = .second r.received.byte0 r.received.byte1
  := by
  rw [heard]
  split
  · omega
  · omega
  · rfl

/-- The value of the transaction in progress is applied alone. -/
theorem batch_one (single : r.committing = false) {slot : Slot} (pending : r.pending = some slot) :
  r.batch = .one slot
  := by
  rw [batch, single, pending]

/-- The engine of a node that listens. -/
theorem engine_listening (state : r.state = .listening) :
  r.engine = ⟨.listening r.heard, r.since, r.staged, r.record⟩
  := by
  simp only [engine, phase, state]

/-- The engine of a node that recovers. -/
theorem engine_recovering (state : r.state = .recovering) :
  r.engine = ⟨.recovering, r.since, r.staged, r.record⟩
  := by
  simp only [engine, phase, state]

/-- The engine of a node that counts the frames of a transaction. -/
theorem engine_counting (state : r.state = .counting) :
  r.engine = ⟨.counting r.request r.remaining r.kept, r.since, r.staged, r.record⟩
  := by
  simp only [engine, phase, state]

/-- The engine of a node that sends its own frame. -/
theorem engine_sending (state : r.state = .sending) :
  r.engine = ⟨.sending r.request r.frame r.progress, r.since, r.staged, r.record⟩
  := by
  simp only [engine, phase, state]

/-- The engine of a node that receives a frame. -/
theorem engine_relaying (state : r.state = .relaying) :
  r.engine = ⟨.relaying r.request r.remaining r.collector, r.since, r.staged, r.record⟩
  := by
  simp only [engine, phase, state]

/-- The engine of a node that applies values. -/
theorem engine_committing (state : r.state = .committing) :
  r.engine = ⟨.committing r.batch, r.since, r.staged, r.record⟩
  := by
  simp only [engine, phase, state]

/-! ### Faults -/

/-- The engine is in the state of the registers. -/
theorem state_engine (r : Registers) :
  r.engine.state = r.state
  := by
  rw [Engine.state, engine, phase]
  cases r.state <;> rfl

/-- A fault is recorded. -/
theorem engine_note (r : Registers) (fault : Fault) :
  (r.note fault).engine = r.engine.note fault
  := by
  rw [Engine.note, state_engine]
  rfl

/-- After a fault, the engine recovers. -/
theorem engine_fail (r : Registers) (fault : Fault) (now : UInt32) :
  (r.fail fault now).engine = r.engine.fail fault now
  := by
  rw [Engine.fail, ← engine_note]
  rfl

/-- The engine records the fault that the registers tell. -/
theorem Stocked.lastFault_engine (stocked : r.Stocked) :
  r.engine.lastFault = r.lastFault
  := stocked.fault_record

/-! ### Hearing -/

/-- The first byte of a header is taken and forwarded as the engine does it. -/
theorem engine_hearFirst (stocked : r.Stocked) (state : r.state = .listening)
    (progress : r.progress = 1) (byte : UInt8) :
  r.engine.hear .nothing byte r.since =
    ((r.hearFirst byte r.since).1.engine, (r.hearFirst byte r.since).2)
  := by
  let header : RawHeader := ⟨byte, 0, 0⟩
  let opened := r.opened header (r.answered header)
  change (if header.action = .sync then _ else _) =
    ((opened.synchronise r.since).engine, (r.answered header).byte0)
  rw [synchronise, answered]
  by_cases action : header.action = .sync
  · rw [if_pos action, if_pos action, if_pos (show opened.action = .sync from action),
      Engine.hearSync, stocked.lastFault_engine, show opened.received.syncKind = header.syncKind from rfl,
      show SyncKind.ofByte byte = header.syncKind from rfl]
    cases header.syncKind <;> rfl
  · rw [if_neg action, if_neg (show opened.action ≠ .sync from action), engine_listening state,
      engine_listening (r := opened) state, heard_first (r := opened) progress, ← answered,
      stocked.byte0_answered action]
    rfl

/-- The second byte of a header is taken and forwarded as the engine does it. -/
theorem engine_hearSecond (state : r.state = .listening) (progress : 1 < r.progress)
    (action : r.action = r.received.action) (byte : UInt8) :
  r.engine.hear (.first r.received.byte0) byte r.since =
    ((r.hearSecond byte).1.engine, (r.hearSecond byte).2)
  := by
  have forwards : (r.hearSecond byte).2 = forwardSecond r.received.byte0 byte := by
    change RawHeader.setLow byte 64 (countAfter r.action (byte.toNat % 64) % 64) = _
    rw [action]
    rfl
  rw [forwards, engine_listening state, engine_listening (r := (r.hearSecond byte).1) state,
    heard_second (r := (r.hearSecond byte).1) progress]
  rfl

/-- The registers accept the headers that the engine accepts. -/
theorem accepts_eq {header : RawHeader} (action : r.action = header.action) :
  accepts header = (header.evenParity && !r.asksNobody header)
  := by
  rw [accepts, asksNobody, action, Bool.decide_and]
  rfl

/-- The registers expect as many frames as the engine. -/
theorem framesAfter_eq {header : RawHeader} (action : r.action = header.action) :
  framesAfter header = framesAsked r.action header.count
  := by
  rw [framesAfter, action]
  cases header.action <;> rfl

/-- The registers forward the header that the engine forwards. -/
theorem passedOn_eq {header : RawHeader} (action : r.action = header.action)
    (byte0 : r.forwarded.byte0 = forwardFirst r.record header.byte0)
    (byte1 : r.forwarded.byte1 = forwardSecond header.byte0 header.byte1) :
  r.passedOn header = forward r.record header
  := by
  rw [passedOn, forward, accepts_eq action, action, ← byte0, ← byte1]

/-- A complete header begins the transaction that it begins for the engine. -/
theorem engine_accept (header : RawHeader) (action : r.action = header.action)
    (holdsBack : r.holdsBack = header.flag) (property : r.property = header.property)
    (kept : r.kept = none) (now : UInt32) :
  (r.accept header now).engine = r.engine.acceptHeader header now
  := by
  rw [accept, Engine.acceptHeader, accepts_eq action]
  cases header.evenParity with
  | false => exact engine_fail r .headerParity now
  | true =>
    cases r.asksNobody header with
    | true => exact engine_fail r .invalidState now
    | false =>
      have request : Request.ofHeader header = r.request := by
        rw [Request.ofHeader, ← action, ← holdsBack, ← property]
        rfl
      rw [request, framesAfter_eq action, ← kept]
      rfl

/-- The third byte of a header is taken and forwarded as the engine does it. -/
theorem engine_hearThird (kept : r.kept = none)
    (first : r.action = r.received.action ∧ r.action ≠ .sync ∧ r.holdsBack = r.received.flag ∧
      r.forwarded.byte0 = forwardFirst r.record r.received.byte0)
    (second : r.property = r.received.property ∧
      r.forwarded.byte1 = forwardSecond r.received.byte0 r.received.byte1)
    (byte : UInt8) (now : UInt32) :
  r.engine.hear (.second r.received.byte0 r.received.byte1) byte now =
    ((r.hearThird byte now).1.engine, (r.hearThird byte now).2)
  := by
  obtain ⟨action, -, holdsBack, byte0⟩ := first
  obtain ⟨property, byte1⟩ := second
  let header : RawHeader := { r.received with byte2 := byte }
  let completed := r.completed header (r.passedOn header)
  have forwards : r.passedOn header = forward r.record header := passedOn_eq action byte0 byte1
  have accepts : (completed.accept header now).engine = r.engine.acceptHeader header now :=
    engine_accept (r := completed) header action holdsBack property kept now
  exact Prod.ext accepts.symm (congrArg RawHeader.byte2 forwards.symm)

/-- What an engine that listens does with a byte does not depend on when the last one came. -/
theorem hear_listening {e : Engine} {heard' : Heard} (listening : e.phase = .listening heard')
    (heard'' heard : Heard) (since : UInt32) (byte : UInt8) (now : UInt32) :
  Engine.hear { e with phase := .listening heard'', since := since } heard byte now =
    e.hear heard byte now
  := by
  cases heard with
  | nothing => rfl
  | first byte0 => rfl
  | second byte0 byte1 =>
    exact Prod.ext (Engine.acceptHeader_listening listening heard'' since ⟨byte0, byte1, byte⟩) rfl

/-- Each byte of a header is taken and forwarded as the engine does it. -/
theorem Coherent.engine_hear (coherent : r.Coherent) (state : r.state = .listening) (byte : UInt8)
    (now : UInt32) :
  r.engine.hear r.heard byte now = ((r.hear byte now).1.engine, (r.hear byte now).2)
  := by
  obtain ⟨clear, -, hears⟩ := coherent.listening state
  have stocked := coherent.stocked
  let taken : Registers := { r with since := now, progress := r.progress + 1 }
  have stocked' : taken.Stocked := stocked.congr rfl rfl rfl
  have same : r.engine.hear r.heard byte now = taken.engine.hear r.heard byte now := by
    rw [engine_listening (r := taken) state]
    exact (hear_listening (congrArg Engine.phase (engine_listening state)) taken.heard r.heard now
      byte now).symm
  rw [same, Registers.hear]
  split
  · next none =>
    rw [heard_nothing none]
    exact engine_hearFirst stocked' state (congrArg (· + 1) none) byte
  · next one =>
    have some : 0 < r.progress := by omega
    rw [heard_first one]
    exact engine_hearSecond (r := taken) state (Nat.succ_lt_succ some) (hears.first some).1 byte
  · next none one =>
    have late : 1 < r.progress := Nat.lt_of_le_of_ne (Nat.pos_of_ne_zero none) (Ne.symm one)
    rw [heard_second late]
    exact engine_hearThird (r := taken) clear.kept (hears.first (Nat.lt_of_succ_lt late))
      (hears.second late) byte now

/-- A node to which nothing is said goes on waiting, or not, as its engine does. -/
theorem engine_awaitHeader (state : r.state = .listening) (now : UInt32) :
  (r.listen now []).1.engine = r.engine.awaitHeader r.heard now ∧ (r.listen now []).2 = []
  := by
  have partly : 0 < r.progress ↔ r.heard ≠ .nothing := by
    rw [heard]
    split <;> simp_all
    omega
  rw [listen, Engine.awaitHeader]
  by_cases waits : 0 < r.progress ∧ r.timedOut now
  · rw [if_pos ⟨state, waits⟩, if_pos ⟨partly.mp waits.1, waits.2⟩]
    exact ⟨engine_fail r .timeout now, rfl⟩
  · rw [if_neg fun all => waits all.2, if_neg fun all => waits ⟨partly.mpr all.1, all.2⟩]
    exact ⟨rfl, rfl⟩

/-- A node that does not listen does not wait for a header either. -/
theorem listen_nil (state : r.state ≠ .listening) (now : UInt32) :
  r.listen now [] = (r, [])
  := by
  rw [listen, if_neg fun all => state all.1]

/-- A node hears some of the bytes that wait as its engine hears them. -/
theorem Coherent.exists_listen (coherent : r.Coherent) (now : UInt32) (tx : Link)
    (rx : List UInt8) :
  ∃ bytes, bytes <+: rx ∧ r.engine.listen now tx rx =
    ((r.listen now bytes).1.engine, rx.drop (r.listen now bytes).2.length,
      tx.pushAll (r.listen now bytes).2)
  := by
  -- Where the node stops, the bytes that it is offered are over: there is no room, or it does not
  -- listen any more.
  induction rx generalizing r tx with
  | nil =>
    refine ⟨[], List.prefix_rfl, ?_⟩
    by_cases state : r.state = .listening
    · obtain ⟨after, sent⟩ := engine_awaitHeader state now
      rw [after, sent, engine_listening state]
      rfl
    · rw [Engine.listen_idle (state_engine r ▸ state), listen_nil state]
      rfl
  | cons byte rest ih =>
    by_cases state : r.state = .listening
    · have phase : r.engine.phase = .listening r.heard := by rw [engine_listening state]
      rw [Engine.listen]
      simp only [phase]
      split
      · obtain ⟨after, sent⟩ := engine_awaitHeader state now
        refine ⟨[], List.nil_prefix, ?_⟩
        rw [after, sent]
        rfl
      · obtain ⟨bytes, begins, same⟩ := ih (coherent.hear state byte now)
          (tx.push (r.hear byte now).2)
        refine ⟨byte :: bytes, (List.prefix_cons_inj byte).mpr begins, ?_⟩
        rw [coherent.engine_hear state, same, Registers.listen, if_pos state]
        rfl
    · refine ⟨[], List.nil_prefix, ?_⟩
      rw [Engine.listen_idle (state_engine r ▸ state), listen_nil state]
      rfl

/-! ### Recovering -/

/-- A node recovers as its engine does. -/
theorem engine_recover (r : Registers) (now : UInt32) (busy : Bool) :
  (r.recover now busy).engine = r.engine.recover now busy
  := by
  rw [recover, apply_ite engine, apply_ite engine]
  rfl

/-! ### Counting -/

/-- A value is held back as the engine does it. -/
theorem engine_stage (stocked : r.Stocked) (slot : Slot) (now : UInt32) :
  (({ r with kept := none }.stage slot).enter .listening now).engine =
    (r.engine.stage slot).enter (.listening .nothing) now
  := by
  rw [stage, Engine.stage, replace_eq slot stocked.apart]
  by_cases found : r.staged.any fun held => held.property == slot.property
  · rw [if_pos found, if_pos (show r.engine.staged.any _ = true from found)]
    rfl
  · rw [if_neg found, if_neg (show ¬r.engine.staged.any _ = true from found)]
    by_cases room : r.staged.length < slotsMax
    · rw [if_pos (show r.engine.staged.length < slotsMax from room)]
      dsimp only
      rw [if_pos room]
      rfl
    · rw [if_neg (show ¬r.engine.staged.length < slotsMax from room)]
      dsimp only
      rw [if_neg room, Engine.note, state_engine]
      rfl

/-- The report of a record. -/
theorem reportOf_record (stocked : r.Stocked) :
  reportOf r.record = [faultByte r.lastFault, (r.faultState.map NodeState.toByte).getD 0]
  := by
  rw [record]
  obtain ⟨fault, state⟩ | ⟨fault', state', fault, state⟩ := stocked.recording
  all_goals
    rw [fault, state]
    rfl

/-- A node that has laid out a frame sends it. -/
theorem engine_layOut (state : r.state = .sending) (value : Except Fault (List UInt8)) :
  (r.layOut value).engine =
    match framed value with
    | .ok frame => ⟨.sending r.request frame r.progress, r.since, r.staged, r.record⟩
    | .error fault => ⟨.sending r.request [0] r.progress, r.since, r.staged, some ⟨fault, .sending⟩⟩
  := by
  rw [layOut]
  cases framed value with
  | ok frame => exact engine_sending (r := { r with frame := frame }) state
  | error fault =>
    rw [engine_sending (r := { r.note fault with frame := [0] }) state, ← state]
    rfl

/-- A node answers a read as its engine does. -/
theorem engine_produce (stocked : r.Stocked) (state : r.state = .sending) (progress : r.progress = 0)
    (table : Table M) (m : M) :
  (r.produce table m).engine =
    ⟨.sending r.request (answer table m r.property r.record).1 0, r.since, r.staged,
      (answer table m r.property r.record).2⟩
  := by
  rw [← progress, produce, readValue, answer]
  by_cases query : r.property.isErrorQuery
  · rw [if_pos query, if_pos query, if_pos query, reportOf_record stocked,
      engine_layOut (r := { r with lastFault := none, faultState := none }) state]
    rw [← framed]
    cases framed _ <;> rfl
  · rw [if_neg query, if_neg query, if_neg query, engine_layOut state, ← framed]
    cases framed _ <;> rfl

/-- A node decides what comes next as its engine does. -/
theorem engine_count (stocked : r.Stocked) (committing : r.committing = false) (table : Table M)
    (now : UInt32) (m : M) :
  (r.count table now m).engine = r.engine.count table now r.request r.remaining r.kept m
  := by
  unfold count Engine.count
  by_cases last : r.remaining = 0
  · rw [if_pos last, if_pos last]
    cases kept : r.kept with
    | none => rfl
    | some data =>
      let applies := { r with kept := none, pending := some ⟨r.property, data⟩ }.enter .committing now
      dsimp only
      rw [apply_ite engine, engine_stage stocked, engine_committing (r := applies) rfl,
        batch_one (r := applies) committing rfl]
      rfl
  · rw [if_neg last, if_neg last]
    dsimp only
    rw [apply_ite engine]
    have own : r.action = .read ∧ r.remaining - 1 = 0 ↔
        r.request.action = .read ∧ r.remaining = 1 := and_congr_right fun _ => by omega
    by_cases turn : r.request.action = .read ∧ r.remaining = 1
    · let answers := { r with remaining := r.remaining - 1 }.enter .sending now
      have stocked' : answers.Stocked :=
        stocked.congr rfl rfl rfl
      rw [if_pos (own.mpr turn), if_pos turn, engine_produce (r := answers) stocked' rfl rfl]
      rfl
    · rw [if_neg fun turn' => turn (own.mp turn'), if_neg turn]
      rfl

/-! ### Sending -/

/-- A node sends its own frame as its engine does. -/
theorem exists_send (state : r.state = .sending) (now : UInt32) (tx : Link) :
  ∃ accepted, r.engine.send now r.request r.frame r.progress tx =
    ((r.send now accepted).1.engine, tx.pushAll (r.send now accepted).2)
  := by
  let batch := (r.frame.drop r.progress).take tx.room
  have all : (r.frame.drop r.progress).take batch.length = batch := by
    rw [List.length_take, ← List.take_eq_take_min]
  refine ⟨batch.length, ?_⟩
  rw [Engine.send, send]
  by_cases late : r.timedOut now
  · rw [if_pos (show r.engine.timedOut now = true from late), if_pos late, engine_fail]
    rfl
  · rw [if_neg (show ¬r.engine.timedOut now = true from late), if_neg late, all]
    refine Prod.ext ?_ rfl
    change (if r.frame.length ≤ r.progress + batch.length then _ else if batch = [] then _ else _) = _
    by_cases none : batch = []
    · rw [if_pos none, none, List.length_nil, Nat.add_zero, if_neg (Nat.lt_irrefl 0), apply_ite engine]
      rfl
    · let further := { r with since := now, progress := r.progress + batch.length }
      rw [if_neg none, if_pos (List.length_pos_iff.mpr none)]
      dsimp only
      rw [apply_ite engine, engine_sending (r := further) state]
      rfl

/-! ### Relaying -/

/-- A frame that has ended is taken as the engine takes it. -/
theorem engine_finishFrame (kept : r.kept = none) (keep : Bool) (collector : Frame.Collector)
    (now : UInt32) :
  ({ r with since := now, collector := collector }.finishFrame now keep).engine =
    r.engine.finishFrame now r.request r.remaining keep collector.decode
  := by
  have fails (fault : Fault) :
      ({ r with since := now, collector := collector }.fail fault now).engine =
        r.engine.fail fault now := engine_fail r fault now
  have goes : ({ r with since := now, collector := collector }.enter .counting now).engine =
      r.engine.enter (.counting r.request r.remaining none) now := by
    rw [← kept]
    rfl
  unfold finishFrame Engine.finishFrame
  dsimp only
  cases collector.decode with
  | error e => cases e <;> exact fails _
  | ok frame =>
    cases frame with
    | data value =>
      cases keep with
      | true => rfl
      | false => exact goes
    | placeholder => exact goes
    | empty =>
      cases keep with
      | true => exact fails .decoding
      | false => exact goes

/-- A node that reads nothing of a frame sends nothing on. -/
theorem collect_nil (r : Registers) (now : UInt32) (tx : Link) (rx : List UInt8) :
  ((r.collect now r.keeps []).1.engine, rx.drop (r.collect now r.keeps []).2,
    tx.pushAll (if r.passes then ([] : List UInt8).take (r.collect now r.keeps []).2 else [])) =
      (r.engine, rx, tx)
  := by
  rw [List.take_nil, ite_self]
  rfl

/-- A node takes some of the bytes that wait as the next ones of a frame, as its engine does. -/
theorem exists_collect (state : r.state = .relaying) (kept : r.kept = none) (now : UInt32) (tx : Link)
    (rx : List UInt8) :
  ∃ bytes, bytes <+: rx ∧
    r.engine.collect now r.request r.remaining r.passes r.keeps r.collector tx rx =
      ((r.collect now r.keeps bytes).1.engine, rx.drop (r.collect now r.keeps bytes).2,
        tx.pushAll (if r.passes then bytes.take (r.collect now r.keeps bytes).2 else []))
  := by
  have once (pass : Bool) (tx : Link) (byte : UInt8) :
      (if pass then tx.push byte else tx) = tx.pushAll (if pass then [byte] else []) := by
    cases pass <;> rfl
  have again (pass : Bool) (tx : Link) (byte : UInt8) (more : List UInt8) :
      (if pass then tx.push byte else tx).pushAll (if pass then more else []) =
        tx.pushAll (if pass then byte :: more else []) := by
    cases pass <;> rfl
  induction rx generalizing r tx with
  | nil => exact ⟨[], List.prefix_rfl, (collect_nil r now tx []).symm⟩
  | cons byte rest ih =>
    rw [Engine.collect]
    split
    · exact ⟨[], List.nil_prefix, (collect_nil r now tx (byte :: rest)).symm⟩
    · dsimp only
      cases fed : r.collector.feed byte with
      | mk answer collector =>
        let taken := { r with since := now, collector := collector }
        let tx' := if r.passes then tx.push byte else tx
        cases answer with
        | error e =>
          refine ⟨[byte], List.prefix_append [byte] rest, ?_⟩
          rw [collect, fed]
          have fails : ({ r with since := now }.fail .decoding now).engine =
              r.engine.fail .decoding now := engine_fail r .decoding now
          exact Prod.ext fails.symm (Prod.ext rfl (once r.passes tx byte))
        | ok ended =>
          cases ended with
          | false =>
            obtain ⟨bytes, begins, same⟩ := ih (r := taken) state kept tx'
            refine ⟨byte :: bytes, (List.prefix_cons_inj byte).mpr begins, ?_⟩
            have enters : r.engine.enter (.relaying r.request r.remaining collector) now =
                taken.engine := (engine_relaying (r := taken) state).symm
            rw [collect, fed]
            dsimp only
            rw [enters]
            exact same.trans (Prod.ext rfl (Prod.ext rfl (again r.passes tx byte _)))
          | true =>
            refine ⟨[byte], List.prefix_append [byte] rest, ?_⟩
            rw [collect, fed]
            have ends := engine_finishFrame kept r.keeps collector now
            exact Prod.ext ends.symm (Prod.ext rfl (once r.passes tx byte))

/-- A node receives some of the bytes that wait as its engine receives them. -/
theorem exists_relay (state : r.state = .relaying) (kept : r.kept = none) (now : UInt32) (tx : Link)
    (rx : List UInt8) :
  ∃ bytes, bytes <+: rx ∧
    r.engine.relay now r.request r.remaining r.collector rx tx =
      ((r.relay now bytes).1.engine, rx.drop (r.relay now bytes).2,
        tx.pushAll (if r.passes then bytes.take (r.relay now bytes).2 else []))
  := by
  by_cases late : r.timedOut now
  · refine ⟨[], List.nil_prefix, ?_⟩
    rw [relay, if_pos late, List.take_nil, ite_self, apply_ite engine, engine_fail]
    unfold Engine.relay
    rw [if_pos (show r.engine.timedOut now = true from late)]
    refine Prod.ext ?_ rfl
    change (if decide (r.collector.bytes = [] ∧ r.keeps = false) = true then _ else _) = _
    simp only [decide_eq_true_eq]
    rfl
  · obtain ⟨bytes, begins, same⟩ := exists_collect state kept now tx rx
    refine ⟨bytes, begins, ?_⟩
    rw [relay, if_neg late]
    unfold Engine.relay
    rw [if_neg (show ¬r.engine.timedOut now = true from late)]
    exact same

/-! ### Applying -/

/-- To apply a single value is to apply all of a list of one. -/
theorem applyAll_singleton (table : Table M) (slot : Slot) (m : M) :
  applyAll table [slot] m = applySlot table slot m
  := by
  rw [applyAll]
  cases applied : applySlot table slot m with
  | mk result m' => cases result <;> rfl

/-- A node that has applied values goes on as an engine does that is in the same state and holds the
same values back. -/
theorem engine_conclude {e : Engine} (state : e.state = r.state) (staged : e.staged = r.staged)
    (record : e.record = r.record) (now : UInt32) (result : Except Fault Unit) :
  (r.conclude now result).engine =
    match result with
    | .ok () => e.enter (.listening .nothing) now
    | .error fault => e.fail fault now
  := by
  cases result with
  | ok _ =>
    rw [Engine.enter, staged, record]
    rfl
  | error fault =>
    change _ = (e.note fault).enter .recovering now
    rw [Engine.enter, Engine.note, staged, state]
    rfl

/-- A node that waits too long before it applies values gives them up as its engine does. -/
theorem engine_abandon (r : Registers) (fault : Fault) (now : UInt32) :
  (r.abandon.fail fault now).engine = Engine.fail { r.engine with staged := [] } fault now
  := by
  have state : Engine.state { r.engine with staged := [] } = r.state := state_engine r
  rw [Engine.fail, Engine.note, state]
  rfl

/-- A node waits before it applies values as its engine does. -/
theorem engine_await (r : Registers) (now : UInt32) :
  (if r.timedOut now then r.abandon.fail .timeout now else r).engine =
    if r.engine.timedOut now then Engine.fail { r.engine with staged := [] } .timeout now else r.engine
  := by
  rw [apply_ite engine, engine_abandon]
  rfl

/-- A node applies the values held back as its engine does. -/
theorem engine_commit_staged (all : r.committing = true) (table : Table M) (now : UInt32)
    (drained : Bool) (m : M) :
  r.engine.commit table now .staged drained m =
    ((r.commit table now drained m).1.engine, (r.commit table now drained m).2)
  := by
  rw [Engine.commit, commit, applied, if_pos all]
  by_cases empty : r.staged = []
  · rw [if_pos ⟨rfl, empty⟩, if_pos (decide_eq_true empty)]
    rfl
  · rw [if_neg fun both => empty both.2, if_neg fun done => empty (of_decide_eq_true done)]
    cases drained with
    | false => exact Prod.ext (engine_await r now).symm rfl
    | true =>
      let applying := { r with staged := [], committing := false }
      have concludes (result : Except Fault Unit) := engine_conclude (r := applying)
        (e := { r.engine with staged := [] }) (state_engine r) rfl rfl now result
      rw [if_neg Bool.noConfusion, if_neg Bool.noConfusion, if_pos all]
      dsimp only
      rw [concludes]
      change (match (applyAll table r.staged m).1 with | .ok () => _ | .error _ => _) = _
      cases (applyAll table r.staged m).1 <;> rfl

/-- A node applies the value of a transaction as its engine does. -/
theorem engine_commit_one (single : r.committing = false) {slot : Slot}
    (pending : r.pending = some slot) (table : Table M) (now : UInt32) (drained : Bool) (m : M) :
  r.engine.commit table now (.one slot) drained m =
    ((r.commit table now drained m).1.engine, (r.commit table now drained m).2)
  := by
  have waits : r.applied = false := by
    rw [applied, if_neg (ne_true_of_eq_false single), pending]
    rfl
  rw [Engine.commit, commit, waits, if_neg fun both => Batch.noConfusion both.1,
    if_neg Bool.false_ne_true]
  cases drained with
  | false => exact Prod.ext (engine_await r now).symm rfl
  | true =>
    let applying := { r with pending := none }
    have concludes (result : Except Fault Unit) := engine_conclude (r := applying)
      (e := r.engine) (state_engine r) rfl rfl now result
    rw [if_neg Bool.noConfusion, if_neg Bool.noConfusion, if_neg (ne_true_of_eq_false single),
      pending]
    dsimp only
    rw [concludes, applyAll_singleton]
    cases (applySlot table slot m).1 <;> rfl

/-- A node applies values as its engine does. -/
theorem engine_commit
    (batch : r.committing = true ∧ r.pending = none ∨
      r.committing = false ∧ ∃ slot, r.pending = some slot)
    (table : Table M) (now : UInt32) (drained : Bool) (m : M) :
  r.engine.commit table now r.batch drained m =
    ((r.commit table now drained m).1.engine, (r.commit table now drained m).2)
  := by
  obtain ⟨all, none⟩ | ⟨single, slot, pending⟩ := batch
  · have batch : r.batch = .staged := by
      rw [Registers.batch, all, none]
    rw [batch]
    exact engine_commit_staged all table now drained m
  · rw [batch_one single pending]
    exact engine_commit_one single pending table now drained m

/-! ### Ticks -/

/-- What a tick of a node does is what its registers do if the port offers some of the bytes that wait,
and so on: it leaves behind the engine of the registers, it has read what they have taken, and it has
sent what they have sent. -/
theorem Coherent.exists_offer {s : Station M} (coherent : r.Coherent) (same : s.engine = r.engine)
    (table : Table M) (now : UInt32) :
  ∃ offer, offer.bytes <+: s.wiring.rx ∧
    let effect := r.tick table now offer s.module
    s.tick table now =
      { engine := effect.registers.engine
        module := effect.module
        wiring :=
          { s.wiring with
            rx := s.wiring.rx.drop effect.taken
            tx := s.wiring.tx.pushAll effect.sent } }
  := by
  -- Bytes that get lost on the link leave their room to others, so that the room at the start does not
  -- tell how many bytes are offered.
  obtain ⟨stocked, engaged⟩ := coherent
  cases engaged with
  | listening state clear collector hears =>
    have coherent : r.Coherent := ⟨stocked, .listening state clear collector hears⟩
    have phase : r.engine.phase = .listening r.heard := by rw [engine_listening state]
    obtain ⟨bytes, begins, listens⟩ := coherent.exists_listen now s.wiring.tx s.wiring.rx
    refine ⟨{ bytes := bytes }, begins, ?_⟩
    simp only [Station.tick, Registers.tick, phase, state, same, listens]
  | recovering state clear collector progress =>
    have phase : r.engine.phase = .recovering := by rw [engine_recovering state]
    obtain ⟨read, left, sent, -⟩ := exists_swallowed s.wiring.tx s.wiring.rx
    have rest : s.wiring.rx.drop read.length = (Engine.swallow s.wiring.tx s.wiring.rx).1 :=
      (congrArg (List.drop read.length) left).trans List.drop_left
    refine ⟨{ bytes := read, busy := s.wiring.busy (Engine.swallow s.wiring.tx s.wiring.rx).1 },
      ⟨_, left.symm⟩, ?_⟩
    simp only [Station.tick, Registers.tick, phase, state, same, engine_recover, rest, sent,
      List.map_const']
  | counting state pending committing collector progress asked kept =>
    have phase : r.engine.phase = .counting r.request r.remaining r.kept := by
      rw [engine_counting state]
    refine ⟨{}, List.nil_prefix, ?_⟩
    simp only [Station.tick, Registers.tick, phase, state, same, engine_count stocked committing]
    rfl
  | sending state clear collector asked read whole progress =>
    have phase : r.engine.phase = .sending r.request r.frame r.progress := by
      rw [engine_sending state]
    obtain ⟨accepted, sends⟩ := exists_send state now s.wiring.tx
    refine ⟨{ accepted := accepted }, List.nil_prefix, ?_⟩
    simp only [Station.tick, Registers.tick, phase, state, same, sends]
    rfl
  | relaying state clear progress asked unfinished =>
    have phase : r.engine.phase = .relaying r.request r.remaining r.collector := by
      rw [engine_relaying state]
    obtain ⟨bytes, begins, relays⟩ := exists_relay state clear.kept now s.wiring.tx s.wiring.rx
    refine ⟨{ bytes := bytes }, begins, ?_⟩
    simp only [Station.tick, Registers.tick, phase, state, same, relays]
  | committing state kept collector progress batch =>
    have phase : r.engine.phase = .committing r.batch := by rw [engine_committing state]
    refine ⟨{ drained := s.wiring.drained }, List.nil_prefix, ?_⟩
    simp only [Station.tick, Registers.tick, phase, state, same, engine_commit batch]
    rfl

end Registers

end DaisyChain.Node
