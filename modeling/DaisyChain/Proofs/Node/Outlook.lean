import DaisyChain.Proofs.Node.Current

/-!
# What a tick does not change

A tick reads some of the bytes that wait for a node and sends some of what the node makes of
them (`Station.foreseen_tick`), as long as no phase has run out of time and the bytes sent leave
the node.  The outlook of a node is what the node will be after all the bytes that wait for it,
together with all that its link will hold by then.  If the link is undisturbed, a tick does not
change the outlook (`Station.steady_tick`).
-/

namespace DaisyChain.Node

variable {M : Type} {table : Table M} {now : UInt32}

/-- The node after the bytes that wait for it, and all that its link will hold by then. -/
def outlook (table : Table M) (e : Engine) (m : M) (rx : List UInt8) (tx : Link) :
    Body M × List UInt8 :=
  let (b, out) := (Body.mk e.timeless m).digest table rx
  (b, tx.queue ++ out)

/-- With the given bytes a node becomes another one, and sends the given ones, but for what it does
without another byte. -/
def Body.Leads (table : Table M) (b : Body M) (read : List UInt8) (b' : Body M)
    (sent : List UInt8) : Prop :=
  b.digest table read = ((b'.rest table).1, sent ++ (b'.rest table).2)

/-- Bytes sent over a link leave its capacity as it was. -/
theorem capacity_pushAll (tx : Link) (bytes : List UInt8) :
  (tx.pushAll bytes).capacity = tx.capacity
  := by
  induction bytes generalizing tx with
  | nil => rfl
  | cons byte rest ih => apply ih (tx.push byte)

/-- Bytes sent over an undisturbed link leave it undisturbed. -/
theorem disturbances_pushAll {tx : Link} (quiet : tx.disturbances = []) (bytes : List UInt8) :
  (tx.pushAll bytes).disturbances = []
  := by
  induction bytes generalizing tx with
  | nil => apply quiet
  | cons byte rest ih => apply ih (Link.disturbances_push quiet byte)

/-- A step from one engine, module, input and link to others reads some bytes, sends some of what
the node makes of them, and leaves the phase in time. -/
structure Foreseen (table : Table M) (now : UInt32) (e : Engine) (m : M) (rx : List UInt8)
    (tx : Link) (e' : Engine) (m' : M) (rx' : List UInt8) (tx' : Link) : Prop where
  fresh : e'.Fresh now
  leads : ∃ read sent, rx = read ++ rx' ∧ tx' = tx.pushAll sent ∧
    Body.Leads table ⟨e.timeless, m⟩ read ⟨e'.timeless, m'⟩ sent

/-- A step from one engine, module, input and link to others changes the outlook in nothing,
and leaves the phase in time and the link undisturbed. -/
structure Steady (table : Table M) (now : UInt32) (e : Engine) (m : M) (rx : List UInt8)
    (tx : Link) (e' : Engine) (m' : M) (rx' : List UInt8) (tx' : Link) : Prop where
  outlook_eq : outlook table e' m' rx' tx' = outlook table e m rx tx
  fresh : e'.Fresh now
  quiet : tx'.disturbances = []
  capacity_eq : tx'.capacity = tx.capacity

/-! ### Steps in a row -/

/-- A stream comes to a node after all that the node does of its own. -/
theorem digest_rest (table : Table M) (b : Body M) (bytes : List UInt8) :
  b.digest table bytes =
    (((b.rest table).1.digest table bytes).1,
      (b.rest table).2 ++ ((b.rest table).1.digest table bytes).2)
  := b.digest_append [] bytes

namespace Body.Leads

variable {b b' b'' : Body M} {xs ys sent others : List UInt8}

/-- Without a byte a node becomes itself and sends nothing. -/
theorem refl (table : Table M) (b : Body M) :
  b.Leads table [] b []
  := rfl

/-- Bytes that come later come to the node that it has become. -/
theorem digest_append (leads : b.Leads table xs b' sent) (more : List UInt8) :
  b.digest table (xs ++ more) = ((b'.digest table more).1, sent ++ (b'.digest table more).2)
  := by
  rw [Leads] at leads
  rw [Body.digest_append, leads, digest_rest table b' more, List.append_assoc]

/-- A node becomes one and then another. -/
theorem trans (first : b.Leads table xs b' sent) (second : b'.Leads table ys b'' others) :
  b.Leads table (xs ++ ys) b'' (sent ++ others)
  := by
  rw [Leads] at second ⊢
  rw [first.digest_append, second, List.append_assoc]

end Body.Leads

section Steps

variable {e e' e'' : Engine} {m m' m'' : M} {rx rx' rx'' : List UInt8} {tx tx' tx'' : Link}

/-- A step that does nothing is foreseen. -/
theorem Foreseen.refl (fresh : e.Fresh now) :
  Foreseen table now e m rx tx e m rx tx
  := ⟨fresh, [], [], rfl, rfl, Body.Leads.refl table _⟩

/-- Two foreseen steps in a row are foreseen. -/
theorem Foreseen.trans (first : Foreseen table now e m rx tx e' m' rx' tx')
    (second : Foreseen table now e' m' rx' tx' e'' m'' rx'' tx'') :
  Foreseen table now e m rx tx e'' m'' rx'' tx''
  := by
  obtain ⟨xs, sent, read, link, leads⟩ := first.leads
  obtain ⟨ys, sent', read', link', leads'⟩ := second.leads
  refine ⟨second.fresh, xs ++ ys, sent ++ sent', ?_, ?_, leads.trans leads'⟩
  · rw [read, read', List.append_assoc]
  · rw [link', link, Link.pushAll_append]

/-- A foreseen step that sends over an undisturbed link is steady. -/
theorem Foreseen.steady (step : Foreseen table now e m rx tx e' m' rx' tx')
    (quiet : tx.disturbances = []) :
  Steady table now e m rx tx e' m' rx' tx'
  := by
  obtain ⟨read, sent, rfl, rfl, leads⟩ := step.leads
  refine ⟨?_, step.fresh, disturbances_pushAll quiet sent, capacity_pushAll tx sent⟩
  simp only [outlook, leads.digest_append, Link.queue_pushAll quiet, List.append_assoc]

/-- A steady step stays steady however many bytes are still to come. -/
theorem Steady.outlook_append (step : Steady table now e m rx tx e' m' rx' tx')
    (more : List UInt8) :
  outlook table e' m' (rx' ++ more) tx' = outlook table e m (rx ++ more) tx
  := by
  have same := step.outlook_eq
  simp only [outlook, Prod.mk.injEq] at same
  obtain ⟨body, bytes⟩ := same
  simp only [outlook, Body.digest_append, body, ← List.append_assoc, bytes]

end Steps

/-! ### Taking a byte -/

/-- Reading one byte, and sending on what the node makes of it, is foreseen. -/
theorem foreseen_take {e e' : Engine} {m : M} {byte : UInt8} {rest : List UInt8}
    {tx : Link} (out : List UInt8) (waiting : e.phase.Waiting)
    (taken : (Body.mk e.timeless m).take byte = (⟨e'.timeless, m⟩, out)) (fresh : e'.Fresh now) :
  Foreseen table now e m (byte :: rest) tx e' m rest (tx.pushAll out)
  := by
  refine ⟨fresh, [byte], out, rfl, rfl, ?_⟩
  have still : (Body.mk e.timeless m).engine.phase.Waiting := waiting
  rw [Body.Leads, Body.digest_cons still, taken]
  rfl

/-- A step that neither reads nor sends, and makes the node one that rests like it, is foreseen. -/
theorem foreseen_of_rest {e e' : Engine} {m m' : M} {rx : List UInt8} {tx : Link}
    (same : (Body.mk e'.timeless m').rest table = (Body.mk e.timeless m).rest table)
    (fresh : e'.Fresh now) :
  Foreseen table now e m rx tx e' m' rx tx
  := by
  refine ⟨fresh, [], [], rfl, rfl, ?_⟩
  rw [Body.Leads, Body.digest, same, List.nil_append]

/-! ### Listening -/

/-- After a byte of a header the engine is in time. -/
theorem fresh_hear (e : Engine) (heard : Heard) (byte : UInt8) :
  (e.hear heard byte now).1.Fresh now
  := Engine.fresh_of_since (since_hear e heard byte now)

/-- An engine in time goes on waiting for the rest of a header. -/
theorem awaitHeader_eq {e : Engine} {heard : Heard} (listening : e.phase = .listening heard)
    (fresh : e.Fresh now) :
  e.awaitHeader heard now = e
  := by
  unfold Engine.awaitHeader
  apply if_neg
  rintro ⟨begun, late⟩
  cases heard with
  | nothing => contradiction
  | first byte0 => simp [Engine.Fresh, listening, late] at fresh
  | second byte0 byte1 => simp [Engine.Fresh, listening, late] at fresh

/-- Hearing a byte of a header is foreseen, however late it is heard. -/
theorem foreseen_hear {e : Engine} {heard : Heard} (tx : Link) (m : M) (rest : List UInt8)
    (listening : e.phase = .listening heard) (byte : UInt8) :
  Foreseen table now e m (byte :: rest) tx (e.hear heard byte now).1 m rest
    (tx.push (e.hear heard byte now).2)
  := by
  have heardOnce : (Body.mk e.timeless m).take byte =
      (⟨(e.hear heard byte now).1.timeless, m⟩, [(e.hear heard byte now).2]) := by
    obtain ⟨engine, out⟩ := e.hear_timeless heard byte now
    simp only [Body.take, Engine.phase_timeless, listening, engine, out]
  apply foreseen_take _ (by rw [listening]; trivial) heardOnce (fresh_hear _ _ _)

/-- Listening is foreseen. -/
theorem foreseen_listen {e : Engine} (tx : Link) (m : M) (rx : List UInt8) (fresh : e.Fresh now) :
  Foreseen table now e m rx tx (e.listen now tx rx).1 m (e.listen now tx rx).2.1
    (e.listen now tx rx).2.2
  := by
  induction rx generalizing e tx with
  | nil =>
    unfold Engine.listen
    split
    · next heard listening =>
      rw [awaitHeader_eq listening fresh]
      apply Foreseen.refl fresh
    · apply Foreseen.refl fresh
  | cons byte rest ih =>
    unfold Engine.listen
    split
    · next heard listening =>
      split
      · rw [awaitHeader_eq listening fresh]
        apply Foreseen.refl fresh
      · have first : Foreseen table now e m (byte :: rest) tx (e.hear heard byte now).1 m rest
            (tx.push (e.hear heard byte now).2) := foreseen_hear tx m rest listening byte
        apply first.trans (ih _ first.fresh)
    · apply Foreseen.refl fresh

/-! ### Recovering -/

/-- Swallowing bytes is foreseen. -/
theorem foreseen_swallow (table : Table M) {e : Engine} (tx : Link) (m : M) (rx : List UInt8)
    (recovering : e.phase = .recovering) (fresh : e.Fresh now) :
  Foreseen table now e m rx tx e m (Engine.swallow tx rx).1 (Engine.swallow tx rx).2
  := by
  induction rx generalizing tx with
  | nil => apply Foreseen.refl fresh
  | cons byte rest ih =>
    unfold Engine.swallow
    split
    · apply Foreseen.refl fresh
    · have first : Foreseen table now e m (byte :: rest) tx e m rest (tx.push 0) := by
        apply foreseen_take [0] (by rw [recovering]; trivial) _ fresh
        simp only [Body.take, Engine.phase_timeless, recovering]
      apply first.trans (ih _)

/-- As long as the delay has not passed, a recovering node stays as it is but for its
clock. -/
theorem foreseen_recover {e : Engine} (tx : Link) (m : M) (rx : List UInt8) (busy : Bool)
    (recovering : e.phase = .recovering) (fresh : e.Fresh now) :
  Foreseen table now e m rx tx (e.recover now busy) m rx tx
  := by
  unfold Engine.recover
  split
  · refine foreseen_of_rest (e := e) rfl ?_
    simp [Engine.Fresh, recovering, Engine.elapsed, recoveryDelay, nodeTimeout,
      recoveryMargin]
  · have early : e.elapsed now < recoveryDelay := by
      simpa only [Engine.Fresh, recovering] using fresh
    rw [if_neg (Nat.not_le_of_lt early)]
    apply Foreseen.refl fresh

/-! ### Deciding, sending and applying -/

/-- A node that has decided what comes next rests like before. -/
theorem rest_proceed (b : Body M) :
  (b.proceed table).rest table = b.rest table
  := by
  have once : (b.proceed table).proceed table = b.proceed table := by
    cases phase : b.engine.phase with
    | counting request count kept =>
      have decided : b.proceed table =
          ⟨b.engine.count table 0 request count kept b.module, b.module⟩ := by
        simp only [Body.proceed, phase]
      rw [decided]
      unfold Body.proceed
      split
      · next again => exact (Body.phase_count_ne _ _ _ _ _ _ _ _ _ _ again).elim
      · rfl
    | _ => simp only [Body.proceed, phase]
  rw [Body.rest, once, Body.rest]

/-- After a decision the engine is in time. -/
theorem fresh_count (e : Engine) (request : Request) (count : Nat)
    (kept : Option (List UInt8)) (m : M) :
  (e.count table now request count kept m).Fresh now
  := Engine.fresh_of_since (since_count table now e request count kept m)

/-- Deciding what comes next is foreseen. -/
theorem foreseen_count {e : Engine} {request : Request} {count : Nat}
    {kept : Option (List UInt8)} (tx : Link) (m : M) (rx : List UInt8)
    (counting : e.phase = .counting request count kept) :
  Foreseen table now e m rx tx (e.count table now request count kept m) m rx tx
  := by
  have decided : Body.mk (e.count table now request count kept m).timeless m =
      (Body.mk e.timeless m).proceed table := by
    simp only [Body.proceed, Engine.phase_timeless, counting, Engine.timeless_count]
  apply foreseen_of_rest _ (fresh_count e request count kept m)
  rw [decided, rest_proceed]

/-- A node that sends has the rest of its frame still to send. -/
theorem rest_sending (table : Table M) {e : Engine} {request : Request} {frame : List UInt8}
    {sent : Nat} (m : M) (sending : e.phase = .sending request frame sent) :
  (Body.mk e.timeless m).rest table =
    (⟨e.timeless.enter (.listening .nothing) 0, m⟩, frame.drop sent)
  := by
  simp only [Body.rest, Body.proceed, Body.perform, Engine.phase_timeless, sending]

/-- What was taken from the front of a list and what is left make up the list. -/
theorem take_append_drop_length (bytes : List UInt8) (room : Nat) :
  bytes.take room ++ bytes.drop (bytes.take room).length = bytes
  := by
  by_cases fits : bytes.length ≤ room
  · rw [List.take_of_length_le fits, List.drop_length, List.append_nil]
  · rw [List.length_take, Nat.min_eq_left (Nat.le_of_not_le fits), List.take_append_drop]

/-- Sending a part of a frame is foreseen. -/
theorem foreseen_send {e : Engine} {request : Request} {frame : List UInt8} {sent : Nat}
    (tx : Link) (m : M) (rx : List UInt8) (sending : e.phase = .sending request frame sent)
    (fresh : e.Fresh now) :
  Foreseen table now e m rx tx (e.send now request frame sent tx).1 m rx
    (e.send now request frame sent tx).2
  := by
  have inTime : e.timedOut now = false := by simpa only [Engine.Fresh, sending] using fresh
  simp only [Engine.send, inTime, Bool.false_eq_true, if_false]
  have parts := take_append_drop_length (frame.drop sent) tx.room
  rw [List.drop_drop] at parts
  generalize (frame.drop sent).take tx.room = batch at parts
  refine ⟨?_, [], batch, rfl, rfl, ?_⟩
  · split
    · apply Engine.fresh_enter
    · split
      · apply fresh
      · apply Engine.fresh_enter
  · rw [Body.Leads, Body.digest, rest_sending table m sending]
    by_cases finished : frame.length ≤ sent + batch.length
    · rw [if_pos finished]
      rw [List.drop_eq_nil_of_le finished, List.append_nil] at parts
      rw [parts, Body.rest_of_waiting (by trivial), List.append_nil]
      rfl
    · rw [if_neg finished]
      by_cases none : batch = []
      · rw [if_pos none, rest_sending table m sending, none, List.nil_append]
      · rw [if_neg none, rest_sending table (e := e.enter (.sending request frame
          (sent + batch.length)) now) m rfl, parts]
        rfl

/-- After values have been applied the engine is in time. -/
theorem fresh_commit (e : Engine) (batch : Batch) (m : M) :
  (e.commit table now batch true m).1.Fresh now
  := Engine.fresh_of_since (since_commit batch m (.inl rfl))

/-- Applying values is foreseen. -/
theorem foreseen_commit {e : Engine} {batch : Batch} (tx : Link) (m : M) (rx : List UInt8)
    (committing : e.phase = .committing batch) :
  Foreseen table now e m rx tx (e.commit table now batch true m).1
    (e.commit table now batch true m).2 rx tx
  := by
  obtain ⟨engine, module⟩ := e.timeless_commit table now batch m
  apply foreseen_of_rest _ (fresh_commit e batch m)
  rw [Body.rest_of_waiting (Body.waiting_commit table now e batch m)]
  simp only [Body.rest, Body.proceed, Body.perform, Engine.phase_timeless, committing, engine,
    module]

/-! ### Relaying -/

/-- After a byte of a frame the engine is in time. -/
theorem fresh_relayByte (e : Engine) (request : Request) (count : Nat)
    (collector : Frame.Collector) (byte : UInt8) :
  (e.relayByte now request count collector byte).Fresh now
  := by
  unfold Engine.relayByte
  split
  · apply Engine.fresh_enter
  · apply Engine.fresh_of_since (since_finishFrame ..)
  · apply Engine.fresh_enter

/-- Receiving bytes of a frame is foreseen. -/
theorem foreseen_collect {e : Engine} {request : Request} {count : Nat}
    {collector : Frame.Collector} (tx : Link) (m : M) (rx : List UInt8)
    (relaying : e.phase = .relaying request count collector) (fresh : e.Fresh now) :
  let r := Engine.collect now request count (passes request count) (keeps request count) e
    collector tx rx
  Foreseen table now e m rx tx r.1 m r.2.1 r.2.2
  := by
  induction rx generalizing e collector tx with
  | nil => apply Foreseen.refl fresh
  | cons byte rest ih =>
    have waiting : e.phase.Waiting := by
      rw [relaying]
      trivial
    have first : Foreseen table now e m (byte :: rest) tx
        (e.relayByte now request count collector byte) m rest
        (if passes request count then tx.push byte else tx) := by
      have taken : (Body.mk e.timeless m).take byte =
          (⟨(e.relayByte now request count collector byte).timeless, m⟩,
            if passes request count then [byte] else []) := by
        simp only [Body.take, Engine.phase_timeless, relaying, Engine.timeless_relayByte]
      have step : Foreseen table now e m (byte :: rest) tx _ m rest _ :=
        foreseen_take _ waiting taken (fresh_relayByte e request count collector byte)
      have sent : tx.pushAll (if passes request count then [byte] else []) =
          if passes request count then tx.push byte else tx := by
        cases passes request count <;> rfl
      rw [sent] at step
      apply step
    intro r
    simp only [r, Engine.collect]
    by_cases full : passes request count = true ∧ tx.room = 0
    · rw [if_pos full]
      apply Foreseen.refl fresh
    · rw [if_neg full]
      cases fed : collector.feed byte with
      | mk answer collector' =>
        unfold Engine.relayByte at first
        rw [fed] at first
        cases answer with
        | error error => apply first
        | ok ended =>
          cases ended with
          | true => apply first
          | false =>
            apply first.trans
            apply ih _ rfl first.fresh

/-! ### Ticks -/

/-- A tick is foreseen, if the bytes sent leave the node. -/
theorem Station.foreseen_tick (table : Table M) (s : Station M) (fresh : s.engine.Fresh now)
    (drained : s.wiring.drained = true) :
  Foreseen table now s.engine s.module s.wiring.rx s.wiring.tx (s.tick table now).engine
    (s.tick table now).module (s.tick table now).wiring.rx (s.tick table now).wiring.tx
  := by
  unfold Station.tick
  simp only
  split
  · apply foreseen_listen _ s.module s.wiring.rx fresh
  · next recovering =>
    apply (foreseen_swallow table _ s.module s.wiring.rx recovering fresh).trans
    apply foreseen_recover _ s.module _ _ recovering fresh
  · next request count kept counting => exact foreseen_count _ s.module s.wiring.rx counting
  · next request frame sent sending =>
    apply foreseen_send _ s.module s.wiring.rx sending fresh
  · next request count collector relaying =>
    have inTime : s.engine.timedOut now = false := by
      simpa only [Engine.Fresh, relaying] using fresh
    simp only [Engine.relay, inTime, Bool.false_eq_true, if_false]
    apply foreseen_collect _ s.module s.wiring.rx relaying fresh
  · next batch committing =>
    rw [drained]
    apply foreseen_commit _ s.module s.wiring.rx committing

/-- A tick leaves the module as it is, or as it is once the node has done all that it does without
another byte. -/
theorem Station.module_tick (table : Table M) (now : UInt32) (s : Station M)
    (drained : s.wiring.drained = true) :
  (s.tick table now).module = s.module ∨
    (s.tick table now).module = ((Body.mk s.engine.timeless s.module).rest table).1.module
  := by
  unfold Station.tick
  simp only
  split
  · apply Or.inl rfl
  · apply Or.inl rfl
  · apply Or.inl rfl
  · apply Or.inl rfl
  · apply Or.inl rfl
  · next batch committing =>
    right
    rw [drained]
    obtain ⟨-, module⟩ := s.engine.timeless_commit table now batch s.module
    simp only [Body.rest, Body.proceed, Body.perform, Engine.phase_timeless, committing, module]

/-- A tick is steady, if the bytes sent leave the node over an undisturbed link. -/
theorem Station.steady_tick (table : Table M) (s : Station M) (fresh : s.engine.Fresh now)
    (quiet : s.wiring.tx.disturbances = []) (drained : s.wiring.drained = true) :
  Steady table now s.engine s.module s.wiring.rx s.wiring.tx (s.tick table now).engine
    (s.tick table now).module (s.tick table now).wiring.rx (s.tick table now).wiring.tx
  := (s.foreseen_tick table fresh drained).steady quiet

end DaisyChain.Node
