import DaisyChain.Proofs.Node.Ticks
import DaisyChain.SplitFlap.Properties

/-!
# Headers through a row of nodes

The nodes of a row forward a header one after the other (`header_ripples`).  Each of them sends the
three bytes of another header, which has even parity if and only if the node accepts the one that it
gets.  So behind the first node that does not accept its header, no node does.  A header that all of
them accept leaves the last one as it would have been packed with the count that many steps on.

When the bytes come, how many at once, and when the nodes are given time does not matter, as long as
their time does not run out.
-/

namespace DaisyChain.Node

variable {M : Type} {table : Table M}

/-! ### A node that hears a header -/

namespace Station

variable {s : Station M} {past : List Event} {h : RawHeader}

/-- A stream that opens with a header of three bytes does not open with headers of one byte. -/
theorem skipped_eq_nil {skipped others stream : List UInt8} (isAction : h.action ≠ .sync)
    (opens : h.toList <+: stream) (begins : skipped ++ others <+: stream)
    (syncs : ∀ byte ∈ skipped, Action.ofByte byte = .sync) :
  skipped = []
  := by
  cases skipped with
  | nil => rfl
  | cons byte more =>
    obtain ⟨rest, rfl⟩ := opens
    obtain ⟨behind, same⟩ := begins
    have first : byte = h.byte0 := (List.cons.inj same).1
    have isSync := syncs byte List.mem_cons_self
    rw [first] at isSync
    exact (isAction isSync).elim

/-- Two headers of three bytes that open the same stream are the same. -/
theorem header_eq_of_prefix {h h' : RawHeader} {stream : List UInt8} (opens : h.toList <+: stream)
    (opens' : h'.toList <+: stream) :
  h = h'
  := by
  have same : h.toList = h'.toList :=
    (List.prefix_of_prefix_length_le opens opens' (Nat.le_refl _)).eq_of_length rfl
  obtain ⟨b0, b1, b2⟩ := h
  obtain ⟨c0, c1, c2⟩ := h'
  simpa [RawHeader.toList] using same

/-- An engine that in time reads some bytes of a stream which opens with a header, and nothing
before, has heard these bytes, or all of the header and no more. -/
theorem heeds_header {now : UInt32} {e e' : Engine} {heard : Heard} {tx : Link}
    {rx read stream : List UInt8} (heeds : Engine.Heeds now e heard tx rx read e')
    (isAction : h.action ≠ .sync) (opens : h.toList <+: stream)
    (upto : heard.bytes ++ read <+: stream)
    (inTime : heard ≠ .nothing → rx = [] ∨ tx.room = 0 → e.timedOut now = false) :
  (∃ heard' since, heard.bytes ++ read = heard'.bytes ∧ heard'.Apt ∧
    e' = { e with phase := .listening heard', since := since }) ∨
  heard.bytes ++ read = h.toList ∧ e' = e.acceptHeader h now
  := by
  cases heeds with
  | @on heard' skipped since split syncs apt =>
    rw [split] at upto
    obtain rfl := skipped_eq_nil isAction opens upto syncs
    exact .inl ⟨heard', since, split, apt, rfl⟩
  | @whole h' skipped split syncs isAction' =>
    rw [split] at upto
    obtain rfl := skipped_eq_nil isAction opens upto syncs
    obtain rfl := header_eq_of_prefix opens upto
    exact .inr ⟨split, rfl⟩
  | @commit byte skipped split syncs isSync isCommit =>
    rw [split, ← List.append_nil (skipped ++ [byte])] at upto
    have all : ∀ other ∈ skipped ++ [byte], Action.ofByte other = .sync := by
      intro other member
      rcases List.mem_append.mp member with before | last
      · exact syncs other before
      · rw [List.mem_singleton.mp last]
        exact isSync
    have none := skipped_eq_nil isAction opens upto all
    simp at none
  | late begun stuck late =>
    rw [inTime begun stuck] at late
    contradiction

/-- A node that listens, and in time reads all of a header, has at some time read just the header:
it has accepted the header or refused it, and is otherwise as it was. -/
theorem hears_header (listening : s.engine.phase = .listening .nothing)
    (isAction : h.action ≠ .sync) {heard : Heard} {since : UInt32}
    (engine : (s.run table past).engine =
      { s.engine with phase := .listening heard, since := since })
    (module : (s.run table past).module = s.module) (apt : heard.Apt)
    (read : s.read table past = heard.bytes) (rest : List Event)
    (timely : (s.run table past).Timely table rest)
    (opens : h.toList <+: s.read table (past ++ rest)) :
  ∃ xs now, xs <+: past ++ rest ∧ s.read table xs = h.toList ∧
    (s.run table xs).engine = s.engine.acceptHeader h now ∧ (s.run table xs).module = s.module
  := by
  -- The induction is on the events to come; what the node has heard is all that it has read, and
  -- less than the header.
  induction rest generalizing past heard since with
  | nil =>
    rw [List.append_nil, read] at opens
    have few : heard.bytes.length < 3 := by cases heard <;> simp [Heard.bytes]
    have many : 3 ≤ heard.bytes.length := opens.length_le
    omega
  | cons event rest ih =>
    have phase : (s.run table past).engine.phase = .listening heard := by rw [engine]
    have step := s.run_snoc table past event
    have further := s.read_snoc table past event
    have later : (s.run table (past ++ [event])).Timely table rest := by
      rw [step]
      exact timely.2
    rw [List.append_cons] at opens ⊢
    cases event with
    | tick now =>
      obtain ⟨bytes, waited, heeds⟩ := @Engine.heeds_listen now _ _ phase apt
        (s.run table past).wiring.tx (s.run table past).wiring.rx
      have ticked : s.run table (past ++ [.tick now]) = (s.run table past).tick table now := step
      simp only [tick, phase] at ticked
      have kept : (s.run table (past ++ [.tick now])).module = s.module := by rw [ticked, module]
      rw [readAt_tick (by simp only [tick, phase]; exact waited), read] at further
      have upto : heard.bytes ++ bytes <+: s.read table (past ++ [.tick now] ++ rest) := by
        rw [← further]
        exact s.read_prefix table (List.prefix_append _ _)
      have inTime : heard ≠ .nothing →
          (s.run table past).wiring.rx = [] ∨ (s.run table past).wiring.tx.room = 0 →
            (s.run table past).engine.timedOut now = false := by
        intro begun stuck
        simpa [expires, phase, begun, stuck] using timely.1
      rcases heeds_header heeds isAction opens upto inTime with
        ⟨heard', since', said, apt', still⟩ | ⟨said, accepted⟩
      · apply @ih _ heard' since' _ kept apt' (further.trans said) later opens
        rw [ticked, still, engine]
      · refine ⟨past ++ [.tick now], now, List.prefix_append _ _, further.trans said, ?_, kept⟩
        rw [ticked, accepted, engine, Engine.acceptHeader_listening listening]
    | _ =>
      refine @ih _ _ since ?_ ?_ apt ?_ later opens
      · rw [step]
        exact engine
      · rw [step]
        exact module
      · rw [further, readAt_eq_nil table _ (by simp), List.append_nil, read]

/-- In time a node that listens sends just the header that it forwards, if it reads just a header.
-/
theorem sent_header (listening : s.engine.phase = .listening .nothing)
    (isAction : h.action ≠ .sync) (quiet : s.wiring.tx.disturbances = []) {events : List Event}
    (timely : s.Timely table events) (read : s.read table events = h.toList) {now : UInt32}
    (engine : (s.run table events).engine = s.engine.acceptHeader h now)
    (module : (s.run table events).module = s.module) :
  s.sent table events = (forward s.engine.record h).toList
  := by
  have before := body_listening listening
  have after : (s.run table events).body =
      ⟨(Body.listener s.engine s.module).engine.acceptHeader h 0, s.module⟩ := by
    have state : s.engine.state = .listening := by rw [Engine.state, listening, Phase.state]
    rw [body, engine, module]
    unfold Engine.acceptHeader
    split
    · simp only [Engine.fail, Engine.note, state]
      rfl
    · split
      · simp only [Engine.fail, Engine.note, state]
        rfl
      · rfl
  obtain ⟨sent, leads, all⟩ := timely.leads
  have heard := Body.digest_heard table s.engine s.module isAction []
  rw [Body.Leads, read, before, after, ← List.append_nil h.toList, heard] at leads
  rw [all quiet]
  exact (List.append_cancel_right (Prod.mk.inj leads).2).symm

/-- A node that recovers does so until its time runs out. -/
theorem recovers_on (recovering : s.engine.phase = .recovering) {events : List Event}
    (timely : s.Timely table events) :
  (s.run table events).engine.phase = .recovering ∧
    (s.run table events).engine.record = s.engine.record
  := by
  induction events generalizing s with
  | nil => exact ⟨recovering, rfl⟩
  | cons event rest ih =>
    obtain ⟨early, later⟩ := timely
    have still : (s.step table event).engine.phase = .recovering ∧
        (s.step table event).engine.record = s.engine.record := by
      cases event with
      | tick now =>
        simp only [expires, recovering] at early
        simp only [step, tick, recovering, Engine.recover]
        split
        · exact ⟨rfl, rfl⟩
        · next quiet =>
          have soon : ¬recoveryDelay ≤ s.engine.elapsed now := by simpa [quiet] using early
          rw [if_neg soon]
          exact ⟨recovering, rfl⟩
      | _ => exact ⟨recovering, rfl⟩
    obtain ⟨phase, record⟩ := ih still.1 later
    exact ⟨phase, record.trans still.2⟩

end Station

/-- Without another byte a node sends nothing after it has accepted or refused a header, unless it
is its turn at once. -/
theorem Body.silent_acceptHeader (table : Table M) (e : Engine) (m : M) {h : RawHeader}
    (later : ¬(h.action = .read ∧ h.count = 0)) :
  (Body.digest table ⟨(Body.listener e m).engine.acceptHeader h 0, m⟩ []).2 = []
  := by
  cases accepted : accepts h with
  | false =>
    have recovers : ((Body.listener e m).engine.acceptHeader h 0).phase = .recovering := by
      unfold Engine.acceptHeader
      split
      · rfl
      · rfl
    rw [Body.digest_nil]
    rw [recovers]
    trivial
  | true =>
    have even := evenParity_of_accepts accepted
    have turn : ¬(h.action = .read ∧ framesAfter h = 1) := by
      rintro ⟨isRead, one⟩
      have small := h.count_lt
      simp only [framesAfter, isRead, countModulus] at one small
      exact later ⟨isRead, by omega⟩
    simp only [Engine.acceptHeader, even, accepted, Bool.true_eq_false, if_false, Body.digest,
      Body.rest, Body.proceed, Engine.enter, Engine.count, Request.ofHeader, turn]
    split <;> rfl

/-! ### Rows of nodes -/

/-- A node and all that happens to it. -/
structure Hop (M : Type) where
  station : Station M
  events : List Station.Event

namespace Hop

/-- The record of the node at the beginning. -/
def record (hop : Hop M) : Option Record :=
  hop.station.engine.record

/-- All that the node sends. -/
def output (table : Table M) (hop : Hop M) : List UInt8 :=
  hop.station.sent table hop.events

/-- The node after all that happens to it. -/
def final (table : Table M) (hop : Hop M) : Station M :=
  hop.station.run table hop.events

/-- The node listens on an undisturbed line, receives bytes of the given stream from its beginning,
and reads a header of them before its time runs out. -/
structure Ready (table : Table M) (stream : List UInt8) (hop : Hop M) : Prop where
  listening : hop.station.engine.phase = .listening .nothing
  quiet : hop.station.wiring.tx.disturbances = []
  fed : hop.station.wiring.rx ++ Station.received hop.events <+: stream
  timely : hop.station.Timely table hop.events
  reads : Header.actionLength ≤ (hop.station.read table hop.events).length

end Hop

/-- Nodes in a row: the first one receives the given stream, and each of the others what the one
before it sends. -/
def Row (table : Table M) : List UInt8 → List (Hop M) → Prop
  | _, [] => True
  | stream, hop :: rest => hop.Ready table stream ∧ Row table (hop.output table) rest

/-- The header that leaves the given number of nodes. -/
def headerAfter (hops : List (Hop M)) (h : RawHeader) (count : Nat) : RawHeader :=
  (hops.take count).foldl (fun h hop => forward hop.record h) h

/-- The next node forwards the header that it gets. -/
theorem headerAfter_succ {hops : List (Hop M)} {i : Nat} {hop : Hop M}
    (there : hops[i]? = some hop) (h : RawHeader) :
  headerAfter hops h (i + 1) = forward hop.record (headerAfter hops h i)
  := by
  rw [headerAfter, headerAfter, List.take_add_one, there, List.foldl_append]
  rfl

/-- The bytes that a node in a row reads are those that come to it. -/
theorem Hop.Ready.arrives {hop : Hop M} {stream : List UInt8} (ready : hop.Ready table stream) :
  hop.station.read table hop.events <+: stream
  := by
  refine List.IsPrefix.trans ?_ ready.fed
  rw [← hop.station.read_append table hop.events]
  apply List.prefix_append

/-- A node in a row is ready for a header if it forwards the header: at some time it has read just
the header, has sent just the one that it forwards, and has accepted or refused it. -/
theorem Hop.Ready.forwards {hop : Hop M} {stream : List UInt8} (ready : hop.Ready table stream)
    {h : RawHeader} (isAction : h.action ≠ .sync) (opens : h.toList <+: stream) :
  ∃ xs now, xs <+: hop.events ∧ hop.station.read table xs = h.toList ∧
    hop.station.sent table xs = (forward hop.record h).toList ∧
    (hop.station.run table xs).engine = hop.station.engine.acceptHeader h now
  := by
  have begins : h.toList <+: hop.station.read table hop.events :=
    List.prefix_of_prefix_length_le opens ready.arrives ready.reads
  obtain ⟨xs, now, upto, read, engine, module⟩ := @Station.hears_header _ table hop.station [] h
    ready.listening isAction .nothing hop.station.engine.since
    (by rw [← ready.listening]; rfl) rfl trivial rfl hop.events ready.timely begins
  refine ⟨xs, now, upto, read, ?_, engine⟩
  obtain ⟨rest, split⟩ : xs <+: hop.events := upto
  have timely := ready.timely
  rw [← split] at timely
  apply Station.sent_header ready.listening isAction ready.quiet
    (Station.timely_append.mp timely).1 read engine module

/-- A node to which nothing but a header comes sends nothing but the one that it forwards, unless it
is its turn at once. -/
theorem Hop.Ready.output_eq {hop : Hop M} {h : RawHeader} (ready : hop.Ready table h.toList)
    (isAction : h.action ≠ .sync) (later : ¬(h.action = .read ∧ h.count = 0)) :
  hop.output table = (forward hop.record h).toList
  := by
  obtain ⟨xs, now, upto, -, first, -⟩ := ready.forwards isAction List.prefix_rfl
  have begins : (forward hop.record h).toList <+: hop.output table := by
    rw [← first]
    exact hop.station.sent_prefix table upto
  have read : hop.station.read table hop.events = h.toList :=
    ready.arrives.eq_of_length_le ready.reads
  have before := Station.body_listening ready.listening
  obtain ⟨sent, leads, all⟩ := ready.timely.leads
  have heard := Body.digest_heard table hop.station.engine hop.station.module isAction []
  rw [Body.Leads, read, before, ← List.append_nil h.toList, heard,
    Body.silent_acceptHeader table hop.station.engine hop.station.module later] at leads
  have bytes := (Prod.mk.inj leads).2
  rw [← all ready.quiet] at bytes
  have same := congrArg List.length bytes
  simp only [List.append_nil, List.length_append] at same
  have few : (hop.output table).length ≤ (forward hop.record h).toList.length := by
    rw [Hop.output, Hop.record, same]
    apply Nat.le_add_right
  exact (begins.eq_of_length_le few).symm

/-- A node counts after a header if and only if it accepts the header. -/
theorem state_acceptHeader (e : Engine) (h : RawHeader) (now : UInt32) :
  (e.acceptHeader h now).state = .counting ↔ accepts h = true
  := by
  unfold Engine.acceptHeader
  split
  · next odd => simp [accepts, odd, Engine.fail, Engine.enter, Engine.state, Phase.state]
  · split
    · next refused =>
      simp [refused, Engine.fail, Engine.enter, Engine.state, Phase.state]
    · next accepted =>
      simp [accepted, Engine.enter, Engine.state, Phase.state]

/-- A node accepts a header of even parity, unless it is a write that is meant for no further node.
-/
theorem accepts_iff (h : RawHeader) :
  accepts h = true ↔ h.evenParity = true ∧ ¬(h.action = .write ∧ h.count = 0)
  := by
  simp [accepts, Decidable.imp_iff_not_or]

/-! ### Headers after some nodes -/

section After

variable (hops : List (Hop M)) (h : RawHeader) (count : Nat)

/-- A header keeps its action. -/
theorem action_headerAfter :
  (headerAfter hops h count).action = h.action
  := by
  unfold headerAfter
  induction hops.take count generalizing h with
  | nil => rfl
  | cons hop rest ih => rw [List.foldl_cons, ih, action_forward]

/-- A header keeps its property. -/
theorem property_headerAfter :
  (headerAfter hops h count).property = h.property
  := by
  unfold headerAfter
  induction hops.take count generalizing h with
  | nil => rfl
  | cons hop rest ih => rw [List.foldl_cons, ih, property_forward]

/-- The flag of a read is set if one of the nodes has a fault to report. -/
theorem flag_headerAfter :
  (headerAfter hops h count).flag =
    (h.flag || (decide (h.action = .read) &&
      (hops.take count).any fun hop => hop.record.isSome))
  := by
  unfold headerAfter
  induction hops.take count generalizing h with
  | nil => simp
  | cons hop rest ih =>
    rw [List.foldl_cons, ih, flag_forward, action_forward, List.any_cons, Bool.and_or_distrib_left,
      Bool.or_assoc]

/-- The count of a read or broadcast goes up by one at every node. -/
theorem count_headerAfter_up (other : h.action ≠ .write) (upto : count ≤ hops.length) :
  (headerAfter hops h count).count = (h.count + count) % countModulus
  := by
  induction count with
  | zero => exact (Nat.mod_eq_of_lt h.count_lt).symm
  | succ count ih =>
    have before := ih (Nat.le_of_succ_le upto)
    rw [headerAfter_succ (List.getElem?_eq_getElem upto), count_forward, action_headerAfter, before]
    cases action : h.action with
    | write => exact (other action).elim
    | _ =>
      simp only [countAfter, countModulus]
      omega

/-- The count of a write goes down by one at every node, as long as all of them accept it. -/
theorem count_headerAfter_down (isWrite : h.action = .write) (upto : count ≤ hops.length)
    (accepted : ∀ i < count, accepts (headerAfter hops h i) = true) :
  (headerAfter hops h count).count + count = h.count
  := by
  induction count with
  | zero => rfl
  | succ count ih =>
    have before := ih (Nat.le_of_succ_le upto) fun i below => accepted i (Nat.lt_succ_of_lt below)
    have small := (headerAfter hops h count).count_lt
    have left : (headerAfter hops h count).count ≠ 0 := by
      intro none
      have taken := (accepts_iff _).mp (accepted count (Nat.lt_succ_self count))
      rw [action_headerAfter] at taken
      exact taken.2 ⟨isWrite, none⟩
    rw [headerAfter_succ (List.getElem?_eq_getElem upto), count_forward, action_headerAfter,
      isWrite]
    simp only [countAfter, countMax, countModulus] at small ⊢
    omega

end After

/-- Behind a node that refuses a header, the header has odd parity. -/
theorem odd_behind {hops : List (Hop M)} {h : RawHeader} {k i : Nat}
    (refused : accepts (headerAfter hops h k) = false) (behind : k < i) (upto : i ≤ hops.length) :
  (headerAfter hops h i).evenParity = false
  := by
  induction i with
  | zero => exact (Nat.not_lt_zero k behind).elim
  | succ i ih =>
    rw [headerAfter_succ (List.getElem?_eq_getElem upto), evenParity_forward]
    rcases Nat.lt_or_eq_of_le (Nat.le_of_lt_succ behind) with before | rfl
    · simp [accepts, ih before (Nat.le_of_succ_le upto)]
    · exact refused

/-! ### Headers through a row -/

/-- What comes to a node of a row opens with the header that comes to it.  It is nothing else, if
nothing else comes to the first node, and if at none of the nodes in front it is the turn of the
node at once. -/
theorem Row.at {hops : List (Hop M)} {h : RawHeader} {stream : List UInt8}
    (row : Row table stream hops) (isAction : h.action ≠ .sync) (opens : h.toList <+: stream)
    {i : Nat} {hop : Hop M} (there : hops[i]? = some hop) :
  ∃ stream', hop.Ready table stream' ∧ (headerAfter hops h i).toList <+: stream' ∧
    (stream = h.toList → (∀ j < i, ¬(h.action = .read ∧ (headerAfter hops h j).count = 0)) →
      stream' = (headerAfter hops h i).toList)
  := by
  induction hops generalizing h stream i with
  | nil => simp at there
  | cons first rest ih =>
    obtain ⟨ready, behind⟩ := row
    cases i with
    | zero =>
      cases there
      exact ⟨stream, ready, opens, fun only _ => only⟩
    | succ i =>
      obtain ⟨xs, now, upto, -, sent, -⟩ := ready.forwards isAction opens
      have isAction' : (forward first.record h).action ≠ .sync := by rwa [action_forward]
      have opens' : (forward first.record h).toList <+: first.output table := by
        rw [← sent]
        exact first.station.sent_prefix table upto
      obtain ⟨stream', ready', begins, alone⟩ := ih behind isAction' opens' there
      refine ⟨stream', ready', begins, fun only later => alone ?_ fun j below => ?_⟩
      · subst only
        exact ready.output_eq isAction (later 0 (Nat.succ_pos i))
      · rw [action_forward]
        exact later (j + 1) (Nat.succ_lt_succ below)

/-- A node in a row that refuses a header recovers in the end, for a fault of parity if the parity
of the header is odd. -/
theorem Hop.Ready.recovers {hop : Hop M} {stream : List UInt8} (ready : hop.Ready table stream)
    {h : RawHeader} (isAction : h.action ≠ .sync) (opens : h.toList <+: stream)
    (refused : accepts h = false) :
  (hop.final table).engine.state = .recovering ∧
    (h.evenParity = false → (hop.final table).engine.lastFault = some .headerParity)
  := by
  obtain ⟨xs, now, ⟨rest, split⟩, -, -, engine⟩ := ready.forwards isAction opens
  have timely := ready.timely
  rw [← split, Station.timely_append] at timely
  have recovering : (hop.station.run table xs).engine.phase = .recovering := by
    rw [engine, Engine.acceptHeader]
    split <;> rfl
  obtain ⟨phase, record⟩ := Station.recovers_on recovering timely.2
  rw [Hop.final, ← split, Station.run_append]
  refine ⟨by rw [Engine.state, phase, Phase.state], fun odd => ?_⟩
  rw [Engine.lastFault, record, engine, Engine.acceptHeader, if_pos odd]
  rfl

/-- A header that comes to the first of some nodes in a row ripples through all of them.

Each node reads three bytes and sends the three bytes of another header, and by then it counts if
and only if the header that it has got has even parity and is no write with a count of zero; the one
that it has sent has even parity if and only if it counts.  If nothing else comes to the first node,
no node sends any other byte, as long as it is no node's turn at once.

If a node refuses its header, it recovers in the end, as do all behind it, for a fault of parity,
and the header that leaves the row has odd parity.  If no node refuses its header, the one that
leaves the row is the packed one with the count as many steps on as there are nodes, and with the
flag set if it is a read and one of them has a fault to report. -/
theorem header_ripples {hops : List (Hop M)} {h : RawHeader} {stream : List UInt8}
    (nonempty : hops ≠ []) (isAction : h.action ≠ .sync) (opens : h.toList <+: stream)
    (row : Row table stream hops) :
  (∀ i hop, hops[i]? = some hop →
    let got := headerAfter hops h i
    let sent := headerAfter hops h (i + 1)
    (∃ xs, xs <+: hop.events ∧
      hop.station.read table xs = got.toList ∧ hop.station.sent table xs = sent.toList ∧
      ((hop.station.run table xs).engine.state = .counting ↔
        got.evenParity = true ∧ ¬(got.action = .write ∧ got.count = 0)) ∧
      (sent.evenParity = true ↔ (hop.station.run table xs).engine.state = .counting)) ∧
    (stream = h.toList → (∀ j ≤ i, ¬(h.action = .read ∧ (headerAfter hops h j).count = 0)) →
      hop.output table = sent.toList)) ∧
  (∀ k < hops.length, accepts (headerAfter hops h k) = false →
    (∀ i hop, k ≤ i → hops[i]? = some hop →
      (hop.final table).engine.state = .recovering ∧
      (k < i → (hop.final table).engine.lastFault = some .headerParity)) ∧
    (headerAfter hops h hops.length).evenParity = false) ∧
  ((∀ i < hops.length, accepts (headerAfter hops h i) = true) →
    (h.action = .write → hops.length ≤ h.count) ∧
    headerAfter hops h hops.length = ActionHeader.pack {
      action := h.action
      flag := h.flag || (decide (h.action = .read) && hops.any fun hop => hop.record.isSome)
      property := h.property
      count :=
        if h.action = .write then h.count - hops.length
        else (h.count + hops.length) % countModulus })
  := by
  refine ⟨fun i hop there => ⟨?_, fun only later => ?_⟩, fun k below refused => ⟨?_, ?_⟩,
    fun accepted => ?_⟩
  · obtain ⟨stream', ready, begins, -⟩ := row.at isAction opens there
    have isAction' : (headerAfter hops h i).action ≠ .sync := by rwa [action_headerAfter]
    obtain ⟨xs, now, upto, read, sent, engine⟩ := ready.forwards isAction' begins
    refine ⟨xs, upto, read, ?_, ?_, ?_⟩
    · rw [headerAfter_succ there, sent]
    · rw [engine, state_acceptHeader, accepts_iff]
    · rw [engine, state_acceptHeader, headerAfter_succ there, evenParity_forward]
  · obtain ⟨stream', ready, begins, alone⟩ := row.at isAction opens there
    have isAction' : (headerAfter hops h i).action ≠ .sync := by rwa [action_headerAfter]
    obtain rfl := alone only fun j below => later j (Nat.le_of_lt below)
    rw [headerAfter_succ there]
    apply ready.output_eq isAction'
    rw [action_headerAfter]
    exact later i (Nat.le_refl i)
  · intro i hop behind there
    obtain ⟨stream', ready, begins, -⟩ := row.at isAction opens there
    have isAction' : (headerAfter hops h i).action ≠ .sync := by rwa [action_headerAfter]
    have upto : i ≤ hops.length := Nat.le_of_lt (List.getElem?_eq_some_iff.mp there).1
    have refused' : accepts (headerAfter hops h i) = false := by
      rcases Nat.lt_or_eq_of_le behind with before | rfl
      · simp [accepts, odd_behind refused before upto]
      · exact refused
    obtain ⟨recovers, parity⟩ := ready.recovers isAction' begins refused'
    exact ⟨recovers, fun before => parity (odd_behind refused before upto)⟩
  · exact odd_behind refused below (Nat.le_refl _)
  · have all : hops.take hops.length = hops := List.take_length
    have fits : h.action = .write → hops.length ≤ h.count := by
      intro isWrite
      have down := count_headerAfter_down hops h hops.length isWrite (Nat.le_refl _) accepted
      omega
    have count : (headerAfter hops h hops.length).count =
        if h.action = .write then h.count - hops.length
        else (h.count + hops.length) % countModulus := by
      split
      · next isWrite =>
        have down := count_headerAfter_down hops h hops.length isWrite (Nat.le_refl _) accepted
        omega
      · next other => exact count_headerAfter_up hops h hops.length other (Nat.le_refl _)
    have even : (headerAfter hops h hops.length).evenParity = true := by
      obtain ⟨last, length⟩ := Nat.exists_eq_succ_of_ne_zero
        fun none => nonempty (List.eq_nil_of_length_eq_zero none)
      have below : last < hops.length := by omega
      rw [length, headerAfter_succ (List.getElem?_eq_getElem below), evenParity_forward]
      exact accepted last below
    refine ⟨fits, RawHeader.eq_of_fields ?_ ?_ ?_ ?_ ?_⟩
    · rw [action_headerAfter, ActionHeader.action_pack]
    · rw [flag_headerAfter, all, ActionHeader.flag_pack]
    · rw [property_headerAfter, ActionHeader.property_pack, RawHeader.property_wire]
    · rw [ActionHeader.count_pack, ← count, Nat.mod_eq_of_lt (RawHeader.count_lt _)]
    · rw [even, ActionHeader.evenParity_pack]

/-! ### A write for a single node -/

/-- The header of a write that is meant for a single node. -/
def lonelyWrite : RawHeader :=
  ActionHeader.pack ⟨.write, false, SplitFlap.offset.id, 1⟩

/-- The header of a write that is meant for no node, as it leaves the first node of a row. -/
def emptyWrite : RawHeader :=
  ActionHeader.pack ⟨.write, false, SplitFlap.offset.id, 0⟩

/-- Three nodes in a row.  The header comes to the first one in two pieces, and to the others byte
by byte; the second one has room for a single byte. -/
def threeHops : List (Hop SplitFlap.Module) :=
  [⟨{ module := {} },
    [.receive [lonelyWrite.byte0], .tick 0, .receive [lonelyWrite.byte1, lonelyWrite.byte2],
      .tick 10]⟩,
   ⟨{ module := {} },
    .capacity 1 :: emptyWrite.toList.flatMap fun byte => [.receive [byte], .tick 20, .drain 1]⟩,
   ⟨{ module := {} },
    (forward none emptyWrite).toList.flatMap fun byte => [.receive [byte], .tick 30, .tick 40]⟩]

/-- The first node accepts the header, and leaves nothing for the others: they recover, the last one
for a fault of parity. -/
theorem header_ripples_three :
  Row SplitFlap.table lonelyWrite.toList threeHops ∧
  (∀ i hop, 1 ≤ i → threeHops[i]? = some hop →
    (hop.final SplitFlap.table).engine.state = .recovering ∧
    (1 < i → (hop.final SplitFlap.table).engine.lastFault = some .headerParity)) ∧
  (headerAfter threeHops lonelyWrite 3).evenParity = false
  := by
  have row : Row SplitFlap.table lonelyWrite.toList threeHops := by
    refine ⟨⟨rfl, rfl, ?_, ?_, ?_⟩, ⟨rfl, rfl, ?_, ?_, ?_⟩, ⟨rfl, rfl, ?_, ?_, ?_⟩, trivial⟩
    all_goals decide +kernel
  have ripples := header_ripples (by decide) (by decide) List.prefix_rfl row
  exact ⟨row, ripples.2.1 1 (by decide) (by decide +kernel)⟩

end DaisyChain.Node
