import DaisyChain.Proofs.Node.Runs
import DaisyChain.SplitFlap.Properties

/-!
# Schedules

How the bytes for a node come in pieces, when it is given time, how much room its queue has and
when its last byte leaves it: none of this matters for what it sends and for what becomes of it,
as long as its time does not run out (`Station.run_eq_of_received`).
-/

namespace DaisyChain.Node.Station

variable {M : Type} {table : Table M}

/-- After a timely run that has brought a node to listen, with nothing left to read, the node is
what the bytes make of it, and has sent all that it sends on their behalf. -/
theorem Timely.complete {s : Station M} {events : List Event} (timely : s.Timely table events)
    (quiet : s.wiring.tx.disturbances = []) (exhausted : (s.run table events).wiring.rx = [])
    (listens : (s.run table events).engine.state = .listening) :
  s.body.digest table (s.wiring.rx ++ received events) =
    ((s.run table events).body, s.sent table events)
  := by
  obtain ⟨sent, made, all⟩ := timely.digest_read (waiting_of_listening listens)
  have bytes : s.read table events = s.wiring.rx ++ received events := by
    have parts := s.read_append table events
    rwa [exhausted, List.append_nil] at parts
  rw [← bytes, made, all quiet]

/-- Two timely runs that begin with the same engine and the same module, that bring the same
bytes, and that end with everything read and the node listening: the node sends the same bytes in
both, and its module and its engine, but for the clock, are the same afterwards.  Nothing else
need be the same: neither the pieces in which the bytes come, nor the ticks, nor the room in the
queue, nor the moments at which the last byte has left. -/
theorem run_eq_of_received {s s' : Station M} {events events' : List Event}
    (engine : s.engine = s'.engine) (module : s.module = s'.module)
    (quiet : s.wiring.tx.disturbances = []) (quiet' : s'.wiring.tx.disturbances = [])
    (same : s.wiring.rx ++ received events = s'.wiring.rx ++ received events')
    (timely : s.Timely table events) (timely' : s'.Timely table events')
    (exhausted : (s.run table events).wiring.rx = [])
    (exhausted' : (s'.run table events').wiring.rx = [])
    (listens : (s.run table events).engine.state = .listening)
    (listens' : (s'.run table events').engine.state = .listening) :
  s.sent table events = s'.sent table events' ∧
    (s.run table events).module = (s'.run table events').module ∧
    (s.run table events).engine.timeless = (s'.run table events').engine.timeless
  := by
  have alike : s.body = s'.body := by rw [body, engine, module, body]
  have one := timely.complete quiet exhausted listens
  have other := timely'.complete quiet' exhausted' listens'
  rw [alike, same, other] at one
  obtain ⟨bodies, sent⟩ := Prod.mk.inj one
  exact ⟨sent.symm, congrArg Body.module bodies.symm, congrArg Body.engine bodies.symm⟩

/-! ### A broadcast and a read -/

/-- A broadcast of the offset nine. -/
def offsetSet : List UInt8 :=
  (ActionHeader.pack ⟨.broadcast, false, SplitFlap.offset.id, 0⟩).toList ++ [3, 9, 0xF6, 0]

/-- The header of a read of the offset. -/
def offsetAsked : List UInt8 :=
  (ActionHeader.pack ⟨.read, false, SplitFlap.offset.id, 0⟩).toList

/-- Everything comes at once, and there is room for everything. -/
def atOnce : List Event :=
  .receive (offsetSet ++ offsetAsked) :: List.replicate 8 (.tick 0)

/-- A byte comes every twenty milliseconds, and leaves the node before the next one comes. -/
def paced (start : Nat) (bytes : List UInt8) : List Event :=
  bytes.zipIdx.flatMap fun (byte, i) =>
    [.receive [byte], .tick (UInt32.ofNat (start + 20 * i)), .drain 1]

/-- The bytes come one by one to a node that has room for a single one.  It is told late that the
bytes of the broadcast have left. -/
def dropByDrop : List Event :=
  .capacity 1 :: .drained false :: paced 0 offsetSet ++
    [.tick 130, .tick 140, .drained true, .tick 150] ++ paced 160 offsetAsked ++
    (List.replicate 8 [.tick 210, .drain 1]).flatten

/-- In both schedules the node forwards the broadcast, puts nine into its module, and answers the
read with it. -/
theorem run_eq_of_received_offset :
  let s : Station SplitFlap.Module := { module := {} }
  received atOnce = received dropByDrop ∧ s.Timely SplitFlap.table atOnce ∧
    s.Timely SplitFlap.table dropByDrop ∧
    s.sent SplitFlap.table atOnce = s.sent SplitFlap.table dropByDrop ∧
    (s.run SplitFlap.table atOnce).module = (s.run SplitFlap.table dropByDrop).module ∧
    (s.run SplitFlap.table atOnce).engine.timeless =
      (s.run SplitFlap.table dropByDrop).engine.timeless
  := by
  intro s
  have same : received atOnce = received dropByDrop := by decide
  have timely : s.Timely SplitFlap.table atOnce := by decide +kernel
  have timely' : s.Timely SplitFlap.table dropByDrop := by decide +kernel
  refine ⟨same, timely, timely', ?_⟩
  apply @run_eq_of_received _ _ s s atOnce dropByDrop rfl rfl rfl rfl same timely timely'
  all_goals decide +kernel

end DaisyChain.Node.Station
