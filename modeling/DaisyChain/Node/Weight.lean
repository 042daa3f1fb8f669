import DaisyChain.Node.Station

/-!
# The weight of a node

At any one time a node can do only so much: every byte that it reads passes at most one byte
on, and makes it send at most one frame of its own.  The argument gives every byte a weight,
larger before the node has read it than after, and every phase the weight of what it may
still send.

`Station.lighter_tick` says that a tick either makes a node and its queues lighter, or leaves
the queues and the state of the node as they were.
-/

namespace DaisyChain.Node

/-- The weight of the heaviest phase, if a byte that is sent weighs `out`. -/
def phaseMax (out : Nat) : Nat :=
  frameMax * (out + 1) + 2

namespace Engine

/-- The weight of an engine, if a byte that it sends weighs `out`. -/
def weight (now : UInt32) (out : Nat) (e : Engine) : Nat :=
  match e.phase with
  | .listening _ | .recovering => (e.timedOut now).toNat
  | .counting .. => phaseMax out
  | .sending _ frame sent => (frame.length - sent) * (out + 1) + 1
  | .relaying .. | .committing _ => 1

/-- The engine does not send a frame of its own. -/
def silent (e : Engine) : Prop :=
  e.state ≠ .sending

/-- An engine that does not send weighs at most as much as the heaviest phase. -/
theorem weight_le_of_silent {e : Engine} (h : e.silent) (now : UInt32) (out : Nat) :
  e.weight now out ≤ phaseMax out
  := by
  unfold weight phaseMax
  split
  · cases e.timedOut now <;> simp
  · cases e.timedOut now <;> simp
  · exact Nat.le_refl _
  · next hp => simp [silent, state, Phase.state, hp] at h
  · omega
  · omega

/-- An engine that has just begun to listen weighs nothing. -/
theorem weight_listening (e : Engine) (heard : Heard) (now : UInt32) (out : Nat) :
  (e.enter (.listening heard) now).weight now out = 0
  := by
  simp [weight, enter, timedOut, elapsed]

/-- An engine that has just failed weighs nothing. -/
theorem weight_fail (e : Engine) (fault : Fault) (now : UInt32) (out : Nat) :
  (e.fail fault now).weight now out = 0
  := by
  simp [weight, fail, enter, timedOut, elapsed]

/-! ### The phases -/

/-- After a byte of a header an engine does not send a frame of its own. -/
theorem silent_hear (e : Engine) (heard : Heard) (byte : UInt8) (now : UInt32) :
  (e.hear heard byte now).1.silent
  := by
  unfold hear
  split
  · split
    · unfold hearSync
      split <;> simp [silent, state, enter, Phase.state]
    · simp [silent, state, enter, Phase.state]
  · simp [silent, state, enter, Phase.state]
  · simp only [acceptHeader]
    split
    · simp [silent, state, fail, enter, Phase.state]
    · split <;> simp [silent, state, fail, enter, Phase.state]

variable {M : Type} {now : UInt32} {out inp : Nat}

/-- What an engine with its queues weighs. -/
def load (now : UInt32) (inp out : Nat) (r : Engine × List UInt8 × Link) : Nat :=
  r.1.weight now out + inp * r.2.1.length + out * r.2.2.queue.length

/-- A step either makes the engine and its queues lighter or leaves state and queues as they
were, and does not make the engine heavier. -/
def Lighter (now : UInt32) (inp out : Nat) (r r' : Engine × List UInt8 × Link) : Prop :=
  load now inp out r' < load now inp out r ∨
    (r'.1.state = r.1.state ∧ r'.2.1 = r.2.1 ∧ r'.2.2 = r.2.2 ∧
      load now inp out r' ≤ load now inp out r)

/-- A step never makes the engine and its queues heavier. -/
theorem Lighter.le {r r' : Engine × List UInt8 × Link} (h : Lighter now inp out r r') :
  load now inp out r' ≤ load now inp out r
  := by
  rcases h with h | h
  · omega
  · exact h.2.2.2

/-- Reading a byte, and passing at most one on, makes engine and queues lighter, whatever
the engine does next unless it sends. -/
theorem load_lt_of_read {e e' : Engine} {byte : UInt8} {rest : List UInt8} {tx tx' : Link}
    (big : out + phaseMax out + 1 ≤ inp) (h : e'.weight now out ≤ phaseMax out)
    (ht : tx'.queue.length ≤ tx.queue.length + 1) :
  load now inp out (e', rest, tx') < load now inp out (e, byte :: rest, tx)
  := by
  have passed : out * tx'.queue.length ≤ out * tx.queue.length + out :=
    Nat.mul_le_mul_left out ht
  simp only [load, List.length_cons, Nat.mul_add, Nat.mul_one]
  omega

/-- Giving up a header makes the engine lighter. -/
theorem lighter_awaitHeader {e : Engine} {heard : Heard} (hp : e.phase = .listening heard)
    (rx : List UInt8) (tx : Link) :
  Lighter now inp out (e, rx, tx) (e.awaitHeader heard now, rx, tx)
  := by
  unfold awaitHeader
  split
  · next h =>
    left
    simp only [load, weight_fail]
    have : e.weight now out = 1 := by simp [weight, hp, h.2]
    omega
  · right
    simp

/-- Listening makes the engine and its queues lighter, or changes nothing. -/
theorem lighter_listen (big : out + phaseMax out + 1 ≤ inp) (e : Engine) (tx : Link)
    (rx : List UInt8) :
  Lighter now inp out (e, rx, tx) (listen now e tx rx)
  := by
  induction rx generalizing e tx with
  | nil =>
    unfold listen
    split
    · next hp => exact lighter_awaitHeader hp _ _
    · exact Or.inr ⟨rfl, rfl, rfl, Nat.le_refl _⟩
  | cons byte rest ih =>
    unfold listen
    split
    · next heard hp =>
      split
      · exact lighter_awaitHeader hp _ _
      · left
        have later := (ih (e.hear heard byte now).1 (tx.push (e.hear heard byte now).2)).le
        have first : load now inp out
            ((e.hear heard byte now).1, rest, tx.push (e.hear heard byte now).2) <
              load now inp out (e, byte :: rest, tx) :=
          load_lt_of_read big (weight_le_of_silent (silent_hear e heard byte now) now out)
            (Link.length_queue_push_le _ _)
        exact Nat.lt_of_le_of_lt later first
    · exact Or.inr ⟨rfl, rfl, rfl, Nat.le_refl _⟩

/-- Recovering does not make the engine heavier; it makes the engine lighter if it listens again. -/
theorem weight_recover {e : Engine} (hp : e.phase = .recovering) (busy : Bool) (now : UInt32)
    (out : Nat) :
  (e.recover now busy).weight now out ≤ e.weight now out ∧
    ((e.recover now busy).state = e.state ∨
      (e.recover now busy).weight now out < e.weight now out)
  := by
  unfold recover
  split
  · constructor
    · simp [weight, hp, timedOut, elapsed]
    · exact Or.inl rfl
  · split
    · next h =>
      have late : e.timedOut now = true := by
        simp only [recoveryDelay, nodeTimeout, recoveryMargin] at h
        exact decide_eq_true (by simp only [nodeTimeout]; omega)
      have : e.weight now out = 1 := by simp [weight, hp, late]
      rw [weight_listening, this]
      omega
    · exact ⟨Nat.le_refl _, Or.inl rfl⟩

/-- Answering bytes with zeros makes the queues lighter, or changes nothing. -/
theorem lighter_swallow (big : out < inp) (tx : Link) (rx : List UInt8) :
  swallow tx rx = (rx, tx) ∨
    inp * (swallow tx rx).1.length + out * (swallow tx rx).2.queue.length <
      inp * rx.length + out * tx.queue.length
  := by
  induction rx generalizing tx with
  | nil => exact Or.inl rfl
  | cons byte rest ih =>
    unfold swallow
    split
    · exact Or.inl rfl
    · right
      have grown : out * (tx.push 0).queue.length ≤ out * tx.queue.length + out :=
        Nat.mul_le_mul_left out (Link.length_queue_push_le tx 0)
      simp only [List.length_cons, Nat.mul_add, Nat.mul_one]
      rcases ih (tx.push 0) with h | h
      · rw [h]
        simp only
        omega
      · omega

/-- Recovering makes the engine and its queues lighter, or changes nothing. -/
theorem lighter_recover (big : out + phaseMax out + 1 ≤ inp) {e : Engine}
    (hp : e.phase = .recovering) (busy : Bool) (tx : Link) (rx : List UInt8) :
  Lighter now inp out (e, rx, tx)
    (e.recover now busy, (swallow tx rx).1, (swallow tx rx).2)
  := by
  have engine := weight_recover hp busy now out
  have more : out < inp := by omega
  rcases lighter_swallow more tx rx with same | less
  · rw [same]
    rcases engine.2 with stays | less
    · exact Or.inr ⟨stays, rfl, rfl, by simp only [load]; omega⟩
    · left
      simp only [load]
      omega
  · left
    simp only [load]
    omega

/-- Deciding what comes next makes the engine lighter. -/
theorem weight_count_lt (table : Table M) (now : UInt32) (out : Nat) {e : Engine}
    {request : Request} {count : Nat} {kept : Option (List UInt8)}
    (hp : e.phase = .counting request count kept) (m : M) :
  (e.count table now request count kept m).weight now out < e.weight now out
  := by
  have heavy : e.weight now out = frameMax * (out + 1) + 2 := by simp [weight, hp, phaseMax]
  rw [heavy]
  unfold Engine.count
  split
  · split
    · rw [weight_listening]
      omega
    · simp only
      split
      · rw [weight_listening]
        omega
      · simp only [weight, enter]
        omega
  · split
    · have short := Node.length_answer_le table m request.property e.record
      have : (answer table m request.property e.record).1.length * (out + 1) ≤
          frameMax * (out + 1) := Nat.mul_le_mul_right _ short
      simp only [weight, enter, Nat.sub_zero]
      omega
    · simp only [weight, enter]
      omega

/-- Sending makes the engine and its queues lighter, or changes nothing. -/
theorem lighter_send {e : Engine} {request : Request} {frame : List UInt8} {sent : Nat}
    (hp : e.phase = .sending request frame sent) (rx : List UInt8) (tx : Link) :
  Lighter now inp out (e, rx, tx)
    ((e.send now request frame sent tx).1, rx, (e.send now request frame sent tx).2)
  := by
  have heavy : e.weight now out = (frame.length - sent) * (out + 1) + 1 := by
    simp [weight, hp]
  unfold Engine.send
  split
  · left
    simp only [load, weight_fail, heavy]
    omega
  · generalize hb : (frame.drop sent).take tx.room = batch
    have short : batch.length ≤ frame.length - sent := by
      rw [← hb, List.length_take, List.length_drop]
      omega
    have pushed := tx.length_queue_pushAll_le batch
    have grown : out * (tx.pushAll batch).queue.length ≤
        out * tx.queue.length + out * batch.length := by
      rw [← Nat.mul_add]
      exact Nat.mul_le_mul_left _ pushed
    have parts : (frame.length - sent) * (out + 1) =
        (frame.length - (sent + batch.length)) * (out + 1) +
          (out * batch.length + batch.length) := by
      have split : frame.length - sent =
          frame.length - (sent + batch.length) + batch.length := by omega
      rw [split, Nat.add_mul, Nat.mul_add batch.length, Nat.mul_one, Nat.mul_comm batch.length]
    simp only
    split
    · left
      simp only [load, weight_listening, heavy]
      omega
    · split
      · next hempty =>
        subst hempty
        right
        simp [Link.pushAll]
      · next hne =>
        left
        have : 0 < batch.length := List.length_pos_iff.mpr hne
        have light : (e.enter (.sending request frame (sent + batch.length)) now).weight now out =
            (frame.length - (sent + batch.length)) * (out + 1) + 1 := by simp [weight, enter]
        simp only [load, heavy, light]
        omega

/-- After a frame an engine does not send a frame of its own. -/
theorem silent_finishFrame (e : Engine) (request : Request) (count : Nat) (keep : Bool)
    (frame : Except Frame.Error Frame) :
  (e.finishFrame now request count keep frame).silent
  := by
  rcases e.finishFrame_ends now request count keep frame with ⟨kept, ends⟩ | ⟨fault, ends⟩
  · rw [ends]
    simp [silent, state, enter, Phase.state]
  · rw [ends]
    simp [silent, state, fail, enter, Phase.state]

/-- Receiving bytes makes the engine and its queues lighter, or changes nothing. -/
theorem lighter_collect (big : out + phaseMax out + 1 ≤ inp) (request : Request) (count : Nat)
    (pass keep : Bool) (e : Engine) (collector : Frame.Collector) (tx : Link)
    (rx : List UInt8) :
  Lighter now inp out (e, rx, tx) (collect now request count pass keep e collector tx rx)
  := by
  induction rx generalizing e collector tx with
  | nil => exact Or.inr ⟨rfl, rfl, rfl, Nat.le_refl _⟩
  | cons byte rest ih =>
    unfold collect
    split
    · exact Or.inr ⟨rfl, rfl, rfl, Nat.le_refl _⟩
    · left
      generalize htx : (if pass = true then tx.push byte else tx) = tx'
      have pushed : tx'.queue.length ≤ tx.queue.length + 1 := by
        subst htx
        split
        · exact Link.length_queue_push_le _ _
        · omega
      simp only
      split
      · next collector' _ =>
        have relaying : (e.enter (.relaying request count collector') now).weight now out ≤
            phaseMax out := weight_le_of_silent (by simp [silent, state, enter, Phase.state]) _ _
        exact Nat.lt_of_le_of_lt (ih _ _ _).le (load_lt_of_read big relaying pushed)
      · exact load_lt_of_read big (weight_le_of_silent (silent_finishFrame _ _ _ _ _) _ _) pushed
      · exact load_lt_of_read big (by rw [weight_fail]; omega) pushed

/-- Receiving a frame makes the engine and its queues lighter, or changes nothing. -/
theorem lighter_relay (big : out + phaseMax out + 1 ≤ inp) {e : Engine} {request : Request}
    {count : Nat} {collector : Frame.Collector}
    (hp : e.phase = .relaying request count collector) (rx : List UInt8) (tx : Link) :
  Lighter now inp out (e, rx, tx) (e.relay now request count collector rx tx)
  := by
  unfold Engine.relay
  simp only
  split
  · left
    have heavy : e.weight now out = 1 := by simp [weight, hp]
    split
    · simp only [load, weight_listening, heavy]
      omega
    · simp only [load, weight_fail, heavy]
      omega
  · exact lighter_collect big ..

/-- Applying values makes the engine lighter, or changes nothing. -/
theorem weight_commit (table : Table M) (now : UInt32) (out : Nat) {e : Engine} {batch : Batch}
    (hp : e.phase = .committing batch) (drained : Bool) (m : M) :
  (e.commit table now batch drained m).1 = e ∨
    (e.commit table now batch drained m).1.weight now out < e.weight now out
  := by
  have heavy : e.weight now out = 1 := by simp [weight, hp]
  rw [heavy]
  obtain ⟨same, -⟩ | ⟨idle, ends⟩ | ⟨faulty, fault, ends⟩ := e.commit_ends table now batch drained m
  · exact .inl same
  · right
    rw [ends, weight_listening]
    omega
  · right
    rw [ends, weight_fail]
    omega

end Engine

namespace Station

variable {M : Type} {out inp : Nat}

/-- The engine and the queues of a station. -/
def parts (s : Station M) : Engine × List UInt8 × Link :=
  (s.engine, s.wiring.rx, s.wiring.tx)

/-- A tick makes the engine and its queues lighter, or changes nothing that can be seen. -/
theorem lighter_tick (now : UInt32) (big : out + phaseMax out + 1 ≤ inp) (table : Table M)
    (s : Station M) :
  Engine.Lighter now inp out s.parts (s.tick table now).parts
  := by
  unfold tick parts
  simp only
  split
  · exact Engine.lighter_listen big ..
  · next hp => exact Engine.lighter_recover big hp ..
  · next hp =>
    left
    have := Engine.weight_count_lt table now out hp s.module
    simp only [Engine.load]
    omega
  · next hp => exact Engine.lighter_send hp ..
  · next hp => exact Engine.lighter_relay big hp ..
  · next hp =>
    rcases Engine.weight_commit table now out hp s.wiring.drained s.module with h | h
    · right
      simp [h, Engine.load]
    · left
      simp only [Engine.load]
      omega

end Station

end DaisyChain.Node
