import DaisyChain.Gateway.Display
import DaisyChain.Gateway.Session
import DaisyChain.Proofs.Chain.Yield
import DaisyChain.Proofs.Frame.Whole

/-!
# Acts on a chain

A state is on a chain if its line is a chain and does what that chain does (`OnChain`).  What
an act of the gateway does to such a state follows from what the chain yields: bytes that it
yields are received at once, and no time passes.

Something is done aside if it neither looks at the line nor changes it (`Aside`).  What is done
aside can be told apart from what the line goes through, in whatever order the two happen.
-/

namespace DaisyChain.Gateway

variable {S M α β : Type}

/-- A session after something was done in its state. -/
def Session.after (σ : Session S) (f : StateM S α) : Session S :=
  { σ with env := (f σ.env).2 }

/-! ### Acts in a row -/

section Runs

variable {σ σ' : Session S}

/-- An act after one that succeeds. -/
theorem run_bind_ok {a : Act S α} {f : α → Act S β} {x : α} (first : a.run σ = (.ok x, σ')) :
  (a >>= f).run σ = (f x).run σ'
  := by
  change ExceptT.bindCont f (a.run σ).1 (a.run σ).2 = (f x).run σ'
  rw [first]
  rfl

/-- An act after one that fails. -/
theorem run_bind_error {a : Act S α} {f : α → Act S β} {failure : Failure}
    (first : a.run σ = (.error failure, σ')) :
  (a >>= f).run σ = (.error failure, σ')
  := by
  change ExceptT.bindCont f (a.run σ).1 (a.run σ).2 = (.error failure, σ')
  rw [first]
  rfl

/-- An act that succeeds is not followed by what would be done if it failed. -/
theorem run_tryCatch_ok {a : Act S α} {handle : Failure → Act S α} {x : α}
    (first : a.run σ = (.ok x, σ')) :
  (tryCatch a handle).run σ = (.ok x, σ')
  := by
  rw [ExceptT.run_tryCatch]
  change StateT.bind a.run _ σ = _
  rw [StateT.bind, first]
  rfl

/-- An act that fails is followed by what is to be done then. -/
theorem run_tryCatch_error {a : Act S α} {handle : Failure → Act S α} {failure : Failure}
    (first : a.run σ = (.error failure, σ')) :
  (tryCatch a handle).run σ = (handle failure).run σ'
  := by
  rw [ExceptT.run_tryCatch]
  change StateT.bind a.run _ σ = _
  rw [StateT.bind, first]
  rfl

/-- Acts that begin alike, in whatever sessions, go on alike. -/
theorem run_bind_congr {a b : Act S α} (f : α → Act S β) (same : a.run σ = b.run σ') :
  (a >>= f).run σ = (b >>= f).run σ'
  := by
  change ExceptT.bindCont f (a.run σ).1 (a.run σ).2 = ExceptT.bindCont f (b.run σ').1 (b.run σ').2
  rw [same]

/-- If two acts in turn succeed, both do. -/
theorem exists_of_run_bind {a : Act S α} {f : α → Act S β} {y : β}
    (run : (a >>= f).run σ = (.ok y, σ')) :
  ∃ x τ, a.run σ = (.ok x, τ) ∧ (f x).run τ = (.ok y, σ')
  := by
  cases result : a.run σ with
  | mk r τ =>
    cases r with
    | error failure =>
      rw [run_bind_error result] at run
      cases run
    | ok x =>
      rw [run_bind_ok result] at run
      exact ⟨x, τ, rfl, run⟩

/-- If the first of two acts fails, the second is not done; otherwise it is done after it. -/
theorem run_bind_cases {a : Act S α} {f : α → Act S β} {r : Except Failure β}
    (run : (a >>= f).run σ = (r, σ')) :
  (∃ x τ, a.run σ = (.ok x, τ) ∧ (f x).run τ = (r, σ')) ∨
    ∃ failure, a.run σ = (.error failure, σ') ∧ r = .error failure
  := by
  cases result : a.run σ with
  | mk r' τ =>
    cases r' with
    | ok x =>
      rw [run_bind_ok result] at run
      exact .inl ⟨x, τ, rfl, run⟩
    | error failure =>
      rw [run_bind_error result] at run
      cases run
      exact .inr ⟨failure, rfl, rfl⟩

@[simp]
theorem run_pure (x : α) :
  (pure x : Act S α).run σ = (.ok x, σ)
  := rfl

@[simp]
theorem run_within (f : StateM S α) :
  (within f).run σ = (.ok (f σ.env).1, σ.after f)
  := rfl

/-- As many nodes as a header can count, a replica can count as well. -/
theorem le_modulesMax {count : Nat} (few : count < countModulus) :
  count ≤ modulesMax
  := Nat.le_trans (Nat.le_of_lt few) (by decide)

/-- If there are no more modules than a header can count, all of them are counted. -/
theorem Collection.counted_eq {N : Nat} {c : Collection M N} {count : Nat} (sized : c.size = count)
    (few : count < countModulus) :
  c.counted = count
  := by
  rw [counted_of_size_le (sized ▸ le_modulesMax few), sized]

/-- What the replica does when the length of the chain is noted. -/
def noteCount [Replica S M] (count : Nat) : StateM S Unit := fun s =>
  if (Replica.count s).1 ≠ min count (Replica.capacity (Replica.count s).2) then
    Replica.countChanged count (Replica.count s).2
  else
    ((), (Replica.count s).2)

/-- A session in which the length of the chain has been noted. -/
def Session.noted [Replica S M] (σ : Session S) (count : Nat) : Session S :=
  { env := (noteCount count σ.env).2, chainLength := count }

/-- Taking note of the length of the chain always succeeds. -/
theorem run_updateCount [Replica S M] (count : Nat) (σ : Session S) :
  (updateCount count : Act S Unit).run σ =
    (.ok (), σ.noted count)
  := by
  change (if (Replica.count σ.env).1 ≠ min count (Replica.capacity (Replica.count σ.env).2) then
    within (Replica.countChanged count) else pure () : Act S Unit).run
      ⟨(Replica.count σ.env).2, count⟩ = _
  unfold Session.noted noteCount
  by_cases differs : (Replica.count σ.env).1 ≠ min count (Replica.capacity (Replica.count σ.env).2)
  · rw [if_pos differs, if_pos differs]
    rfl
  · rw [if_neg differs, if_neg differs]
    rfl

end Runs

/-! ### States on a chain -/

/-- A state whose line is a chain. -/
class OnChain (S : Type) (M : outParam Type) [Transport S] where
  line : Part S (Chain M)
  get_set : ∀ c s, line.get (line.set c s) = c
  set_get : ∀ s, line.set (line.get s) s = s
  set_set : ∀ c c' s, line.set c (line.set c' s) = line.set c s
  send_eq : ∀ bytes s,
    Transport.send bytes s = (true, line.set ((line.get s).inject 0 bytes) s)
  receive_eq : ∀ count timeout s, Transport.receive count timeout s =
    (some ((line.get s).await count timeout).1, line.set ((line.get s).await count timeout).2 s)
  flush_eq : ∀ s, Transport.flush s = (true, line.set (line.get s).clearExit s)
  drain_eq : ∀ s, Transport.drain s = (true, line.set (line.get s).settle s)
  pause_eq : ∀ ms s, Transport.pause ms s = ((), line.set ((line.get s).advance ms) s)

/-- A chain with a display is a state on that chain. -/
instance {N : Nat} : OnChain (Site (Chain M) M N) M where
  line := ⟨Site.line, fun line s => { s with line := line }⟩
  get_set _ _ := rfl
  set_get _ := rfl
  set_set _ _ _ := rfl
  send_eq _ _ := rfl
  receive_eq _ _ _ := rfl
  flush_eq _ := rfl
  drain_eq _ := rfl
  pause_eq _ _ := rfl

variable [Transport S] [OnChain S M]

namespace Session

/-- The chain of a session. -/
def line (σ : Session S) : Chain M :=
  OnChain.line.get σ.env

/-- A session with another chain. -/
def withLine (σ : Session S) (c : Chain M) : Session S :=
  { σ with env := OnChain.line.set c σ.env }

@[simp]
theorem line_withLine (σ : Session S) (c : Chain M) :
  (σ.withLine c).line = c
  := OnChain.get_set c σ.env

@[simp]
theorem withLine_line (σ : Session S) :
  σ.withLine σ.line = σ
  := congrArg (fun env => { σ with env := env }) (OnChain.set_get σ.env)

@[simp]
theorem withLine_withLine (σ : Session S) (c c' : Chain M) :
  (σ.withLine c').withLine c = σ.withLine c
  := congrArg (fun env => { σ with env := env }) (OnChain.set_set c c' σ.env)

end Session

/-! ### Bytes -/

section Bytes

variable {σ : Session S} {table : Table M} {bodies : List (Node.Body M)} {out : List UInt8}

/-- What has come back is dropped. -/
theorem run_flush_eq (σ : Session S) :
  (flush : Act S Unit).run σ = (.ok (), σ.withLine σ.line.clearExit)
  := by
  have called : (within Transport.flush : Act S Bool).run σ =
      (.ok true, σ.withLine σ.line.clearExit) := by
    rw [run_within, Session.after, OnChain.flush_eq]
    rfl
  apply run_bind_ok called

/-- Bytes are put on the link that leads to the first node. -/
theorem run_send_eq (σ : Session S) (bytes : List UInt8) :
  (send bytes : Act S Unit).run σ = (.ok (), σ.withLine (σ.line.inject 0 bytes))
  := by
  have called : (within (Transport.send bytes) : Act S Bool).run σ =
      (.ok true, σ.withLine (σ.line.inject 0 bytes)) := by
    rw [run_within, Session.after, OnChain.send_eq]
    rfl
  apply run_bind_ok called

/-- The chain settles until every byte has left. -/
theorem run_drain_eq (σ : Session S) :
  (drain : Act S Unit).run σ = (.ok (), σ.withLine σ.line.settle)
  := by
  have called : (within Transport.drain : Act S Bool).run σ =
      (.ok true, σ.withLine σ.line.settle) := by
    rw [run_within, Session.after, OnChain.drain_eq]
    rfl
  apply run_bind_ok called

/-- While the gateway pauses, time passes for the chain. -/
theorem run_recover (g : Gateway M) (σ : Session S) :
  (g.recover : Act S Unit).run σ = (.ok (), σ.withLine (σ.line.advance g.settings.pause))
  := by
  rw [recover, run_within, Session.after, OnChain.pause_eq]
  rfl

/-- If no more than a frame comes back, nothing is left once it is dropped. -/
theorem run_flush (yields : σ.line.Yields table bodies out) (short : out.length ≤ frameMax) :
  ∃ c : Chain M, c.Yields table bodies [] ∧
    (flush : Act S Unit).run σ = (.ok (), σ.withLine c)
  := ⟨σ.line.clearExit, yields.clearExit short, run_flush_eq σ⟩

/-- Bytes sent flow through the nodes. -/
theorem run_send (yields : σ.line.Yields table bodies out) (bytes : List UInt8) :
  ∃ c : Chain M, c.Yields table (flow table bodies bytes).1
      (out ++ (flow table bodies bytes).2) ∧
    (send bytes : Act S Unit).run σ = (.ok (), σ.withLine c)
  := ⟨σ.line.inject 0 bytes, yields.inject bytes, run_send_eq σ bytes⟩

/-- Waiting until every byte has left changes nothing in the end. -/
theorem run_drain (yields : σ.line.Yields table bodies out) :
  ∃ c : Chain M, c.Yields table bodies out ∧
    (drain : Act S Unit).run σ = (.ok (), σ.withLine c)
  := ⟨σ.line.settle, yields.settle, run_drain_eq σ⟩

/-- Bytes that come back in time are received. -/
theorem run_receive_of_await (g : Gateway M) {first : List UInt8} {c : Chain M}
    (comes : σ.line.await first.length (g.settings.receiveTimeout first.length) = (first, c)) :
  (g.receive first.length : Act S (List UInt8)).run σ = (.ok first, σ.withLine c)
  := by
  have called : (within (Transport.receive first.length
      (g.settings.receiveTimeout first.length)) : Act S (Option (List UInt8))).run σ =
      (.ok (some first), σ.withLine c) := by
    rw [run_within, Session.after, OnChain.receive_eq]
    change (Except.ok (some (σ.line.await first.length
      (g.settings.receiveTimeout first.length)).1), σ.withLine (σ.line.await first.length
      (g.settings.receiveTimeout first.length)).2) = _
    rw [comes]
  rw [receive, run_bind_ok called]
  simp only [Nat.lt_irrefl, if_false, List.take_length, run_pure]

/-- Bytes that the chain yields are received. -/
theorem run_receive (g : Gateway M) (first : List UInt8) (count : Nat)
    (yields : σ.line.Yields table bodies (first ++ out)) (length : first.length = count)
    (short : count ≤ frameMax) :
  ∃ c : Chain M, c.Yields table bodies out ∧
    (g.receive count : Act S (List UInt8)).run σ = (.ok first, σ.withLine c)
  := by
  subst length
  obtain ⟨bytes, after⟩ := yields.await (by simp) short (g.settings.receiveTimeout first.length)
  rw [List.take_left] at bytes
  rw [List.drop_left] at after
  exact ⟨_, after, run_receive_of_await g (Prod.ext bytes rfl)⟩

/-- A byte that the chain yields is received. -/
theorem run_receiveByte (g : Gateway M) {byte : UInt8}
    (yields : σ.line.Yields table bodies (byte :: out)) :
  ∃ c : Chain M, c.Yields table bodies out ∧
    (g.receiveByte : Act S UInt8).run σ = (.ok byte, σ.withLine c)
  := by
  obtain ⟨c, after, received⟩ := run_receive g [byte] 1 yields rfl (by decide)
  refine ⟨c, after, ?_⟩
  rw [receiveByte, run_bind_ok received]
  rfl

end Bytes

/-! ### Headers and frames -/

section Frames

variable {σ : Session S} {table : Table M} {bodies : List (Node.Body M)} {out : List UInt8}

omit [OnChain S M] in
/-- A header that has been received is checked for its parity. -/
theorem run_receiveHeader_of_receive (g : Gateway M) {h : RawHeader} {τ : Session S}
    (received : (g.receive Header.actionLength : Act S (List UInt8)).run σ = (.ok h.toList, τ)) :
  (g.receiveHeader : Act S RawHeader).run σ =
    (if h.evenParity then .ok h else .error .headerMismatch, τ)
  := by
  rw [receiveHeader, run_bind_ok received]
  change (if h.evenParity then pure h else throw Failure.headerMismatch : Act S RawHeader).run _ = _
  cases h.evenParity <;> rfl

/-- The bytes of a header that the chain yields are received and checked for their parity. -/
theorem run_receiveHeader (g : Gateway M) {h : RawHeader}
    (yields : σ.line.Yields table bodies (h.toList ++ out)) :
  ∃ c : Chain M, c.Yields table bodies out ∧
    (g.receiveHeader : Act S RawHeader).run σ =
      (if h.evenParity then .ok h else .error .headerMismatch, σ.withLine c)
  := by
  obtain ⟨c, after, received⟩ := run_receive g h.toList Header.actionLength yields rfl (by decide)
  exact ⟨c, after, run_receiveHeader_of_receive g received⟩

/-- The rest of a frame that the chain yields is received. -/
theorem run_receiveRest (g : Gateway M) (held : List UInt8) {body : List UInt8} {frame : Frame}
    (clean : 0 ∉ body) (fits : held.length + body.length < frameMax)
    (reads : Frame.decode (held ++ body ++ [0]) = .ok frame)
    (yields : σ.line.Yields table bodies (body ++ 0 :: out)) :
  ∃ c : Chain M, c.Yields table bodies out ∧
    (g.receiveRest ⟨held, false⟩ : Act S Frame).run σ = (.ok frame, σ.withLine c)
  := by
  induction body generalizing held σ with
  | nil =>
    obtain ⟨c, after, received⟩ := run_receiveByte g yields
    refine ⟨c, after, ?_⟩
    have ended : Frame.Collector.feed ⟨held, false⟩ 0 = (.ok true, ⟨held ++ [0], true⟩) :=
      Frame.Collector.feed_open fits 0
    rw [List.append_nil] at reads
    rw [receiveRest, run_bind_ok received]
    split
    · next goes => simp [ended] at goes
    · next collector' finished =>
      rw [ended] at finished
      cases finished
      rw [Frame.Collector.decode, reads]
      rfl
    · next failed => simp [ended] at failed
  | cons b body ih =>
    have other : b ≠ 0 := by
      rintro rfl
      apply clean List.mem_cons_self
    rw [List.length_cons] at fits
    obtain ⟨c, after, received⟩ := run_receiveByte g yields
    have goes : Frame.Collector.feed ⟨held, false⟩ b = (.ok false, ⟨held ++ [b], false⟩) := by
      rw [Frame.Collector.feed_open (by omega), beq_eq_false_iff_ne.mpr other]
    obtain ⟨c', later, rest⟩ := ih (held ++ [b]) (σ := σ.withLine c)
      (fun zero => clean (List.mem_cons_of_mem _ zero))
      (by rw [List.length_append, List.length_singleton]; omega)
      (by rw [List.append_assoc held [b] body]; exact reads)
      (by rw [Session.line_withLine]; exact after)
    refine ⟨c', later, ?_⟩
    rw [Session.withLine_withLine] at rest
    rw [receiveRest, run_bind_ok received]
    split
    · next collector' more =>
      rw [goes] at more
      cases more
      apply rest
    · next finished => simp [goes] at finished
    · next failed => simp [goes] at failed

/-- A whole frame that the chain yields is received. -/
theorem run_receiveFrame (g : Gateway M) {bytes : List UInt8} {frame : Frame}
    (whole : Frame.Whole bytes frame)
    (yields : σ.line.Yields table bodies (bytes ++ out)) :
  ∃ c : Chain M, c.Yields table bodies out ∧
    (g.receiveFrame : Act S Frame).run σ = (.ok frame, σ.withLine c)
  := by
  obtain ⟨⟨body, rfl, clean⟩, fits, reads⟩ := whole
  rw [List.length_append, List.length_singleton] at fits
  rw [List.append_assoc] at yields
  apply run_receiveRest g [] clean (by rw [List.length_nil]; omega) reads yields

end Frames

/-! ### Aside from the line -/

/-- Something that neither looks at the line nor changes it. -/
def Aside (f : StateM S α) : Prop :=
  ∀ (c : Chain M) s, f (OnChain.line.set c s) = ((f s).1, OnChain.line.set c (f s).2)

/-- An act that neither looks at the line nor changes it. -/
def Act.Aside (a : Act S α) : Prop :=
  ∀ (c : Chain M) (σ : Session S),
    a.run (σ.withLine c) = ((a.run σ).1, (a.run σ).2.withLine c)

/-- What is done aside leaves the line as it was. -/
theorem Act.Aside.line_eq {a : Act S α} (aside : a.Aside) (σ : Session S) :
  (a.run σ).2.line = σ.line
  := by
  have same := congrArg (fun r => r.2.line) (aside σ.line σ)
  rw [Session.withLine_line, Session.line_withLine] at same
  apply same

/-- What is done aside gives the same answer whatever the line. -/
theorem Aside.answer_withLine {f : StateM S α} (aside : Aside f) (σ : Session S) (c : Chain M) :
  (f (σ.withLine c).env).1 = (f σ.env).1
  := by
  have same := congrArg Prod.fst (aside c σ.env)
  apply same

/-- What is done aside may be done before or after the line has changed. -/
theorem Aside.after_withLine {f : StateM S α} (aside : Aside f) (σ : Session S) (c : Chain M) :
  (σ.withLine c).after f = (σ.after f).withLine c
  := by
  have same := congrArg (fun r => { σ with env := r.2 }) (aside c σ.env)
  apply same

/-- What is done aside does not change the line. -/
theorem Aside.line_after {f : StateM S α} (aside : Aside f) (σ : Session S) :
  (σ.after f).line = σ.line
  := by
  have same := congrArg Session.line (aside.after_withLine σ σ.line)
  rw [Session.withLine_line, Session.line_withLine] at same
  apply same

/-- Giving an answer is done aside. -/
theorem aside_pure (x : α) :
  Aside (pure x : StateM S α)
  := fun _ _ => rfl

/-- Two things done aside in turn are done aside. -/
theorem Aside.bind {f : StateM S α} {k : α → StateM S β} (first : Aside f)
    (second : ∀ x, Aside (k x)) :
  Aside (f >>= k)
  := by
  intro c s
  change k (f (OnChain.line.set c s)).1 (f (OnChain.line.set c s)).2 = _
  rw [first c s]
  apply second _ c _

namespace Act.Aside

/-- Succeeding is done aside. -/
theorem pure (x : α) :
  Act.Aside (Pure.pure x : Act S α)
  := fun _ _ => rfl

/-- Failing is done aside. -/
theorem throw (failure : Failure) :
  Act.Aside (MonadExcept.throw failure : Act S α)
  := fun _ _ => rfl

/-- What is done aside in a state is done aside in a session. -/
theorem within {f : StateM S α} (aside : Gateway.Aside f) :
  Act.Aside (Gateway.within f : Act S α)
  := by
  intro c σ
  rw [run_within, run_within, aside.after_withLine, aside.answer_withLine]

/-- Two acts aside in turn are an act aside. -/
theorem bind {a : Act S α} {k : α → Act S β} (first : a.Aside) (second : ∀ x, (k x).Aside) :
  (a >>= k).Aside
  := by
  intro c σ
  cases result : a.run σ with
  | mk r σ' =>
    have moved : a.run (σ.withLine c) = (r, σ'.withLine c) := by rw [first c σ, result]
    cases r with
    | error failure => rw [run_bind_error result, run_bind_error moved]
    | ok x =>
      rw [run_bind_ok result, run_bind_ok moved]
      apply second x c σ'

end Act.Aside

/-! ### Replicas aside from the line -/

/-- A state whose replica has nothing to do with the line. -/
class Apart (S : Type) (M : outParam Type) [Transport S] [OnChain S M] [Replica S M] : Prop where
  count : Aside (Replica.count : StateM S Nat)
  capacity : ∀ (c : Chain M) (s : S),
    Replica.capacity (OnChain.line.set c s) = Replica.capacity s
  module? : ∀ index, Aside (Replica.module? index : StateM S (Option M))
  modify : ∀ {α : Type} index (f : M → α × M),
    Aside (Replica.modify index f : StateM S (Option α))
  countChanged : ∀ count, Aside (Replica.countChanged count : StateM S Unit)
  mustWrite : ∀ index property, Aside (Replica.mustWrite (M := M) index property : StateM S Bool)
  reported : ∀ index fault state,
    Aside (Replica.reported index fault state : StateM S Unit)

/-- A state whose display has nothing to do with the line. -/
class SharedApart (S M : Type) (N : Nat) [Transport S] [OnChain S M] [Shared S M N] : Prop where
  access : ∀ {α : Type} (f : StateM (Display M N) α), Aside (Shared.access f : StateM S α)

instance {N : Nat} : SharedApart (Site (Chain M) M N) M N where
  access _ _ _ := rfl

instance {N : Nat} [Shared S M N] [Inhabited M] [SharedApart S M N] : Apart S M where
  count := SharedApart.access _
  capacity _ _ := rfl
  module? _ := SharedApart.access _
  modify _ _ := SharedApart.access _
  countChanged _ := SharedApart.access _
  mustWrite _ _ := SharedApart.access _
  reported _ _ _ := SharedApart.access _

/-- Taking note of the length of the chain is done aside. -/
theorem aside_noteCount [Replica S M] [Apart S M] (count : Nat) :
  Aside (noteCount count : StateM S Unit)
  := by
  intro c s
  unfold noteCount
  have counted : (Replica.count : StateM S Nat) (OnChain.line.set c s) = _ := Apart.count c s
  simp only [counted, Apart.capacity]
  by_cases differs : (Replica.count s).1 ≠ min count (Replica.capacity (Replica.count s).2)
  · rw [if_pos differs, if_pos differs]
    exact Apart.countChanged (S := S) count c _
  · rw [if_neg differs, if_neg differs]

/-- The length of the chain may be noted before or after the line has changed. -/
theorem Session.noted_withLine [Replica S M] [Apart S M] (σ : Session S) (c : Chain M)
    (count : Nat) :
  (σ.withLine c).noted count = (σ.noted count).withLine c
  := by
  have same := congrArg (fun r => Session.mk r.2 count)
    (aside_noteCount (S := S) count c σ.env)
  apply same

end DaisyChain.Gateway
