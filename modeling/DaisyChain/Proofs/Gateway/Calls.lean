import DaisyChain.Proofs.Gateway.Reading

/-!
# Acts and their calls

All that the gateway does to the state that it works with, it does by calls to the line and to the
replica.  So a relation that every call obeys (`CallsObey`) is obeyed by every act, however it ends and
whatever comes back (`Act.Obeys`).  Here it is told for the parts that transactions are made of.
-/

namespace DaisyChain.Gateway

variable {S M α β : Type} {R : S → S → Prop}

/-- However the act ends, the state that it leaves is related to the one that it found. -/
def Act.Obeys (R : S → S → Prop) (a : Act S α) : Prop :=
  ∀ σ : Session S, R σ.env (a.run σ).2.env

/-- However a call ends, the state that it leaves is related to the one that it found; so are states
that are the same, or related by way of a third one. -/
structure CallsObey [Transport S] [Replica S M] (R : S → S → Prop) : Prop where
  refl : ∀ s, R s s
  trans : ∀ {s s' s''}, R s s' → R s' s'' → R s s''
  send : ∀ bytes s, R s (Transport.send bytes s).2
  receive : ∀ count timeout s, R s (Transport.receive count timeout s).2
  flush : ∀ s, R s (Transport.flush s).2
  drain : ∀ s, R s (Transport.drain s).2
  pause : ∀ ms s, R s (Transport.pause ms s).2
  count : ∀ s, R s (Replica.count (M := M) s).2
  module? : ∀ index s, R s (Replica.module? (M := M) index s).2
  modify : ∀ {α : Type} index (f : M → α × M) s, R s (Replica.modify index f s).2
  countChanged : ∀ count s, R s (Replica.countChanged (M := M) count s).2
  mustWrite : ∀ index property s, R s (Replica.mustWrite (M := M) index property s).2
  reported : ∀ index fault state s, R s (Replica.reported (M := M) index fault state s).2

namespace CallsObey

variable [Transport S] [Replica S M] (obey : CallsObey (M := M) R)

include obey

/-! ### Parts of acts -/

theorem pure (x : α) :
  (Pure.pure x : Act S α).Obeys R
  := fun σ => obey.refl σ.env

theorem throw (failure : Failure) :
  (MonadExcept.throw failure : Act S α).Obeys R
  := fun σ => obey.refl σ.env

/-- Nothing is done after a failure. -/
theorem throwFirst (failure : Failure) (k : α → Act S β) :
  (MonadExcept.throw failure >>= k : Act S β).Obeys R
  := fun σ => obey.refl σ.env

/-- Acts in turn obey if each of them does. -/
theorem bind {a : Act S α} {f : α → Act S β} (first : a.Obeys R) (second : ∀ x, (f x).Obeys R) :
  (a >>= f).Obeys R
  := by
  intro σ
  cases begun : a.run σ with
  | mk r τ =>
    have step : R σ.env τ.env := by
      rw [show τ = (a.run σ).2 by rw [begun]]
      apply first
    cases r with
    | ok x =>
      rw [run_bind_ok begun]
      apply obey.trans step (second x τ)
    | error failure =>
      rw [run_bind_error begun]
      apply step

/-- What is done after a failure obeys, too. -/
theorem tryCatch {a : Act S α} {handle : Failure → Act S α} (first : a.Obeys R)
    (second : ∀ failure, (handle failure).Obeys R) :
  (MonadExcept.tryCatch a handle).Obeys R
  := by
  intro σ
  cases begun : a.run σ with
  | mk r τ =>
    have step : R σ.env τ.env := by
      rw [show τ = (a.run σ).2 by rw [begun]]
      apply first
    cases r with
    | ok x =>
      rw [run_tryCatch_ok begun]
      apply step
    | error failure =>
      rw [run_tryCatch_error begun]
      apply obey.trans step (second failure τ)

omit [Transport S] [Replica S M] obey in
theorem within {f : StateM S α} (step : ∀ s, R s (f s).2) :
  (Gateway.within f).Obeys R
  := fun σ => step σ.env

theorem check {ε : Type} (cause : ε → Failure) (result : Except ε α) :
  (Gateway.check cause result : Act S α).Obeys R
  := by
  cases result with
  | ok x => apply obey.pure
  | error e => apply obey.throw

theorem onLine {f : StateM S Bool} (step : ∀ s, R s (f s).2) :
  (Gateway.onLine f).Obeys R
  := by
  apply obey.bind (within step)
  intro fine
  cases fine
  · apply obey.throw
  · apply obey.pure

/-! ### Bytes, headers and frames -/

variable (g : Gateway M)

theorem receiveBytes (count : Nat) :
  (g.receive count : Act S (List UInt8)).Obeys R
  := by
  apply obey.bind (within (obey.receive _ _))
  intro answer
  cases answer with
  | none => apply obey.throw
  | some bytes =>
    dsimp only
    split
    · apply obey.throw
    · apply obey.pure

theorem receiveByte :
  (g.receiveByte : Act S UInt8).Obeys R
  := by
  apply obey.bind (obey.receiveBytes g 1)
  intro bytes
  split
  · apply obey.pure
  · apply obey.throw

theorem receiveHeader :
  (g.receiveHeader : Act S RawHeader).Obeys R
  := by
  apply obey.bind (obey.receiveBytes g _)
  intro bytes
  split
  · dsimp only
    split
    · apply obey.pure
    · apply obey.throw
  · apply obey.throw

theorem receiveRest (collector : Frame.Collector) :
  (g.receiveRest collector : Act S Frame).Obeys R
  := by
  rw [Gateway.receiveRest]
  apply obey.bind (obey.receiveByte g)
  intro byte
  split
  · next collector' fed =>
    have := Frame.Collector.room_feed_lt fed
    apply receiveRest collector'
  · apply obey.check
  · apply obey.throw
termination_by collector.room

theorem updateCount (count : Nat) :
  (Gateway.updateCount count : Act S Unit).Obeys R
  := by
  intro σ
  rw [run_updateCount, Session.noted, noteCount]
  dsimp only
  split
  · apply obey.trans (obey.count σ.env) (obey.countChanged _ _)
  · apply obey.count

/-! ### Records and values -/

theorem receiveRecords (count index : Nat) (categories : Categories) :
  (g.receiveRecords count index categories : Act S Categories).Obeys R
  := by
  induction count generalizing index categories with
  | zero => apply obey.pure
  | succ count ih =>
    rw [Gateway.receiveRecords]
    apply obey.bind (obey.receiveRest g _)
    intro frame
    split
    · apply obey.bind (within (obey.reported _ _ _))
      intro _
      apply ih
    · apply ih

theorem receiveValues (d : Definition M) (count index : Nat) (trouble : Trouble) :
  (g.receiveValues d count index trouble : Act S Trouble).Obeys R
  := by
  induction count generalizing index trouble with
  | zero => apply obey.pure
  | succ count ih =>
    rw [Gateway.receiveValues]
    apply obey.bind (obey.receiveRest g _)
    intro frame
    cases frame with
    | placeholder => apply obey.throw
    | empty => apply ih
    | data data =>
      apply obey.bind (within (obey.modify _ _))
      intro answer
      rcases answer with _ | ⟨_ | _⟩ <;> apply ih

theorem valueFrame (d : Definition M) (index : Nat) :
  (Gateway.valueFrame d index : Act S (List UInt8)).Obeys R
  := by
  apply obey.bind (within (obey.module? _))
  intro answer
  cases answer with
  | none => apply obey.throw
  | some m =>
    apply obey.bind (obey.check _ _)
    intro data
    apply obey.check

theorem sendValues (d : Definition M) (property : PropertyId) (count : Nat) :
  (Gateway.sendValues d property count : Act S Unit).Obeys R
  := by
  induction count with
  | zero => apply obey.pure
  | succ index ih =>
    have rest (frame : List UInt8) :
        (Gateway.send frame >>= fun _ => Gateway.sendValues d property index : Act S Unit).Obeys R :=
      obey.bind (obey.onLine (obey.send _)) fun _ => ih
    apply obey.bind (within (obey.mustWrite _ _))
    intro marked
    split
    · apply obey.bind (obey.valueFrame d _) rest
    · apply obey.bind (obey.check _ _) rest

theorem receiveEcho (action : Action) (property : PropertyId) (staged : Bool) :
  (g.receiveEcho action property staged : Act S RawHeader).Obeys R
  := by
  apply obey.bind (obey.receiveHeader g)
  intro echo
  split
  · apply obey.pure
  · apply obey.throw

end CallsObey

end DaisyChain.Gateway
