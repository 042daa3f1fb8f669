import DaisyChain.Gateway.Worker
import DaisyChain.Proofs.Gateway.Calls
import DaisyChain.Proofs.Gateway.Writing

/-!
# How transactions open

The gateway knows beforehand of some transactions that it cannot make them (`readRefusal?`,
`writeRefusal?`).  It refuses those at once, and does nothing (`readAll_of_refused`,
`writeAll_of_refused`).  Every other transaction opens in one way: the gateway drops what has arrived,
and sends a header (`Act.Opens`).

A relation that every call obeys is obeyed by all transactions, however they end
(`CallsObey.readAll`, `CallsObey.writeAll`, `CallsObey.writeMarked`), and by all operations
(`CallsObey.perform`).
-/

namespace DaisyChain.Gateway

variable {S M α β : Type}

/-- The outcome of something that may fail on the line. -/
theorem run_onLine (f : StateM S Bool) (σ : Session S) :
  (onLine f).run σ = (if (f σ.env).1 then .ok () else .error .transport, σ.after f)
  := by
  rw [onLine, run_bind_ok (run_within f)]
  cases (f σ.env).1 <;> rfl

variable [Transport S]

/-- What the gateway sends to open a transaction. -/
def opening (action : Action) (flag : Bool) (property : PropertyId) (count : Nat) : List UInt8 :=
  (ActionHeader.pack ⟨action, flag, ⟨UInt8.ofNat property.wire⟩, count % countModulus⟩).toList

variable [Replica S M] {R : S → S → Prop}

/-! ### Acts that open -/

/-- After what comes before, the act sends the given header.  What it does then is done by calls. -/
def Act.Opens (a : Act S α) (before : Act S Unit) (header : List UInt8) : Prop :=
  ∃ rest : Act S α, a = (before >>= fun _ => send header >>= fun _ => rest) ∧
    ∀ R : S → S → Prop, CallsObey (M := M) R → rest.Obeys R

namespace Act.Opens

variable {a : Act S α} {before : Act S Unit} {header : List UInt8}

/-- What begins with an act that opens opens. -/
theorem bind (opens : a.Opens before header) {f : α → Act S β}
    (obeys : ∀ R : S → S → Prop, CallsObey (M := M) R → ∀ x, (f x).Obeys R) :
  (a >>= f).Opens before header
  := by
  obtain ⟨rest, rfl, obey⟩ := opens
  refine ⟨rest >>= f, ?_, fun R calls => calls.bind (obey R calls) (obeys R calls)⟩
  simp only [bind_assoc]

/-- An act that opens obeys what all calls obey, if what comes before does. -/
theorem obeysFrom (opens : a.Opens before header) (calls : CallsObey (M := M) R)
    (first : before.Obeys R) :
  a.Obeys R
  := by
  obtain ⟨rest, rfl, obey⟩ := opens
  apply calls.bind first
  intro _
  apply calls.bind (calls.onLine (calls.send _))
  intro _
  apply obey R calls

/-- An act that opens obeys what all calls obey. -/
theorem obeys (opens : a.Opens flush header) (calls : CallsObey (M := M) R) :
  a.Obeys R
  := opens.obeysFrom calls (calls.onLine calls.flush)

end Act.Opens

/-- A read opens with its header. -/
theorem opens_openRead (g : Gateway M) (property : PropertyId) :
  (g.openRead property : Act S RawHeader).Opens flush (opening .read false property 0)
  := by
  refine ⟨_, rfl, fun R calls => ?_⟩
  apply calls.bind (calls.receiveHeader g)
  intro echo
  split
  · apply calls.pure
  · apply calls.throw

/-- To ask for records is to open a read. -/
theorem opens_nodeErrors (g : Gateway M) :
  (g.nodeErrors : Act S Categories).Opens flush (opening .read false .errorQuery 0)
  := by
  apply (opens_openRead g _).bind
  intro R calls echo
  apply calls.bind (calls.updateCount _)
  intro _
  apply calls.receiveRecords

/-- A sync header is sent once all that has been sent before has left. -/
theorem opens_sync (g : Gateway M) (kind : SyncKind) :
  (g.sync kind : Act S SyncHeader).Opens (flush >>= fun _ => drain)
    [SyncHeader.pack ⟨kind, .empty⟩]
  := by
  refine ⟨?_, ?_, fun R calls => ?_⟩
  rotate_left
  · simp only [bind_assoc]
    rfl
  · apply calls.bind (calls.receiveByte g)
    intro byte
    split
    · apply calls.throw
    · split
      · apply calls.pure
      · apply calls.throw

/-- To collect categories is to send a sync header. -/
theorem opens_acknowledge (g : Gateway M) :
  (g.acknowledge : Act S Categories).Opens (flush >>= fun _ => drain)
    [SyncHeader.pack ⟨.ack, .empty⟩]
  := by
  apply (opens_sync g .ack).bind
  intro R calls echo
  apply calls.pure

/-- To make the nodes apply what they hold back is to send a sync header. -/
theorem opens_commit (g : Gateway M) :
  (g.commit : Act S Unit).Opens (flush >>= fun _ => drain) [SyncHeader.pack ⟨.commit, .empty⟩]
  := by
  apply (opens_sync g .commit).bind
  intro R calls echo
  split
  · apply calls.pure
  · apply calls.throw

namespace CallsObey

variable (calls : CallsObey (M := M) R) (g : Gateway M)

include calls

omit g in
/-- An act that opens once all that has been sent has left obeys what all calls obey. -/
theorem afterDrain {a : Act S α} {header : List UInt8}
    (opens : a.Opens (Gateway.flush >>= fun _ => Gateway.drain) header) :
  a.Obeys R
  := by
  apply opens.obeysFrom calls
  apply calls.bind (calls.onLine calls.flush)
  intro _
  apply calls.onLine calls.drain

theorem confirm :
  (g.confirm : Act S Unit).Obeys R
  := by
  apply calls.bind (calls.afterDrain (opens_acknowledge g))
  intro categories
  split
  · apply calls.pure
  · apply calls.bind ((opens_nodeErrors g).obeys calls)
    intro _
    apply calls.throw

theorem conclude (flag : Bool) (trouble : Trouble) :
  (g.conclude flag trouble : Act S Unit).Obeys R
  := by
  rw [Gateway.conclude]
  split
  · apply calls.bind ((opens_nodeErrors g).obeys calls)
    intro _
    split
    · apply calls.throwFirst
    · split
      · apply calls.throw
      · apply calls.pure
  · split
    · apply calls.throw
    · apply calls.pure

end CallsObey

/-! ### Reads -/

/-- The failure with which a read is refused that the gateway cannot make. -/
def readRefusal? (g : Gateway M) (property : PropertyId) : Option Failure :=
  if property.isErrorQuery then some .invalidArgument
  else if (g.table.find? property).any fun d => d.access.readable && d.set.isSome then none
  else some .notSupported

/-- A read that is refused does nothing. -/
theorem readAll_of_refused (g : Gateway M) {property : PropertyId} {failure : Failure}
    (refused : g.readRefusal? property = some failure) :
  (g.readAll property : Act S Unit) = throw failure
  := by
  rw [readRefusal?] at refused
  rw [readAll]
  split at refused
  · next query =>
    cases refused
    rw [query]
    rfl
  · next real =>
    split at refused
    · cases refused
    · next impossible =>
      cases refused
      rw [if_neg real]
      cases found : g.table.find? property with
      | none => rfl
      | some d =>
        rw [found, Option.any_some, Bool.and_eq_true, not_and_or] at impossible
        refine if_pos ?_
        simpa using impossible

/-- A read that is not refused is of a real property that the gateway can put into its modules. -/
theorem exists_readable (g : Gateway M) {property : PropertyId}
    (possible : g.readRefusal? property = none) :
  property.isErrorQuery = false ∧ ∃ d, g.table.find? property = some d ∧
    d.access.readable = true ∧ d.set.isSome
  := by
  rw [readRefusal?] at possible
  split at possible
  · cases possible
  · next real =>
    split at possible
    · next supported =>
      rw [Option.any_eq_true] at supported
      obtain ⟨d, found, both⟩ := supported
      rw [Bool.and_eq_true] at both
      exact ⟨Bool.eq_false_iff.mpr real, d, found, both⟩
    · cases possible

/-- A read that is not refused opens with its header. -/
theorem opens_readAll (g : Gateway M) {property : PropertyId}
    (possible : g.readRefusal? property = none) :
  (g.readAll property : Act S Unit).Opens flush (opening .read false property 0)
  := by
  obtain ⟨real, d, found, readable, settable⟩ := exists_readable g possible
  rw [readAll_eq g real found readable settable]
  apply (opens_openRead g _).bind
  intro R calls echo
  apply calls.bind (calls.updateCount _)
  intro _
  apply calls.bind (calls.receiveValues g d _ _ _)
  intro trouble
  apply calls.conclude

/-- A read obeys what all calls obey. -/
theorem CallsObey.readAll (calls : CallsObey (M := M) R) (g : Gateway M) (property : PropertyId) :
  (g.readAll property : Act S Unit).Obeys R
  := by
  cases refused : g.readRefusal? property with
  | some failure =>
    rw [readAll_of_refused g refused]
    apply calls.throw
  | none => apply (opens_readAll g refused).obeys calls

/-! ### Writes -/

/-- The failure with which a write is refused that the gateway cannot make. -/
def writeRefusal? (g : Gateway M) (property : PropertyId) (recipients : Recipients) :
    Option Failure :=
  if (g.table.find? property).any fun d => d.access.writable && d.get.isSome then
    if recipients = .each 0 then some .invalidArgument else none
  else some .notSupported

/-- What the gateway sends to open a write. -/
def writeOpening (property : PropertyId) (staged : Bool) : Recipients → List UInt8
  | .each count => opening .write staged property count
  | .all => opening .broadcast staged property 0

/-- A write that is refused does nothing. -/
theorem writeAll_of_refused (g : Gateway M) {property : PropertyId} {recipients : Recipients}
    {failure : Failure} (refused : g.writeRefusal? property recipients = some failure)
    (staged : Bool) :
  (g.writeAll property recipients staged : Act S Unit) = throw failure
  := by
  rw [writeRefusal?] at refused
  split at refused
  · next supported =>
    split at refused
    · next nobody =>
      cases refused
      rw [Option.any_eq_true] at supported
      obtain ⟨d, found, both⟩ := supported
      rw [Bool.and_eq_true] at both
      rw [writeAll_eq g found both.1 both.2, nobody]
      rfl
    · cases refused
  · next impossible =>
    cases refused
    rw [writeAll]
    cases found : g.table.find? property with
    | none => rfl
    | some d =>
      rw [found, Option.any_some, Bool.and_eq_true, not_and_or] at impossible
      refine if_pos ?_
      simpa using impossible

/-- A write that is not refused is of a property that the gateway can take from its modules, to some
node. -/
theorem exists_writable (g : Gateway M) {property : PropertyId} {recipients : Recipients}
    (possible : g.writeRefusal? property recipients = none) :
  recipients ≠ .each 0 ∧ ∃ d, g.table.find? property = some d ∧ d.access.writable = true ∧
    d.get.isSome
  := by
  rw [writeRefusal?] at possible
  split at possible
  · next supported =>
    split at possible
    · cases possible
    · next somebody =>
      rw [Option.any_eq_true] at supported
      obtain ⟨d, found, both⟩ := supported
      rw [Bool.and_eq_true] at both
      exact ⟨somebody, d, found, both⟩
  · cases possible

/-- A write that is not refused opens with its header. -/
theorem opens_writeAll (g : Gateway M) {property : PropertyId} {recipients : Recipients}
    (possible : g.writeRefusal? property recipients = none) (staged : Bool) :
  (g.writeAll property recipients staged : Act S Unit).Opens flush
    (writeOpening property staged recipients)
  := by
  obtain ⟨somebody, d, found, writable, gettable⟩ := exists_writable g possible
  rw [writeAll_eq g found writable gettable]
  cases recipients with
  | all =>
    refine ⟨_, rfl, fun R calls => ?_⟩
    apply calls.bind (calls.valueFrame d 0)
    intro frame
    apply calls.bind (calls.onLine (calls.send _))
    intro _
    apply calls.bind (calls.receiveEcho g _ _ _)
    intro echo
    apply calls.bind (calls.updateCount _)
    intro _
    apply calls.bind (calls.receiveBytes g _)
    intro back
    split
    · apply calls.throwFirst
    · apply calls.confirm g
  | each count =>
    have positive : count ≠ 0 := fun none => somebody (congrArg Recipients.each none)
    dsimp only
    rw [writeEach, if_neg positive]
    refine ⟨_, rfl, fun R calls => ?_⟩
    apply calls.bind (calls.sendValues d _ _)
    intro _
    apply calls.bind (calls.receiveEcho g _ _ _)
    intro echo
    split
    · apply calls.bind (calls.updateCount _) fun _ => calls.confirm g
    · apply calls.confirm g

/-- A write obeys what all calls obey. -/
theorem CallsObey.writeAll (calls : CallsObey (M := M) R) (g : Gateway M) (property : PropertyId)
    (recipients : Recipients) (staged : Bool) :
  (g.writeAll property recipients staged : Act S Unit).Obeys R
  := by
  cases refused : g.writeRefusal? property recipients with
  | some failure =>
    rw [writeAll_of_refused g refused]
    apply calls.throw
  | none => apply (opens_writeAll g refused staged).obeys calls

/-- Single nodes are written to by a write to as many nodes as are known of. -/
theorem writeMarked_eq (g : Gateway M) (property : PropertyId) (σ : Session S) :
  (g.writeMarked property : Act S Unit).run σ =
    (g.writeAll property (.each (max (Replica.count (M := M) σ.env).1 σ.chainLength)) false :
      Act S Unit).run (σ.after (Replica.count (M := M)))
  := by
  rw [writeMarked, run_bind_ok (run_within _)]
  rfl

/-- A write to the nodes that wait for one obeys what all calls obey. -/
theorem CallsObey.writeMarked (calls : CallsObey (M := M) R) (g : Gateway M)
    (property : PropertyId) :
  (g.writeMarked property : Act S Unit).Obeys R
  := by
  intro σ
  rw [writeMarked_eq]
  apply calls.trans (calls.count σ.env)
    (calls.writeAll g property _ false (σ.after Replica.count))

/-! ### Operations -/

section Operations

variable {N : Nat} {S : Type} {R : S → S → Prop} [Transport S] [Shared S M N] [Inhabited M] (calls : CallsObey (M := M) R)

include calls

/-- A broadcast obeys what all calls obey, however often it is repeated. -/
theorem CallsObey.broadcastAgain (g : Gateway M) (property : PropertyId) (retries : Nat) :
  (g.broadcastAgain property retries : Act S Unit).Obeys R
  := by
  induction retries with
  | zero => apply calls.writeAll
  | succ retries ih =>
    rw [Gateway.broadcastAgain]
    apply calls.tryCatch (calls.writeAll g _ _ _)
    intro failure
    split
    · apply calls.bind (CallsObey.within (calls.pause _)) fun _ => ih
    · apply calls.throw

/-- An operation obeys what all calls calls. -/
theorem CallsObey.perform (g : Gateway M) (property : PropertyId) (operation : Operation)
    (count : Nat) (σ : Session S) :
  R σ.env (g.perform property operation count σ).2.env
  := by
  cases operation with
  | readAll => apply calls.readAll g property σ
  | broadcast =>
    rw [Gateway.perform]
    split
    · apply calls.refl
    · apply calls.broadcastAgain g property g.settings.retries σ
  | writeMarked =>
    rw [Gateway.perform]
    split
    · apply calls.refl
    · apply calls.writeMarked g property σ

end Operations


end DaisyChain.Gateway
