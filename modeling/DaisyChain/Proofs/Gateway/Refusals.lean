import DaisyChain.Gateway.Collection
import DaisyChain.Proofs.Gateway.Openings
import DaisyChain.Proofs.Gateway.Ports
import DaisyChain.SplitFlap.Properties

/-!
# What is sent for a refused transaction

The gateway sends nothing for a transaction that it refuses beforehand, and does not touch the line at
all; for every other one it sends the header (`sent_of_act`).  Beforehand it looks at the table and at
the number of nodes only.  Whether there is a module, and whether its value fits into a frame, it finds
out when the header has been sent, and so the nodes wait for a value that never comes
(`broadcast_without_modules`).
-/

namespace DaisyChain.Gateway

variable {S W P M α : Type}

/-! ### Refusals and headers -/

section Requests

variable [Replica S M]

/-- As many nodes as are known of, each for itself. -/
def Session.everyNode (σ : Session S) : Recipients :=
  .each (max (Replica.count (M := M) σ.env).1 σ.chainLength)

namespace Transaction

/-- The failure with which a transaction is refused that the gateway cannot make. -/
def refusal? (g : Gateway M) (σ : Session S) : Transaction α → Option Failure
  | .read property => g.readRefusal? property
  | .write property recipients _ => g.writeRefusal? property recipients
  | .writeMarked property => g.writeRefusal? property σ.everyNode
  | .records | .acknowledge | .commit => none

/-- What the gateway sends first for a transaction. -/
def header (σ : Session S) : Transaction α → List UInt8
  | .read property => opening .read false property 0
  | .write property recipients staged => writeOpening property staged recipients
  | .writeMarked property => writeOpening property false σ.everyNode
  | .records => opening .read false .errorQuery 0
  | .acknowledge => [SyncHeader.pack ⟨.ack, .empty⟩]
  | .commit => [SyncHeader.pack ⟨.commit, .empty⟩]

end Transaction

end Requests

/-! ### What has been sent -/

variable [Outside W] {σ : Session (Desk (Port W) P)}

/-- All that has been sent over the line of a desk. -/
def Session.sent (σ : Session (Desk (Port W) P)) : List (List UInt8) :=
  σ.env.line.sent

/-- The act sends nothing, and fails at most because the line fails. -/
def Act.Silent (a : Act (Desk (Port W) P) Unit) : Prop :=
  ∀ σ, (a.run σ).2.sent = σ.sent ∧ ∀ failure, (a.run σ).1 = .error failure → failure = .transport

/-- To drop what has arrived sends nothing. -/
theorem silent_flush :
  (flush : Act (Desk (Port W) P) Unit).Silent
  := by
  intro σ
  rw [flush, run_onLine]
  refine ⟨rfl, fun failure failed => ?_⟩
  split at failed <;> cases failed
  rfl

/-- To wait until all has left sends nothing. -/
theorem silent_drain :
  (drain : Act (Desk (Port W) P) Unit).Silent
  := by
  intro σ
  rw [drain, run_onLine]
  refine ⟨rfl, fun failure failed => ?_⟩
  split at failed <;> cases failed
  rfl

omit [Outside W] in
/-- Acts in turn send nothing if neither of them does. -/
theorem Act.Silent.bind {a b : Act (Desk (Port W) P) Unit} (first : a.Silent) (second : b.Silent) :
  (a >>= fun _ => b).Silent
  := by
  intro σ
  obtain ⟨same, fails⟩ := first σ
  cases begun : a.run σ with
  | mk r τ =>
    rw [begun] at same fails
    cases r with
    | ok x =>
      rw [run_bind_ok begun]
      obtain ⟨same', fails'⟩ := second τ
      exact ⟨same'.trans same, fails'⟩
    | error failure =>
      rw [run_bind_error begun]
      refine ⟨same, fun failure' failed => ?_⟩
      cases failed
      apply fails failure rfl

variable [Replica P M]

/-- What has been sent stays sent. -/
theorem callsObey_sent :
  CallsObey (M := M) fun s s' : Desk (Port W) P => s.line.sent <+: s'.line.sent
  where
  refl s := List.prefix_refl _
  trans first second := first.trans second
  send _ s := List.prefix_append _ _
  receive count timeout s := by
    have same : (Transport.receive count timeout s.line).2.sent = s.line.sent := by
      simp only [Transport.receive]
      split <;> rfl
    change _ <+: (Transport.receive count timeout s.line).2.sent
    simp only [same, List.prefix_refl]
  flush s := List.prefix_refl _
  drain s := List.prefix_refl _
  pause _ s := List.prefix_refl _
  count s := List.prefix_refl _
  module? _ s := List.prefix_refl _
  modify _ _ s := List.prefix_refl _
  countChanged _ s := List.prefix_refl _
  mustWrite _ _ s := List.prefix_refl _
  reported _ _ _ s := List.prefix_refl _

/-- Unless the line fails before, an act that opens sends its header first. -/
theorem Act.Opens.sent {a : Act (Desk (Port W) P) α} {before : Act (Desk (Port W) P) Unit}
    {header : List UInt8} (opens : a.Opens before header) (silent : before.Silent)
    (σ : Session (Desk (Port W) P)) :
  ((a.run σ).1 = .error .transport ∧ (a.run σ).2.sent = σ.sent) ∨
    σ.sent ++ [header] <+: (a.run σ).2.sent
  := by
  obtain ⟨rest, rfl, obeys⟩ := opens
  obtain ⟨same, fails⟩ := silent σ
  cases begun : before.run σ with
  | mk r τ =>
    rw [begun] at same fails
    cases r with
    | error failure =>
      rw [run_bind_error begun, fails failure rfl]
      exact .inl ⟨rfl, same⟩
    | ok x =>
      right
      rw [run_bind_ok begun]
      have called : (send header : Act _ Unit).run τ = _ := run_onLine (Transport.send header) τ
      have noted : (τ.after (Transport.send header)).sent = σ.sent ++ [header] := by
        rw [← same]
        rfl
      rw [← noted]
      split at called
      · rw [run_bind_ok called]
        apply obeys _ callsObey_sent
      · simp only [run_bind_error called, List.prefix_refl]

/-- The gateway does not touch the line for a transaction that it refuses beforehand.  For every other
one it sends the header first, unless the line fails before. -/
theorem sent_of_act (g : Gateway M) (t : Transaction α) (σ : Session (Desk (Port W) P)) :
  match t.refusal? g σ with
  | some failure =>
    ((t.act g).run σ).1 = .error failure ∧ ((t.act g).run σ).2.env.line = σ.env.line
  | none =>
    (((t.act g).run σ).1 = .error .transport ∧ ((t.act g).run σ).2.sent = σ.sent) ∨
      σ.sent ++ [t.header σ] <+: ((t.act g).run σ).2.sent
  := by
  cases t with
  | read property =>
    rw [Transaction.refusal?, Transaction.act]
    cases refused : g.readRefusal? property with
    | some failure =>
      rw [readAll_of_refused g refused]
      exact ⟨rfl, rfl⟩
    | none => apply (opens_readAll g refused).sent silent_flush
  | write property recipients staged =>
    rw [Transaction.refusal?, Transaction.act]
    cases refused : g.writeRefusal? property recipients with
    | some failure =>
      rw [writeAll_of_refused g refused]
      exact ⟨rfl, rfl⟩
    | none => apply (opens_writeAll g refused staged).sent silent_flush
  | writeMarked property =>
    rw [Transaction.refusal?, Transaction.act, writeMarked_eq]
    cases refused : g.writeRefusal? property (σ.everyNode (M := M)) with
    | some failure =>
      rw [Session.everyNode] at refused
      rw [writeAll_of_refused g refused]
      exact ⟨rfl, rfl⟩
    | none => apply (opens_writeAll g refused false).sent silent_flush (σ.after Replica.count)
  | records => apply (opens_nodeErrors g).sent silent_flush
  | acknowledge => apply (opens_acknowledge g).sent (silent_flush.bind silent_drain)
  | commit => apply (opens_commit g).sent (silent_flush.bind silent_drain)

/-! ### Headers that nothing follows -/

/-- What is outside of a port from which nothing ever comes. -/
structure Silence

instance : Outside Silence where
  send _ w := ((true, []), w)
  receive _ _ w := ((true, []), w)
  flush w := (true, w)
  drain w := ((true, []), w)
  pause _ w := ([], w)

/-- The value of the first module is to be sent to all nodes, but there is no module.  The write fails,
and yet the header of a broadcast has been sent. -/
theorem broadcast_without_modules :
  let σ : Session (Desk (Port Silence) (Collection SplitFlap.Module 8)) := ⟨⟨⟨⟨⟩, [], []⟩, {}⟩, 0⟩
  let r := ((Transaction.write SplitFlap.offset.id .all false).act ⟨SplitFlap.table, {}⟩).run σ
  σ.env.replica.module? 0 = none ∧ r.1 = .error .invalidArgument ∧
    r.2.sent = [opening .broadcast false SplitFlap.offset.id 0]
  := ⟨rfl, rfl, rfl⟩

end DaisyChain.Gateway
