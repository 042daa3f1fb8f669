import DaisyChain.Gateway.Collection
import DaisyChain.Proofs.Gateway.Openings
import DaisyChain.Proofs.Gateway.Ports
import DaisyChain.SplitFlap.Properties

/-!
# Stale input

Two sessions are alike if nothing of what the gateway has done or knows tells them apart, but other
bytes may wait in their ports, and other bytes may come from outside until the gateway sends something
(`Alike`).  Every transaction ends alike in both of them (`stale_input_unseen`): it drops what waits,
and sends, before it receives anything.  An acknowledge and a commit let time pass in between, until
what had been sent before has left; what arrives by then is not dropped any more, and must be the same.
-/

namespace DaisyChain.Gateway

variable {W P M α β : Type}

/-! ### Sessions that are alike -/

/-- Calls to related outsides succeed alike, whatever arrives in the meantime, and nothing tells them
apart once something has been sent. -/
structure Outside.Converges [Outside W] (R : W → W → Prop) : Prop where
  flush : ∀ {w w'}, R w w' →
    (Outside.flush w).1 = (Outside.flush w').1 ∧ R (Outside.flush w).2 (Outside.flush w').2
  drain : ∀ {w w'}, R w w' →
    (Outside.drain w).1.1 = (Outside.drain w').1.1 ∧ R (Outside.drain w).2 (Outside.drain w').2
  send : ∀ bytes {w w'}, R w w' → Outside.send bytes w = Outside.send bytes w'

/-- What the gateway has sent, its replica, and what it knows of its chain. -/
def Session.seen (σ : Session (Desk (Port W) P)) : List (List UInt8) × P × Nat :=
  (σ.env.line.sent, σ.env.replica, σ.chainLength)

/-- Nothing tells the sessions apart but what waits in the port, and what is outside. -/
structure Alike (R : W → W → Prop) (σ τ : Session (Desk (Port W) P)) : Prop where
  outside : R σ.env.line.outside τ.env.line.outside
  seen : σ.seen = τ.seen

/-- The act ends alike in sessions that are alike, and nothing tells them apart if it succeeds. -/
def Act.Oblivious (R : W → W → Prop) (a : Act (Desk (Port W) P) α) : Prop :=
  ∀ σ τ : Session (Desk (Port W) P), Alike R σ τ →
    (a.run σ).1 = (a.run τ).1 ∧ (a.run σ).2.seen = (a.run τ).2.seen ∧
      ∀ x, (a.run σ).1 = .ok x → (a.run σ).2 = (a.run τ).2

variable {R : W → W → Prop} {σ τ : Session (Desk (Port W) P)}

namespace Act.Oblivious

/-- To fail at once is to end alike. -/
theorem throw (failure : Failure) :
  Act.Oblivious R (MonadExcept.throw failure : Act (Desk (Port W) P) α)
  := by
  intro σ τ alike
  refine ⟨rfl, alike.seen, ?_⟩
  intro x fails
  cases fails

/-- What follows an act that ends alike ends alike. -/
theorem bind {a : Act (Desk (Port W) P) α} (first : a.Oblivious R)
    (f : α → Act (Desk (Port W) P) β) :
  (a >>= f).Oblivious R
  := by
  intro σ τ alike
  obtain ⟨same, seen, equal⟩ := first σ τ alike
  cases begun : a.run σ with
  | mk r σ' =>
    cases begun' : a.run τ with
    | mk r' τ' =>
      simp only [begun, begun'] at same seen equal
      subst same
      cases r with
      | ok x =>
        cases equal x rfl
        rw [run_bind_ok begun, run_bind_ok begun']
        exact ⟨rfl, rfl, fun _ _ => rfl⟩
      | error failure =>
        rw [run_bind_error begun, run_bind_error begun']
        refine ⟨rfl, seen, ?_⟩
        intro x fails
        cases fails

end Act.Oblivious

/-! ### Opening a transaction -/

variable [Outside W]

/-- Dropping what waits leaves sessions alike; nothing waits any more if it succeeds. -/
theorem Alike.flush (converges : Outside.Converges R) (alike : Alike R σ τ) :
  ∃ r σ' τ', (flush : Act _ Unit).run σ = (r, σ') ∧ (flush : Act _ Unit).run τ = (r, τ') ∧
    Alike R σ' τ' ∧ (r = .ok () → σ'.env.line.waiting = [] ∧ τ'.env.line.waiting = [])
  := by
  obtain ⟨fine, outside⟩ := converges.flush alike.outside
  have same : (Transport.flush σ.env).1 = (Transport.flush τ.env).1 := fine
  have run := run_onLine Transport.flush τ
  rw [← same] at run
  refine ⟨_, _, _, run_onLine Transport.flush σ, run, ⟨outside, alike.seen⟩, ?_⟩
  intro ok
  cases dropped : (Outside.flush σ.env.line.outside).1 with
  | false =>
    rw [show (Transport.flush σ.env).1 = false from dropped] at ok
    cases ok
  | true =>
    constructor
    · apply if_pos dropped
    · apply if_pos (fine.symm.trans dropped)

/-- Waiting until all has left leaves sessions alike, with the same bytes waiting if the same bytes
waited before and the same bytes arrive. -/
theorem Alike.drain (converges : Outside.Converges R) (alike : Alike R σ τ)
    (waiting : σ.env.line.waiting = τ.env.line.waiting)
    (arrived : (Outside.drain σ.env.line.outside).1.2 = (Outside.drain τ.env.line.outside).1.2) :
  ∃ r σ' τ', (drain : Act _ Unit).run σ = (r, σ') ∧ (drain : Act _ Unit).run τ = (r, τ') ∧
    Alike R σ' τ' ∧ σ'.env.line.waiting = τ'.env.line.waiting
  := by
  obtain ⟨fine, outside⟩ := converges.drain alike.outside
  have same : (Transport.drain σ.env).1 = (Transport.drain τ.env).1 := fine
  have run := run_onLine Transport.drain τ
  rw [← same] at run
  refine ⟨_, _, _, run_onLine Transport.drain σ, run, ⟨outside, alike.seen⟩, ?_⟩
  change σ.env.line.waiting ++ (Outside.drain σ.env.line.outside).1.2 =
    τ.env.line.waiting ++ (Outside.drain τ.env.line.outside).1.2
  rw [waiting, arrived]

/-- Once something has been sent, nothing tells sessions apart in which the same bytes waited. -/
theorem Alike.send (converges : Outside.Converges R) (alike : Alike R σ τ)
    (waiting : σ.env.line.waiting = τ.env.line.waiting) (bytes : List UInt8) :
  (send bytes : Act _ Unit).run σ = (send bytes : Act _ Unit).run τ
  := by
  have outside := converges.send bytes alike.outside
  have seen := alike.seen
  obtain ⟨⟨⟨w, waits, sent⟩, replica⟩, length⟩ := σ
  obtain ⟨⟨⟨w', waits', sent'⟩, replica'⟩, length'⟩ := τ
  simp only [Session.seen, Prod.mk.injEq] at seen waiting outside
  obtain ⟨rfl, rfl, rfl⟩ := seen
  subst waiting
  have same : Transport.send bytes (⟨⟨w, waits, sent⟩, replica⟩ : Desk (Port W) P) =
      Transport.send bytes (⟨⟨w', waits, sent⟩, replica⟩ : Desk (Port W) P) := by
    change Part.run _ _ _ = Part.run _ _ _
    simp only [Part.run, Transport.send, Port.pass, outside]
  rw [Gateway.send, run_onLine, run_onLine, Session.after, Session.after, same]

/-- What drops what waits, and then goes on, ends alike if that does where nothing waits. -/
theorem Act.Oblivious.after_flush (converges : Outside.Converges R) {a : Act (Desk (Port W) P) α}
    (goes : ∀ σ τ : Session (Desk (Port W) P), Alike R σ τ → σ.env.line.waiting = [] →
      τ.env.line.waiting = [] →
        (a.run σ).1 = (a.run τ).1 ∧ (a.run σ).2.seen = (a.run τ).2.seen ∧
          ∀ x, (a.run σ).1 = .ok x → (a.run σ).2 = (a.run τ).2) :
  Act.Oblivious R (Gateway.flush >>= fun _ => a)
  := by
  intro σ τ alike
  obtain ⟨r, σ', τ', flushed, flushed', further, silent⟩ := alike.flush converges
  cases r with
  | error failure =>
    rw [run_bind_error flushed, run_bind_error flushed']
    exact ⟨rfl, further.seen, fun _ fails => by cases fails⟩
  | ok x =>
    obtain ⟨none, none'⟩ := silent rfl
    rw [run_bind_ok flushed, run_bind_ok flushed']
    exact goes σ' τ' further none none'

/-- What drops what waits, and then sends something, ends alike. -/
theorem Act.Opens.oblivious [Replica P M] {a : Act (Desk (Port W) P) α} {header : List UInt8}
    (opens : a.Opens flush header) (converges : Outside.Converges R) :
  a.Oblivious R
  := by
  obtain ⟨rest, rfl, -⟩ := opens
  rw [← bind_assoc]
  refine Act.Oblivious.bind (.after_flush converges fun σ τ alike none none' => ?_) _
  rw [alike.send converges (none.trans none'.symm) header]
  exact ⟨rfl, rfl, fun _ _ => rfl⟩

/-- What comes until all that has been sent before has left is the same. -/
def Outside.Punctual (R : W → W → Prop) : Prop :=
  ∀ w w', R w w' → (Outside.drain w).1.2 = (Outside.drain w').1.2

/-- What drops what waits, and sends something once all that has been sent before has left, ends alike
if the same bytes come until then. -/
theorem Act.Opens.oblivious_of_punctual [Replica P M] {a : Act (Desk (Port W) P) α}
    {header : List UInt8} (opens : a.Opens (Gateway.flush >>= fun _ => Gateway.drain) header)
    (converges : Outside.Converges R) (punctual : Outside.Punctual R) :
  a.Oblivious R
  := by
  obtain ⟨rest, rfl, -⟩ := opens
  rw [← bind_assoc, bind_assoc Gateway.flush]
  refine Act.Oblivious.bind (.after_flush converges fun σ τ alike none none' => ?_) _
  obtain ⟨r, σ', τ', drained, drained', later, waiting⟩ :=
    alike.drain converges (none.trans none'.symm) (punctual _ _ alike.outside)
  cases r with
  | error failure =>
    rw [run_bind_error drained, run_bind_error drained']
    exact ⟨rfl, later.seen, fun _ fails => by cases fails⟩
  | ok x =>
    rw [run_bind_ok drained, run_bind_ok drained', later.send converges waiting]
    exact ⟨rfl, rfl, fun _ _ => rfl⟩

/-! ### Transactions -/

/-- The transaction consists of a sync header alone, before which the gateway waits until all that has
been sent before has left. -/
def Transaction.Syncs : Transaction α → Prop
  | .acknowledge | .commit => True
  | .read _ | .write .. | .writeMarked _ | .records => False

variable [Replica P M]

/-- A write ends alike. -/
theorem oblivious_writeAll (g : Gateway M) (property : PropertyId) (recipients : Recipients)
    (staged : Bool) (converges : Outside.Converges R) :
  (g.writeAll property recipients staged : Act (Desk (Port W) P) Unit).Oblivious R
  := by
  cases refused : g.writeRefusal? property recipients with
  | some failure =>
    rw [writeAll_of_refused g refused]
    apply Act.Oblivious.throw
  | none => apply (opens_writeAll g refused staged).oblivious converges

/-- Nothing of what came before a transaction sends something shows in its result, in the replica, in
what is known of the chain or in what is sent.  For an acknowledge and a commit, what comes until all
that had been sent before has left must be the same. -/
theorem stale_input_unseen (g : Gateway M) (converges : Outside.Converges R) (t : Transaction α)
    (punctual : t.Syncs → Outside.Punctual R) (alike : Alike R σ τ) :
  ((t.act g).run σ).1 = ((t.act g).run τ).1 ∧ ((t.act g).run σ).2.seen = ((t.act g).run τ).2.seen
  := by
  have of_oblivious {a : Act (Desk (Port W) P) α} (oblivious : a.Oblivious R)
      {σ τ : Session (Desk (Port W) P)} (alike : Alike R σ τ) :
      (a.run σ).1 = (a.run τ).1 ∧ (a.run σ).2.seen = (a.run τ).2.seen := by
    obtain ⟨same, seen, -⟩ := oblivious σ τ alike
    exact ⟨same, seen⟩
  cases t with
  | read property =>
    apply of_oblivious _ alike
    rw [Transaction.act]
    cases refused : g.readRefusal? property with
    | some failure =>
      rw [readAll_of_refused g refused]
      apply Act.Oblivious.throw
    | none => apply (opens_readAll g refused).oblivious converges
  | write property recipients staged =>
    apply of_oblivious (oblivious_writeAll g property recipients staged converges) alike
  | writeMarked property =>
    obtain ⟨sent, replica, length⟩ : σ.env.line.sent = τ.env.line.sent ∧
        σ.env.replica = τ.env.replica ∧ σ.chainLength = τ.chainLength := by
      simpa only [Session.seen, Prod.mk.injEq] using alike.seen
    have count : (Replica.count (M := M) σ.env).1 = (Replica.count (M := M) τ.env).1 := by
      change (Replica.count σ.env.replica).1 = (Replica.count τ.env.replica).1
      rw [replica]
    have counted : Alike R (σ.after (Replica.count (M := M))) (τ.after (Replica.count (M := M))) := by
      refine ⟨alike.outside, ?_⟩
      change (σ.env.line.sent, (Replica.count (M := M) σ.env.replica).2, σ.chainLength) =
        (τ.env.line.sent, (Replica.count (M := M) τ.env.replica).2, τ.chainLength)
      rw [sent, replica, length]
    rw [Transaction.act, writeMarked_eq, writeMarked_eq, count, length]
    apply of_oblivious (oblivious_writeAll g property _ false converges) counted
  | records => apply of_oblivious ((opens_nodeErrors g).oblivious converges) alike
  | acknowledge =>
    apply of_oblivious _ alike
    apply (opens_acknowledge g).oblivious_of_punctual converges (punctual trivial)
  | commit =>
    apply of_oblivious _ alike
    apply (opens_commit g).oblivious_of_punctual converges (punctual trivial)

/-! ### Leftovers -/

/-- An outside from which something is still to come of what was sent before, and an answer to
whatever is sent. -/
structure Leftovers where
  /-- What comes until all that has been sent before has left. -/
  late : List UInt8
  answers : List (List UInt8)
  deriving DecidableEq

instance : Outside Leftovers where
  send _ w := ((true, w.answers.headD []), ⟨[], w.answers.tail⟩)
  receive _ _ w := ((true, []), w)
  flush w := (true, w)
  drain w := ((true, w.late), { w with late := [] })
  pause _ w := ([], w)

/-- Leftovers do not matter any more once something has been sent. -/
theorem converges_leftovers :
  Outside.Converges fun w w' : Leftovers => w.answers = w'.answers
  := by
  refine ⟨fun same => ⟨rfl, same⟩, fun same => ⟨rfl, same⟩, ?_⟩
  intro bytes w w' same
  change ((true, w.answers.headD []), (⟨[], w.answers.tail⟩ : Leftovers)) = _
  rw [same]
  rfl

/-- A desk with an empty collection of two modules at most, where the given bytes wait, others come
late, and the given ones answer what is sent first. -/
def cluttered (waiting late answer : List UInt8) :
    Session (Desk (Port Leftovers) (Collection SplitFlap.Module 2)) :=
  ⟨⟨⟨⟨late, [answer]⟩, waiting, []⟩, {}⟩, 0⟩

/-- Leftovers of whatever kind do not show in a read of the offset. -/
theorem stale_input_unseen_cluttered :
  let g : Gateway SplitFlap.Module := ⟨SplitFlap.table, {}⟩
  let answer : List UInt8 := opening .read false ⟨6⟩ 1 ++ [3, 7, 248, 0]
  let r := ((Transaction.read ⟨6⟩).act g).run (cluttered [3, 7] [9, 0, 0] answer)
  let r' := ((Transaction.read ⟨6⟩).act g).run (cluttered [] [] answer)
  Alike (fun w w' => w.answers = w'.answers) (cluttered [3, 7] [9, 0, 0] answer)
      (cluttered [] [] answer) ∧
    r.1 = r'.1 ∧ r.2.seen = r'.2.seen
  := by
  intro g answer
  have alike : Alike (fun w w' => w.answers = w'.answers) (cluttered [3, 7] [9, 0, 0] answer)
      (cluttered [] [] answer) := ⟨rfl, rfl⟩
  exact ⟨alike, stale_input_unseen g converges_leftovers (.read ⟨6⟩) False.elim alike⟩

/-- A single byte that comes late is taken for what comes back of an acknowledge. -/
theorem late_byte_acknowledges :
  let g : Gateway SplitFlap.Module := ⟨SplitFlap.table, {}⟩
  let echo := [SyncHeader.pack ⟨.ack, .empty⟩]
  Alike (fun w w' => w.answers = w'.answers) (cluttered [] [] echo) (cluttered [] [0] echo) ∧
    (Transaction.acknowledge.act g |>.run (cluttered [] [] echo)).1 = .ok .empty ∧
    (Transaction.acknowledge.act g |>.run (cluttered [] [0] echo)).1 = .error .headerMismatch
  := ⟨⟨rfl, rfl⟩, rfl, rfl⟩

end DaisyChain.Gateway
