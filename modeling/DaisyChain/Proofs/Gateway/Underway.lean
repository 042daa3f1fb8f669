import DaisyChain.Proofs.Chain.Disturbed
import DaisyChain.Proofs.Gateway.Writing

/-!
# Acts on a chain that is underway

What the acts of the gateway do to a chain of which nothing is known but what has been sent to it.
As long as they succeed, the chain is underway with what has been sent.  An act that waits in vain
fails, and nothing is sent any more; the modules are then those of a chain underway with what had
been sent (`Session.Left`).
-/

namespace DaisyChain.Gateway

variable {S M α β : Type} [Transport S] [OnChain S M]

/-- The modules of the chain are those of a chain that is underway with the given bytes. -/
def Session.Left (σ : Session S) (o : Chain.Origin M) (sent : List UInt8) : Prop :=
  ∃ (c : Chain M) (gone : List UInt8), c.Underway o sent gone ∧ σ.line.modules = c.modules

variable {σ σ' : Session S} {o : Chain.Origin M} {sent gone : List UInt8}

/-- A chain that is underway has been left so. -/
theorem Session.left_of_underway (underway : σ.line.Underway o sent gone) :
  σ.Left o sent
  := ⟨σ.line, gone, underway, rfl⟩

/-! ### Acts that send nothing -/

/-- An act that sends nothing, but takes some of what has come back.  If it fails, no module changes
any more. -/
structure Act.Listens (a : Act S α) : Prop where
  ok : ∀ {σ σ' : Session S} {x o sent gone}, σ.line.Underway o sent gone → a.run σ = (.ok x, σ') →
    ∃ more, σ'.line.Underway o sent (gone ++ more)
  failed : ∀ {σ σ' : Session S} {failure o sent gone}, σ.line.Underway o sent gone →
    a.run σ = (.error failure, σ') → σ'.Left o sent

namespace Act

/-- However an act ends that sends nothing, the chain has been left underway with what had been
sent. -/
theorem Listens.left {a : Act S α} (listens : a.Listens) (underway : σ.line.Underway o sent gone) :
  (a.run σ).2.Left o sent
  := by
  cases result : a.run σ with
  | mk r τ =>
    cases r with
    | ok x =>
      obtain ⟨more, further⟩ := listens.ok underway result
      apply Session.left_of_underway further
    | error failure => apply listens.failed underway result

/-- What is done aside from the line sends nothing. -/
theorem Aside.listens {a : Act S α} (aside : a.Aside) :
  a.Listens
  := by
  have same {σ σ' : Session S} {r} (run : a.run σ = (r, σ')) : σ'.line = σ.line := by
    rw [← aside.line_eq σ, run]
  constructor
  · intro σ σ' x o sent gone underway run
    refine ⟨[], ?_⟩
    rw [same run, List.append_nil]
    apply underway
  · intro σ σ' failure o sent gone underway run
    rw [← same run] at underway
    apply Session.left_of_underway underway

/-- Two acts in turn send nothing if neither of them does. -/
theorem Listens.bind {a : Act S α} {f : α → Act S β} (first : a.Listens)
    (second : ∀ x, (f x).Listens) :
  (a >>= f).Listens
  := by
  constructor
  · intro σ σ' y o sent gone underway run
    rcases run_bind_cases run with ⟨x, τ, before, after⟩ | ⟨failure, before, is⟩
    · obtain ⟨more, further⟩ := first.ok underway before
      obtain ⟨others, last⟩ := (second x).ok further after
      exact ⟨more ++ others, by rw [← List.append_assoc]; exact last⟩
    · cases is
  · intro σ σ' failure o sent gone underway run
    rcases run_bind_cases run with ⟨x, τ, before, after⟩ | ⟨failure', before, is⟩
    · obtain ⟨more, further⟩ := first.ok underway before
      apply (second x).failed further after
    · apply first.failed underway before

/-- An act that only gives an answer or fails sends nothing. -/
theorem listens_check {ε : Type} (cause : ε → Failure) (result : Except ε α) :
  (check cause result : Act S α).Listens
  := (aside_check cause result).listens

end Act

/-! ### Receiving -/

/-- A gateway that waits for bytes receives as many, or fails. -/
theorem receive_cases (g : Gateway M) {count : Nat} (short : count ≤ frameMax)
    (underway : σ.line.Underway o sent gone) :
  (∃ bytes c, (g.receive count : Act S (List UInt8)).run σ = (.ok bytes, σ.withLine c) ∧
      bytes.length = count ∧ c.Underway o sent (gone ++ bytes)) ∨
    ∃ τ, (g.receive count : Act S (List UInt8)).run σ = (.error .timeout, τ) ∧ τ.Left o sent
  := by
  have waited :
      (within (Transport.receive count (g.settings.receiveTimeout count)) : Act S _).run σ =
      (.ok (some (σ.line.await count (g.settings.receiveTimeout count)).1),
        σ.withLine (σ.line.await count (g.settings.receiveTimeout count)).2) := by
    rw [run_within, Session.after, OnChain.receive_eq]
    rfl
  have outcome := underway.await short (g.settings.receiveTimeout count)
  generalize σ.line.await count (g.settings.receiveTimeout count) = r at waited outcome
  rcases outcome with ⟨all, further⟩ | ⟨few, c, further, -, same⟩
  · left
    refine ⟨r.1, r.2, ?_, all, further⟩
    rw [receive, run_bind_ok waited]
    simp only [all, Nat.lt_irrefl, if_false, run_pure, List.take_of_length_le (Nat.le_of_eq all)]
  · right
    refine ⟨σ.withLine r.2, ?_, c, _, further, ?_⟩
    · rw [receive, run_bind_ok waited]
      simp only [few, if_true]
      rfl
    · rw [Session.line_withLine, same]

/-- Receiving bytes sends nothing. -/
theorem listens_receive (g : Gateway M) {count : Nat} (short : count ≤ frameMax) :
  (g.receive count : Act S (List UInt8)).Listens
  := by
  constructor
  · intro σ σ' bytes o sent gone underway run
    rcases receive_cases g short underway with ⟨bytes', c, got, -, further⟩ | ⟨τ, got, -⟩
    · rw [got] at run
      cases run
      exact ⟨_, by rw [Session.line_withLine]; exact further⟩
    · rw [got] at run
      cases run
  · intro σ σ' failure o sent gone underway run
    rcases receive_cases g short underway with ⟨bytes', c, got, -, further⟩ | ⟨τ, got, left⟩
    · rw [got] at run
      cases run
    · rw [got] at run
      cases run
      apply left

/-- A gateway that waits for a byte receives one, or fails. -/
theorem receiveByte_cases (g : Gateway M) (underway : σ.line.Underway o sent gone) :
  (∃ byte c, (g.receiveByte : Act S UInt8).run σ = (.ok byte, σ.withLine c) ∧
      Chain.Underway c o sent (gone ++ [byte])) ∨
    ∃ τ, (g.receiveByte : Act S UInt8).run σ = (.error .timeout, τ) ∧ τ.Left o sent
  := by
  have short : 1 ≤ frameMax := by decide
  rcases receive_cases g short underway with ⟨bytes, c, got, length, further⟩ | ⟨τ, got, left⟩
  · obtain ⟨byte, rfl⟩ := List.length_eq_one_iff.mp length
    left
    refine ⟨byte, c, ?_, further⟩
    rw [receiveByte, run_bind_ok got]
    rfl
  · exact .inr ⟨τ, run_bind_error got, left⟩

/-- Receiving a byte sends nothing. -/
theorem listens_receiveByte (g : Gateway M) :
  (g.receiveByte : Act S UInt8).Listens
  := by
  apply (listens_receive g (by decide)).bind
  intro bytes
  split
  · apply (Act.Aside.pure _).listens
  · apply (Act.Aside.throw _).listens

/-- Receiving a header sends nothing. -/
theorem listens_receiveHeader (g : Gateway M) :
  (g.receiveHeader : Act S RawHeader).Listens
  := by
  apply (listens_receive g (by decide)).bind
  intro bytes
  split
  · dsimp only
    split
    · apply (Act.Aside.pure _).listens
    · apply (Act.Aside.throw _).listens
  · apply (Act.Aside.throw _).listens

/-- A gateway that waits for the header of a write to come back receives one, or fails. -/
theorem receiveEcho_cases (g : Gateway M) (action : Action) (property : PropertyId) (staged : Bool)
    (underway : σ.line.Underway o sent gone) :
  (∃ echo bytes c, (g.receiveEcho action property staged : Act S RawHeader).run σ =
        (.ok echo, σ.withLine c) ∧
      bytes.length = Header.actionLength ∧ Chain.Underway c o sent (gone ++ bytes)) ∨
    ∃ failure τ, (g.receiveEcho action property staged : Act S RawHeader).run σ =
      (.error failure, τ) ∧ τ.Left o sent
  := by
  have short : Header.actionLength ≤ frameMax := by decide
  rw [receiveEcho, receiveHeader, bind_assoc]
  rcases receive_cases g short underway with ⟨bytes, c, got, length, further⟩ | ⟨τ, got, left⟩
  · obtain ⟨b0, b1, b2, rfl⟩ := List.length_eq_three.mp length
    have quiet : (σ.withLine c).Left o sent :=
      Session.left_of_underway (by rw [Session.line_withLine]; exact further)
    rw [run_bind_ok got]
    dsimp only
    by_cases even : RawHeader.evenParity ⟨b0, b1, b2⟩ = true
    · rw [if_pos even, pure_bind]
      split
      · exact .inl ⟨_, _, c, rfl, rfl, further⟩
      · exact .inr ⟨_, _, rfl, quiet⟩
    · rw [if_neg even]
      exact .inr ⟨_, _, rfl, quiet⟩
  · exact .inr ⟨_, τ, run_bind_error got, left⟩

/-- Receiving the rest of a frame sends nothing. -/
theorem listens_receiveRest (g : Gateway M) (collector : Frame.Collector) :
  (g.receiveRest collector : Act S Frame).Listens
  := by
  rw [receiveRest]
  apply (listens_receiveByte g).bind
  intro byte
  split
  · next collector' fed =>
    have := Frame.Collector.room_feed_lt fed
    apply listens_receiveRest g collector'
  · apply Act.listens_check
  · apply (Act.Aside.throw _).listens
termination_by collector.room

section Records

variable [Replica S M] [Apart S M]

/-- Receiving the records of the nodes sends nothing. -/
theorem listens_receiveRecords (g : Gateway M) (count index : Nat) (categories : Categories) :
  (g.receiveRecords count index categories : Act S Categories).Listens
  := by
  induction count generalizing index categories with
  | zero => apply (Act.Aside.pure _).listens
  | succ count ih =>
    rw [receiveRecords]
    apply (listens_receiveRest g _).bind
    intro frame
    split
    · apply (Act.Aside.within (Apart.reported _ _ _)).listens.bind
      intro _
      apply ih
    · apply ih

/-- Taking note of the length of the chain sends nothing. -/
theorem listens_updateCount (count : Nat) :
  (updateCount count : Act S Unit).Listens
  := by
  apply Act.Aside.listens
  intro c σ
  rw [run_updateCount, run_updateCount, Session.noted_withLine]

end Records

/-! ### Acts that send -/

/-- What has come back is dropped, and the chain stays underway. -/
theorem exists_run_flush (underway : σ.line.Underway o sent gone) :
  ∃ c, (flush : Act S Unit).run σ = (.ok (), σ.withLine c) ∧
    Chain.Underway c o sent (gone ++ σ.line.settle.exit.queue)
  := ⟨_, run_flush_eq σ, underway.clearExit⟩

/-- More bytes are sent, and the chain stays underway. -/
theorem exists_run_send (underway : σ.line.Underway o sent gone) (bytes : List UInt8) :
  ∃ c, (send bytes : Act S Unit).run σ = (.ok (), σ.withLine c) ∧
    Chain.Underway c o (sent ++ bytes) gone
  := ⟨_, run_send_eq σ bytes, underway.inject bytes⟩

/-- The bytes that ask for the records of the nodes. -/
def recordQuery : List UInt8 :=
  (ActionHeader.pack ⟨.read, false, .errorQuery, 0⟩).toList

/-- The bytes that ask whether a transaction has succeeded. -/
def acknowledgeQuery : List UInt8 :=
  [SyncHeader.pack ⟨.ack, .empty⟩]

variable [Replica S M] [Apart S M]

/-- To ask the nodes for their records nothing is sent but a header. -/
theorem left_nodeErrors (g : Gateway M) (underway : σ.line.Underway o sent gone) :
  ((g.nodeErrors : Act S Categories).run σ).2.Left o (sent ++ recordQuery)
  := by
  have header : ActionHeader.of? .read false .errorQuery 0 =
      some ⟨.read, false, .errorQuery, 0⟩ := by
    decide
  obtain ⟨c, flushed, silent⟩ := exists_run_flush underway
  obtain ⟨c', sending, asked⟩ := exists_run_send (σ := σ.withLine c)
    (by rw [Session.line_withLine]; exact silent)
    (ActionHeader.pack ⟨.read, false, .errorQuery, 0⟩).toList
  rw [nodeErrors, openRead, header]
  simp only [bind_assoc]
  rw [run_bind_ok flushed, run_bind_ok sending]
  refine Act.Listens.left ?_
    (by rw [Session.withLine_withLine, Session.line_withLine]; exact asked)
  apply (listens_receiveHeader g).bind
  intro echo
  apply Act.Listens.bind
  · split
    · apply (Act.Aside.pure _).listens
    · apply (Act.Aside.throw _).listens
  · intro echo
    apply (listens_updateCount _).bind
    intro _
    apply listens_receiveRecords

/-- To confirm a transaction an acknowledge is sent; a header that asks for records follows only
if a byte has come back behind those that had come back before. -/
theorem left_confirm (g : Gateway M) (underway : σ.line.Underway o sent gone) :
  let τ := ((g.confirm : Act S Unit).run σ).2
  τ.Left o (sent ++ acknowledgeQuery) ∨
    τ.Left o (sent ++ acknowledgeQuery ++ recordQuery) ∧
      gone.length + 1 ≤ (course o.table o.stages (sent ++ acknowledgeQuery)).2.length
  := by
  obtain ⟨c₁, flushed, silent⟩ := exists_run_flush underway
  generalize σ.line.settle.exit.queue = more at silent
  have settled : (c₁.settle).Underway o sent (gone ++ more) := silent.settle
  have drained : (drain : Act S Unit).run (σ.withLine c₁) = (.ok (), σ.withLine c₁.settle) := by
    rw [run_drain_eq, Session.line_withLine, Session.withLine_withLine]
  obtain ⟨c₃, sending, asked⟩ := exists_run_send (σ := σ.withLine c₁.settle)
    (by rw [Session.line_withLine]; exact settled) [SyncHeader.pack ⟨.ack, .empty⟩]
  rw [Session.withLine_withLine] at sending
  rw [confirm, acknowledge, sync]
  simp only [bind_assoc]
  rw [run_bind_ok flushed, run_bind_ok drained, run_bind_ok sending]
  rcases receiveByte_cases g (σ := σ.withLine c₃) (by rw [Session.line_withLine]; exact asked) with
    ⟨byte, c₄, got, heard⟩ | ⟨τ, got, left⟩
  · rw [run_bind_ok got, Session.withLine_withLine]
    have heard' : (σ.withLine c₄).line.Underway o (sent ++ acknowledgeQuery)
        (gone ++ more ++ [byte]) := by
      rw [Session.line_withLine]
      apply heard
    have quiet := Session.left_of_underway heard'
    cases SyncHeader.unpack byte with
    | error failure => exact .inl quiet
    | ok header =>
      by_cases same : header.kind = .ack
      · simp only [same, if_true, pure_bind]
        by_cases clean : header.categories.isEmpty
        · simp only [clean, if_true]
          exact .inl quiet
        · simp only [clean]
          right
          constructor
          · have records := left_nodeErrors g heard'
            rw [if_neg Bool.false_ne_true]
            cases asking : (g.nodeErrors : Act S Categories).run (σ.withLine c₄) with
            | mk r τ =>
              rw [asking] at records
              cases r with
              | ok categories =>
                rw [run_bind_ok asking]
                apply records
              | error failure =>
                rw [run_bind_error asking]
                apply records
          · have back := Chain.length_exit_le heard'.path
            simp only [List.length_append, List.length_singleton] at back
            omega
      · simp only [same, if_false]
        exact .inl quiet
  · rw [run_bind_error got]
    exact .inl left

end DaisyChain.Gateway
