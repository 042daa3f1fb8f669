import DaisyChain.Proofs.Gateway.Reaching
import DaisyChain.Proofs.Gateway.Underway
import DaisyChain.Proofs.Node.Load

/-!
# What a write sends

The bytes that a write of a site sends, whatever comes back: the load of the write, as far as its
frames can be produced, then an acknowledge, and then a header that asks for records (`Departs`).
The gateway goes on with the acknowledge only if the write has come back to it, and with the header
only if more has come back (`left_writeEach`, `left_broadcast`).
-/

namespace DaisyChain.Gateway

open Node

variable {M : Type} {N : Nat}

/-! ### The frames of a write -/

/-- The frame for a node for which a write means the given module, or none; nothing if there is
no such frame. -/
def frameFor (d : Definition M) : Option M → Option (List UInt8)
  | none => (Frame.placeholderOf (placeholderLength d.size)).toOption
  | some m => (d.serialize m).toOption.bind fun data => (Frame.encode data).toOption

/-- The frames for the nodes below the given index, the farthest node first, up to the first one
that does not exist. -/
def framesBelow (d : Definition M) (means : Nat → Option M) : Nat → List (List UInt8)
  | 0 => []
  | index + 1 =>
    match frameFor d (means index) with
    | none => []
    | some bytes => bytes :: framesBelow d means index

/-- A computation that has a result has succeeded with it. -/
theorem eq_ok_of_toOption {α ε : Type} {result : Except ε α} {a : α}
    (some : result.toOption = some a) :
  result = .ok a
  := by
  cases result with
  | error e => contradiction
  | ok b =>
    cases some
    rfl

/-- A frame that there is for a node carries the value of the module that the write means for it,
or is a placeholder. -/
theorem exists_of_frameFor {d : Definition M} {means : Option M} {bytes : List UInt8}
    (frame : frameFor d means = some bytes) :
  ∃ value, Frame.Whole bytes (frameOf value) ∧
    ∀ data, value = some data → ∃ m, means = some m ∧ d.serialize m = .ok data
  := by
  cases means with
  | none =>
    refine ⟨none, Frame.whole_of_placeholderOf (eq_ok_of_toOption frame), ?_⟩
    simp
  | some m =>
    rw [frameFor, Option.bind_eq_some_iff] at frame
    obtain ⟨data, value, encoded⟩ := frame
    refine ⟨some data, Frame.whole_of_encode (eq_ok_of_toOption encoded), ?_⟩
    rintro _ ⟨⟩
    exact ⟨m, rfl, eq_ok_of_toOption value⟩

/-- The frames that a write to the given recipients sends, in their order. -/
def Collection.outgoing (c : Collection M N) (d : Definition M) (property : PropertyId) :
    Recipients → List (List UInt8)
  | .each count => framesBelow d (c.meant property (.each count)) count
  | .all => ((c.module? 0).bind fun m => frameFor d (some m)).toList

section Frames

variable [Inhabited M] {σ : Session (Site (Chain M) M N)} {d : Definition M} {property : PropertyId}

/-- The frame with the value of a module is produced if there is one. -/
theorem run_valueFrame_site (d : Definition M) (index : Nat) (σ : Session (Site (Chain M) M N)) :
  ∃ r, (valueFrame d index : Act _ (List UInt8)).run σ = (r, σ) ∧
    r.toOption = (σ.env.display.collection.module? index).bind fun m => frameFor d (some m)
  := by
  have module : (Replica.module? index : StateM (Site (Chain M) M N) _) σ.env =
      (σ.env.display.collection.module? index, σ.env) := rfl
  rw [valueFrame, run_bind_ok (run_within _)]
  simp only [Session.after, module]
  cases σ.env.display.collection.module? index with
  | none => exact ⟨.error .invalidArgument, rfl, rfl⟩
  | some m =>
    simp only [Option.bind_some, frameFor]
    cases d.serialize m with
    | error e => exact ⟨.error (.ofProperty e), rfl, rfl⟩
    | ok data =>
      refine ⟨(Frame.encode data).mapError .ofFrame, ?_, ?_⟩
      · change (check .ofFrame (Frame.encode data) : Act _ _).run σ = _
        cases Frame.encode data <;> rfl
      · change _ = (Frame.encode data).toOption
        cases Frame.encode data <;> rfl

/-- The frame for a node is sent if there is one, and then what follows is done; otherwise nothing
is. -/
theorem run_sendValues_succ (d : Definition M) (property : PropertyId) (index count : Nat)
    (σ : Session (Site (Chain M) M N)) :
  match frameFor d (σ.env.display.collection.meant property (.each count) index) with
  | some bytes => (sendValues d property (index + 1) : Act _ Unit).run σ =
      (send bytes >>= fun _ => sendValues d property index : Act _ Unit).run σ
  | none => ∃ failure, (sendValues d property (index + 1) : Act _ Unit).run σ = (.error failure, σ)
  := by
  have marked : (Replica.mustWrite (M := M) index property : StateM (Site (Chain M) M N) _) σ.env =
      (σ.env.display.collection.mustWrite index property, σ.env) := rfl
  rw [sendValues, run_bind_ok (run_within _)]
  simp only [Session.after, marked, Collection.meant]
  -- In either case a frame is produced or not, and nothing else happens.
  have goes {act : Act (Site (Chain M) M N) (List UInt8)} {r : Except Failure (List UInt8)}
      (run : act.run σ = (r, σ)) :
      match r.toOption with
      | some bytes =>
        (act >>= fun frame => send frame >>= fun _ =>
          sendValues d property index : Act _ Unit).run σ =
            (send bytes >>= fun _ => sendValues d property index : Act _ Unit).run σ
      | none => ∃ failure,
        (act >>= fun frame => send frame >>= fun _ =>
          sendValues d property index : Act _ Unit).run σ =
            (.error failure, σ) := by
    cases r with
    | ok bytes => apply run_bind_ok run
    | error failure => exact ⟨failure, run_bind_error run⟩
  cases mark : σ.env.display.collection.mustWrite index property with
  | false =>
    have run : (check .ofFrame (Frame.placeholderOf (placeholderLength d.size)) :
        Act (Site (Chain M) M N) _).run σ =
          ((Frame.placeholderOf (placeholderLength d.size)).mapError .ofFrame, σ) := by
      cases Frame.placeholderOf (placeholderLength d.size) <;> rfl
    have same : ((Frame.placeholderOf (placeholderLength d.size)).mapError
        Failure.ofFrame).toOption = frameFor d none := by
      rw [frameFor]
      cases Frame.placeholderOf (placeholderLength d.size) <;> rfl
    have all := goes run
    rw [same] at all
    apply all
  | true =>
    obtain ⟨r, run, is⟩ := run_valueFrame_site d index σ
    obtain ⟨m, here⟩ := Collection.exists_module_of_mustWrite mark
    have all := goes run
    rw [is, here] at all
    rw [here]
    apply all

/-- The frames for some nodes are sent, all of them or those up to the first that does not exist. -/
theorem left_sendValues (d : Definition M) (property : PropertyId) (index count : Nat)
    {o : Chain.Origin M} {sent gone : List UInt8} (underway : σ.line.Underway o sent gone) :
  let frames := framesBelow d (σ.env.display.collection.meant property (.each count)) index
  (∃ c, (sendValues d property index : Act _ Unit).run σ = (.ok (), σ.withLine c) ∧
      frames.length = index ∧ Chain.Underway c o (sent ++ frames.flatten) gone) ∨
    ∃ failure τ, (sendValues d property index : Act _ Unit).run σ = (.error failure, τ) ∧
      frames.length < index ∧ τ.Left o (sent ++ frames.flatten)
  := by
  intro frames
  induction index generalizing σ sent with
  | zero =>
    refine .inl ⟨σ.line, ?_, rfl, ?_⟩
    · rw [Session.withLine_line]
      rfl
    · rw [show frames.flatten = [] from rfl, List.append_nil]
      apply underway
  | succ index ih =>
    have step := run_sendValues_succ d property index count σ
    cases frame : frameFor d (σ.env.display.collection.meant property (.each count) index) with
    | none =>
      rw [frame] at step
      obtain ⟨failure, run⟩ := step
      have none : frames = [] := by simp only [frames, framesBelow, frame]
      rw [none, List.flatten_nil, List.append_nil]
      exact .inr ⟨failure, σ, run, Nat.succ_pos index, Session.left_of_underway underway⟩
    | some bytes =>
      rw [frame] at step
      have some : frames = bytes :: framesBelow d
          (σ.env.display.collection.meant property (.each count)) index := by
        simp only [frames, framesBelow, frame]
      obtain ⟨c, sending, further⟩ := exists_run_send underway bytes
      rw [step, run_bind_ok sending, some, List.flatten_cons, ← List.append_assoc]
      rcases ih (σ := σ.withLine c) (by rw [Session.line_withLine]; exact further) with
        ⟨c', run, all, later⟩ | ⟨failure, τ, run, few, left⟩
      · rw [Session.withLine_withLine] at run
        exact .inl ⟨c', run, congrArg Nat.succ all, later⟩
      · exact .inr ⟨failure, τ, run, Nat.succ_lt_succ few, left⟩

end Frames

/-! ### What is sent -/

/-- What a write sends: a part of its load; or all of it and an acknowledge, but only if it has
come back; and a header that asks for records, but only if something has come back for the
acknowledge. -/
def Departs (l : Load) (back : Prop) (o : Chain.Origin M) (sent : List UInt8) : Prop :=
  sent <+: l.bytes ∨ back ∧
    (sent = l.bytes ++ acknowledgeQuery ∨ sent = l.bytes ++ acknowledgeQuery ++ recordQuery ∧
      Header.actionLength < (course o.table o.stages (l.bytes ++ acknowledgeQuery)).2.length)

section Writes

variable [Inhabited M] {σ : Session (Site (Chain M) M N)} {property : PropertyId}
variable {o : Chain.Origin M}

/-- A write to each node leaves the chain underway with what the write sends, which is all of its
load if there is a frame for each node. -/
theorem left_writeEach (g : Gateway M) (d : Definition M) (staged : Bool)
    (travels : property.Travels) {count : Nat} (few : count < countModulus)
    (underway : σ.line.Underway o [] []) :
  let l : Load := ⟨ActionHeader.pack ⟨.write, staged, property, count⟩,
    σ.env.display.collection.outgoing d property (.each count)⟩
  ∃ sent, ((g.writeEach d property count staged : Act _ Unit).run σ).2.Left o sent ∧
    Departs l (l.frames.length = count) o sent ∧
    (count ≠ 0 → l.frames.length = count → l.bytes <+: sent)
  := by
  intro l
  have header : ActionHeader.of? .write staged property count =
      some ⟨.write, staged, property, count⟩ :=
    travels.of?_eq (by simp) _ few
  by_cases none : count = 0
  · rw [writeEach, if_pos none]
    exact ⟨[], Session.left_of_underway underway, .inl List.nil_prefix,
      fun some => (some none).elim⟩
  · rw [writeEach, if_neg none, header]
    obtain ⟨c₁, flushed, silent⟩ := exists_run_flush underway
    obtain ⟨c₂, opening, opened⟩ := exists_run_send (σ := σ.withLine c₁)
      (by rw [Session.line_withLine]; exact silent) l.header.toList
    rw [Session.withLine_withLine] at opening
    dsimp only
    rw [run_bind_ok flushed, run_bind_ok opening]
    have sends := left_sendValues (σ := σ.withLine c₂) d property count count
      (by rw [Session.line_withLine]; exact opened)
    rcases sends with ⟨c₃, sending, all, further⟩ | ⟨failure, τ, failed, fewer, left⟩
    · rw [Session.withLine_withLine] at sending
      rw [run_bind_ok sending]
      rcases receiveEcho_cases g .write property staged (σ := σ.withLine c₃)
          (by rw [Session.line_withLine]; exact further) with
        ⟨echo, bytes, c₄, got, length, heard⟩ | ⟨failure, τ, failed, left⟩
      · rw [run_bind_ok got, Session.withLine_withLine]
        have confirms {τ : Session (Site (Chain M) M N)} {gone : List UInt8}
            (underway : τ.line.Underway o l.bytes gone)
            (enough : Header.actionLength ≤ gone.length) :
            ∃ sent, ((g.confirm : Act _ Unit).run τ).2.Left o sent ∧
              Departs l (l.frames.length = count) o sent ∧
              (count ≠ 0 → l.frames.length = count → l.bytes <+: sent) := by
          rcases left_confirm g underway with left | ⟨left, more⟩
          · exact ⟨_, left, .inr ⟨all, .inl rfl⟩, fun _ _ => List.prefix_append _ _⟩
          · refine ⟨_, left, .inr ⟨all, .inr ⟨rfl, by omega⟩⟩, fun _ _ => ?_⟩
            rw [List.append_assoc]
            apply List.prefix_append
        have long (gone : List UInt8) : Header.actionLength ≤ (gone ++ bytes).length := by
          rw [List.length_append, length]
          omega
        split
        · rw [run_bind_ok (run_updateCount _ _), Session.noted_withLine]
          apply confirms (by rw [Session.line_withLine]; exact heard) (long _)
        · apply confirms (by rw [Session.line_withLine]; exact heard) (long _)
      · rw [run_bind_error failed]
        exact ⟨_, left, .inl (List.prefix_refl _), fun _ _ => List.prefix_refl _⟩
    · rw [run_bind_error failed]
      exact ⟨_, left, .inl (List.prefix_refl _), fun _ all => (Nat.ne_of_lt fewer all).elim⟩

/-- A broadcast leaves the chain underway with what the broadcast sends. -/
theorem left_broadcast (g : Gateway M) (d : Definition M) (staged : Bool)
    (travels : property.Travels) (calm : σ.line.Calm) (underway : σ.line.Underway o [] []) :
  let l : Load := ⟨ActionHeader.pack ⟨.broadcast, staged, property, 0⟩,
    σ.env.display.collection.outgoing d property .all⟩
  ∃ sent, ((g.broadcast d property staged : Act _ Unit).run σ).2.Left o sent ∧
    Departs l (∃ head bytes, l.frames = [bytes] ∧ head.length = Header.actionLength ∧
      head ++ bytes <+: (Disturbance.pass o.last (course o.table o.stages l.bytes).2).1) o sent
  := by
  intro l
  have header : ActionHeader.of? .broadcast staged property 0 =
      some ⟨.broadcast, staged, property, 0⟩ :=
    travels.of?_eq (by simp) _ (by decide)
  obtain ⟨c₁, flushed, silent⟩ := exists_run_flush underway
  have nothing : σ.line.settle.exit.queue = [] := calm.settle.1.silent _ (List.getLast_mem _)
  rw [nothing] at silent
  obtain ⟨c₂, opening, opened⟩ := exists_run_send (σ := σ.withLine c₁)
    (by rw [Session.line_withLine]; exact silent) l.header.toList
  rw [Session.withLine_withLine] at opening
  rw [broadcast, header]
  dsimp only
  rw [run_bind_ok flushed, run_bind_ok opening]
  obtain ⟨r, framing, is⟩ := run_valueFrame_site d 0 (σ.withLine c₂)
  change _ = (σ.env.display.collection.module? 0).bind _ at is
  cases r with
  | error failure =>
    rw [run_bind_error framing]
    exact ⟨_, Session.left_of_underway (by rw [Session.line_withLine]; exact opened),
      .inl (List.prefix_append _ _)⟩
  | ok bytes =>
    have frames : l.frames = [bytes] := by
      change (Option.bind _ _).toList = _
      rw [← is]
      rfl
    obtain ⟨m, here, frame⟩ := Option.bind_eq_some_iff.mp is.symm
    obtain ⟨value, whole, -⟩ := exists_of_frameFor frame
    have all : l.bytes = l.header.toList ++ bytes := by
      rw [Load.bytes, frames, List.flatten_singleton]
    obtain ⟨c₃, sending, further⟩ := exists_run_send (σ := σ.withLine c₂)
      (by rw [Session.line_withLine]; exact opened) bytes
    rw [List.nil_append, ← all] at further
    rw [Session.withLine_withLine] at sending
    rw [run_bind_ok framing, run_bind_ok sending]
    rcases receiveEcho_cases g .broadcast property staged (σ := σ.withLine c₃)
        (by rw [Session.line_withLine]; exact further) with
      ⟨echo, head, c₄, got, length, heard⟩ | ⟨failure, τ, failed, left⟩
    · rw [List.append_nil, List.nil_append] at heard
      rw [run_bind_ok got, Session.withLine_withLine, run_bind_ok (run_updateCount _ _),
        Session.noted_withLine]
      rcases receive_cases g whole.fits (σ := (σ.noted echo.count).withLine c₄)
          (by rw [Session.line_withLine]; exact heard) with
        ⟨back, c₅, took, -, later⟩ | ⟨τ, failed, left⟩
      · rw [run_bind_ok took, Session.withLine_withLine]
        by_cases same : back = bytes
        · subst same
          rw [if_neg (by simp)]
          have evidence : ∃ head bytes, l.frames = [bytes] ∧ head.length = Header.actionLength ∧
              head ++ bytes <+: (Disturbance.pass o.last (course o.table o.stages l.bytes).2).1 :=
            ⟨head, back, frames, length, Chain.gone_prefix later.path⟩
          have enough : Header.actionLength ≤ (head ++ back).length := by
            rw [List.length_append, length]
            omega
          rcases left_confirm g (σ := (σ.noted echo.count).withLine c₅)
              (by rw [Session.line_withLine]; exact later) with left | ⟨left, more⟩
          · exact ⟨_, left, .inr ⟨evidence, .inl rfl⟩⟩
          · exact ⟨_, left, .inr ⟨evidence, .inr ⟨rfl, by omega⟩⟩⟩
        · have quiet : ((σ.noted echo.count).withLine c₅).Left o l.bytes :=
            Session.left_of_underway (by rw [Session.line_withLine]; exact later)
          rw [if_pos same]
          exact ⟨_, quiet, .inl (List.prefix_refl _)⟩
      · rw [run_bind_error failed]
        exact ⟨_, left, .inl (List.prefix_refl _)⟩
    · rw [run_bind_error failed]
      exact ⟨_, left, .inl (List.prefix_refl _)⟩

end Writes

end DaisyChain.Gateway
