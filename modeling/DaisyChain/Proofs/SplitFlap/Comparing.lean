import DaisyChain.Gateway.Display
import DaisyChain.Proofs.Gateway.Calls
import DaisyChain.Proofs.SplitFlap.Layouts

/-!
# Comparing modules

The gateway compares modules by the values that they hold, and the nodes are sent bytes.  Both come to
the same: modules are called equal in a property exactly if they are laid out alike, or neither of them
has anything to send (`equal_iff_laid_alike`).  So the frame that carries the value of the first module
to all nodes is the one that each module called equal to it would have been sent in alone.

A comparison looks at the item of its own property, and so does the layout; an item is the same in two
modules if copying it from one to the other changes nothing (`Item.copy`).
-/

namespace DaisyChain

namespace Gateway

variable {L M : Type} {N : Nat} [Inhabited M]

/-- Modules that are laid out alike are sent in the same frame. -/
theorem run_valueFrame_congr {d : Definition M} {σ : Session (Site L M N)} {i j : Nat} {m m' : M}
    (here : σ.env.display.collection.module? i = some m)
    (there : σ.env.display.collection.module? j = some m') (alike : d.serialize m = d.serialize m') :
  (valueFrame d i : Act _ _).run σ = (valueFrame d j : Act _ _).run σ
  := by
  have module (index : Nat) : (Replica.module? index : StateM (Site L M N) _) σ.env =
      (σ.env.display.collection.module? index, σ.env) := rfl
  rw [valueFrame, valueFrame, run_bind_ok (run_within _), run_bind_ok (run_within _)]
  simp only [Session.after, module, here, there, alike]

end Gateway

namespace SplitFlap

variable {a b : Module}

/-! ### Items that are the same -/

namespace Field

variable {α : Type} {f : Field α}

/-- A value that is written over itself changes nothing, and only such a value does not. -/
theorem write_eq_self_iff (read_write : ∀ v m, f.read (f.write v m) = v)
    (write_read : ∀ m, f.write (f.read m) m = m) :
  f.write (f.read a) b = b ↔ f.read a = f.read b
  := by
  constructor
  · intro same
    rw [← read_write (f.read a) b, same]
  · intro same
    rw [same, write_read]

/-- Modules are called equal in a field if writing the value of the first one into the second one
changes nothing. -/
theorem equal?_iff [DecidableEq α] (f : Field α) (read_write : ∀ v m, f.read (f.write v m) = v)
    (write_read : ∀ m, f.write (f.read m) m = m) {d : Definition Module}
    (compare : d.compare = some f.same) :
  d.equal? a b = some true ↔ f.write (f.read a) b = b
  := by
  rw [write_eq_self_iff read_write write_read, Definition.equal?, compare, Option.map_some, same,
    Option.some_inj, decide_eq_true_iff]

end Field

namespace Item

/-- A module holds its own items. -/
theorem copy_self (p : Item) (m : Module) :
  p.copy m m = m
  := by cases p <;> rfl

/-- Modules hold the same item if they have the same value of its field. -/
theorem HeldIn.copy_eq_iff {α : Type} {p : Item} {f : Field α} (held : p.HeldIn f) :
  p.copy a b = b ↔ f.read a = f.read b
  := by
  have write_read (m : Module) : f.write (f.read m) m = m := (held.copies m m).trans (p.copy_self m)
  rw [← held.copies, Field.write_eq_self_iff held.exact.read_write write_read]

/-- Modules that hold the same item are laid out alike. -/
theorem serialize_eq_of_copy {p : Item} (same : p.copy a b = b) :
  p.definition.serialize a = p.definition.serialize b
  := by
  obtain ⟨α, f, held⟩ := p.exists_heldIn
  apply Field.serialize_congr held.get (held.copy_eq_iff.mp same)

/-- Modules hold the same item if they are laid out alike, or neither of them has anything to send. -/
theorem copy_eq_of_serialize {p : Item}
    (alike : (p.definition.serialize a).toOption = (p.definition.serialize b).toOption) :
  p.copy a b = b
  := by
  obtain ⟨α, f, held⟩ := p.exists_heldIn
  cases sent : p.definition.serialize a with
  | ok data =>
    cases sent' : p.definition.serialize b with
    | ok data' =>
      rw [sent, sent'] at alike
      obtain rfl : data = data' := Option.some.inj alike
      -- What both of them send brings the item of either one.
      have first := (held.exact.deserialize_of_serialize held.get held.set sent b).2
      have second := (held.exact.deserialize_of_serialize held.get held.set sent' b).2
      rw [held.copies] at first second
      rw [first, copy_self] at second
      exact congrArg Prod.snd second
    | error e =>
      rw [sent, sent'] at alike
      contradiction
  | error e =>
    cases sent' : p.definition.serialize b with
    | ok data =>
      rw [sent, sent'] at alike
      contradiction
    | error e' =>
      -- There is nothing to send but of a page, and only for want of one.
      obtain ⟨-, none⟩ := (held.exact.serialize_error_iff held.get).mp sent
      obtain ⟨-, none'⟩ := (held.exact.serialize_error_iff held.get).mp sent'
      obtain ⟨rfl, page⟩ := (held.missing a).mp none
      obtain ⟨-, page'⟩ := (held.missing b).mp none'
      rw [copy, page, ← page']

/-- Modules that can be compared are called equal if they hold the same item. -/
theorem equal?_iff {p : Item} (comparable : p.definition.compare.isSome = true) :
  p.definition.equal? a b = some true ↔ p.copy a b = b
  := by
  cases p with
  | firmwareVersion => contradiction
  | moduleInfo => contradiction
  | firmwarePage => exact firmwarePageField.equal?_iff (fun _ _ => rfl) (fun _ => rfl) rfl
  | command => exact commandField.equal?_iff (fun _ _ => rfl) (fun _ => rfl) rfl
  | characterSet => exact characterSetField.equal?_iff (fun _ _ => rfl) (fun _ => rfl) rfl
  | character => exact characterField.equal?_iff (fun _ _ => rfl) (fun _ => rfl) rfl
  | offset => exact offsetField.equal?_iff (fun _ _ => rfl) (fun _ => rfl) rfl
  | color => exact colorField.equal?_iff (fun _ _ => rfl) (fun _ => rfl) rfl
  | motion => exact motionField.equal?_iff (fun _ _ => rfl) (fun _ => rfl) rfl
  | minimumRotation => exact minimumRotationField.equal?_iff (fun _ _ => rfl) (fun _ => rfl) rfl
  | irThreshold => exact irThresholdField.equal?_iff (fun _ _ => rfl) (fun _ => rfl) rfl

end Item

/-- A property of the table is that of an item. -/
theorem exists_item {d : Definition Module} (member : d ∈ table.definitions) :
  ∃ p : Item, d = p.definition
  := by
  have listed : table.definitions = Item.all.map Item.definition := rfl
  rw [listed] at member
  obtain ⟨p, -, rfl⟩ := List.mem_map.mp member
  exact ⟨p, rfl⟩

/-! ### Comparison and layout -/

/-- Modules are called equal in a property that can be compared exactly if they are laid out alike, or
neither of them has anything to send.  In a collection, every module that is called equal to the first
one would be sent alone in the frame that carries the first one to all nodes. -/
theorem equal_iff_laid_alike {d : Definition Module} (member : d ∈ table.definitions)
    (comparable : d.compare.isSome = true) :
  (∀ a b, d.equal? a b = some true ↔ (d.serialize a).toOption = (d.serialize b).toOption) ∧
  ∀ {L : Type} {N : Nat} (σ : Gateway.Session (Gateway.Site L Module N)) (i : Nat) (first other : Module),
    σ.env.display.collection.module? 0 = some first →
    σ.env.display.collection.module? i = some other → d.equal? first other = some true →
    (Gateway.valueFrame d i : Gateway.Act _ _).run σ = (Gateway.valueFrame d 0 : Gateway.Act _ _).run σ
  := by
  obtain ⟨p, rfl⟩ := exists_item member
  constructor
  · intro a b
    rw [Item.equal?_iff comparable]
    constructor
    · intro same
      rw [Item.serialize_eq_of_copy same]
    · apply Item.copy_eq_of_serialize
  · intro L N σ i first other front here equal
    apply Gateway.run_valueFrame_congr here front
    rw [Item.serialize_eq_of_copy ((Item.equal?_iff comparable).mp equal)]

/-- Two modules without a page are equal in it, though neither has anything to send.  Two modules of one
colour are equal in that, whatever else they hold, and the second one is sent as the first one is. -/
theorem equal_iff_laid_alike_two :
  let red : Color := { foreground := { red := 255 } }
  let first : Module := { color := red, command := .reboot }
  let other : Module := { color := red, character := 7 }
  let σ : Gateway.Session (Gateway.Site Unit Module 2) :=
    ⟨⟨(), { collection := { entries := [{ module := first }, { module := other }] } }⟩, 0⟩
  ((firmwareUpdate.equal? first other = some true ↔
      (firmwareUpdate.serialize first).toOption = (firmwareUpdate.serialize other).toOption) ∧
    firmwareUpdate.equal? first other = some true) ∧
  (Gateway.valueFrame color 1 : Gateway.Act _ _).run σ =
    (Gateway.valueFrame color 0 : Gateway.Act _ _).run σ
  := by
  intro red first other σ
  constructor
  · have pages : firmwareUpdate ∈ table.definitions := by simp [table]
    exact ⟨(equal_iff_laid_alike pages rfl).1 first other, rfl⟩
  · have colors : color ∈ table.definitions := by simp [table]
    exact (equal_iff_laid_alike colors rfl).2 σ 1 first other rfl rfl (by decide)

end SplitFlap

end DaisyChain
