import DaisyChain.Proofs.Header.Forwarded
import DaisyChain.Proofs.Node.Calls
import DaisyChain.Proofs.Node.Slots
import DaisyChain.Proofs.Node.Ticks
import Mathlib.Data.List.Forall2

/-!
# Origins of values

The origin of a value is a header of a write or broadcast that a node has accepted, and the last
frame of this transaction (`Origin.Received`).  A call of a handler stems from an origin if it puts
the value from there into the module (`Call.StemsFrom`).

Values that are held back give way to others of their property; that they are from different frames
stays so (`Origin.distinct_supersede`).
-/

namespace DaisyChain.Node

variable {M : Type}

/-! ### Origins -/

/-- The node takes part in the transaction of a request. -/
def Phase.Serves (request : Request) : Phase → Prop
  | .counting request' _ _ | .relaying request' _ _ => request' = request
  | .listening _ | .recovering | .sending .. | .committing _ => False

/-- In a run a node has accepted a header after the given bytes, and has taken part in its
transaction ever since. -/
def Station.Serving (table : Table M) (s : Station M) (past : List Station.Event)
    (before : List UInt8) (h : RawHeader) : Prop :=
  ∃ xs, xs <+: past ∧ s.read table xs = before ++ h.toList ∧
    (s.run table xs).engine.phase = .counting (.ofHeader h) (framesAfter h) none ∧
    ∀ ys, xs <+: ys → ys <+: past → (s.run table ys).engine.phase.Serves (.ofHeader h)

/-- What a node has read up to the end of the frame in which it has received a value: what came
before the header, the header, the frames before that of the value, and this frame. -/
structure Origin where
  before : List UInt8
  header : RawHeader
  others : List (List UInt8)
  frame : List UInt8
  /-- The data of the last frame. -/
  data : List UInt8

namespace Origin

/-- All that the node had read when the last frame ended. -/
def bytes (o : Origin) : List UInt8 :=
  o.before ++ o.header.toList ++ (o.others.flatten ++ o.frame)

/-- Where the last frame ends in what the node has read. -/
def finish (o : Origin) : Nat :=
  o.bytes.length

/-- The value that the node has received. -/
def slot (o : Origin) : Slot :=
  ⟨o.header.property, o.data⟩

/-- In a run a node has received a value from the given origin. -/
structure Received (table : Table M) (s : Station M) (past : List Station.Event) (o : Origin) :
    Prop where
  written : o.header.action = .write ∨ o.header.action = .broadcast
  even : o.header.evenParity = true
  turn : o.others.length + 1 = framesAfter o.header
  whole : ∀ bytes ∈ o.others, ∃ frame, Frame.Whole bytes frame
  taken : Frame.Whole o.frame (.data o.data)
  served : ∃ xs, xs <+: past ∧ s.read table xs = o.bytes ∧
    (s.run table xs).engine.phase = .counting (.ofHeader o.header) 0 (some o.data) ∧
    s.Serving table xs o.before o.header

/-- The origins of the values held back, once the value from the given origin is one of them. -/
def supersede (o : Origin) (held : List Origin) : List Origin :=
  if held.any fun old => old.header.property == o.header.property then
    held.map fun old => if old.header.property == o.header.property then o else old
  else
    held ++ [o]

/-- The values from these origins are those held back. -/
theorem slots_supersede (o : Origin) (held : List Origin) :
  (supersede o held).map slot = hold o.slot (held.map slot)
  := by
  have each : (slot ∘ fun old => if old.header.property == o.header.property then o else old) =
      fun old => if old.header.property == o.header.property then o.slot else old.slot := by
    funext old
    apply apply_ite
  simp only [supersede, hold, List.any_map, List.map_map, Function.comp_def, slot]
  split
  · rw [List.map_map, each]
    rfl
  · rw [List.map_append]
    rfl

/-- A value held back is the given one or has been held back before. -/
theorem mem_supersede {o o' : Origin} {held : List Origin} (member : o' ∈ supersede o held) :
  o' = o ∨ o' ∈ held
  := by
  rw [supersede] at member
  split at member
  · obtain ⟨old, before, rfl⟩ := List.mem_map.mp member
    split
    · exact .inl rfl
    · exact .inr before
  · rcases List.mem_append.mp member with before | last
    · exact .inr before
    · exact .inl (List.mem_singleton.mp last)

/-- No two values held back are of the same property. -/
theorem apart_supersede {o : Origin} {held : List Origin}
    (apart : held.Pairwise fun old old' => old.header.property ≠ old'.header.property) :
  (supersede o held).Pairwise fun old old' => old.header.property ≠ old'.header.property
  := by
  rw [supersede]
  split
  · rw [List.pairwise_map]
    have same (old : Origin) :
        (if old.header.property == o.header.property then o else old).header.property =
          old.header.property := by
      split
      · next here => exact (beq_iff_eq.mp here).symm
      · rfl
    simp only [same]
    exact apart
  · next new =>
    rw [List.pairwise_append]
    refine ⟨apart, List.pairwise_singleton _ _, fun old before last is => ?_⟩
    rw [List.mem_singleton.mp is]
    intro same
    exact new (List.any_eq_true.mpr ⟨old, before, beq_iff_eq.mpr same⟩)

/-- A value from a later frame takes the place of at most one other, so no two values are from the
same frame. -/
theorem distinct_supersede {o : Origin} {used held : List Origin}
    (apart : held.Pairwise fun old old' => old.header.property ≠ old'.header.property)
    (distinct : (used ++ held).Pairwise fun old old' => old.finish ≠ old'.finish)
    (later : ∀ old ∈ used ++ held, old.finish < o.finish) :
  (used ++ supersede o held).Pairwise fun old old' => old.finish ≠ old'.finish
  := by
  obtain ⟨first, second, between⟩ := List.pairwise_append.mp distinct
  have laterHeld {old : Origin} (member : old ∈ held) : old.finish < o.finish :=
    later old (List.mem_append_right _ member)
  rw [List.pairwise_append]
  refine ⟨first, ?_, fun old member old' member' => ?_⟩
  · rw [supersede]
    split
    · rw [List.pairwise_map]
      refine (apart.and second).imp_of_mem fun {old old'} member member' ⟨differ, ends⟩ => ?_
      have before := laterHeld member
      have before' := laterHeld member'
      split
      · next here =>
        split
        · next here' =>
          exact (differ ((beq_iff_eq.mp here).trans (beq_iff_eq.mp here').symm)).elim
        · omega
      · split
        · omega
        · exact ends
    · rw [List.pairwise_append]
      refine ⟨second, List.pairwise_singleton _ _, fun old before last is => ?_⟩
      rw [List.mem_singleton.mp is]
      exact Nat.ne_of_lt (laterHeld before)
  · rcases mem_supersede member' with rfl | before
    · exact Nat.ne_of_lt (later old (List.mem_append_left _ member))
    · exact between old member old' before

/-- A value from a later frame is from another frame than all others. -/
theorem distinct_insert {o : Origin} {used news held : List Origin}
    (distinct : (used ++ held).Pairwise fun old old' => old.finish ≠ old'.finish)
    (only : news.Sublist [o]) (later : ∀ old ∈ used ++ held, old.finish < o.finish) :
  (used ++ news ++ held).Pairwise fun old old' => old.finish ≠ old'.finish
  := by
  have joined : (o :: (used ++ held)).Pairwise fun old old' => old.finish ≠ old'.finish :=
    .cons (fun old member => Nat.ne_of_gt (later old member)) distinct
  have moved : (used ++ [o] ++ held).Perm (o :: (used ++ held)) := by
    rw [List.append_assoc]
    exact List.perm_middle
  have all := (moved.pairwise_iff Ne.symm).mpr joined
  exact all.sublist (((List.Sublist.refl used).append only).append (List.Sublist.refl held))

end Origin

/-- A call of a handler stems from an origin: a value has been received from there, and the call
puts it into the module as one of the property that the header names. -/
structure Call.StemsFrom (table : Table M) (s : Station M) (past : List Station.Event)
    (call : Call M) (o : Origin) : Prop where
  received : o.Received table s past
  puts : call.Puts table o.header.property o.data

namespace Station

variable {table : Table M} {s : Station M} {past : List Event} {event : Event} {now : UInt32}

/-! ### Taking part in a transaction -/

/-- A node that has just accepted a header takes part in its transaction. -/
theorem serving_start {before : List UInt8} {h : RawHeader}
    (read : s.read table past = before ++ h.toList)
    (counting : (s.run table past).engine.phase = .counting (.ofHeader h) (framesAfter h) none) :
  s.Serving table past before h
  := by
  refine ⟨past, List.prefix_rfl, read, counting, fun ys after upto => ?_⟩
  rw [← after.eq_of_length_le upto.length_le, counting]
  rfl

/-- A node goes on taking part in a transaction. -/
theorem Serving.on {before : List UInt8} {h : RawHeader} (serving : s.Serving table past before h)
    (serves : (s.run table (past ++ [event])).engine.phase.Serves (.ofHeader h)) :
  s.Serving table (past ++ [event]) before h
  := by
  obtain ⟨xs, begins, read, counting, since⟩ := serving
  refine ⟨xs, begins.trans (List.prefix_append _ _), read, counting, fun ys after upto => ?_⟩
  rcases List.prefix_concat_iff.mp upto with rfl | earlier
  · exact serves
  · exact since ys after earlier

/-- A value that has been received stays received. -/
theorem received_mono {o : Origin} {past' : List Event}
    (received : o.Received table s past) (begins : past <+: past') :
  o.Received table s past'
  := by
  obtain ⟨xs, earlier, served⟩ := received.served
  exact { received with served := ⟨xs, earlier.trans begins, served⟩ }

/-- The frame with a value ends within what has been read. -/
theorem finish_le {o : Origin} (received : o.Received table s past) :
  o.finish ≤ (s.read table past).length
  := by
  obtain ⟨xs, begins, read, -⟩ := received.served
  rw [Origin.finish, ← read]
  apply (s.read_prefix table begins).length_le

/-! ### Calls -/

/-- The calls by which values from the given origins are applied stem from some of them. -/
theorem calls_stem {os : List Origin} (received : ∀ o ∈ os, o.Received table s past) :
  ∃ news, news.Sublist os ∧ List.Forall₂ (fun o call => Call.StemsFrom table s past call o) news
    ((os.map Origin.slot).filterMap (Slot.call? table))
  := by
  induction os with
  | nil => exact ⟨[], List.Sublist.refl _, .nil⟩
  | cons o os ih =>
    obtain ⟨first, rest⟩ := List.forall_mem_cons.mp received
    obtain ⟨news, some, stem⟩ := ih rest
    rw [List.map_cons]
    cases is : o.slot.call? table with
    | none =>
      rw [List.filterMap_cons_none is]
      exact ⟨news, some.cons o, stem⟩
    | some call =>
      rw [List.filterMap_cons_some is]
      exact ⟨o :: news, some.cons_cons o, .cons ⟨first, puts_of_call? is⟩ stem⟩

end Station

end DaisyChain.Node
