import DaisyChain.Proofs.Chain.Flow
import DaisyChain.Proofs.Node.Exchange
import Mathlib.Data.List.Forall2

/-!
# A chain in a transaction

What nodes in a row, all of them listening, make of a transaction: a read collects a frame
from each of them (`flow_read`), a write leaves each of them its own frame (`flow_write`), a
broadcast leaves each of them the same one (`flow_broadcast`), and an acknowledge collects the
categories of their faults (`flow_ack`).  As soon as one of the nodes recovers, an acknowledge
comes back as zero (`flow_ack_of_recovering`).
-/

namespace DaisyChain

open Node

variable {M : Type} (table : Table M)

/-! ### Unions of categories -/

namespace Categories

/-- The set without any category adds nothing. -/
theorem union_empty (a : Categories) :
  a ∪ empty = a
  := by
  rcases a with ⟨_ | _, _ | _, _ | _, _ | _⟩ <;> rfl

/-- The order in which categories are added does not matter. -/
theorem union_assoc (a b c : Categories) :
  a ∪ b ∪ c = a ∪ (b ∪ c)
  := by
  change union (union a b) c = union a (union b c)
  simp only [union, Bool.or_assoc]

end Categories

/-! ### Identifiers that travel -/

/-- All bits of the identifier travel on the line. -/
def PropertyId.Travels (id : PropertyId) : Prop :=
  id.number.toNat < 128

instance (id : PropertyId) : Decidable id.Travels :=
  inferInstanceAs (Decidable (_ < _))

/-- An identifier that travels arrives as it was sent. -/
theorem PropertyId.Travels.ofNat_wire {id : PropertyId} (travels : id.Travels) :
  (⟨UInt8.ofNat id.wire⟩ : PropertyId) = id
  := by
  obtain ⟨number⟩ := id
  have small : number.toNat < 128 := travels
  rw [PropertyId.wire, Nat.mod_eq_of_lt small, UInt8.ofNat_toNat]

/-- A header with a property that travels and a count that fits is the one it is built from. -/
theorem PropertyId.Travels.of?_eq {id : PropertyId} (travels : id.Travels) {action : Action}
    (acts : action ≠ .sync) (flag : Bool) {count : Nat} (few : count < countModulus) :
  ActionHeader.of? action flag id count = some ⟨action, flag, id, count⟩
  := by
  rw [ActionHeader.of?, if_neg acts, travels.ofNat_wire, Nat.mod_eq_of_lt few]

/-- A real property travels. -/
theorem PropertyId.travels_of_le {p : PropertyId} (real : p.number.toNat ≤ PropertyId.max) :
  p.Travels
  := Nat.lt_of_le_of_lt real (by decide)

/-- A real property does not ask for records. -/
theorem PropertyId.isErrorQuery_of_le {p : PropertyId} (real : p.number.toNat ≤ PropertyId.max) :
  p.isErrorQuery = false
  := by
  rw [isErrorQuery, beq_eq_false_iff_ne]
  rintro rfl
  exact absurd real (by decide)

/-- Properties that travel are told apart by their numbers on the line. -/
theorem PropertyId.Travels.eq_of_wire {p q : PropertyId} (first : p.Travels) (second : q.Travels)
    (same : p.wire = q.wire) :
  p = q
  := by
  rw [← first.ofNat_wire, ← second.ofNat_wire, same]

/-- The request of a written header. -/
theorem Node.Request.ofHeader_pack {h : ActionHeader} (travels : h.property.Travels) :
  Request.ofHeader h.pack = ⟨h.action, h.flag, h.property⟩
  := by
  simp [Request.ofHeader, travels.ofNat_wire]

/-! ### Nodes that listen -/

/-- Nodes that listen for a header. -/
def listeners (nodes : List (Engine × M)) : List (Body M) :=
  nodes.map fun n => Body.listener n.1 n.2

/-- Of several nodes that listen, the first is one. -/
theorem listeners_cons (n : Engine × M) (rest : List (Engine × M)) :
  listeners (n :: rest) = Body.listener n.1 n.2 :: listeners rest
  := rfl

/-- The answer of a node to a read. -/
def replyOf (property : PropertyId) (n : Engine × M) : List UInt8 × Option Record :=
  answer table n.2 property n.1.record

/-- The node after it has answered a read. -/
def answered (property : PropertyId) (n : Engine × M) : Engine × M :=
  ({ n.1 with record := (replyOf table property n).2 }, n.2)

/-- The value with which a node answers a read, or the fault that stands in its way. -/
def valueOf (property : PropertyId) (n : Engine × M) : Except Fault (List UInt8) :=
  if property.isErrorQuery then .ok (reportOf n.1.record) else fetch table n.2 property

/-- The frame with which a node answers a read. -/
def said (property : PropertyId) (n : Engine × M) : Frame :=
  match valueOf table property n with
  | .ok data => if valueMax < data.length then .empty else .data data
  | .error _ => .empty

/-- A node with a value that fits a frame answers with it, and keeps its record unless it was
asked for that. -/
theorem replyOf_of_value {property : PropertyId} {n : Engine × M} {data : List UInt8}
    (value : valueOf table property n = .ok data) (short : data.length ≤ valueMax) :
  replyOf table property n = (Stuffing.stuff (data ++ [Frame.checksum data]),
    if property.isErrorQuery then none else n.1.record)
  := by
  rw [valueOf] at value
  simp only [replyOf, answer, value, Except.bind, Frame.encode, Nat.not_lt_of_le short, if_false]
  rfl

/-- A node without a value that fits a frame answers with a terminator alone. -/
theorem replyOf_of_none {property : PropertyId} {n : Engine × M}
    (none : ∀ data, valueOf table property n = .ok data → valueMax < data.length) :
  (replyOf table property n).1 = [0]
  := by
  rw [valueOf] at none
  simp only [replyOf, answer]
  cases value : (if property.isErrorQuery = true then Except.ok (reportOf n.1.record)
      else fetch table n.2 property) with
  | error fault => rfl
  | ok data =>
    simp only [Except.bind, Frame.encode, none data value, if_true]
    rfl

/-- The bytes with which a node answers a read are the frame that it says. -/
theorem whole_said (property : PropertyId) (n : Engine × M) :
  Frame.Whole (replyOf table property n).1 (said table property n)
  := by
  rw [said]
  cases value : valueOf table property n with
  | error fault =>
    rw [replyOf_of_none table fun data is => by rw [value] at is; contradiction]
    apply Frame.whole_terminator
  | ok data =>
    by_cases long : valueMax < data.length
    · simp only [long, if_true]
      rw [replyOf_of_none table fun other is => by rw [value] at is; cases is; exact long]
      apply Frame.whole_terminator
    · simp only [long, if_false]
      rw [replyOf_of_value table value (Nat.le_of_not_lt long)]
      apply Frame.whole_of_encode (by rw [Frame.encode, if_neg long])

/-- No node answers a read with a placeholder. -/
theorem said_ne_placeholder (property : PropertyId) (n : Engine × M) :
  said table property n ≠ .placeholder
  := by
  rw [said]
  split
  · split <;> simp
  · simp

/-- The bytes with which nodes answer a read are the frames that they say. -/
theorem whole_replies (property : PropertyId) (nodes : List (Engine × M)) :
  List.Forall₂ Frame.Whole (nodes.map fun n => (replyOf table property n).1)
    (nodes.map (said table property))
  := by
  rw [List.forall₂_map_left_iff, List.forall₂_map_right_iff, List.forall₂_same]
  intro n _
  apply whole_said

/-- No answer to a read is a placeholder. -/
theorem said_answers (property : PropertyId) (nodes : List (Engine × M)) :
  ∀ frame ∈ nodes.map (said table property), frame ≠ .placeholder
  := by
  intro frame member
  obtain ⟨n, _, rfl⟩ := List.mem_map.mp member
  apply said_ne_placeholder

/-- The data with which a node answers a read are its value. -/
theorem fetch_of_said {property : PropertyId} {n : Engine × M} {data : List UInt8}
    (real : property.isErrorQuery = false) (sent : said table property n = .data data) :
  fetch table n.2 property = .ok data
  := by
  rw [said, valueOf, real, if_neg Bool.false_ne_true] at sent
  split at sent
  · next value is =>
    split at sent
    · contradiction
    · cases sent
      apply is
  · contradiction

/-- A node whose value fits a frame answers a read with it. -/
theorem said_of_fetch {property : PropertyId} {n : Engine × M} {data : List UInt8}
    (real : property.isErrorQuery = false) (value : fetch table n.2 property = .ok data)
    (short : data.length ≤ valueMax) :
  said table property n = .data data
  := by
  rw [said, valueOf, real, if_neg Bool.false_ne_true, value]
  apply if_neg (Nat.not_lt_of_le short)

/-- A node with a value that fits a frame stays as it is when it is read. -/
theorem answered_of_value {property : PropertyId} {n : Engine × M} {data : List UInt8}
    (real : property.isErrorQuery = false) (value : valueOf table property n = .ok data)
    (short : data.length ≤ valueMax) :
  answered table property n = n
  := by
  rw [answered, replyOf_of_value table value short, real]
  rfl

/-- A node that was asked for its record says it. -/
theorem said_errorQuery (n : Engine × M) :
  said table .errorQuery n = .data (reportOf n.1.record)
  := by
  have asked : PropertyId.errorQuery.isErrorQuery = true := by decide
  have short : ¬valueMax < (reportOf n.1.record).length := by
    cases n.1.record <;> simp [reportOf, valueMax]
  simp only [said, valueOf, asked, if_true, short, if_false]

/-- A node that was asked for its record forgets it. -/
theorem answered_errorQuery (n : Engine × M) :
  answered table .errorQuery n = ({ n.1 with record := none }, n.2)
  := by
  have asked : PropertyId.errorQuery.isErrorQuery = true := by decide
  have short : (reportOf n.1.record).length ≤ valueMax := by
    cases n.1.record <;> simp [reportOf, valueMax]
  rw [answered, replyOf_of_value table (by rw [valueOf, asked, if_pos rfl]) short, asked,
    if_pos rfl]

/-- A read that passes nodes that listen comes back with the frames of all of them behind those
that it had, and with the flag set if one of them has a record. -/
theorem flow_read {property : PropertyId} (travels : property.Travels)
    (nodes : List (Engine × M)) (flag : Bool) (frames : List (List UInt8))
    (whole : ∀ bytes ∈ frames, ∃ frame, Frame.Whole bytes frame)
    (short : frames.length + nodes.length < countModulus) :
  flow table (listeners nodes)
      ((ActionHeader.pack ⟨.read, flag, property, frames.length⟩).toList ++ frames.flatten) =
    (listeners (nodes.map (answered table property)),
      (ActionHeader.pack ⟨.read, flag || nodes.any fun n => n.1.record.isSome, property,
        frames.length + nodes.length⟩).toList ++
        (frames ++ nodes.map fun n => (replyOf table property n).1).flatten)
  := by
  induction nodes generalizing flag frames with
  | nil => simp [flow, listeners]
  | cons n rest ih =>
    rw [List.length_cons] at short
    have small : frames.length % countModulus = frames.length := Nat.mod_eq_of_lt (by omega)
    have next : countAfter .read (frames.length % countModulus) = frames.length + 1 := by
      rw [small]
      apply Nat.mod_eq_of_lt (by omega)
    have reply := Body.digest_read table n.1 n.2
      (h := ActionHeader.pack ⟨.read, flag, property, frames.length⟩) (by simp) (by simp) whole
      (by simp [small]) (by omega)
    rw [forward_pack (by simp [accepts]), ActionHeader.property_pack, travels.ofNat_wire,
      next] at reply
    have first : (Body.listener n.1 n.2).digest table
        ((ActionHeader.pack ⟨.read, flag, property, frames.length⟩).toList ++ frames.flatten) =
        (Body.listener (answered table property n).1 (answered table property n).2,
          (ActionHeader.pack ⟨.read, flag || n.1.record.isSome, property,
            frames.length + 1⟩).toList ++ (frames.flatten ++ (replyOf table property n).1)) :=
      reply
    have wholes : ∀ bytes ∈ frames ++ [(replyOf table property n).1],
        ∃ frame, Frame.Whole bytes frame := by
      intro bytes member
      rcases List.mem_append.mp member with before | last
      · apply whole bytes before
      · rw [List.mem_singleton.mp last]
        exact ⟨_, whole_said table property n⟩
    have others := ih (flag || n.1.record.isSome) _ wholes
      (by rw [List.length_append, List.length_singleton]; omega)
    rw [List.length_append, List.length_singleton, List.flatten_append,
      List.flatten_singleton] at others
    rw [listeners_cons, flow, first]
    simp only [others, List.map_cons, listeners_cons, List.any_cons, List.length_cons,
      Bool.or_assoc, List.append_assoc, List.singleton_append, Nat.add_assoc, Nat.add_comm 1]

/-! ### Writes -/

/-- A node with the bytes of the frame meant for it, and what that frame says. -/
structure Parcel (M : Type) where
  node : Engine × M
  bytes : List UInt8
  frame : Frame

/-- The bytes of a parcel are a frame that a node may keep. -/
def Parcel.Sealed (p : Parcel M) : Prop :=
  Frame.Whole p.bytes p.frame ∧ p.frame ≠ .empty

/-- The node of a parcel after it has received it. -/
def Parcel.received (request : Request) (p : Parcel M) : Body M :=
  Body.receive table p.node.1 p.node.2 request p.frame.value?

/-- A write that passes nodes that listen leaves each of them its own frame, the last one to the
first node, and comes back with the frames that are left. -/
theorem flow_write {property : PropertyId} (travels : property.Travels) (staged : Bool)
    {parcels : List (Parcel M)} (closed : ∀ p ∈ parcels, p.Sealed) (extra : List (List UInt8))
    (whole : ∀ bytes ∈ extra, ∃ frame, Frame.Whole bytes frame)
    (short : extra.length + parcels.length < countModulus) :
  flow table (listeners (parcels.map Parcel.node))
      ((ActionHeader.pack ⟨.write, staged, property, extra.length + parcels.length⟩).toList ++
        (extra ++ (parcels.map Parcel.bytes).reverse).flatten) =
    (parcels.map (Parcel.received table ⟨.write, staged, property⟩),
      (ActionHeader.pack ⟨.write, staged, property, extra.length⟩).toList ++ extra.flatten)
  := by
  induction parcels with
  | nil => simp [flow, listeners]
  | cons p rest ih =>
    rw [List.length_cons] at short
    have small : (extra.length + (rest.length + 1)) % countModulus =
        extra.length + (rest.length + 1) := Nat.mod_eq_of_lt short
    have next : countAfter .write (extra.length + (rest.length + 1)) =
        extra.length + rest.length := by
      simp only [countAfter, countMax, countModulus] at short ⊢
      omega
    have wholes : ∀ bytes ∈ extra ++ (rest.map Parcel.bytes).reverse,
        ∃ frame, Frame.Whole bytes frame := by
      intro bytes member
      rcases List.mem_append.mp member with before | behind
      · apply whole bytes before
      · obtain ⟨q, among, rfl⟩ := List.mem_map.mp (List.mem_reverse.mp behind)
        exact ⟨q.frame, (closed q (List.mem_cons_of_mem _ among)).1⟩
    obtain ⟨mine, useful⟩ := closed p List.mem_cons_self
    have first := Body.digest_write table p.node.1 p.node.2
      (h := ActionHeader.pack ⟨.write, staged, property, extra.length + (rest.length + 1)⟩)
      (by simp) (by simp) wholes (by simp [small, Nat.add_assoc]) mine useful
    rw [forward_pack (by simp [accepts, small]), Request.ofHeader_pack travels, small,
      next] at first
    have others := ih (fun q member => closed q (List.mem_cons_of_mem _ member)) (by omega)
    rw [List.length_cons, List.map_cons, List.map_cons, List.reverse_cons, ← List.append_assoc,
      List.flatten_append, List.flatten_singleton, listeners_cons, flow]
    simp only [first, reduceCtorEq, decide_false, Bool.false_and, Bool.or_false, others]
    rfl

/-! ### Broadcasts -/

/-- The node after it has received a value that all nodes receive. -/
def reached (request : Request) (value : Option (List UInt8)) (n : Engine × M) : Body M :=
  Body.receive table n.1 n.2 request value

/-- A broadcast that passes nodes that listen leaves each of them its frame, and comes back with
all of it. -/
theorem flow_broadcast {property : PropertyId} (travels : property.Travels) (staged : Bool)
    (nodes : List (Engine × M)) (count : Nat) {bytes : List UInt8} {frame : Frame}
    (whole : Frame.Whole bytes frame) (useful : frame ≠ .empty)
    (short : count + nodes.length < countModulus) :
  flow table (listeners nodes)
      ((ActionHeader.pack ⟨.broadcast, staged, property, count⟩).toList ++ bytes) =
    (nodes.map (reached table ⟨.broadcast, staged, property⟩ frame.value?),
      (ActionHeader.pack ⟨.broadcast, staged, property, count + nodes.length⟩).toList ++ bytes)
  := by
  induction nodes generalizing count with
  | nil => rfl
  | cons n rest ih =>
    rw [List.length_cons] at short
    have small : count % countModulus = count := Nat.mod_eq_of_lt (by omega)
    have next : countAfter .broadcast count = count + 1 := Nat.mod_eq_of_lt (by omega)
    have first := Body.digest_broadcast table n.1 n.2
      (h := ActionHeader.pack ⟨.broadcast, staged, property, count⟩) (by simp) (by simp) whole
      useful
    rw [forward_pack (by simp [accepts]), Request.ofHeader_pack travels, small, next] at first
    have others := ih (count + 1) (by omega)
    rw [listeners_cons, flow, first]
    simp only [reduceCtorEq, decide_false, Bool.false_and, Bool.or_false, others,
      List.length_cons, Nat.add_assoc, Nat.add_comm 1]
    rfl

/-! ### Acknowledges -/

/-- The categories of the faults that nodes have recorded. -/
def faultsOf (nodes : List (Engine × M)) : Categories :=
  nodes.foldr (fun n categories => categoriesOf n.1.lastFault ∪ categories) .empty

/-- Nodes without records have no faults. -/
theorem faultsOf_of_unrecorded {nodes : List (Engine × M)}
    (unrecorded : ∀ n ∈ nodes, n.1.record = none) :
  faultsOf nodes = .empty
  := by
  induction nodes with
  | nil => rfl
  | cons n rest ih =>
    have first : categoriesOf n.1.lastFault = .empty := by
      rw [Engine.lastFault, unrecorded n List.mem_cons_self]
      rfl
    have others := ih fun other member => unrecorded other (List.mem_cons_of_mem _ member)
    rw [faultsOf, List.foldr_cons, first, ← faultsOf, others, Categories.empty_union]

/-- An acknowledge that passes nodes that listen collects the categories of their faults. -/
theorem flow_ack (nodes : List (Engine × M)) (categories : Categories) :
  flow table (listeners nodes) [SyncHeader.pack ⟨.ack, categories⟩] =
    (listeners nodes, [SyncHeader.pack ⟨.ack, categories ∪ faultsOf nodes⟩])
  := by
  induction nodes generalizing categories with
  | nil => rw [faultsOf, List.foldr_nil, Categories.union_empty]; rfl
  | cons n rest ih =>
    rw [listeners_cons, flow, Body.digest_ack]
    simp only [ih, Categories.union_assoc]
    rfl

end DaisyChain
