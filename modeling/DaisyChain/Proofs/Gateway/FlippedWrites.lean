import DaisyChain.Proofs.Gateway.FlippedReads
import DaisyChain.Proofs.Gateway.Loads

/-!
# Writes over a link that flips a bit

What a write may do to the nodes if one bit of one of its frames is flipped on one of the links.

A node that finds no frame in what arrives takes nothing, and neither do the nodes behind it.  So
no node takes anything but what is meant for it, unless a zero has come or gone so that another
frame stands in the place of the one that was hit (`writeAll_of_flipped`).
-/

namespace DaisyChain

open Node

variable {M : Type}

/-! ### Frames that are hit -/

/-- A module takes nothing from data that go on behind the value of a module. -/
theorem Definition.deserialize_of_extension {d : Definition M} {source m : M}
    {data more : List UInt8}
    (laid : d.serialize source = .ok data) (begins : data <+: more) (proper : more ≠ data) :
  (d.deserialize more m).2 = m
  := by
  obtain ⟨value, wrapped⟩ := exists_wrap laid
  rw [deserialize]
  split
  · rfl
  · cases read : d.size.unwrap more with
    | error error => rfl
    | ok value' =>
      have same := PropertySize.eq_of_unwraps begins
        (PropertySize.unwrap_of_wrap wrapped) read
      exact (proper same.symm).elim

/-- A byte of a frame is to have one of its bits flipped. -/
def flipped (position : Nat) (bit : Fin 8) : List Disturbance :=
  [⟨position, some (1 <<< UInt8.ofNat bit.val)⟩]

namespace Frame

variable {bytes : List UInt8} {frame : Frame} {back : List (List UInt8)} {offset : Nat}
variable {bit : Fin 8}

/-- A frame that is hit with others behind it finds no frame in its place, whatever comes behind,
or it has lost its end, and there are no others. -/
theorem barren_or_clean_of_hit {awaited : Prop} (whole : Whole bytes frame)
    (within : offset < bytes.length)
    (caught : bytes[offset] ≠ 0 ∧ flipBit bit bytes[offset] ≠ 0 ∨
      Barren awaited ((bytes ++ back.flatten).modify offset (flipBit bit))) :
  (∀ more, Barren awaited ((bytes ++ back.flatten).modify offset (flipBit bit) ++ more)) ∨
    0 ∉ (bytes ++ back.flatten).modify offset (flipBit bit) ∧
      Barren awaited ((bytes ++ back.flatten).modify offset (flipBit bit))
  := by
  rcases caught with ⟨filled, filled'⟩ | barren
  · left
    intro more
    obtain ⟨front, byte, rest, split, length, changed⟩ := exists_modify_eq within (flipBit bit)
    have here : bytes[offset] = byte := by simp [split, ← length]
    rw [here] at filled filled'
    rw [modify_append_left within, changed, List.append_assoc _ back.flatten more]
    rw [split] at whole
    apply barren_of_changed whole filled (flipBit_ne bit byte) filled'
  · by_cases zero : 0 ∈ (bytes ++ back.flatten).modify offset (flipBit bit)
    · exact .inl (barren.append zero)
    · exact .inr ⟨zero, barren⟩

/-- If no zero is left of a frame that is hit with others behind it, it is the last one, and has
lost its end. -/
theorem unended_of_clean (whole : Whole bytes frame)
    (others : ∀ bytes ∈ back, ∃ frame, Whole bytes frame) (within : offset < bytes.length)
    (clean : 0 ∉ (bytes ++ back.flatten).modify offset (flipBit bit)) :
  back = [] ∧ ∃ body byte, bytes = body ++ [0] ∧ 0 ∉ body ∧ byte ≠ 0 ∧
    bytes.modify offset (flipBit bit) = body ++ [byte]
  := by
  obtain ⟨body, rfl, filled⟩ := whole.ends
  rw [modify_append_left within, List.mem_append, not_or] at clean
  constructor
  · cases back with
    | nil => rfl
    | cons first rest =>
      obtain ⟨-, ⟨start, rfl, -⟩, -, -⟩ := others first List.mem_cons_self
      apply (clean.2 (by simp)).elim
  · -- A byte before the end leaves the zero as it is.
    have last : offset = body.length := by
      by_contra before
      rw [List.length_append, List.length_singleton] at within
      rw [modify_append_left (by omega)] at clean
      apply clean.1 (by simp)
    have changed : (body ++ [0]).modify offset (flipBit bit) = body ++ [flipBit bit 0] := by
      rw [last]
      apply Chain.modify_length_append
    exact ⟨body, _, rfl, filled, flipBit_ne bit 0, changed⟩

end Frame

namespace Gateway

/-! ### What is sent -/

section Sent

variable {l : Load} {back : Prop} {o : Chain.Origin M} {sent : List UInt8}

/-- An acknowledge, and what may be sent behind it, is tame. -/
theorem tamed_queries (bound : Nat) :
  Tamed bound acknowledgeQuery ∧ Tamed bound (acknowledgeQuery ++ recordQuery)
  := by
  have read : Tame bound (recordQuery ++ ([].flatten ++ [])) :=
    .read (by decide) (by decide) (by simp) (by decide) (Nat.zero_le _) .nil
  exact ⟨⟨_, .ack .empty .nil, List.prefix_refl _⟩, ⟨_, .ack .empty read, List.prefix_refl _⟩⟩

/-- What a write sends begins its load, with something tame behind it. -/
theorem Departs.begun (departs : Departs l back o sent) (complete : back → l.Complete) :
  l.Begun (Tamed 0) sent
  := by
  rcases departs with begins | ⟨came, rfl | ⟨rfl, -⟩⟩
  · exact ⟨[], Journey.tamed_nil 0, .inl rfl, by rw [List.append_nil]; exact begins⟩
  · exact ⟨_, (tamed_queries 0).1, .inr (complete came), List.prefix_refl _⟩
  · rw [List.append_assoc]
    exact ⟨_, (tamed_queries 0).2, .inr (complete came), List.prefix_refl _⟩

/-- If nothing but a header comes back for the load and the acknowledge, a write sends no more than
the acknowledge behind its load. -/
theorem Departs.begun_single (departs : Departs l back o sent) (complete : back → l.Complete)
    (quiet : l.Begun (fun tail => Tamed 0 tail ∧ tail.length ≤ 1) (l.bytes ++ acknowledgeQuery) →
      (course o.table o.stages (l.bytes ++ acknowledgeQuery)).2.length ≤ Header.actionLength) :
  l.Begun (fun tail => Tamed 0 tail ∧ tail.length ≤ 1) sent
  := by
  have acknowledged (came : back) :
      l.Begun (fun tail => Tamed 0 tail ∧ tail.length ≤ 1) (l.bytes ++ acknowledgeQuery) :=
    ⟨_, ⟨(tamed_queries 0).1, Nat.le_refl 1⟩, .inr (complete came), List.prefix_refl _⟩
  rcases departs with begins | ⟨came, rfl | ⟨-, more⟩⟩
  · refine ⟨[], ⟨Journey.tamed_nil 0, Nat.zero_le _⟩, .inl rfl, ?_⟩
    rw [List.append_nil]
    apply begins
  · apply acknowledged came
  · exact (Nat.not_lt_of_le (quiet (acknowledged came)) more).elim

/-- If nothing comes back of a write, it sends a part of its load. -/
theorem Departs.begun_nothing (departs : Departs l back o sent) (lost : ¬back) :
  l.Begun (fun tail => tail = []) sent
  := by
  have begins := departs.resolve_right fun came => lost came.1
  exact ⟨[], rfl, .inl rfl, by rw [List.append_nil]; exact begins⟩

end Sent

/-! ### What is handed on -/

section Handed

variable {N : Nat} {d : Definition M} {property : PropertyId} {staged : Bool} {table : Table M}
variable {nodes : List (Engine × M)} {k : Nat} {front back : List (List UInt8)} {bytes : List UInt8}
variable {offset : Nat} {bit : Fin 8} {last : List Disturbance} {sent : List UInt8}

/-- A node takes nothing but its own frame if that frame has lost its end and a byte ends it that
comes behind. -/
theorem serves_unended (c : Collection M N) (found : table.find? property = some d)
    (writable : d.access.writable = true) (travels : property.Travels) {count : Nat}
    {recipients : Recipients} (few : count < countModulus)
    (aimed : recipients = .each count ∨ recipients = .all) (within : k < count)
    {body value : List UInt8} {byte : UInt8}
    (own : (c.loadOn d property staged recipients k).frames[
      framesAfter (c.loadOn d property staged recipients k).header - 1]? = some (body ++ [0]))
    (clean : 0 ∉ body) (filled : byte ≠ 0)
    (reads : Frame.decode (body ++ [byte] ++ [0]) = .ok (.data value)) (e : Engine) (m : M) :
  (c.loadOn d property staged recipients k).Serves table e m (Body.receive table e m
    (.ofHeader (c.loadOn d property staged recipients k).header) (some value)).module
  := by
  obtain ⟨meant, whole, data⟩ := exists_of_frameFor (c.frameFor_of_own few aimed within own)
  obtain ⟨start, is, begins⟩ := Frame.isPrefix_of_unterminated whole.reads clean filled reads
  by_cases same : value = start
  · subst same
    exact .inr ⟨_, .data value, own, is ▸ whole, rfl⟩
  · left
    obtain ⟨action, request⟩ := c.ofHeader_loadOn d staged travels recipients k
    obtain rfl : meant = some start := by
      cases meant with
      | none => cases is
      | some data => exact congrArg some (Frame.data.inj is)
    obtain ⟨source, -, laid⟩ := data start rfl
    rw [request, module_receive found writable]
    cases staged with
    | true => rfl
    | false => apply Definition.deserialize_of_extension laid begins same

/-- If there is a frame for each node, the loads of a write are complete. -/
theorem complete_each (c : Collection M N) {count : Nat} (few : count < countModulus)
    (all : (c.loadOn d property staged (.each count) 0).frames.length = count) (i : Nat) :
  (c.loadOn d property staged (.each count) i).Complete
  := by
  rw [Collection.loadOn_each_zero] at all
  rw [Load.Complete, c.framesAfter_loadOn few (.inl rfl) i, if_neg (by simp), Collection.loadOn,
    List.length_take, show (c.outgoing d property (.each count)).length = count from all]
  apply Nat.min_eq_left (Nat.sub_le _ _)

/-- What a write to each node sends is handed on if its last frame on the link to a node has lost
its end. -/
theorem handed_unended (c : Collection M N) (found : table.find? property = some d)
    (writable : d.access.writable = true) (travels : property.Travels)
    (few : nodes.length < countModulus) (hit : k < nodes.length) {body : List UInt8} {byte : UInt8}
    (split : (c.loadOn d property staged (.each nodes.length) k).frames = front ++ [body ++ [0]])
    (complete : (c.loadOn d property staged (.each nodes.length) k).Complete)
    (within : offset < (body ++ [0]).length) (clean : 0 ∉ body) (filled : byte ≠ 0)
    (changed : (body ++ [0]).modify offset (flipBit bit) = body ++ [byte]) :
  (c.journey d property staged few (.inl rfl)).Handed table k
    (flipped (3 + front.flatten.length + offset) bit) nodes
    (Journey.Unending (c.loadOn d property staged (.each nodes.length)) k)
  := by
  obtain ⟨frame, whole, -⟩ := c.whole_loadOn d property staged (.each nodes.length) k (body ++ [0])
    (by simp [split])
  have clean' : 0 ∉ body ++ [byte] := by
    rw [List.mem_append, List.mem_singleton, not_or]
    exact ⟨clean, filled.symm⟩
  have fits : (body ++ [byte]).length ≤ frameMax := by
    have short := whole.fits
    rw [List.length_append] at short ⊢
    apply short
  have own : (c.loadOn d property staged (.each nodes.length) k).frames[
      framesAfter (c.loadOn d property staged (.each nodes.length) k).header - 1]? =
        some (body ++ [0]) := by
    rw [← show _ = _ from complete, split, List.length_append]
    simp
  refine Journey.handed_of_unended (j := c.journey d property staged few (.inl rfl)) few hit
    (ActionHeader.action_pack _) complete split clean' fits ?_ ?_
  · intro stream begun
    obtain ⟨tail, ended, -, begins⟩ := begun.hit split (by simpa using within)
      (1 <<< UInt8.ofNat bit.val)
    refine ⟨tail, ended.2, ?_⟩
    rw [List.flatten_singleton] at begins
    rw [← changed]
    apply begins
  · intro value reads e m
    apply serves_unended c found writable travels few (.inl rfl) hit own clean filled reads

/-- Nothing but a header comes back of a write whose last frame on the link to a node has lost its
end. -/
theorem length_course_unending (c : Collection M N) (few : nodes.length < countModulus)
    (hit : k < nodes.length) {ds : List Disturbance}
    (handed : (c.journey d property staged few (.inl rfl)).Handed table k ds nodes
      (Journey.Unending (c.loadOn d property staged (.each nodes.length)) k))
    {stream : List UInt8} (begun : (c.loadOn d property staged (.each nodes.length) 0).Begun
      (fun tail => Tamed 0 tail ∧ tail.length ≤ 1) stream) :
  (course table (struck k ds nodes) stream).2.length ≤ Header.actionLength
  := by
  have final := handed.final (Journey.unending_zero begun)
  rw [Journey.Unending, if_neg (Nat.not_le_of_lt hit)] at final
  obtain ⟨tail, rfl, -, short⟩ := final
  have header : ((c.loadOn d property staged (.each nodes.length) nodes.length).bytes ++
      []).length = Header.actionLength := by
    rw [Collection.loadOn, Nat.sub_self, List.take_zero]
    rfl
  apply header ▸ short.length_le

/-- What a write to each node sends is handed on if a bit of a frame is flipped on the link to a
node. -/
theorem exists_handed_each (c : Collection M N) (found : table.find? property = some d)
    (writable : d.access.writable = true) (travels : property.Travels)
    (few : nodes.length < countModulus) (hit : k < nodes.length)
    (split : (c.loadOn d property staged (.each nodes.length) k).frames = front ++ bytes :: back)
    (within : offset < bytes.length)
    (caught : bytes[offset] ≠ 0 ∧ flipBit bit bytes[offset] ≠ 0 ∨
      Frame.Barren (front.length + 1 + k = nodes.length)
        ((bytes ++ back.flatten).modify offset (flipBit bit)))
    (departs : Departs (c.loadOn d property staged (.each nodes.length) 0)
      ((c.loadOn d property staged (.each nodes.length) 0).frames.length = nodes.length)
      ⟨table, struck k (flipped (3 + front.flatten.length + offset) bit) nodes, last⟩ sent) :
  ∃ P, (c.journey d property staged few (.inl rfl)).Handed table k
    (flipped (3 + front.flatten.length + offset) bit) nodes P ∧ P 0 sent
  := by
  let j := c.journey d property staged few (.inl rfl)
  have after : framesAfter (j.load k).header = nodes.length - k :=
    c.framesAfter_loadOn few (.inl rfl) k
  have all : (j.load 0).frames.length = nodes.length → (j.load 0).Complete :=
    fun came => complete_each c few came 0
  have wholes := c.whole_loadOn d property staged (.each nodes.length) k
  rw [split] at wholes
  obtain ⟨frame, whole, -⟩ := wholes bytes (by simp)
  have others : ∀ bytes ∈ back, ∃ frame, Frame.Whole bytes frame := by
    intro other member
    obtain ⟨frame, whole, -⟩ := wholes other (by simp [member])
    exact ⟨frame, whole⟩
  have inside : offset < (bytes :: back).flatten.length := by
    rw [List.flatten_cons, List.length_append]
    omega
  have awaits : front.length + 1 + k = nodes.length →
      front.length + 1 = framesAfter (j.load k).header := by omega
  rcases Frame.barren_or_clean_of_hit whole within caught with firm | ⟨clean, barren⟩
  · -- Whatever comes behind, no frame stands where the one was hit.
    refine ⟨_, Journey.handed_of_broken few Journey.endings_tamed fun _ stream begun => ?_, ?_⟩
    · apply begun.broken_of_hit (j.sound k hit).few split inside
      intro tail _ _
      apply (firm tail).mono awaits
    · apply Journey.breaking_zero (departs.begun all)
  · obtain ⟨rfl, body, byte, rfl, clean', filled, changed⟩ :=
      Frame.unended_of_clean whole others within clean
    by_cases complete : (j.load k).Complete
    · have handed := handed_unended c found writable travels few hit split complete within clean'
        filled changed
      exact ⟨_, handed, Journey.unending_zero (departs.begun_single all
        (length_course_unending c few hit handed))⟩
    · -- The write breaks off before its last frame, so nothing comes back.
      have lost : (j.load 0).frames.length ≠ nodes.length :=
        fun came => complete (complete_each c few came k)
      refine ⟨_, Journey.handed_of_broken few Journey.endings_nothing fun _ stream begun => ?_, ?_⟩
      · apply begun.broken_of_hit (j.sound k hit).few split inside
        rintro tail rfl -
        rw [List.append_nil]
        apply barren.mono awaits
      · apply Journey.breaking_zero (departs.begun_nothing lost)

/-- If what comes back of a broadcast has broken off, its frame does not come back. -/
theorem not_back_of_broken (c : Collection M N) {i : Nat} {stream head bytes : List UInt8}
    (broken : (c.loadOn d property staged .all i).Broken stream)
    (is : (c.loadOn d property staged .all i).frames = [bytes])
    (length : head.length = Header.actionLength) (begins : head ++ bytes <+: stream) :
  False
  := by
  obtain ⟨j, bad, before, -, barren, all⟩ := broken
  have alone : framesAfter (c.loadOn d property staged .all i).header = 1 := by
    simp [Collection.loadOn, framesAfter]
  obtain rfl : j = 0 := by omega
  obtain ⟨frame, whole, filled⟩ := c.whole_loadOn d property staged .all i bytes (by simp [is])
  obtain ⟨more, split⟩ := begins.trans all
  rw [List.append_assoc] at split
  have rest := (List.append_inj split length).2
  exact filled (barren bytes frame ⟨more, rest⟩ whole).2

/-- What a broadcast sends is handed on if a bit of its frame is flipped on a link. -/
theorem exists_handed_broadcast (c : Collection M N) (few : nodes.length < countModulus)
    (split : (c.loadOn d property staged .all k).frames = front ++ bytes :: back)
    (within : offset < bytes.length)
    (caught : k < nodes.length → bytes[offset] ≠ 0 ∧ flipBit bit bytes[offset] ≠ 0 ∨
      Frame.Barren True ((bytes ++ back.flatten).modify offset (flipBit bit)))
    {o : Chain.Origin M} (works : o.table = table)
    (stages : o.stages = struck k (flipped (3 + front.flatten.length + offset) bit) nodes)
    (quiet : k < nodes.length → o.last = [])
    (departs : Departs (c.loadOn d property staged .all 0)
      (∃ head bytes, (c.loadOn d property staged .all 0).frames = [bytes] ∧
        head.length = Header.actionLength ∧ head ++ bytes <+: (Disturbance.pass o.last
          (course o.table o.stages (c.loadOn d property staged .all 0).bytes).2).1) o sent) :
  ∃ P, (c.journey d property staged few (.inr rfl)).Handed table k
    (flipped (3 + front.flatten.length + offset) bit) nodes P ∧ P 0 sent
  := by
  let j := c.journey d property staged few (.inr rfl)
  have alone (i : Nat) : framesAfter (j.load i).header = 1 := c.framesAfter_loadOn few (.inr rfl) i
  by_cases hit : k < nodes.length
  · have awaits : True → front.length + 1 = framesAfter (j.load k).header := by
      have single := c.length_outgoing_all_le d property
      rw [show c.outgoing d property .all = _ from split, List.length_append, List.length_cons]
        at single
      rw [alone]
      omega
    obtain ⟨frame, whole, -⟩ := c.whole_loadOn d property staged .all k bytes (by simp [split])
    have handed : j.Handed table k (flipped (3 + front.flatten.length + offset) bit) nodes
        (Journey.Breaking j.load k fun _ tail => tail = []) := by
      refine Journey.handed_of_broken few Journey.endings_nothing fun _ stream begun => ?_
      apply begun.broken_of_hit (j.sound k hit).few split
      · rw [List.flatten_cons, List.length_append]
        omega
      · rintro tail rfl -
        rcases Frame.barren_or_clean_of_hit whole within (caught hit) with firm | ⟨-, barren⟩
        · apply (firm []).mono awaits
        · rw [List.append_nil]
          apply barren.mono awaits
    refine ⟨_, handed, Journey.breaking_zero (departs.begun_nothing ?_)⟩
    -- What comes back to the gateway is not what it has sent.
    rintro ⟨head, bytes', is, length, begins⟩
    have final := handed.final
      (Journey.breaking_zero ⟨[], rfl, .inl rfl, List.prefix_append _ _⟩)
    rw [Journey.Breaking, if_neg (Nat.not_le_of_lt hit)] at final
    rw [quiet hit, Disturbance.pass_nil, works, stages] at begins
    rcases final with broken | ⟨isWrite, -⟩
    · apply not_back_of_broken c broken is length begins
    · rw [show (j.load nodes.length).header.action = .broadcast from ActionHeader.action_pack _]
        at isWrite
      contradiction
  · refine ⟨_, Journey.handed_of_broken few Journey.endings_tamed
      fun within => (hit within).elim, ?_⟩
    apply Journey.breaking_zero (departs.begun _)
    rintro ⟨head, bytes', is, -⟩
    rw [Load.Complete, is]
    apply (alone 0).symm

end Handed

/-! ### Writes over a disturbed link -/

section Writes

variable {N : Nat} {d : Definition M} {property : PropertyId} {staged : Bool}

/-- If what has been sent to a chain is handed on from node to node, the modules of the nodes are
right. -/
theorem Session.Left.served {σ : Session (Site (Chain M) M N)} {table : Table M}
    {nodes : List (Engine × M)} {j : Journey nodes.length} {k : Nat} {ds : List Disturbance}
    {P : Nat → List UInt8 → Prop} {o : Chain.Origin M} {sent : List UInt8} (left : σ.Left o sent)
    (works : o.table = table) (stages : o.stages = struck k ds nodes)
    (handed : j.Handed table k ds nodes P) (first : P 0 sent) :
  σ.line.modules.length = nodes.length ∧ j.Served table nodes σ.line.modules
  := by
  obtain ⟨c, gone, underway, same⟩ := left
  rw [same]
  constructor
  · rw [Chain.modules, List.length_map, underway.path.length_eq, stages]
    simp [struck]
  · apply handed.served underway works stages first

variable [Inhabited M]

/-- If one bit of a frame of a write is flipped on a link of an idle chain, each node is served
by the load on the link to it, or takes nothing. -/
theorem serves_of_flipped {σ : Session (Site (Chain M) M N)} {c : Chain M} (g : Gateway M)
    {recipients : Recipients} (travels : property.Travels)
    (found : g.table.find? property = some d) (known : c.table.find? property = some d)
    (writable : d.access.writable = true) (gettable : d.get.isSome) (idle : c.Idle)
    (few : c.pairs.length < countModulus)
    (aimed : recipients = .each c.pairs.length ∨ recipients = .all) {k : Nat}
    (link : k ≤ c.pairs.length) {front back : List (List UInt8)} {bytes : List UInt8}
    (payload : (σ.collection.loadOn d property staged recipients k).frames = front ++ bytes :: back)
    {offset : Nat} (within : offset < bytes.length) (bit : Fin 8)
    (line : σ.line = c.disturb k
      (flipped (Header.actionLength + front.flatten.length + offset) bit))
    (caught : k < c.pairs.length → bytes[offset] ≠ 0 ∧ flipBit bit bytes[offset] ≠ 0 ∨
      Frame.Barren (recipients = .all ∨ front.length + 1 + k = c.pairs.length)
        ((bytes ++ back.flatten).modify offset (flipBit bit))) :
  let modules := ((g.writeAll property recipients staged : Act _ Unit).run σ).2.line.modules
  modules.length = c.pairs.length ∧ ∀ i n m, c.pairs[i]? = some n → modules[i]? = some m →
    (σ.collection.loadOn d property staged recipients i).Serves c.table n.1 n.2 m
  := by
  have count : c.pairs.length = c.nodes.length := List.length_map _
  change σ.line = c.disturb k (flipped (3 + front.flatten.length + offset) bit) at line
  have calm := idle.calm_disturb k (flipped (3 + front.flatten.length + offset) bit)
  have underway := calm.underway (idle.working_disturb k _)
  rw [idle.origin_disturb, ← line, ← count] at underway
  rw [← line] at calm
  rw [writeAll_eq g found writable gettable]
  rcases aimed with rfl | rfl
  · have hit : k < c.pairs.length := by
      apply Nat.lt_of_le_of_ne link
      rintro rfl
      simp [Collection.loadOn] at payload
    obtain ⟨sent, left, departs, -⟩ := left_writeEach g d staged travels few underway
    rw [← Collection.loadOn_each_zero] at departs
    have caught' : bytes[offset] ≠ 0 ∧ flipBit bit bytes[offset] ≠ 0 ∨
        Frame.Barren (front.length + 1 + k = c.pairs.length)
          ((bytes ++ back.flatten).modify offset (flipBit bit)) :=
      (caught hit).imp_right fun barren => barren.mono fun awaits => by simpa using awaits
    obtain ⟨P, handed, first⟩ := exists_handed_each σ.collection known writable travels few hit
      payload within caught' departs
    exact left.served rfl rfl handed first
  · obtain ⟨sent, left, departs⟩ := left_broadcast g d staged travels calm underway
    obtain ⟨P, handed, first⟩ := exists_handed_broadcast σ.collection few payload within
      (fun hit => (caught hit).imp_right fun barren => barren.mono fun _ => trivial) rfl rfl
      (fun hit => if_neg (Nat.ne_of_lt hit)) departs
    exact left.served rfl rfl handed first

/-- If one bit of a frame of a write is flipped on a link of an idle chain, no node takes
anything but what the write means for it, as long as no whole frame stands in the place of the
one that was hit.  None does if the byte is zero neither before nor afterwards.  An empty frame
may stand there if the node that it comes to awaits a value.  On the link back to the gateway any
bit may be flipped. -/
theorem writeAll_of_flipped {σ : Session (Site (Chain M) M N)} {c : Chain M} (g : Gateway M)
    {recipients : Recipients} (travels : property.Travels)
    (found : g.table.find? property = some d) (known : c.table.find? property = some d)
    (idle : c.Idle) (few : c.nodes.length < countModulus)
    (aimed : recipients = .each c.nodes.length ∨ recipients = .all) {k : Nat}
    (link : k ≤ c.nodes.length) {front back : List (List UInt8)} {bytes : List UInt8}
    (payload : (σ.collection.loadOn d property staged recipients k).frames = front ++ bytes :: back)
    {offset : Nat} (within : offset < bytes.length) (bit : Fin 8)
    (line : σ.line = c.disturb k
      (flipped (Header.actionLength + front.flatten.length + offset) bit))
    (caught : k < c.nodes.length → bytes[offset] ≠ 0 ∧ flipBit bit bytes[offset] ≠ 0 ∨
      Frame.Barren (recipients = .all ∨ front.length + 1 + k = c.nodes.length)
        ((bytes ++ back.flatten).modify offset (flipBit bit))) :
  let result := (g.writeAll property recipients staged : Act _ Unit).run σ
  result.2.line.nodes.length = c.nodes.length ∧
    ∀ i node node', c.nodes[i]? = some node → result.2.line.nodes[i]? = some node' →
      TakesOnly d staged (σ.collection.meant property recipients i) node.module node'.module
  := by
  intro result
  have count : c.pairs.length = c.nodes.length := List.length_map _
  by_cases sendable : d.access.writable = true ∧ d.get.isSome
  · rw [← count] at few aimed link caught
    obtain ⟨length, serves⟩ := serves_of_flipped g travels found known sendable.1 sendable.2
      idle few aimed link payload within bit line caught
    refine ⟨?_, fun i node node' here there => ?_⟩
    · rw [← count, ← length]
      apply (List.length_map _).symm
    · have pair : c.pairs[i]? = some node.pair := by
        rw [Chain.pairs, List.getElem?_map, here]
        rfl
      have module : result.2.line.modules[i]? = some node'.module := by
        rw [Chain.modules, List.getElem?_map, there]
        rfl
      apply σ.collection.takesOnly_of_serves known sendable.1 travels few aimed
        (List.getElem?_eq_some_iff.mp pair).1 (serves i _ _ pair module)
  · -- Nothing is sent.
    have refused : result = (.error .notSupported, σ) := by
      have unsendable : d.access.writable = false ∨ d.get.isNone := by
        rw [Decidable.not_and_iff_or_not, Bool.not_eq_true, Bool.not_eq_true] at sendable
        apply sendable.imp_right
        simp
      simp only [result, writeAll, found, unsendable, if_true]
      rfl
    have modules : σ.line.modules = c.modules := by
      rw [line]
      apply c.map_modifyLink k _ fun _ _ => rfl
    rw [refused]
    refine ⟨by simpa [Chain.modules] using congrArg List.length modules,
      fun i node node' here there => .inl ?_⟩
    have same := congrArg (fun l : List M => l[i]?) modules
    simp only [Chain.modules, List.getElem?_map, here, there, Option.map_some, Option.some.injEq]
      at same
    apply same

end Writes

/-- Three nodes, on the link to the first of which a bit is flipped, and a display of one module,
which waits to be written. -/
def hitWriting (position : Nat) (bit : Fin 8) : Session (Site (Chain UInt8) UInt8 4) where
  env := {
    line := (Chain.ofModules ⟨[shy]⟩ [1, 2, 3] 1024 0).disturb 0 (flipped position bit)
    display := {
      collection := {
        entries := [{ module := 9, marks := PropertySet.empty.insert ⟨6⟩ }] } } }

/-- No node takes anything but its own value if the frame for the first node has lost its end. -/
theorem writeAll_of_flipped_end :
  let result := ((⟨⟨[shy]⟩, {}⟩ : Gateway UInt8).writeAll ⟨6⟩ (.each 3) false :
    Act _ Unit).run (hitWriting 14 0)
  result.2.line.nodes.length = 3 ∧
    ∀ i node node', (Chain.ofModules ⟨[shy]⟩ [1, 2, 3] 1024 0).nodes[i]? = some node →
      result.2.line.nodes[i]? = some node' →
      TakesOnly shy false (if i = 0 then some 9 else none) node.module node'.module
  := by
  have frames : ((hitWriting 14 0).collection.loadOn shy ⟨6⟩ false (.each 3) 0).frames =
      [[1, 1, 1, 0], [1, 1, 1, 0]] ++ [[3, 9, 246, 0]] := by decide
  have travels : (⟨6⟩ : PropertyId).Travels := by decide
  have clean :
      (0 : UInt8) ∉ (([3, 9, 246, 0] : List UInt8) ++ [].flatten).modify 3 (flipBit 0) := by
    decide
  obtain ⟨length, takes⟩ := writeAll_of_flipped (σ := hitWriting 14 0) ⟨⟨[shy]⟩, {}⟩ travels rfl rfl
    (Chain.idle_ofModules ⟨[shy]⟩ [1, 2, 3] (show frameMax < 1024 by decide) 0) (by decide)
    (.inl rfl) (Nat.zero_le _) frames (show 3 < 4 by decide) 0 rfl fun _ =>
      .inr (Frame.barren_of_clean clean)
  refine ⟨length, fun i node node' here there => ?_⟩
  have meant : (hitWriting 14 0).collection.meant ⟨6⟩ (.each 3) i =
      if i = 0 then some 9 else none := by
    cases i <;> rfl
  rw [← meant]
  apply takes i node node' here there

/-- If the frame that has lost its end is a placeholder, it and the one behind it become a single
placeholder, and the second node takes the value that is meant for the first one. -/
theorem writeAll_merges_placeholders :
  let result := ((⟨⟨[shy]⟩, {}⟩ : Gateway UInt8).writeAll ⟨6⟩ (.each 3) false :
    Act _ Unit).run (hitWriting 6 0)
  (Chain.ofModules ⟨[shy]⟩ [1, 2, 3] 1024 0).Idle ∧
    ((hitWriting 6 0).collection.loadOn shy ⟨6⟩ false (.each 3) 0).frames =
      [[1, 1, 1, 0], [1, 1, 1, 0], [3, 9, 246, 0]] ∧
    (hitWriting 6 0).line = (Chain.ofModules ⟨[shy]⟩ [1, 2, 3] 1024 0).disturb 0 (flipped 6 0) ∧
    (hitWriting 6 0).collection.meant ⟨6⟩ (.each 3) 1 = none ∧
    result.2.line.modules = [1, 9, 3] ∧ ¬TakesOnly shy false none 2 9
  := by
  have idle : (Chain.ofModules ⟨[shy]⟩ ([1, 2, 3] : List UInt8) 1024 0).Idle :=
    Chain.idle_ofModules _ _ (by decide) _
  refine ⟨idle, by decide, rfl, rfl, ?_, by simp [TakesOnly]⟩
  have travels : (⟨6⟩ : PropertyId).Travels := by decide
  have underway := (idle.calm_disturb 0 (flipped 6 0)).underway (idle.working_disturb 0 _)
  rw [idle.origin_disturb] at underway
  obtain ⟨sent, ⟨c, gone, further, same⟩, departs, all⟩ := left_writeEach (σ := hitWriting 6 0)
    ⟨⟨[shy]⟩, {}⟩ shy false travels (show 3 < countModulus by decide) underway
  have load : ActionHeader.pack ⟨.write, false, ⟨6⟩, 3⟩ = ⟨65, 131, 1⟩ := by decide
  have frames : (hitWriting 6 0).env.display.collection.outgoing shy ⟨6⟩ (.each 3) =
    [[1, 1, 1, 0], [1, 1, 1, 0], [3, 9, 246, 0]] := by decide
  simp only [load, frames, Departs] at departs all
  have begins := all (by decide) rfl
  -- In each case the whole load is sent, and the nodes come to the same.
  have becomes (more : List UInt8)
      (few : more = [] ∨ more = acknowledgeQuery ∨ more = acknowledgeQuery ++ recordQuery) :
      let r := course ⟨[shy]⟩ (struck 0 (flipped 6 0)
        (Chain.ofModules ⟨[shy]⟩ ([1, 2, 3] : List UInt8) 1024 0).pairs)
        (Load.bytes ⟨⟨65, 131, 1⟩, [[1, 1, 1, 0], [1, 1, 1, 0], [3, 9, 246, 0]]⟩ ++ more)
      r.2.length ≤ frameMax ∧ (r.1.map fun s => s.body.module) = [1, 9, 3] := by
    rcases few with rfl | rfl | rfl <;> decide +kernel
  have cases : ∃ more, (more = [] ∨ more = acknowledgeQuery ∨
      more = acknowledgeQuery ++ recordQuery) ∧
      sent = Load.bytes ⟨⟨65, 131, 1⟩, [[1, 1, 1, 0], [1, 1, 1, 0], [3, 9, 246, 0]]⟩ ++ more := by
    rcases departs with part | ⟨-, is | ⟨is, -⟩⟩
    · refine ⟨[], .inl rfl, ?_⟩
      rw [List.append_nil]
      apply part.eq_of_length (Nat.le_antisymm part.length_le begins.length_le)
    · exact ⟨_, .inr (.inl rfl), is⟩
    · exact ⟨_, .inr (.inr rfl), by rw [is, List.append_assoc]⟩
  obtain ⟨more, few, rfl⟩ := cases
  exact same.trans ((further.modules_eq (becomes more few).1).trans (becomes more few).2)

end Gateway

end DaisyChain
