import DaisyChain.Proofs.Chain.Spoilt
import DaisyChain.Proofs.Gateway.Sent

/-!
# Writes on the links

What a write of a site puts on each link of a chain (`Collection.loadOn`).  A write to each node
leaves one frame at every node that it passes, and a broadcast counts the nodes, so the loads are
those of a journey from node to node (`Collection.journey`).  The frame that a node keeps of such
a load is the one that is meant for it (`Collection.frameFor_of_own`), so a node that is served by
the load takes the value of its module, or nothing (`Collection.takesOnly_of_serves`).
-/

namespace DaisyChain.Gateway

open Node

variable {M : Type} {N : Nat} {d : Definition M} {property : PropertyId} {staged : Bool}

/-! ### The frames of a write -/

/-- A frame below an index is the frame for the node that is as far from the end. -/
theorem frameFor_of_framesBelow {means : Nat → Option M} {count j : Nat} {bytes : List UInt8}
    (here : (framesBelow d means count)[j]? = some bytes) :
  j < count ∧ frameFor d (means (count - 1 - j)) = some bytes
  := by
  induction count generalizing j with
  | zero => cases here
  | succ index ih =>
    rw [framesBelow] at here
    cases first : frameFor d (means index) with
    | none =>
      rw [first] at here
      cases here
    | some bytes' =>
      rw [first] at here
      cases j with
      | zero =>
        cases here
        exact ⟨Nat.succ_pos index, first⟩
      | succ j =>
        obtain ⟨below, is⟩ := ih here
        refine ⟨Nat.succ_lt_succ below, ?_⟩
        rw [show index + 1 - 1 - (j + 1) = index - 1 - j by omega]
        apply is

/-- There are no more frames than nodes. -/
theorem length_framesBelow_le (d : Definition M) (means : Nat → Option M) (count : Nat) :
  (framesBelow d means count).length ≤ count
  := by
  by_contra more
  have here := List.getElem?_eq_getElem (Nat.lt_of_not_le more)
  exact Nat.lt_irrefl _ (frameFor_of_framesBelow here).1

namespace Collection

variable (c : Collection M N)

/-- A frame that a write sends is the frame for some node. -/
theorem exists_frameFor_of_outgoing {recipients : Recipients} {bytes : List UInt8}
    (member : bytes ∈ c.outgoing d property recipients) :
  ∃ means, frameFor d means = some bytes
  := by
  cases recipients with
  | each count =>
    obtain ⟨j, here⟩ := List.mem_iff_getElem?.mp member
    exact ⟨_, (frameFor_of_framesBelow here).2⟩
  | all =>
    obtain ⟨m, -, frame⟩ := Option.bind_eq_some_iff.mp (Option.mem_toList.mp member)
    exact ⟨some m, frame⟩

/-- A broadcast sends a single frame at most. -/
theorem length_outgoing_all_le (d : Definition M) (property : PropertyId) :
  (c.outgoing d property .all).length ≤ 1
  := by
  rw [outgoing]
  cases (c.module? 0).bind fun m => frameFor d (some m) <;> simp

/-! ### The loads of a write -/

/-- What a write puts on the link of the given index. -/
def loadOn (c : Collection M N) (d : Definition M) (property : PropertyId) (staged : Bool)
    (recipients : Recipients) (i : Nat) : Load :=
  match recipients with
  | .each count =>
    ⟨ActionHeader.pack ⟨.write, staged, property, count - i⟩,
      (c.outgoing d property recipients).take (count - i)⟩
  | .all => ⟨ActionHeader.pack ⟨.broadcast, staged, property, i⟩, c.outgoing d property recipients⟩

/-- The first load of a write to each node has all of its frames. -/
theorem loadOn_each_zero (count : Nat) :
  c.loadOn d property staged (.each count) 0 =
    ⟨ActionHeader.pack ⟨.write, staged, property, count⟩, c.outgoing d property (.each count)⟩
  := by
  rw [loadOn, Nat.sub_zero, List.take_of_length_le]
  apply length_framesBelow_le

/-- Every frame on a link is whole, and not empty. -/
theorem whole_loadOn (d : Definition M) (property : PropertyId) (staged : Bool)
    (recipients : Recipients) (i : Nat) :
  ∀ bytes ∈ (c.loadOn d property staged recipients i).frames,
    ∃ frame, Frame.Whole bytes frame ∧ frame ≠ .empty
  := by
  intro bytes member
  have sent : bytes ∈ c.outgoing d property recipients := by
    cases recipients with
    | each count => apply List.mem_of_mem_take member
    | all => apply member
  obtain ⟨means, frame⟩ := c.exists_frameFor_of_outgoing sent
  obtain ⟨value, whole, -⟩ := exists_of_frameFor frame
  refine ⟨_, whole, ?_⟩
  cases value <;> simp [frameOf]

variable {count : Nat} {recipients : Recipients}

/-- What a node has to see of a write to each node, and of a broadcast. -/
theorem framesAfter_loadOn (few : count < countModulus)
    (aimed : recipients = .each count ∨ recipients = .all) (i : Nat) :
  framesAfter (c.loadOn d property staged recipients i).header =
    if recipients = .all then 1 else count - i
  := by
  rcases aimed with rfl | rfl
  · simp only [loadOn, framesAfter, ActionHeader.action_pack, ActionHeader.count_pack, reduceCtorEq,
      if_false]
    apply Nat.mod_eq_of_lt (by omega)
  · simp only [loadOn, framesAfter, ActionHeader.action_pack, if_true]

/-- The loads of a write on the links of a chain are those of a journey. -/
def journey (c : Collection M N) (d : Definition M) (property : PropertyId) (staged : Bool)
    (few : count < countModulus) (aimed : recipients = .each count ∨ recipients = .all) :
    Journey count where
  load := c.loadOn d property staged recipients
  sound i within := by
    refine ⟨?_, ?_, c.whole_loadOn d property staged recipients i, ?_⟩
    · rcases aimed with rfl | rfl
      · have some : (count - i) % countModulus ≠ 0 := by
          rw [Nat.mod_eq_of_lt (by omega)]
          omega
        simp [loadOn, accepts, some]
      · simp [loadOn, accepts]
    · rcases aimed with rfl | rfl
      · left
        apply ActionHeader.action_pack
      · right
        apply ActionHeader.action_pack
    · rw [c.framesAfter_loadOn few aimed i]
      rcases aimed with rfl | rfl
      · apply List.length_take_le
      · apply c.length_outgoing_all_le d property
  load_succ i within := by
    rw [Load.passed, c.framesAfter_loadOn few aimed i]
    rcases aimed with rfl | rfl
    · have some : (count - i) % countModulus ≠ 0 := by
        rw [Nat.mod_eq_of_lt (by omega)]
        omega
      have accepted : accepts (ActionHeader.pack ⟨.write, staged, property, count - i⟩) = true := by
        simp [accepts, some]
      have after : countAfter .write ((count - i) % countModulus) = count - (i + 1) := by
        rw [Nat.mod_eq_of_lt (by omega)]
        simp only [countAfter, countMax, countModulus] at few ⊢
        omega
      have frames : ((c.outgoing d property (.each count)).take (count - i)).take (count - i - 1) =
          (c.outgoing d property (.each count)).take (count - (i + 1)) := by
        rw [List.take_take, Nat.min_eq_left (Nat.sub_le _ _), Nat.sub_sub]
      simp only [loadOn, forward_pack accepted, after, ActionHeader.action_pack, reduceCtorEq,
        decide_false, Bool.false_and, Bool.or_false, if_false, frames]
    · have accepted : accepts (ActionHeader.pack ⟨.broadcast, staged, property, i⟩) = true := by
        simp [accepts]
      have after : countAfter .broadcast (i % countModulus) = i + 1 := by
        rw [Nat.mod_eq_of_lt (by omega)]
        apply Nat.mod_eq_of_lt (by omega)
      simp only [loadOn, forward_pack accepted, after, ActionHeader.action_pack, reduceCtorEq,
        decide_false, Bool.false_and, Bool.or_false, if_true]

/-! ### The frames that nodes keep -/

/-- The frame that a node keeps is the one that is meant for it. -/
theorem frameFor_of_own (few : count < countModulus)
    (aimed : recipients = .each count ∨ recipients = .all) {i : Nat} (within : i < count)
    {own : List UInt8}
    (here : (c.loadOn d property staged recipients i).frames[
      framesAfter (c.loadOn d property staged recipients i).header - 1]? = some own) :
  frameFor d (c.meant property recipients i) = some own
  := by
  rw [c.framesAfter_loadOn few aimed i] at here
  rcases aimed with rfl | rfl
  · rw [if_neg (by simp), loadOn, List.getElem?_take_of_lt (by omega)] at here
    obtain ⟨-, frame⟩ := frameFor_of_framesBelow here
    rw [show count - 1 - (count - i - 1) = i by omega] at frame
    apply frame
  · rw [if_pos rfl] at here
    obtain ⟨m, first, frame⟩ := Option.bind_eq_some_iff.mp
      (Option.mem_toList.mp (List.mem_of_getElem? here))
    rw [meant, first]
    apply frame

end Collection

/-! ### What nodes take -/

/-- A module stays as it is; or it has been given a value, which is that of the given module and is
not to be held back.  What a module is may well tell whatever it has been given. -/
def TakesOnly (d : Definition M) (staged : Bool) (meant : Option M) (m m' : M) : Prop :=
  m' = m ∨ staged = false ∧ ∃ source data, meant = some source ∧ d.serialize source = .ok data ∧
    m' = (d.deserialize data m).2

/-- The module of a node that has received a value, or none. -/
theorem module_receive {table : Table M} (found : table.find? property = some d)
    (writable : d.access.writable = true) (e : Engine) (m : M) (action : Action)
    (value : Option (List UInt8)) :
  (Body.receive table e m ⟨action, staged, property⟩ value).module =
    match value with
    | none => m
    | some data => if staged then m else (d.deserialize data m).2
  := by
  cases value with
  | none => rfl
  | some data =>
    cases staged with
    | true => rfl
    | false =>
      have applied : applySlot table ⟨property, data⟩ m =
          ((d.deserialize data m).1.mapError writeFault, (d.deserialize data m).2) := by
        rw [applySlot, found]
        simp only [writable, if_true]
      simp only [Body.receive, Bool.false_eq_true, if_false, applied]
      cases (d.deserialize data m).1.mapError writeFault <;> rfl

/-- The request of a load is that of the write. -/
theorem Collection.ofHeader_loadOn (c : Collection M N) (d : Definition M) (staged : Bool)
    (travels : property.Travels) (recipients : Recipients) (i : Nat) :
  ∃ action, Request.ofHeader (c.loadOn d property staged recipients i).header =
    ⟨action, staged, property⟩
  := by
  cases recipients with
  | each count => exact ⟨.write, by simp [Request.ofHeader, loadOn, travels.ofNat_wire]⟩
  | all => exact ⟨.broadcast, by simp [Request.ofHeader, loadOn, travels.ofNat_wire]⟩

/-- A node that is served by the load of a write takes nothing but what the write means for it. -/
theorem Collection.takesOnly_of_serves (c : Collection M N) {table : Table M}
    (found : table.find? property = some d) (writable : d.access.writable = true)
    (travels : property.Travels) {count : Nat} {recipients : Recipients}
    (few : count < countModulus)
    (aimed : recipients = .each count ∨ recipients = .all) {i : Nat} (within : i < count)
    {e : Engine}
    {m m' : M} (serves : (c.loadOn d property staged recipients i).Serves table e m m') :
  TakesOnly d staged (c.meant property recipients i) m m'
  := by
  rcases serves with same | ⟨own, frame, here, whole, rfl⟩
  · exact .inl same
  · obtain ⟨value, carries, meant⟩ := exists_of_frameFor (c.frameFor_of_own few aimed within here)
    obtain ⟨action, request⟩ := c.ofHeader_loadOn d staged travels recipients i
    obtain rfl : frame = frameOf value := Except.ok.inj (whole.reads.symm.trans carries.reads)
    rw [request, module_receive found writable]
    cases value with
    | none => exact .inl rfl
    | some data =>
      obtain ⟨source, is, laid⟩ := meant data rfl
      cases staged with
      | true => exact .inl rfl
      | false => exact .inr ⟨rfl, source, data, is, laid, rfl⟩

end DaisyChain.Gateway
