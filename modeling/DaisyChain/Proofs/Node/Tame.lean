import DaisyChain.Proofs.Chain.Exchange
import DaisyChain.Proofs.Node.Broken

/-!
# Streams that touch no module

A stream is tame if it consists of acknowledges and of reads, each with the frames of the nodes
before it (`Tame`).  A node that listens sends on another tame stream and does not touch its
module (`Tame.digest`, `Tame.module_eq`); nor does a node that recovers, since the zeros with which
it answers are reads of the first property, as far as they are complete (`tamed_zeros`).
-/

namespace DaisyChain.Node

variable {M : Type} {table : Table M}

/-- A stream of acknowledges and of reads that are complete, each with the frames of the given
number of nodes at most. -/
inductive Tame (bound : Nat) : List UInt8 → Prop
  | nil : Tame bound []
  | ack {rest : List UInt8} (categories : Categories) :
    Tame bound rest → Tame bound (SyncHeader.pack ⟨.ack, categories⟩ :: rest)
  | read {h : RawHeader} {frames : List (List UInt8)} {rest : List UInt8} :
    h.action = .read → h.evenParity = true →
    (∀ bytes ∈ frames, ∃ frame, Frame.Whole bytes frame) → h.count = frames.length →
    frames.length ≤ bound → Tame bound rest → Tame bound (h.toList ++ (frames.flatten ++ rest))

/-- A beginning of a tame stream. -/
def Tamed (bound : Nat) (stream : List UInt8) : Prop :=
  ∃ full, Tame bound full ∧ stream <+: full

/-! ### Nodes that listen -/

namespace Tame

variable {bound : Nat} {stream : List UInt8}

/-- A node that listens makes a tame stream of a tame stream, and listens afterwards. -/
theorem digest (table : Table M) (tame : Tame bound stream) (few : bound + 1 < countModulus)
    (e : Engine) (m : M) :
  ∃ e' out, (Body.listener e m).digest table stream = (Body.listener e' m, out) ∧
    Tame (bound + 1) out
  := by
  induction tame generalizing e with
  | nil => exact ⟨e, [], Body.digest_nil (b := Body.listener e m) trivial, .nil⟩
  | @ack rest categories _ ih =>
    obtain ⟨e', out, others, later⟩ := ih e
    refine ⟨e', _, ?_, .ack (categories ∪ categoriesOf e.lastFault) later⟩
    rw [← List.singleton_append, Body.digest_append, Body.digest_ack]
    simp only [others]
    rfl
  | @read h frames rest isRead even whole count within _ ih =>
    have first := Body.digest_read table e m isRead even whole count (by omega)
    obtain ⟨e', out, others, later⟩ :=
      ih { e with record := (answer table m h.property e.record).2 }
    have accepted : accepts h = true := by simp [accepts, even, isRead]
    refine ⟨e', (forward e.record h).toList ++
      ((frames ++ [(answer table m h.property e.record).1]).flatten ++ out), ?_, ?_⟩
    · rw [← List.append_assoc, Body.digest_append, first]
      simp only [others, List.flatten_append, List.flatten_singleton, List.append_assoc]
    · apply read _ _ _ _ _ later
      · rw [action_forward, isRead]
      · rw [evenParity_forward, accepted]
      · intro bytes member
        rcases List.mem_append.mp member with before | last
        · apply whole bytes before
        · rw [List.mem_singleton.mp last]
          exact ⟨_, whole_said table h.property (e, m)⟩
      · rw [count_forward, isRead, count, List.length_append, List.length_singleton]
        apply Nat.mod_eq_of_lt (by omega)
      · rw [List.length_append, List.length_singleton]
        omega

/-- A beginning of a tame stream does not change the module of a node that listens. -/
theorem module_eq (tame : Tame bound stream) (few : bound + 1 < countModulus) {bytes : List UInt8}
    (begins : bytes <+: stream) (e : Engine) (m : M) :
  ((Body.listener e m).digest table bytes).1.module = m
  := by
  induction tame generalizing e bytes with
  | nil =>
    rw [List.prefix_nil.mp begins]
    rfl
  | ack categories _ ih =>
    rcases List.prefix_cons_iff.mp begins with rfl | ⟨more, rfl, later⟩
    · rfl
    · rw [← List.singleton_append, Body.digest_append, Body.digest_ack]
      apply ih later e
  | @read h frames rest isRead even whole count within _ ih =>
    have isAction : h.action ≠ .sync := by simp [isRead]
    have accepted : accepts h = true := by simp [accepts, even, isRead]
    rcases prefix_append_cases begins with part | ⟨behind, further, rfl⟩
    · apply Body.module_header table e m isAction accepted part
    · rcases Frame.prefix_of_flatten whole further with
        ⟨more, later, rfl⟩ | ⟨j, some, part, clean, rfl⟩
      · have first := Body.digest_read table e m isRead even whole count (by omega)
        rw [← List.append_assoc, Body.digest_append, first]
        apply ih later
      · have small : (frames.length + 1) % countModulus = frames.length + 1 :=
          Nat.mod_eq_of_lt (by omega)
        have turns : framesAfter h = (frames.take j).length + ((frames.length - j) + 1) := by
          rw [List.length_take_of_le (Nat.le_of_lt some)]
          simp only [framesAfter, isRead, count, small]
          omega
        have begun := Body.digest_begun table e m isAction accepted
          (fun bytes member => whole bytes (List.mem_of_mem_take member)) turns
          (fun turn => by omega) part
        rw [begun]
        apply (Body.digest_barren table e m (.ofHeader h) (frames.length - j) List.not_mem_nil
          (Frame.barren_of_clean clean)).1

end Tame

/-! ### Zeros -/

/-- Zeros are a beginning of a tame stream. -/
theorem tamed_zeros (bound count : Nat) :
  Tamed bound (List.replicate count 0)
  := by
  have reads (n : Nat) : Tame bound (List.replicate (3 * n) 0) := by
    induction n with
    | zero => exact .nil
    | succ n ih =>
      rw [Nat.mul_succ, Nat.add_comm, List.replicate_add]
      have first : Tame bound
          (RawHeader.toList ⟨0, 0, 0⟩ ++ ([].flatten ++ List.replicate (3 * n) 0)) :=
        .read (by decide) (by decide) (by simp) (by decide) (Nat.zero_le _) ih
      apply first
  refine ⟨_, reads count, List.replicate (2 * count) 0, ?_⟩
  rw [← List.replicate_add]
  congr 1
  omega

/-! ### Nodes between transactions -/

/-- A node listens with nothing heard, or recovers. -/
def Body.Between (b : Body M) : Prop :=
  ∃ e m, b = listener e m ∨ b = during e m .recovering

/-- A node that has received a value, or none, is between transactions. -/
theorem Body.between_receive (table : Table M) (e : Engine) (m : M) (request : Request)
    (value : Option (List UInt8)) :
  (receive table e m request value).Between
  := by
  cases value with
  | none => exact ⟨e, m, .inl rfl⟩
  | some data =>
    rw [receive]
    split
    · exact ⟨_, _, .inl rfl⟩
    · split
      · exact ⟨_, _, .inl rfl⟩
      · exact ⟨_, _, .inr rfl⟩

/-- A node that listens answers a single byte with a single byte. -/
theorem Body.length_digest_single (e : Engine) (m : M) (byte : UInt8) :
  ((listener e m).digest table [byte]).2.length = 1
  := by
  have quiet (e : Engine) : ((Body.mk (e.hear .nothing byte 0).1 m).rest table).2 = [] := by
    simp only [Engine.hear]
    split
    · simp only [Engine.hearSync]
      cases SyncKind.ofByte byte <;> rfl
    · rfl
  rw [digest_cons (b := listener e m) trivial, List.length_append]
  apply congrArg (fun out => 1 + List.length out) (quiet (e.enter (.listening .nothing) 0))

/-- A node between transactions answers a single byte with a single byte, and nothing with
nothing. -/
theorem Body.Between.length_digest_le {b : Body M} (between : b.Between) {stream : List UInt8}
    (short : stream.length ≤ 1) :
  (b.digest table stream).2.length ≤ 1
  := by
  obtain ⟨e, m, rfl | rfl⟩ := between
  · cases stream with
    | nil => exact Nat.zero_le _
    | cons byte rest =>
      obtain rfl : rest = [] :=
        List.eq_nil_of_length_eq_zero (Nat.le_zero.mp (Nat.le_of_succ_le_succ short))
      apply Nat.le_of_eq (length_digest_single e m byte)
  · rw [digest_recovering, List.length_replicate]
    apply short

namespace Tamed

variable {bound : Nat} {stream : List UInt8} {b : Body M}

/-- A beginning of a tame stream does not change the module of a node between transactions. -/
theorem module_eq (tamed : Tamed bound stream) (few : bound + 1 < countModulus)
    (between : b.Between) :
  (b.digest table stream).1.module = b.module
  := by
  obtain ⟨full, tame, begins⟩ := tamed
  obtain ⟨e, m, rfl | rfl⟩ := between
  · apply tame.module_eq few begins
  · rw [Body.digest_recovering]

/-- What a node between transactions makes of a beginning of a tame stream is another one. -/
theorem digest (tamed : Tamed bound stream) (few : bound + 1 < countModulus)
    (between : b.Between) :
  Tamed (bound + 1) (b.digest table stream).2
  := by
  obtain ⟨full, tame, begins⟩ := tamed
  obtain ⟨e, m, rfl | rfl⟩ := between
  · obtain ⟨e', out, all, later⟩ := tame.digest table few e m
    have first := Body.digest_prefix table (.listener e m) begins
    rw [all] at first
    exact ⟨out, later, first⟩
  · rw [Body.digest_recovering]
    apply tamed_zeros

end Tamed

end DaisyChain.Node
