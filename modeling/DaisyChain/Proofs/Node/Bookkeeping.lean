import DaisyChain.Proofs.Node.Represented

/-!
# The bookkeeping of a node

What each register of a node may hold between two ticks, state by state (`Registers.Sound`).  It is so
after any number of ticks, at any times, whatever the port offers and whatever becomes of the module
meanwhile; and what a node does in a run, its registers do (`registers_sound`).
-/

namespace DaisyChain.Node

variable {M : Type}

/-- A tick of a node, and what has been done to its module since the last one. -/
structure Turn (M : Type) where
  now : UInt32
  offer : Offer := {}
  meanwhile : M → M := id

/-- The registers and the module after the given turns. -/
def Registers.work (table : Table M) : Registers → M → List (Turn M) → Registers × M
  | r, m, [] => (r, m)
  | r, m, turn :: rest =>
    let effect := r.tick table turn.now turn.offer (turn.meanwhile m)
    effect.registers.work table effect.module rest

/-- The time of an event at which the engine takes a step. -/
def Station.Event.time? : Event → Option UInt32
  | .tick now => some now
  | .receive _ | .drain _ | .capacity _ | .drained _ | .busy _ => none

namespace Registers

variable {r : Registers}

/-- What the registers of a node hold between two ticks. -/
structure Sound (r : Registers) : Prop where
  /-- A value of a transaction waits only to be applied, and not together with a commit. -/
  pending : r.pending ≠ none → r.state = .committing ∧ r.committing = false
  committing : r.committing = true → r.state = .committing
  /-- A frame has been kept only if it is the last one and holds a value for the node. -/
  kept : r.kept ≠ none →
    r.state = .counting ∧ r.remaining = 0 ∧ (r.action = .write ∨ r.action = .broadcast)
  few : r.staged.length ≤ slotsMax
  apart : (r.staged.map Slot.property).Nodup
  recorded : r.lastFault = none ↔ r.faultState = none
  occurred : r.faultState ≠ some .recovering
  listening : r.state = .listening → r.progress ≤ 2
  /-- Some of the node's own frame is still to be sent. -/
  unsent : r.state = .sending → r.progress < r.frame.length
  otherwise : r.state ≠ .listening → r.state ≠ .sending → r.progress = 0
  /-- The node's own frame is one, and answers a read. -/
  sending : r.state = .sending → r.action = .read ∧ r.frame.length ≤ frameMax ∧
    ∃ body, r.frame = body ++ [0] ∧ 0 ∉ body
  asked : r.state = .counting ∨ r.state = .sending ∨ r.state = .relaying →
    r.action ≠ .sync ∧ r.remaining ≤ countMax
  idle : r.state ≠ .relaying → r.collector = .start
  /-- The frame that is being received has not ended. -/
  relaying : r.state = .relaying →
    r.collector.complete = false ∧ 0 ∉ r.collector.bytes ∧ r.collector.bytes.length ≤ frameMax

/-! ### Registers in each state -/

/-- Where a value of a transaction waits. -/
theorem Engaged.applies (engaged : r.Engaged) (waits : r.pending ≠ none) :
  r.state = .committing ∧ r.committing = false
  := by
  cases engaged with
  | listening _ clear | recovering _ clear | sending _ clear | relaying _ clear =>
    exact absurd clear.pending waits
  | counting _ pending => exact absurd pending waits
  | committing state _ _ _ batch =>
    obtain ⟨-, none⟩ | ⟨single, -⟩ := batch
    · exact absurd none waits
    · exact ⟨state, single⟩

/-- Where a commit waits. -/
theorem Engaged.commits (engaged : r.Engaged) (waits : r.committing = true) :
  r.state = .committing
  := by
  cases engaged with
  | listening _ clear | recovering _ clear | sending _ clear | relaying _ clear =>
    exact absurd clear.committing (ne_false_of_eq_true waits)
  | counting _ _ committing => exact absurd committing (ne_false_of_eq_true waits)
  | committing state => exact state

/-- Where a frame that has been kept waits. -/
theorem Engaged.keeps (engaged : r.Engaged) (holds : r.kept ≠ none) :
  r.state = .counting ∧ r.remaining = 0 ∧ (r.action = .write ∨ r.action = .broadcast)
  := by
  cases engaged with
  | listening _ clear | recovering _ clear | sending _ clear | relaying _ clear =>
    exact absurd clear.kept holds
  | committing _ kept => exact absurd kept holds
  | counting state _ _ _ _ asked kept =>
    obtain ⟨last, writes⟩ := kept (Option.isSome_iff_ne_none.mpr holds)
    refine ⟨state, last, ?_⟩
    have acts := asked.action
    cases action : r.action <;> simp_all

/-- How far a node has got with a header or with its own frame. -/
theorem Engaged.advances (engaged : r.Engaged) :
  (r.state = .listening → r.progress ≤ 2) ∧ (r.state = .sending → r.progress < r.frame.length) ∧
    (r.state ≠ .listening → r.state ≠ .sending → r.progress = 0)
  := by
  cases engaged with
  | listening state _ _ hears => simp [state, hears.few]
  | sending state _ _ _ _ _ progress => simp [state, progress]
  | recovering state _ _ progress | counting state _ _ _ progress
  | relaying state _ progress | committing state _ _ progress => simp [state, progress]

/-- What a node sends as its own frame. -/
theorem Engaged.sends (engaged : r.Engaged) (state : r.state = .sending) :
  r.action = .read ∧ r.frame.length ≤ frameMax ∧ ∃ body, r.frame = body ++ [0] ∧ 0 ∉ body
  := by
  cases engaged with
  | sending _ _ _ _ read whole =>
    obtain ⟨content, whole⟩ := whole
    exact ⟨read, whole.fits, whole.ends⟩
  | listening other | recovering other | counting other | relaying other | committing other =>
    exact absurd (other.symm.trans state) (by decide)

/-- What the header of a transaction in progress has asked for. -/
theorem Engaged.asks (engaged : r.Engaged)
    (state : r.state = .counting ∨ r.state = .sending ∨ r.state = .relaying) :
  r.action ≠ .sync ∧ r.remaining ≤ countMax
  := by
  cases engaged with
  | counting _ _ _ _ _ asked | sending _ _ _ asked | relaying _ _ _ asked =>
    exact ⟨asked.action, asked.remaining⟩
  | listening other | recovering other | committing other => simp [other] at state

/-- What a node has received of a frame. -/
theorem Engaged.collects (engaged : r.Engaged) :
  (r.state ≠ .relaying → r.collector = .start) ∧ (r.state = .relaying → Unfinished r.collector)
  := by
  cases engaged with
  | relaying state _ _ _ unfinished => exact ⟨absurd state, fun _ => unfinished⟩
  | listening state _ collector | recovering state _ collector | counting state _ _ collector
  | sending state _ collector | committing state _ collector => simp [state, collector]

/-- What the registers hold is sound. -/
theorem Coherent.sound (coherent : r.Coherent) :
  r.Sound
  where
  pending := coherent.engaged.applies
  committing := coherent.engaged.commits
  kept := coherent.engaged.keeps
  few := coherent.stocked.few
  apart := coherent.stocked.apart
  recorded := coherent.stocked.recorded
  occurred := coherent.stocked.occurred
  listening := coherent.engaged.advances.1
  unsent := coherent.engaged.advances.2.1
  otherwise := coherent.engaged.advances.2.2
  sending := coherent.engaged.sends
  asked := coherent.engaged.asks
  idle := coherent.engaged.collects.1
  relaying state :=
    have unfinished := coherent.engaged.collects.2 state
    ⟨unfinished.incomplete, unfinished.nonzero, unfinished.fits⟩

/-! ### Runs -/

/-- Any number of ticks keep the registers coherent. -/
theorem Coherent.work (coherent : r.Coherent) (table : Table M) (m : M) (turns : List (Turn M)) :
  (r.work table m turns).1.Coherent
  := by
  induction turns generalizing r m with
  | nil => exact coherent
  | cons turn rest ih =>
    exact ih (coherent.tick table turn.now turn.offer (turn.meanwhile m)) _

/-- What a node does in a run, its registers do. -/
theorem Coherent.exists_turns (coherent : r.Coherent) {s : Station M} (same : s.engine = r.engine)
    (table : Table M) (events : List Station.Event) :
  ∃ turns : List (Turn M), turns.map Turn.now = events.filterMap Station.Event.time? ∧
    (∀ turn ∈ turns, turn.meanwhile = id) ∧
    (r.work table s.module turns).1.engine = (s.run table events).engine ∧
    (r.work table s.module turns).2 = (s.run table events).module
  := by
  induction events generalizing r s with
  | nil => exact ⟨[], rfl, by simp, same.symm, rfl⟩
  | cons event rest ih =>
    cases event with
    | receive bytes => exact ih (s := s.step table (.receive bytes)) coherent same
    | drain bytes => exact ih (s := s.step table (.drain bytes)) coherent same
    | capacity bytes => exact ih (s := s.step table (.capacity bytes)) coherent same
    | drained yes => exact ih (s := s.step table (.drained yes)) coherent same
    | busy yes => exact ih (s := s.step table (.busy yes)) coherent same
    | tick now =>
      obtain ⟨offer, -, ticks⟩ := coherent.exists_offer same table now
      have coherent' := coherent.tick table now offer s.module
      have same' : (s.tick table now).engine = (r.tick table now offer s.module).registers.engine := by
        rw [ticks]
      have module : (s.tick table now).module = (r.tick table now offer s.module).module := by
        rw [ticks]
      obtain ⟨turns, times, still, engine, applied⟩ := ih coherent' same'
      rw [module] at engine applied
      refine ⟨{ now := now, offer := offer } :: turns, ?_, ?_, engine, applied⟩
      · rw [List.map_cons, times]
        rfl
      · intro turn member
        cases member with
        | head => rfl
        | tail _ member => exact still turn member

end Registers

/-- After any turns, from the start, the registers of a node hold what they may in the state in which
they are.  Every run of a node is one of its registers: there are turns at the times of its ticks, with
nothing done to its module meanwhile, that end with the engine and the module of the node. -/
theorem registers_sound (table : Table M) (m : M) :
  (∀ turns, (Registers.work table {} m turns).1.Sound) ∧
    ∀ (wiring : Wiring) (events : List Station.Event), ∃ turns : List (Turn M),
      let s : Station M := { wiring := wiring, module := m }
      turns.map Turn.now = events.filterMap Station.Event.time? ∧
        (∀ turn ∈ turns, turn.meanwhile = id) ∧
        (Registers.work table {} m turns).1.engine = (s.run table events).engine ∧
        (Registers.work table {} m turns).2 = (s.run table events).module
  := by
  refine ⟨fun turns => ?_, fun wiring events => ?_⟩
  · exact (Registers.coherent_start.work table m turns).sound
  · exact Registers.coherent_start.exists_turns (s := { wiring := wiring, module := m }) rfl table events

end DaisyChain.Node
