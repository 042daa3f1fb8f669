import DaisyChain.Proofs.Gateway.Earned

/-!
# Notices

What an application may conclude from a notice that a pass has ended.  A worker makes one pass after
another, and an application comes in between whenever it likes; all that happens to the display is kept
in order (`Frequented`).

An application that waits for effect forgets the notice, wakes the worker, and takes the next notice.
By then a pass has ended, and some pass begins after the worker was woken.  Unless a pass was in
progress when the notice was forgotten, a whole pass has been made meanwhile, and has looked at all that
was marked before (`notice_follows_pass`).  A pass that was in progress gives its notice, too, and may
have looked too early (`notice_of_earlier_pass`).
-/

namespace DaisyChain.Gateway

variable {L M : Type} {N : Nat}

/-! ### Steps of an application -/

/-- What an application does to the signals without interruption. -/
inductive SignalStep where
  /-- Wake the worker. -/
  | wake
  /-- Forget the notice that a pass has ended. -/
  | forget
  /-- Take this notice, if it is there. -/
  | take
  deriving DecidableEq

/-- What an application does to a display without interruption. -/
inductive Step (M : Type) (N : Nat) where
  /-- Change the collection. -/
  | change (f : Collection M N → Collection M N)
  | signal (step : SignalStep)

namespace Step

/-- What a step makes of a display. -/
def run (d : Display M N) : Step M N → Display M N
  | change f => { d with collection := f d.collection }
  | signal .wake => { d with desynchronized := true }
  | signal .forget => { d with synchronized := false }
  | signal .take => d.takeSynchronized.2

variable (d : Display M N)

/-- All modules are marked in two steps. -/
theorem foldl_markDirty (property : PropertyId) (method : SyncMethod) :
  [change fun c => c.markDirty property method, signal .wake].foldl run d = d.markDirty property method
  := rfl

/-- The worker is woken if a change has marked something. -/
theorem foldl_marking (mark : Collection M N → Bool × Collection M N) :
  (if (mark d.collection).1 then [change fun c => (mark c).2, signal .wake]
    else [change fun c => (mark c).2]).foldl run d =
      { d with
        collection := (mark d.collection).2
        desynchronized := d.desynchronized || (mark d.collection).1 }
  := by
  cases (mark d.collection).1 with
  | false => rw [Bool.or_false]; rfl
  | true => rw [Bool.or_true]; rfl

/-- One module is marked in two steps, or one if there is no such module. -/
theorem foldl_markModuleDirty (index : Nat) (property : PropertyId) :
  let mark : Step M N := change fun c => (c.markModuleDirty index property).2
  (if (d.markModuleDirty index property).1 then [mark, signal .wake] else [mark]).foldl run d =
    (d.markModuleDirty index property).2
  := foldl_marking d fun c => c.markModuleDirty index property

/-- One module is changed and marked in two steps, or one if there is no such module. -/
theorem foldl_updateModule (index : Nat) (property : PropertyId) (f : M → M) :
  let update : Step M N := change fun c =>
    ((c.modifyModule index fun m => ((), f m)).2.markModuleDirty index property).2
  (if (d.updateModule index property f).1 then [update, signal .wake] else [update]).foldl run d =
    (d.updateModule index property f).2
  := foldl_marking d fun c =>
    (c.modifyModule index fun m => ((), f m)).2.markModuleDirty index property

/-- A pass is asked for in two steps. -/
theorem foldl_requestPass :
  [signal .forget, signal .wake].foldl run d = d.requestPass
  := rfl

/-- No step lets the worker sleep. -/
theorem run_awake {d : Display M N} (step : Step M N) (awake : d.desynchronized = true) :
  (step.run d).desynchronized = true
  := by
  rcases step with f | _ | _ | _
  · exact awake
  · rfl
  · exact awake
  · exact awake

end Step

/-! ### The state -/

/-- A moment at which somebody has the display. -/
structure Moment (M : Type) (N : Nat) where
  /-- What the application does; without a step, it is the worker who has the display. -/
  step? : Option (Step M N)
  /-- The display as it is found. -/
  found : Display M N

/-- What the application does to the signals. -/
def Moment.signal? (m : Moment M N) : Option SignalStep :=
  match m.step? with
  | some (.signal step) => some step
  | some (.change _) | none => none

/-- A line, and a display over it to which an application comes. -/
structure Frequented (L M : Type) (N : Nat) where
  line : L
  display : Display M N := {}
  /-- What the application does before each access of the worker. -/
  plan : Nat → List (Step M N)
  /-- The number of accesses of the worker so far. -/
  clock : Nat := 0
  /-- What has happened so far. -/
  past : List (Moment M N) := []

namespace Frequented

/-- The state after a step of the application. -/
def step (s : Frequented L M N) (step : Step M N) : Frequented L M N :=
  { s with display := step.run s.display, past := s.past ++ [⟨some step, s.display⟩] }

/-- The state after the steps before the next access of the worker. -/
def arrive (s : Frequented L M N) : Frequented L M N :=
  (s.plan s.clock).foldl step s

/-- The state after an access of the worker that leaves the given display. -/
def proceed (s : Frequented L M N) (display : Display M N) : Frequented L M N :=
  { s.arrive with
    display := display, clock := s.clock + 1, past := s.arrive.past ++ [⟨none, s.arrive.display⟩] }

end Frequented

instance [Transport L] : Transport (Frequented L M N) :=
  .ofPart ⟨Frequented.line, fun line s => { s with line := line }⟩

instance : Shared (Frequented L M N) M N where
  access f s := ((f s.arrive.display).1, s.proceed (f s.arrive.display).2)

/-! ### What has happened -/

namespace Frequented

variable {s s' s'' : Frequented L M N}

/-- The application makes a step at the given moment. -/
def Does (s : Frequented L M N) (t : Nat) (step : SignalStep) : Prop :=
  s.past[t]?.bind Moment.signal? = some step

instance (s : Frequented L M N) (t : Nat) (step : SignalStep) : Decidable (s.Does t step) :=
  inferInstanceAs (Decidable (_ = _))

/-- The display just before the given moment. -/
def shown (s : Frequented L M N) (t : Nat) : Display M N :=
  (s.past[t]?.map Moment.found).getD s.display

/-- The application has waited for effect: it has forgotten the notice, woken the worker, and taken a
notice at the given moments. -/
structure Awaited (s : Frequented L M N) (forgotten woken taken : Nat) : Prop where
  forgets : s.Does forgotten .forget
  wakes : s.Does woken .wake
  takes : s.Does taken .take
  notice : (s.shown taken).synchronized = true
  awake : forgotten < woken
  patient : woken < taken

/-- What has been done was done at a moment that has passed. -/
theorem Does.lt_length {t : Nat} {step : SignalStep} (does : s.Does t step) :
  t < s.past.length
  := by
  obtain ⟨m, here, -⟩ := Option.bind_eq_some_iff.mp does
  apply (List.getElem?_eq_some_iff.mp here).1

/-- The last moment is a new one. -/
theorem does_next {step? : Option (Step M N)} (past : s'.past = s.past ++ [⟨step?, s.display⟩])
    {t : Nat} {step : SignalStep} (does : s'.Does t step) :
  s.Does t step ∨ t = s.past.length ∧ step? = some (.signal step)
  := by
  have within := does.lt_length
  rw [past, List.length_append, List.length_singleton] at within
  rw [Does, past] at does
  rcases Nat.lt_succ_iff_lt_or_eq.mp within with before | rfl
  · rw [List.getElem?_append_left before] at does
    exact Or.inl does
  · rw [List.getElem?_concat_length] at does
    refine Or.inr ⟨rfl, ?_⟩
    change Moment.signal? _ = _ at does
    rw [Moment.signal?] at does
    split at does
    · next is =>
      cases does
      exact is
    · contradiction
    · contradiction

/-- Before a new moment, the display is what it was. -/
theorem shown_next {step? : Option (Step M N)} (past : s'.past = s.past ++ [⟨step?, s.display⟩])
    {t : Nat} (early : t ≤ s.past.length) :
  s'.shown t = s.shown t
  := by
  rw [shown, past, shown]
  rcases Nat.lt_or_eq_of_le early with before | rfl
  · rw [List.getElem?_append_left before, List.getElem?_eq_getElem before]
    rfl
  · rw [List.getElem?_concat_length, List.getElem?_eq_none (Nat.le_refl _)]
    rfl

/-- After the last moment, the display is what it is. -/
theorem shown_length (s : Frequented L M N) :
  s.shown s.past.length = s.display
  := by
  rw [shown, List.getElem?_eq_none (Nat.le_refl _)]
  rfl

/-- What was found at a moment is what the display was just before it. -/
theorem shown_of_begins {past : List (Moment M N)} {step? : Option (Step M N)} {found : Display M N}
    (begins : past ++ [⟨step?, found⟩] <+: s.past) :
  s.shown past.length = found
  := by
  obtain ⟨more, same⟩ := begins
  rw [shown, ← same, List.append_assoc, List.getElem?_append_right (Nat.le_refl _), Nat.sub_self]
  rfl

/-! ### Notices that are explained -/

/-- Given the moments at which passes begin and end, all that has happened can be explained. -/
structure Explained (begins ends : Nat → Prop) (s : Frequented L M N) : Prop where
  /-- If a notice is there that was forgotten, a pass has ended since. -/
  notices : ∀ forgotten t, s.Does forgotten .forget → forgotten < t → t ≤ s.past.length →
    (s.shown t).synchronized = true → ∃ e, ends e ∧ forgotten < e ∧ e < t
  /-- If the worker was woken and is not to wake up any more, a pass has begun since. -/
  wakes : ∀ woken, s.Does woken .wake →
    s.display.desynchronized = true ∨ ∃ b, begins b ∧ woken < b

variable {begins ends : Nat → Prop}

/-- All is explained as long as nothing has happened. -/
theorem explained_of_fresh (fresh : s.past = []) :
  Explained begins ends s
  := by
  have nothing {t : Nat} {step : SignalStep} : ¬s.Does t step := by
    intro does
    have within := does.lt_length
    rw [fresh] at within
    contradiction
  exact ⟨fun _ _ does => absurd does nothing, fun _ does => absurd does nothing⟩

/-- A new moment is explained if only the end of a pass gives a notice, and only its beginning lets the
worker sleep. -/
theorem Explained.next {step? : Option (Step M N)} (explained : Explained begins ends s)
    (past : s'.past = s.past ++ [⟨step?, s.display⟩])
    (notice : s'.display.synchronized = true →
      step? ≠ some (.signal .forget) ∧ (s.display.synchronized = true ∨ ends s.past.length))
    (wake : step? = some (.signal .wake) → s'.display.desynchronized = true)
    (sleep : s.display.desynchronized = true →
      s'.display.desynchronized = true ∨ begins s.past.length) :
  Explained begins ends s'
  := by
  have length : s'.past.length = s.past.length + 1 := by
    rw [past, List.length_append, List.length_singleton]
  constructor
  · intro forgotten t does since within noticed
    rw [length] at within
    by_cases early : t ≤ s.past.length
    · rw [shown_next past early] at noticed
      rcases does_next past does with before | ⟨rfl, -⟩
      · apply explained.notices forgotten t before since early noticed
      · omega
    -- Only what is there after the new moment is new.
    · obtain rfl : t = s.past.length + 1 := by omega
      rw [← length, shown_length] at noticed
      obtain ⟨kept, cause⟩ := notice noticed
      rcases does_next past does with before | ⟨-, is⟩
      · have earlier := before.lt_length
        rcases cause with here | ending
        · rw [← shown_length] at here
          obtain ⟨e, ended, after, soon⟩ :=
            explained.notices forgotten _ before earlier (Nat.le_refl _) here
          exact ⟨e, ended, after, Nat.lt_succ_of_lt soon⟩
        · exact ⟨_, ending, earlier, Nat.lt_succ_self _⟩
      · contradiction
  · intro woken does
    rcases does_next past does with before | ⟨rfl, is⟩
    · rcases explained.wakes woken before with awake | begun
      · apply (sleep awake).imp_right
        intro beginning
        exact ⟨_, beginning, before.lt_length⟩
      · apply Or.inr begun
    · apply Or.inl (wake is)

/-! ### What goes on apart from beginnings and ends -/

/-- From the first state to the second one, nothing has happened that needs an explanation. -/
structure Goes (s s' : Frequented L M N) : Prop where
  past : s.past <+: s'.past
  explained : ∀ {begins ends}, Explained begins ends s → Explained begins ends s'

theorem Goes.refl (s : Frequented L M N) :
  Goes s s
  := ⟨List.prefix_refl _, id⟩

theorem Goes.trans (first : Goes s s') (second : Goes s' s'') :
  Goes s s''
  := ⟨first.past.trans second.past, fun explained => second.explained (first.explained explained)⟩

/-- What goes on aside from the display needs no explanation. -/
theorem goes_line (s : Frequented L M N) (line : L) :
  Goes s { s with line := line }
  := ⟨List.prefix_refl _, fun explained => ⟨explained.notices, explained.wakes⟩⟩

/-- A step of the application needs no explanation: it gives no notice, and does not let the worker
sleep. -/
theorem goes_step (s : Frequented L M N) (step : Step M N) :
  Goes s (s.step step)
  := by
  refine ⟨List.prefix_append _ _, fun explained => explained.next rfl ?_ ?_ ?_⟩
  · rcases step with f | _ | _ | _
    · exact fun here => ⟨by simp, Or.inl here⟩
    · exact fun here => ⟨by simp, Or.inl here⟩
    · exact fun here => absurd here Bool.false_ne_true
    · exact fun here => absurd here Bool.false_ne_true
  · intro is
    cases is
    rfl
  · exact fun awake => Or.inl (step.run_awake awake)

/-- Any number of steps needs no explanation. -/
theorem goes_arrive (s : Frequented L M N) :
  Goes s s.arrive
  := by
  have steps (plan : List (Step M N)) : Goes s (plan.foldl step s) := by
    induction plan generalizing s with
    | nil => apply Goes.refl
    | cons step plan ih => apply (goes_step s step).trans (ih _)
  apply steps

/-- An access of the worker comes after the steps before it. -/
theorem past_access {α : Type} (f : StateM (Display M N) α) (s : Frequented L M N) :
  (Shared.access f s).2.past = s.arrive.past ++ [⟨none, s.arrive.display⟩]
  := rfl

/-- An access of the worker is explained if it gives a notice only at the end of a pass, and falls
asleep only at its beginning. -/
theorem explained_access {α : Type} (f : StateM (Display M N) α) (explained : Explained begins ends s)
    (notice : (f s.arrive.display).2.synchronized = true →
      s.arrive.display.synchronized = true ∨ ends s.arrive.past.length)
    (sleep : s.arrive.display.desynchronized = true →
      (f s.arrive.display).2.desynchronized = true ∨ begins s.arrive.past.length) :
  Explained begins ends (Shared.access f s).2
  := by
  apply ((goes_arrive s).explained explained).next (past_access f s) _ _ sleep
  · exact fun here => ⟨by simp, notice here⟩
  · intro is
    contradiction

/-- An access to the collection alone needs no explanation. -/
theorem goes_onCollection {α : Type} (f : StateM (Collection M N) α) (s : Frequented L M N) :
  Goes s (Shared.onCollection f s).2
  := by
  have arrived : Goes s s.arrive := goes_arrive s
  exact ⟨arrived.past.trans (List.prefix_append _ _),
    fun explained => explained_access _ explained Or.inl Or.inl⟩

variable [Transport L] [Inhabited M]

/-- No call needs an explanation. -/
theorem callsObey_goes :
  CallsObey (M := M) fun s s' : Frequented L M N => Goes s s'
  where
  refl := Goes.refl
  trans := Goes.trans
  send _ s := goes_line s _
  receive _ _ s := goes_line s _
  flush s := goes_line s _
  drain s := goes_line s _
  pause _ s := goes_line s _
  count := goes_onCollection _
  module? _ := goes_onCollection _
  modify _ _ := goes_onCollection _
  countChanged _ := goes_onCollection _
  mustWrite _ _ := goes_onCollection _
  reported _ _ _ := goes_onCollection _

end Frequented

/-! ### Turns of the worker -/

open Frequented

section Turns

variable [Transport L] [Inhabited M] (g : Gateway M) (σ : Session (Frequented L M N))

/-- The session after the worker has looked for the notice that something is out of date. -/
def Session.notified (σ : Session (Frequented L M N)) : Session (Frequented L M N) :=
  σ.after (Shared.access Display.takeDesynchronized)

/-- The session in a pass once all properties have been promoted and the given ones have had their
turns. -/
def amid (g : Gateway M) (front : List (Definition M)) (σ : Session (Frequented L M N)) :
    Session (Frequented L M N) :=
  (front.forM (fun d => g.syncProperty d.id)
    (σ.after (Shared.onCollection fun c => ((), promoteAll g.table c)))).2

/-- A pass ends with a notice to the application. -/
theorem pass_eq_finish :
  (g.pass σ).2 = (g.amid (definitions g.table) σ).after (Shared.access fun d => ((), d.finishPass))
  := rfl

/-- The worker makes a pass if it is to wake up. -/
theorem turn_eq :
  g.turn σ = (σ.env.arrive.display.desynchronized,
    if σ.env.arrive.display.desynchronized then (g.pass σ.notified).2 else σ.notified)
  := by
  change (if σ.env.arrive.display.desynchronized then
    g.pass >>= fun _ => pure σ.env.arrive.display.desynchronized
      else pure σ.env.arrive.display.desynchronized : StateM (Session (Frequented L M N)) Bool)
        σ.notified = _
  cases σ.env.arrive.display.desynchronized <;> rfl

/-- After the look for what is to be done, the turn of a property needs no explanation. -/
theorem goes_of_look (property : PropertyId) :
  Goes (σ.after (look property)).env (g.syncProperty property σ).2.env
  := by
  obtain ⟨τ, goes, turned⟩ := exists_turn callsObey_goes g property σ
  rw [turned]
  split
  · apply goes.trans (goes_onCollection _ _)
  · apply goes

/-- Turns in a row need no explanation. -/
theorem goes_turns (ds : List (Definition M)) :
  Goes σ.env (ds.forM (fun d => g.syncProperty d.id) σ).2.env
  := by
  induction ds generalizing σ with
  | nil => apply Goes.refl
  | cons d ds ih =>
    have looking : Goes σ.env (σ.after (look d.id)).env := goes_onCollection _ _
    apply (looking.trans (goes_of_look g σ d.id)).trans (ih _)

/-- Until its end, a pass needs no explanation. -/
theorem goes_amid (front : List (Definition M)) :
  Goes σ.env (g.amid front σ).env
  := by
  apply Goes.trans _ (goes_turns g _ front)
  apply goes_onCollection

end Turns

/-! ### Passes in a row -/

section Rounds

variable [Transport L] [Inhabited M]

/-- The session after so many turns of the worker. -/
def rounds (g : Gateway M) (σ : Session (Frequented L M N)) : Nat → Session (Frequented L M N)
  | 0 => σ
  | k + 1 => (g.turn (g.rounds σ k)).2

/-- The worker makes a pass in its turn of the given number. -/
def Passes (g : Gateway M) (σ : Session (Frequented L M N)) (k : Nat) : Prop :=
  (g.turn (g.rounds σ k)).1 = true

/-- The moment of the first access of this turn. -/
def began (g : Gateway M) (σ : Session (Frequented L M N)) (k : Nat) : Nat :=
  (g.rounds σ k).env.arrive.past.length

/-- The moment of the last access of this turn. -/
def ended (g : Gateway M) (σ : Session (Frequented L M N)) (k : Nat) : Nat :=
  (g.rounds σ (k + 1)).env.past.length - 1

/-- At the given moment of this turn, the worker looks for what is to be done for a property, and finds
what is to be done at that moment. -/
def LooksAt (g : Gateway M) (σ : Session (Frequented L M N)) (k : Nat) (d : Definition M) (t : Nat) :
    Prop :=
  ∃ front back, definitions g.table = front ++ d :: back ∧
    let ρ := g.amid front (g.rounds σ k).notified
    ρ.env.arrive.past.length = t ∧
      (look d.id ρ.env).1 = ((g.rounds σ (k + 1)).env.shown t).collection.operation? d.id

/-- At the given moment, some pass is in progress. -/
def InProgress (g : Gateway M) (σ : Session (Frequented L M N)) (t : Nat) : Prop :=
  ∃ k, g.Passes σ k ∧ g.began σ k ≤ t ∧ t ≤ g.ended σ k

variable {g : Gateway M} {σ : Session (Frequented L M N)} {k : Nat}

/-- If the worker is to wake up, it makes a pass. -/
theorem passes_iff :
  g.Passes σ k ↔ (g.rounds σ k).env.arrive.display.desynchronized = true
  := by
  rw [Passes, turn_eq]

/-- A turn with a pass ends with the notice. -/
theorem rounds_succ_of_passes (passes : g.Passes σ k) :
  g.rounds σ (k + 1) = (g.amid (definitions g.table) (g.rounds σ k).notified).after
    (Shared.access fun d => ((), d.finishPass))
  := by
  rw [rounds, turn_eq, if_pos (passes_iff.mp passes), pass_eq_finish]

/-- A turn without a pass ends at once. -/
theorem rounds_succ_of_not_passes (asleep : ¬g.Passes σ k) :
  g.rounds σ (k + 1) = (g.rounds σ k).notified
  := by
  rw [rounds, turn_eq, if_neg (passes_iff.not.mp asleep)]

/-- The last access of a pass follows all others. -/
theorem ended_eq (passes : g.Passes σ k) :
  g.ended σ k =
    (g.amid (definitions g.table) (g.rounds σ k).notified).env.arrive.past.length
  := by
  rw [ended, rounds_succ_of_passes passes]
  change List.length (_ ++ [_]) - 1 = _
  rw [List.length_append, List.length_singleton, Nat.add_sub_cancel]

/-- All that happens in turns of the worker can be explained. -/
theorem explained_rounds (g : Gateway M) {σ : Session (Frequented L M N)} (fresh : σ.env.past = [])
    (k : Nat) :
  Explained (fun t => ∃ k, g.Passes σ k ∧ g.began σ k = t)
    (fun t => ∃ k, g.Passes σ k ∧ g.ended σ k = t) (g.rounds σ k).env
  := by
  induction k with
  | zero => apply explained_of_fresh fresh
  | succ k ih =>
    have notified : Explained _ _ (g.rounds σ k).notified.env :=
      explained_access Display.takeDesynchronized ih Or.inl fun awake =>
        Or.inr ⟨k, passes_iff.mpr awake, rfl⟩
    by_cases passes : g.Passes σ k
    · rw [rounds_succ_of_passes passes]
      have turned := (goes_amid g _ (definitions g.table)).explained notified
      apply explained_access (fun d => ((), d.finishPass)) turned _ Or.inl
      exact fun _ => Or.inr ⟨k, passes, ended_eq passes⟩
    · rw [rounds_succ_of_not_passes passes]
      apply notified

/-- A turn leaves what has happened before it, and its first access. -/
theorem past_turn (g : Gateway M) (σ : Session (Frequented L M N)) (k : Nat) :
  (g.rounds σ k).env.arrive.past ++ [⟨none, (g.rounds σ k).env.arrive.display⟩] <+:
    (g.rounds σ (k + 1)).env.past
  := by
  change (g.rounds σ k).notified.env.past <+: _
  by_cases passes : g.Passes σ k
  · rw [rounds_succ_of_passes passes]
    apply (goes_amid g _ (definitions g.table)).past.trans
    apply (goes_arrive _).past.trans (List.prefix_append _ _)
  · exact ⟨[], by rw [rounds_succ_of_not_passes passes, List.append_nil]⟩

/-- Turns begin one after the other. -/
theorem began_le_began (g : Gateway M) (σ : Session (Frequented L M N)) {j k : Nat} (order : j ≤ k) :
  g.began σ j ≤ g.began σ k
  := by
  have past : (g.rounds σ j).env.arrive.past <+: (g.rounds σ k).env.arrive.past := by
    induction order with
    | refl => apply List.prefix_refl
    | @step k _ ih =>
      apply (ih.trans (List.prefix_append _ _)).trans
      apply (past_turn g σ k).trans (goes_arrive _).past
  apply past.length_le

/-- A turn does not end before it begins. -/
theorem began_le_ended (g : Gateway M) (σ : Session (Frequented L M N)) (k : Nat) :
  g.began σ k ≤ g.ended σ k
  := by
  have length := (past_turn g σ k).length_le
  rw [List.length_append, List.length_singleton] at length
  apply Nat.le_sub_one_of_lt length

/-- The turn of a property in a pass comes between those of other properties. -/
theorem amid_split (g : Gateway M) (front back : List (Definition M)) (d : Definition M)
    (σ : Session (Frequented L M N)) :
  g.amid (front ++ d :: back) σ =
    (back.forM (fun d => g.syncProperty d.id) (g.syncProperty d.id (g.amid front σ)).2).2
  := congrArg Prod.snd (turns_split g front back d _)

/-- A turn begins before the worker looks for anything. -/
theorem LooksAt.began_lt {d : Definition M} {t : Nat} (looks : g.LooksAt σ k d t) :
  g.began σ k < t
  := by
  obtain ⟨front, -, -, rfl, -⟩ := looks
  let notified := (g.rounds σ k).notified
  have before : notified.env.past <+: (g.amid front notified).env.arrive.past :=
    (goes_amid g notified front).past.trans (goes_arrive _).past
  apply Nat.lt_of_lt_of_le _ before.length_le
  change _ < List.length (_ ++ [_])
  rw [List.length_append]
  apply Nat.lt_succ_self

/-- Every property is looked at in a pass, before the pass ends. -/
theorem exists_looksAt (passes : g.Passes σ k) {d : Definition M} (member : d ∈ definitions g.table) :
  ∃ t, g.LooksAt σ k d t ∧ t < g.ended σ k
  := by
  obtain ⟨front, back, split⟩ := List.append_of_mem member
  let notified := (g.rounds σ k).notified
  let ρ := g.amid front notified
  let last := g.amid (definitions g.table) notified
  have after : ρ.env.arrive.past ++ [⟨none, ρ.env.arrive.display⟩] <+: last.env.arrive.past := by
    apply List.IsPrefix.trans _ (goes_arrive last.env).past
    change _ <+: (g.amid (definitions g.table) notified).env.past
    rw [split, amid_split]
    apply ((goes_of_look g ρ d.id).trans (goes_turns g _ back)).past
  have kept : last.env.arrive.past <+: (g.rounds σ (k + 1)).env.past := by
    rw [rounds_succ_of_passes passes]
    apply List.prefix_append
  refine ⟨_, ⟨front, back, split, rfl, ?_⟩, ?_⟩
  · rw [shown_of_begins (after.trans kept)]
    rfl
  · rw [ended_eq passes]
    have length := after.length_le
    rw [List.length_append] at length
    apply length

/-- A worker that is woken makes a pass in its next turn. -/
theorem passes_of_awake (awake : (g.rounds σ k).env.display.desynchronized = true) :
  g.Passes σ k
  := by
  have steps (plan : List (Step M N)) (s : Frequented L M N) (awake : s.display.desynchronized = true) :
      (plan.foldl step s).display.desynchronized = true := by
    induction plan generalizing s with
    | nil => exact awake
    | cons step plan ih => apply ih _ (step.run_awake awake)
  rw [passes_iff]
  apply steps _ _ awake

/-- An application that waits for effect takes a notice only if a pass has ended meanwhile, and some
pass begins after it has woken the worker.  Unless a pass was in progress when it forgot the notice,
some pass has begun and ended meanwhile, and every property has been looked at meanwhile. -/
theorem notice_follows_pass (g : Gateway M) {σ : Session (Frequented L M N)} (fresh : σ.env.past = [])
    {k forgotten woken taken : Nat} (awaited : (g.rounds σ k).env.Awaited forgotten woken taken) :
  (∃ j, g.Passes σ j ∧ forgotten < g.ended σ j ∧ g.ended σ j < taken) ∧
  (∃ j, g.Passes σ j ∧ woken < g.began σ j) ∧
  (¬g.InProgress σ forgotten →
    ∃ j, g.Passes σ j ∧ forgotten < g.began σ j ∧ g.ended σ j < taken ∧
      ∀ d ∈ definitions g.table, ∃ t, g.LooksAt σ j d t ∧ forgotten < t ∧ t < taken)
  := by
  have explained := explained_rounds g fresh k
  have order : forgotten < taken := Nat.lt_trans awaited.awake awaited.patient
  obtain ⟨_, ⟨j, passes, rfl⟩, after, before⟩ := explained.notices forgotten taken awaited.forgets order
    (Nat.le_of_lt awaited.takes.lt_length) awaited.notice
  refine ⟨⟨j, passes, after, before⟩, ?_, fun free => ?_⟩
  · rcases explained.wakes woken awaited.wakes with awake | ⟨_, ⟨j, passes, rfl⟩, later⟩
    · refine ⟨k, passes_of_awake awake, ?_⟩
      apply Nat.lt_of_lt_of_le awaited.wakes.lt_length (goes_arrive _).past.length_le
    · exact ⟨j, passes, later⟩
  -- The pass that has ended is not one that was in progress.
  · have begun : forgotten < g.began σ j := by
      by_contra early
      exact free ⟨j, passes, Nat.not_lt.mp early, Nat.le_of_lt after⟩
    refine ⟨j, passes, begun, before, fun d member => ?_⟩
    obtain ⟨t, looks, ends⟩ := exists_looksAt passes member
    exact ⟨t, looks, Nat.lt_trans begun looks.began_lt, Nat.lt_trans ends before⟩

end Rounds

/-- A display over a line on which nothing ever arrives.  A notice of an earlier pass is there when the
application marks the offsets and waits for effect. -/
def patient : Session (Frequented Script SplitFlap.Module 4) where
  env := {
    line := {}
    display := { synchronized := true }
    plan := fun t =>
      if t = 0 then
        [.change fun c => c.markDirty ⟨6⟩ .read, .signal .wake, .signal .forget, .signal .wake]
      else if t = 15 then [.signal .take] else [] }

/-- In this display, the application takes the notice of a pass that has looked at the offsets. -/
theorem notice_follows_pass_patient :
  let g : Gateway SplitFlap.Module := ⟨SplitFlap.table, {}⟩
  patient.env.past = [] ∧ (g.rounds patient 2).env.Awaited 2 3 19 ∧ ¬g.InProgress patient 2 ∧
    ∃ j, g.Passes patient j ∧ 2 < g.began patient j ∧ g.ended patient j < 19 ∧
      ∃ t, g.LooksAt patient j SplitFlap.offset t ∧ 2 < t ∧ t < 19
  := by
  intro g
  have awaited : (g.rounds patient 2).env.Awaited 2 3 19 :=
    ⟨by decide +kernel, by decide +kernel, by decide +kernel, by decide +kernel, by decide, by decide⟩
  have free : ¬g.InProgress patient 2 := by
    rintro ⟨j, -, begun, -⟩
    have first : 4 = g.began patient 0 := by decide +kernel
    have later := began_le_began g patient (Nat.zero_le j)
    omega
  have member : SplitFlap.offset ∈ definitions g.table := mem_definitions.mpr ⟨rfl, by decide⟩
  obtain ⟨-, -, follows⟩ := notice_follows_pass g (σ := patient) rfl awaited
  obtain ⟨j, passes, begun, ended, looks⟩ := follows free
  exact ⟨rfl, awaited, free, j, passes, begun, ended, looks _ member⟩

/-- A display over a line on which nothing ever arrives.  The application marks the offsets while the
worker makes a pass and has already looked at them; then it waits for effect. -/
def hasty : Session (Frequented Script SplitFlap.Module 4) where
  env := {
    line := {}
    plan := fun t =>
      if t = 0 then [.signal .wake]
      else if t = 3 then
        [.change fun c => c.markDirty ⟨6⟩ .read, .signal .wake, .signal .forget, .signal .wake]
      else if t = 4 then [.signal .take] else [] }

/-- In this display, the application takes the notice of the pass that was in progress.  No pass has
begun since it forgot the notice, and the offsets have not been looked at since they were marked. -/
theorem notice_of_earlier_pass :
  let g : Gateway SplitFlap.Module := ⟨⟨[SplitFlap.offset]⟩, {}⟩
  let s := (g.rounds hasty 2).env
  hasty.env.past = [] ∧ s.Awaited 6 7 9 ∧
    (s.shown 4).collection.operation? SplitFlap.offset.id = none ∧
    (s.shown 5).collection.operation? SplitFlap.offset.id = some .readAll ∧
    (¬∃ j, g.Passes hasty j ∧ 6 < g.began hasty j ∧ g.ended hasty j < 9) ∧
    ¬∃ j t, g.LooksAt hasty j SplitFlap.offset t ∧ 4 < t ∧ t < 9
  := by
  intro g s
  have awaited : s.Awaited 6 7 9 :=
    ⟨by decide +kernel, by decide +kernel, by decide +kernel, by decide +kernel, by decide, by decide⟩
  have first : 1 = g.began hasty 0 := by decide +kernel
  have later (j : Nat) : 10 ≤ g.began hasty (j + 1) := by
    have second : 10 = g.began hasty 1 := by decide +kernel
    rw [second]
    apply began_le_began
    omega
  refine ⟨rfl, awaited, by decide +kernel, by decide +kernel, ?_, ?_⟩
  · rintro ⟨_ | j, -, begun, ended⟩
    · omega
    · have next := later j
      have order := began_le_ended g hasty (j + 1)
      omega
  · rintro ⟨_ | j, t, looks, since, early⟩
    · obtain ⟨front, back, split, rfl, -⟩ := looks
      have single : (definitions g.table).length = 1 := by decide +kernel
      rw [split, List.length_append, List.length_cons] at single
      obtain rfl : front = [] := List.eq_nil_of_length_eq_zero (by omega)
      have looked : (g.amid [] (g.rounds hasty 0).notified).env.arrive.past.length = 3 := by
        decide +kernel
      omega
    · have begun := looks.began_lt
      have next := later j
      omega

end DaisyChain.Gateway
