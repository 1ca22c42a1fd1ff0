import Mathlib

/-!
# Runs of a deterministic step function

Finite runs, the induction rule for invariants, runs whose steps all meet a
condition, and the list of the observations a run makes.
-/

set_option autoImplicit false

namespace ZenithRelay.Execution

variable {State Event : Type} (step : State → Event → State)

/-- The state after a list of events, first event first. -/
def run (start : State) (events : List Event) : State := events.foldl step start

@[simp] theorem run_nil (start : State) : run step start [] = start := rfl

@[simp] theorem run_cons (start : State) (event : Event) (events : List Event) :
    run step start (event :: events) = run step (step start event) events := rfl

theorem run_append (start : State) (first second : List Event) :
    run step start (first ++ second) = run step (run step start first) second :=
  List.foldl_append

/-- States that some finite run from `start` ends in. -/
def Reachable (start state : State) : Prop := ∃ events, run step start events = state

theorem Reachable.refl (start : State) : Reachable step start start := ⟨[], rfl⟩

theorem Reachable.extend {start state : State} (reachable : Reachable step start state)
    (events : List Event) : Reachable step start (run step state events) := by
  obtain ⟨before, rfl⟩ := reachable
  exact ⟨before ++ events, run_append step start before events⟩

theorem Reachable.next {start state : State} (reachable : Reachable step start state)
    (event : Event) : Reachable step start (step state event) :=
  Reachable.extend step reachable [event]

variable {step}

/-- A predicate that every step preserves holds along every run. -/
theorem run_invariant (invariant : State → Prop)
    (preserved : ∀ state event, invariant state → invariant (step state event))
    {start : State} (initial : invariant start) (events : List Event) :
    invariant (run step start events) := by
  induction events generalizing start with
  | nil => exact initial
  | cons event events ih => exact ih (preserved start event initial)

/-- One step lemma and the initial state give every reachable state. -/
theorem Reachable.invariant (invariant : State → Prop) {start state : State}
    (reachable : Reachable step start state) (initial : invariant start)
    (preserved : ∀ state event, invariant state → invariant (step state event)) :
    invariant state := by
  obtain ⟨events, rfl⟩ := reachable
  exact run_invariant invariant preserved initial events

/-- What only `starts` can bring about has held since the start or since such a step. -/
theorem run_held {holds : State → Prop} {starts : State → Event → Prop}
    (cause : ∀ state event, holds (step state event) → holds state ∨ starts state event)
    {start : State} {events : List Event} (final : holds (run step start events)) :
    (∀ middle, middle <+: events → holds (run step start middle)) ∨
      ∃ before event after, events = before ++ event :: after ∧
        starts (run step start before) event ∧
          ∀ middle, middle <+: after → holds (run step start (before ++ event :: middle)) := by
  induction events using List.reverseRecOn with
  | nil =>
    refine Or.inl fun middle initially => ?_
    obtain rfl : middle = [] := List.prefix_nil.mp initially
    exact final
  | append_singleton earlier last ih =>
    have stepped : run step start (earlier ++ [last]) = step (run step start earlier) last :=
      run_append step start earlier [last]
    rcases cause _ _ (stepped ▸ final) with held | started
    · rcases ih held with always | ⟨before, event, after, rfl, started, since⟩
      · refine Or.inl fun middle initially => ?_
        rcases List.prefix_concat_iff.mp initially with rfl | shorter
        · exact final
        · exact always middle shorter
      · refine Or.inr ⟨before, event, after ++ [last], by simp, started, ?_⟩
        intro middle initially
        rcases List.prefix_concat_iff.mp initially with rfl | shorter
        · simpa using final
        · exact since middle shorter
    · refine Or.inr ⟨earlier, last, [], rfl, started, ?_⟩
      intro middle initially
      obtain rfl : middle = [] := List.prefix_nil.mp initially
      exact final

/-- What does not hold at the start has held without a break since a step that starts it. -/
theorem run_since {holds : State → Prop} {starts : State → Event → Prop}
    (cause : ∀ state event, holds (step state event) → holds state ∨ starts state event)
    {start : State} (initial : ¬holds start) {events : List Event}
    (final : holds (run step start events)) :
    ∃ before event after, events = before ++ event :: after ∧
      starts (run step start before) event ∧
        ∀ middle, middle <+: after → holds (run step start (before ++ event :: middle)) :=
  (run_held cause final).resolve_left fun always => initial (always [] (List.nil_prefix))

variable (step)

/-- Every step of the run meets `allowed` in the state it is taken from. -/
def Along (allowed : State → Event → Prop) : State → List Event → Prop
  | _, [] => True
  | state, event :: events => allowed state event ∧ Along allowed (step state event) events

instance decidableAlong (allowed : State → Event → Prop)
    [decide : ∀ state event, Decidable (allowed state event)] :
    ∀ (start : State) (events : List Event), Decidable (Along step allowed start events)
  | _, [] => inferInstanceAs (Decidable True)
  | state, event :: events =>
    have := decidableAlong allowed (step state event) events
    inferInstanceAs (Decidable (_ ∧ _))

theorem along_append {allowed : State → Event → Prop} {start : State} {first second : List Event} :
    Along step allowed start (first ++ second) ↔
      Along step allowed start first ∧ Along step allowed (run step start first) second := by
  induction first generalizing start with
  | nil => simp [Along]
  | cons event first ih => simp [Along, ih, and_assoc]

variable {step}

theorem Along.mono {weak strong : State → Event → Prop}
    (weaker : ∀ state event, strong state event → weak state event) {start : State}
    {events : List Event} (along : Along step strong start events) :
    Along step weak start events := by
  induction events generalizing start with
  | nil => trivial
  | cons event events ih => exact ⟨weaker _ _ along.1, ih along.2⟩

theorem Along.of_forall {allowed : State → Event → Prop}
    (every : ∀ state event, allowed state event) (start : State) (events : List Event) :
    Along step allowed start events := by
  induction events generalizing start with
  | nil => trivial
  | cons event events ih => exact ⟨every start event, ih _⟩

theorem Along.and {left right : State → Event → Prop} {start : State} {events : List Event}
    (first : Along step left start events) (second : Along step right start events) :
    Along step (fun state event => left state event ∧ right state event) start events := by
  induction events generalizing start with
  | nil => trivial
  | cons event events ih => exact ⟨⟨first.1, second.1⟩, ih first.2 second.2⟩

/-- An invariant holds in the state of every step of the run. -/
theorem Along.of_invariant (invariant : State → Prop)
    (preserved : ∀ state event, invariant state → invariant (step state event))
    {start : State} (initial : invariant start) (events : List Event) :
    Along step (fun state _ => invariant state) start events := by
  induction events generalizing start with
  | nil => trivial
  | cons event events ih => exact ⟨initial, ih (preserved start event initial)⟩

theorem Along.run_invariant (invariant : State → Prop) {allowed : State → Event → Prop}
    (preserved : ∀ state event, invariant state → allowed state event →
      invariant (step state event))
    {start : State} (initial : invariant start) {events : List Event}
    (along : Along step allowed start events) : invariant (run step start events) := by
  induction events generalizing start with
  | nil => exact initial
  | cons event events ih => exact ih (preserved start event initial along.1) along.2

variable (step) {Observation : Type}

/-- What the steps of a run show, in order; a silent step shows nothing. -/
def trace (observe : State → Event → Option Observation) : State → List Event → List Observation
  | _, [] => []
  | state, event :: events =>
    (observe state event).toList ++ trace observe (step state event) events

@[simp] theorem trace_nil (observe : State → Event → Option Observation) (start : State) :
    trace step observe start [] = [] := rfl

theorem trace_append (observe : State → Event → Option Observation) (start : State)
    (first second : List Event) :
    trace step observe start (first ++ second) =
      trace step observe start first ++ trace step observe (run step start first) second := by
  induction first generalizing start with
  | nil => rfl
  | cons event first ih => simp [trace, ih, List.append_assoc]

/-- A credit that no step gives back and that showing `value` spends: a run shows
`value` at most once, and never without the credit. -/
theorem Along.trace_count_le_one [DecidableEq Observation]
    {observe : State → Event → Option Observation} {allowed : State → Event → Prop}
    (credit : State → Prop) {value : Observation}
    (kept : ∀ state event, allowed state event → credit (step state event) → credit state)
    (spent : ∀ state event, allowed state event → observe state event = some value →
      credit state ∧ ¬credit (step state event))
    {start : State} {events : List Event} (along : Along step allowed start events) :
    (trace step observe start events).count value ≤ 1 ∧
      (¬credit start → (trace step observe start events).count value = 0) := by
  induction events generalizing start with
  | nil => simp
  | cons event events ih =>
    obtain ⟨atMostOnce, never⟩ := ih along.2
    rw [trace, List.count_append]
    by_cases shown : observe start event = some value
    · obtain ⟨held, lost⟩ := spent start event along.1 shown
      have once : (observe start event).toList.count value = 1 := by simp [shown]
      rw [once, never lost]
      exact ⟨Nat.le_refl 1, fun absent => absurd held absent⟩
    · have silent : (observe start event).toList.count value = 0 := by
        cases seen : observe start event with
        | none => rfl
        | some other =>
          have different : other ≠ value := fun same => shown (same ▸ seen)
          simp [different]
      rw [silent, Nat.zero_add]
      exact ⟨atMostOnce, fun absent => never (mt (kept start event along.1) absent)⟩

end ZenithRelay.Execution
