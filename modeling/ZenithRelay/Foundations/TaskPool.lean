import ZenithRelay.Foundations.BTreeMap
import ZenithRelay.Foundations.Execution
import ZenithRelay.Foundations.Resumption

/-!
# Tasks over shared state

Any number of programs interleaved action by action, and the induction rule for
what they keep: every program follows a protocol, and the invariant speaks of
the shared state and of the phase each task is in.
-/

set_option autoImplicit false

namespace ZenithRelay

abbrev TaskId := Nat

/-- What the actions do. `execute` is `none` while the action has to wait; at the
actions that `awaits` a task can be dropped, and what it holds is given back. -/
structure TaskMachine {Action : Type} (Response : Action → Type) (Shared Oracle : Type) where
  execute : Shared → TaskId → (action : Action) → Oracle → Option (Shared × Response action)
  awaits : Action → Bool
  leave : Shared → TaskId → Shared

structure TaskPool {Action : Type} (Response : Action → Type) (Shared Result : Type) where
  shared : Shared
  tasks : BTreeMap TaskId (Resumption Response Result)
  results : List Result

inductive TaskEvent (Operation Oracle : Type) where
  | spawn (task : TaskId) (operation : Operation)
  | resume (task : TaskId) (oracle : Oracle)
  | abandon (task : TaskId)

namespace TaskPool

variable {Action : Type} {Response : Action → Type} {Shared Oracle Operation Result : Type}
  (machine : TaskMachine Response Shared Oracle)
  (program : Operation → Resumption Response Result)

def init (shared : Shared) : TaskPool Response Shared Result := ⟨shared, ∅, []⟩

/-- A task as it stands, if the id is in use. -/
def task (pool : TaskPool Response Shared Result) (id : TaskId) :
    Option (Resumption Response Result) := pool.tasks[id]?

/-- The pool once `id` has left it. -/
def retire (pool : TaskPool Response Shared Result) (id : TaskId) :
    TaskPool Response Shared Result :=
  { pool with shared := machine.leave pool.shared id, tasks := pool.tasks.erase id }

def step (pool : TaskPool Response Shared Result) :
    TaskEvent Operation Oracle → TaskPool Response Shared Result
  | .spawn id operation =>
    match pool.task id with
    | some _ => pool
    | none => { pool with tasks := pool.tasks.insert id (program operation) }
  | .resume id oracle =>
    match pool.task id with
    | none => pool
    | some (.done result) =>
      { pool.retire machine id with results := result :: pool.results }
    | some (.perform action next) =>
      match machine.execute pool.shared id action oracle with
      | none => pool
      | some (shared, response) =>
        { pool with shared := shared, tasks := pool.tasks.insert id (next response) }
  | .abandon id =>
    match pool.task id with
    | some (.perform action _) => if machine.awaits action then pool.retire machine id else pool
    | _ => pool

/-- The action that a task performs when it is resumed. -/
def nextAction (pool : TaskPool Response Shared Result) (id : TaskId) : Option Action :=
  (pool.task id).bind fun
    | .done _ => none
    | .perform action _ => some action

/-- What one event does to the shared state. -/
inductive SharedStep (pool : TaskPool Response Shared Result)
    (event : TaskEvent Operation Oracle) (after : Shared) : Prop where
  | idle (same : after = pool.shared)
  | left (id : TaskId) (same : after = machine.leave pool.shared id)
  | performed (id : TaskId) (oracle : Oracle) (action : Action) (response : Response action)
      (next : Response action → Resumption Response Result) (resumed : event = .resume id oracle)
      (runs : pool.task id = some (.perform action next))
      (executed : machine.execute pool.shared id action oracle = some (after, response))

theorem step_shared (pool : TaskPool Response Shared Result) (event : TaskEvent Operation Oracle) :
    SharedStep machine pool event (pool.step machine program event).shared := by
  cases event with
  | spawn id operation =>
      rw [step]
      split <;> exact .idle rfl
  | resume id oracle =>
      rw [step]
      split
      · exact .idle rfl
      · exact .left id rfl
      next action next runs =>
        split
        · exact .idle rfl
        next after response executed => exact .performed id oracle action response next rfl runs executed
  | abandon id =>
      rw [step]
      split
      · split
        · exact .left id rfl
        · exact .idle rfl
      · exact .idle rfl

/-- Results are only ever added. -/
theorem results_step (pool : TaskPool Response Shared Result) (event : TaskEvent Operation Oracle) :
    pool.results ⊆ (pool.step machine program event).results := by
  cases event with
  | spawn id operation =>
      rw [step]
      split <;> exact fun _ member => member
  | resume id oracle =>
      rw [step]
      split
      · exact fun _ member => member
      · exact fun _ member => List.mem_cons_of_mem _ member
      · split <;> exact fun _ member => member
  | abandon id =>
      rw [step]
      split
      · split <;> exact fun _ member => member
      · exact fun _ member => member

def run : TaskPool Response Shared Result → List (TaskEvent Operation Oracle) →
    TaskPool Response Shared Result := Execution.run (step machine program)

end TaskPool

/-- An invariant of the shared state and of the phases of the tasks, together with
what makes it inductive. -/
structure Discipline {Action : Type} {Response : Action → Type}
    {Shared Oracle Operation Result : Type} (machine : TaskMachine Response Shared Oracle)
    (program : Operation → Resumption Response Result) (Permitted : Operation → Prop)
    (Phase : Type) where
  protocol : Protocol Response Phase
  initial : Phase
  Final : Phase → Result → Prop
  Invariant : Shared → (TaskId → Option Phase) → List Result → Prop
  follows : ∀ operation, Permitted operation →
    protocol.Follows Final initial (program operation)
  spawns : ∀ {shared phases results task}, Invariant shared phases results →
    phases task = none → Invariant shared (Function.update phases task (some initial)) results
  executes : ∀ {shared phases results task phase action oracle after response},
    Invariant shared phases results → phases task = some phase →
    protocol.Allowed phase action →
    machine.execute shared task action oracle = some (after, response) →
    Invariant after
      (Function.update phases task (some (protocol.after phase action response))) results
  returns : ∀ {shared phases results task phase result},
    Invariant shared phases results → phases task = some phase → Final phase result →
    Invariant (machine.leave shared task) (Function.update phases task none) (result :: results)
  abandons : ∀ {shared phases results task phase action},
    Invariant shared phases results → phases task = some phase →
    protocol.Allowed phase action → machine.awaits action = true →
    Invariant (machine.leave shared task) (Function.update phases task none) results

namespace Discipline

variable {Action : Type} {Response : Action → Type} {Shared Oracle Operation Result Phase : Type}
  {machine : TaskMachine Response Shared Oracle}
  {program : Operation → Resumption Response Result} {Permitted : Operation → Prop}
  (discipline : Discipline machine program Permitted Phase)

/-- The task is in the phase that its program has reached. -/
def InPhase (pool : TaskPool Response Shared Result) (phases : TaskId → Option Phase)
    (id : TaskId) : Prop :=
  match pool.task id, phases id with
  | none, none => True
  | some remaining, some phase =>
    discipline.protocol.Follows discipline.Final phase remaining
  | _, _ => False

/-- The invariant, for some choice of phases that the tasks are in. -/
def Holds (pool : TaskPool Response Shared Result) : Prop :=
  ∃ phases, discipline.Invariant pool.shared phases pool.results ∧
    ∀ id, discipline.InPhase pool phases id

variable {discipline}

theorem InPhase.idle {pool : TaskPool Response Shared Result} {phases : TaskId → Option Phase}
    {id : TaskId} (inPhase : discipline.InPhase pool phases id) (absent : pool.task id = none) :
    phases id = none := by
  unfold InPhase at inPhase
  rw [absent] at inPhase
  cases phase : phases id with
  | none => rfl
  | some _ =>
      rw [phase] at inPhase
      exact inPhase.elim

theorem InPhase.running {pool : TaskPool Response Shared Result} {phases : TaskId → Option Phase}
    {id : TaskId} {remaining : Resumption Response Result}
    (inPhase : discipline.InPhase pool phases id) (runs : pool.task id = some remaining) :
    ∃ phase, phases id = some phase ∧
      discipline.protocol.Follows discipline.Final phase remaining := by
  unfold InPhase at inPhase
  rw [runs] at inPhase
  cases phase : phases id with
  | none =>
      rw [phase] at inPhase
      exact inPhase.elim
  | some reached =>
      rw [phase] at inPhase
      exact ⟨reached, rfl, inPhase⟩

/-- A task that moved on is in its new phase, and the others where they were. -/
theorem inPhase_insert {pool after : TaskPool Response Shared Result}
    {phases : TaskId → Option Phase} (inPhase : ∀ id, discipline.InPhase pool phases id)
    {moved : TaskId} {remaining : Resumption Response Result} {phase : Phase}
    (tasks : after.tasks = pool.tasks.insert moved remaining)
    (follows : discipline.protocol.Follows discipline.Final phase remaining) (id : TaskId) :
    discipline.InPhase after (Function.update phases moved (some phase)) id := by
  unfold InPhase TaskPool.task
  rw [tasks, BTreeMap.lookup_insert]
  by_cases same : id = moved
  · subst same
    rw [if_pos rfl, Function.update_self]
    exact follows
  · rw [if_neg same, Function.update_of_ne same]
    exact inPhase id

theorem inPhase_erase {pool after : TaskPool Response Shared Result}
    {phases : TaskId → Option Phase} (inPhase : ∀ id, discipline.InPhase pool phases id)
    {left : TaskId} (tasks : after.tasks = pool.tasks.erase left) (id : TaskId) :
    discipline.InPhase after (Function.update phases left none) id := by
  unfold InPhase TaskPool.task
  rw [tasks, BTreeMap.lookup_erase]
  by_cases same : id = left
  · subst same
    rw [if_pos rfl, Function.update_self]
    trivial
  · rw [if_neg same, Function.update_of_ne same]
    exact inPhase id

/-- The action a task is about to perform is allowed in the phase it is in. -/
theorem Holds.performing {pool : TaskPool Response Shared Result}
    (holds : discipline.Holds pool) {id : TaskId} {action : Action}
    {next : Response action → Resumption Response Result}
    (runs : pool.task id = some (.perform action next)) :
    ∃ phases phase, discipline.Invariant pool.shared phases pool.results ∧
      phases id = some phase ∧ discipline.protocol.Allowed phase action := by
  obtain ⟨phases, invariant, inPhase⟩ := holds
  obtain ⟨phase, reached, follows⟩ := (inPhase id).running runs
  exact ⟨phases, phase, invariant, reached, follows.of_perform.1⟩

theorem init {shared : Shared} (initially : discipline.Invariant shared (fun _ => none) []) :
    discipline.Holds (.init shared) := by
  refine ⟨fun _ => none, initially, fun id => ?_⟩
  have absent : (TaskPool.init shared : TaskPool Response Shared Result).task id = none := by
    simp [TaskPool.task, TaskPool.init]
  unfold InPhase
  rw [absent]
  trivial

theorem InPhase.absent {pool : TaskPool Response Shared Result} {phases : TaskId → Option Phase}
    {id : TaskId} (inPhase : discipline.InPhase pool phases id) (gone : phases id = none) :
    pool.task id = none := by
  unfold InPhase at inPhase
  rw [gone] at inPhase
  cases runs : pool.task id with
  | none => rfl
  | some _ =>
      rw [runs] at inPhase
      exact inPhase.elim

/-- A task that performs its next action moves to the phase that the response leads to. -/
theorem perform {pool : TaskPool Response Shared Result} {phases : TaskId → Option Phase}
    (invariant : discipline.Invariant pool.shared phases pool.results)
    (inPhase : ∀ id, discipline.InPhase pool phases id) {id : TaskId} {action : Action}
    {next : Response action → Resumption Response Result} {oracle : Oracle} {after : Shared}
    {response : Response action} (runs : pool.task id = some (.perform action next))
    (executed : machine.execute pool.shared id action oracle = some (after, response)) :
    ∃ phase, phases id = some phase ∧ discipline.protocol.Allowed phase action ∧
      (pool.step machine program (.resume id oracle)).shared = after ∧
      discipline.Invariant (pool.step machine program (.resume id oracle)).shared
        (Function.update phases id (some (discipline.protocol.after phase action response)))
        (pool.step machine program (.resume id oracle)).results ∧
      ∀ other, discipline.InPhase (pool.step machine program (.resume id oracle))
        (Function.update phases id (some (discipline.protocol.after phase action response)))
        other := by
  obtain ⟨phase, reached, follows⟩ := (inPhase id).running runs
  obtain ⟨allowed, rest⟩ := follows.of_perform
  have stepped : pool.step machine program (.resume id oracle) =
      { pool with shared := after, tasks := pool.tasks.insert id (next response) } := by
    simp only [TaskPool.step, runs, executed]
  rw [stepped]
  exact ⟨phase, reached, allowed, rfl, discipline.executes invariant reached allowed executed,
    inPhase_insert inPhase rfl (rest response)⟩

variable (discipline) in
/-- The task has reached its end, or is dropped where it waits. -/
def Ends (pool : TaskPool Response Shared Result) (event : TaskEvent Operation Oracle)
    (id : TaskId) (phase : Phase) : Prop :=
  (∃ result, discipline.Final phase result) ∨
    event = .abandon id ∧ ∃ action next, pool.task id = some (.perform action next) ∧
      discipline.protocol.Allowed phase action ∧ machine.awaits action = true

/-- What an event does to the shared state and to the phases of the tasks. -/
inductive PhaseStep (discipline : Discipline machine program Permitted Phase)
    (pool : TaskPool Response Shared Result) (event : TaskEvent Operation Oracle)
    (phases : TaskId → Option Phase) : Shared → (TaskId → Option Phase) → Prop
  | idle : PhaseStep discipline pool event phases pool.shared phases
  | spawned {id : TaskId} (absent : phases id = none) :
      PhaseStep discipline pool event phases pool.shared
        (Function.update phases id (some discipline.initial))
  | left {id : TaskId} {phase : Phase} (reached : phases id = some phase)
      (ends : discipline.Ends pool event id phase) :
      PhaseStep discipline pool event phases (machine.leave pool.shared id)
        (Function.update phases id none)
  | performed {id : TaskId} {oracle : Oracle} {action : Action} {after : Shared}
      {response : Response action} {next : Response action → Resumption Response Result}
      {phase : Phase} (resumed : event = .resume id oracle)
      (runs : pool.task id = some (.perform action next)) (reached : phases id = some phase)
      (allowed : discipline.protocol.Allowed phase action)
      (executed : machine.execute pool.shared id action oracle = some (after, response)) :
      PhaseStep discipline pool event phases after
        (Function.update phases id (some (discipline.protocol.after phase action response)))

/-- The phases after an event, for which the invariant holds again. -/
theorem phaseStep {pool : TaskPool Response Shared Result} {phases : TaskId → Option Phase}
    (invariant : discipline.Invariant pool.shared phases pool.results)
    (inPhase : ∀ id, discipline.InPhase pool phases id) {event : TaskEvent Operation Oracle}
    (permitted : ∀ id operation, event = .spawn id operation → Permitted operation) :
    ∃ after, PhaseStep discipline pool event phases (pool.step machine program event).shared after ∧
      discipline.Invariant (pool.step machine program event).shared after
        (pool.step machine program event).results ∧
      ∀ id, discipline.InPhase (pool.step machine program event) after id := by
  cases event with
  | spawn id operation =>
      rw [TaskPool.step]
      split
      · exact ⟨phases, .idle, invariant, inPhase⟩
      next absent =>
        have free := (inPhase id).idle absent
        exact ⟨_, .spawned free, discipline.spawns invariant free,
          inPhase_insert inPhase rfl (discipline.follows operation (permitted id operation rfl))⟩
  | resume id oracle =>
      rw [TaskPool.step]
      split
      · exact ⟨phases, .idle, invariant, inPhase⟩
      next result runs =>
        obtain ⟨phase, reached, follows⟩ := (inPhase id).running runs
        exact ⟨_, .left reached (Or.inl ⟨result, follows.of_done⟩),
          discipline.returns invariant reached follows.of_done,
          inPhase_erase inPhase rfl⟩
      next action next runs =>
        obtain ⟨phase, reached, follows⟩ := (inPhase id).running runs
        obtain ⟨allowed, rest⟩ := follows.of_perform
        split
        · exact ⟨phases, .idle, invariant, inPhase⟩
        next after response executed =>
          exact ⟨_, .performed rfl runs reached allowed executed,
            discipline.executes invariant reached allowed executed,
            inPhase_insert inPhase rfl (rest response)⟩
  | abandon id =>
      rw [TaskPool.step]
      split
      next action next runs =>
        obtain ⟨phase, reached, follows⟩ := (inPhase id).running runs
        split
        next awaits =>
          exact ⟨_, .left reached (Or.inr ⟨rfl, action, next, runs, follows.of_perform.1, awaits⟩),
            discipline.abandons invariant reached follows.of_perform.1 awaits,
            inPhase_erase inPhase rfl⟩
        · exact ⟨phases, .idle, invariant, inPhase⟩
      · exact ⟨phases, .idle, invariant, inPhase⟩

theorem step {pool : TaskPool Response Shared Result} (holds : discipline.Holds pool)
    {event : TaskEvent Operation Oracle}
    (permitted : ∀ id operation, event = .spawn id operation → Permitted operation) :
    discipline.Holds (pool.step machine program event) := by
  obtain ⟨phases, invariant, inPhase⟩ := holds
  obtain ⟨after, -, kept⟩ := phaseStep invariant inPhase permitted
  exact ⟨after, kept⟩

theorem run {pool : TaskPool Response Shared Result} (holds : discipline.Holds pool)
    {events : List (TaskEvent Operation Oracle)}
    (permitted : ∀ id operation, TaskEvent.spawn id operation ∈ events → Permitted operation) :
    discipline.Holds (pool.run machine program events) := by
  induction events generalizing pool with
  | nil => exact holds
  | cons event events ih =>
    refine ih (step holds ?_) ?_
    · rintro id operation rfl
      exact permitted id operation List.mem_cons_self
    · exact fun id operation member => permitted id operation (List.mem_cons_of_mem _ member)

variable (discipline) in
/-- Every step that is allowed keeps a property of the state and the phases, given the
invariant. -/
def Keeps (Extra : Shared → (TaskId → Option Phase) → Prop)
    (allowed : TaskPool Response Shared Result → TaskEvent Operation Oracle → Prop) : Prop :=
  ∀ pool event phases after phasesAfter,
    discipline.Invariant pool.shared phases pool.results → Extra pool.shared phases →
    allowed pool event →
    (∀ id, phasesAfter id = none → (pool.step machine program event).task id = none) →
    PhaseStep discipline pool event phases after phasesAfter → Extra after phasesAfter

theorem Keeps.run {Extra : Shared → (TaskId → Option Phase) → Prop}
    {allowed : TaskPool Response Shared Result → TaskEvent Operation Oracle → Prop}
    (kept : discipline.Keeps Extra allowed)
    {pool : TaskPool Response Shared Result} {phases : TaskId → Option Phase}
    (invariant : discipline.Invariant pool.shared phases pool.results)
    (inPhase : ∀ id, discipline.InPhase pool phases id) (extra : Extra pool.shared phases)
    {events : List (TaskEvent Operation Oracle)}
    (permitted : ∀ id operation, TaskEvent.spawn id operation ∈ events → Permitted operation)
    (along : Execution.Along (TaskPool.step machine program) allowed pool events) :
    ∃ after, discipline.Invariant (pool.run machine program events).shared after
        (pool.run machine program events).results ∧
      (∀ id, discipline.InPhase (pool.run machine program events) after id) ∧
      Extra (pool.run machine program events).shared after := by
  induction events generalizing pool phases with
  | nil => exact ⟨phases, invariant, inPhase, extra⟩
  | cons event events ih =>
    obtain ⟨now, rest⟩ := along
    have first : ∀ id operation, event = .spawn id operation → Permitted operation := by
      rintro id operation rfl
      exact permitted id operation List.mem_cons_self
    obtain ⟨after, moves, invariantAfter, inPhaseAfter⟩ := phaseStep invariant inPhase first
    refine ih invariantAfter inPhaseAfter ?_
      (fun id operation member => permitted id operation (List.mem_cons_of_mem _ member)) rest
    exact kept pool event phases _ after invariant extra now
      (fun id gone => (inPhaseAfter id).absent gone) moves

end Discipline

end ZenithRelay
