import Mathlib

/-!
# Computations over fallible storage

Every operation on the storage may fail, and the process may stop before any of
them. A pattern tells of each operation in turn whether it succeeds; where the
pattern ends, the process stops. A law for all patterns covers every failure and
every stop.
-/

set_option autoImplicit false

namespace ZenithRelay

inductive Ended (State Result : Type) where
  | returned (result : Result) (state : State) (pattern : List Bool)
  | stopped (state : State)

def Fallible (State Result : Type) : Type := State → List Bool → Ended State Result

/-- A computation that reports its failures. -/
abbrev Guarded (State Error Result : Type) : Type := ExceptT Error (Fallible State) Result

namespace Fallible

variable {State Result Next Error : Type}

instance : Monad (Fallible State) where
  pure result := fun state pattern => .returned result state pattern
  bind first next := fun state pattern =>
    match first state pattern with
    | .returned result state pattern => next result state pattern
    | .stopped state => .stopped state

theorem bind_apply (first : Fallible State Result) (next : Result → Fallible State Next)
    (state : State) (pattern : List Bool) :
    (first >>= next) state pattern =
      match first state pattern with
      | .returned result state pattern => next result state pattern
      | .stopped state => .stopped state := rfl

/-- A look at what cannot fail, such as the memory of the process. -/
def inspect (read : State → Result) : Guarded State Error Result :=
  ExceptT.mk fun state pattern => .returned (.ok (read state)) state pattern

/-- A change that cannot fail. -/
def modify (change : State → State) : Guarded State Error Unit :=
  ExceptT.mk fun state pattern => .returned (.ok ()) (change state) pattern

/-- An operation: it changes the storage when it succeeds and leaves it when it fails. -/
def operate (change : State → State) (error : Error) : Guarded State Error Unit :=
  ExceptT.mk fun state pattern =>
    match pattern with
    | [] => .stopped state
    | true :: pattern => .returned (.ok ()) (change state) pattern
    | false :: pattern => .returned (.error error) state pattern

/-- A read of the storage. -/
def fetch (read : State → Result) (error : Error) : Guarded State Error Result :=
  ExceptT.mk fun state pattern =>
    match pattern with
    | [] => .stopped state
    | true :: pattern => .returned (.ok (read state)) state pattern
    | false :: pattern => .returned (.error error) state pattern

/-- The computation with its failure as a result: `let outcome = computation;` -/
def outcome (program : Guarded State Error Result) : Guarded State Error (Except Error Result) :=
  ExceptT.mk (program.run >>= fun result => pure (.ok result))

/-! ### Laws for every pattern -/

/-- `program` ends with `after`, or the process stops in a state with `stopped`. -/
def Meets (program : Guarded State Error Result) (state : State) (pattern : List Bool)
    (after : Except Error Result → State → List Bool → Prop) (stopped : State → Prop) : Prop :=
  match program.run state pattern with
  | .returned result state pattern => after result state pattern
  | .stopped state => stopped state

variable {state : State} {pattern : List Bool}
  {after weak : Except Error Result → State → List Bool → Prop}
  {stopped weakStopped : State → Prop}

theorem Meets.mono {program : Guarded State Error Result}
    (meets : Meets program state pattern after stopped)
    (weaker : ∀ result state pattern, after result state pattern → weak result state pattern)
    (stops : ∀ state, stopped state → weakStopped state) :
    Meets program state pattern weak weakStopped := by
  simp only [Meets] at meets ⊢
  cases ended : program.run state pattern with
  | returned result next rest =>
    rw [ended] at meets
    exact weaker result next rest meets
  | stopped next =>
    rw [ended] at meets
    exact stops next meets

/-- Two laws of one run cannot exclude each other. -/
theorem Meets.exclusive {program : Guarded State Error Result}
    (meets : Meets program state pattern after stopped)
    (other : Meets program state pattern weak weakStopped)
    (apart : ∀ result state pattern, after result state pattern → ¬weak result state pattern)
    (stops : ∀ state, stopped state → ¬weakStopped state) : False := by
  simp only [Meets] at meets other
  cases ended : program.run state pattern with
  | returned result next rest =>
    rw [ended] at meets other
    exact apart result next rest meets other
  | stopped next =>
    rw [ended] at meets other
    exact stops next meets other

@[simp] theorem meets_pure (result : Result) :
    Meets (pure result : Guarded State Error Result) state pattern after stopped ↔
      after (.ok result) state pattern := Iff.rfl

@[simp] theorem meets_throw (error : Error) :
    Meets (throw error : Guarded State Error Result) state pattern after stopped ↔
      after (.error error) state pattern := Iff.rfl

/-- A failure ends the program; a result is passed on. -/
@[simp] theorem meets_bind (first : Guarded State Error Result)
    (next : Result → Guarded State Error Next)
    {final : Except Error Next → State → List Bool → Prop} :
    Meets (first >>= next) state pattern final stopped ↔
      Meets first state pattern (fun result state pattern =>
        match result with
        | .ok result => Meets (next result) state pattern final stopped
        | .error error => final (.error error) state pattern) stopped := by
  rw [Meets, Meets, ExceptT.run_bind, bind_apply]
  cases first.run state pattern with
  | returned result state pattern => cases result <;> rfl
  | stopped state => rfl

theorem Meets.bind {first : Guarded State Error Result} {next : Result → Guarded State Error Next}
    {final : Except Error Next → State → List Bool → Prop}
    (meets : Meets first state pattern (fun result state pattern =>
      match result with
      | .ok result => Meets (next result) state pattern final stopped
      | .error error => final (.error error) state pattern) stopped) :
    Meets (first >>= next) state pattern final stopped :=
  (meets_bind first next).mpr meets

@[simp] theorem meets_outcome (program : Guarded State Error Result)
    {final : Except Error (Except Error Result) → State → List Bool → Prop} :
    Meets (outcome program) state pattern final stopped ↔
      Meets program state pattern (fun result => final (.ok result)) stopped := by
  rw [Meets, Meets, outcome, ExceptT.run_mk, bind_apply]
  cases program.run state pattern with
  | returned result state pattern => rfl
  | stopped state => rfl

@[simp] theorem meets_inspect (read : State → Result) :
    Meets (inspect read) state pattern after stopped ↔ after (.ok (read state)) state pattern :=
  Iff.rfl

/-- A result that needs no storage. -/
@[simp] theorem meets_ofExcept (result : Except Error Result) :
    Meets (ofExcept result : Guarded State Error Result) state pattern after stopped ↔
      after result state pattern := by
  cases result with
  | error error => rfl
  | ok result => rfl

@[simp] theorem meets_modify (change : State → State)
    {after : Except Error Unit → State → List Bool → Prop} :
    Meets (modify change) state pattern after stopped ↔ after (.ok ()) (change state) pattern :=
  Iff.rfl

/-- An operation takes one item of the pattern. -/
theorem meets_operate (change : State → State) (error : Error)
    {after : Except Error Unit → State → List Bool → Prop} :
    Meets (operate change error) state pattern after stopped ↔
      (pattern = [] → stopped state) ∧
      (∀ rest, pattern = true :: rest → after (.ok ()) (change state) rest) ∧
      ∀ rest, pattern = false :: rest → after (.error error) state rest := by
  cases pattern with
  | nil => exact ⟨fun stops => ⟨fun _ => stops, nofun, nofun⟩, fun cases => cases.1 rfl⟩
  | cons success rest =>
    cases success with
    | true =>
      refine ⟨fun succeeds => ⟨nofun, ?_, nofun⟩, fun cases => cases.2.1 rest rfl⟩
      rintro _ ⟨⟩
      exact succeeds
    | false =>
      refine ⟨fun fails => ⟨nofun, nofun, ?_⟩, fun cases => cases.2.2 rest rfl⟩
      rintro _ ⟨⟩
      exact fails

theorem meets_fetch (read : State → Result) (error : Error) :
    Meets (fetch read error) state pattern after stopped ↔
      (pattern = [] → stopped state) ∧
      (∀ rest, pattern = true :: rest → after (.ok (read state)) state rest) ∧
      ∀ rest, pattern = false :: rest → after (.error error) state rest := by
  cases pattern with
  | nil => exact ⟨fun stops => ⟨fun _ => stops, nofun, nofun⟩, fun cases => cases.1 rfl⟩
  | cons success rest =>
    cases success with
    | true =>
      refine ⟨fun succeeds => ⟨nofun, ?_, nofun⟩, fun cases => cases.2.1 rest rfl⟩
      rintro _ ⟨⟩
      exact succeeds
    | false =>
      refine ⟨fun fails => ⟨nofun, nofun, ?_⟩, fun cases => cases.2.2 rest rfl⟩
      rintro _ ⟨⟩
      exact fails

theorem Meets.operate {change : State → State} {error : Error}
    {after : Except Error Unit → State → List Bool → Prop} (stops : stopped state)
    (succeeds : ∀ rest, after (.ok ()) (change state) rest)
    (fails : ∀ rest, after (.error error) state rest) :
    Meets (operate change error) state pattern after stopped :=
  (meets_operate change error).mpr
    ⟨fun _ => stops, fun rest _ => succeeds rest, fun rest _ => fails rest⟩

theorem Meets.fetch {read : State → Result} {error : Error} (stops : stopped state)
    (succeeds : ∀ rest, after (.ok (read state)) state rest)
    (fails : ∀ rest, after (.error error) state rest) :
    Meets (fetch read error) state pattern after stopped :=
  (meets_fetch read error).mpr
    ⟨fun _ => stops, fun rest _ => succeeds rest, fun rest _ => fails rest⟩

/-! ### Programs that do everything or nothing -/

/-- From here on nothing fails and the process does not stop. -/
def Completes (program : Guarded State Error Result) (state : State)
    (done : Result → State → Prop) : Prop :=
  ∀ pattern, Meets program state pattern
    (fun result next _ => ∃ value, result = .ok value ∧ done value next) fun _ => False

/-- The program leaves the state unless it succeeds. -/
def Atomically (program : Guarded State Error Result) (state : State)
    (done : Result → State → Prop) : Prop :=
  ∀ pattern, Meets program state pattern
    (fun result next _ =>
      match result with
      | .error _ => next = state
      | .ok value => done value next)
    (· = state)

variable {done weakDone : Result → State → Prop} {final : Next → State → Prop}

theorem completes_pure {result : Result} (holds : done result state) :
    Completes (pure result : Guarded State Error Result) state done :=
  fun _ => ⟨result, rfl, holds⟩

theorem Completes.modify {change : State → State} {next : Unit → Guarded State Error Next}
    (completes : Completes (next ()) (change state) final) :
    Completes (Fallible.modify change >>= next) state final :=
  fun pattern => Meets.bind (completes pattern)

theorem completes_modify {change : State → State} {done : Unit → State → Prop}
    (holds : done () (change state)) :
    Completes (Fallible.modify change : Guarded State Error Unit) state done :=
  fun _ => ⟨(), rfl, holds⟩

theorem Atomically.mono {program : Guarded State Error Result}
    (atomically : Atomically program state done)
    (weaker : ∀ result next, done result next → weakDone result next) :
    Atomically program state weakDone := by
  refine fun pattern => (atomically pattern).mono ?_ fun _ => id
  rintro (error | value) next _ holds
  · exact holds
  · exact weaker value next holds

theorem atomically_pure {result : Result} (holds : done result state) :
    Atomically (pure result : Guarded State Error Result) state done :=
  fun _ => holds

theorem atomically_throw (error : Error) :
    Atomically (throw error : Guarded State Error Result) state done :=
  fun _ => rfl

theorem Atomically.inspect {Value : Type} {read : State → Value}
    {next : Value → Guarded State Error Next} (atomically : Atomically (next (read state)) state final) :
    Atomically (Fallible.inspect read >>= next) state final :=
  fun pattern => Meets.bind (atomically pattern)

theorem Atomically.ofExcept {result : Except Error Result} {next : Result → Guarded State Error Next}
    (atomically : ∀ value, result = .ok value → Atomically (next value) state final) :
    Atomically (MonadExcept.ofExcept result >>= next) state final := by
  refine fun pattern => Meets.bind ((meets_ofExcept result).mpr ?_)
  cases result with
  | error error => rfl
  | ok value => exact atomically value rfl pattern

theorem atomically_operate {change : State → State} {error : Error} {done : Unit → State → Prop}
    (holds : done () (change state)) : Atomically (Fallible.operate change error) state done :=
  fun _ => Meets.operate rfl (fun _ => holds) fun _ => rfl

/-- What follows an atomic program may not fail any more. -/
theorem Atomically.bind {first : Guarded State Error Result}
    {next : Result → Guarded State Error Next} (atomically : Atomically first state done)
    (completes : ∀ value middle, done value middle → Completes (next value) middle final) :
    Atomically (first >>= next) state final := by
  refine fun pattern => Meets.bind ((atomically pattern).mono ?_ fun _ => id)
  rintro (error | value) middle rest holds
  · exact holds
  · refine (completes value middle holds rest).mono ?_ fun _ => False.elim
    rintro _ next _ ⟨value, rfl, holds⟩
    exact holds

end Fallible

end ZenithRelay
