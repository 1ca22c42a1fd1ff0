import Mathlib

/-!
# Resumptions

A program as the actions it performs, each continued by its response, and the
protocols that a program follows: which actions a phase allows, which phase each
response leads to, and what holds of the result in the last phase.
-/

set_option autoImplicit false

namespace ZenithRelay

inductive Resumption {Action : Type} (Response : Action → Type) (Result : Type) : Type
  | done (result : Result)
  | perform (action : Action) (next : Response action → Resumption Response Result)

namespace Resumption

variable {Action : Type} {Response : Action → Type} {Result Next : Type}

def bind : Resumption Response Result → (Result → Resumption Response Next) →
    Resumption Response Next
  | .done result, continuation => continuation result
  | .perform action next, continuation =>
    .perform action fun response => bind (next response) continuation

instance : Monad (Resumption Response) where
  pure := .done
  bind := bind

/-- One action, as a program that may still fail later. -/
def act {Failure : Type} (action : Action) :
    ExceptT Failure (Resumption Response) (Response action) :=
  ExceptT.mk (.perform action fun response => .done (.ok response))

end Resumption

/-- The phases of a program, and the actions that each phase allows. -/
structure Protocol {Action : Type} (Response : Action → Type) (Phase : Type) where
  Allowed : Phase → Action → Prop
  after : Phase → (action : Action) → Response action → Phase

namespace Protocol

open Resumption

variable {Action : Type} {Response : Action → Type} {Phase Result Next Failure : Type}
  {protocol : Protocol Response Phase}

/-- Every action the program performs from `phase` is allowed, whatever the responses
are, and `final` holds of the last phase and the result. -/
inductive Follows (protocol : Protocol Response Phase) (final : Phase → Result → Prop) :
    Phase → Resumption Response Result → Prop
  | done {phase result} : final phase result → Follows protocol final phase (.done result)
  | perform {phase action next} : protocol.Allowed phase action →
      (∀ response, Follows protocol final (protocol.after phase action response) (next response)) →
      Follows protocol final phase (.perform action next)

theorem Follows.of_done {final : Phase → Result → Prop} {phase : Phase} {result : Result}
    (follows : protocol.Follows final phase (.done result)) : final phase result := by
  cases follows with
  | done holds => exact holds

theorem Follows.of_perform {final : Phase → Result → Prop} {phase : Phase} {action : Action}
    {next : Response action → Resumption Response Result}
    (follows : protocol.Follows final phase (.perform action next)) :
    protocol.Allowed phase action ∧
      ∀ response, protocol.Follows final (protocol.after phase action response) (next response) := by
  cases follows with
  | perform allowed rest => exact ⟨allowed, rest⟩

theorem Follows.mono {weak strong : Phase → Result → Prop}
    (weaker : ∀ phase result, strong phase result → weak phase result) {phase : Phase}
    {program : Resumption Response Result} (follows : protocol.Follows strong phase program) :
    protocol.Follows weak phase program := by
  induction follows with
  | done holds => exact .done (weaker _ _ holds)
  | perform allowed _ ih => exact .perform allowed ih

theorem Follows.bind {middle : Phase → Result → Prop} {final : Phase → Next → Prop} {phase : Phase}
    {program : Resumption Response Result} {continuation : Result → Resumption Response Next}
    (first : protocol.Follows middle phase program)
    (rest : ∀ phase result, middle phase result →
      protocol.Follows final phase (continuation result)) :
    protocol.Follows final phase (program >>= continuation) := by
  induction first with
  | done holds => exact rest _ _ holds
  | perform allowed _ ih => exact .perform allowed ih

/-! ## Programs that may fail -/

/-- `Follows` for a program whose failures skip the rest of it: `returns` holds of the
last phase and the value, or `fails` of the phase in which it failed and the failure. -/
def Attempts (protocol : Protocol Response Phase) (fails : Phase → Failure → Prop)
    (returns : Phase → Result → Prop) (phase : Phase)
    (program : ExceptT Failure (Resumption Response) Result) : Prop :=
  protocol.Follows
    (fun last result =>
      match result with
      | .ok value => returns last value
      | .error failure => fails last failure) phase program.run

variable {fails : Phase → Failure → Prop} {returns : Phase → Result → Prop} {phase : Phase}

theorem Attempts.pure {value : Result} (holds : returns phase value) :
    protocol.Attempts fails returns phase
      (Pure.pure value : ExceptT Failure (Resumption Response) Result) := .done holds

theorem Attempts.throw {failure : Failure} (holds : fails phase failure) :
    protocol.Attempts fails returns phase
      (throwThe Failure failure : ExceptT Failure (Resumption Response) Result) := .done holds

theorem Attempts.bind {middle : Phase → Result → Prop} {returns : Phase → Next → Prop}
    {program : ExceptT Failure (Resumption Response) Result}
    {continuation : Result → ExceptT Failure (Resumption Response) Next}
    (first : protocol.Attempts fails middle phase program)
    (rest : ∀ phase value, middle phase value →
      protocol.Attempts fails returns phase (continuation value)) :
    protocol.Attempts fails returns phase (program >>= continuation) := by
  refine Follows.bind first ?_
  intro last result holds
  cases result with
  | ok value => exact rest last value holds
  | error failure => exact .done holds

theorem Attempts.act {returns : Phase → Next → Prop} {action : Action}
    {continuation : Response action → ExceptT Failure (Resumption Response) Next}
    (allowed : protocol.Allowed phase action)
    (rest : ∀ response, protocol.Attempts fails returns (protocol.after phase action response)
      (continuation response)) :
    protocol.Attempts fails returns phase (Resumption.act action >>= continuation) := by
  have performed : protocol.Attempts fails
      (fun last response => last = protocol.after phase action response) phase
      (Resumption.act action : ExceptT Failure (Resumption Response) (Response action)) :=
    .perform allowed fun _ => .done rfl
  refine Attempts.bind performed ?_
  rintro last response rfl
  exact rest response

/-- An action as the last step. -/
theorem Attempts.act_last (action : Action) {returns : Phase → Response action → Prop}
    (allowed : protocol.Allowed phase action)
    (holds : ∀ response, returns (protocol.after phase action response) response) :
    protocol.Attempts fails returns phase
      (Resumption.act action : ExceptT Failure (Resumption Response) (Response action)) :=
  .perform allowed fun response => .done (holds response)

theorem Attempts.mono {strong : Phase → Result → Prop}
    (weaker : ∀ phase value, strong phase value → returns phase value)
    {program : ExceptT Failure (Resumption Response) Result}
    (attempts : protocol.Attempts fails strong phase program) :
    protocol.Attempts fails returns phase program := by
  refine Follows.mono ?_ attempts
  intro last result holds
  cases result with
  | ok value => exact weaker last value holds
  | error failure => exact holds

end Protocol

end ZenithRelay
