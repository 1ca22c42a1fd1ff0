import ZenithRelay.Scheduler.Rotation.Types

/-!
# Candidates

Configured members of a pool: identity, models and protocols, observed health,
quota and cooldowns, and the structural half of their eligibility.
-/

set_option autoImplicit false

namespace ZenithRelay

inductive WireApi where
  | responses
  | chatCompletions
  | messages
  | gemini
  | geminiInteractions
  deriving DecidableEq, Repr

namespace WireApi

instance : Ord WireApi := ⟨fun left right => compare left.ctorIdx right.ctorIdx⟩

instance : Std.TransOrd WireApi := inferInstanceAs (Std.TransCmp (compareOn WireApi.ctorIdx))

instance : Std.LawfulEqOrd WireApi where
  eq_of_compare {left right} same := by
    cases left <;> cases right <;> first | rfl | (revert same; decide)

end WireApi

/-- Canonical identity of a model in catalog entries and saved policies. -/
def modelIdKey (model : String) : String := Text.toAsciiLowercase (Text.trim model)

def isImageModelId (model : String) : Bool :=
  Text.startsWith (modelIdKey model) "gpt-image-" || Text.startsWith (modelIdKey model) "dall-e-"

structure ModelRules where
  allowed : BTreeSet String
  excluded : BTreeSet String
  deriving DecidableEq

namespace ModelRules

def default : ModelRules := ⟨∅, ∅⟩

/-- A rule is `*`, an exact id, or a start followed by `*`. A start that matches
apart from case has as many characters as the part of the model it stands for. -/
def ruleMatches (rule model : String) : Bool :=
  let characters := (Text.trim rule).toList
  if characters = ['*'] then true
  else if characters.getLast? = some '*' then
    let start := characters.dropLast
    Text.eqIgnoreAsciiCase (String.ofList (model.toList.take start.length)) (String.ofList start)
  else Text.eqIgnoreAsciiCase (Text.trim rule) model

/-- An exact snapshot with exclusions leaves models that were not known then on. -/
def exactSnapshotIncludesLaterModels (rules : ModelRules) : Bool :=
  !rules.excluded.isEmpty &&
    (rules.allowed.toList ++ rules.excluded.toList).all fun rule => !rule.toList.contains '*'

def allows (rules : ModelRules) (model : String) : Bool :=
  if rules.excluded.toList.any fun rule => ruleMatches rule model then false
  else
    rules.allowed.isEmpty || (rules.allowed.toList.any fun rule => ruleMatches rule model) ||
      rules.exactSnapshotIncludesLaterModels

end ModelRules

namespace Scheduler

open Rotation

inductive CandidateKind where
  | apiSource
  | oAuthAccount
  deriving DecidableEq, Repr

inductive CandidateHealth where
  | unknown
  | healthy
  | degraded
  | unhealthy
  | reauthRequired
  | checkpoint
  | captcha
  | blocked
  | expired
  deriving DecidableEq, Repr

def CandidateHealth.isEligible : CandidateHealth → Bool
  | .unknown | .healthy | .degraded => true
  | _ => false

inductive CandidateQuota where
  | unknown
  | available (remaining : Nat)
  | creditFallback
  | exhausted
  | stale
  deriving DecidableEq, Repr

inductive CooldownReason where
  | transient
  | rateLimit
  | mandatory
  deriving DecidableEq, Repr

/-- The complete quota data reported for one runtime candidate. -/
structure CandidateQuotaState where
  quota : CandidateQuota
  updatedAtMs : Option Nat
  resetAtMs : Option Nat
  providerCreditsMicroUnits : Option Nat
  providerCreditsUnlimited : Bool
  providerCreditsObservedAtMs : Option Nat
  deriving DecidableEq, Repr

structure RuntimeCandidate where
  id : String
  kind : CandidateKind
  sourceId : String
  accountId : Option String
  /-- Legacy default of candidates without `modelProtocols`. -/
  protocol : WireApi
  modelProtocols : BTreeMap String (BTreeSet WireApi)
  enabled : Bool
  draining : Bool
  priority : Int
  weight : Nat
  models : BTreeSet String
  modelRules : ModelRules
  health : CandidateHealth
  quota : CandidateQuota
  providerCreditsMicroUnits : Option Nat
  providerCreditsUnlimited : Bool
  providerCreditsObservedAtMs : Option Nat
  quotaUpdatedAtMs : Option Nat
  quotaResetAtMs : Option Nat
  cooldowns : BTreeMap String Nat
  lastUsedAt : Option Nat
  secretAvailable : Bool
  deriving DecidableEq

structure CandidateScope where
  sourceIds : Option (BTreeSet String)
  accountIds : Option (BTreeSet String)
  modelRules : ModelRules
  deriving DecidableEq

namespace CandidateScope

def default : CandidateScope := ⟨none, none, .default⟩

def includes (scope : CandidateScope) (candidate : RuntimeCandidate) : Bool :=
  if scope.sourceIds.isNone && scope.accountIds.isNone then true
  else
    scope.sourceIds.any (·.contains candidate.sourceId) ||
      candidate.accountId.any fun accountId => scope.accountIds.any (·.contains accountId)

end CandidateScope

namespace RuntimeCandidate

def setQuotaState (candidate : RuntimeCandidate) (state : CandidateQuotaState) :
    RuntimeCandidate :=
  { candidate with
    quota := state.quota
    quotaUpdatedAtMs := state.updatedAtMs
    quotaResetAtMs := state.resetAtMs
    providerCreditsMicroUnits := state.providerCreditsMicroUnits
    providerCreditsUnlimited := state.providerCreditsUnlimited
    providerCreditsObservedAtMs := state.providerCreditsObservedAtMs }

def supportsModel (candidate : RuntimeCandidate) (model : String) : Bool :=
  candidate.models.contains model ||
    candidate.models.toList.any fun candidateModel => Text.eqIgnoreAsciiCase candidateModel model

def supportsProtocol (candidate : RuntimeCandidate) (model : String) (allowed : List WireApi) :
    Bool :=
  if !candidate.modelProtocols.isEmpty then
    candidate.modelProtocols[modelIdKey model]?.any fun protocols =>
      allowed.any fun protocol => protocols.contains protocol
  else
    allowed.contains candidate.protocol ||
      (candidate.kind == .oAuthAccount && candidate.protocol == .responses && !allowed.isEmpty)

def isConfigured (candidate : RuntimeCandidate) (model : String)
    (allowedProtocols : List WireApi) (scope : CandidateScope) : Bool :=
  candidate.enabled && !candidate.draining && candidate.secretAvailable &&
    candidate.supportsProtocol model allowedProtocols && candidate.supportsModel model &&
    candidate.modelRules.allows model && scope.includes candidate && scope.modelRules.allows model

end RuntimeCandidate

end Scheduler

end ZenithRelay
