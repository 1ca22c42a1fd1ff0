import ZenithRelay.Scheduler.Candidate

/-!
# Scheduler activity

Requests in flight by owner and lane, the models they use, and the dispatches
that were started. The owner is a candidate id or the key of a physical member.
-/

set_option autoImplicit false

namespace ZenithRelay.Scheduler

inductive InFlightLane where
  | text
  | image
  deriving DecidableEq, Repr

namespace InFlightLane

instance : Ord InFlightLane := ⟨fun left right => compare left.ctorIdx right.ctorIdx⟩

instance : Std.TransOrd InFlightLane :=
  inferInstanceAs (Std.TransCmp (compareOn InFlightLane.ctorIdx))

instance : Std.LawfulEqOrd InFlightLane where
  eq_of_compare {left right} same := by
    cases left <;> cases right <;> first | rfl | (revert same; decide)

end InFlightLane

structure SchedulerActivity where
  textInFlight : BTreeMap String Nat
  imageInFlight : BTreeMap String Nat
  activeModels : BTreeMap (String × InFlightLane) (BTreeMap String Nat)
  textDispatches : BTreeMap String Nat
  imageDispatches : BTreeMap String Nat
  deriving DecidableEq

namespace SchedulerActivity

def default : SchedulerActivity := ⟨∅, ∅, ∅, ∅, ∅⟩

def inFlightMap (activity : SchedulerActivity) : InFlightLane → BTreeMap String Nat
  | .text => activity.textInFlight
  | .image => activity.imageInFlight

def withInFlightMap (activity : SchedulerActivity) (inFlight : BTreeMap String Nat) :
    InFlightLane → SchedulerActivity
  | .text => { activity with textInFlight := inFlight }
  | .image => { activity with imageInFlight := inFlight }

def removeCandidate (activity : SchedulerActivity) (candidateId : String) : SchedulerActivity where
  textInFlight := activity.textInFlight.erase candidateId
  imageInFlight := activity.imageInFlight.erase candidateId
  activeModels := activity.activeModels.filter fun key _ => key.1 ≠ candidateId
  textDispatches := activity.textDispatches.erase candidateId
  imageDispatches := activity.imageDispatches.erase candidateId

/-- `entry(key).or_default()` followed by a saturating increment. -/
def increment (bound : Nat) (counts : BTreeMap String Nat) (key : String) : BTreeMap String Nat :=
  counts.insert key (saturatingAdd bound (counts[key]?.getD 0) 1)

def reserve (activity : SchedulerActivity) (candidateId model : String) (lane : InFlightLane) :
    SchedulerActivity :=
  let counted :=
    activity.withInFlightMap (increment u32Max (activity.inFlightMap lane) candidateId) lane
  { counted with
    activeModels := counted.activeModels.insert (candidateId, lane)
      (increment u32Max (counted.activeModels[(candidateId, lane)]?.getD ∅) (modelIdKey model)) }

def recordDispatch (activity : SchedulerActivity) (candidateId : String) :
    InFlightLane → SchedulerActivity
  | .text =>
    { activity with textDispatches := increment u64Max activity.textDispatches candidateId }
  | .image =>
    { activity with imageDispatches := increment u64Max activity.imageDispatches candidateId }

/-- One request less; an entry that counts no other request is dropped. -/
def decrement (counts : BTreeMap String Nat) (key : String) : BTreeMap String Nat :=
  match counts[key]? with
  | none => counts
  | some count => if count ≤ 1 then counts.erase key else counts.insert key (count - 1)

def releaseActiveModel (activity : SchedulerActivity) (candidateId : String)
    (model : Option String) (lane : InFlightLane) : SchedulerActivity :=
  match activity.activeModels[(candidateId, lane)]? with
  | none => activity
  | some models =>
    match model.map modelIdKey <|> models.keys.head? with
    | none => activity
    | some modelKey =>
      let remaining := decrement models modelKey
      { activity with
        activeModels :=
          if models.contains modelKey && remaining.isEmpty then
            activity.activeModels.erase (candidateId, lane)
          else activity.activeModels.insert (candidateId, lane) remaining }

def release (activity : SchedulerActivity) (candidateId : String) (model : Option String)
    (lane : InFlightLane) : SchedulerActivity × Bool :=
  if (activity.inFlightMap lane).contains candidateId then
    ((activity.withInFlightMap (decrement (activity.inFlightMap lane) candidateId)
      lane).releaseActiveModel candidateId model lane, true)
  else (activity, false)

def inFlightCount (activity : SchedulerActivity) (candidateId : String) (lane : InFlightLane) :
    Nat :=
  (activity.inFlightMap lane)[candidateId]?.getD 0

def activeRequestCount (activity : SchedulerActivity) (candidateId : String) : Nat :=
  ((activity.activeModels.toList.filter fun entry => entry.1.1 = candidateId).flatMap fun entry =>
    entry.2.values).foldl (saturatingAdd u32Max) 0

/-- Requests of every model of a candidate, both lanes together. -/
def activeModelsFor (activity : SchedulerActivity) (candidateId : String) : List (String × Nat) :=
  let models := (activity.activeModels.toList.filter fun entry => entry.1.1 = candidateId).flatMap
    fun entry => entry.2.toList
  let counts := models.foldl
    (fun (counts : BTreeMap String Nat) entry =>
      counts.insert entry.1 (saturatingAdd u32Max (counts[entry.1]?.getD 0) entry.2)) ∅
  counts.toList.filter fun entry => entry.1 ≠ "" && decide (entry.2 > 0)

def dispatchCount (activity : SchedulerActivity) (candidateId : String) : InFlightLane → Nat
  | .text => activity.textDispatches[candidateId]?.getD 0
  | .image => activity.imageDispatches[candidateId]?.getD 0

end SchedulerActivity

end ZenithRelay.Scheduler
