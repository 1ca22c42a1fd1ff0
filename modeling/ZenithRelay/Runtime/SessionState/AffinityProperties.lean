import ZenithRelay.Runtime.SessionState.Affinity

/-!
# Written-through prompt affinity

A call decides in memory and writes durably while it holds the stripe of its key,
so no other call reads or writes that key in between: what a call has decided is what
the store holds when it returns.
-/

set_option autoImplicit false

namespace ZenithRelay.Runtime

open Scheduler

/-- Where a call stands: without a stripe, holding the stripe of its key, with the
durable binding it found, with nothing left to do, or with its decision before and after
the durable write. -/
inductive AffinityPhase where
  | free
  | locked (key : String)
  | declined (key : String)
  | found (key : String) (binding : ResponseAffinityBinding)
  | decided (key : String) (change : Option ResponseAffinityBinding)
  | saved (key : String) (change : Option ResponseAffinityBinding)
  | unsaved (key : String) (change : Option ResponseAffinityBinding)

namespace AffinityPhase

/-- The key whose stripe the call holds. -/
def held : AffinityPhase → Option String
  | .free => none
  | .locked key | .declined key | .found key _ | .decided key _ | .saved key _
  | .unsaved key _ => some key

def Allowed : AffinityPhase → AffinityAction → Prop
  | .free, .schedule .. | .free, .lockPromptAffinity _ | .free, .hasPromptAffinity .. => True
  | .locked _, .hasPromptAffinity .. => True
  | .locked key, .bindSticky _ other _ _ => other = key
  | .locked key, .invalidateForCandidate _ other _ => other = key
  | .locked key, .find other _ => other = key
  | .found key binding, .restore _ other read _ => other = key ∧ read = binding
  | .decided key change, .upsert binding => change = some binding ∧ binding.key = key
  | .decided key change, .delete other => change = none ∧ other = key
  | _, _ => False

def after : AffinityPhase → (action : AffinityAction) → action.Response → AffinityPhase
  | .free, .lockPromptAffinity key, _ => .locked key
  | .locked key, .hasPromptAffinity .., true => .declined key
  | .locked key, .bindSticky .., .returned (some (candidateId, expiresAtMs)) =>
    .decided key (some ⟨key, candidateId, expiresAtMs⟩)
  | .locked key, .bindSticky .., _ => .declined key
  | .locked key, .invalidateForCandidate .., true => .decided key none
  | .locked key, .invalidateForCandidate .., false => .declined key
  | .locked key, .find .., .ok (some binding) => .found key binding
  | .locked key, .find .., _ => .declined key
  | .found key _, .restore .., _ => .declined key
  | .decided key change, .upsert _, .ok () => .saved key change
  | .decided key change, .upsert _, .error _ => .unsaved key change
  | .decided key change, .delete _, .ok () => .saved key change
  | .decided key change, .delete _, .error _ => .unsaved key change
  | phase, _, _ => phase

def protocol : Protocol AffinityAction.Response AffinityPhase := ⟨Allowed, after⟩

def Final : AffinityPhase → AffinityResult → Prop
  | phase, .saved key change => phase = .saved key change
  | phase, .unsaved key change => phase = .unsaved key change
  | phase, .undecided => phase = .free ∨ ∃ key, phase = .declined key

/-- What a phase knows of the durable binding of its key. -/
def Accurate (store : BTreeMap String ResponseAffinityBinding) : AffinityPhase → Prop
  | .found key binding => store[key]? = some binding
  | .saved key change => store[key]? = change
  | .free | .locked _ | .declined _ | .decided .. | .unsaved .. => True

theorem Accurate.congr {before after : BTreeMap String ResponseAffinityBinding}
    {phase : AffinityPhase} (accurate : phase.Accurate before)
    (same : ∀ key, phase.held = some key → after[key]? = before[key]?) :
    phase.Accurate after := by
  cases phase with
  | found key binding => exact (same key rfl).trans accurate
  | saved key change => exact (same key rfl).trans accurate
  | free | locked _ | declined _ | decided _ _ | unsaved _ _ => trivial

end AffinityPhase

/-! ## What the calls do -/

theorem persistDecision_follows {key : String} {change : Option ResponseAffinityBinding}
    (own : ∀ binding, change = some binding → binding.key = key) :
    AffinityPhase.protocol.Follows AffinityPhase.Final (.decided key change)
      (persistDecision key change) := by
  cases change with
  | some binding =>
      refine .perform ⟨rfl, own binding rfl⟩ fun response => ?_
      cases response <;> exact .done rfl
  | none =>
      refine .perform ⟨rfl, rfl⟩ fun response => ?_
      cases response <;> exact .done rfl

theorem AffinityOperation.follows (operation : AffinityOperation) :
    AffinityPhase.protocol.Follows AffinityPhase.Final .free operation.program := by
  have idle : ∀ phase : AffinityPhase, (phase = .free ∨ ∃ key, phase = .declined key) →
      AffinityPhase.protocol.Follows AffinityPhase.Final phase (.done .undecided) :=
    fun phase ended => .done ended
  cases operation with
  | other runtime operation => exact .perform trivial fun _ => idle _ (.inl rfl)
  | bind runtime key candidateId nowMs =>
      cases key with
      | none => exact idle _ (.inl rfl)
      | some key =>
          refine .perform trivial fun _ => .perform rfl fun bound => ?_
          match bound with
          | .returned (some (owner, expiresAtMs)) =>
              exact persistDecision_follows (by rintro binding ⟨⟩; rfl)
          | .returned none => exact idle _ (.inr ⟨key, rfl⟩)
          | .panicked _ => exact idle _ (.inr ⟨key, rfl⟩)
  | restore runtime key nowMs =>
      refine .perform trivial fun warm => ?_
      cases warm with
      | true => exact idle _ (.inl rfl)
      | false =>
          refine .perform trivial fun _ => .perform trivial fun warm => ?_
          cases warm with
          | true => exact idle _ (.inr ⟨key, rfl⟩)
          | false =>
              refine .perform rfl fun found => ?_
              match found with
              | .ok (some binding) => exact .perform ⟨rfl, rfl⟩ fun _ => idle _ (.inr ⟨key, rfl⟩)
              | .ok none => exact idle _ (.inr ⟨key, rfl⟩)
              | .error _ => exact idle _ (.inr ⟨key, rfl⟩)
  | invalidate runtime key candidateId =>
      cases key with
      | none => exact idle _ (.inl rfl)
      | some key =>
          refine .perform trivial fun _ => .perform rfl fun invalidated => ?_
          cases invalidated with
          | true => exact persistDecision_follows nofun
          | false => exact idle _ (.inr ⟨key, rfl⟩)

/-! ## Stripes -/

section

variable (stripe : String → Fin promptAffinityLocks)

/-- Every call holds the stripe of its key and knows the durable binding of it. -/
structure StripesHeld (shared : SharedAffinity) (phases : TaskId → Option AffinityPhase) :
    Prop where
  held : ∀ task phase key, phases task = some phase → phase.held = some key →
    shared.locks (stripe key) = some task
  accurate : ∀ task phase, phases task = some phase → phase.Accurate shared.store

end

namespace StripesHeld

variable {stripe : String → Fin promptAffinityLocks} {shared after : SharedAffinity}
  {phases : TaskId → Option AffinityPhase} {task : TaskId} {phase next : AffinityPhase}

/-- One call at a time holds a key. -/
theorem exclusive (stripes : StripesHeld stripe shared phases) {other : TaskId}
    {otherPhase : AffinityPhase} {key : String} (reached : phases task = some phase)
    (otherReached : phases other = some otherPhase) (held : phase.held = some key)
    (otherHeld : otherPhase.held = some key) : task = other := by
  have own := stripes.held task phase key reached held
  have others := stripes.held other otherPhase key otherReached otherHeld
  exact Option.some.inj (own.symm.trans others)

/-- A call that keeps its stripe writes no key but its own. -/
theorem move (stripes : StripesHeld stripe shared phases) (reached : phases task = some phase)
    (locks : after.locks = shared.locks) (held : next.held = phase.held)
    (store : ∀ key, phase.held ≠ some key → after.store[key]? = shared.store[key]?)
    (accurate : next.Accurate after.store) :
    StripesHeld stripe after (Function.update phases task (some next)) where
  held := by
    intro other otherPhase key otherReached otherHeld
    rw [locks]
    by_cases same : other = task
    · subst same
      rw [Function.update_self] at otherReached
      obtain rfl := Option.some.inj otherReached
      exact stripes.held other phase key reached (held ▸ otherHeld)
    · rw [Function.update_of_ne same] at otherReached
      exact stripes.held other otherPhase key otherReached otherHeld
  accurate := by
    intro other otherPhase otherReached
    by_cases same : other = task
    · subst same
      rw [Function.update_self] at otherReached
      obtain rfl := Option.some.inj otherReached
      exact accurate
    · rw [Function.update_of_ne same] at otherReached
      refine (stripes.accurate other otherPhase otherReached).congr fun key otherHeld => ?_
      refine store key fun own => same ?_
      exact (stripes.exclusive reached otherReached own otherHeld).symm

/-- A section of some scheduler changes neither the store nor the stripes. -/
theorem schedule (stripes : StripesHeld stripe shared phases) (reached : phases task = some phase)
    (locks : after.locks = shared.locks) (store : after.store = shared.store)
    (held : next.held = phase.held) (accurate : next.Accurate shared.store) :
    StripesHeld stripe after (Function.update phases task (some next)) :=
  stripes.move reached locks held (fun _ _ => by rw [store]) (store ▸ accurate)

theorem lock (stripes : StripesHeld stripe shared phases) {key : String}
    (unlocked : shared.locks (stripe key) = none) (reached : phases task = some .free) :
    StripesHeld stripe
      { shared with locks := Function.update shared.locks (stripe key) (some task) }
      (Function.update phases task (some (.locked key))) where
  held := by
    intro other otherPhase otherKey otherReached otherHeld
    by_cases same : other = task
    · subst same
      rw [Function.update_self] at otherReached
      obtain rfl := Option.some.inj otherReached
      obtain rfl : key = otherKey := Option.some.inj otherHeld
      exact Function.update_self _ _ _
    · rw [Function.update_of_ne same] at otherReached
      have locked := stripes.held other otherPhase otherKey otherReached otherHeld
      have different : stripe otherKey ≠ stripe key := by
        intro shared
        rw [shared, unlocked] at locked
        cases locked
      exact (Function.update_of_ne different _ _).trans locked
  accurate := by
    intro other otherPhase otherReached
    by_cases same : other = task
    · subst same
      rw [Function.update_self] at otherReached
      obtain rfl := Option.some.inj otherReached
      trivial
    · rw [Function.update_of_ne same] at otherReached
      exact stripes.accurate other otherPhase otherReached

theorem spawn (stripes : StripesHeld stripe shared phases) :
    StripesHeld stripe shared (Function.update phases task (some .free)) where
  held := by
    intro other otherPhase key otherReached otherHeld
    by_cases same : other = task
    · subst same
      rw [Function.update_self] at otherReached
      obtain rfl := Option.some.inj otherReached
      cases otherHeld
    · rw [Function.update_of_ne same] at otherReached
      exact stripes.held other otherPhase key otherReached otherHeld
  accurate := by
    intro other otherPhase otherReached
    by_cases same : other = task
    · subst same
      rw [Function.update_self] at otherReached
      obtain rfl := Option.some.inj otherReached
      trivial
    · rw [Function.update_of_ne same] at otherReached
      exact stripes.accurate other otherPhase otherReached

theorem leave (stripes : StripesHeld stripe shared phases) (task : TaskId) :
    StripesHeld stripe (shared.leave task) (Function.update phases task none) where
  held := by
    intro other otherPhase key otherReached otherHeld
    by_cases same : other = task
    · rw [same, Function.update_self] at otherReached
      cases otherReached
    · rw [Function.update_of_ne same] at otherReached
      have locked := stripes.held other otherPhase key otherReached otherHeld
      change (shared.locks (stripe key)).filter (· ≠ task) = some other
      simp [locked, Option.filter, same]
  accurate := by
    intro other otherPhase otherReached
    by_cases same : other = task
    · rw [same, Function.update_self] at otherReached
      cases otherReached
    · rw [Function.update_of_ne same] at otherReached
      exact stripes.accurate other otherPhase otherReached

/-- One action of a call, in a phase that allows it. -/
theorem execute (stripes : StripesHeld stripe shared phases) (reached : phases task = some phase)
    {action : AffinityAction} {oracle : StoreOracle} {response : action.Response}
    (allowed : phase.Allowed action)
    (executed : shared.execute stripe task action oracle = some (after, response)) :
    StripesHeld stripe after
      (Function.update phases task (some (phase.after action response))) := by
  cases action with
  | schedule runtime operation =>
      cases phase <;> try exact allowed.elim
      cases executed
      exact stripes.schedule reached rfl rfl rfl trivial
  | lockPromptAffinity key =>
      cases phase <;> try exact allowed.elim
      simp only [SharedAffinity.execute] at executed
      split at executed
      next unlocked =>
        cases executed
        exact stripes.lock unlocked reached
      next => cases executed
  | hasPromptAffinity runtime key nowMs =>
      have same : after.locks = shared.locks ∧ after.store = shared.store := by
        cases executed
        exact ⟨rfl, rfl⟩
      cases phase <;> try exact allowed.elim
      · exact stripes.schedule reached same.1 same.2 rfl trivial
      · match response with
        | true => exact stripes.schedule reached same.1 same.2 rfl trivial
        | false => exact stripes.schedule reached same.1 same.2 rfl trivial
  | bindSticky runtime key candidateId nowMs =>
      cases phase <;> try exact allowed.elim
      next own =>
      have same : after.locks = shared.locks ∧ after.store = shared.store := by
        cases executed
        exact ⟨rfl, rfl⟩
      match response with
      | .returned (some _) => exact stripes.schedule reached same.1 same.2 rfl trivial
      | .returned none => exact stripes.schedule reached same.1 same.2 rfl trivial
      | .panicked _ => exact stripes.schedule reached same.1 same.2 rfl trivial
  | restore runtime key binding nowMs =>
      cases phase <;> try exact allowed.elim
      cases executed
      exact stripes.schedule reached rfl rfl rfl trivial
  | invalidateForCandidate runtime key candidateId =>
      cases phase <;> try exact allowed.elim
      next own =>
      have same : after.locks = shared.locks ∧ after.store = shared.store := by
        cases executed
        exact ⟨rfl, rfl⟩
      match response with
      | true => exact stripes.schedule reached same.1 same.2 rfl trivial
      | false => exact stripes.schedule reached same.1 same.2 rfl trivial
  | find key nowMs =>
      cases phase <;> try exact allowed.elim
      next own =>
      obtain rfl : key = own := allowed
      cases oracle with
      | some error =>
          cases executed
          exact stripes.schedule reached rfl rfl rfl trivial
      | none =>
          simp only [SharedAffinity.execute, Option.some.injEq, Prod.mk.injEq] at executed
          obtain ⟨rfl, rfl⟩ := executed
          cases found : shared.store[key]?.filter fun binding => nowMs < binding.expiresAtMs with
          | none => exact stripes.schedule reached rfl rfl rfl trivial
          | some binding =>
              have stored : shared.store[key]? = some binding :=
                (Option.filter_eq_some_iff.mp found).1
              exact stripes.schedule reached rfl rfl rfl stored
  | upsert binding =>
      cases phase <;> try exact allowed.elim
      obtain ⟨rfl, rfl⟩ := allowed
      cases oracle with
      | some error =>
          cases executed
          exact stripes.schedule reached rfl rfl rfl trivial
      | none =>
          cases executed
          refine stripes.move reached rfl rfl (fun key other => ?_) ?_
          · have different : key ≠ binding.key := fun same => other (same ▸ rfl)
            exact (BTreeMap.lookup_insert ..).trans (if_neg different)
          · exact (BTreeMap.lookup_insert ..).trans (if_pos rfl)
  | delete key =>
      cases phase <;> try exact allowed.elim
      obtain ⟨rfl, rfl⟩ := allowed
      cases oracle with
      | some error =>
          cases executed
          exact stripes.schedule reached rfl rfl rfl trivial
      | none =>
          cases executed
          refine stripes.move reached rfl rfl (fun other different => ?_) ?_
          · have different : other ≠ key := fun same => different (same ▸ rfl)
            exact (BTreeMap.lookup_erase ..).trans (if_neg different)
          · exact (BTreeMap.lookup_erase ..).trans (if_pos rfl)

end StripesHeld

/-- The stripes are held and read accurately along every run. -/
def stripeDiscipline (stripe : String → Fin promptAffinityLocks) :
    Discipline (SharedAffinity.machine stripe) AffinityOperation.program (fun _ => True)
      AffinityPhase where
  protocol := AffinityPhase.protocol
  initial := .free
  Final := AffinityPhase.Final
  Invariant shared phases _ := StripesHeld stripe shared phases
  follows operation _ := operation.follows
  spawns stripes _ := stripes.spawn
  executes stripes reached allowed executed := stripes.execute reached allowed executed
  returns stripes _ _ := stripes.leave _
  abandons stripes _ _ _ := stripes.leave _

end ZenithRelay.Runtime
