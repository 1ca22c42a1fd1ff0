import ZenithRelay.Secrets.SecretStoreOperations

/-!
# What the secret store holds

A load returns the value that the operations before it left, whatever fails.
-/

set_option autoImplicit false

namespace ZenithRelay.Secrets

open Fallible

namespace SecretStore

variable {store next : SecretStore} {secretRef : String} {pattern : List Bool}

/-! ### Runs -/

inductive Request where
  | save (secretRef secretValue : String)
  | load (secretRef : String)
  | contains (secretRef : String)
  | delete (secretRef : String)
  | configure
  deriving DecidableEq, Repr

inductive Reply where
  | done
  | secret (found : Option String)
  | present (found : Bool)
  deriving DecidableEq, Repr

def serve : Request → Operation Reply
  | .save secretRef secretValue => do
    save secretRef secretValue
    pure .done
  | .load secretRef => do pure (.secret (← load secretRef))
  | .contains secretRef => do pure (.present (← contains secretRef))
  | .delete secretRef => do
    delete secretRef
    pure .done
  | .configure => do
    initializeVault
    pure .done

/-- The reply to a request and the store after it, when `pattern` covers it. -/
def answer (store : SecretStore) (request : Request) (pattern : List Bool) :
    Option (Except SecretStoreError Reply × SecretStore) :=
  match (serve request).run store pattern with
  | .returned reply next _ => some (reply, next)
  | .stopped _ => none

/-- The last value saved of every reference, from the values held at the start. -/
def lastSaved (_store : SecretStore) (saved : String → Option String) :
    Request → List Bool → Except SecretStoreError Reply → String → Option String
  | .save secretRef secretValue, _, .ok _ => Function.update saved secretRef (some secretValue)
  | .delete secretRef, _, .ok _ => Function.update saved secretRef none
  | _, _, _ => saved

/-- The current value of every reference after a request that meets `store`. A delete that
fails leaves what it did not delete, a configured vault shows the entries persisted in it,
and a configuration that fails at the marker has lost the keyring entries of the vault's
references. -/
def currentAfter (store : SecretStore) (current : String → Option String) :
    Request → List Bool → Except SecretStoreError Reply → String → Option String
  | .save secretRef secretValue, _, .ok _ => Function.update current secretRef (some secretValue)
  | .delete secretRef, _, .ok _ => Function.update current secretRef none
  | .delete secretRef, pattern, .error _ =>
    Function.update current secretRef (store.leftByDelete secretRef pattern)
  | .configure, _, .ok _ => fun secretRef => store.vault[secretRef]?.or (current secretRef)
  | .configure, pattern, .error _ => fun secretRef =>
    if reachesMigration pattern ∧ (store.vault[secretRef]?).isSome then none else current secretRef
  | _, _, _ => current

/-- The store after the calls, and the values that `track` follows. -/
def runCalls (track : SecretStore → (String → Option String) → Request → List Bool →
      Except SecretStoreError Reply → String → Option String)
    (start : SecretStore) (calls : List (Request × List Bool)) :
    Option (SecretStore × (String → Option String)) :=
  calls.foldlM (fun (store, values) (request, pattern) =>
    (answer store request pattern).map fun (reply, next) =>
      (next, track store values request pattern reply)) (start, start.held)

/-- The law of a request, read off its reply. -/
theorem answer_of_meets {request : Request} {reply : Except SecretStoreError Reply}
    {after : Except SecretStoreError Reply → SecretStore → List Bool → Prop}
    {stopped : SecretStore → Prop} (meets : Meets (serve request) store pattern after stopped)
    (answered : answer store request pattern = some (reply, next)) :
    ∃ rest, after reply next rest := by
  rw [answer] at answered
  simp only [Meets] at meets
  cases ended : (serve request).run store pattern with
  | returned result final rest =>
    rw [ended] at meets answered
    cases answered
    exact ⟨rest, meets⟩
  | stopped final =>
    rw [ended] at answered
    cases answered

theorem Elsewhere.held_all (elsewhere : Elsewhere secretRef store next)
    (same : next.held secretRef = store.held secretRef) : next.held = store.held := by
  funext other
  by_cases apart : other = secretRef
  · rw [apart, same]
  · exact elsewhere.held_eq apart

/-- What the references hold after a change at one of them. -/
theorem Elsewhere.held_update (elsewhere : Elsewhere secretRef store next)
    {value : Option String} (set : next.held secretRef = value) :
    next.held = Function.update store.held secretRef value := by
  funext other
  by_cases apart : other = secretRef
  · rw [apart, set, Function.update_self]
  · rw [Function.update_of_ne apart, elsewhere.held_eq apart]

theorem load_answer {reply : Except SecretStoreError Reply}
    (answered : answer store (.load secretRef) pattern = some (reply, next)) :
    Elsewhere secretRef store next ∧ next.held = store.held ∧
      ∀ found, reply = .ok (.secret found) → found = store.held secretRef := by
  have meets : Meets (serve (.load secretRef)) store pattern
      (fun reply next _ => Elsewhere secretRef store next ∧ next.held = store.held ∧
        ∀ found, reply = .ok (.secret found) → found = store.held secretRef) (fun _ => True) := by
    rw [serve, meets_bind]
    refine load_meets.mono ?_ fun _ _ => trivial
    rintro (error | found) next rest ⟨elsewhere, same, value⟩
    · exact ⟨elsewhere, elsewhere.held_all same, (by rintro _ ⟨⟩)⟩
    · refine ⟨elsewhere, elsewhere.held_all same, ?_⟩
      rintro _ ⟨⟩
      exact value found rfl
  obtain ⟨-, law⟩ := answer_of_meets meets answered
  exact law

theorem contains_answer {reply : Except SecretStoreError Reply}
    (answered : answer store (.contains secretRef) pattern = some (reply, next)) :
    Elsewhere secretRef store next ∧ next.held = store.held ∧
      ∀ found, reply = .ok (.present found) → found = (store.held secretRef).isSome := by
  have meets : Meets (serve (.contains secretRef)) store pattern
      (fun reply next _ => Elsewhere secretRef store next ∧ next.held = store.held ∧
        ∀ found, reply = .ok (.present found) → found = (store.held secretRef).isSome)
      (fun _ => True) := by
    rw [serve, meets_bind]
    refine contains_meets.mono ?_ fun _ _ => trivial
    rintro (error | found) next rest ⟨elsewhere, same, value⟩
    · exact ⟨elsewhere, elsewhere.held_all same, (by rintro _ ⟨⟩)⟩
    · refine ⟨elsewhere, elsewhere.held_all same, ?_⟩
      rintro _ ⟨⟩
      exact value found rfl
  obtain ⟨-, law⟩ := answer_of_meets meets answered
  exact law

theorem save_answer {secretValue : String} {reply : Except SecretStoreError Reply}
    (answered : answer store (.save secretRef secretValue) pattern = some (reply, next)) :
    Elsewhere secretRef store next ∧
      (∀ given, reply = .ok given → next.held secretRef = some secretValue) ∧
      ∀ error, reply = .error error → next.held secretRef = store.held secretRef := by
  have meets : Meets (serve (.save secretRef secretValue)) store pattern
      (fun reply next _ => Elsewhere secretRef store next ∧
        (∀ given, reply = .ok given → next.held secretRef = some secretValue) ∧
        ∀ error, reply = .error error → next.held secretRef = store.held secretRef)
      (fun _ => True) := by
    rw [serve, meets_bind]
    refine (save_meets secretValue).mono ?_ fun _ _ => trivial
    rintro (error | ⟨⟨⟩⟩) next rest ⟨elsewhere, saved, kept⟩
    · exact ⟨elsewhere, (by rintro _ ⟨⟩), fun _ _ => kept error rfl⟩
    · exact ⟨elsewhere, fun _ _ => saved rfl, (by rintro _ ⟨⟩)⟩
  obtain ⟨-, law⟩ := answer_of_meets meets answered
  exact law

theorem delete_answer {reply : Except SecretStoreError Reply}
    (answered : answer store (.delete secretRef) pattern = some (reply, next)) :
    Elsewhere secretRef store next ∧
      (∀ given, reply = .ok given → next.held secretRef = none) ∧
      next.held secretRef = store.leftByDelete secretRef pattern := by
  have meets : Meets (serve (.delete secretRef)) store pattern
      (fun reply next _ => Elsewhere secretRef store next ∧
        (∀ given, reply = .ok given → next.held secretRef = none) ∧
        next.held secretRef = store.leftByDelete secretRef pattern) (fun _ => True) := by
    rw [serve, meets_bind]
    refine delete_meets.mono ?_ fun _ _ => trivial
    rintro (error | ⟨⟨⟩⟩) next rest ⟨elsewhere, gone, left⟩
    · exact ⟨elsewhere, (by rintro _ ⟨⟩), left⟩
    · exact ⟨elsewhere, fun _ _ => gone rfl, left⟩
  obtain ⟨-, law⟩ := answer_of_meets meets answered
  exact law

private theorem configure_answer {reply : Except SecretStoreError Reply}
    (answered : answer store .configure pattern = some (reply, next)) :
    next.held = currentAfter store store.held .configure pattern reply := by
  have meets : Meets (serve .configure) store pattern
      (fun reply next _ => next.held = currentAfter store store.held .configure pattern reply)
      (fun _ => True) := by
    rw [serve, meets_bind]
    refine initializeVault_meets.mono ?_ fun _ _ => trivial
    rintro (error | ⟨⟨⟩⟩) next rest ⟨shown, failed⟩
    · exact funext (failed error rfl)
    · exact funext (shown () rfl)
  obtain ⟨-, law⟩ := answer_of_meets meets answered
  exact law

/-- Every request leaves the references holding their current values. -/
private theorem answer_current {request : Request} {reply : Except SecretStoreError Reply}
    (answered : answer store request pattern = some (reply, next)) :
    next.held = currentAfter store store.held request pattern reply := by
  cases request with
  | save secretRef secretValue =>
    obtain ⟨elsewhere, saved, kept⟩ := save_answer answered
    cases reply with
    | ok reply => exact elsewhere.held_update (saved reply rfl)
    | error error => exact elsewhere.held_all (kept error rfl)
  | load secretRef => exact (load_answer answered).2.1
  | contains secretRef => exact (contains_answer answered).2.1
  | delete secretRef =>
    obtain ⟨elsewhere, gone, left⟩ := delete_answer answered
    cases reply with
    | ok reply => exact elsewhere.held_update (gone reply rfl)
    | error error => exact elsewhere.held_update left
  | configure => exact configure_answer answered

/-- After any run, every reference holds its current value. -/
private theorem runCalls_current {start : SecretStore} {calls : List (Request × List Bool)}
    {current : String → Option String}
    (ran : runCalls currentAfter start calls = some (store, current)) : store.held = current := by
  rw [runCalls] at ran
  generalize values : start.held = held at ran
  induction calls generalizing start held with
  | nil =>
    cases ran
    exact values
  | cons call rest ih =>
    obtain ⟨request, pattern⟩ := call
    rw [List.foldlM_cons] at ran
    obtain ⟨middle, first, ran⟩ := Option.bind_eq_some_iff.mp ran
    obtain ⟨⟨reply, next⟩, answered, rfl⟩ := Option.map_eq_some_iff.mp first
    refine ih _ ?_ ran
    rw [← values]
    exact answer_current answered

/-- The locations of the other references are not touched by a request on one. -/
def Request.secretRef? : Request → Option String
  | .save secretRef _ | .load secretRef | .contains secretRef | .delete secretRef => some secretRef
  | .configure => none

private theorem answer_elsewhere {request : Request} {reply : Except SecretStoreError Reply}
    (own : request.secretRef? = some secretRef)
    (answered : answer store request pattern = some (reply, next)) :
    Elsewhere secretRef store next := by
  cases request with
  | save other secretValue =>
    cases own
    exact (save_answer answered).1
  | load other =>
    cases own
    exact (load_answer answered).1
  | contains other =>
    cases own
    exact (contains_answer answered).1
  | delete other =>
    cases own
    exact (delete_answer answered).1
  | configure => cases own

/-- In every run, loads and presence checks tell the current values and keep them, and a
request on one reference touches no other. -/
theorem loads_return_current_values :
    ∀ (start store : SecretStore) (calls : List (Request × List Bool))
      (current : String → Option String),
      runCalls currentAfter start calls = some (store, current) →
      (∀ secretRef pattern reply next,
        answer store (.load secretRef) pattern = some (reply, next) →
          (∀ found, reply = .ok (.secret found) → found = current secretRef) ∧
            next.held = store.held) ∧
      (∀ secretRef pattern reply next,
        answer store (.contains secretRef) pattern = some (reply, next) →
          (∀ found, reply = .ok (.present found) → found = (current secretRef).isSome) ∧
            next.held = store.held) ∧
      ∀ request secretRef pattern reply next, request.secretRef? = some secretRef →
        answer store request pattern = some (reply, next) → Elsewhere secretRef store next := by
  intro start store calls current ran
  have agree := runCalls_current ran
  refine ⟨fun secretRef pattern reply next answered => ?_,
    fun secretRef pattern reply next answered => ?_, fun _ _ _ _ _ => answer_elsewhere⟩
  · obtain ⟨-, same, value⟩ := load_answer answered
    exact ⟨agree ▸ value, same⟩
  · obtain ⟨-, same, value⟩ := contains_answer answered
    exact ⟨agree ▸ value, same⟩

/-- A delete that removed the vault's entry but not the hashed one uncovers a value that a
later save had replaced; configuring the vault shows the entry persisted in it above a
value saved before and after a delete. -/
theorem failed_delete_uncovers_old_value :
    (∃ start store saved next, runCalls lastSaved start
        [(.save "a" "new", [true, false, true]), (.delete "a", [true, false, true])] =
          some (store, saved) ∧
      answer store (.load "a") [true, true, true, true, true] =
        some (.ok (.secret (some "old")), next) ∧ saved "a" = some "new") ∧
    (∃ start store saved next, runCalls lastSaved start
        [(.save "a" "new", [true]), (.configure, [true, true, true, true, true, true])] =
          some (store, saved) ∧
      answer store (.load "a") [true] = some (.ok (.secret (some "old")), next) ∧
        saved "a" = some "new") ∧
    ∃ start store saved next, runCalls lastSaved start
        [(.delete "a", [true, true]), (.configure, [true, true, true, true, true, true])] =
          some (store, saved) ∧
      answer store (.load "a") [true] = some (.ok (.secret (some "old")), next) ∧
        saved "a" = none := by
  refine ⟨⟨⟨true, ∅, Std.ExtTreeMap.insert ∅ "a" "old", ∅, true, 0⟩, ?_⟩,
    ⟨⟨false, Std.ExtTreeMap.insert ∅ "a" "old", ∅, ∅, false, 0⟩, ?_⟩,
    ⟨false, Std.ExtTreeMap.insert ∅ "a" "old", ∅, ∅, false, 0⟩, ?_⟩
  · exact ⟨_, _, _, rfl, rfl, rfl⟩
  · exact ⟨_, _, _, rfl, rfl, rfl⟩
  · exact ⟨_, _, _, rfl, rfl, rfl⟩

/-- A save whose keyring cleanup failed: the load returns the saved value. -/
theorem saved_value_hides_old_copy :
    ∃ start store current reply next,
      runCalls currentAfter start [(.save "a" "new", [true, false, true])] =
        some (store, current) ∧
      store.hashed["a"]? = some "old" ∧ current "a" = some "new" ∧
      answer store (.load "a") [true] = some (reply, next) ∧
      ∀ found, reply = .ok (.secret found) → found = current "a" := by
  let start : SecretStore := ⟨true, ∅, Std.ExtTreeMap.insert ∅ "a" "old", ∅, true, 0⟩
  obtain ⟨store, current, ran, old, new, next, answered⟩ : ∃ store current,
      runCalls currentAfter start [(.save "a" "new", [true, false, true])] =
        some (store, current) ∧
      store.hashed["a"]? = some "old" ∧ current "a" = some "new" ∧
      ∃ next, answer store (.load "a") [true] = some (.ok (.secret (some "new")), next) :=
    ⟨_, _, rfl, rfl, rfl, _, rfl⟩
  have told := (loads_return_current_values start store _ current ran).1 "a" [true] _ next answered
  exact ⟨start, store, current, _, next, ran, old, new, answered, told.1⟩

end SecretStore

end ZenithRelay.Secrets
