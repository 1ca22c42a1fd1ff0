import ZenithRelay.Foundations.BTreeMap
import ZenithRelay.Foundations.Integers
import ZenithRelay.Foundations.Outcome
import ZenithRelay.Foundations.Selection

/-!
# Affinity cache

Bounded, expiring ownership of keys by candidates. The bindings are a map in key
order; eviction compares keys itself, so the order of the map plays no part.
-/

set_option autoImplicit false

namespace ZenithRelay.Scheduler

def maxWarmAlternatives : Nat := 4

structure Binding where
  candidateId : String
  revision : Nat
  ttlMs : Nat
  expiresAt : Nat
  lastTouchedAt : Nat
  /-- Successful spillovers are only local hints, never additional owners. -/
  alternatives : List (String × Nat)
  deriving DecidableEq, Repr

structure AffinityCache where
  bindings : BTreeMap String Binding
  nextRevision : Nat
  maxEntries : Nat
  ttlMs : Nat
  deriving DecidableEq

namespace AffinityCache

def create (maxEntries ttlMs : Nat) : AffinityCache where
  bindings := ∅
  nextRevision := 0
  maxEntries
  ttlMs

def prune (cache : AffinityCache) (nowMs : Nat) : AffinityCache :=
  { cache with bindings := cache.bindings.filter fun _ binding => nowMs < binding.expiresAt }

def getWithRevision (cache : AffinityCache) (key : String) (nowMs : Nat) :
    AffinityCache × Option (String × Nat) :=
  let pruned := cache.prune nowMs
  (pruned, pruned.bindings[key]?.map fun binding => (binding.candidateId, binding.revision))

def get (cache : AffinityCache) (key : String) (nowMs : Nat) : AffinityCache × Option String :=
  let (pruned, found) := cache.getWithRevision key nowMs
  (pruned, found.map Prod.fst)

def getWithExpiry (cache : AffinityCache) (key : String) (nowMs : Nat) : Option (String × Nat) :=
  (cache.bindings[key]?.filter fun binding => nowMs < binding.expiresAt).map fun binding =>
    (binding.candidateId, binding.expiresAt)

def contains (cache : AffinityCache) (key : String) (nowMs : Nat) : AffinityCache × Bool :=
  let pruned := cache.prune nowMs
  (pruned, pruned.bindings.contains key)

def refresh (cache : AffinityCache) (key : String) (nowMs : Nat) : AffinityCache × Bool :=
  let pruned := cache.prune nowMs
  ({ pruned with
      bindings := pruned.bindings.modify key fun binding =>
        { binding with
          expiresAt := max binding.expiresAt (saturatingAdd u64Max nowMs binding.ttlMs)
          lastTouchedAt := max binding.lastTouchedAt nowMs } },
    pruned.bindings.contains key)

/-- Least recently touched first, then in key order. -/
def compareAge (left right : String × Binding) : Ordering :=
  (compare left.2.lastTouchedAt right.2.lastTouchedAt).then (compare left.1 right.1)

def evictOldest (cache : AffinityCache) : AffinityCache :=
  match Selection.minBy compareAge cache.bindings.toList with
  | some (key, _) => { cache with bindings := cache.bindings.erase key }
  | none => cache

/-- The cache with room for `key`, before a binding is written. -/
def makeRoom (cache : AffinityCache) (key : String) (nowMs : Nat) : AffinityCache :=
  let pruned := cache.prune nowMs
  if !pruned.bindings.contains key && decide (pruned.maxEntries ≤ pruned.bindings.size) then
    pruned.evictOldest
  else pruned

def insertBinding (cache : AffinityCache) (key candidateId : String)
    (ttlMs expiresAt nowMs : Nat) : AffinityCache × Outcome Unit :=
  let roomy := cache.makeRoom key nowMs
  if roomy.nextRevision < u64Max then
    ({ roomy with
        nextRevision := roomy.nextRevision + 1
        bindings := roomy.bindings.insert key {
          candidateId
          revision := roomy.nextRevision + 1
          ttlMs
          expiresAt
          lastTouchedAt := nowMs
          alternatives := [] } }, .returned ())
  else (roomy, .panicked "affinity revision exhausted")

def bindFor (cache : AffinityCache) (key candidateId : String) (nowMs ttlMs : Nat) :
    AffinityCache × Outcome Unit :=
  if cache.maxEntries = 0 ∨ ttlMs = 0 then (cache, .returned ())
  else cache.insertBinding key candidateId ttlMs (saturatingAdd u64Max nowMs ttlMs) nowMs

def bind (cache : AffinityCache) (key candidateId : String) (nowMs : Nat) :
    AffinityCache × Outcome Unit :=
  cache.bindFor key candidateId nowMs cache.ttlMs

/-- Refreshes an existing owner, or creates a binding when none exists: a
temporary spillover must not silently replace a durable owner. -/
def bindIfUnboundOrSame (cache : AffinityCache) (key candidateId : String) (nowMs : Nat) :
    AffinityCache × Outcome Bool :=
  match cache.get key nowMs with
  | (pruned, some bound) =>
    if bound = candidateId then
      let (refreshed, found) := pruned.refresh key nowMs
      (refreshed, .returned found)
    else (pruned, .returned false)
  | (pruned, none) =>
    let (bound, outcome) := pruned.bind key candidateId nowMs
    (bound, outcome.map fun () => true)

def restore (cache : AffinityCache) (key candidateId : String) (expiresAt nowMs : Nat) :
    AffinityCache × Outcome Unit :=
  if cache.maxEntries = 0 ∨ expiresAt ≤ nowMs then (cache, .returned ())
  else cache.insertBinding key candidateId cache.ttlMs expiresAt nowMs

/-- Latest expiry first, then in id order. -/
def warmerFirst (left right : String × Nat) : Bool :=
  ((compare right.2 left.2).then (compare left.1 right.1)).isLE

def Binding.rememberAlternative (binding : Binding) (candidateId : String) (nowMs : Nat) :
    Binding :=
  let live := binding.alternatives.filter fun alternative => nowMs < alternative.2
  let expiresAt := saturatingAdd u64Max nowMs binding.ttlMs
  let extended :=
    match live.findIdx? fun alternative => alternative.1 == candidateId with
    | some index =>
      live.modify index fun alternative => (alternative.1, max alternative.2 expiresAt)
    | none => live ++ [(candidateId, expiresAt)]
  { binding with alternatives := (extended.mergeSort warmerFirst).take maxWarmAlternatives }

def rememberAlternative (cache : AffinityCache) (key candidateId : String) (nowMs : Nat) :
    AffinityCache :=
  { cache with
    bindings := cache.bindings.modify key fun binding =>
      if nowMs < binding.expiresAt ∧ binding.candidateId ≠ candidateId ∧ binding.ttlMs ≠ 0 then
        Binding.rememberAlternative binding candidateId nowMs
      else binding }

def alternatives (cache : AffinityCache) (key : String) (nowMs : Nat) : List String :=
  match cache.bindings[key]?.filter fun binding => nowMs < binding.expiresAt with
  | some binding =>
    (binding.alternatives.filter fun alternative => nowMs < alternative.2).map Prod.fst
  | none => []

def invalidate (cache : AffinityCache) (key : String) : AffinityCache × Bool :=
  ({ cache with bindings := cache.bindings.erase key }, cache.bindings.contains key)

def Binding.forget (binding : Binding) (candidateId : String) : Binding :=
  { binding with
    alternatives := binding.alternatives.filter fun alternative => alternative.1 ≠ candidateId }

def invalidateIfOwner (cache : AffinityCache) (key candidateId : String) : AffinityCache × Bool :=
  if cache.bindings[key]?.any fun binding => binding.candidateId = candidateId then
    cache.invalidate key
  else
    ({ cache with
        bindings := cache.bindings.modify key fun binding =>
          Binding.forget binding candidateId }, false)

def invalidateCandidate (cache : AffinityCache) (candidateId : String) : AffinityCache × Nat :=
  let kept := cache.bindings.filterMap fun _ binding =>
    if binding.candidateId ≠ candidateId then some (Binding.forget binding candidateId) else none
  ({ cache with bindings := kept }, cache.bindings.size - kept.size)

/-! ## Owners -/

/-- The candidate a stored binding names as the owner of a key. -/
def owner (cache : AffinityCache) (key : String) : Option String :=
  cache.bindings[key]?.map (·.candidateId)

/-- No key has an owner that it did not have before. -/
def Forgets (before after : AffinityCache) : Prop :=
  ∀ key candidateId, after.owner key = some candidateId → before.owner key = some candidateId

theorem Forgets.refl (cache : AffinityCache) : Forgets cache cache := fun _ _ owned => owned

theorem Forgets.trans {first second third : AffinityCache} (early : Forgets first second)
    (late : Forgets second third) : Forgets first third :=
  fun key candidateId owned => early key candidateId (late key candidateId owned)

theorem prune_forgets (cache : AffinityCache) (nowMs : Nat) : Forgets cache (cache.prune nowMs) := by
  intro key candidateId owned
  cases found : cache.bindings[key]? with
  | none => simp [owner, prune, found] at owned
  | some binding =>
      by_cases live : nowMs < binding.expiresAt <;>
        simp [owner, prune, found, Option.filter, live] at owned ⊢
      exact owned

theorem get_forgets (cache : AffinityCache) (key : String) (nowMs : Nat) :
    Forgets cache (cache.get key nowMs).1 := cache.prune_forgets nowMs

theorem get_owner {cache : AffinityCache} {key candidateId : String} {nowMs : Nat}
    (resolved : (cache.get key nowMs).2 = some candidateId) : cache.owner key = some candidateId := by
  apply cache.prune_forgets nowMs
  simpa [get, getWithRevision, owner] using resolved

private theorem evictOldest_forgets (cache : AffinityCache) : Forgets cache cache.evictOldest := by
  intro key candidateId owned
  unfold evictOldest at owned
  split at owned
  next oldest _ _ =>
    by_cases same : key = oldest <;> simp [owner, same] at owned ⊢
    exact owned
  next => exact owned

theorem makeRoom_forgets (cache : AffinityCache) (key : String) (nowMs : Nat) :
    Forgets cache (cache.makeRoom key nowMs) := by
  unfold makeRoom
  dsimp only
  split
  · exact (cache.prune_forgets nowMs).trans (evictOldest_forgets _)
  · exact cache.prune_forgets nowMs

theorem insertBinding_owner {cache : AffinityCache} {key candidateId other owned : String}
    {ttlMs expiresAt nowMs : Nat}
    (after : (cache.insertBinding key candidateId ttlMs expiresAt nowMs).1.owner other =
      some owned) :
    cache.owner other = some owned ∨ (other = key ∧ owned = candidateId) := by
  unfold insertBinding at after
  dsimp only at after
  split at after
  next =>
    by_cases same : other = key
    · refine .inr ⟨same, ?_⟩
      simpa [owner, same, eq_comm] using after
    · refine .inl (cache.makeRoom_forgets key nowMs other owned ?_)
      simpa [owner, same] using after
  next => exact .inl (cache.makeRoom_forgets key nowMs other owned after)

theorem bind_owner {cache : AffinityCache} {key candidateId other owned : String} {nowMs : Nat}
    (after : (cache.bind key candidateId nowMs).1.owner other = some owned) :
    cache.owner other = some owned ∨ (other = key ∧ owned = candidateId) := by
  unfold bind bindFor at after
  split at after
  next => exact .inl after
  next => exact insertBinding_owner after

theorem restore_owner {cache : AffinityCache} {key candidateId other owned : String}
    {expiresAt nowMs : Nat}
    (after : (cache.restore key candidateId expiresAt nowMs).1.owner other = some owned) :
    cache.owner other = some owned ∨ (other = key ∧ owned = candidateId) := by
  unfold restore at after
  split at after
  next => exact .inl after
  next => exact insertBinding_owner after

theorem invalidate_forgets (cache : AffinityCache) (key : String) :
    Forgets cache (cache.invalidate key).1 := by
  intro other candidateId owned
  by_cases same : other = key <;> simp [invalidate, owner, same] at owned ⊢
  exact owned

theorem invalidateCandidate_owner (cache : AffinityCache) (candidateId key : String) :
    (cache.invalidateCandidate candidateId).1.owner key =
      (cache.owner key).filter (· ≠ candidateId) := by
  cases found : cache.bindings[key]? with
  | none => simp [invalidateCandidate, owner, found]
  | some binding =>
      by_cases same : binding.candidateId = candidateId <;>
        simp [invalidateCandidate, owner, found, same, Option.filter, Binding.forget]

/-- What a cache shows of a key right after a binding was written for it. -/
theorem insertBinding_getWithExpiry {cache : AffinityCache} {key candidateId : String}
    {ttlMs expiresAt nowMs : Nat} {shown : String × Nat}
    (written : (cache.insertBinding key candidateId ttlMs expiresAt nowMs).2 = .returned ())
    (seen : (cache.insertBinding key candidateId ttlMs expiresAt nowMs).1.getWithExpiry key nowMs =
      some shown) : shown = (candidateId, expiresAt) := by
  unfold insertBinding at written seen
  dsimp only at written seen
  split at seen
  next =>
    simp only [getWithExpiry, BTreeMap.lookup_insert, if_true, Option.map_eq_some_iff,
      Option.filter_eq_some_iff] at seen
    obtain ⟨binding, ⟨inserted, -⟩, rfl⟩ := seen
    obtain rfl := Option.some.inj inserted
    rfl
  next full => simp [full] at written

/-- The failure of a candidate that does not own the key costs it a hint at most. -/
theorem invalidateIfOwner_other {cache : AffinityCache} {key candidateId : String}
    (other : cache.owner key ≠ some candidateId) :
    (cache.invalidateIfOwner key candidateId).2 = false ∧
      ∀ shown nowMs, (cache.invalidateIfOwner key candidateId).1.getWithExpiry shown nowMs =
        cache.getWithExpiry shown nowMs := by
  have foreign : (cache.bindings[key]?.any fun binding => binding.candidateId = candidateId) =
      false := by
    cases found : cache.bindings[key]? with
    | none => rfl
    | some binding =>
        have different : binding.candidateId ≠ candidateId := by
          intro same
          exact other (by simp [owner, found, same])
        simp [different]
  unfold invalidateIfOwner
  rw [if_neg (by simp [foreign])]
  refine ⟨rfl, fun shown nowMs => ?_⟩
  unfold getWithExpiry
  rw [BTreeMap.lookup_modify]
  split
  next same =>
    subst same
    cases cache.bindings[shown]? with
    | none => rfl
    | some binding =>
        by_cases live : nowMs < binding.expiresAt <;> simp [Binding.forget, Option.filter, live]
  next => rfl

theorem invalidateIfOwner_forgotten {cache : AffinityCache} {key candidateId : String}
    (invalidated : (cache.invalidateIfOwner key candidateId).2 = true) (nowMs : Nat) :
    (cache.invalidateIfOwner key candidateId).1.getWithExpiry key nowMs = none := by
  unfold invalidateIfOwner at invalidated ⊢
  split
  next => simp [invalidate, getWithExpiry]
  next other => simp [other] at invalidated

end AffinityCache

end ZenithRelay.Scheduler
