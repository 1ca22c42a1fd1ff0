import ZenithRelay.LocalPool.RefreshRevisionsProperties
import ZenithRelay.LocalPool.StoreRuns

/-!
# Account refresh fences

A fence is the pair of revisions that a reading of an account starts under. It stays
current as long as nothing happens that the reading depends on.
-/

set_option autoImplicit false

namespace ZenithRelay.LocalPool

open Execution

variable {Details : Type}

/-! ### One account of a list -/

def accountOf (accounts : List (LocalAccountRecord Details)) (id : String) :
    Option (LocalAccountRecord Details) :=
  accounts.find? (·.account.id = id)

theorem accountOf_some {accounts : List (LocalAccountRecord Details)}
    (distinct : (accountIds accounts).Nodup) {id : String} {account : LocalAccountRecord Details} :
    accountOf accounts id = some account ↔ account ∈ accounts ∧ account.account.id = id := by
  constructor
  · intro found
    exact ⟨List.mem_of_find?_eq_some found, by simpa using List.find?_some found⟩
  · rintro ⟨member, rfl⟩
    cases found : accountOf accounts account.account.id with
    | none =>
      have absent : account ∉ accounts := fun member => by
        simpa using List.find?_eq_none.mp found account member
      exact absurd member absent
    | some first =>
      have same : first.account.id = account.account.id := by simpa using List.find?_some found
      rw [List.inj_on_of_nodup_map distinct (List.mem_of_find?_eq_some found) member same]

theorem accountOf_listed {accounts : List (LocalAccountRecord Details)} {id : String}
    (listed : id ∈ accountIds accounts) : ∃ account, accountOf accounts id = some account := by
  obtain ⟨account, member, same⟩ := List.mem_map.mp listed
  exact Option.isSome_iff_exists.mp (List.find?_isSome.mpr ⟨account, member, by simpa using same⟩)

variable [DecidableEq Details]

/-- The account is there before and after, with the same scope. -/
def Remains (previous accounts : List (LocalAccountRecord Details)) (id : String) : Prop :=
  ∃ before after, accountOf previous id = some before ∧ accountOf accounts id = some after ∧
    sameAccountScope before after = true

theorem remains_self {accounts : List (LocalAccountRecord Details)} {id : String}
    (listed : id ∈ accountIds accounts) : Remains accounts accounts id := by
  obtain ⟨account, found⟩ := accountOf_listed listed
  exact ⟨account, account, found, found, LocalPoolStore.sameAccountScope_refl account⟩

namespace RefreshRevisions

theorem keepsScope_iff {previous : List (LocalAccountRecord Details)}
    (distinct : (accountIds previous).Nodup) (account : LocalAccountRecord Details) :
    keepsScope previous account = true ↔ ∃ before,
      accountOf previous account.account.id = some before ∧
        sameAccountScope before account = true := by
  have backwards : (accountIds previous.reverse).Nodup := by
    rw [accountIds, List.map_reverse]
    exact List.nodup_reverse.mpr distinct
  rw [keepsScope, Option.any_eq_true]
  refine exists_congr fun before => and_congr_left fun _ => ?_
  exact (accountOf_some backwards).trans
    ((and_congr_left fun _ => List.mem_reverse).trans (accountOf_some distinct).symm)

/-! ### One revision for each account -/

/-- The invariant of the revisions beside the accounts. -/
structure Fits (revisions : RefreshRevisions) (accounts : List (LocalAccountRecord Details)) :
    Prop where
  distinct : revisions.Distinct
  ids : (accountIds accounts).Nodup
  known : ∀ id : String, (revisions.accounts[id]?).isSome = true ↔ id ∈ accountIds accounts

variable {revisions next : RefreshRevisions} {previous accounts : List (LocalAccountRecord Details)}

omit [DecidableEq Details] in
theorem Fits.size (fits : revisions.Fits accounts) : revisions.accounts.size = accounts.length := by
  have same : (revisions.accounts.toList.map Prod.fst).Perm (accountIds accounts) := by
    refine (List.perm_ext_iff_of_nodup (BTreeMap.keys_nodup _) fits.ids).mpr fun id => ?_
    rw [← fits.known, Option.isSome_iff_exists, List.mem_map]
    constructor
    · rintro ⟨⟨_, revision⟩, member, rfl⟩
      exact ⟨revision, BTreeMap.mem_toList_iff.mp member⟩
    · rintro ⟨revision, held⟩
      exact ⟨(id, revision), BTreeMap.mem_toList_iff.mpr held, rfl⟩
  rw [← Std.ExtTreeMap.length_toList, ← List.length_map Prod.fst, same.length_eq, accountIds,
    List.length_map]

omit [DecidableEq Details] in
theorem Fits.validates (fits : revisions.Fits accounts) : revisions.validate accounts = .ok () := by
  rw [validate, if_neg]
  rintro (ahead | size | doubled | lost)
  · exact absurd (fits.distinct.bounded .configuration _ rfl) (Nat.not_le.mpr ahead)
  · exact size fits.size
  · exact doubled fits.ids
  · obtain ⟨account, member, lost⟩ := List.any_eq_true.mp lost
    obtain ⟨revision, held⟩ := Option.isSome_iff_exists.mp
      ((fits.known account.account.id).mpr (List.mem_map_of_mem member))
    have positive := fits.distinct.positive _ _ held
    have bounded := fits.distinct.bounded (.account account.account.id) revision held
    simp only [held, Option.all_some, Bool.or_eq_true, decide_eq_true_eq] at lost
    omega

theorem Fits.withAccounts (fits : revisions.Fits previous)
    (ok : revisions.withAccounts previous accounts = .ok next) : next.Fits accounts := by
  have carries := withAccounts_carries fits.distinct ok
  exact ⟨(carries.renews fits.distinct).distinct fits.distinct, carries.distinct_ids, carries.known⟩

omit [DecidableEq Details] in
private theorem empty_fits : empty.Fits ([] : List (LocalAccountRecord Details)) := by
  have configuration {holder : RevisionHolder} {revision : Nat}
      (held : empty.held holder = some revision) : holder = .configuration ∧ revision = 0 := by
    cases holder with
    | account id => simp [RefreshRevisions.held, empty] at held
    | configuration =>
      cases held
      exact ⟨rfl, rfl⟩
  refine ⟨⟨fun holder revision held => ?_, fun first second revision left right => ?_,
    fun id revision held => ?_⟩, List.nodup_nil, fun id => ?_⟩
  · rw [(configuration held).2]
    exact Nat.zero_le _
  · rw [(configuration left).1, (configuration right).1]
  · simp [empty] at held
  · simp [empty, accountIds]

theorem Fits.of_initialized (ok : initialized accounts = .ok next) : next.Fits accounts :=
  Fits.withAccounts empty_fits ok

/-! ### Changed accounts -/

/-- What a change of the accounts does to the revision of one of them. -/
structure Follows (revisions : RefreshRevisions)
    (previous accounts : List (LocalAccountRecord Details)) (next : RefreshRevisions) : Prop where
  fits : next.Fits accounts
  renews : Renews revisions next
  configuration : next.configuration = revisions.configuration
  kept : ∀ (id : String) (revision : Nat), revisions.accounts[id]? = some revision →
    (next.accounts[id]? = some revision ↔ Remains previous accounts id)

omit [DecidableEq Details] in
private theorem accountOf_observed
    {relation : LocalAccountRecord Details → LocalAccountRecord Details → Prop}
    (same : List.Forall₂ (fun left right => left.account.id = right.account.id ∧
      relation left right) previous accounts) {id : String} {before : LocalAccountRecord Details}
    (found : accountOf previous id = some before) :
    ∃ after, accountOf accounts id = some after ∧ relation before after := by
  induction same with
  | nil => cases found
  | @cons left right _ _ first _ ih =>
    rw [accountOf, List.find?_cons] at found ⊢
    rw [← first.1]
    cases own : decide (left.account.id = id) with
    | true =>
      rw [own] at found
      cases found
      exact ⟨right, rfl, first.2⟩
    | false =>
      rw [own] at found
      exact ih found

theorem Fits.follows (fits : revisions.Fits previous)
    (revised : LocalPoolStore.AccountsRevised revisions previous accounts next) :
    Follows revisions previous accounts next := by
  cases revised with
  | observed same equal =>
    rw [equal]
    have ids : accountIds accounts = accountIds previous :=
      LocalPoolStore.SameIdentities.accountIds (same.imp fun _ _ both =>
        ⟨both.1, LocalPoolStore.identity_of_sameAccountScope both.2⟩)
    refine ⟨⟨fits.distinct, ids ▸ fits.ids, fun id => ids ▸ fits.known id⟩, .refl _, rfl,
      fun id revision held => ⟨fun _ => ?_, fun _ => held⟩⟩
    obtain ⟨before, found⟩ := accountOf_listed ((fits.known id).mp (by rw [held]; rfl))
    obtain ⟨after, listed, scope⟩ := accountOf_observed same found
    exact ⟨before, after, found, listed, scope⟩
  | replaced ok =>
    have carries := withAccounts_carries fits.distinct ok
    have after := fits.withAccounts ok
    refine ⟨after, carries.renews fits.distinct, carries.configuration,
      fun id revision held => ⟨fun kept => ?_, ?_⟩⟩
    · obtain ⟨account, found⟩ := accountOf_listed ((after.known id).mp (by rw [kept]; rfl))
      obtain ⟨member, rfl⟩ := (accountOf_some after.ids).mp found
      cases scope : keepsScope previous account with
      | true =>
        obtain ⟨before, listed, same⟩ := (keepsScope_iff fits.ids account).mp scope
        exact ⟨before, account, listed, found, same⟩
      | false =>
        have later := (carries.renewed account member scope revision kept).1
        have earlier := fits.distinct.bounded (.account account.account.id) revision held
        omega
    · rintro ⟨before, account, listed, found, same⟩
      obtain ⟨member, rfl⟩ := (accountOf_some after.ids).mp found
      rw [carries.kept account member ((keepsScope_iff fits.ids account).mpr ⟨before, listed, same⟩),
        held]

end RefreshRevisions

/-! ### One request -/

namespace LocalPoolStore

/-- `ensureAccountRefreshCurrent` accepts the fence. -/
def Current (revisions : RefreshRevisions) (fence : AccountRefreshFence) : Prop :=
  revisions.accounts[fence.accountId]? = some fence.revision ∧
    revisions.configuration = fence.configurationRevision

/-- A request that ends the readings of an account. -/
def Invalidating (id : String) : StoreRequest Details → Prop
  | .invalidateAccountRefresh accountIds => id ∈ accountIds
  | .invalidateRefreshConfiguration => True
  | _ => False

/-- What becomes of the fences when a request succeeds. -/
structure Fences (store next : LocalPoolStore Details) (request : StoreRequest Details) :
    Prop where
  fits : next.refreshRevisions.Fits next.accounts
  renews : RefreshRevisions.Renews store.refreshRevisions next.refreshRevisions
  current : ∀ fence, Current store.refreshRevisions fence →
    (Current next.refreshRevisions fence ↔
      Remains store.accounts next.accounts fence.accountId ∧
      RefreshRevisions.sameFencedSettings store.gateway next.gateway = true ∧
      ¬Invalidating fence.accountId request)

variable {store next : LocalPoolStore Details} {request : StoreRequest Details}

private theorem RecordsRevised.fences (revised : RecordsRevised store next)
    (fits : store.refreshRevisions.Fits store.accounts)
    (valid : ∀ id, ¬Invalidating id request) : Fences store next request := by
  obtain ⟨revisions, records, gateway⟩ := revised
  have follows := fits.follows records
  have bounded := follows.fits.distinct.bounded .configuration _ rfl
  obtain ⟨accounts, configuration⟩ := RefreshRevisions.withGateway_configuration bounded gateway
  have renews := RefreshRevisions.withGateway_renews gateway
  refine ⟨⟨renews.distinct follows.fits.distinct, follows.fits.ids, accounts ▸ follows.fits.known⟩,
    follows.renews.trans renews, fun fence current => ?_⟩
  rw [Current, accounts, follows.kept _ _ current.1, ← current.2, ← follows.configuration,
    configuration]
  simp [valid]

private theorem fences_of_invalidated {accountIds : List String}
    (fits : store.refreshRevisions.Fits store.accounts) (accounts : next.accounts = store.accounts)
    (gateway : next.gateway = store.gateway)
    (ok : store.refreshRevisions.invalidated accountIds = .ok next.refreshRevisions) :
    Fences store next (.invalidateAccountRefresh accountIds) := by
  have invalidates := RefreshRevisions.invalidated_ok ok
  refine ⟨⟨invalidates.renews.distinct fits.distinct, accounts ▸ fits.ids, fun id => ?_⟩,
    invalidates.renews, fun fence current => ?_⟩
  · rw [invalidates.known, fits.known, accounts]
  · have remains : Remains store.accounts next.accounts fence.accountId := by
      rw [accounts]
      exact remains_self ((fits.known _).mp (by rw [current.1]; rfl))
    have settings : RefreshRevisions.sameFencedSettings store.gateway next.gateway = true := by
      simp [gateway, RefreshRevisions.sameFencedSettings]
    constructor
    · intro after
      refine ⟨remains, settings, fun listed => ?_⟩
      have later := invalidates.listed _ _ listed after.1
      have earlier := fits.distinct.bounded (.account fence.accountId) _ current.1
      omega
    · rintro ⟨-, -, outside⟩
      exact ⟨(invalidates.others _ outside).trans current.1,
        invalidates.configuration.trans current.2⟩

private theorem fences_of_reconfigured
    (fits : store.refreshRevisions.Fits store.accounts) (accounts : next.accounts = store.accounts)
    (ok : store.refreshRevisions.reconfigured = .ok next.refreshRevisions) :
    Fences store next .invalidateRefreshConfiguration := by
  have renews := RefreshRevisions.reconfigured_renews ok
  have reconfigured := RefreshRevisions.reconfigured_ok ok
  refine ⟨⟨renews.distinct fits.distinct, accounts ▸ fits.ids, ?_⟩, renews,
    fun fence current => ⟨fun after => ?_, fun kept => absurd trivial kept.2.2⟩⟩
  · rw [reconfigured, accounts]
    exact fits.known
  · have bounded := fits.distinct.bounded .configuration _ rfl
    have later := after.2
    rw [reconfigured, ← current.2] at later
    simp only at later
    omega

variable {services : StoreServices Details}

theorem Served.fences (served : Served services request store next)
    (fits : store.refreshRevisions.Fits store.accounts) : Fences store next request := by
  have revises := served.revises
  cases request with
  | invalidateAccountRefresh accountIds =>
    exact fences_of_invalidated fits revises.1 revises.2.1 revises.2.2
  | invalidateRefreshConfiguration => exact fences_of_reconfigured fits revises.1 revises.2.2
  | _ => exact RecordsRevised.fences revises fits fun _ => id

/-! ### Runs -/

/-- A call after which a reading of the account may still be applied. -/
structure Undisturbed (services : StoreServices Details) (id : String)
    (store : LocalPoolStore Details) (call : Call Details) : Prop where
  account : Remains store.accounts (step services store call).accounts id
  settings :
    RefreshRevisions.sameFencedSettings store.gateway (step services store call).gateway = true
  valid : Succeeds services store call → ¬Invalidating id call.1

/-- A call that does not succeed disturbs no reading. -/
private theorem undisturbed_of_failed {call : Call Details} (fails : ¬Succeeds services store call)
    (same : step services store call = store) {id : String}
    (listed : id ∈ LocalPool.accountIds store.accounts) : Undisturbed services id store call := by
  refine ⟨?_, ?_, fun succeeds => absurd succeeds fails⟩
  · rw [same]
    exact remains_self listed
  · rw [same]
    simp [RefreshRevisions.sameFencedSettings]

theorem step_fences (services : StoreServices Details)
    (fits : store.refreshRevisions.Fits store.accounts) (call : Call Details) :
    (step services store call).refreshRevisions.Fits (step services store call).accounts ∧
      RefreshRevisions.Renews store.refreshRevisions (step services store call).refreshRevisions ∧
      ∀ fence, Current store.refreshRevisions fence →
        (Current (step services store call).refreshRevisions fence ↔
          Undisturbed services fence.accountId store call) := by
  rcases step_cases services store call with ⟨succeeds, served⟩ | ⟨fails, same⟩
  · obtain ⟨after, renews, exactly⟩ := served.fences fits
    refine ⟨after, renews, fun fence current => (exactly fence current).trans ?_⟩
    constructor
    · rintro ⟨remains, settings, valid⟩
      exact ⟨remains, settings, fun _ => valid⟩
    · rintro ⟨remains, settings, valid⟩
      exact ⟨remains, settings, valid succeeds⟩
  · refine ⟨by rw [same]; exact fits, by rw [same]; exact .refl _, fun fence current => ?_⟩
    have listed := (fits.known fence.accountId).mp (by rw [current.1]; rfl)
    refine ⟨fun _ => undisturbed_of_failed fails same listed, fun _ => ?_⟩
    rw [same]
    exact current

theorem run_fits (services : StoreServices Details)
    (fits : store.refreshRevisions.Fits store.accounts)
    (calls : List (Call Details)) :
    (run (step services) store calls).refreshRevisions.Fits
      (run (step services) store calls).accounts :=
  @run_invariant _ _ (step services) (fun store => store.refreshRevisions.Fits store.accounts)
    (fun _ call fits => (step_fences services fits call).1) _ fits calls

theorem run_renews (services : StoreServices Details)
    (fits : store.refreshRevisions.Fits store.accounts)
    (calls : List (Call Details)) : RefreshRevisions.Renews store.refreshRevisions
      (run (step services) store calls).refreshRevisions := by
  induction calls generalizing store with
  | nil => exact .refl _
  | cons call calls ih =>
    obtain ⟨after, renews, -⟩ := step_fences services fits call
    exact renews.trans (ih after)

/-- A fence that was lost never comes back. -/
theorem run_current {fence : AccountRefreshFence}
    (fits : store.refreshRevisions.Fits store.accounts)
    (current : Current store.refreshRevisions fence) (calls : List (Call Details)) :
    Current (run (step services) store calls).refreshRevisions fence ↔
      Along (step services) (Undisturbed services fence.accountId) store calls := by
  induction calls generalizing store with
  | nil => exact iff_of_true current trivial
  | cons call calls ih =>
    obtain ⟨after, renews, exactly⟩ := step_fences services fits call
    have later := run_renews services after calls
    rw [run_cons, Along]
    constructor
    · intro final
      have kept : Current (step services store call).refreshRevisions fence := by
        have account := fits.distinct.bounded (.account fence.accountId) _ current.1
        have configuration := fits.distinct.bounded .configuration _ (congrArg some current.2)
        exact ⟨later.earlier (.account fence.accountId) (account.trans renews.clock) final.1,
          Option.some.inj (later.earlier .configuration (configuration.trans renews.clock)
            (congrArg some final.2))⟩
      exact ⟨(exactly fence current).mp kept, (ih after kept).mp final⟩
    · rintro ⟨undisturbed, along⟩
      exact (ih after ((exactly fence current).mpr undisturbed)).mpr along

/-! ### The guarantees of a run -/

/-- What the revisions of a store guarantee about it and about everything after it. -/
structure Fencing (services : StoreServices Details) (store : LocalPoolStore Details) : Prop where
  keys : ∀ id : String, (store.refreshRevisions.accounts[id]?).isSome = true ↔
    id ∈ LocalPool.accountIds store.accounts
  valid : store.refreshRevisions.validate store.accounts = .ok ()
  failed : ∀ call, ¬Succeeds services store call →
    (step services store call).refreshRevisions = store.refreshRevisions
  /-- A revision that comes up again has been held all along. -/
  once : ∀ first second revision later, store.refreshRevisions.held first = some revision →
    (run (step services) store later).refreshRevisions.held second = some revision →
    first = second ∧ ∀ middle, middle <+: later →
      (run (step services) store middle).refreshRevisions.held first = some revision
  current : ∀ id account fence, store.accountRefreshScope id = .ok (account, fence) → ∀ later,
    (run (step services) store later).ensureAccountRefreshCurrent fence = .ok () ↔
      Along (step services) (Undisturbed services id) store later

omit [DecidableEq Details] in
private theorem accountRefreshScope_current {id : String} {account : LocalAccountRecord Details}
    {fence : AccountRefreshFence} (scope : store.accountRefreshScope id = .ok (account, fence)) :
    fence.accountId = id ∧ Current store.refreshRevisions fence := by
  rw [accountRefreshScope] at scope
  split at scope
  next => cases scope
  next =>
    split at scope
    next => cases scope
    next revision held =>
      cases scope
      exact ⟨rfl, held, rfl⟩

omit [DecidableEq Details] in
private theorem ensureAccountRefreshCurrent_iff (store : LocalPoolStore Details)
    (fence : AccountRefreshFence) :
    store.ensureAccountRefreshCurrent fence = .ok () ↔ Current store.refreshRevisions fence := by
  rw [ensureAccountRefreshCurrent, Current]
  split
  next stale =>
    refine iff_of_false (fun accepted => by cases accepted) fun current => ?_
    exact stale.elim (fun lost => lost current.1) fun changed => changed current.2
  next same =>
    obtain ⟨account, configuration⟩ := not_or.mp same
    exact iff_of_true rfl ⟨not_not.mp account, not_not.mp configuration⟩

theorem run_fencing {state : PersistedState Details} (ok : opened services state = .ok store)
    (calls : List (Call Details)) : Fencing services (run (step services) store calls) := by
  have fits := run_fits services
    (RefreshRevisions.Fits.of_initialized (opened_initialized ok)) calls
  generalize run (step services) store calls = reached at fits
  refine ⟨fits.known, fits.validates, fun call fails => ?_,
    fun first second revision later held again => ?_, fun id account fence scope later => ?_⟩
  · rcases step_cases services reached call with ⟨succeeds, -⟩ | ⟨-, same⟩
    · exact absurd succeeds fails
    · rw [same]
  · have old := fits.distinct.bounded first revision held
    have before := (run_renews services fits later).earlier second old again
    obtain rfl := fits.distinct.single first second revision held before
    refine ⟨rfl, ?_⟩
    rintro middle ⟨rest, rfl⟩
    have between := run_fits services fits middle
    rw [run_append] at again
    exact (run_renews services between rest).earlier first
      (old.trans (run_renews services fits middle).clock) again
  · obtain ⟨rfl, current⟩ := accountRefreshScope_current scope
    rw [ensureAccountRefreshCurrent_iff, run_current fits current]

theorem run_fencing_plainCalls : ∃ store, opened plainServices plainState = .ok store ∧
    Fencing plainServices (run (step plainServices) store (plainCalls.take 2)) := by
  obtain ⟨store, ok⟩ := plainState_opens
  exact ⟨store, ok, run_fencing ok (plainCalls.take 2)⟩

end LocalPoolStore

end ZenithRelay.LocalPool
