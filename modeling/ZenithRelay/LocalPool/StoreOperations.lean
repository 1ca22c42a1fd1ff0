import ZenithRelay.LocalPool.StoreProperties

/-!
# Usage, revisions and requests

The operations that write single records or revisions, and the law of every request.
-/

set_option autoImplicit false

namespace ZenithRelay.LocalPool

open Fallible

variable {Details : Type}

namespace LocalPoolStore

theorem forall₂_set {Value : Type} {relation : Value → Value → Prop}
    (reflexive : ∀ value, relation value value) {values : List Value} {index : Nat}
    {previous value : Value} (found : values[index]? = some previous)
    (related : relation previous value) : List.Forall₂ relation values (values.set index value) := by
  induction values generalizing index with
  | nil => cases found
  | cons first rest ih =>
    cases index with
    | zero =>
      cases found
      exact .cons related (List.forall₂_same.mpr fun _ _ => reflexive _)
    | succ index => exact .cons (reflexive first) (ih found)

/-- The same ids and identities in the same order. -/
def SameIdentities (accounts others : List (LocalAccountRecord Details)) : Prop :=
  List.Forall₂ (fun left right => left.account.id = right.account.id ∧
    left.account.identity = right.account.identity) accounts others

theorem SameIdentities.accountIds {accounts others : List (LocalAccountRecord Details)}
    (same : SameIdentities accounts others) : accountIds others = accountIds accounts := by
  induction same with
  | nil => rfl
  | cons first _ ih =>
    simp only [LocalPool.accountIds, List.map_cons] at ih ⊢
    rw [first.1, ih]

theorem SameIdentities.any {accounts others : List (LocalAccountRecord Details)}
    (same : SameIdentities accounts others) {taken : LocalAccountRecord Details → Bool}
    (only : ∀ left right, left.account.identity = right.account.identity →
      taken left = taken right) : others.any taken = accounts.any taken := by
  induction same with
  | nil => rfl
  | cons first _ ih => rw [List.any_cons, List.any_cons, ih, only _ _ first.2]

private theorem validateInventory_congr {accounts others : List (LocalAccountRecord Details)}
    (same : SameIdentities accounts others) (trash : List (TrashedLocalAccount Details)) :
    validateInventory others trash = validateInventory accounts trash := by
  rw [validateInventory, validateInventory, same.accountIds, same.any]
  intro left right equal
  simp only [equal]

variable [DecidableEq Details] (services : StoreServices Details)
  {store next : LocalPoolStore Details}

theorem touchUsage_atomically (keyId sourceId time : String) :
    Atomically (touchUsage services keyId sourceId time) store
      fun _ next => Recorded services store next := by
  rw [touchUsage]
  refine .inspect (.ofExcept fun sourceItem sourceOk => .ofExcept fun keyItem keyOk =>
    (replaceState_atomically [] [] _).bind ?_)
  rintro ⟨⟩ _ ⟨database, written, rfl⟩
  refine completes_modify ⟨⟨⟨[], _, written, .kept rfl rfl, ?_, .list (.kept rfl rfl) ?_,
    .kept rfl rfl, ?_, .kept rfl rfl, .kept rfl rfl, .kept rfl rfl⟩, id, fun _ => id⟩,
    ⟨_, .refl _ _, withGateway_refl _ _⟩, rfl⟩
  · refine itemOf_written sourceOk (fun _ _ => touchedSource_some services) rfl fun position => ?_
    rw [itemText_append, itemOf_other keyOk (by decide), Option.none_or]
  · intro position
    rw [itemText_append, itemOf_other keyOk (by decide), itemOf_other sourceOk (by decide)]
    rfl
  · refine itemOf_written keyOk (fun _ _ => touchedKey_some services) rfl fun position => ?_
    rw [itemText_append, itemOf_other sourceOk (by decide), Option.or_none]

private theorem ensure_ok {condition : Bool} {error : LocalPoolError} {value : Unit}
    (ok : ensure condition error = .ok value) : condition = true := by
  by_contra failed
  rw [ensure, if_neg failed] at ok
  cases ok

theorem identity_of_sameAccountScope {left right : LocalAccountRecord Details}
    (same : sameAccountScope left right = true) :
    left.account.identity = right.account.identity := by
  simp only [sameAccountScope, Bool.and_eq_true, decide_eq_true_eq] at same
  exact same.1.1.1.1.1.1

theorem persistAccountUsage_atomically (account : LocalAccountRecord Details)
    (keyId time : String) (automations : AutomationRecords Details) :
    Atomically (persistAccountUsage services account keyId time automations) store
      fun _ next => Recorded services store next := by
  rw [persistAccountUsage]
  refine .inspect ?_
  simp only [id]
  split
  next => exact atomically_throw _
  next index previous found =>
    obtain ⟨listed, sameId⟩ := enumerated_some found
    have id_ : previous.account.id = account.account.id := by simpa using sameId
    refine .ofExcept fun _ scope => .ofExcept fun accountItem accountOk =>
      .ofExcept fun keyItem keyOk => .ofExcept fun entry automationsOk =>
        (replaceState_atomically _ [] _).bind ?_
    have scope := ensure_ok scope
    rintro ⟨⟩ _ ⟨database, written, rfl⟩
    -- a record that stays as it is has no item
    have touched : store.accounts.set index account =
        setTouched (if previous ≠ account then some (index, account) else none) store.accounts := by
      split
      next => rfl
      next same =>
        obtain rfl := not_not.mp same
        obtain ⟨inside, same⟩ := List.getElem?_eq_some_iff.mp listed
        subst same
        exact List.set_getElem_self inside
    have within : ∀ position value,
        (if previous ≠ account then some (index, account) else none) = some (position, value) →
          ∃ previous, store.accounts[position]? = some previous ∧
            previous.account.id = value.account.id := by
      intro position value changed
      obtain ⟨-, same⟩ := Option.ite_none_right_eq_some.mp changed
      cases same
      exact ⟨previous, listed, id_⟩
    refine .modify (notifyIf_completes _ fun _ => ⟨⟨⟨_, _, written,
      .kept (entryIf_other automationsOk (by decide)) rfl,
      .list (.kept (entryIf_other automationsOk (by decide)) rfl) ?_, ?_,
      .kept (entryIf_other automationsOk (by decide)) rfl, ?_,
      entryIf_written automationsOk (fun same => by simpa using same) rfl,
      .kept (entryIf_other automationsOk (by decide)) rfl,
      .kept (entryIf_other automationsOk (by decide)) rfl⟩, fun valid => ?_, fun _ => id⟩,
      ⟨_, .observed (forall₂_set (fun _ => ⟨rfl, sameAccountScope_refl _⟩) listed ⟨id_, scope⟩)
        rfl, withGateway_refl _ _⟩, rfl⟩)
    · intro position
      rw [itemText_append, itemOf_other keyOk (by decide), itemOf_other accountOk (by decide)]
      rfl
    · simp only [touched]
      refine itemOf_written accountOk within (entryIf_other automationsOk (by decide))
        fun position => ?_
      rw [itemText_append, itemOf_other keyOk (by decide), Option.none_or]
    · refine itemOf_written keyOk (fun _ _ => touchedKey_some services)
        (entryIf_other automationsOk (by decide)) fun position => ?_
      rw [itemText_append, itemOf_other accountOk (by decide), Option.or_none]
    · have valid : validateInventory store.accounts store.accountTrash = .ok () := valid
      rw [← validateInventory_congr (forall₂_set (fun _ => ⟨rfl, rfl⟩) listed
        ⟨id_, identity_of_sameAccountScope scope⟩)] at valid
      exact valid

/-! ### Whole lists and routes -/

theorem replacePoolRecords_atomically (sources : List (ProviderSourceRecord Details))
    (accounts : List (LocalAccountRecord Details)) (keys : List (LocalGatewayKeyRecord Details)) :
    Atomically (replacePoolRecords services sources accounts keys) store
      fun _ next => Recorded services store next :=
  .inspect ((replaceAllRecords_atomically services _ _ _ _).mono fun _ _ => ReplacedAll.recorded)

theorem replaceAutomations_atomically (automations : AutomationRecords Details) :
    Atomically (replaceAutomations services automations) store
      fun _ next => Recorded services store next :=
  .inspect ((replaceAllRecords_atomically services _ _ _ _).mono fun _ _ => ReplacedAll.recorded)

/-- The routes of a copy of the store's own settings are read back with them. -/
theorem replaceAccountRoutes_atomically (accounts : List (LocalAccountRecord Details))
    (accountRoutes : List AccountRouteGroup) (poolRouting : Details)
    (automations : AutomationRecords Details) :
    Atomically (replaceAccountRoutes services accounts
      { store.gateway with accountRoutes, poolRouting } automations) store
      fun _ next => Recorded services store next := by
  refine .inspect ((replaceAllRecordsInner_atomically services _ _ _ _ _ _ ?_).mono
    fun _ _ => ReplacedAll.recorded)
  intro given same lawful own
  cases same
  exact lawful.routes _ _ _ own

theorem deleteAccountsState_atomically (accountIds : List String)
    (accounts : List (LocalAccountRecord Details)) (keys : List (LocalGatewayKeyRecord Details))
    (automations : AutomationRecords Details) :
    Atomically (deleteAccountsState services accountIds accounts keys automations) store
      fun _ next => Recorded services store next := by
  refine .inspect ((replaceAllRecordsInner_atomically services _ _ _ _ _ _ ?_).mono
    fun _ _ => ReplacedAll.recorded)
  intro given same
  cases same

theorem upsertSource_atomically (source : ProviderSourceRecord Details) :
    Atomically (upsertSource services source) store
      fun _ next => Recorded services store next :=
  .inspect (replaceRecords_atomically services _ _)

theorem upsertKey_atomically (key : LocalGatewayKeyRecord Details) :
    Atomically (upsertKey services key) store fun _ next => Recorded services store next :=
  .inspect (replaceRecords_atomically services _ _)

theorem setGatewayEnabled_atomically (enabled : Bool) :
    Atomically (setGatewayEnabled services enabled) store
      fun _ next => Recorded services store next :=
  .inspect (replaceGateway_atomically services _)

/-! ### Revisions -/

/-- New revisions and nothing else. -/
structure Revoked (store next : LocalPoolStore Details) (revisions : RefreshRevisions) : Prop
    extends Changed services store next where
  accounts_eq : next.accounts = store.accounts
  gateway_eq : next.gateway = store.gateway
  accountTrash_eq : next.accountTrash = store.accountTrash
  refreshRevisions_eq : next.refreshRevisions = revisions

omit [DecidableEq Details] in
private theorem persistRefreshRevisions_atomically (revisions : RefreshRevisions) :
    Atomically (persistRefreshRevisions services revisions) store
      fun _ next => Revoked services store next revisions := by
  rw [persistRefreshRevisions]
  refine .inspect ?_
  simp only [id]
  split
  next same =>
    exact atomically_pure ⟨⟨⟨[], [], .refl store⟩, id, fun _ => id⟩, rfl, rfl, rfl, same.symm⟩
  next =>
    refine .ofExcept fun text serialized => (replaceState_atomically _ [] []).bind ?_
    rintro ⟨⟩ _ ⟨database, written, rfl⟩
    exact .modify (completes_modify ⟨⟨⟨_, [], written, .kept rfl rfl,
      .list (.kept rfl rfl) fun _ => rfl, .list (.kept rfl rfl) fun _ => rfl, .kept rfl rfl,
      .list (.kept rfl rfl) fun _ => rfl, .kept rfl rfl, .whole text rfl serialized,
      .kept rfl rfl⟩, id, fun _ => id⟩, rfl, rfl, rfl, rfl⟩)

omit [DecidableEq Details] in
theorem invalidateAccountRefresh_atomically (accountIds : List String) :
    Atomically (invalidateAccountRefresh services accountIds) store fun _ next =>
      ∃ revisions, store.refreshRevisions.invalidated accountIds = .ok revisions ∧
        Revoked services store next revisions := by
  rw [invalidateAccountRefresh]
  exact .inspect (.ofExcept fun revisions invalidated =>
    (persistRefreshRevisions_atomically services revisions).mono fun _ _ revoked =>
      ⟨revisions, invalidated, revoked⟩)

omit [DecidableEq Details] in
theorem invalidateRefreshConfiguration_atomically :
    Atomically (invalidateRefreshConfiguration services) store fun _ next =>
      ∃ revisions, store.refreshRevisions.reconfigured = .ok revisions ∧
        Revoked services store next revisions := by
  rw [invalidateRefreshConfiguration]
  exact .inspect (.ofExcept fun revisions reconfigured =>
    (persistRefreshRevisions_atomically services revisions).mono fun _ _ revoked =>
      ⟨revisions, reconfigured, revoked⟩)

theorem invalidateSourceRefresh_atomically (sourceId : String) :
    Atomically (invalidateSourceRefresh services sourceId) store
      fun _ next => Recorded services store next := by
  rw [invalidateSourceRefresh]
  refine .inspect (.ofExcept fun revisions _ => .ofExcept fun text serialized =>
    (replaceState_atomically _ [] []).bind ?_)
  rintro ⟨⟩ _ ⟨database, written, rfl⟩
  exact .modify (completes_modify ⟨⟨⟨_, [], written, .kept rfl rfl,
    .list (.kept rfl rfl) fun _ => rfl, .list (.kept rfl rfl) fun _ => rfl, .kept rfl rfl,
    .list (.kept rfl rfl) fun _ => rfl, .kept rfl rfl, .kept rfl rfl,
    .whole text rfl serialized⟩, id, fun _ => id⟩, ⟨_, .refl _ _, withGateway_refl _ _⟩, rfl⟩)

theorem applySourceRefresh_atomically (fence : SourceRefreshFence)
    (apply : ProviderSourceRecord Details → Except LocalPoolError (ProviderSourceRecord Details)) :
    Atomically (applySourceRefresh services fence apply) store
      fun _ next => Recorded services store next := by
  rw [applySourceRefresh]
  refine .inspect (.ofExcept fun _ _ => ?_)
  split
  next => exact atomically_throw _
  next =>
    refine .ofExcept fun _ _ => .ofExcept fun _ _ => .ofExcept fun text serialized =>
      (replaceState_atomically _ [] []).bind ?_
    rintro ⟨⟩ _ ⟨database, written, rfl⟩
    refine .modify (.modify (completes_pure ?_))
    exact ⟨⟨⟨_, [], written, .kept rfl rfl, .list (.whole text rfl serialized) fun _ => rfl,
      .list (.kept rfl rfl) fun _ => rfl, .kept rfl rfl, .list (.kept rfl rfl) fun _ => rfl,
      .kept rfl rfl, .kept rfl rfl, .kept rfl rfl⟩, id, fun _ => id⟩,
      ⟨_, .refl _ _, withGateway_refl _ _⟩, rfl⟩

/-! ### Requests -/

/-- What a successful request makes of the revisions. -/
def Revises (store next : LocalPoolStore Details) : StoreRequest Details → Prop
  | .invalidateAccountRefresh accountIds => next.accounts = store.accounts ∧
      next.gateway = store.gateway ∧
      store.refreshRevisions.invalidated accountIds = .ok next.refreshRevisions
  | .invalidateRefreshConfiguration => next.accounts = store.accounts ∧
      next.gateway = store.gateway ∧
      store.refreshRevisions.reconfigured = .ok next.refreshRevisions
  | _ => RecordsRevised store next

/-- What a successful request makes of the trash. -/
def MovesTrash (store next : LocalPoolStore Details) : StoreRequest Details → Prop
  | .trashAccounts accountIds _ trashedAtMs => ∃ records,
      eachFound store.account accountIds = .ok records ∧
      next.accounts =
        (store.accounts.filter fun account => !accountIds.contains account.account.id) ∧
      next.accountTrash = store.accountTrash ++ records.map fun record => ⟨record, trashedAtMs⟩
  | .restoreTrashedAccounts accountIds => ∃ entries,
      eachFound store.trashedAccount accountIds = .ok entries ∧
      next.accounts = (store.accounts ++ entries.map fun entry => entry.record.restored) ∧
      next.accountTrash =
        store.accountTrash.filter fun entry => !accountIds.contains entry.record.account.id
  | .purgeTrashedAccounts accountIds => next.accounts = store.accounts ∧
      next.accountTrash =
        store.accountTrash.filter fun entry => !accountIds.contains entry.record.account.id
  | _ => next.accountTrash = store.accountTrash

/-- The store after a successful request. -/
structure Served (request : StoreRequest Details) (store next : LocalPoolStore Details) : Prop
    extends Changed services store next where
  revises : Revises store next request
  movesTrash : MovesTrash store next request

/-- Every request leaves the store, or does all of its work. -/
theorem serve_atomically (request : StoreRequest Details) :
    Atomically (serve services request) store
      fun _ next => Served services request store next := by
  have plain {next : LocalPoolStore Details} {request : StoreRequest Details}
      (revises : RecordsRevised store next → Revises store next request)
      (moves : next.accountTrash = store.accountTrash → MovesTrash store next request)
      (recorded : Recorded services store next) : Served services request store next :=
    ⟨recorded.toChanged, revises recorded.revised, moves recorded.accountTrash_eq⟩
  cases request with
  | replaceAllRecords =>
    exact (replaceAllRecords_atomically services _ _ _ _).mono fun _ _ replaced =>
      plain id id replaced.recorded
  | replaceRecords => exact (replaceRecords_atomically services _ _).mono fun _ _ => plain id id
  | replaceAccountsAndKeys =>
    exact (replaceAccountsAndKeys_atomically services _ _).mono fun _ _ => plain id id
  | replacePoolRecords =>
    exact (replacePoolRecords_atomically services _ _ _).mono fun _ _ => plain id id
  | replaceAutomations =>
    exact (replaceAutomations_atomically services _).mono fun _ _ => plain id id
  | replaceAccountRoutes =>
    exact .inspect ((replaceAccountRoutes_atomically services _ _ _ _).mono fun _ _ => plain id id)
  | deleteAccountsState =>
    exact (deleteAccountsState_atomically services _ _ _ _).mono fun _ _ => plain id id
  | upsertSource => exact (upsertSource_atomically services _).mono fun _ _ => plain id id
  | upsertKey => exact (upsertKey_atomically services _).mono fun _ _ => plain id id
  | upsertAccount => exact (upsertAccount_atomically services _).mono fun _ _ => plain id id
  | restoreAccountIfCurrent =>
    exact (restoreAccountIfCurrent_atomically services _ _).bind fun _ _ recorded =>
      completes_pure (plain id id recorded)
  | blockAccountsForTeam =>
    exact (blockAccountsForTeam_atomically services _).bind fun _ _ recorded =>
      completes_pure (plain id id recorded)
  | updateClientAuthObservation =>
    exact (updateClientAuthObservation_atomically services _ _ _).bind fun _ _ recorded =>
      completes_pure (plain id id recorded)
  | recoverAccountLocally =>
    exact (recoverAccountLocally_atomically services _ _).mono fun _ _ => plain id id
  | replaceGateway => exact (replaceGateway_atomically services _).mono fun _ _ => plain id id
  | setGatewayEnabled =>
    exact (setGatewayEnabled_atomically services _).mono fun _ _ => plain id id
  | trashAccounts =>
    refine (trashAccounts_atomically services _ _ _).mono ?_
    rintro _ next ⟨records, found, inventoried⟩
    exact ⟨inventoried.toChanged, inventoried.revised, records, found, inventoried.accounts_eq,
      inventoried.accountTrash_eq⟩
  | restoreTrashedAccounts =>
    refine (restoreTrashedAccounts_atomically services _).mono ?_
    rintro _ next ⟨entries, found, inventoried⟩
    exact ⟨inventoried.toChanged, inventoried.revised, entries, found, inventoried.accounts_eq,
      inventoried.accountTrash_eq⟩
  | purgeTrashedAccounts =>
    exact (purgeTrashedAccounts_atomically services _).mono fun _ _ inventoried =>
      ⟨inventoried.toChanged, inventoried.revised, inventoried.accounts_eq,
        inventoried.accountTrash_eq⟩
  | touchUsage => exact (touchUsage_atomically services _ _ _).mono fun _ _ => plain id id
  | persistAccountUsage =>
    exact (persistAccountUsage_atomically services _ _ _ _).mono fun _ _ => plain id id
  | applyAccountRefresh =>
    exact (applyAccountRefresh_atomically services _ _).bind fun _ _ recorded =>
      completes_pure (plain id id recorded)
  | invalidateAccountRefresh =>
    refine (invalidateAccountRefresh_atomically services _).mono ?_
    rintro _ next ⟨revisions, invalidated, revoked⟩
    exact ⟨revoked.toChanged, ⟨revoked.accounts_eq, revoked.gateway_eq,
      revoked.refreshRevisions_eq ▸ invalidated⟩, revoked.accountTrash_eq⟩
  | invalidateRefreshConfiguration =>
    refine (invalidateRefreshConfiguration_atomically services).mono ?_
    rintro _ next ⟨revisions, reconfigured, revoked⟩
    exact ⟨revoked.toChanged, ⟨revoked.accounts_eq, revoked.gateway_eq,
      revoked.refreshRevisions_eq ▸ reconfigured⟩, revoked.accountTrash_eq⟩
  | applySourceRefresh =>
    exact (applySourceRefresh_atomically services _ _).bind fun _ _ recorded =>
      completes_pure (plain id id recorded)
  | invalidateSourceRefresh =>
    exact (invalidateSourceRefresh_atomically services _).mono fun _ _ => plain id id

end LocalPoolStore

end ZenithRelay.LocalPool
