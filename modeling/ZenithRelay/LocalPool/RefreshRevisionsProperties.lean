import ZenithRelay.LocalPool.RefreshRevisions

/-!
# Revisions come from one clock

Each account and the configuration hold one revision. A new revision is later than all
that were handed out before, so no two holders ever have the same.
-/

set_option autoImplicit false

namespace ZenithRelay.LocalPool

variable {Details : Type}

inductive RevisionHolder where
  | account (id : String)
  | configuration
  deriving DecidableEq

namespace RefreshRevisions

def held (revisions : RefreshRevisions) : RevisionHolder → Option Nat
  | .account id => revisions.accounts[id]?
  | .configuration => some revisions.configuration

/-- No revision is ahead of the clock, and no two holders share one. -/
structure Distinct (revisions : RefreshRevisions) : Prop where
  bounded : ∀ holder revision, revisions.held holder = some revision → revision ≤ revisions.clock
  single : ∀ first second revision, revisions.held first = some revision →
    revisions.held second = some revision → first = second
  positive : ∀ (id : String) (revision : Nat), revisions.accounts[id]? = some revision →
    0 < revision

/-- Whoever holds another revision than before got it from the clock. -/
structure Renews (before after : RefreshRevisions) : Prop where
  clock : before.clock ≤ after.clock
  fresh : ∀ holder revision, after.held holder = some revision →
    before.held holder = some revision ∨ before.clock < revision
  distinct : before.Distinct → after.Distinct

theorem Renews.refl (revisions : RefreshRevisions) : Renews revisions revisions :=
  ⟨Nat.le_refl _, fun _ _ held => Or.inl held, id⟩

theorem Renews.trans {first second third : RefreshRevisions} (early : Renews first second)
    (late : Renews second third) : Renews first third where
  clock := early.clock.trans late.clock
  fresh := by
    intro holder revision held
    rcases late.fresh holder revision held with earlier | new
    · exact early.fresh holder revision earlier
    · exact Or.inr (early.clock.trans_lt new)
  distinct := late.distinct ∘ early.distinct

/-- A revision of before is held by nobody who did not hold it before. -/
theorem Renews.earlier {before after : RefreshRevisions} (renews : Renews before after)
    (holder : RevisionHolder) {revision : Nat} (old : revision ≤ before.clock)
    (held : after.held holder = some revision) : before.held holder = some revision :=
  (renews.fresh holder revision held).resolve_right (Nat.not_lt.mpr old)

/-- One holder gets the next revision. -/
theorem Renews.of_next {before after : RefreshRevisions} (holder : RevisionHolder)
    (clock : after.clock = before.clock + 1) (own : after.held holder = some after.clock)
    (others : ∀ other, other ≠ holder → after.held other = before.held other) :
    Renews before after where
  clock := by omega
  fresh := by
    intro other revision held
    by_cases same : other = holder
    · rw [same, own] at held
      cases held
      exact Or.inr (by omega)
    · exact Or.inl (others other same ▸ held)
  distinct := by
    intro distinct
    have old (other : RevisionHolder) {revision : Nat} (different : other ≠ holder)
        (held : after.held other = some revision) : before.held other = some revision :=
      others other different ▸ held
    refine ⟨fun other revision held => ?_, fun first second revision left right => ?_,
      fun id revision held => ?_⟩
    · by_cases same : other = holder
      · rw [same, own] at held
        cases held
        exact Nat.le_refl _
      · have bounded := distinct.bounded other revision (old other same held)
        omega
    · by_cases firstSame : first = holder
      · by_cases secondSame : second = holder
        · exact firstSame.trans secondSame.symm
        · rw [firstSame, own] at left
          cases left
          have bounded := distinct.bounded second _ (old second secondSame right)
          omega
      · by_cases secondSame : second = holder
        · rw [secondSame, own] at right
          cases right
          have bounded := distinct.bounded first _ (old first firstSame left)
          omega
        · exact distinct.single first second revision (old first firstSame left)
            (old second secondSame right)
    · by_cases same : RevisionHolder.account id = holder
      · have newest : after.held (.account id) = some revision := held
        rw [same, own] at newest
        cases newest
        omega
      · exact distinct.positive id revision (old (.account id) same held)

/-! ### Configuration -/

theorem allocateRevision_ok {revisions next : RefreshRevisions}
    (ok : revisions.allocateRevision = .ok next) :
    next = { revisions with clock := revisions.clock + 1 } := by
  rw [allocateRevision] at ok
  split at ok
  next => cases ok; rfl
  next => cases ok

theorem reconfigured_ok {revisions next : RefreshRevisions}
    (ok : revisions.reconfigured = .ok next) :
    next = { revisions with clock := revisions.clock + 1, configuration := revisions.clock + 1 } := by
  cases allocated : revisions.allocateRevision with
  | error error =>
    rw [reconfigured, allocated] at ok
    cases ok
  | ok updated =>
    rw [reconfigured, allocated] at ok
    cases ok
    rw [allocateRevision_ok allocated]

theorem reconfigured_renews {revisions next : RefreshRevisions}
    (ok : revisions.reconfigured = .ok next) : Renews revisions next := by
  rw [reconfigured_ok ok]
  refine .of_next .configuration rfl rfl fun other different => ?_
  cases other with
  | account id => rfl
  | configuration => exact absurd rfl different

theorem withGateway_renews {revisions next : RefreshRevisions}
    {previous gateway : GatewaySettings Details}
    (ok : revisions.withGateway previous gateway = .ok next) : Renews revisions next := by
  rw [withGateway] at ok
  split at ok
  next =>
    cases ok
    exact .refl revisions
  next => exact reconfigured_renews ok

/-- The configuration keeps its revision while the fenced settings stay. -/
theorem withGateway_configuration {revisions next : RefreshRevisions}
    {previous gateway : GatewaySettings Details} (bounded : revisions.configuration ≤ revisions.clock)
    (ok : revisions.withGateway previous gateway = .ok next) :
    next.accounts = revisions.accounts ∧ (next.configuration = revisions.configuration ↔
      sameFencedSettings previous gateway = true) := by
  rw [withGateway] at ok
  split at ok
  next same =>
    cases ok
    exact ⟨rfl, fun _ => same, fun _ => rfl⟩
  next different =>
    rw [reconfigured_ok ok]
    refine ⟨rfl, fun same => ?_, fun same => absurd same different⟩
    simp only at same
    omega

/-! ### Invalidated accounts -/

/-- A listed account gets a later revision, if it is known; the others keep theirs. -/
structure Invalidates (ids : List String) (before after : RefreshRevisions) : Prop where
  renews : Renews before after
  configuration : after.configuration = before.configuration
  known : ∀ id : String, (after.accounts[id]?).isSome = (before.accounts[id]?).isSome
  others : ∀ id : String, id ∉ ids → after.accounts[id]? = before.accounts[id]?
  listed : ∀ (id : String) (revision : Nat), id ∈ ids → after.accounts[id]? = some revision →
    before.clock < revision

/-- The revisions after one known account of the list. -/
theorem invalidated_cons {revisions next : RefreshRevisions} {id : String} {rest : List String}
    (ok : revisions.invalidated (id :: rest) = .ok next) :
    (revisions.accounts[id]? = none ∧ revisions.invalidated rest = .ok next) ∨
      (revisions.accounts[id]?).isSome = true ∧
        invalidated { revisions with
          clock := revisions.clock + 1
          accounts := revisions.accounts.insert id (revisions.clock + 1) } rest = .ok next := by
  rw [invalidated] at ok
  split at ok
  next contained =>
    refine Or.inr ⟨by simpa using contained, ?_⟩
    cases allocated : revisions.allocateRevision with
    | error error =>
      rw [allocated] at ok
      cases ok
    | ok updated =>
      rw [allocated] at ok
      rw [allocateRevision_ok allocated] at ok
      exact ok
  next missing => exact Or.inl ⟨by simpa using missing, ok⟩

theorem invalidated_ok {revisions next : RefreshRevisions} {ids : List String}
    (ok : revisions.invalidated ids = .ok next) : Invalidates ids revisions next := by
  induction ids generalizing revisions with
  | nil =>
    cases ok
    exact ⟨.refl _, rfl, fun _ => rfl, fun _ _ => rfl, by simp⟩
  | cons id rest ih =>
    rcases invalidated_cons ok with ⟨missing, later⟩ | ⟨present, later⟩
    · obtain ⟨renews, configuration, known, others, listed⟩ := ih later
      refine ⟨renews, configuration, known,
        fun other absent => others other (not_or.mp (List.mem_cons.not.mp absent)).2,
        fun other revision member held => ?_⟩
      rcases List.mem_cons.mp member with rfl | inside
      · have unknown := known other
        rw [held, missing] at unknown
        cases unknown
      · exact listed other revision inside held
    · obtain ⟨renews, configuration, known, others, listed⟩ := ih later
      have first : Renews revisions { revisions with
          clock := revisions.clock + 1
          accounts := revisions.accounts.insert id (revisions.clock + 1) } := by
        refine .of_next (.account id) rfl ?_ fun other different => ?_
        · simp [held]
        · cases other with
          | account other =>
            have apart : other ≠ id := fun same => different (congrArg _ same)
            simp [held, apart]
          | configuration => rfl
      refine ⟨first.trans renews, configuration, fun other => ?_, fun other absent => ?_,
        fun other revision member held => ?_⟩
      · rw [known other, BTreeMap.lookup_insert]
        by_cases same : other = id
        · rw [if_pos same, same, present]
          rfl
        · rw [if_neg same]
      · obtain ⟨apart, outside⟩ := not_or.mp (List.mem_cons.not.mp absent)
        rw [others other outside, BTreeMap.lookup_insert, if_neg apart]
      · by_cases inside : other ∈ rest
        · exact (Nat.lt_succ_self _).trans (listed other revision inside held)
        · obtain rfl := (List.mem_cons.mp member).resolve_right inside
          rw [others other inside, BTreeMap.lookup_insert, if_pos rfl] at held
          cases held
          exact Nat.lt_succ_self _

/-! ### Replaced accounts -/

variable [DecidableEq Details]

/-- The account was listed before with the same scope. -/
def keepsScope (previous : List (LocalAccountRecord Details)) (account : LocalAccountRecord Details) :
    Bool :=
  (previous.reverse.find? (·.account.id = account.account.id)).any (sameAccountScope · account)

/-- The revisions of the accounts replaced so far. -/
structure Carries (revisions : RefreshRevisions)
    (previous accounts : List (LocalAccountRecord Details)) (updated : RefreshRevisions) : Prop where
  clock : revisions.clock ≤ updated.clock
  configuration : updated.configuration = revisions.configuration
  distinct_ids : (accountIds accounts).Nodup
  known : ∀ id : String, (updated.accounts[id]?).isSome = true ↔ id ∈ accountIds accounts
  kept : ∀ account ∈ accounts, keepsScope previous account = true →
    updated.accounts[account.account.id]? = revisions.accounts[account.account.id]?
  renewed : ∀ account ∈ accounts, keepsScope previous account = false →
    ∀ revision, updated.accounts[account.account.id]? = some revision →
      revisions.clock < revision ∧ revision ≤ updated.clock
  single : ∀ (first second : String) (revision : Nat), revisions.clock < revision →
    updated.accounts[first]? = some revision → updated.accounts[second]? = some revision →
    first = second

theorem withAccount_ok {revisions updated next : RefreshRevisions}
    {previous : List (LocalAccountRecord Details)} {account : LocalAccountRecord Details}
    (ok : revisions.withAccount previous updated account = .ok next) :
    updated.accounts[account.account.id]? = none ∧
      ((keepsScope previous account = true ∧ ∃ revision,
          revisions.accounts[account.account.id]? = some revision ∧
          next = { updated with accounts := updated.accounts.insert account.account.id revision }) ∨
        keepsScope previous account = false ∧ next = { updated with
          clock := updated.clock + 1
          accounts := updated.accounts.insert account.account.id (updated.clock + 1) }) := by
  have inserted {updated : RefreshRevisions} {revision : Nat}
      (ok : (if updated.accounts.contains account.account.id then .error invalidRevisions
        else .ok { updated with accounts := updated.accounts.insert account.account.id revision } :
          Except LocalPoolError RefreshRevisions) = .ok next) :
      updated.accounts[account.account.id]? = none ∧
        next = { updated with accounts := updated.accounts.insert account.account.id revision } := by
    split at ok
    next => cases ok
    next missing =>
      cases ok
      exact ⟨by simpa using missing, rfl⟩
  rw [withAccount] at ok
  cases keeps : keepsScope previous account with
  | true =>
    rw [keepsScope] at keeps
    simp only [keeps, if_true] at ok
    cases found : revisions.accounts[account.account.id]? with
    | none =>
      rw [found] at ok
      cases ok
    | some revision =>
      rw [found] at ok
      obtain ⟨missing, same⟩ := inserted ok
      exact ⟨missing, Or.inl ⟨rfl, revision, rfl, same⟩⟩
  | false =>
    rw [keepsScope] at keeps
    simp only [keeps, Bool.false_eq_true, if_false] at ok
    cases allocated : updated.allocateRevision with
    | error error =>
      rw [allocated] at ok
      cases ok
    | ok later =>
      rw [allocated] at ok
      obtain ⟨missing, same⟩ := inserted ok
      rw [allocateRevision_ok allocated] at missing same
      exact ⟨missing, Or.inr ⟨rfl, same⟩⟩

variable {revisions updated next : RefreshRevisions}
  {previous accounts : List (LocalAccountRecord Details)} {account : LocalAccountRecord Details}

/-- A revision of the replaced accounts is an earlier one or no later than the clock. -/
private theorem Carries.bounded (carries : Carries revisions previous accounts updated)
    {id : String} {revision : Nat}
    (held : updated.accounts[id]? = some revision) :
    revisions.accounts[id]? = some revision ∨ revisions.clock < revision ∧ revision ≤ updated.clock := by
  have listed := (carries.known id).mp (by rw [held]; rfl)
  obtain ⟨account, member, rfl⟩ := List.mem_map.mp listed
  cases keeps : keepsScope previous account with
  | true => exact Or.inl (carries.kept account member keeps ▸ held)
  | false => exact Or.inr (carries.renewed account member keeps revision held)

/-- One more account with its revision. -/
private theorem Carries.insert (carries : Carries revisions previous accounts updated)
    (distinct : revisions.Distinct) {revision : Nat}
    (missing : updated.accounts[account.account.id]? = none) (clock : updated.clock ≤ next.clock)
    (configuration : next.configuration = updated.configuration)
    (inserted : next.accounts = updated.accounts.insert account.account.id revision)
    (keeps : keepsScope previous account = true →
      revisions.accounts[account.account.id]? = some revision)
    (renews : keepsScope previous account = false →
      updated.clock < revision ∧ revision ≤ next.clock) :
    Carries revisions previous (accounts ++ [account]) next := by
  have fresh : account.account.id ∉ accountIds accounts := fun listed => by
    have known := (carries.known _).mpr listed
    rw [missing] at known
    cases known
  have ids : accountIds (accounts ++ [account]) = accountIds accounts ++ [account.account.id] := by
    simp [accountIds]
  have own : next.accounts[account.account.id]? = some revision := by
    rw [inserted, BTreeMap.lookup_insert, if_pos rfl]
  have other {id : String} (listed : id ∈ accountIds accounts) :
      next.accounts[id]? = updated.accounts[id]? := by
    rw [inserted, BTreeMap.lookup_insert, if_neg (ne_of_mem_of_not_mem listed fresh)]
  have same_id {id : String} {later : Nat} (held : next.accounts[id]? = some later) :
      id = account.account.id ∧ later = revision ∨ updated.accounts[id]? = some later := by
    rw [inserted, BTreeMap.lookup_insert] at held
    split at held
    next same =>
      cases held
      exact Or.inl ⟨same, rfl⟩
    next => exact Or.inr held
  -- a later revision of the new account is later than all that are listed
  have alone {id : String} (later : revisions.clock < revision)
      (held : updated.accounts[id]? = some revision) : False := by
    cases scope : keepsScope previous account with
    | true =>
      have old := distinct.bounded (.account _) revision (keeps scope)
      omega
    | false =>
      have new := renews scope
      rcases carries.bounded held with earlier | within
      · have old := distinct.bounded (.account id) revision earlier
        omega
      · omega
  refine ⟨carries.clock.trans clock, configuration.trans carries.configuration, ?_, fun id => ?_,
    fun listed member scope => ?_, fun listed member scope later held => ?_,
    fun first second later after left right => ?_⟩
  · rw [ids]
    exact carries.distinct_ids.append (List.nodup_singleton _)
      (by simpa [List.disjoint_singleton] using fresh)
  · rw [ids, List.mem_append, List.mem_singleton, ← carries.known, inserted,
      BTreeMap.lookup_insert]
    by_cases same : id = account.account.id
    · simp [same]
    · simp [same]
  · rcases List.mem_append.mp member with earlier | last
    · rw [other (List.mem_map_of_mem earlier)]
      exact carries.kept listed earlier scope
    · obtain rfl := List.mem_singleton.mp last
      rw [own, keeps scope]
  · rcases List.mem_append.mp member with earlier | last
    · rw [other (List.mem_map_of_mem earlier)] at held
      obtain ⟨new, within⟩ := carries.renewed listed earlier scope later held
      exact ⟨new, within.trans clock⟩
    · obtain rfl := List.mem_singleton.mp last
      rw [own] at held
      cases held
      exact ⟨carries.clock.trans_lt (renews scope).1, (renews scope).2⟩
  · rcases same_id left with ⟨rfl, rfl⟩ | leftOld
    · rcases same_id right with ⟨rfl, -⟩ | rightOld
      · rfl
      · exact (alone after rightOld).elim
    · rcases same_id right with ⟨rfl, rfl⟩ | rightOld
      · exact (alone after leftOld).elim
      · exact carries.single first second later after leftOld rightOld

private theorem Carries.step (carries : Carries revisions previous accounts updated)
    (distinct : revisions.Distinct)
    (ok : revisions.withAccount previous updated account = .ok next) :
    Carries revisions previous (accounts ++ [account]) next := by
  obtain ⟨missing, ⟨keeps, revision, held, rfl⟩ | ⟨renews, rfl⟩⟩ := withAccount_ok ok
  · refine carries.insert distinct missing (Nat.le_refl _) rfl rfl (fun _ => held) fun scope => ?_
    rw [keeps] at scope
    cases scope
  · refine carries.insert distinct missing (Nat.le_succ _) rfl rfl (fun scope => ?_)
      fun _ => ⟨Nat.lt_succ_self _, Nat.le_refl _⟩
    rw [renews] at scope
    cases scope

theorem withAccounts_carries (distinct : revisions.Distinct)
    (ok : revisions.withAccounts previous accounts = .ok next) :
    Carries revisions previous accounts next := by
  have loop : ∀ (done rest : List (LocalAccountRecord Details)) (updated : RefreshRevisions),
      Carries revisions previous done updated →
      rest.foldlM (revisions.withAccount previous) updated = .ok next →
      Carries revisions previous (done ++ rest) next := by
    intro done rest
    induction rest generalizing done with
    | nil =>
      intro updated carries ok
      cases ok
      rwa [List.append_nil]
    | cons account rest ih =>
      intro updated carries ok
      rw [List.foldlM_cons] at ok
      cases first : revisions.withAccount previous updated account with
      | error error =>
        rw [first] at ok
        cases ok
      | ok middle =>
        rw [first] at ok
        have stepped := ih (done ++ [account]) middle (carries.step distinct first) ok
        rwa [List.append_assoc, List.singleton_append] at stepped
  refine loop [] accounts { revisions with accounts := ∅ }
    ⟨Nat.le_refl _, rfl, List.nodup_nil, fun id => ?_, ?_, ?_, ?_⟩ ok
  · simp [accountIds]
  · simp
  · simp
  · simp

/-- Replaced accounts get their revisions from the clock or keep them. -/
theorem Carries.renews (carries : Carries revisions previous accounts next)
    (distinct : revisions.Distinct) : Renews revisions next where
  clock := carries.clock
  fresh := by
    intro holder revision held
    cases holder with
    | account id => exact (carries.bounded held).imp_right And.left
    | configuration =>
      cases held
      exact Or.inl (congrArg some carries.configuration.symm)
  distinct _ := by
    have configuration : next.configuration ≤ revisions.clock :=
      carries.configuration ▸ distinct.bounded .configuration _ rfl
    refine ⟨fun holder revision held => ?_, fun first second revision left right => ?_,
      fun id revision held => ?_⟩
    · cases holder with
      | account id =>
        rcases carries.bounded held with earlier | within
        · exact (distinct.bounded (.account id) revision earlier).trans carries.clock
        · exact within.2
      | configuration =>
        cases held
        exact configuration.trans carries.clock
    · have old {holder : RevisionHolder} (early : revision ≤ revisions.clock)
          (held : next.held holder = some revision) : revisions.held holder = some revision := by
        cases holder with
        | account id =>
          rcases carries.bounded held with earlier | within
          · exact earlier
          · omega
        | configuration =>
          cases held
          exact congrArg some carries.configuration.symm
      by_cases early : revision ≤ revisions.clock
      · exact distinct.single first second revision (old early left) (old early right)
      · cases first with
        | configuration =>
          cases left
          exact absurd configuration early
        | account first =>
          cases second with
          | configuration =>
            cases right
            exact absurd configuration early
          | account second =>
            exact congrArg _ (carries.single first second revision (by omega) left right)
    · rcases carries.bounded held with earlier | within
      · exact distinct.positive id revision earlier
      · omega

end RefreshRevisions

end ZenithRelay.LocalPool
