import ZenithRelay.Protocol.Adapter.Stream.Frame

/-!
# What a usage snapshot keeps

Each field of the snapshot after a report: the value of the report, unless it has none,
and then the one before; a total is dropped when the counters beside it have changed.
-/

set_option autoImplicit false

namespace ZenithRelay.Protocol.Adapter.Stream

/-- A value that a report really gives. -/
def given (value : Option Json) : Option Json := value.filter fun value => !value.isNull

/-- What a given value becomes beside the one before. -/
def mergedValue (previous : Option Json) (value : Json) : Json :=
  match value with
  | .object _ => mergeUsageFields (previous.getD (.object [])) value
  | _ => value

theorem mergedValue_scalar (previous : Option Json) {value : Json}
    (scalar : value.isObject = false) : mergedValue previous value = value := by
  cases value with
  | object fields => cases scalar
  | _ => rfl

theorem mergeEntry_eq (previousFields : List (String × Json)) (entry : String × Json) :
    mergeEntry previousFields entry =
      match given (some entry.2) with
      | some value =>
        Json.insert previousFields entry.1
          (mergedValue (Json.field previousFields entry.1) value)
      | none => previousFields := by
  obtain ⟨field, value⟩ := entry
  cases value <;> rw [mergeEntry] <;> first | rfl | nofun

section

variable {previousFields nextFields : List (String × Json)}

private theorem mergeEntries_distinct (distinct : (previousFields.map Prod.fst).Nodup) :
    ((mergeEntries previousFields nextFields).map Prod.fst).Nodup := by
  induction nextFields generalizing previousFields with
  | nil => exact distinct
  | cons entry nextFields ih =>
      rw [mergeEntries]
      refine ih ?_
      rw [mergeEntry_eq]
      split
      · exact Json.insert_distinct distinct _ _
      · exact distinct

theorem field_mergeEntries (distinct : (nextFields.map Prod.fst).Nodup) (key : String) :
    Json.field (mergeEntries previousFields nextFields) key =
      match given (Json.field nextFields key) with
      | some value => some (mergedValue (Json.field previousFields key) value)
      | none => Json.field previousFields key := by
  induction nextFields generalizing previousFields with
  | nil => rfl
  | cons entry nextFields ih =>
      obtain ⟨absent, distinct⟩ := List.nodup_cons.mp distinct
      rw [mergeEntries, ih distinct, Json.field_cons, mergeEntry_eq]
      by_cases own : entry.1 = key
      · have missing : Json.field nextFields key = none := Json.field_eq_none.mpr (own ▸ absent)
        rw [missing, if_pos own]
        cases given (some entry.2) with
        | none => rfl
        | some value =>
            rw [← own]
            exact (Json.field_insert ..).trans (if_pos rfl)
      · have other : Json.field (match given (some entry.2) with
            | some value => Json.insert previousFields entry.1
                (mergedValue (Json.field previousFields entry.1) value)
            | none => previousFields) key = Json.field previousFields key := by
          split
          · rw [Json.field_insert, if_neg (Ne.symm own)]
          · rfl
        rw [if_neg own, other]

private theorem remove_distinct (distinct : (previousFields.map Prod.fst).Nodup) (key : String) :
    ((Json.remove previousFields key).map Prod.fst).Nodup := by
  have erased : (previousFields.eraseP (·.1 == key)).Sublist previousFields := List.eraseP_sublist
  exact (((Json.remove_perm previousFields key).map Prod.fst).nodup_iff).mpr
    (distinct.sublist (erased.map Prod.fst))

/-- The totals that a change of the counters drops. -/
def Dropped (previousFields nextFields : List (String × Json)) (key : String) : Prop :=
  countsChanged previousFields nextFields = true ∧ key ∈ totalFields ∧
    (Json.field nextFields key).bind (·.asU64) = none

theorem dropStaleTotals_spec (distinct : (previousFields.map Prod.fst).Nodup) :
    ((dropStaleTotals previousFields nextFields).map Prod.fst).Nodup ∧
      ∀ key, (Dropped previousFields nextFields key →
          Json.field (dropStaleTotals previousFields nextFields) key = none) ∧
        (¬Dropped previousFields nextFields key →
          Json.field (dropStaleTotals previousFields nextFields) key =
            Json.field previousFields key) := by
  have dropped : ∀ (fields : List String) (previousFields : List (String × Json)),
      (previousFields.map Prod.fst).Nodup →
      let after := fields.foldl (fun previousFields field =>
        if ((Json.field nextFields field).bind (·.asU64)).isNone then
          Json.remove previousFields field
        else previousFields) previousFields
      (after.map Prod.fst).Nodup ∧ ∀ key, Json.field after key =
        if key ∈ fields ∧ (Json.field nextFields key).bind (·.asU64) = none then none
        else Json.field previousFields key := by
    intro fields
    induction fields with
    | nil => exact fun previousFields distinct => ⟨distinct, by simp⟩
    | cons field fields ih =>
        intro previousFields distinct
        rw [List.foldl_cons]
        by_cases gone : (Json.field nextFields field).bind (·.asU64) = none
        · rw [gone, Option.isNone_none, if_pos rfl]
          obtain ⟨distinctAfter, fieldAfter⟩ := ih _ (remove_distinct distinct field)
          refine ⟨distinctAfter, fun key => (fieldAfter key).trans ?_⟩
          rw [Json.field_remove distinct]
          by_cases own : key = field
          · simp [own, gone]
          · simp [own]
        · have kept : ((Json.field nextFields field).bind (·.asU64)).isNone = false :=
            Option.isNone_eq_false_iff.mpr (Option.isSome_iff_ne_none.mpr gone)
          rw [kept, if_neg (by decide)]
          obtain ⟨distinctAfter, fieldAfter⟩ := ih _ distinct
          refine ⟨distinctAfter, fun key => (fieldAfter key).trans ?_⟩
          by_cases own : key = field
          · simp [own, gone]
          · simp [own]
  unfold dropStaleTotals Dropped
  split
  next changed =>
    obtain ⟨after, field⟩ := dropped totalFields previousFields distinct
    refine ⟨after, fun key => ⟨fun holds => ?_, fun fails => ?_⟩⟩
    · rw [field, if_pos holds.2]
    · rw [field, if_neg fun holds => fails ⟨changed, holds⟩]
  next same => exact ⟨distinct, fun key => ⟨fun holds => absurd holds.1 same, fun _ => rfl⟩⟩

/-- A field of the snapshot after a report. -/
theorem get_mergeUsageFields (snapshot : Json)
    (nextDistinct : (nextFields.map Prod.fst).Nodup) (key : String) :
    (mergeUsageFields snapshot (.object nextFields)).get key =
      match given (Json.field nextFields key) with
      | some value => some (mergedValue
          (Json.field (dropStaleTotals (objectFields snapshot) nextFields) key) value)
      | none => Json.field (dropStaleTotals (objectFields snapshot) nextFields) key := by
  rw [mergeUsageFields]
  exact field_mergeEntries nextDistinct key

end

theorem given_eq_some {value : Option Json} {reported : Json} :
    given value = some reported ↔ value = some reported ∧ reported.isNull = false := by
  simp [given, Option.filter_eq_some_iff]

theorem field_objectFields (snapshot : Json) (key : String) :
    Json.field (objectFields snapshot) key = snapshot.get key := by
  cases snapshot <;> rfl

theorem objectFields_distinct {snapshot : Json} (distinct : snapshot.Distinct) :
    ((objectFields snapshot).map Prod.fst).Nodup := by
  cases snapshot with
  | object fields => exact distinct.keys
  | _ => exact List.nodup_nil

/-- What stands before the report's own values are taken over. -/
theorem field_dropStaleTotals {snapshot : Json} (distinct : snapshot.Distinct)
    {nextFields : List (String × Json)} {key : String} {value : Json}
    (found : Json.field (dropStaleTotals (objectFields snapshot) nextFields) key = some value) :
    snapshot.get key = some value := by
  obtain ⟨_, spec⟩ := @dropStaleTotals_spec _ nextFields (objectFields_distinct distinct)
  by_cases dropped : Dropped (objectFields snapshot) nextFields key
  · rw [(spec key).1 dropped] at found
    cases found
  · rw [(spec key).2 dropped, field_objectFields] at found
    exact found

theorem mergeUsageFields_distinct {next : Json} (nextDistinct : next.Distinct) :
    ∀ {snapshot : Json}, snapshot.Distinct → (mergeUsageFields snapshot next).Distinct := by
  induction nextDistinct with
  | @object nextFields keys values ih =>
      intro snapshot distinct
      obtain ⟨kept, _⟩ := @dropStaleTotals_spec _ nextFields (objectFields_distinct distinct)
      rw [mergeUsageFields]
      refine .of_field (mergeEntries_distinct kept) fun key value found => ?_
      rw [field_mergeEntries keys] at found
      split at found
      next reported isReported =>
        obtain ⟨isField, _⟩ := given_eq_some.mp isReported
        cases found
        cases reported with
        | object fields =>
            refine ih _ (Json.mem_of_field isField) ?_
            cases previous : Json.field (dropStaleTotals (objectFields snapshot) nextFields) key with
            | none => exact .empty
            | some previousValue =>
                have there := field_dropStaleTotals distinct previous
                cases snapshot with
                | object previousFields => exact distinct.field there
                | _ => cases there
        | _ => exact values _ (Json.mem_of_field isField)
      next =>
        have there := field_dropStaleTotals distinct found
        cases snapshot with
        | object previousFields => exact distinct.field there
        | _ => cases there
  | _ => exact fun distinct => by rwa [mergeUsageFields.eq_def]

theorem getD_empty_distinct {value : Option Json}
    (distinct : ∀ present, value = some present → present.Distinct) :
    (value.getD (.object [])).Distinct := by
  cases value with
  | none => exact .empty
  | some present => exact distinct present rfl

/-! ### Reporting twice -/

private theorem countsChanged_again {previousFields nextFields : List (String × Json)}
    (reported : ∀ key value, given (Json.field nextFields key) = some value →
      value.isObject = false → Json.field previousFields key = some value) :
    countsChanged previousFields nextFields = false := by
  refine List.any_eq_false.mpr fun key _ changed => ?_
  obtain ⟨value, found, differs⟩ := (Option.any_eq_true ..).mp changed
  obtain ⟨isCount, differs⟩ := Bool.and_eq_true_iff.mp differs
  have present : Json.field previousFields key = some value := by
    refine reported key value (given_eq_some.mpr ⟨found, ?_⟩) ?_ <;> cases value <;>
      first | rfl | cases isCount
  rw [present, Option.any_some, Json.equal_refl] at differs
  cases differs

/-- A report that is repeated changes nothing. -/
theorem mergeUsageFields_again {next : Json} (nextDistinct : next.Distinct) :
    ∀ {snapshot : Json}, snapshot.Distinct →
      mergeUsageFields (mergeUsageFields snapshot next) next = mergeUsageFields snapshot next := by
  induction nextDistinct with
  | @object nextFields keys values ih =>
      intro snapshot distinct
      have merged : (mergeUsageFields snapshot (.object nextFields)).Distinct :=
        mergeUsageFields_distinct (.object keys values) distinct
      have get := fun key => get_mergeUsageFields snapshot keys key
      rw [mergeUsageFields] at merged get ⊢
      generalize after : mergeEntries (dropStaleTotals (objectFields snapshot) nextFields) nextFields =
        fields at merged get ⊢
      replace get : ∀ key value, given (Json.field nextFields key) = some value →
          Json.field fields key = some (mergedValue
            (Json.field (dropStaleTotals (objectFields snapshot) nextFields) key) value) := by
        intro key value isGiven
        have found := get key
        rw [isGiven] at found
        exact found
      have unchanged : countsChanged fields nextFields = false :=
        countsChanged_again fun key value isGiven scalar => by
          rw [get key value isGiven, mergedValue_scalar _ scalar]
      have entries : ∀ entries : List (String × Json), (∀ entry ∈ entries, entry ∈ nextFields) →
          mergeEntries fields entries = fields := by
        intro entries
        induction entries with
        | nil => exact fun _ => by rw [mergeEntries]
        | cons entry entries rest =>
            intro within
            have member := within entry List.mem_cons_self
            have same : mergeEntry fields entry = fields := by
              rw [mergeEntry_eq]
              split
              next value isGiven =>
                have found := get entry.1 value ((Json.field_of_mem keys member).symm ▸ isGiven)
                rw [found]
                refine Json.insert_same merged.keys (found.trans (congrArg some ?_))
                cases value with
                | object inner =>
                    have isEntry : entry.2 = .object inner :=
                      Option.some.inj (given_eq_some.mp isGiven).1
                    refine (isEntry ▸ ih entry member (getD_empty_distinct ?_)).symm
                    intro present there
                    have there := field_dropStaleTotals distinct there
                    cases snapshot with
                    | object previousFields => exact distinct.field there
                    | _ => cases there
                | _ => rfl
              · rfl
            rw [mergeEntries, same]
            exact rest fun other isOther => within other (List.mem_cons_of_mem _ isOther)
      have untouched : dropStaleTotals fields nextFields = fields :=
        if_neg (by rw [unchanged]; decide)
      rw [mergeUsageFields, after]
      show Json.object (mergeEntries (dropStaleTotals fields nextFields) nextFields) = _
      rw [untouched, entries nextFields fun _ member => member]
  | _ => exact fun _ => by rw [mergeUsageFields.eq_def]

/-! ### Leaves -/

private theorem atPath_mergeUsageFields {next : Json} (nextDistinct : next.Distinct)
    (isObject : next.isObject = true) {snapshot : Json} (distinct : snapshot.Distinct)
    {path : List String} {value : Json} (scalar : value.isObject = false)
    (leaf : (mergeUsageFields snapshot next).atPath path = some value) :
    given (next.atPath path) = some value ∨
      given (next.atPath path) = none ∧ snapshot.atPath path = some value := by
  induction path generalizing next snapshot with
  | nil =>
      cases next with
      | object nextFields =>
          rw [mergeUsageFields, Json.atPath] at leaf
          cases leaf
          cases scalar
      | _ => cases isObject
  | cons key path ih =>
      cases next with
      | object nextFields =>
          rw [Json.atPath, get_mergeUsageFields snapshot nextDistinct.keys] at leaf
          rw [Json.atPath, Json.atPath]
          split at leaf
          next reported isGiven =>
            obtain ⟨isField, notNull⟩ := given_eq_some.mp isGiven
            have isField : (Json.object nextFields).get key = some reported := isField
            rw [Option.bind_some] at leaf
            rw [isField, Option.bind_some]
            cases inner : reported.isObject with
            | false =>
                rw [mergedValue_scalar _ inner] at leaf
                refine .inl (given_eq_some.mpr ⟨leaf, ?_⟩)
                cases path with
                | nil =>
                    cases leaf
                    exact notNull
                | cons next path =>
                    rw [Json.atPath_scalar inner] at leaf
                    cases leaf
            | true =>
                cases reported with
                | object fields =>
                    have below : ∀ present, Json.field (dropStaleTotals (objectFields snapshot)
                        nextFields) key = some present → snapshot.get key = some present :=
                      fun present there => field_dropStaleTotals distinct there
                    refine (ih (nextDistinct.field isField) inner
                      (getD_empty_distinct fun present there => ?_) leaf).imp_right ?_
                    · have there := below present there
                      cases snapshot with
                      | object previousFields => exact distinct.field there
                      | _ => cases there
                    · rintro ⟨silent, before⟩
                      refine ⟨silent, ?_⟩
                      cases previous : Json.field (dropStaleTotals (objectFields snapshot) nextFields)
                        key with
                      | none =>
                          rw [previous] at before
                          cases path with
                          | nil =>
                              cases before
                              cases scalar
                          | cons first path => cases before
                      | some present =>
                          rw [previous] at before
                          rw [below present previous]
                          exact before
                | _ => cases inner
          next missing =>
            obtain ⟨present, there, leaf⟩ := Option.bind_eq_some_iff.mp leaf
            refine .inr ⟨?_, ?_⟩
            · cases found : (Json.object nextFields).get key with
              | none => rfl
              | some reported =>
                  have isNull : reported = .null := by
                    have found : Json.field nextFields key = some reported := found
                    rw [found] at missing
                    cases reported <;> first | rfl | cases missing
                  subst isNull
                  cases path <;> rfl
            · rw [field_dropStaleTotals distinct there]
              exact leaf
      | _ => cases isObject

/-- A leaf of a report is a leaf of the snapshot after it. -/
private theorem atPath_mergeUsageFields_given {next : Json} (nextDistinct : next.Distinct)
    (isObject : next.isObject = true) (snapshot : Json) {path : List String} {value : Json}
    (scalar : value.isObject = false) (reported : given (next.atPath path) = some value) :
    (mergeUsageFields snapshot next).atPath path = some value := by
  obtain ⟨leaf, notNull⟩ := given_eq_some.mp reported
  induction path generalizing next snapshot with
  | nil =>
      cases leaf
      rw [isObject] at scalar
      cases scalar
  | cons key path ih =>
      cases next with
      | object nextFields =>
          obtain ⟨present, found, below⟩ := Option.bind_eq_some_iff.mp leaf
          rw [Json.atPath, get_mergeUsageFields snapshot nextDistinct.keys]
          have isGiven : given (Json.field nextFields key) = some present := by
            refine given_eq_some.mpr ⟨found, ?_⟩
            cases present with
            | null =>
                cases path with
                | nil =>
                    cases below
                    cases notNull
                | cons first path => cases below
            | _ => rfl
          rw [isGiven, Option.bind_some]
          cases inner : present.isObject with
          | false =>
              rw [mergedValue_scalar _ inner]
              exact below
          | true =>
              cases present with
              | object fields =>
                  exact ih (nextDistinct.field found) inner _
                    (given_eq_some.mpr ⟨below, notNull⟩) below
              | _ => cases inner
      | _ => cases isObject

/-- The report has no value on the path: none, or `null`, at its end or above. -/
def Silent (report : Json) : List String → Prop
  | [] => False
  | key :: path =>
    report.isObject = true ∧ ∀ value, given (report.get key) = some value → Silent value path

theorem atPath_mergeUsageFields_silent {next : Json} (nextDistinct : next.Distinct)
    {snapshot : Json} (distinct : snapshot.Distinct) {path : List String}
    (silent : Silent next path) (noTotal : ∀ key ∈ path, key ∉ totalFields) {value : Json}
    (leaf : snapshot.atPath path = some value) :
    (mergeUsageFields snapshot next).atPath path = some value := by
  induction path generalizing next snapshot with
  | nil => cases silent
  | cons key path ih =>
      obtain ⟨isObject, silent⟩ := silent
      cases next with
      | object nextFields =>
          have kept : Json.field (dropStaleTotals (objectFields snapshot) nextFields) key =
              snapshot.get key := by
            obtain ⟨_, spec⟩ := @dropStaleTotals_spec _ nextFields (objectFields_distinct distinct)
            rw [(spec key).2 fun dropped => noTotal key List.mem_cons_self dropped.2.1,
              field_objectFields]
          obtain ⟨present, found, below⟩ := Option.bind_eq_some_iff.mp leaf
          rw [Json.atPath, get_mergeUsageFields snapshot nextDistinct.keys, kept, found]
          split
          next reported isGiven =>
            have silent := silent reported isGiven
            obtain ⟨isField, _⟩ := given_eq_some.mp isGiven
            rw [Option.bind_some]
            cases path with
            | nil => cases silent
            | cons first path =>
                cases reported with
                | object fields =>
                    have presentDistinct : present.Distinct := by
                      cases snapshot with
                      | object previousFields => exact distinct.field found
                      | _ => cases found
                    exact ih (nextDistinct.field isField) presentDistinct silent
                      (fun key member => noTotal key (List.mem_cons_of_mem _ member)) below
                | _ => cases silent.1
          next => exact below
      | _ => cases isObject

/-! ### Runs -/

/-- The snapshot after all the reports. -/
def snapshotAfter (reports : List Json) : Option Json := reports.foldl mergeUsage none

/-- The last value that is reported at the path. -/
def lastReported (reports : List Json) (path : List String) : Option Json :=
  (reports.filterMap fun report => given (report.atPath path)).getLast?

theorem snapshotAfter_concat (reports : List Json) (report : Json) :
    snapshotAfter (reports ++ [report]) = mergeUsage (snapshotAfter reports) report := by
  rw [snapshotAfter, List.foldl_append]
  rfl

private theorem lastReported_concat (reports : List Json) (report : Json) (path : List String) :
    lastReported (reports ++ [report]) path =
      (given (report.atPath path)).or (lastReported reports path) := by
  rw [lastReported, List.filterMap_append]
  cases value : given (report.atPath path) with
  | none => simp [value, lastReported]
  | some value => simp [value]

theorem mergeUsage_object {report : Json} (isObject : report.isObject = true)
    (snapshot : Option Json) : mergeUsage snapshot report =
      some (mergeUsageFields (snapshot.getD (.object [])) report) := if_pos isObject

theorem mergeUsage_scalar {report : Json} (scalar : report.isObject = false)
    (snapshot : Option Json) : mergeUsage snapshot report = snapshot :=
  if_neg (by rw [scalar]; decide)

theorem snapshotAfter_distinct {reports : List Json} (distinct : ∀ report ∈ reports, report.Distinct)
    {snapshot : Json} (after : snapshotAfter reports = some snapshot) :
    snapshot.Distinct ∧ snapshot.isObject = true := by
  induction reports using List.reverseRecOn generalizing snapshot with
  | nil => cases after
  | append_singleton reports report ih =>
      have before : ∀ report ∈ reports, report.Distinct := fun report member =>
        distinct report (List.mem_append_left _ member)
      rw [snapshotAfter_concat] at after
      cases isObject : report.isObject with
      | false =>
          rw [mergeUsage_scalar isObject] at after
          exact ih before after
      | true =>
          rw [mergeUsage_object isObject] at after
          cases after
          refine ⟨mergeUsageFields_distinct (distinct report (by simp))
            (getD_empty_distinct fun present there => (ih before there).1), ?_⟩
          cases report with
          | object fields => rw [mergeUsageFields]; rfl
          | _ => cases isObject

/-- Every leaf of the snapshot is the last value reported there. -/
theorem lastReported_of_leaf {reports : List Json} (distinct : ∀ report ∈ reports, report.Distinct)
    {snapshot : Json} (after : snapshotAfter reports = some snapshot) {path : List String}
    {value : Json} (scalar : value.isObject = false) (leaf : snapshot.atPath path = some value) :
    lastReported reports path = some value := by
  induction reports using List.reverseRecOn generalizing snapshot with
  | nil => cases after
  | append_singleton reports report ih =>
      have before : ∀ report ∈ reports, report.Distinct := fun report member =>
        distinct report (List.mem_append_left _ member)
      rw [snapshotAfter_concat] at after
      rw [lastReported_concat]
      cases isObject : report.isObject with
      | false =>
          rw [mergeUsage_scalar isObject] at after
          have reported := ih before after leaf
          cases path with
          | nil =>
              cases leaf
              exact absurd (snapshotAfter_distinct before after).2 (by rw [scalar]; decide)
          | cons key path =>
              rw [Json.atPath_scalar isObject]
              exact reported
      | true =>
          rw [mergeUsage_object isObject] at after
          cases after
          have held : ((snapshotAfter reports).getD (.object [])).Distinct :=
            getD_empty_distinct fun present there => (snapshotAfter_distinct before there).1
          rcases atPath_mergeUsageFields (distinct report (by simp)) isObject held scalar leaf with
            reported | ⟨silent, earlier⟩
          · rw [reported, Option.some_or]
          · rw [silent, Option.none_or]
            cases previous : snapshotAfter reports with
            | none =>
                rw [previous] at earlier
                cases path with
                | nil =>
                    cases earlier
                    cases scalar
                | cons key path => cases earlier
            | some present =>
                rw [previous] at earlier
                exact ih before previous earlier

/-- A leaf that is reported stays in the snapshot while the later reports are silent about
it; a total stays at least as long as no report follows. -/
theorem leaf_of_reported {earlier later : List Json} {report : Json}
    (distinct : ∀ other ∈ earlier ++ report :: later, other.Distinct) {key : String}
    {path : List String} {value : Json} (scalar : value.isObject = false)
    (reported : given (report.atPath (key :: path)) = some value)
    (silent : ∀ other ∈ later, other.isObject = true → Silent other (key :: path))
    (kept : later = [] ∨ ∀ name ∈ key :: path, name ∉ totalFields) :
    (snapshotAfter (earlier ++ report :: later)).bind (·.atPath (key :: path)) = some value := by
  have isObject : report.isObject = true := by
    cases report with
    | object fields => rfl
    | _ => cases reported
  induction later using List.reverseRecOn with
  | nil =>
      rw [snapshotAfter_concat, mergeUsage_object isObject]
      exact atPath_mergeUsageFields_given (distinct report (by simp)) isObject _ scalar reported
  | append_singleton later last ih =>
      have noTotal := kept.resolve_left (by simp)
      rw [← List.cons_append, ← List.append_assoc] at distinct ⊢
      have before := ih (fun other member => distinct other (List.mem_append_left _ member))
        (fun other member => silent other (List.mem_append_left _ member)) (.inr noTotal)
      rw [snapshotAfter_concat]
      obtain ⟨snapshot, held, leaf⟩ := Option.bind_eq_some_iff.mp before
      rw [held]
      cases isMap : last.isObject with
      | false =>
          rw [mergeUsage_scalar isMap]
          exact leaf
      | true =>
          rw [mergeUsage_object isMap]
          exact atPath_mergeUsageFields_silent (distinct last (by simp))
            (snapshotAfter_distinct (fun other member => distinct other
              (List.mem_append_left _ member)) held).1 (silent last (by simp) isMap) noTotal leaf

end ZenithRelay.Protocol.Adapter.Stream
