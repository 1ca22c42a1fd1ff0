import ZenithRelay.Gateway.Response.Usage
import ZenithRelay.Protocol.Adapter.Stream.FrameProperties

/-!
# Whose counters a total belongs to

Usage reports are merged into a snapshot, and the snapshot is read into the event. A
total that is read was reported after the counters last changed, unless a report
changes a counter that the merge does not watch.
-/

set_option autoImplicit false

namespace ZenithRelay.Gateway.Response

open Protocol.Adapter.Stream

/-- The counters the input and the output are made of, the Gemini ones apart. -/
def tokenCounters : List String :=
  ["input_tokens", "total_input_tokens", "prompt_tokens", "cache_read_input_tokens",
    "cache_creation_input_tokens", "output_tokens", "total_output_tokens", "completion_tokens",
    "total_thought_tokens"]

def geminiCounters : List String :=
  ["promptTokenCount", "candidatesTokenCount", "thoughtsTokenCount"]

def count (usage : Json) (field : String) : Option Nat := (usage.get field).bind (·.asU64)

/-- Every input and output counter of the usage. -/
def counters (usage : Json) : List (Option Nat) :=
  tokenCounters.map (count usage) ++ geminiCounters.map (count (geminiUsageMetadata usage))

/-! ### What a report does to the counters -/

/-- The counter after the report. -/
def countAfter (previous report : Json) (field : String) : Option Nat :=
  ((given (report.get field)).or (previous.get field)).bind (·.asU64)

/-- The part of the snapshot that holds the Gemini counters after the report, and what
the report says about it. -/
def geminiParts (previous report : Json) : Json × Json :=
  match given (report.get "usageMetadata") with
  | some metadata =>
    if metadata.isObject = true then ((previous.get "usageMetadata").getD (.object []), metadata)
    else (.object [], .object [])
  | none =>
    match previous.get "usageMetadata" with
    | some metadata => (metadata, .object [])
    | none => (previous, report)

def ChangesCounter (previous report : Json) : Prop :=
  (∃ field ∈ tokenCounters, countAfter previous report field ≠ count previous field) ∨
    ∃ field ∈ geminiCounters,
      countAfter (geminiParts previous report).1 (geminiParts previous report).2 field ≠
        count (geminiUsageMetadata previous) field

/-! ### What a report does to the totals -/

/-- The merge sees a counter change beside the totals. -/
def seesChange (previous report : Json) : Bool :=
  countsChanged (objectFields previous) (objectFields report)

/-- The total under the field stays as it was. -/
def KeepsTotal (previous report : Json) (field : String) : Prop :=
  given (report.get field) = none ∧ (count previous field).isSome = true ∧
    seesChange previous report = false

/-- There is no `total_tokens` after the report, so the Gemini total is the one in use. -/
def NoTotalTokens (previous report : Json) : Prop :=
  given (report.get "total_tokens") = none ∧
    (previous.get "total_tokens" = none ∨ seesChange previous report = true)

/-- The total in use after the report is one from before it. -/
def UsesEarlierTotal (previous report : Json) : Prop :=
  KeepsTotal previous report "total_tokens" ∨
    NoTotalTokens previous report ∧ KeepsTotal (geminiParts previous report).1
      (geminiParts previous report).2 "totalTokenCount"

/-- A report that changes a counter, or makes another total the one in use, leaves no
earlier total in use. -/
def KeepsCurrent (previous report : Json) : Prop :=
  ChangesCounter previous report ∨
      seesChange previous report = true ∧ previous.get "total_tokens" ≠ none →
    ¬UsesEarlierTotal previous report

/-- Every report is so for the snapshot before it. -/
def AllKeepCurrent (reports : List Json) : Prop :=
  ∀ earlier report later, reports = earlier ++ report :: later →
    KeepsCurrent ((snapshotAfter earlier).getD (.object [])) report

/-! ### Totals of a run -/

def ReportsTotal (report : Json) (total : Nat) : Prop :=
  count report "total_tokens" = some total ∨ count report "totalTokenCount" = some total ∨
    ((report.get "usageMetadata").bind (count · "totalTokenCount")) = some total

def countersAfter (reports : List Json) : List (Option Nat) :=
  counters ((snapshotAfter reports).getD (.object []))

/-- The total was reported with the last change of any counter, or after it. -/
def CurrentTotal (reports : List Json) (total : Nat) : Prop :=
  ∃ earlier report later, reports = earlier ++ report :: later ∧ ReportsTotal report total ∧
    ∀ soon, soon <+: later →
      countersAfter (earlier ++ report :: soon) = countersAfter (earlier ++ [report])

/-! ### One report -/

section

variable {previous report : Json}

theorem isObject_eq {value : Json} (isObject : value.isObject = true) :
    ∃ fields, value = .object fields := by
  cases value with
  | object fields => exact ⟨fields, rfl⟩
  | _ => cases isObject

theorem asU64_mergedValue (held : Option Json) (value : Json) :
    (mergedValue held value).asU64 = value.asU64 := by
  cases value with
  | object fields => rw [mergedValue, mergeUsageFields]; rfl
  | _ => rfl

private theorem count_of_given {field : String} {value : Json}
    (isGiven : given (report.get field) = some value) : count report field = value.asU64 := by
  rw [count, (given_eq_some.mp isGiven).1]
  rfl

theorem get_merge (reportDistinct : report.Distinct) (isObject : report.isObject = true)
    (field : String) :
    (mergeUsageFields previous report).get field =
      match given (report.get field) with
      | some value => some (mergedValue
          (Json.field (dropStaleTotals (objectFields previous) (objectFields report)) field) value)
      | none => Json.field (dropStaleTotals (objectFields previous) (objectFields report)) field := by
  obtain ⟨fields, rfl⟩ := isObject_eq isObject
  exact get_mergeUsageFields previous reportDistinct.keys field

theorem count_merge (reportDistinct : report.Distinct) (isObject : report.isObject = true)
    (distinct : previous.Distinct) {field : String} (noTotal : field ∉ totalFields) :
    count (mergeUsageFields previous report) field = countAfter previous report field := by
  rw [count, countAfter, get_merge reportDistinct isObject]
  cases given (report.get field) with
  | some value => exact asU64_mergedValue _ value
  | none =>
      obtain ⟨_, spec⟩ := @dropStaleTotals_spec _ (objectFields report)
        (objectFields_distinct distinct)
      rw [Option.none_or, ← field_objectFields previous,
        ← (spec field).2 fun dropped => noTotal dropped.2.1]

/-- A total after the report is the report's own, or stays. -/
theorem total_merge (reportDistinct : report.Distinct) (isObject : report.isObject = true)
    (distinct : previous.Distinct) {field : String} (isTotal : field ∈ totalFields) {total : Nat}
    (read : count (mergeUsageFields previous report) field = some total) :
    count report field = some total ∨
      KeepsTotal previous report field ∧ count previous field = some total := by
  rw [count, get_merge reportDistinct isObject] at read
  cases isGiven : given (report.get field) with
  | some value =>
      rw [isGiven] at read
      exact .inl ((count_of_given isGiven).trans ((asU64_mergedValue _ value).symm.trans read))
  | none =>
      rw [isGiven] at read
      obtain ⟨_, spec⟩ := @dropStaleTotals_spec _ (objectFields report)
        (objectFields_distinct distinct)
      have unseen : seesChange previous report = false := by
        refine Bool.eq_false_iff.mpr fun changed => ?_
        have absent : (Json.field (objectFields report) field).bind (·.asU64) = none := by
          rw [field_objectFields]
          cases found : report.get field with
          | none => rfl
          | some value =>
              rw [found] at isGiven
              cases value <;> first | rfl | cases isGiven
        rw [(spec field).1 ⟨changed, isTotal, absent⟩] at read
        cases read
      rw [(spec field).2 fun dropped => Bool.eq_false_iff.mp unseen dropped.1,
        field_objectFields] at read
      exact .inr ⟨⟨isGiven, Option.isSome_of_eq_some read, unseen⟩, read⟩

private theorem noTotalTokens_merge (reportDistinct : report.Distinct)
    (isObject : report.isObject = true) (distinct : previous.Distinct)
    (absent : (mergeUsageFields previous report).get "total_tokens" = none) :
    NoTotalTokens previous report := by
  rw [get_merge reportDistinct isObject] at absent
  cases isGiven : given (report.get "total_tokens") with
  | some value =>
      rw [isGiven] at absent
      cases absent
  | none =>
      rw [isGiven] at absent
      refine ⟨isGiven, ?_⟩
      obtain ⟨_, spec⟩ := @dropStaleTotals_spec _ (objectFields report)
        (objectFields_distinct distinct)
      cases changed : seesChange previous report with
      | true => exact .inr rfl
      | false =>
          refine .inl ?_
          rw [← field_objectFields, ← (spec "total_tokens").2 fun dropped =>
            Bool.eq_false_iff.mp changed dropped.1]
          exact absent

private theorem seesChange_nothing (previous : Json) : seesChange previous (.object []) = false := by
  refine List.any_eq_false.mpr fun field _ changed => ?_
  cases changed

theorem get_merge_nothing (previous : Json) (field : String) :
    (mergeUsageFields previous (.object [])).get field = previous.get field := by
  have unseen : countsChanged (objectFields previous) [] = false := seesChange_nothing previous
  rw [mergeUsageFields, mergeEntries, dropStaleTotals, unseen]
  exact field_objectFields previous field

private theorem geminiUsageMetadata_merge (reportDistinct : report.Distinct)
    (isObject : report.isObject = true) (distinct : previous.Distinct) (field : String) :
    (geminiUsageMetadata (mergeUsageFields previous report)).get field =
      (mergeUsageFields (geminiParts previous report).1 (geminiParts previous report).2).get
        field := by
  have held : Json.field (dropStaleTotals (objectFields previous) (objectFields report))
      "usageMetadata" = previous.get "usageMetadata" := by
    obtain ⟨_, spec⟩ := @dropStaleTotals_spec _ (objectFields report)
      (objectFields_distinct distinct)
    rw [(spec _).2 fun dropped => absurd dropped.2.1 (by decide), field_objectFields]
  unfold geminiUsageMetadata geminiParts
  rw [get_merge reportDistinct isObject, held]
  cases given (report.get "usageMetadata") with
  | some metadata =>
      cases inner : metadata.isObject with
      | true =>
          obtain ⟨fields, rfl⟩ := isObject_eq inner
          rfl
      | false =>
          simp only [inner, Bool.false_eq_true, if_false, Option.getD_some]
          rw [get_merge_nothing, mergedValue_scalar _ inner]
          cases metadata with
          | object fields => cases inner
          | _ => rfl
  | none =>
      cases previous.get "usageMetadata" with
      | some metadata => exact (get_merge_nothing metadata field).symm
      | none => rfl

theorem geminiParts_distinct (reportDistinct : report.Distinct)
    (isObject : report.isObject = true) (distinct : previous.Distinct) :
    (geminiParts previous report).1.Distinct ∧ (geminiParts previous report).2.Distinct ∧
      (geminiParts previous report).2.isObject = true := by
  have inner : ∀ {usage : Json}, usage.Distinct → ∀ metadata,
      usage.get "usageMetadata" = some metadata → metadata.Distinct := by
    intro usage distinct metadata found
    cases usage with
    | object fields => exact distinct.field found
    | _ => cases found
  unfold geminiParts
  split
  next metadata isGiven =>
    split
    next isMap =>
      exact ⟨getD_empty_distinct fun present there => inner distinct present there,
        inner reportDistinct metadata (given_eq_some.mp isGiven).1, isMap⟩
    · exact ⟨.empty, .empty, rfl⟩
  next =>
    split
    next metadata found => exact ⟨inner distinct metadata found, .empty, rfl⟩
    · exact ⟨distinct, reportDistinct, isObject⟩

theorem count_gemini_merge (reportDistinct : report.Distinct)
    (isObject : report.isObject = true) (distinct : previous.Distinct) (field : String) :
    count (geminiUsageMetadata (mergeUsageFields previous report)) field =
      count (mergeUsageFields (geminiParts previous report).1 (geminiParts previous report).2)
        field := by
  rw [count, geminiUsageMetadata_merge reportDistinct isObject distinct]
  rfl

/-- The counters are those of before if the report changes none. -/
theorem counters_merge (reportDistinct : report.Distinct) (isObject : report.isObject = true)
    (distinct : previous.Distinct) (unchanged : ¬ChangesCounter previous report) :
    counters (mergeUsageFields previous report) = counters previous := by
  obtain ⟨noToken, noGemini⟩ := not_or.mp unchanged
  refine congrArg₂ (· ++ ·) (List.map_congr_left fun field member => ?_)
    (List.map_congr_left fun field member => ?_)
  · have noTotal : field ∉ totalFields := by
      revert field
      decide
    rw [count_merge reportDistinct isObject distinct noTotal]
    by_contra changed
    exact noToken ⟨field, member, changed⟩
  · have noTotal : field ∉ totalFields := by
      revert field
      decide
    obtain ⟨first, second, isMap⟩ := geminiParts_distinct reportDistinct isObject distinct
    rw [count_gemini_merge reportDistinct isObject distinct, count_merge second isMap first noTotal]
    by_contra changed
    exact noGemini ⟨field, member, changed⟩

/-- What the report says of the Gemini counters, it says of its own totals. -/
private theorem reportsTotal_geminiParts {total : Nat}
    (reported : count (geminiParts previous report).2 "totalTokenCount" = some total) :
    ReportsTotal report total := by
  unfold geminiParts at reported
  split at reported
  next metadata isGiven =>
    split at reported
    · refine .inr (.inr ?_)
      rw [(given_eq_some.mp isGiven).1]
      exact reported
    · cases reported
  next =>
    split at reported
    · cases reported
    · exact .inr (.inl reported)

/-- A Gemini total that stays was already where it is read. -/
private theorem count_geminiParts {field : String}
    (held : (count (geminiParts previous report).1 field).isSome = true) :
    (geminiParts previous report).1 = geminiUsageMetadata previous := by
  unfold geminiParts geminiUsageMetadata at *
  cases isGiven : given (report.get "usageMetadata") with
  | some metadata =>
      rw [isGiven] at held
      cases inner : metadata.isObject with
      | false =>
          simp only [inner, Bool.false_eq_true, if_false] at held
          cases held
      | true =>
          cases found : previous.get "usageMetadata" with
          | none =>
              simp only [inner, found, if_true, Option.getD_none] at held
              cases held
          | some present => simp [inner]
  | none =>
      cases found : previous.get "usageMetadata" with
      | none => rfl
      | some present => rfl

theorem reportedTotal_eq (usage : Json) : reportedTotal usage =
    match usage.get "total_tokens" with
    | some _ => count usage "total_tokens"
    | none => count (geminiUsageMetadata usage) "totalTokenCount" := by
  unfold reportedTotal count
  cases usage.get "total_tokens" <;> rfl

/-- A total in use after the report is the report's own or, while the counters are as
they were, the one in use before. -/
private theorem reportedTotal_merge (reportDistinct : report.Distinct)
    (isObject : report.isObject = true) (distinct : previous.Distinct)
    (keeps : KeepsCurrent previous report) {total : Nat}
    (read : reportedTotal (mergeUsageFields previous report) = some total) :
    ReportsTotal report total ∨
      reportedTotal previous = some total ∧
        counters (mergeUsageFields previous report) = counters previous := by
  have unchanged : UsesEarlierTotal previous report → ¬ChangesCounter previous report ∧
      ¬(seesChange previous report = true ∧ previous.get "total_tokens" ≠ none) := fun earlier =>
    not_or.mp fun changes => keeps changes earlier
  rw [reportedTotal_eq] at read
  split at read
  · rcases total_merge reportDistinct isObject distinct (by decide) read with own | ⟨kept, before⟩
    · exact .inl (.inl own)
    · refine .inr ⟨?_, counters_merge reportDistinct isObject distinct (unchanged (.inl kept)).1⟩
      have present : ∃ value, previous.get "total_tokens" = some value := by
        obtain ⟨value, found, _⟩ := Option.bind_eq_some_iff.mp before
        exact ⟨value, found⟩
      obtain ⟨value, found⟩ := present
      rw [reportedTotal_eq, found]
      exact before
  next absent =>
    obtain ⟨first, second, isMap⟩ := geminiParts_distinct reportDistinct isObject distinct
    rw [count_gemini_merge reportDistinct isObject distinct] at read
    rcases total_merge second isMap first (by decide) read with own | ⟨kept, before⟩
    · exact .inl (reportsTotal_geminiParts own)
    · have gone := noTotalTokens_merge reportDistinct isObject distinct absent
      obtain ⟨noChange, notUncovered⟩ := unchanged (.inr ⟨gone, kept⟩)
      refine .inr ⟨?_, counters_merge reportDistinct isObject distinct noChange⟩
      have noTotal : previous.get "total_tokens" = none := by
        rcases gone.2 with none | seen
        · exact none
        · by_contra present
          exact notUncovered ⟨seen, present⟩
      rw [count_geminiParts kept.2.1] at before
      rw [reportedTotal_eq, noTotal]
      exact before

end

instance (previous report : Json) : Decidable (ChangesCounter previous report) :=
  inferInstanceAs (Decidable (_ ∨ _))

instance (previous report : Json) : Decidable (UsesEarlierTotal previous report) :=
  inferInstanceAs (Decidable (_ ∧ _ ∧ _ ∨ (_ ∧ (_ ∨ _)) ∧ _ ∧ _ ∧ _))

instance (previous report : Json) : Decidable (KeepsCurrent previous report) :=
  inferInstanceAs (Decidable (_ ∨ _ ∧ _ → ¬_))

/-! ### Runs of reports -/

section

variable {reports : List Json}

theorem CurrentTotal.concat {total : Nat} (current : CurrentTotal reports total) {report : Json}
    (same : countersAfter (reports ++ [report]) = countersAfter reports) :
    CurrentTotal (reports ++ [report]) total := by
  obtain ⟨earlier, reporting, later, rfl, reported, steady⟩ := current
  refine ⟨earlier, reporting, later ++ [report], by simp, reported, fun soon isPrefix => ?_⟩
  rcases List.prefix_concat_iff.mp isPrefix with rfl | within
  · rw [← steady later (List.prefix_refl later), ← same, List.append_assoc, List.cons_append]
  · exact steady soon within

theorem AllKeepCurrent.init {report : Json} (keeps : AllKeepCurrent (reports ++ [report])) :
    AllKeepCurrent reports := fun earlier reporting later split =>
  keeps earlier reporting (later ++ [report]) (by rw [split]; simp)

theorem AllKeepCurrent.concat {report : Json} (keeps : AllKeepCurrent reports)
    (last : KeepsCurrent ((snapshotAfter reports).getD (.object [])) report) :
    AllKeepCurrent (reports ++ [report]) := by
  intro earlier reporting later split
  rcases List.eq_nil_or_concat later with rfl | ⟨later, final, rfl⟩
  · obtain ⟨rfl, same⟩ := List.append_inj' split rfl
    cases same
    exact last
  · rw [List.concat_eq_append, ← List.cons_append, ← List.append_assoc] at split
    exact keeps earlier reporting later (List.append_inj' split rfl).1

/-- The total that the snapshot holds in use is current, in every such run. -/
private theorem reportedTotal_current (distinct : ∀ report ∈ reports, report.Distinct)
    (keeps : AllKeepCurrent reports) {snapshot : Json} (after : snapshotAfter reports = some snapshot)
    {total : Nat} (read : reportedTotal snapshot = some total) : CurrentTotal reports total := by
  induction reports using List.reverseRecOn generalizing snapshot with
  | nil => cases after
  | append_singleton reports report ih =>
      have before : ∀ report ∈ reports, report.Distinct := fun report member =>
        distinct report (List.mem_append_left _ member)
      have stepped := snapshotAfter_concat reports report
      rw [after] at stepped
      cases isObject : report.isObject with
      | false =>
          rw [mergeUsage_scalar isObject] at stepped
          refine (ih before keeps.init stepped.symm read).concat ?_
          rw [countersAfter, countersAfter, after, ← stepped]
      | true =>
          rw [mergeUsage_object isObject] at stepped
          cases stepped
          have held : ((snapshotAfter reports).getD (.object [])).Distinct :=
            getD_empty_distinct fun present there => (snapshotAfter_distinct before there).1
          rcases reportedTotal_merge (distinct report (by simp)) isObject held
            (keeps reports report [] rfl) read with own | ⟨earlier, unchanged⟩
          · refine ⟨reports, report, [], rfl, own, fun soon isPrefix => ?_⟩
            rw [List.prefix_nil.mp isPrefix]
          · have current : CurrentTotal reports total := by
              cases previous : snapshotAfter reports with
              | none =>
                  rw [previous] at earlier
                  cases earlier
              | some present =>
                  rw [previous] at earlier
                  exact ih before keeps.init previous earlier
            refine current.concat ?_
            rw [countersAfter, countersAfter, after]
            exact unchanged

private theorem mergeUsage_again (distinct : ∀ report ∈ reports, report.Distinct) {snapshot report : Json}
    (after : snapshotAfter (reports ++ [report]) = some snapshot) (isMap : report.Distinct) :
    mergeUsage (some snapshot) report = some snapshot := by
  rw [snapshotAfter_concat] at after
  cases isObject : report.isObject with
  | false => exact mergeUsage_scalar isObject _
  | true =>
      rw [mergeUsage_object isObject] at after
      have held : ((snapshotAfter reports).getD (.object [])).Distinct :=
        getD_empty_distinct fun present there => (snapshotAfter_distinct distinct there).1
      rw [← after, mergeUsage_object isObject, Option.getD_some, mergeUsageFields_again isMap held]

private theorem applyUsage_again (event : UsageEvent) (usage : Json) :
    applyUsage (applyUsage event usage) usage = applyUsage event usage := by
  have again : ∀ first second : Option Nat, first.or (first.or second) = first.or second := by
    intro first second
    cases first <;> rfl
  have chosen : ∀ (condition : Prop) [Decidable condition] (first second : Option Nat),
      (if condition then first else if condition then first else second) =
        if condition then first else second := by
    intro condition _ first second
    split <;> rfl
  rcases counts : generatedTokenCounts usage with ⟨outputTokens, reasoningTokens⟩
  simp only [applyUsage, counts, again, chosen]

/-- While no report leaves an earlier total in use: a leaf of the snapshot is the last value
reported there, a value that is reported is in the snapshot until a report overwrites it,
silent reports erase nothing, a repeated report changes nothing, and the total of the event
is current or the sum of its counters. -/
theorem usage_current (distinct : ∀ report ∈ reports, report.Distinct)
    (keeps : AllKeepCurrent reports) {snapshot : Json}
    (after : snapshotAfter reports = some snapshot) :
    (∀ path value, value.isObject = false → snapshot.atPath path = some value →
      lastReported reports path = some value) ∧
    (∀ earlier report later key path value, reports = earlier ++ report :: later →
      given (report.atPath (key :: path)) = some value → value.isObject = false →
      (∀ other ∈ later, other.isObject = true → Silent other (key :: path)) →
      (later = [] ∨ ∀ name ∈ key :: path, name ∉ totalFields) →
        snapshot.atPath (key :: path) = some value) ∧
    (∀ path value report, report.Distinct → Silent report path →
      (∀ key ∈ path, key ∉ totalFields) → snapshot.atPath path = some value →
        (mergeUsage (some snapshot) report).bind (·.atPath path) = some value) ∧
    (∀ report ∈ reports.getLast?, mergeUsage (some snapshot) report = some snapshot) ∧
    ∀ event, applyUsage (applyUsage event snapshot) snapshot = applyUsage event snapshot ∧
      ((∃ total, (applyUsage event snapshot).totalTokens = some total ∧
          CurrentTotal reports total) ∨
        (applyUsage event snapshot).totalTokens =
          (applyUsage event snapshot).inputTokens.bind fun input =>
            (applyUsage event snapshot).outputTokens.bind fun output =>
              Protocol.Adapter.Translation.checkedAdd input output) := by
  have held := snapshotAfter_distinct distinct after
  refine ⟨fun path value scalar leaf => lastReported_of_leaf distinct after scalar leaf,
    ?_, ?_, ?_, ?_⟩
  · rintro earlier report later key path value rfl reported scalar silent kept
    have stored := leaf_of_reported distinct scalar reported silent kept
    rwa [after] at stored
  · intro path value report isMap silent noTotal leaf
    have isObject : report.isObject = true := by
      cases path with
      | nil => cases silent
      | cons key path => exact silent.1
    rw [mergeUsage_object isObject]
    exact atPath_mergeUsageFields_silent isMap held.1 silent noTotal leaf
  · intro report isLast
    obtain ⟨earlier, rfl⟩ := List.getLast?_eq_some_iff.mp isLast
    exact mergeUsage_again (fun report member => distinct report (List.mem_append_left _ member))
      after (distinct report (by simp))
  · intro event
    refine ⟨applyUsage_again event snapshot, ?_⟩
    cases read : reportedTotal snapshot with
    | some total =>
        refine .inl ⟨total, ?_, reportedTotal_current distinct keeps after read⟩
        simp [applyUsage, read]
    | none =>
        refine .inr ?_
        simp [applyUsage, read]

end

/-- Two reports of one generation; the later one has new output and no total. -/
def watchedReports : List Json :=
  [.object [("input_tokens", .number "7"), ("output_tokens", .number "2"),
      ("total_tokens", .number "9")],
    .object [("output_tokens", .number "5")]]

/-- The same two reports in the spelling of the interactions API. -/
def interactionReports : List Json :=
  [.object [("total_input_tokens", .number "7"), ("total_output_tokens", .number "2"),
      ("total_tokens", .number "9")],
    .object [("total_output_tokens", .number "5")]]

def noUsage : UsageEvent := ⟨none, none, none, none, none, none⟩

theorem usage_current_watched :
    ∃ snapshot, snapshotAfter watchedReports = some snapshot ∧
      (applyUsage noUsage snapshot).totalTokens = some 12 ∧
      (applyUsage (applyUsage noUsage snapshot) snapshot = applyUsage noUsage snapshot) := by
  have distinct : ∀ report ∈ watchedReports, report.Distinct := by
    refine List.forall_mem_cons.mpr ⟨?_, List.forall_mem_cons.mpr ⟨?_, nofun⟩⟩
    · exact .object (by decide) (by simp [Json.Distinct.number])
    · exact .object (by decide) (by simp [Json.Distinct.number])
  have keeps : AllKeepCurrent watchedReports := by
    have first : AllKeepCurrent [] := fun earlier report later split => by simp at split
    have second : AllKeepCurrent (watchedReports.take 1) := first.concat (by decide +kernel)
    exact second.concat (by decide +kernel)
  exact ⟨_, rfl, by decide +kernel, ((usage_current distinct keeps rfl).2.2.2.2 noUsage).1⟩

/-- The snapshot keeps the total of the counters before: the merge does not watch the
counters of this spelling. -/
theorem interactionReports_staleTotal :
    ∃ snapshot, snapshotAfter interactionReports = some snapshot ∧
      ¬((∃ total, (applyUsage noUsage snapshot).totalTokens = some total ∧
          CurrentTotal interactionReports total) ∨
        (applyUsage noUsage snapshot).totalTokens =
          (applyUsage noUsage snapshot).inputTokens.bind fun input =>
            (applyUsage noUsage snapshot).outputTokens.bind fun output =>
              Protocol.Adapter.Translation.checkedAdd input output) := by
  refine ⟨_, rfl, ?_⟩
  rintro (⟨total, _, earlier, report, later, split, reported, steady⟩ | derived)
  · rcases earlier with _ | ⟨first, _ | ⟨second, earlier⟩⟩
    · cases split
      exact absurd (steady _ (List.prefix_refl _)) (by decide +kernel)
    · cases split
      revert reported
      simp [ReportsTotal, count, Json.get]
    · simp [interactionReports] at split
  · revert derived
    decide +kernel

end ZenithRelay.Gateway.Response
