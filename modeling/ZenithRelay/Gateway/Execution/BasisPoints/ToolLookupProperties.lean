import ZenithRelay.Gateway.Execution.BasisPoints.ToolLookup

/-!
# A lookup gives the named tools, or the best matches

Names give the first tool with each of them in the order of their first mention. A query
gives the start of the list of all matching tools, sorted by score and key.
-/

set_option autoImplicit false

namespace ZenithRelay.Gateway.Execution.BasisPoints

open BoundedInsertion

theorem stripStart_eq_some {text start rest : String} :
    stripStart text start = some rest ↔ text = start ++ rest := by
  unfold stripStart Text.startsWith
  constructor
  · intro stripped
    split at stripped
    next starts =>
      cases stripped
      obtain ⟨tail, same⟩ := List.isPrefixOf_iff_prefix.mp starts
      rw [← String.toList_inj, String.toList_append, String.toList_ofList, ← same,
        List.drop_left]
    next => cases stripped
  · rintro rfl
    rw [String.toList_append, if_pos (by simp), List.drop_left, String.ofList_toList]

theorem matchesKey_iff {tool : ClientTool} {key : String} :
    tool.matchesKey key = true ↔ tool.key = key := by
  unfold ClientTool.matchesKey ClientTool.key
  cases tool.toolNamespace with
  | none => rw [beq_iff_eq, eq_comm]
  | some toolNamespace =>
      dsimp only
      rw [beq_iff_eq, Option.bind_eq_some_iff]
      constructor
      · rintro ⟨suffix, front, dot⟩
        rw [stripStart_eq_some.mp front, stripStart_eq_some.mp dot, String.append_assoc]
      · rintro rfl
        refine ⟨"." ++ tool.name, stripStart_eq_some.mpr ?_, stripStart_eq_some.mpr rfl⟩
        rw [String.append_assoc]

theorem asStr_eq_some {value : Json} {text : String} :
    value.asStr = some text ↔ value = .string text := by
  cases value <;> simp [Json.asStr]

private theorem asArray_eq_some {value : Json} {items : List Json} :
    value.asArray = some items ↔ value = .array items := by
  cases value <;> simp [Json.asArray]

/-! ### Names -/

/-- The tool that a name resolves to. -/
def resolve (tools : List ClientTool) (name : String) : Option ClientTool :=
  tools.find? (·.key == name)

private theorem find_matchesKey (tools : List ClientTool) (name : String) :
    tools.find? (·.matchesKey name) = resolve tools name := by
  have same : (fun tool : ClientTool => tool.matchesKey name) = fun tool => tool.key == name := by
    funext tool
    rw [Bool.eq_iff_iff, matchesKey_iff, beq_iff_eq]
  rw [same, resolve]

theorem resolve_key {tools : List ClientTool} {name : String} {tool : ClientTool}
    (resolved : resolve tools name = some tool) : tool.key = name :=
  beq_iff_eq.mp (List.find?_some (p := fun tool : ClientTool => tool.key == name) resolved)

theorem resolve_isSome {tools : List ClientTool} {name : String} :
    (∃ tool, resolve tools name = some tool) ↔ ∃ tool ∈ tools, tool.key = name := by
  rw [← Option.isSome_iff_exists, resolve, List.find?_isSome]
  simp only [beq_iff_eq]

/-- The tools of the names, each at its first mention. -/
def mentioned (tools : List ClientTool) (names : List String) : List ClientTool :=
  names.eraseDups.filterMap (resolve tools)

private theorem eraseDups_concat (names : List String) (name : String) :
    (names ++ [name]).eraseDups =
      if name ∈ names then names.eraseDups else names.eraseDups ++ [name] := by
  rw [List.eraseDups_append]
  split
  next known => simp [List.removeAll, known]
  next new => simp [List.removeAll, new, List.eraseDups_cons]

theorem mentioned_keys {tools : List ClientTool} {names : List String}
    (resolves : ∀ name ∈ names, ∃ tool, resolve tools name = some tool) :
    (mentioned tools names).map ClientTool.key = names.eraseDups := by
  have all : ∀ name ∈ names.eraseDups, ∃ tool, resolve tools name = some tool :=
    fun name member => resolves name (List.mem_eraseDups.mp member)
  unfold mentioned
  generalize names.eraseDups = distinct at all
  induction distinct with
  | nil => rfl
  | cons name distinct ih =>
      obtain ⟨tool, resolved⟩ := all name (List.mem_cons_self ..)
      rw [List.filterMap_cons_some resolved, List.map_cons, resolve_key resolved,
        ih fun other member => all other (List.mem_cons_of_mem _ member)]

private theorem any_mentioned {tools : List ClientTool} {names : List String}
    (resolves : ∀ name ∈ names, ∃ tool, resolve tools name = some tool) (name : String) :
    (mentioned tools names).any (·.matchesKey name) = true ↔ name ∈ names := by
  rw [← List.mem_eraseDups, ← mentioned_keys resolves, List.mem_map, List.any_eq_true]
  simp only [matchesKey_iff]

private theorem mentioned_concat {tools : List ClientTool} {names : List String}
    (resolves : ∀ name ∈ names, ∃ tool, resolve tools name = some tool)
    {name : String} {tool : ClientTool} (resolved : resolve tools name = some tool) :
    mentioned tools (names ++ [name]) =
      if (mentioned tools names).any (·.matchesKey name) = true then mentioned tools names
      else mentioned tools names ++ [tool] := by
  rw [if_congr (any_mentioned resolves name) rfl rfl]
  unfold mentioned
  rw [eraseDups_concat]
  split
  next => rfl
  next => rw [List.filterMap_append, List.filterMap_cons_some resolved, List.filterMap_nil]

theorem lookupNames_iff {tools : List ClientTool} {values : List Json} {seen : List String}
    (resolves : ∀ name ∈ seen, ∃ tool, resolve tools name = some tool)
    {selected : List ClientTool} :
    lookupNames tools values (mentioned tools seen) = .ok selected ↔
      ∃ names : List String, values = names.map .string ∧
        (∀ name ∈ names, ∃ tool, resolve tools name = some tool) ∧
        selected = mentioned tools (seen ++ names) := by
  induction values generalizing seen with
  | nil =>
      rw [lookupNames]
      constructor
      · rintro ⟨⟩
        exact ⟨[], rfl, by simp, by rw [List.append_nil]⟩
      · rintro ⟨names, same, _, rfl⟩
        rw [List.map_eq_nil_iff.mp same.symm, List.append_nil]
  | cons value values ih =>
      cases text : value.asStr with
      | none =>
          rw [lookupNames, text]
          refine iff_of_false (by rintro ⟨⟩) ?_
          rintro ⟨names, same, _⟩
          cases names with
          | nil => cases same
          | cons name names =>
              cases (List.cons.inj same).1
              cases text
      | some name =>
          obtain rfl := asStr_eq_some.mp text
          rw [lookupNames, text]
          dsimp only
          rw [find_matchesKey]
          cases resolved : resolve tools name with
          | none =>
              refine iff_of_false (by rintro ⟨⟩) ?_
              rintro ⟨names, same, all, _⟩
              cases names with
              | nil => cases same
              | cons other names =>
                  cases same
                  obtain ⟨tool, found⟩ := all name (List.mem_cons_self ..)
                  cases resolved.symm.trans found
          | some tool =>
              dsimp only
              have more : ∀ other ∈ seen ++ [name], ∃ tool, resolve tools other = some tool := by
                intro other member
                rcases List.mem_append.mp member with old | new
                · exact resolves other old
                · rw [List.mem_singleton.mp new]
                  exact ⟨tool, resolved⟩
              rw [← mentioned_concat resolves resolved, ih more]
              constructor
              · rintro ⟨names, rfl, all, rfl⟩
                refine ⟨name :: names, rfl, List.forall_mem_cons.mpr ⟨⟨tool, resolved⟩, all⟩, ?_⟩
                rw [List.append_assoc, List.singleton_append]
              · rintro ⟨names, same, all, rfl⟩
                cases names with
                | nil => cases same
                | cons other names =>
                    cases same
                    refine ⟨names, rfl, (List.forall_mem_cons.mp all).2, ?_⟩
                    rw [List.append_assoc, List.singleton_append]

theorem eq_mentioned_iff {tools selected : List ClientTool} {names : List String}
    (resolves : ∀ name ∈ names, ∃ tool, resolve tools name = some tool) :
    selected = mentioned tools names ↔ selected.map ClientTool.key = names.eraseDups ∧
      ∀ tool ∈ selected, resolve tools tool.key = some tool := by
  constructor
  · rintro rfl
    refine ⟨mentioned_keys resolves, fun tool member => ?_⟩
    obtain ⟨name, _, resolved⟩ := List.mem_filterMap.mp member
    rw [resolve_key resolved, resolved]
  · rintro ⟨keys, own⟩
    rw [mentioned, ← keys]
    clear keys
    induction selected with
    | nil => rfl
    | cons tool selected ih =>
        rw [List.map_cons, List.filterMap_cons_some (own tool (List.mem_cons_self ..)),
          ← ih fun other member => own other (List.mem_cons_of_mem _ member)]

/-- The list stands alone, is not empty, is not too long and each of its entries is the key
of a tool. It gives one tool for each name, the first with that key, in the order of the
first mentions. -/
def NamesTools (tools : List ClientTool) (fields : List (String × Json)) (value : Json)
    (selected : List ClientTool) : Prop :=
  fields.length = 1 ∧ ∃ names : List String, value = .array (names.map .string) ∧
    names ≠ [] ∧ names.length ≤ maxLookupTools ∧
    (∀ name ∈ names, ∃ tool ∈ tools, tool.key = name) ∧
    selected.map ClientTool.key = names.eraseDups ∧
    ∀ tool ∈ selected, tools.find? (·.key == tool.key) = some tool

private theorem lookup_names {unicode : UnicodeTables} {tools : List ClientTool}
    {fields : List (String × Json)} {value : Json}
    (named : Json.field fields "names" = some value) {selected : List ClientTool} :
    lookup unicode tools (.object fields) = .ok selected ↔
      NamesTools tools fields value selected := by
  unfold lookup NamesTools
  dsimp only [Json.asObject]
  rw [named]
  dsimp only
  by_cases alone : fields.length = 1
  · rw [if_neg (not_not_intro alone)]
    constructor
    · intro accepted
      split at accepted
      · cases accepted
      next values filtered =>
        obtain ⟨isArray, bounds⟩ := Option.filter_eq_some_iff.mp filtered
        obtain ⟨names, rfl, resolves, same⟩ :=
          (@lookupNames_iff _ _ [] (by simp) _).mp accepted
        obtain ⟨keys, own⟩ := (eq_mentioned_iff resolves).mp same
        simp only [Bool.and_eq_true, Bool.not_eq_true', List.isEmpty_eq_false_iff, ne_eq,
          List.map_eq_nil_iff, List.length_map, decide_eq_true_eq] at bounds
        refine ⟨alone, names, asArray_eq_some.mp isArray, bounds.1, bounds.2, fun name member => ?_,
          keys, own⟩
        exact resolve_isSome.mp (resolves name member)
    · rintro ⟨_, names, rfl, some, few, resolves, keys, own⟩
      have all : ∀ name ∈ names, ∃ tool, resolve tools name = Option.some tool :=
        fun name member => resolve_isSome.mpr (resolves name member)
      have bounds : (Json.array (names.map .string)).asArray.filter (fun names =>
          !names.isEmpty && names.length ≤ maxLookupTools) = Option.some (names.map .string) :=
        Option.filter_eq_some_iff.mpr ⟨rfl, by simp [some, few]⟩
      rw [bounds]
      exact (@lookupNames_iff _ _ [] (by simp) _).mpr
        ⟨names, rfl, all, (eq_mentioned_iff all).mpr ⟨keys, own⟩⟩
  · rw [if_pos alone]
    exact iff_of_false (by rintro ⟨⟩) fun accepted => alone accepted.1

/-! ### Queries -/

theorem ranksBefore_iff {left right : Nat × String × ClientTool} :
    ranksBefore left right = true ↔
      right.1 < left.1 ∨ (left.1 = right.1 ∧ left.2.1 ≤ right.2.1) := by
  rw [ranksBefore, Bool.or_eq_true, decide_eq_true_eq, Bool.and_eq_true, beq_iff_eq,
    decide_eq_true_eq]

private theorem ranksBefore_trans (first second third : Nat × String × ClientTool)
    (firstSecond : ranksBefore first second = true)
    (secondThird : ranksBefore second third = true) : ranksBefore first third = true := by
  rw [ranksBefore_iff] at *
  rcases firstSecond with greater | ⟨equal, smaller⟩
  · rcases secondThird with greaterNext | ⟨equalNext, _⟩
    · exact .inl (greaterNext.trans greater)
    · exact .inl (equalNext ▸ greater)
  · rcases secondThird with greaterNext | ⟨equalNext, smallerNext⟩
    · exact .inl (equal ▸ greaterNext)
    · exact .inr ⟨equal.trans equalNext, smaller.trans smallerNext⟩

private theorem ranksBefore_total (first second : Nat × String × ClientTool) :
    (ranksBefore first second || ranksBefore second first) = true := by
  rw [Bool.or_eq_true, ranksBefore_iff, ranksBefore_iff]
  rcases Nat.lt_trichotomy first.1 second.1 with less | same | greater
  · exact .inr (.inl less)
  · exact (le_total first.2.1 second.2.1).imp (fun smaller => .inr ⟨same, smaller⟩)
      fun smaller => .inr ⟨same.symm, smaller⟩
  · exact .inl (.inl greater)

/-- A greater score first, then the smaller key. -/
def isBetter (unicode : UnicodeTables) (terms : List String) (left right : ClientTool) : Bool :=
  score unicode terms right < score unicode terms left ||
    (score unicode terms left == score unicode terms right && left.key ≤ right.key)

/-- All tools with a score, the best first; a stable sort. -/
def ranked (unicode : UnicodeTables) (query : String) (tools : List ClientTool) :
    List ClientTool :=
  let terms := queryTerms unicode query
  (tools.filter fun tool => score unicode terms tool != 0).mergeSort (isBetter unicode terms)

variable (unicode : UnicodeTables) (terms : List String)

/-- A tool as it is kept. -/
def scored (tool : ClientTool) : Nat × String × ClientTool :=
  (score unicode terms tool, tool.key, tool)

private theorem foldl_insertMatch (limit : Nat) (tools : List ClientTool)
    (kept : List (Nat × String × ClientTool)) :
    tools.foldl (insertMatch unicode terms limit) kept =
      ((tools.filter fun tool => score unicode terms tool != 0).map (scored unicode terms)).foldl
        (insertBounded ranksBefore limit) kept := by
  induction tools generalizing kept with
  | nil => rfl
  | cons tool tools ih =>
      rw [List.foldl_cons, ih, List.filter_cons, insertMatch]
      by_cases none : score unicode terms tool = 0
      · rw [if_pos none, if_neg (by simp [none])]
      · rw [if_neg none, if_pos (by simp [none]), List.map_cons, List.foldl_cons]
        rfl

private theorem mergeSort_scored (tools : List ClientTool) :
    ((tools.map (scored unicode terms)).mergeSort ranksBefore).map (·.2.2) =
      tools.mergeSort (isBetter unicode terms) := by
  rw [List.map_mergeSort (s := isBetter unicode terms), List.map_map]
  · congr 1
    exact List.map_id _
  · rintro first member second otherMember
    obtain ⟨left, _, rfl⟩ := List.mem_map.mp member
    obtain ⟨right, _, rfl⟩ := List.mem_map.mp otherMember
    rfl

/-- Bounded insertion keeps the start of the sorted list of the matches. -/
theorem lookupQuery_eq (tools : List ClientTool) (query : String) (limit : Nat) :
    lookupQuery unicode tools query limit = (ranked unicode query tools).take limit := by
  unfold lookupQuery ranked
  dsimp only
  generalize queryTerms unicode query = terms
  split
  next none =>
    obtain rfl := List.isEmpty_iff.mp none
    have unmatched : tools.filter (fun tool => score unicode [] tool != 0) = [] := by
      simp [score]
    rw [unmatched, List.mergeSort_nil, List.take_nil]
  next =>
    rw [foldl_insertMatch, foldl_insertBounded ranksBefore_trans ranksBefore_total, List.map_take,
      mergeSort_scored]

variable {unicode terms}

theorem bind_asStr_eq_some {value : Option Json} {text : String} :
    value.bind Json.asStr = some text ↔ value = some (.string text) := by
  cases value with
  | none => simp
  | some value => rw [Option.bind_some, asStr_eq_some, Option.some.injEq]

/-- Nothing but the query and a limit is given, the query is neither blank nor too long and
the limit, five when it is absent, is one to eight. It gives the start of the list of all
matching tools, sorted stably by score and key. -/
def MatchesTools (unicode : UnicodeTables) (tools : List ClientTool)
    (fields : List (String × Json)) (selected : List ClientTool) : Prop :=
  (∀ entry ∈ fields, entry.1 = "query" ∨ entry.1 = "limit") ∧
  ∃ query limit, Json.field fields "query" = some (.string query) ∧
    Text.trim query ≠ "" ∧ query.utf8ByteSize ≤ 500 ∧
    ((Json.field fields "limit" = none ∧ limit = 5) ∨
      ∃ value, Json.field fields "limit" = some value ∧ value.asU64 = some limit ∧
        1 ≤ limit ∧ limit ≤ maxLookupTools) ∧
    selected = (ranked unicode query tools).take limit

private theorem lookup_query {tools : List ClientTool} {fields : List (String × Json)}
    (unnamed : Json.field fields "names" = none) {selected : List ClientTool} :
    lookup unicode tools (.object fields) = .ok selected ↔
      MatchesTools unicode tools fields selected := by
  unfold lookup MatchesTools
  dsimp only [Json.asObject]
  rw [unnamed]
  dsimp only
  by_cases other : (fields.any fun entry => entry.1 != "query" && entry.1 != "limit") = true
  · rw [if_pos other]
    refine iff_of_false (by rintro ⟨⟩) fun accepted => ?_
    obtain ⟨entry, member, foreign⟩ := List.any_eq_true.mp other
    simp only [Bool.and_eq_true, bne_iff_ne] at foreign
    exact (accepted.1 entry member).elim foreign.1 foreign.2
  · have known : ∀ entry ∈ fields, entry.1 = "query" ∨ entry.1 = "limit" := by
      intro entry member
      by_contra foreign
      refine other (List.any_eq_true.mpr ⟨entry, member, ?_⟩)
      simpa [not_or] using foreign
    rw [if_neg other, and_iff_right known]
    cases filtered : ((Json.field fields "query").bind Json.asStr).filter fun query =>
        Text.trim query != "" && query.utf8ByteSize ≤ 500 with
    | none =>
        refine iff_of_false (by rintro ⟨⟩) ?_
        rintro ⟨query, _, given, visible, short, _⟩
        rw [bind_asStr_eq_some.mpr given] at filtered
        simp [visible] at filtered
        exact absurd short (Nat.not_le.mpr filtered)
    | some query =>
        obtain ⟨given, bounds⟩ := Option.filter_eq_some_iff.mp filtered
        have given := bind_asStr_eq_some.mp given
        simp only [Bool.and_eq_true, bne_iff_ne, ne_eq, decide_eq_true_eq] at bounds
        dsimp only
        cases limited : Json.field fields "limit" with
        | none =>
            dsimp only
            rw [lookupQuery_eq]
            constructor
            · rintro ⟨⟩
              exact ⟨query, 5, given, bounds.1, bounds.2, .inl ⟨rfl, rfl⟩, rfl⟩
            · rintro ⟨_, limit, same, _, _, ⟨_, rfl⟩ | ⟨value, ⟨⟩, _⟩, rfl⟩
              cases given.symm.trans same
              rfl
        | some value =>
            dsimp only
            cases valid : value.asU64.filter fun limit => 1 ≤ limit && limit ≤ maxLookupTools with
            | none =>
                refine iff_of_false (by rintro ⟨⟩) ?_
                rintro ⟨_, limit, _, _, _, ⟨⟨⟩, _⟩ | ⟨_, ⟨⟩, number, positive, small⟩, _⟩
                rw [number] at valid
                simp [positive] at valid
                exact absurd small (Nat.not_le.mpr valid)
            | some limit =>
                obtain ⟨number, inside⟩ := Option.filter_eq_some_iff.mp valid
                simp only [Bool.and_eq_true, decide_eq_true_eq] at inside
                dsimp only
                rw [lookupQuery_eq]
                constructor
                · rintro ⟨⟩
                  exact ⟨query, limit, given, bounds.1, bounds.2,
                    .inr ⟨value, rfl, number, inside.1, inside.2⟩, rfl⟩
                · rintro ⟨_, other, same, _, _, ⟨⟨⟩, _⟩ | ⟨_, ⟨⟩, again, _, _⟩, rfl⟩
                  cases given.symm.trans same
                  cases number.symm.trans again
                  rfl

/-- A lookup by names gives the tools of the names, one by a query the best matches, and a
smaller limit cuts the matches of a larger one. -/
theorem lookup_exact (unicode : UnicodeTables) (tools : List ClientTool)
    (fields : List (String × Json)) :
    (∀ value, Json.field fields "names" = some value → ∀ selected,
      lookup unicode tools (.object fields) = .ok selected ↔
        NamesTools tools fields value selected) ∧
    (Json.field fields "names" = none → ∀ selected,
      lookup unicode tools (.object fields) = .ok selected ↔
        MatchesTools unicode tools fields selected) ∧
    ∀ query small large, small ≤ large →
      lookupQuery unicode tools query small <+: lookupQuery unicode tools query large := by
  refine ⟨fun value named selected => lookup_names named,
    fun unnamed selected => lookup_query unnamed, fun query small large fewer => ?_⟩
  rw [lookupQuery_eq, lookupQuery_eq]
  exact List.take_prefix_take_left fewer

/-- Tables for the letters of ASCII. -/
def asciiTables : UnicodeTables := ⟨Char.isAlphanum, Text.toAsciiLowercase⟩

def issueTools : List ClientTool :=
  [⟨"list", some "issues", "List issues"⟩, ⟨"open", none, "Open an issue"⟩,
    ⟨"issues.list", none, "Another tool"⟩]

example : lookup asciiTables issueTools
      (.object [("names", .array [.string "open", .string "issues.list", .string "open"])]) =
    .ok [⟨"open", none, "Open an issue"⟩, ⟨"list", some "issues", "List issues"⟩] := by
  decide +kernel

example : lookup asciiTables issueTools
      (.object [("query", .string "list issue"), ("limit", .number "1")]) =
    .ok [⟨"list", some "issues", "List issues"⟩] := by
  decide +kernel

end ZenithRelay.Gateway.Execution.BasisPoints
