import ZenithRelay.LocalPool.Profiles.OpenCode.Jsonc

/-!
# The pass over comments

What it leaves of a text with comments is that text without them, and whatever is
left without comments was read from such a text.
-/

set_option autoImplicit false

namespace ZenithRelay.LocalPool.Profiles.OpenCode

open Json

/-- Between the passes: no comments, every comma before a bracket allowed. -/
def commaDialect : Dialect where
  gap text := text.all isBlank = true
  scalar value text := scalarValue text = some value
  lastComma := True
  loneComma := True

/-! ### Characters -/

theorem isBlank_space {character : Char} (blank : isBlank character = true) :
    Text.isWhitespace character = true := by
  rcases isBlank_cases blank with rfl | rfl | rfl | rfl <;> decide

theorem isScalarChar_visible {character : Char} (scalar : isScalarChar character = true) :
    Text.isWhitespace character = false := by
  by_contra space
  simp only [isScalarChar, Char.isAlphanum, Char.isAlpha, Char.isUpper, Char.isLower, Char.isDigit,
    Bool.or_eq_true, Bool.and_eq_true, decide_eq_true_eq, beq_iff_eq, ge_iff_le,
    UInt32.le_iff_toNat_le] at scalar
  simp only [Text.isWhitespace, Bool.not_eq_false, Bool.or_eq_true, Bool.and_eq_true,
    decide_eq_true_eq, beq_iff_eq] at space
  rcases scalar with ((letter | rfl) | rfl) | rfl
  · have same : character.toNat = character.val.toNat := rfl
    simp at letter
    omega
  all_goals exact absurd space (by decide)

theorem scalar_ne {character other : Char} (scalar : isScalarChar character = true)
    (differs : isScalarChar other = false) : character ≠ other := by
  rintro rfl
  rw [scalar] at differs
  cases differs

theorem opening_code (keyed : Bool) :
    opening keyed ≠ '/' ∧ opening keyed ≠ '"' ∧ opening keyed ≠ ',' := by
  cases keyed <;> decide

theorem closing_code (keyed : Bool) :
    closing keyed ≠ '/' ∧ closing keyed ≠ '"' ∧ closing keyed ≠ ',' := by
  cases keyed <;> decide

/-- A first character that is visible and closes nothing. -/
def Visible (text : List Char) : Prop :=
  ∃ character rest, text = character :: rest ∧ Text.isWhitespace character = false ∧
    ∀ keyed, character ≠ closing keyed

theorem Visible.append {text : List Char} (visible : Visible text) (rest : List Char) :
    Visible (text ++ rest) := by
  obtain ⟨character, after, rfl, seen, inner⟩ := visible
  exact ⟨character, after ++ rest, rfl, seen, inner⟩

theorem visible_scalar {token : List Char} (scalar : token.all isScalarChar = true)
    (some : token ≠ []) : Visible token := by
  obtain ⟨character, rest, rfl⟩ := List.exists_cons_of_ne_nil some
  have own := (Bool.and_eq_true_iff.mp (List.all_cons ▸ scalar)).1
  refine ⟨character, rest, rfl, isScalarChar_visible own, ?_⟩
  rintro keyed rfl
  cases keyed <;> exact absurd own (by decide)

theorem visible_string {text : String} {spelled : List Char} (token : StringToken text spelled) :
    Visible spelled := by
  obtain ⟨body, decoded, _, _, _, rfl⟩ := token
  exact ⟨'"', _, rfl, by decide, by decide⟩

/-- Values and entries of a dialect whose scalars are tokens start visibly. -/
theorem visible_spelled (dialect : Dialect)
    (tokens : ∀ value text, dialect.scalar value text → Visible text) {node : Node}
    {spelled : List Char} (spells : Spells dialect node spelled) :
    match node with
    | .value _ => Visible spelled
    | .entries _ entries => entries ≠ [] → Visible spelled := by
  have first : ∀ {keyed : Bool} {key : String} {before spelled : List Char},
      KeyToken dialect keyed key before → Visible spelled → Visible (before ++ spelled) := by
    intro keyed key before spelled token visible
    cases keyed with
    | false =>
        obtain ⟨_, rfl⟩ := token
        exact visible
    | true =>
        obtain ⟨quoted, _, _, string, _, _, rfl⟩ := token
        rw [List.append_assoc]
        exact (visible_string string).append _
  induction spells with
  | scalar token _ => exact (tokens _ _ token).append _
  | string token _ => exact (visible_string token).append _
  | @container keyed => exact ⟨_, _, rfl, by cases keyed <;> decide, by cases keyed <;> decide⟩
  | @lone keyed => exact ⟨_, _, rfl, by cases keyed <;> decide, by cases keyed <;> decide⟩
  | nothing => exact fun some => absurd rfl some
  | last token _ ih => exact fun _ => first token ih
  | more _ token _ _ _ ih => exact fun _ => first token (ih.append _)

theorem scalarValue_visible (value : Json) (text : List Char)
    (scalar : scalarValue text = some value) : Visible text :=
  visible_scalar (scalarValue_scalar scalar).1 (scalarValue_scalar scalar).2

/-- What follows a token and its blanks: nothing, or something visible. -/
def Follows (rest : List Char) : Prop :=
  ∀ character more, rest = character :: more → Text.isWhitespace character = false

theorem follows_cons {character : Char} (seen : Text.isWhitespace character = false)
    (rest : List Char) : Follows (character :: rest) := by
  rintro first more same
  cases same
  exact seen

theorem Visible.follows {text : List Char} (visible : Visible text) : Follows text := by
  obtain ⟨character, rest, rfl, seen, _⟩ := visible
  exact follows_cons seen rest

theorem follows_closing (keyed : Bool) (rest : List Char) : Follows (closing keyed :: rest) :=
  follows_cons (by cases keyed <;> decide) rest

/-! ### The first pass -/

theorem stripComments_line_start (rest : List Char) :
    stripComments .code ('/' :: '/' :: rest) = stripComments .line rest := rfl

theorem stripComments_block_start (rest : List Char) :
    stripComments .code ('/' :: '*' :: rest) = stripComments (.block '\x00') rest := rfl

/-- In a string or a comment one character is read at a time. -/
theorem stripComments_inside (ch : Char) (rest : List Char) :
    (stripComments .string (ch :: rest) = ch :: stripComments
      (if ch = '\\' then .escaped else if ch = '"' then .code else .string) rest) ∧
    (stripComments .escaped (ch :: rest) = ch :: stripComments .string rest) ∧
    (stripComments .line (ch :: rest) =
      if ch = '\n' then '\n' :: stripComments .code rest else stripComments .line rest) ∧
    ∀ previousChar, stripComments (.block previousChar) (ch :: rest) =
      if previousChar = '*' ∧ ch = '/' then stripComments .code rest
      else if ch = '\n' then '\n' :: stripComments (.block ch) rest
      else stripComments (.block ch) rest := by
  refine ⟨?_, ?_, ?_, fun previousChar => ?_⟩ <;> rw [stripComments]

theorem stripComments_quoted (ch : Char) (rest : List Char) :
    stripComments .string (ch :: rest) = ch :: stripComments
      (if ch = '\\' then .escaped else if ch = '"' then .code else .string) rest :=
  (stripComments_inside ch rest).1

theorem stripComments_escaped (ch : Char) (rest : List Char) :
    stripComments .escaped (ch :: rest) = ch :: stripComments .string rest :=
  (stripComments_inside ch rest).2.1

theorem stripComments_line (ch : Char) (rest : List Char) :
    stripComments .line (ch :: rest) =
      if ch = '\n' then '\n' :: stripComments .code rest else stripComments .line rest :=
  (stripComments_inside ch rest).2.2.1

theorem stripComments_commented (previousChar ch : Char) (rest : List Char) :
    stripComments (.block previousChar) (ch :: rest) =
      if previousChar = '*' ∧ ch = '/' then stripComments .code rest
      else if ch = '\n' then '\n' :: stripComments (.block ch) rest
      else stripComments (.block ch) rest :=
  (stripComments_inside ch rest).2.2.2 previousChar

/-- A character that opens no comment stays. -/
theorem stripComments_visible {ch : Char} {rest : List Char}
    (single : ch = '/' → ∀ next more, rest = next :: more → next ≠ '/' ∧ next ≠ '*') :
    stripComments .code (ch :: rest) =
      ch :: stripComments (if ch = '"' then .string else .code) rest := by
  rw [stripComments]
  · rintro more rfl rfl
    exact (single rfl '/' more rfl).1 rfl
  · rintro more rfl rfl
    exact (single rfl '*' more rfl).2 rfl

theorem stripComments_cons {ch : Char} (slashless : ch ≠ '/') (rest : List Char) :
    stripComments .code (ch :: rest) =
      ch :: stripComments (if ch = '"' then .string else .code) rest :=
  stripComments_visible fun slash => absurd slash slashless

theorem stripComments_code {ch : Char} (slashless : ch ≠ '/') (unquoted : ch ≠ '"')
    (rest : List Char) : stripComments .code (ch :: rest) = ch :: stripComments .code rest := by
  rw [stripComments_cons slashless, if_neg unquoted]

private theorem stripComments_body {body : List Char} (lexed : Body body) (rest : List Char) :
    stripComments .string (body ++ '"' :: rest) = body ++ '"' :: stripComments .code rest := by
  induction lexed with
  | nil => rfl
  | plain unquoted unescaped _ ih =>
      rw [List.cons_append, stripComments_quoted, if_neg unescaped, if_neg unquoted, ih]
      rfl
  | escape _ ih =>
      rw [List.cons_append, List.cons_append, stripComments_quoted, if_pos rfl,
        stripComments_escaped, ih]
      rfl

theorem stripComments_string {text : String} {spelled : List Char} (token : StringToken text spelled)
    (rest : List Char) :
    stripComments .code (spelled ++ rest) = spelled ++ stripComments .code rest := by
  obtain ⟨body, decoded, lexed, _, _, rfl⟩ := token
  have shape : ('"' :: (body ++ ['"'])) ++ rest = '"' :: (body ++ '"' :: rest) := by simp
  rw [shape, stripComments_cons (by decide), if_pos rfl, stripComments_body lexed]
  simp

/-- The line breaks of a text, which is all that is left of a block comment. -/
def breaks (text : List Char) : List Char := text.filter (· == '\n')

theorem breaks_blank (text : List Char) : (breaks text).all isBlank = true := by
  rw [List.all_eq_true]
  intro character member
  rw [beq_iff_eq.mp (List.mem_filter.mp member).2]
  decide

theorem stripComments_block_body (body rest : List Char) (previousChar : Char)
    (inner : ¬['*', '/'] <:+: previousChar :: (body ++ ['*'])) :
    stripComments (.block previousChar) (body ++ '*' :: '/' :: rest) =
      breaks body ++ stripComments .code rest := by
  induction body generalizing previousChar with
  | nil =>
      have star : ¬(previousChar = '*' ∧ '*' = '/') := fun both => absurd both.2 (by decide)
      rw [List.nil_append, stripComments_commented, if_neg star, if_neg (by decide),
        stripComments_commented, if_pos ⟨rfl, rfl⟩]
      rfl
  | cons ch body ih =>
      have unclosed : ¬(previousChar = '*' ∧ ch = '/') := by
        rintro ⟨rfl, rfl⟩
        exact inner ⟨[], body ++ ['*'], rfl⟩
      have further : ¬['*', '/'] <:+: ch :: (body ++ ['*']) :=
        fun found => inner (found.trans (List.suffix_cons previousChar _).isInfix)
      rw [List.cons_append, stripComments_commented, if_neg unclosed, ih ch further]
      split
      next same => simp [breaks, same]
      next differs => simp [breaks, differs]

theorem block_start {body : List Char} (inner : ¬['*', '/'] <:+: body) :
    ¬['*', '/'] <:+: '\x00' :: body := by
  rintro ⟨before, after, same⟩
  cases before with
  | nil => exact absurd (List.cons.inj same).1 (by decide)
  | cons first before => exact inner ⟨before, after, (List.cons.inj same).2⟩

theorem stripComments_block {comment : List Char} (closed : BlockComment comment)
    (rest : List Char) :
    stripComments .code (comment ++ rest) = breaks comment ++ stripComments .code rest := by
  obtain ⟨body, inner, rfl⟩ := closed
  have shape : ('/' :: '*' :: (body ++ ['*', '/'])) ++ rest =
      '/' :: '*' :: (body ++ '*' :: '/' :: rest) := by simp
  rw [shape, stripComments_block_start, stripComments_block_body body rest _ (block_start inner)]
  simp [breaks]

theorem stripComments_line_body (body rest : List Char) (single : '\n' ∉ body) :
    stripComments .line (body ++ '\n' :: rest) = '\n' :: stripComments .code rest := by
  induction body with
  | nil => rw [List.nil_append, stripComments_line, if_pos rfl]
  | cons ch body ih =>
      rw [List.mem_cons, not_or] at single
      rw [List.cons_append, stripComments_line, if_neg (Ne.symm single.1), ih single.2]

/-- A gap leaves blanks behind. -/
theorem stripComments_gap {gap : List Char} (spaced : Gap gap) :
    ∃ blanks, blanks.all isBlank = true ∧
      ∀ rest, stripComments .code (gap ++ rest) = blanks ++ stripComments .code rest := by
  induction spaced with
  | nil => exact ⟨[], rfl, fun _ => rfl⟩
  | @blank character gap visible _ ih =>
      obtain ⟨blanks, all, left⟩ := ih
      refine ⟨character :: blanks, by simp [visible, all], fun rest => ?_⟩
      have code : character ≠ '/' ∧ character ≠ '"' := by
        rcases isBlank_cases visible with rfl | rfl | rfl | rfl <;> decide
      rw [List.cons_append, stripComments_code code.1 code.2, left rest]
      rfl
  | line closed _ ih =>
      obtain ⟨blanks, all, left⟩ := ih
      obtain ⟨body, single, rfl⟩ := closed
      refine ⟨'\n' :: blanks, by simp [all]; decide, fun rest => ?_⟩
      have shape : ∀ gap, ('/' :: '/' :: (body ++ ['\n']) ++ gap) ++ rest =
          '/' :: '/' :: (body ++ '\n' :: (gap ++ rest)) := by simp
      rw [shape, stripComments_line_start, stripComments_line_body _ _ single, left rest]
      rfl
  | @block comment gap closed _ ih =>
      obtain ⟨blanks, all, left⟩ := ih
      refine ⟨breaks comment ++ blanks, ?_, fun rest => ?_⟩
      · rw [List.all_append, breaks_blank, all]
        rfl
      · rw [List.append_assoc, stripComments_block closed, left rest, List.append_assoc]

private theorem stripComments_silent {comments : List Char} (silent : Silent comments) (rest : List Char) :
    stripComments .code (comments ++ rest) = stripComments .code rest := by
  induction silent with
  | nil => rfl
  | @block comment _ closed single _ ih =>
      have none : breaks comment = [] := by
        rw [breaks, List.filter_eq_nil_iff]
        rintro character member same
        exact single (beq_iff_eq.mp same ▸ member)
      rw [List.append_assoc, stripComments_block closed, none, List.nil_append, ih]

private theorem stripComments_woven {token spelled : List Char} (woven : Woven token spelled)
    (scalar : token.all isScalarChar = true) (rest : List Char) :
    stripComments .code (spelled ++ rest) = token ++ stripComments .code rest := by
  induction woven with
  | single character =>
      have own : isScalarChar character = true := by simpa using scalar
      exact stripComments_code (scalar_ne own (by decide)) (scalar_ne own (by decide)) rest
  | cons between _ ih =>
      obtain ⟨own, others⟩ := Bool.and_eq_true_iff.mp (List.all_cons ▸ scalar)
      rw [List.cons_append, stripComments_code (scalar_ne own (by decide))
        (scalar_ne own (by decide)), List.append_assoc, stripComments_silent between, ih others]
      rfl

/-- The first pass turns a lenient reading into one without comments. -/
theorem stripComments_spelled {node : Node} {spelled : List Char}
    (spells : Spells lenientDialect node spelled) :
    ∃ left, Spells commaDialect node left ∧
      ∀ rest, stripComments .code (spelled ++ rest) = left ++ stripComments .code rest := by
  have key : ∀ {keyed : Bool} {key : String} {before : List Char},
      KeyToken lenientDialect keyed key before →
      ∃ left, KeyToken commaDialect keyed key left ∧
        ∀ rest, stripComments .code (before ++ rest) = left ++ stripComments .code rest := by
    intro keyed key before token
    cases keyed with
    | false =>
        obtain ⟨rfl, rfl⟩ := token
        exact ⟨[], ⟨rfl, rfl⟩, fun _ => rfl⟩
    | true =>
        obtain ⟨quoted, leading, trailing, string, first, second, rfl⟩ := token
        obtain ⟨blanks, all, skipped⟩ := stripComments_gap first
        obtain ⟨others, othersAll, othersSkipped⟩ := stripComments_gap second
        refine ⟨quoted ++ (blanks ++ ':' :: others),
          ⟨quoted, blanks, others, string, all, othersAll, rfl⟩, fun rest => ?_⟩
        rw [List.append_assoc, List.append_assoc, List.cons_append, stripComments_string string,
          skipped, stripComments_code (by decide) (by decide), othersSkipped]
        simp
  induction spells with
  | scalar token after =>
      obtain ⟨plain, scalar, woven⟩ := token
      obtain ⟨blanks, all, skipped⟩ := stripComments_gap after
      refine ⟨plain ++ blanks, .scalar scalar all, fun rest => ?_⟩
      rw [List.append_assoc, stripComments_woven woven (scalarValue_scalar scalar).1, skipped,
        List.append_assoc]
  | string token after =>
      obtain ⟨blanks, all, skipped⟩ := stripComments_gap after
      refine ⟨_, .string token all, fun rest => ?_⟩
      rw [List.append_assoc, stripComments_string token, skipped, List.append_assoc]
  | @container keyed _ _ _ _ opened _ closed ih =>
      obtain ⟨blanks, all, skipped⟩ := stripComments_gap opened
      obtain ⟨inner, spells, read⟩ := ih
      obtain ⟨others, othersAll, othersSkipped⟩ := stripComments_gap closed
      refine ⟨_, .container all spells othersAll, fun rest => ?_⟩
      rw [List.cons_append, List.append_assoc, List.append_assoc, List.cons_append,
        stripComments_code (opening_code keyed).1 (opening_code keyed).2.1, skipped, read,
        stripComments_code (closing_code keyed).1 (closing_code keyed).2.1, othersSkipped]
      simp
  | @lone keyed _ _ _ _ opened between closed =>
      obtain ⟨blanks, all, skipped⟩ := stripComments_gap opened
      obtain ⟨middle, middleAll, middleSkipped⟩ := stripComments_gap between
      obtain ⟨others, othersAll, othersSkipped⟩ := stripComments_gap closed
      refine ⟨_, .lone trivial all middleAll othersAll, fun rest => ?_⟩
      rw [List.cons_append, List.append_assoc, List.cons_append, List.append_assoc,
        List.cons_append, stripComments_code (opening_code keyed).1 (opening_code keyed).2.1,
        skipped, stripComments_code (by decide) (by decide), middleSkipped,
        stripComments_code (closing_code keyed).1 (closing_code keyed).2.1, othersSkipped]
      simp
  | nothing => exact ⟨[], .nothing, fun _ => rfl⟩
  | last token _ ih =>
      obtain ⟨before, keyToken, keyRead⟩ := key token
      obtain ⟨left, spells, read⟩ := ih
      refine ⟨_, .last keyToken spells, fun rest => ?_⟩
      rw [List.append_assoc, keyRead, read, List.append_assoc]
  | more _ token _ after _ ih rest_ih =>
      obtain ⟨before, keyToken, keyRead⟩ := key token
      obtain ⟨left, spells, read⟩ := ih
      obtain ⟨blanks, all, skipped⟩ := stripComments_gap after
      obtain ⟨others, othersSpell, othersRead⟩ := rest_ih
      refine ⟨_, .more (.inr trivial) keyToken spells all othersSpell, fun rest => ?_⟩
      rw [List.append_assoc, List.append_assoc, List.cons_append, List.append_assoc, keyRead, read,
        stripComments_code (by decide) (by decide), skipped, othersRead]
      simp

theorem stripComments_open_line (body : List Char) (single : '\n' ∉ body) :
    stripComments .line body = [] := by
  induction body with
  | nil => rfl
  | cons ch body ih =>
      rw [List.mem_cons, not_or] at single
      rw [stripComments_line, if_neg (Ne.symm single.1), ih single.2]

theorem stripComments_open_block (body : List Char) (previousChar : Char)
    (inner : ¬['*', '/'] <:+: previousChar :: body) :
    stripComments (.block previousChar) body = breaks body := by
  induction body generalizing previousChar with
  | nil => rfl
  | cons ch body ih =>
      have unclosed : ¬(previousChar = '*' ∧ ch = '/') := by
        rintro ⟨rfl, rfl⟩
        exact inner ⟨[], body, rfl⟩
      have further : ¬['*', '/'] <:+: ch :: body :=
        fun found => inner (found.trans (List.suffix_cons previousChar _).isInfix)
      rw [stripComments_commented, if_neg unclosed, ih ch further]
      split
      next same => simp [breaks, same]
      next differs => simp [breaks, differs]

/-- A comment left open leaves its line breaks. -/
theorem stripComments_open {tail : List Char} (opened : OpenComment tail) :
    (stripComments .code tail).all isBlank = true := by
  rcases opened with (rfl | ⟨body, single, rfl⟩) | ⟨body, inner, rfl⟩
  · rfl
  · rw [stripComments_line_start, stripComments_open_line body single]
    rfl
  · rw [stripComments_block_start, stripComments_open_block body _ (block_start inner)]
    exact breaks_blank body

/-! ### What the first pass has read -/

/-- No blank and no comment comes first. -/
def Clear (text : List Char) : Prop :=
  ∀ character rest, text = character :: rest → isBlank character = false ∧
    (character = '/' → ∀ next more, rest = next :: more → next ≠ '/' ∧ next ≠ '*')

theorem stripComments_clear {character : Char} {rest : List Char}
    (clear : Clear (character :: rest)) :
    stripComments .code (character :: rest) =
      character :: stripComments (if character = '"' then .string else .code) rest :=
  stripComments_visible (clear character rest rfl).2

theorem stripped_clear {text rest : List Char} {character : Char} (clear : Clear text)
    (left : stripComments .code text = character :: rest) :
    ∃ after, text = character :: after ∧
      stripComments (if character = '"' then .string else .code) after = rest := by
  cases text with
  | nil => cases left
  | cons first after =>
      rw [stripComments_clear clear] at left
      obtain ⟨rfl, same⟩ := List.cons.inj left
      exact ⟨after, rfl, same⟩

/-- What is read after a gap: the first character of what is left, or a comment left
open where nothing is left. -/
def Ready (text rest : List Char) : Prop :=
  Clear text ∧ stripComments .code text = rest ∨ rest = [] ∧ OpenComment text

private theorem first_close {text : List Char} (closed : ['*', '/'] <:+: text) :
    ∃ body rest, text = body ++ '*' :: '/' :: rest ∧ ¬['*', '/'] <:+: body ++ ['*'] := by
  induction text with
  | nil => exact absurd (List.infix_nil.mp closed) (by simp)
  | cons character text ih =>
      by_cases here : ['*', '/'] <+: character :: text
      · obtain ⟨rest, same⟩ := here
        obtain ⟨rfl, rfl⟩ := List.cons.inj same
        exact ⟨[], rest, rfl, fun found => absurd found.length_le (by simp)⟩
      · obtain ⟨body, rest, rfl, inner⟩ := ih ((List.infix_cons_iff.mp closed).resolve_left here)
        refine ⟨character :: body, rest, rfl, fun found => ?_⟩
        rcases List.infix_cons_iff.mp found with start | later
        · obtain ⟨more, same⟩ := start
          obtain ⟨rfl, tail⟩ := List.cons.inj same
          cases body with
          | nil => exact absurd (List.cons.inj tail).1 (by decide)
          | cons next body =>
              obtain ⟨rfl, _⟩ := List.cons.inj tail
              exact here ⟨body ++ '*' :: '/' :: rest, rfl⟩
        · exact inner later

private theorem first_break {text : List Char} (broken : '\n' ∈ text) :
    ∃ body rest, text = body ++ '\n' :: rest ∧ '\n' ∉ body := by
  obtain ⟨body, rest, same, fresh⟩ := List.eq_append_cons_of_mem broken
  exact ⟨body, rest, same, fresh⟩

theorem strip_blanks {blanks left gap rest : List Char} (all : blanks.all isBlank = true)
    (follows : Follows rest) (same : blanks ++ left = gap ++ rest) :
    ∃ more, gap = blanks ++ more ∧ left = more ++ rest := by
  induction blanks generalizing gap with
  | nil => exact ⟨gap, rfl, same⟩
  | cons character blanks ih =>
      obtain ⟨blank, others⟩ := Bool.and_eq_true_iff.mp (List.all_cons ▸ all)
      cases gap with
      | nil =>
          have seen := follows character _ same.symm
          rw [isBlank_space blank] at seen
          cases seen
      | cons first gap =>
          obtain ⟨rfl, tail⟩ := List.cons.inj same
          obtain ⟨more, rfl, behind⟩ := ih others tail
          exact ⟨more, rfl, behind⟩

/-- Blanks that are left were read as a gap; nothing left, as comments without breaks. -/
theorem stripped_gap {rest : List Char} (follows : Follows rest) (length : Nat) :
    ∀ gap text : List Char, text.length ≤ length → gap.all isBlank = true →
      stripComments .code text = gap ++ rest →
      ∃ comments after, Gap comments ∧ text = comments ++ after ∧ Ready after rest ∧
        (gap = [] → Silent comments) := by
  induction length with
  | zero =>
      intro gap text short all left
      obtain rfl := List.eq_nil_of_length_eq_zero (Nat.le_zero.mp short)
      obtain ⟨rfl, rfl⟩ := List.append_eq_nil_iff.mp left.symm
      exact ⟨[], [], .nil, rfl, .inr ⟨rfl, .inl (.inl rfl)⟩, fun _ => .nil⟩
  | succ length ih =>
      intro gap text short all left
      by_cases clear : Clear text
      · refine ⟨[], text, .nil, rfl, .inl ⟨clear, ?_⟩, fun _ => .nil⟩
        cases gap with
        | nil => exact left
        | cons first gap =>
            obtain ⟨after, rfl, _⟩ := stripped_clear clear left
            have blank := (Bool.and_eq_true_iff.mp (List.all_cons ▸ all)).1
            rw [(clear first after rfl).1] at blank
            cases blank
      · obtain ⟨character, after, rfl, unclear⟩ : ∃ character after, text = character :: after ∧
            (isBlank character = true ∨ character = '/' ∧ ∃ next more, after = next :: more ∧
              (next = '/' ∨ next = '*')) := by
          by_contra none
          refine clear fun character after same => ?_
          by_contra violated
          refine none ⟨character, after, same, ?_⟩
          by_contra neither
          push Not at neither
          exact violated ⟨by simpa using neither.1, fun slash next more same =>
            neither.2 slash next more same⟩
        rcases unclear with blank | ⟨rfl, next, more, rfl, rfl | rfl⟩
        · have code : character ≠ '/' ∧ character ≠ '"' := by
            rcases isBlank_cases blank with rfl | rfl | rfl | rfl <;> decide
          rw [stripComments_code code.1 code.2] at left
          obtain ⟨others, rfl, behind⟩ := @strip_blanks [character] _ _ _
            (by simp [blank]) follows left
          have othersBlank := (Bool.and_eq_true_iff.mp (List.all_cons ▸ all)).2
          obtain ⟨comments, final, gap, rfl, ready, _⟩ :=
            ih others after (Nat.le_of_succ_le_succ short) othersBlank behind
          exact ⟨character :: comments, final, .blank blank gap, rfl, ready,
            fun none => absurd none (by simp)⟩
        · rw [stripComments_line_start] at left
          by_cases broken : '\n' ∈ more
          · obtain ⟨body, behind, rfl, single⟩ := first_break broken
            rw [stripComments_line_body body behind single] at left
            obtain ⟨others, rfl, remaining⟩ := @strip_blanks ['\n'] _ _ _
              (by decide) follows left
            have othersBlank := (Bool.and_eq_true_iff.mp (List.all_cons ▸ all)).2
            obtain ⟨comments, final, gap, rfl, ready, _⟩ :=
              ih others behind (by simp at short; omega) othersBlank remaining
            refine ⟨'/' :: '/' :: (body ++ ['\n']) ++ comments, final,
              .line ⟨body, single, rfl⟩ gap, by simp, ready, fun none => absurd none (by simp)⟩
          · rw [stripComments_open_line more broken] at left
            obtain ⟨rfl, rfl⟩ := List.append_eq_nil_iff.mp left.symm
            exact ⟨[], _, .nil, rfl, .inr ⟨rfl, .inl (.inr ⟨more, broken, rfl⟩)⟩, fun _ => .nil⟩
        · rw [stripComments_block_start] at left
          by_cases closed : ['*', '/'] <:+: more
          · obtain ⟨body, behind, rfl, inner⟩ := first_close closed
            rw [stripComments_block_body body behind _ (block_start inner)] at left
            obtain ⟨others, rfl, remaining⟩ := strip_blanks (breaks_blank body) follows left
            rw [List.all_append] at all
            obtain ⟨comments, final, gap, rfl, ready, silent⟩ :=
              ih others behind (by simp at short; omega) (Bool.and_eq_true_iff.mp all).2 remaining
            have comment : BlockComment ('/' :: '*' :: (body ++ ['*', '/'])) :=
              ⟨body, inner, rfl⟩
            refine ⟨'/' :: '*' :: (body ++ ['*', '/']) ++ comments, final, .block comment gap,
              by simp, ready, fun none => ?_⟩
            obtain ⟨noBreak, rfl⟩ := List.append_eq_nil_iff.mp none
            refine .block comment ?_ (silent rfl)
            have single : '\n' ∉ body := by
              intro member
              have kept : '\n' ∈ breaks body := List.mem_filter.mpr ⟨member, rfl⟩
              rw [noBreak] at kept
              cases kept
            simpa using single
          · rw [stripComments_open_block more _ (block_start closed)] at left
            obtain ⟨others, rfl, remaining⟩ := @strip_blanks _ [] _ _ (breaks_blank more) follows
              (by rw [List.append_nil]; exact left)
            obtain ⟨rfl, rfl⟩ := List.append_eq_nil_iff.mp remaining.symm
            exact ⟨[], _, .nil, rfl, .inr ⟨rfl, .inr ⟨more, closed, rfl⟩⟩, fun _ => .nil⟩

theorem Ready.clear {text rest : List Char} {character : Char}
    (ready : Ready text (character :: rest)) :
    Clear text ∧ stripComments .code text = character :: rest := by
  rcases ready with read | ⟨none, _⟩
  · exact read
  · cases none

private theorem stripped_body {body rest : List Char} (lexed : Body body) {text : List Char}
    (left : stripComments .string text = body ++ '"' :: rest) :
    ∃ after, text = body ++ '"' :: after ∧ stripComments .code after = rest := by
  induction lexed generalizing text with
  | nil =>
      cases text with
      | nil => cases left
      | cons first after =>
          rw [stripComments_quoted] at left
          obtain ⟨rfl, same⟩ := List.cons.inj left
          exact ⟨after, rfl, same⟩
  | plain unquoted unescaped _ ih =>
      cases text with
      | nil => cases left
      | cons first after =>
          rw [stripComments_quoted] at left
          obtain ⟨rfl, same⟩ := List.cons.inj left
          rw [if_neg unescaped, if_neg unquoted] at same
          obtain ⟨behind, rfl, read⟩ := ih same
          exact ⟨behind, rfl, read⟩
  | escape _ ih =>
      cases text with
      | nil => cases left
      | cons first after =>
          rw [stripComments_quoted] at left
          obtain ⟨rfl, same⟩ := List.cons.inj left
          rw [if_pos rfl] at same
          cases after with
          | nil => cases same
          | cons second after =>
              rw [stripComments_escaped] at same
              obtain ⟨rfl, further⟩ := List.cons.inj same
              obtain ⟨behind, rfl, read⟩ := ih further
              exact ⟨behind, rfl, read⟩

theorem stripped_string {text spelled rest : List Char} {value : String}
    (token : StringToken value spelled) (clear : Clear text)
    (left : stripComments .code text = spelled ++ rest) :
    ∃ after, text = spelled ++ after ∧ stripComments .code after = rest := by
  obtain ⟨body, decoded, lexed, _, _, rfl⟩ := token
  have shape : ('"' :: (body ++ ['"'])) ++ rest = '"' :: (body ++ '"' :: rest) := by simp
  rw [shape] at left
  obtain ⟨inner, rfl, further⟩ := stripped_clear clear left
  rw [if_pos rfl] at further
  obtain ⟨after, rfl, read⟩ := stripped_body lexed further
  exact ⟨after, by simp, read⟩

private theorem stripped_scalar {token rest : List Char} (scalar : token.all isScalarChar = true)
    (some : token ≠ []) {text : List Char} (clear : Clear text)
    (left : stripComments .code text = token ++ rest) :
    ∃ spelled after, Woven token spelled ∧ text = spelled ++ after ∧
      stripComments .code after = rest := by
  induction token generalizing text with
  | nil => exact absurd rfl some
  | cons character token ih =>
      obtain ⟨own, others⟩ := Bool.and_eq_true_iff.mp (List.all_cons ▸ scalar)
      obtain ⟨next, rfl, further⟩ := stripped_clear clear left
      rw [if_neg (scalar_ne own (by decide))] at further
      by_cases last : token = []
      · subst last
        exact ⟨[character], next, .single character, rfl, further⟩
      · have follows := ((visible_scalar others last).append rest).follows
        obtain ⟨comments, after, _, rfl, ready, silent⟩ :=
          stripped_gap follows _ [] next (Nat.le_refl _) rfl further
        obtain ⟨first, token, rfl⟩ := List.exists_cons_of_ne_nil last
        obtain ⟨afterClear, afterLeft⟩ := ready.clear
        obtain ⟨spelled, final, woven, rfl, read⟩ := ih others last afterClear afterLeft
        exact ⟨character :: (comments ++ spelled), final, .cons (silent rfl) woven, by simp, read⟩

/-- A gap before something that is left. -/
theorem stripped_before {gap rest text : List Char} (all : gap.all isBlank = true)
    (visible : Visible rest) (left : stripComments .code text = gap ++ rest) :
    ∃ comments after, Gap comments ∧ text = comments ++ after ∧ Clear after ∧
      stripComments .code after = rest := by
  obtain ⟨comments, after, spaced, same, ready, _⟩ :=
    stripped_gap visible.follows _ gap text (Nat.le_refl _) all left
  obtain ⟨character, more, rfl, _⟩ := visible
  exact ⟨comments, after, spaced, same, ready.clear.1, ready.clear.2⟩

/-- A gap before one character that is left. -/
theorem stripped_mark {gap rest text : List Char} {mark : Char} (all : gap.all isBlank = true)
    (seen : Text.isWhitespace mark = false) (unquoted : mark ≠ '"')
    (left : stripComments .code text = gap ++ mark :: rest) :
    ∃ comments after, Gap comments ∧ text = comments ++ mark :: after ∧
      stripComments .code after = rest := by
  obtain ⟨comments, marked, spaced, rfl, ready, _⟩ :=
    stripped_gap (follows_cons seen rest) _ gap text (Nat.le_refl _) all left
  obtain ⟨after, rfl, read⟩ := stripped_clear ready.clear.1 ready.clear.2
  rw [if_neg unquoted] at read
  exact ⟨comments, after, spaced, rfl, read⟩

theorem stripped_key {keyed : Bool} {key : String} {before rest text : List Char}
    (token : KeyToken commaDialect keyed key before) (visible : Visible rest)
    (clear : Clear text) (left : stripComments .code text = before ++ rest) :
    ∃ spelled after, KeyToken lenientDialect keyed key spelled ∧ text = spelled ++ after ∧
      Clear after ∧ stripComments .code after = rest := by
  cases keyed with
  | false =>
      obtain ⟨named, rfl⟩ := token
      exact ⟨[], text, ⟨named, rfl⟩, rfl, clear, left⟩
  | true =>
      obtain ⟨quoted, leading, trailing, string, first, second, rfl⟩ := token
      rw [List.append_assoc, List.append_assoc, List.cons_append] at left
      obtain ⟨behind, rfl, behindLeft⟩ := stripped_string string clear left
      obtain ⟨comments, marked, spaced, rfl, markedLeft⟩ :=
        stripped_mark first (by decide) (by decide) behindLeft
      obtain ⟨others, after, othersSpaced, rfl, afterClear, afterLeft⟩ :=
        stripped_before second visible markedLeft
      exact ⟨quoted ++ (comments ++ ':' :: others), after,
        ⟨quoted, comments, others, string, spaced, othersSpaced, rfl⟩, by simp, afterClear,
        afterLeft⟩

/-- Whatever the first pass leaves with commas too many was spelled leniently. -/
theorem stripped_spelled {node : Node} {left : List Char} (spells : Spells commaDialect node left) :
    (∀ keyed, node ≠ .entries keyed []) → ∀ text rest, Clear text → Follows rest →
      stripComments .code text = left ++ rest →
      ∃ spelled after, Spells lenientDialect node spelled ∧ text = spelled ++ after ∧
        Ready after rest := by
  have visible : ∀ {node : Node} {left : List Char}, Spells commaDialect node left →
      (∀ keyed, node ≠ .entries keyed []) → Visible left := by
    intro node left spells some
    have shown := visible_spelled commaDialect scalarValue_visible spells
    cases node with
    | value => exact shown
    | entries keyed entries => exact shown fun none => some keyed (none ▸ rfl)
  induction spells with
  | scalar token after =>
      intro _ text rest clear follows left
      rw [List.append_assoc] at left
      obtain ⟨all, some⟩ := scalarValue_scalar token
      obtain ⟨spelled, behind, woven, rfl, behindLeft⟩ := stripped_scalar all some clear left
      obtain ⟨comments, final, spaced, rfl, ready, _⟩ :=
        stripped_gap follows _ _ behind (Nat.le_refl _) after behindLeft
      exact ⟨_, final, .scalar ⟨_, token, woven⟩ spaced, (List.append_assoc _ _ _).symm, ready⟩
  | string token after =>
      intro _ text rest clear follows left
      rw [List.append_assoc] at left
      obtain ⟨behind, rfl, behindLeft⟩ := stripped_string token clear left
      obtain ⟨comments, final, spaced, rfl, ready, _⟩ :=
        stripped_gap follows _ _ behind (Nat.le_refl _) after behindLeft
      exact ⟨_, final, .string token spaced, (List.append_assoc _ _ _).symm, ready⟩
  | @container keyed entries first inner last opened inside closed ih =>
      intro _ text rest clear follows left
      rw [List.cons_append, List.append_assoc, List.append_assoc, List.cons_append] at left
      obtain ⟨behind, rfl, behindLeft⟩ := stripped_clear clear left
      rw [if_neg (opening_code keyed).2.1] at behindLeft
      have closingSeen : Text.isWhitespace (closing keyed) = false := by cases keyed <;> decide
      by_cases empty : entries = []
      · subst empty
        cases inside
        obtain ⟨comments, after, spaced, rfl, afterLeft⟩ :=
          stripped_mark opened closingSeen (closing_code keyed).2.1 behindLeft
        obtain ⟨others, final, othersSpaced, rfl, ready, _⟩ :=
          stripped_gap follows _ _ after (Nat.le_refl _) closed afterLeft
        exact ⟨_, final, .container spaced .nothing othersSpaced, by simp, ready⟩
      · have some : ∀ other, Node.entries keyed entries ≠ .entries other [] := by
          rintro other same
          cases same
          exact empty rfl
        obtain ⟨comments, after, spaced, rfl, afterClear, afterLeft⟩ :=
          stripped_before opened ((visible inside some).append _) behindLeft
        obtain ⟨spelled, marked, spells, rfl, ready⟩ :=
          ih some after _ afterClear (follows_closing keyed _) afterLeft
        obtain ⟨next, rfl, nextLeft⟩ := stripped_clear ready.clear.1 ready.clear.2
        rw [if_neg (closing_code keyed).2.1] at nextLeft
        obtain ⟨others, final, othersSpaced, rfl, finish, _⟩ :=
          stripped_gap follows _ _ next (Nat.le_refl _) closed nextLeft
        exact ⟨_, final, .container spaced spells othersSpaced, by simp, finish⟩
  | @lone keyed first middle last allowed opened between closed =>
      intro _ text rest clear follows left
      rw [List.cons_append, List.append_assoc, List.cons_append, List.append_assoc,
        List.cons_append] at left
      obtain ⟨behind, rfl, behindLeft⟩ := stripped_clear clear left
      rw [if_neg (opening_code keyed).2.1] at behindLeft
      have closingSeen : Text.isWhitespace (closing keyed) = false := by cases keyed <;> decide
      obtain ⟨comments, after, spaced, rfl, afterLeft⟩ :=
        stripped_mark opened (by decide) (by decide) behindLeft
      obtain ⟨inner, next, innerSpaced, rfl, nextLeft⟩ :=
        stripped_mark between closingSeen (closing_code keyed).2.1 afterLeft
      obtain ⟨others, final, othersSpaced, rfl, ready, _⟩ :=
        stripped_gap follows _ _ next (Nat.le_refl _) closed nextLeft
      exact ⟨_, final, .lone trivial spaced innerSpaced othersSpaced, by simp, ready⟩
  | @nothing keyed => exact fun some => absurd rfl (some keyed)
  | @last keyed key value before spelled token whole ih =>
      intro _ text rest clear follows left
      rw [List.append_assoc] at left
      have plain : ∀ other, Node.value value ≠ .entries other [] := fun _ same => by cases same
      obtain ⟨keySpelled, behind, keyToken, rfl, behindClear, behindLeft⟩ :=
        stripped_key token ((visible whole plain).append _) clear left
      obtain ⟨read, final, spells, rfl, ready⟩ := ih plain behind rest behindClear follows behindLeft
      exact ⟨_, final, .last keyToken spells, (List.append_assoc _ _ _).symm, ready⟩
  | @more keyed key value entries before spelled gap tail allowed token whole after others ih rest_ih =>
      intro _ text rest clear follows left
      rw [List.append_assoc, List.append_assoc, List.cons_append, List.append_assoc] at left
      have plain : ∀ other, Node.value value ≠ .entries other [] := fun _ same => by cases same
      obtain ⟨keySpelled, behind, keyToken, rfl, behindClear, behindLeft⟩ :=
        stripped_key token ((visible whole plain).append _) clear left
      obtain ⟨read, marked, spells, rfl, ready⟩ :=
        ih plain behind _ behindClear (follows_cons (by decide) _) behindLeft
      obtain ⟨next, rfl, nextLeft⟩ := stripped_clear ready.clear.1 ready.clear.2
      rw [if_neg (by decide)] at nextLeft
      by_cases empty : entries = []
      · subst empty
        cases others
        obtain ⟨comments, final, spaced, rfl, finish, _⟩ :=
          stripped_gap follows _ _ next (Nat.le_refl _) after nextLeft
        exact ⟨_, final, .more (.inr trivial) keyToken spells spaced .nothing, by simp, finish⟩
      · have some : ∀ other, Node.entries keyed entries ≠ .entries other [] := by
          rintro other same
          cases same
          exact empty rfl
        obtain ⟨comments, entry, spaced, rfl, entryClear, entryLeft⟩ :=
          stripped_before after ((visible others some).append _) nextLeft
        obtain ⟨othersRead, final, othersSpell, rfl, finish⟩ :=
          rest_ih some entry rest entryClear follows entryLeft
        exact ⟨_, final, .more (.inr trivial) keyToken spells spaced othersSpell, by simp, finish⟩

end ZenithRelay.LocalPool.Profiles.OpenCode
