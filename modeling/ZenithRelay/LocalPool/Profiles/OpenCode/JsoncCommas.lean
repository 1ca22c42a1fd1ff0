import ZenithRelay.LocalPool.Profiles.OpenCode.JsoncComments

/-!
# The pass over trailing commas

What it leaves of a text with commas before brackets is plain JSON, and whatever plain
JSON is left was read from such a text.
-/

set_option autoImplicit false

namespace ZenithRelay.LocalPool.Profiles.OpenCode

open Json

/-! ### The second pass -/

theorem dropTrailingCommas_code {ch : Char} (unquoted : ch ≠ '"') (kept : ch ≠ ',')
    (rest : List Char) :
    dropTrailingCommas .code (ch :: rest) = ch :: dropTrailingCommas .code rest := by
  rw [dropTrailingCommas, if_neg (fun both => kept both.1), if_neg unquoted]

private theorem dropTrailingCommas_body {body : List Char} (lexed : Body body) (rest : List Char) :
    dropTrailingCommas .string (body ++ '"' :: rest) =
      body ++ '"' :: dropTrailingCommas .code rest := by
  induction lexed with
  | nil => rfl
  | plain unquoted unescaped _ ih =>
      rw [List.cons_append, dropTrailingCommas, if_neg unescaped, if_neg unquoted, ih]
      rfl
  | escape _ ih =>
      rw [List.cons_append, List.cons_append, dropTrailingCommas, if_pos rfl, dropTrailingCommas, ih]
      rfl

theorem dropTrailingCommas_string {text : String} {spelled : List Char}
    (token : StringToken text spelled) (rest : List Char) :
    dropTrailingCommas .code (spelled ++ rest) = spelled ++ dropTrailingCommas .code rest := by
  obtain ⟨body, decoded, lexed, _, _, rfl⟩ := token
  have shape : ('"' :: (body ++ ['"'])) ++ rest = '"' :: (body ++ '"' :: rest) := by simp
  have quote : ¬('"' = ',' ∧ closesNext (body ++ '"' :: rest) = true) :=
    fun both => absurd both.1 (by decide)
  rw [shape, dropTrailingCommas, if_neg quote, if_pos rfl, dropTrailingCommas_body lexed]
  simp

theorem dropTrailingCommas_blanks {blanks : List Char} (all : blanks.all isBlank = true)
    (rest : List Char) :
    dropTrailingCommas .code (blanks ++ rest) = blanks ++ dropTrailingCommas .code rest := by
  induction blanks with
  | nil => rfl
  | cons character blanks ih =>
      obtain ⟨blank, others⟩ := Bool.and_eq_true_iff.mp (List.all_cons ▸ all)
      have code : character ≠ '"' ∧ character ≠ ',' := by
        rcases isBlank_cases blank with rfl | rfl | rfl | rfl <;> decide
      rw [List.cons_append, dropTrailingCommas_code code.1 code.2, ih others]
      rfl

private theorem dropTrailingCommas_scalar {token : List Char} (scalar : token.all isScalarChar = true)
    (rest : List Char) :
    dropTrailingCommas .code (token ++ rest) = token ++ dropTrailingCommas .code rest := by
  induction token with
  | nil => rfl
  | cons character token ih =>
      obtain ⟨own, others⟩ := Bool.and_eq_true_iff.mp (List.all_cons ▸ scalar)
      rw [List.cons_append, dropTrailingCommas_code (scalar_ne own (by decide))
        (scalar_ne own (by decide)), ih others]
      rfl

theorem closesNext_blanks {blanks : List Char} (all : blanks.all isBlank = true)
    (rest : List Char) : closesNext (blanks ++ rest) = closesNext rest := by
  unfold closesNext
  rw [List.dropWhile_append_of_pos]
  exact fun character member => isBlank_space (List.all_eq_true.mp all character member)

theorem closesNext_closing (keyed : Bool) (rest : List Char) :
    closesNext (closing keyed :: rest) = true := by
  cases keyed <;> rfl

private theorem closesNext_visible {text : List Char} (visible : Visible text) : closesNext text = false := by
  obtain ⟨character, rest, rfl, seen, inner⟩ := visible
  unfold closesNext
  rw [List.dropWhile_cons_of_neg (by simp [seen])]
  split
  next same => exact absurd (List.cons.inj same).1 (inner true)
  next same => exact absurd (List.cons.inj same).1 (inner false)
  next => rfl

theorem blanks_joined (first second : List Char) (leading : first.all isBlank = true)
    (trailing : second.all isBlank = true) : (first ++ second).all isBlank = true := by
  rw [List.all_append, leading, trailing]
  rfl

private theorem dropTrailingCommas_kept {text : List Char} (inside : closesNext text = false) :
    dropTrailingCommas .code (',' :: text) = ',' :: dropTrailingCommas .code text := by
  have kept : ¬(',' = ',' ∧ closesNext text = true) := fun both => by simp [inside] at both
  rw [dropTrailingCommas, if_neg kept, if_neg (by decide)]

theorem dropTrailingCommas_dropped {text : List Char} (closes : closesNext text = true) :
    dropTrailingCommas .code (',' :: text) = dropTrailingCommas .code text := by
  rw [dropTrailingCommas, if_pos ⟨rfl, closes⟩]

theorem dropTrailingCommas_closing (keyed : Bool) (rest : List Char) :
    dropTrailingCommas .code (closing keyed :: rest) =
      closing keyed :: dropTrailingCommas .code rest :=
  dropTrailingCommas_code (closing_code keyed).2.1 (closing_code keyed).2.2 rest

theorem dropTrailingCommas_opening (keyed : Bool) (rest : List Char) :
    dropTrailingCommas .code (opening keyed :: rest) =
      opening keyed :: dropTrailingCommas .code rest :=
  dropTrailingCommas_code (opening_code keyed).2.1 (opening_code keyed).2.2 rest

theorem dropTrailingCommas_key {keyed : Bool} {key : String} {before : List Char}
    (token : KeyToken strictDialect keyed key before) (rest : List Char) :
    dropTrailingCommas .code (before ++ rest) = before ++ dropTrailingCommas .code rest := by
  cases keyed with
  | false =>
      obtain ⟨_, rfl⟩ := token
      rfl
  | true =>
      obtain ⟨quoted, leading, trailing, string, first, second, rfl⟩ := token
      rw [List.append_assoc, List.append_assoc, List.cons_append, dropTrailingCommas_string string,
        dropTrailingCommas_blanks first, dropTrailingCommas_code (by decide) (by decide),
        dropTrailingCommas_blanks second]
      simp

/-- The second pass turns a reading with commas too many into plain JSON. -/
theorem dropTrailingCommas_spelled {node : Node} {spelled : List Char}
    (spells : Spells commaDialect node spelled) :
    match node with
    | .value value => ∃ left, Spells strictDialect (.value value) left ∧
        ∀ rest, dropTrailingCommas .code (spelled ++ rest) =
          left ++ dropTrailingCommas .code rest
    | .entries keyed entries => ∃ left, Spells strictDialect (.entries keyed entries) left ∧
        ∀ rest, dropTrailingCommas .code (spelled ++ closing keyed :: rest) =
          left ++ closing keyed :: dropTrailingCommas .code rest := by
  induction spells with
  | @scalar value token gap scalar after =>
      refine ⟨_, .scalar scalar after, fun rest => ?_⟩
      rw [List.append_assoc, dropTrailingCommas_scalar (scalarValue_scalar scalar).1,
        dropTrailingCommas_blanks after, List.append_assoc]
  | string token after =>
      refine ⟨_, .string token after, fun rest => ?_⟩
      rw [List.append_assoc, dropTrailingCommas_string token, dropTrailingCommas_blanks after,
        List.append_assoc]
  | @container keyed _ _ _ _ opened _ closed ih =>
      obtain ⟨left, spells, read⟩ := ih
      refine ⟨_, .container opened spells closed, fun rest => ?_⟩
      rw [List.cons_append, List.append_assoc, List.append_assoc, List.cons_append,
        dropTrailingCommas_opening, dropTrailingCommas_blanks opened, read,
        dropTrailingCommas_blanks closed]
      simp
  | @lone keyed first middle last _ opened between closed =>
      refine ⟨_, .container (blanks_joined _ _ opened between) .nothing closed, fun rest => ?_⟩
      have closes : closesNext (middle ++ closing keyed :: (last ++ rest)) = true :=
        (closesNext_blanks between _).trans (closesNext_closing keyed _)
      rw [List.cons_append, List.append_assoc, List.cons_append, List.append_assoc,
        List.cons_append, dropTrailingCommas_opening, dropTrailingCommas_blanks opened,
        dropTrailingCommas_dropped closes, dropTrailingCommas_blanks between,
        dropTrailingCommas_closing, dropTrailingCommas_blanks closed]
      simp
  | nothing => exact ⟨[], .nothing, fun rest => dropTrailingCommas_closing _ rest⟩
  | last token _ ih =>
      obtain ⟨left, spells, read⟩ := ih
      refine ⟨_, .last token spells, fun rest => ?_⟩
      rw [List.append_assoc, dropTrailingCommas_key token, read, dropTrailingCommas_closing,
        List.append_assoc]
  | @more keyed key value entries before spelled gap tail _ token _ after others ih rest_ih =>
      obtain ⟨left, spells, read⟩ := ih
      by_cases single : entries = []
      · subst single
        cases others
        refine ⟨_, .last token (spells.append_gap blanks_joined after), fun rest => ?_⟩
        have closes : closesNext (gap ++ closing keyed :: rest) = true :=
          (closesNext_blanks after _).trans (closesNext_closing keyed _)
        have shape : before ++ (spelled ++ ',' :: (gap ++ [])) ++ closing keyed :: rest =
            before ++ (spelled ++ ',' :: (gap ++ closing keyed :: rest)) := by simp
        rw [shape, dropTrailingCommas_key token, read, dropTrailingCommas_dropped closes,
          dropTrailingCommas_blanks after, dropTrailingCommas_closing]
        simp
      · obtain ⟨others_left, othersSpell, othersRead⟩ := rest_ih
        refine ⟨_, .more (.inl single) token spells after othersSpell, fun rest => ?_⟩
        have shown := visible_spelled commaDialect scalarValue_visible others
        have inside : closesNext (gap ++ (tail ++ closing keyed :: rest)) = false :=
          (closesNext_blanks after _).trans (closesNext_visible ((shown single).append _))
        have shape : before ++ (spelled ++ ',' :: (gap ++ tail)) ++ closing keyed :: rest =
            before ++ (spelled ++ ',' :: (gap ++ (tail ++ closing keyed :: rest))) := by simp
        rw [shape, dropTrailingCommas_key token, read, dropTrailingCommas_kept inside,
          dropTrailingCommas_blanks after, othersRead]
        simp

/-! ### What the second pass has read -/

/-- No comma to drop comes first. -/
def Direct (text : List Char) : Prop := ∀ rest, text = ',' :: rest → closesNext rest = false

/-- The first character written was the first one read. -/
theorem dropTrailingCommas_direct {text rest : List Char} {character : Char} (direct : Direct text)
    (left : dropTrailingCommas .code text = character :: rest) :
    ∃ after, text = character :: after ∧
      dropTrailingCommas (if character = '"' then .string else .code) after = rest := by
  cases text with
  | nil => cases left
  | cons first after =>
      rw [dropTrailingCommas] at left
      split at left
      next dropped =>
        obtain ⟨rfl, closes⟩ := dropped
        rw [direct after rfl] at closes
        cases closes
      next =>
        obtain ⟨rfl, same⟩ := List.cons.inj left
        exact ⟨after, rfl, same⟩

/-- What a dropped comma stands before is kept as it is. -/
theorem direct_of_closes {text : List Char} (closes : closesNext text = true) :
    Direct text ∧ text ≠ [] := by
  refine ⟨?_, ?_⟩
  · rintro rest rfl
    have kept : closesNext (',' :: rest) = false := rfl
    cases kept.symm.trans closes
  · rintro rfl
    cases closes

private theorem closesNext_follows {text : List Char} (follows : Follows text)
    (closes : closesNext text = true) : ∃ keyed rest, text = closing keyed :: rest := by
  cases text with
  | nil => cases closes
  | cons character rest =>
      unfold closesNext at closes
      rw [List.dropWhile_cons_of_neg (by simp [follows character rest rfl])] at closes
      split at closes
      next same => exact ⟨true, _, same⟩
      next same => exact ⟨false, _, same⟩
      next => cases closes

theorem not_direct {text : List Char} (dropped : ¬Direct text) :
    ∃ rest, text = ',' :: rest ∧ closesNext rest = true := by
  by_contra none
  refine dropped fun rest same => ?_
  by_contra closes
  exact none ⟨rest, same, by simpa using closes⟩

/-- What is left of a text that closes starts with the bracket. -/
theorem closing_left {text rest : List Char} (closes : closesNext text = true)
    (left : dropTrailingCommas .code text = rest) (follows : Follows rest) :
    ∃ keyed more, rest = closing keyed :: more := by
  obtain ⟨direct, some⟩ := direct_of_closes closes
  obtain ⟨character, after, rfl⟩ := List.exists_cons_of_ne_nil some
  have kept : ¬(character = ',' ∧ closesNext after = true) := by
    rintro ⟨rfl, further⟩
    rw [direct after rfl] at further
    cases further
  rw [dropTrailingCommas, if_neg kept] at left
  obtain ⟨keyed, _, same⟩ := closesNext_follows
    (follows_cons (follows character _ left.symm) after) closes
  obtain ⟨rfl, _⟩ := List.cons.inj same
  exact ⟨keyed, _, left.symm⟩

/-- Blanks that are left were read as they are, or with one dropped comma among them. -/
theorem dropped_blanks {gap rest : List Char} (all : gap.all isBlank = true)
    (follows : Follows rest) {text : List Char}
    (left : dropTrailingCommas .code text = gap ++ rest) :
    ∃ after, Direct after ∧ dropTrailingCommas .code after = rest ∧
      (text = gap ++ after ∨ ∃ first second keyed more, gap = first ++ second ∧
        text = first ++ ',' :: (second ++ after) ∧ rest = closing keyed :: more) := by
  induction gap generalizing text with
  | nil =>
      by_cases direct : Direct text
      · exact ⟨text, direct, left, .inl rfl⟩
      · obtain ⟨after, rfl, closes⟩ := not_direct direct
        rw [dropTrailingCommas_dropped closes] at left
        obtain ⟨keyed, more, same⟩ := closing_left closes left follows
        exact ⟨after, (direct_of_closes closes).1, left,
          .inr ⟨[], [], keyed, more, rfl, rfl, same⟩⟩
  | cons character gap ih =>
      obtain ⟨blank, others⟩ := Bool.and_eq_true_iff.mp (List.all_cons ▸ all)
      have code : character ≠ '"' := by
        rcases isBlank_cases blank with rfl | rfl | rfl | rfl <;> decide
      by_cases direct : Direct text
      · obtain ⟨next, rfl, further⟩ := dropTrailingCommas_direct direct left
        rw [if_neg code] at further
        obtain ⟨after, afterDirect, same, read | ⟨first, second, keyed, more, split, read, closed⟩⟩ :=
          ih others further
        · exact ⟨after, afterDirect, same, .inl (by rw [read]; rfl)⟩
        · refine ⟨after, afterDirect, same, .inr ⟨character :: first, second, keyed, more, ?_, ?_,
            closed⟩⟩
          · rw [split]
            rfl
          · rw [read]
            rfl
      · obtain ⟨body, rfl, closes⟩ := not_direct direct
        rw [dropTrailingCommas_dropped closes] at left
        obtain ⟨next, rfl, further⟩ :=
          dropTrailingCommas_direct (direct_of_closes closes).1 left
        rw [if_neg code] at further
        obtain ⟨after, afterDirect, same, read | ⟨first, second, _, _, split, read, _⟩⟩ :=
          ih others further
        · have behind : closesNext after = true := by
            rw [read, ← List.cons_append, closesNext_blanks all] at closes
            exact closes
          obtain ⟨keyed, more, closed⟩ := closing_left behind same follows
          exact ⟨after, afterDirect, same, .inr ⟨[], character :: gap, keyed, more, rfl,
            by rw [read]; rfl, closed⟩⟩
        · -- Only one comma can stand before the bracket.
          have leading : (character :: first).all isBlank = true := by
            rw [split, ← List.cons_append, List.all_append] at all
            exact (Bool.and_eq_true_iff.mp all).1
          rw [read, ← List.cons_append, closesNext_blanks leading] at closes
          cases closes

private theorem dropped_body {body rest : List Char} (lexed : Body body) {text : List Char}
    (left : dropTrailingCommas .string text = body ++ '"' :: rest) :
    ∃ after, text = body ++ '"' :: after ∧ dropTrailingCommas .code after = rest := by
  induction lexed generalizing text with
  | nil =>
      cases text with
      | nil => cases left
      | cons first after =>
          rw [dropTrailingCommas] at left
          obtain ⟨rfl, same⟩ := List.cons.inj left
          exact ⟨after, rfl, same⟩
  | plain unquoted unescaped _ ih =>
      cases text with
      | nil => cases left
      | cons first after =>
          rw [dropTrailingCommas] at left
          obtain ⟨rfl, same⟩ := List.cons.inj left
          rw [if_neg unescaped, if_neg unquoted] at same
          obtain ⟨behind, rfl, read⟩ := ih same
          exact ⟨behind, rfl, read⟩
  | escape _ ih =>
      cases text with
      | nil => cases left
      | cons first after =>
          rw [dropTrailingCommas] at left
          obtain ⟨rfl, same⟩ := List.cons.inj left
          rw [if_pos rfl] at same
          cases after with
          | nil => cases same
          | cons second after =>
              rw [dropTrailingCommas] at same
              obtain ⟨rfl, further⟩ := List.cons.inj same
              obtain ⟨behind, rfl, read⟩ := ih further
              exact ⟨behind, rfl, read⟩

theorem dropped_string {text spelled rest : List Char} {value : String}
    (token : StringToken value spelled) (direct : Direct text)
    (left : dropTrailingCommas .code text = spelled ++ rest) :
    ∃ after, text = spelled ++ after ∧ dropTrailingCommas .code after = rest := by
  obtain ⟨body, decoded, lexed, _, _, rfl⟩ := token
  have shape : ('"' :: (body ++ ['"'])) ++ rest = '"' :: (body ++ '"' :: rest) := by simp
  rw [shape] at left
  obtain ⟨inner, rfl, further⟩ := dropTrailingCommas_direct direct left
  rw [if_pos rfl] at further
  obtain ⟨after, rfl, read⟩ := dropped_body lexed further
  exact ⟨after, by simp, read⟩

private theorem dropped_scalar {token rest : List Char} (scalar : token.all isScalarChar = true)
    (some : token ≠ []) {text : List Char} (direct : Direct text)
    (left : dropTrailingCommas .code text = token ++ rest) :
    ∃ after, text = token ++ after ∧ dropTrailingCommas .code after = rest := by
  induction token generalizing text with
  | nil => exact absurd rfl some
  | cons character token ih =>
      obtain ⟨own, others⟩ := Bool.and_eq_true_iff.mp (List.all_cons ▸ scalar)
      obtain ⟨next, rfl, further⟩ := dropTrailingCommas_direct direct left
      rw [if_neg (scalar_ne own (by decide))] at further
      by_cases last : token = []
      · subst last
        exact ⟨next, rfl, further⟩
      · have inside : Direct next := by
          rintro body rfl
          by_contra closes
          rw [Bool.not_eq_false] at closes
          rw [dropTrailingCommas_dropped closes] at further
          obtain ⟨first, token, rfl⟩ := List.exists_cons_of_ne_nil last
          have firstScalar := (Bool.and_eq_true_iff.mp (List.all_cons ▸ others)).1
          obtain ⟨keyed, more, same⟩ := closing_left closes further
            (follows_cons (isScalarChar_visible firstScalar) _)
          obtain ⟨rfl, _⟩ := List.cons.inj same
          cases keyed <;> exact absurd firstScalar (by decide)
        obtain ⟨after, rfl, read⟩ := ih others last inside further
        exact ⟨after, rfl, read⟩

private theorem Visible.not_closing {rest more : List Char} {keyed : Bool} (visible : Visible rest) :
    rest ≠ closing keyed :: more := by
  rintro rfl
  obtain ⟨_, _, same, _, inner⟩ := visible
  exact inner keyed (List.cons.inj same).1.symm

theorem dropped_gap {gap rest : List Char} (all : gap.all isBlank = true) (visible : Visible rest)
    {text : List Char} (left : dropTrailingCommas .code text = gap ++ rest) :
    ∃ after, Direct after ∧ dropTrailingCommas .code after = rest ∧ text = gap ++ after := by
  obtain ⟨after, direct, read, same | ⟨_, _, _, _, _, _, closed⟩⟩ :=
    dropped_blanks all visible.follows left
  · exact ⟨after, direct, read, same⟩
  · exact absurd closed visible.not_closing

theorem dropped_key {keyed : Bool} {key : String} {before rest text : List Char}
    (token : KeyToken strictDialect keyed key before) (visible : Visible rest)
    (direct : Direct text) (left : dropTrailingCommas .code text = before ++ rest) :
    ∃ after, text = before ++ after ∧ Direct after ∧ dropTrailingCommas .code after = rest := by
  cases keyed with
  | false =>
      obtain ⟨_, rfl⟩ := token
      exact ⟨text, rfl, direct, left⟩
  | true =>
      obtain ⟨quoted, leading, trailing, string, first, second, rfl⟩ := token
      rw [List.append_assoc, List.append_assoc, List.cons_append] at left
      obtain ⟨behind, rfl, further⟩ := dropped_string string direct left
      have colon : Visible (':' :: (trailing ++ rest)) := ⟨':', _, rfl, by decide, by decide⟩
      obtain ⟨marked, markedDirect, markedLeft, rfl⟩ := dropped_gap first colon further
      obtain ⟨behind, rfl, behindLeft⟩ := dropTrailingCommas_direct markedDirect markedLeft
      rw [if_neg (by decide)] at behindLeft
      obtain ⟨after, afterDirect, read, rfl⟩ := dropped_gap second visible behindLeft
      exact ⟨after, by simp, afterDirect, read⟩

/-- How a value that is left was read: with its blanks, and perhaps with a dropped
comma among them where a bracket follows. -/
def ReadValue (value : Json) (text rest : List Char) : Prop :=
  ∃ spelled after, Spells commaDialect (.value value) spelled ∧ Direct after ∧
    dropTrailingCommas .code after = rest ∧
      (text = spelled ++ after ∨ ∃ gap keyed more, gap.all isBlank = true ∧
        text = spelled ++ ',' :: (gap ++ after) ∧ rest = closing keyed :: more)

theorem readValue_of_token {value : Json} {token gap text rest : List Char}
    (whole : ∀ gap : List Char, gap.all isBlank = true →
      Spells commaDialect (.value value) (token ++ gap))
    (all : gap.all isBlank = true) (follows : Follows rest)
    (left : dropTrailingCommas .code text = gap ++ rest) : ReadValue value (token ++ text) rest := by
  obtain ⟨after, direct, read, rfl | ⟨first, second, keyed, more, rfl, rfl, closed⟩⟩ :=
    dropped_blanks all follows left
  · exact ⟨token ++ gap, after, whole gap all, direct, read, .inl (List.append_assoc _ _ _).symm⟩
  · rw [List.all_append, Bool.and_eq_true] at all
    refine ⟨token ++ first, after, whole first all.1, direct, read,
      .inr ⟨second, keyed, more, all.2, ?_, closed⟩⟩
    rw [List.append_assoc]

/-- Whatever the second pass leaves of the strict grammar was spelled with commas. -/
theorem dropped_spelled {node : Node} {left : List Char} (spells : Spells strictDialect node left) :
    match node with
    | .value value => ∀ text rest, Direct text → Follows rest →
        dropTrailingCommas .code text = left ++ rest → ReadValue value text rest
    | .entries keyed entries => entries ≠ [] → ∀ text rest, Direct text →
        dropTrailingCommas .code text = left ++ closing keyed :: rest →
        ∃ spelled after, Spells commaDialect (.entries keyed entries) spelled ∧
          text = spelled ++ closing keyed :: after ∧ dropTrailingCommas .code after = rest := by
  induction spells with
  | scalar token after =>
      intro text rest direct follows left
      rw [List.append_assoc] at left
      obtain ⟨all, some⟩ := scalarValue_scalar token
      obtain ⟨behind, rfl, further⟩ := dropped_scalar all some direct left
      exact readValue_of_token (fun gap blank => .scalar token blank) after follows further
  | string token after =>
      intro text rest direct follows left
      rw [List.append_assoc] at left
      obtain ⟨behind, rfl, further⟩ := dropped_string token direct left
      exact readValue_of_token (fun gap blank => .string token blank) after follows further
  | @container keyed entries first inner last opened inside closed ih =>
      intro text rest direct follows left
      rw [List.cons_append, List.append_assoc, List.append_assoc, List.cons_append] at left
      obtain ⟨behind, rfl, further⟩ := dropTrailingCommas_direct direct left
      rw [if_neg (opening_code keyed).2.1] at further
      by_cases empty : entries = []
      · subst empty
        cases inside
        obtain ⟨marked, markedDirect, markedLeft, split⟩ :=
          dropped_blanks opened (follows_closing keyed _) further
        obtain ⟨after, rfl, afterLeft⟩ := dropTrailingCommas_direct markedDirect markedLeft
        rw [if_neg (closing_code keyed).2.1] at afterLeft
        rcases split with rfl | ⟨leading, trailing, _, _, rfl, rfl, _⟩
        · have shape : opening keyed :: (first ++ closing keyed :: after) =
              opening keyed :: (first ++ ([] ++ [closing keyed])) ++ after := by simp
          rw [shape]
          refine readValue_of_token (fun gap blank => ?_) closed follows afterLeft
          have whole : Spells commaDialect (.value (container keyed [])) _ :=
            .container opened .nothing blank
          simpa using whole
        · have parts : leading.all isBlank = true ∧ trailing.all isBlank = true := by
            have whole : (leading ++ trailing).all isBlank = true := opened
            rwa [List.all_append, Bool.and_eq_true] at whole
          have shape : opening keyed :: (leading ++ ',' :: (trailing ++ closing keyed :: after)) =
              opening keyed :: (leading ++ ',' :: (trailing ++ [closing keyed])) ++ after := by simp
          rw [shape]
          refine readValue_of_token (fun gap blank => ?_) closed follows afterLeft
          have whole : Spells commaDialect (.value (container keyed [])) _ :=
            .lone trivial parts.1 parts.2 blank
          simpa using whole
      · have shown := (visible_spelled strictDialect scalarValue_visible inside) empty
        obtain ⟨marked, markedDirect, markedLeft, rfl⟩ :=
          dropped_gap opened (shown.append (closing keyed :: (last ++ rest))) further
        obtain ⟨spelled, after, spells, rfl, afterLeft⟩ := ih empty marked _ markedDirect markedLeft
        have shape : opening keyed :: (first ++ (spelled ++ closing keyed :: after)) =
            opening keyed :: (first ++ (spelled ++ [closing keyed])) ++ after := by simp
        rw [shape]
        refine readValue_of_token (fun gap blank => ?_) closed follows afterLeft
        have whole : Spells commaDialect (.value (container keyed entries)) _ :=
          .container opened spells blank
        simpa using whole
  | lone allowed => exact allowed.elim
  | nothing => exact fun some => absurd rfl some
  | @last keyed key value before spelled token whole ih =>
      intro _ text rest direct left
      rw [List.append_assoc] at left
      have shown := visible_spelled strictDialect scalarValue_visible whole
      obtain ⟨behind, rfl, behindDirect, further⟩ :=
        dropped_key token (shown.append _) direct left
      obtain ⟨read, marked, spells, markedDirect, markedLeft, split⟩ :=
        ih behind _ behindDirect (follows_closing keyed rest) further
      obtain ⟨after, rfl, afterLeft⟩ := dropTrailingCommas_direct markedDirect markedLeft
      rw [if_neg (closing_code keyed).2.1] at afterLeft
      rcases split with rfl | ⟨gap, _, _, blank, rfl, _⟩
      · exact ⟨before ++ read, after, .last token spells, by simp, afterLeft⟩
      · exact ⟨before ++ (read ++ ',' :: (gap ++ [])), after,
          .more (.inr trivial) token spells blank .nothing, by simp, afterLeft⟩
  | @more keyed key value entries before spelled gap tail allowed token whole after others ih rest_ih =>
      intro _ text rest direct left
      have several : entries ≠ [] := allowed.resolve_right id
      have shape : before ++ (spelled ++ ',' :: (gap ++ tail)) ++ closing keyed :: rest =
          before ++ (spelled ++ ',' :: (gap ++ (tail ++ closing keyed :: rest))) := by simp
      rw [shape] at left
      have shown := visible_spelled strictDialect scalarValue_visible whole
      have othersShown :=
        (visible_spelled strictDialect scalarValue_visible others) several
      obtain ⟨behind, rfl, behindDirect, further⟩ :=
        dropped_key token (shown.append _) direct left
      obtain ⟨read, marked, spells, markedDirect, markedLeft, split⟩ :=
        ih behind _ behindDirect (follows_cons (by decide) _) further
      obtain ⟨next, rfl, nextLeft⟩ := dropTrailingCommas_direct markedDirect markedLeft
      rw [if_neg (by decide)] at nextLeft
      obtain ⟨entry, entryDirect, entryLeft, rfl⟩ :=
        dropped_gap after (othersShown.append _) nextLeft
      obtain ⟨othersRead, final, othersSpell, rfl, finish⟩ :=
        rest_ih several entry rest entryDirect entryLeft
      rcases split with rfl | ⟨_, closer, _, _, _, closed⟩
      · exact ⟨before ++ (read ++ ',' :: (gap ++ othersRead)), final,
          .more (.inr trivial) token spells after othersSpell, by simp, finish⟩
      · obtain ⟨same, _⟩ := List.cons.inj closed
        cases closer <;> exact absurd same (by decide)

end ZenithRelay.LocalPool.Profiles.OpenCode
