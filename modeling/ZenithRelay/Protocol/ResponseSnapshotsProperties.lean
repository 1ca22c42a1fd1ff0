import ZenithRelay.Protocol.ResponseSnapshots

/-!
# Nothing but ciphertext is restored

The items of the terminal output stay in place; a reasoning item may get the ciphertext
of a completed one that is matched with it.
-/

set_option autoImplicit false

namespace ZenithRelay.Protocol.ResponseSnapshots

/-- The item as it was, or with another ciphertext. -/
def Reciphered (item restored : Json) : Prop :=
  restored = item ∨ ∃ fields cipher, item = .object fields ∧
    restored = .object (Json.insert fields "encrypted_content" (.string cipher))

private theorem insert_insert (fields : List (String × Json)) (key : String) (first second : Json) :
    Json.insert (Json.insert fields key first) key second = Json.insert fields key second := by
  have present : ∀ fields : List (String × Json), fields.any (·.1 == key) = true →
      Json.insert fields key second = fields.map fun entry =>
        if entry.1 == key then (key, second) else entry :=
    fun fields found => if_pos found
  by_cases found : fields.any (·.1 == key) = true
  · have after : (Json.insert fields key first).any (·.1 == key) = true := by
      rw [Json.insert, if_pos found, List.any_map]
      obtain ⟨entry, member, own⟩ := List.any_eq_true.mp found
      have own : entry.1 = key := beq_iff_eq.mp own
      exact List.any_eq_true.mpr ⟨entry, member, by simp [own]⟩
    rw [present _ after, present _ found, Json.insert, if_pos found, List.map_map]
    refine List.map_congr_left fun entry _ => ?_
    by_cases own : entry.1 = key <;> simp [own]
  · have after : (Json.insert fields key first).any (·.1 == key) = true := by
      rw [Json.insert, if_neg found]
      simp
    rw [present _ after, Json.insert, if_neg found, Json.insert, if_neg found, List.map_append]
    congr 1
    · conv_rhs => rw [← List.map_id fields]
      refine List.map_congr_left fun entry member => ?_
      have other : ¬(entry.1 == key) = true := fun own =>
        found (List.any_eq_true.mpr ⟨entry, member, own⟩)
      simp [other]
    · simp

theorem Reciphered.get {item restored : Json} (reciphered : Reciphered item restored)
    {key : String} (other : key ≠ "encrypted_content") : restored.get key = item.get key := by
  rcases reciphered with rfl | ⟨fields, cipher, rfl, rfl⟩
  · rfl
  · exact (Json.field_insert ..).trans (if_neg other)

theorem Reciphered.isReasoning {item restored : Json} (reciphered : Reciphered item restored) :
    isReasoning restored = isReasoning item := by
  unfold ResponseSnapshots.isReasoning
  rw [reciphered.get (by decide)]

theorem isObject_of_isReasoning {item : Json} (reasoning : isReasoning item = true) :
    ∃ fields, item = .object fields := by
  cases item with
  | object fields => exact ⟨fields, rfl⟩
  | _ => simp [isReasoning, Json.get] at reasoning

/-- Restoring again exchanges the ciphertext. -/
theorem Reciphered.putField {item restored : Json} (reciphered : Reciphered item restored)
    (reasoning : ResponseSnapshots.isReasoning item = true) (cipher : String) :
    Reciphered item (putField restored "encrypted_content" (.string cipher)) := by
  rcases reciphered with rfl | ⟨fields, earlier, rfl, rfl⟩
  · obtain ⟨fields, rfl⟩ := isObject_of_isReasoning reasoning
    exact .inr ⟨fields, cipher, rfl, rfl⟩
  · refine .inr ⟨fields, cipher, rfl, ?_⟩
    rw [ResponseSnapshots.putField, insert_insert]

private theorem ciphertext_putField {item : Json} (reasoning : isReasoning item = true) (cipher : String) :
    ciphertext (putField item "encrypted_content" (.string cipher)) = some cipher := by
  obtain ⟨fields, rfl⟩ := isObject_of_isReasoning reasoning
  have put : (putField (.object fields) "encrypted_content" (.string cipher)).get
      "encrypted_content" = some (.string cipher) := (Json.field_insert ..).trans (if_pos rfl)
  rw [ciphertext, put]
  rfl

/-- Where an item is placed depends on the ids of the output only. -/
private theorem position_congr {first second : List Json} (length : first.length = second.length)
    (ids : ∀ place : Nat, first[place]?.bind (·.get "id") = second[place]?.bind (·.get "id"))
    (index : Option Nat) (item : Json) : position index item first = position index item second := by
  unfold position positionsOf
  simp only [length, ids]

/-- What a completed item does to the output. -/
private theorem retainItem_spec {output restored : List Json} {completed : Option Nat × Json}
    (retained : retainItem output completed = .ok restored) :
    ((isReasoning completed.2 && (ciphertext completed.2).isSome) = false ∧ restored = output) ∨
      ∃ place cipher terminal item, isReasoning completed.2 = true ∧
        ciphertext completed.2 = some cipher ∧
        position completed.1 completed.2 output = .ok place ∧ output[place]? = some terminal ∧
        isReasoning terminal = true ∧ restored = output.set place item ∧
        (item = terminal ∧ ciphertext terminal = some cipher ∨
          item = putField terminal "encrypted_content" (.string cipher)) := by
  obtain ⟨index, item⟩ := completed
  unfold retainItem at retained
  dsimp only at retained ⊢
  split at retained
  next bare =>
    refine .inl ⟨?_, (Except.ok.inj retained).symm⟩
    rcases bare with other | none
    · rw [other, Bool.false_and]
    · rw [none, Option.isSome_none, Bool.and_false]
  next bears =>
    obtain ⟨reasoning, bears⟩ := not_or.mp bears
    have reasoning := Bool.not_eq_false _ ▸ reasoning
    obtain ⟨cipher, isCipher⟩ := Option.ne_none_iff_exists'.mp bears
    right
    cases placed : position index item output with
    | error parameter =>
        rw [placed] at retained
        cases retained
    | ok place =>
        rw [placed] at retained
        simp only [bind, Except.bind] at retained
        cases there : output[place]? with
        | none =>
            rw [there] at retained
            cases retained
        | some terminal =>
            rw [there] at retained
            dsimp only at retained
            split at retained
            · cases retained
            next fits =>
              have terminalReasoning : isReasoning terminal = true :=
                Bool.not_eq_false _ ▸ (not_or.mp fits).1
              unfold retainCompletedReasoning at retained
              rw [if_neg (by simp [reasoning, terminalReasoning]), isCipher] at retained
              dsimp only at retained
              split at retained
              · cases retained
              next ciphered =>
                cases retained
                split at ciphered
                · cases ciphered
                split at ciphered
                next same =>
                  cases ciphered
                  exact ⟨place, cipher, terminal, terminal, reasoning, isCipher, rfl, there,
                    terminalReasoning, rfl, .inl ⟨rfl, same⟩⟩
                · cases ciphered
                  exact ⟨place, cipher, terminal, _, reasoning, isCipher, rfl, there,
                    terminalReasoning, rfl, .inr rfl⟩

/-- The completed item whose ciphertext the place of the output gets. -/
def restoring (completed : List (Option Nat × Json)) (output : List Json) (place : Nat) :
    Option (Option Nat × Json) :=
  (completed.filter fun entry => (isReasoning entry.2 && (ciphertext entry.2).isSome) &&
    (position entry.1 entry.2 output).toOption == some place).getLast?

theorem restoring_concat (completed : List (Option Nat × Json)) (entry : Option Nat × Json)
    (output : List Json) (place : Nat) : restoring (completed ++ [entry]) output place =
      if ((isReasoning entry.2 && (ciphertext entry.2).isSome) &&
        (position entry.1 entry.2 output).toOption == some place) = true then some entry
      else restoring completed output place := by
  rw [restoring, List.filter_append]
  simp only [List.filter_cons, List.filter_nil]
  split
  · exact List.getLast?_concat
  · rw [List.append_nil, restoring]

/-- The output keeps its items; each may get the ciphertext of the last completed item
that is matched with it. -/
theorem retainCompletedReasoningItems_spec {completed : List (Option Nat × Json)}
    {output restored : List Json}
    (retained : retainCompletedReasoningItems completed output = .ok restored) :
    restored.length = output.length ∧ ∀ place item, output[place]? = some item →
      ∃ after, restored[place]? = some after ∧ Reciphered item after ∧
        match restoring completed output place with
        | none => after = item
        | some entry => isReasoning item = true ∧ ciphertext after = ciphertext entry.2 := by
  induction completed using List.reverseRecOn generalizing restored with
  | nil =>
      cases retained
      exact ⟨rfl, fun place item there => ⟨item, there, .inl rfl, rfl⟩⟩
  | append_singleton completed entry ih =>
      rw [retainCompletedReasoningItems, List.foldlM_append] at retained
      cases before : completed.foldlM retainItem output with
      | error parameter =>
          rw [before] at retained
          cases retained
      | ok current =>
          rw [before] at retained
          obtain ⟨length, items⟩ := ih before
          have step : retainItem current entry = .ok restored := by
            have step : (retainItem current entry >>= fun next => .ok next) = .ok restored := retained
            cases one : retainItem current entry with
            | error parameter =>
                rw [one] at step
                cases step
            | ok next =>
                rw [one] at step
                exact step
          have placed : position entry.1 entry.2 current = position entry.1 entry.2 output := by
            refine position_congr length (fun place => ?_) _ _
            cases there : output[place]? with
            | none =>
                have absent : current[place]? = none := by
                  rw [List.getElem?_eq_none_iff] at there ⊢
                  omega
                rw [absent]
            | some item =>
                obtain ⟨after, isAfter, reciphered, _⟩ := items place item there
                rw [isAfter]
                exact reciphered.get (by decide)
          rcases retainItem_spec step with ⟨bare, rfl⟩ |
            ⟨place, cipher, terminal, item, reasoning, isCipher, isPlace, there, isTerminal, rfl, holds⟩
          · refine ⟨length, fun place item there => ?_⟩
            obtain ⟨after, isAfter, reciphered, given⟩ := items place item there
            refine ⟨after, isAfter, reciphered, ?_⟩
            rw [restoring_concat, bare, Bool.false_and, if_neg (by decide)]
            exact given
          · refine ⟨(List.length_set ..).trans length, fun other original isOriginal => ?_⟩
            obtain ⟨after, isAfter, reciphered, given⟩ := items other original isOriginal
            rw [restoring_concat, reasoning, isCipher, ← placed, isPlace]
            by_cases own : place = other
            · subst own
              rw [isAfter] at there
              cases there
              rw [if_pos (by simp [Except.toOption])]
              have originalReasoning : isReasoning original = true :=
                reciphered.isReasoning ▸ isTerminal
              refine ⟨item, ?_, ?_, originalReasoning, ?_⟩
              · exact (List.getElem?_set_self (List.getElem?_eq_some_iff.mp isAfter).1)
              · rcases holds with ⟨rfl, _⟩ | rfl
                · exact reciphered
                · exact reciphered.putField originalReasoning cipher
              · rcases holds with ⟨rfl, same⟩ | rfl
                · exact same.trans isCipher.symm
                · exact (ciphertext_putField isTerminal cipher).trans isCipher.symm
            · rw [if_neg (by simp [Except.toOption, own])]
              exact ⟨after, (List.getElem?_set_ne own).trans isAfter, reciphered, given⟩

end ZenithRelay.Protocol.ResponseSnapshots
