import Mathlib

/-!
# Cyclic scans

A scan of an ordered list for the first element after the last one taken, from the
front again when there is none. Successive scans run through the list in a cycle.
-/

set_option autoImplicit false

namespace ZenithRelay.CyclicScan

variable {α : Type} {turns : List α}

/-- `next` follows `current` in the cycle of the list. -/
def Follows (turns : List α) (current next : α) : Prop :=
  ∃ index, turns[index]? = some current ∧ turns[(index + 1) % turns.length]? = some next

/-- The scan of a strictly ordered list for what is after one of its elements. -/
theorem scan_follows {after : α → α → Bool}
    (ordered : turns.Pairwise fun earlier later =>
      after earlier later = true ∧ after later earlier = false)
    (irreflexive : ∀ turn, after turn turn = false) {current next : α}
    (member : current ∈ turns)
    (found : turns[(turns.findIdx? (after current)).getD 0]? = some next) :
    Follows turns current next := by
  obtain ⟨index, bound, own⟩ := List.getElem_of_mem member
  refine ⟨index, List.getElem?_eq_some_iff.mpr ⟨bound, own⟩, ?_⟩
  have later : ∀ other (inside : other < turns.length), index < other →
      after current turns[other] = true := fun other inside less =>
    own ▸ (List.pairwise_iff_getElem.mp ordered index other bound inside less).1
  have earlier : ∀ other (inside : other < turns.length), other ≤ index →
      after current turns[other] = false := by
    intro other inside atMost
    rcases Nat.lt_or_eq_of_le atMost with less | rfl
    · exact own ▸ (List.pairwise_iff_getElem.mp ordered other index inside bound less).2
    · exact own ▸ irreflexive _
  by_cases last : index + 1 < turns.length
  · have scan : turns.findIdx? (after current) = some (index + 1) := by
      rw [List.findIdx?_eq_some_iff_getElem]
      exact ⟨last, later _ last (Nat.lt_succ_self _), fun other less => by
        rw [earlier other (by omega) (by omega)]
        nofun⟩
    rw [scan, Option.getD_some] at found
    rwa [Nat.mod_eq_of_lt last]
  · have scan : turns.findIdx? (after current) = none := by
      rw [List.findIdx?_eq_none_iff]
      intro turn present
      obtain ⟨other, inside, rfl⟩ := List.getElem_of_mem present
      exact earlier other inside (by omega)
    rw [scan, Option.getD_none] at found
    have wraps : index + 1 = turns.length := by omega
    rwa [wraps, Nat.mod_self]

/-- As many successive elements as the list has are the list, rotated. -/
theorem chain_eq_rotate (distinct : turns.Nodup) {window : List α}
    (chain : window.IsChain (Follows turns)) (inside : ∀ turn ∈ window, turn ∈ turns)
    (length : window.length = turns.length) : ∃ offset, window = turns.rotate offset := by
  cases window with
  | nil => exact ⟨0, by simpa [eq_comm] using length⟩
  | cons first rest =>
    obtain ⟨offset, bound, own⟩ := List.getElem_of_mem (inside first (by simp))
    have filled : 0 < turns.length := by omega
    have cycles : ∀ index (within : index < (first :: rest).length),
        (first :: rest)[index] = turns.get ⟨(index + offset) % turns.length, Nat.mod_lt _ filled⟩ := by
      intro index within
      rw [List.get_eq_getElem]
      induction index with
      | zero => simpa [Nat.mod_eq_of_lt bound] using own.symm
      | succ index ih =>
        obtain ⟨place, current, next⟩ := chain.getElem index within
        obtain ⟨placed, current⟩ := List.getElem?_eq_some_iff.mp current
        obtain ⟨follows, next⟩ := List.getElem?_eq_some_iff.mp next
        have same : place = (index + offset) % turns.length :=
          (distinct.getElem_inj_iff).mp (current.trans (ih (by omega)))
        rw [← next]
        congr 1
        rw [same, Nat.mod_add_mod]
        congr 1
        omega
    refine ⟨offset, List.ext_getElem (by rw [List.length_rotate, length]) fun index within _ => ?_⟩
    rw [List.getElem_rotate]
    exact cycles index within

end ZenithRelay.CyclicScan
