/-!
# Erasing by a swap

An entry is erased from a table by moving the last entry into its place. The other entries stay,
but not in their order.
-/

namespace MoteLink

variable {α : Type}

/-- The list without its entry at `i`, whose place the last entry takes. -/
def swapErase (l : List α) (i : Nat) : List α :=
  match l.getLast? with
  | none => []
  | some last => (l.set i last).dropLast

theorem length_swapErase (l : List α) (i : Nat) : (swapErase l i).length = l.length - 1 := by
  unfold swapErase
  cases l with
  | nil => rfl
  | cons a rest => simp [List.getLast?_cons]

theorem swapErase_concat (init : List α) (last : α) (i : Nat) :
    swapErase (init ++ [last]) i = if i < init.length then init.set i last else init := by
  have found : (init ++ [last]).getLast? = some last := List.getLast?_concat
  simp only [swapErase, found]
  by_cases inner : i < init.length
  · rw [if_pos inner, List.set_append_left _ _ inner, List.dropLast_concat]
  · rw [if_neg inner, List.set_append_right _ _ (Nat.not_lt.mp inner)]
    cases i - init.length <;> simp

/-- Up to their order, the entries that stay are those that would stay in order. -/
theorem swapErase_perm_eraseIdx {l : List α} {i : Nat} (place : i < l.length) :
    (swapErase l i).Perm (l.eraseIdx i) := by
  obtain rfl | ⟨init, last, rfl⟩ := List.eq_nil_or_concat l
  · exact absurd place (Nat.not_lt_zero i)
  rw [List.length_concat] at place
  rw [List.concat_eq_append, swapErase_concat]
  by_cases inner : i < init.length
  · rw [if_pos inner, List.eraseIdx_append_of_lt_length inner, List.set_eq_take_append_cons_drop,
      if_pos inner, List.eraseIdx_eq_take_drop_succ]
    exact List.perm_middle.trans (List.perm_append_singleton last _).symm
  · have final : i = init.length := by omega
    rw [if_neg inner, final, List.eraseIdx_append_of_length_le (Nat.le_refl _), Nat.sub_self,
      List.eraseIdx_zero, List.tail_cons, List.append_nil]

end MoteLink
