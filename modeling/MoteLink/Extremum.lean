/-!
# Extremes of a list

The entry with the largest or the smallest key. Of several, the largest is taken last and the
smallest first.
-/

namespace MoteLink

variable {α : Type}

/-- The last of the entries with the largest key. -/
def lastMax? (key : α → UInt32) : List α → Option α
  | [] => none
  | a :: rest =>
    match lastMax? key rest with
    | none => some a
    | some b => if key a ≤ key b then some b else some a

/-- The first of the entries with the smallest key. -/
def firstMin? (key : α → UInt32) : List α → Option α
  | [] => none
  | a :: rest =>
    match firstMin? key rest with
    | none => some a
    | some b => if key b < key a then some b else some a

theorem lastMax?_eq_none {key : α → UInt32} {l : List α} : lastMax? key l = none ↔ l = [] := by
  cases l with
  | nil => simp [lastMax?]
  | cons a rest =>
    simp only [lastMax?]
    split
    · simp
    · split <;> simp

theorem firstMin?_eq_none {key : α → UInt32} {l : List α} : firstMin? key l = none ↔ l = [] := by
  cases l with
  | nil => simp [firstMin?]
  | cons a rest =>
    simp only [firstMin?]
    split
    · simp
    · split <;> simp

/-- What is found is in the list and no other key is larger. -/
theorem lastMax?_isMax {key : α → UInt32} {l : List α} {m : α} (h : lastMax? key l = some m) :
    m ∈ l ∧ ∀ a ∈ l, key a ≤ key m := by
  induction l generalizing m with
  | nil => simp [lastMax?] at h
  | cons a rest ih =>
    rw [lastMax?] at h
    split at h
    · rename_i none_found
      cases h
      simp [lastMax?_eq_none.mp none_found]
    · rename_i b found
      obtain ⟨mem, max⟩ := ih found
      split at h
      · cases h
        rename_i le
        exact ⟨List.mem_cons_of_mem _ mem, by simpa [le] using max⟩
      · cases h
        rename_i gt
        refine ⟨List.mem_cons_self, ?_⟩
        intro c hc
        rcases List.mem_cons.mp hc with rfl | hc
        · exact UInt32.le_refl _
        · exact UInt32.le_trans (max c hc) (UInt32.le_of_lt (UInt32.not_le.mp gt))

/-- What is found is in the list and no other key is smaller. -/
theorem firstMin?_isMin {key : α → UInt32} {l : List α} {m : α} (h : firstMin? key l = some m) :
    m ∈ l ∧ ∀ a ∈ l, key m ≤ key a := by
  induction l generalizing m with
  | nil => simp [firstMin?] at h
  | cons a rest ih =>
    rw [firstMin?] at h
    split at h
    · rename_i none_found
      cases h
      simp [firstMin?_eq_none.mp none_found]
    · rename_i b found
      obtain ⟨mem, min⟩ := ih found
      split at h
      · cases h
        rename_i lt
        refine ⟨List.mem_cons_of_mem _ mem, ?_⟩
        intro c hc
        rcases List.mem_cons.mp hc with rfl | hc
        · exact UInt32.le_of_lt lt
        · exact min c hc
      · cases h
        rename_i ge
        refine ⟨List.mem_cons_self, ?_⟩
        intro c hc
        rcases List.mem_cons.mp hc with rfl | hc
        · exact UInt32.le_refl _
        · exact UInt32.le_trans (UInt32.not_lt.mp ge) (min c hc)

end MoteLink
