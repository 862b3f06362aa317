import Mathlib.Data.List.Induction

/-! Dictionaries that keep their keys in the order in which these were first set. -/
namespace Dictionary

variable {κ α : Type*} [DecidableEq κ]

/-- An item is set where its key is, or else behind the others. -/
def setItem (key : κ) (v : α) : List (κ × α) → List (κ × α)
  | [] => [(key, v)]
  | (k, w) :: d => if k = key then (k, v) :: d else (k, w) :: setItem key v d

/-- The dictionary of these items, set one after the other. -/
def ofItems (items : List (κ × α)) : List (κ × α) :=
  items.foldl (fun d i => setItem i.1 i.2 d) []

theorem keys_setItem (key : κ) (v : α) (d : List (κ × α)) :
    (setItem key v d).map Prod.fst =
      if key ∈ d.map Prod.fst then d.map Prod.fst else d.map Prod.fst ++ [key] := by
  induction d with
  | nil => simp [setItem]
  | cons i d ih =>
    obtain ⟨k, w⟩ := i
    by_cases hk : k = key
    · subst hk
      simp [setItem]
    · have hk' : key ≠ k := fun h => hk h.symm
      simp only [setItem, hk, if_false, List.map_cons, ih, List.mem_cons, hk', false_or]
      split_ifs <;> simp

theorem ofItems_concat (items : List (κ × α)) (i : κ × α) :
    ofItems (items ++ [i]) = setItem i.1 i.2 (ofItems items) := by
  simp [ofItems]

/-- The keys, each at its first place. -/
theorem keys_ofItems (items : List (κ × α)) :
    (ofItems items).map Prod.fst = (items.map Prod.fst).eraseDups := by
  induction items using List.reverseRecOn with
  | nil => rfl
  | append_singleton items i ih =>
    rw [ofItems_concat, keys_setItem, ih, List.map_append, List.eraseDups_append]
    by_cases hi : i.1 ∈ items.map Prod.fst
    · rw [if_pos (List.mem_eraseDups.mpr hi)]
      simp [List.removeAll, hi]
    · rw [if_neg (fun h => hi (List.mem_eraseDups.mp h))]
      simp [List.removeAll, hi, List.eraseDups_cons]

end Dictionary
