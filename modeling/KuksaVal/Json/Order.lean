import KuksaVal.Json.Path

/-! The order of locations: at the first step where two of them part, one goes to the earlier
member. Selections on values with sorted members come in this order. -/
namespace Json

/-- An earlier key of an object, or an earlier index of an array. -/
def Step.Before : Step → Step → Prop
  | .key a, .key b => a < b
  | .index i, .index j => i < j
  | _, _ => False

/-- Where two locations part, the first one goes to the earlier member. -/
def Loc.Before : Loc → Loc → Prop
  | s :: l, t :: m => s.Before t ∨ s = t ∧ Loc.Before l m
  | _, _ => False

theorem Step.not_before_self (s : Step) : ¬ s.Before s := by
  cases s <;> simp [Step.Before]

theorem Loc.before_cons (s : Step) {l m : Loc} : Loc.Before (s :: l) (s :: m) ↔ Loc.Before l m := by
  simp [Loc.Before, Step.not_before_self]

theorem Loc.not_before_self (l : Loc) : ¬ Loc.Before l l := by
  induction l with
  | nil => simp [Loc.Before]
  | cons s l ih => rwa [Loc.before_cons]

/-- What follows after locations have parted does not matter. -/
theorem Loc.Before.append {l m : Loc} (h : Loc.Before l m) (l' m' : Loc) :
    Loc.Before (l ++ l') (m ++ m') := by
  induction l generalizing m with
  | nil => simp [Loc.Before] at h
  | cons s l ih =>
    cases m with
    | nil => simp [Loc.Before] at h
    | cons t m =>
      rcases h with h | ⟨rfl, h⟩
      · exact .inl h
      · exact .inr ⟨rfl, ih h⟩

theorem Loc.before_append_left (l : Loc) {m m' : Loc} :
    Loc.Before (l ++ m) (l ++ m') ↔ Loc.Before m m' := by
  induction l with
  | nil => rfl
  | cons s l ih => rw [List.cons_append, List.cons_append, Loc.before_cons, ih]

/-- Continuations in order of locations in order are in order. -/
theorem pairwise_flatMap_append {ls : List Loc} (h : ls.Pairwise Loc.Before) (f : Loc → List Loc)
    (hf : ∀ l ∈ ls, (f l).Pairwise Loc.Before) :
    (ls.flatMap fun l => (f l).map (l ++ ·)).Pairwise Loc.Before := by
  apply List.pairwise_flatMap.mpr ⟨?_, ?_⟩
  · intro l hl
    rw [List.pairwise_map]
    exact (hf l hl).imp fun hb => (Loc.before_append_left l).mpr hb
  · apply h.imp
    intro l m hlm t ht u hu
    obtain ⟨t, -, rfl⟩ := List.mem_map.mp ht
    obtain ⟨u, -, rfl⟩ := List.mem_map.mp hu
    exact hlm.append t u

theorem steps_pairwise {j : Json} (hj : j.ordered = true) (s : Selector) :
    (s.steps j).Pairwise Step.Before := by
  cases s with
  | name k =>
    rw [Selector.steps]
    split_ifs <;> simp
  | index i =>
    rw [Selector.steps]
    split_ifs <;> simp
  | wildcard =>
    cases j with
    | obj ms =>
      have hi := ((ordered_obj ms).mp hj).1
      rw [Members.Increasing, List.pairwise_map] at hi
      exact List.pairwise_map.mpr hi
    | arr xs => exact List.pairwise_map.mpr List.pairwise_lt_range
    | _ => simp [Selector.steps]

/-- A selection comes in the order of the members. -/
theorem select_pairwise {j : Json} (hj : j.ordered = true) (ss : List Selector) :
    (select ss j).Pairwise Loc.Before := by
  induction ss generalizing j with
  | nil => simp
  | cons s ss ih =>
    have hone : ((s.steps j).map fun t => [t]).Pairwise Loc.Before :=
      List.pairwise_map.mpr ((steps_pairwise hj s).imp fun h => .inl h)
    have hbelow := pairwise_flatMap_append hone
      (fun l => (l.head?.bind j.child?).elim [] (select ss)) ?_
    · rwa [List.flatMap_map] at hbelow
    · intro l hl
      obtain ⟨t, -, rfl⟩ := List.mem_map.mp hl
      cases hc : j.child? t with
      | none => simp [hc]
      | some c => simpa [hc] using ih (ordered_child? hj hc)

/-- Locations in order are different ones. -/
theorem nodup_of_before {ls : List Loc} (h : ls.Pairwise Loc.Before) : ls.Nodup := by
  apply h.imp
  rintro l m hb rfl
  exact Loc.not_before_self l hb

end Json
