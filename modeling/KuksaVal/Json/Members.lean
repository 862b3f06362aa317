import Mathlib.Data.String.Basic
import Mathlib.Data.List.Nodup
import Mathlib.Tactic.SplitIfs
import Mathlib.Order.Basic

/-! Members of an object: association lists in increasing key order. Lookup laws hold
for every list; only equality of whole lists needs the order. -/
namespace Members
variable {κ ν : Type*} [LinearOrder κ]

def get? (k : κ) : List (κ × ν) → Option ν
  | [] => none
  | (l, v) :: ms => if k = l then some v else get? k ms

/-- Insert a member or overwrite the present one, at its place in the order. -/
def assign (k : κ) (v : ν) : List (κ × ν) → List (κ × ν)
  | [] => [(k, v)]
  | (l, w) :: ms =>
      if k < l then (k, v) :: (l, w) :: ms
      else if k = l then (k, v) :: ms
      else (l, w) :: assign k v ms

/-- Overwrite a present member. An absent key changes nothing. -/
def put (k : κ) (v : ν) : List (κ × ν) → List (κ × ν)
  | [] => []
  | (l, w) :: ms => if k = l then (l, v) :: ms else (l, w) :: put k v ms

def erase (k : κ) (ms : List (κ × ν)) : List (κ × ν) := ms.filter fun m => m.1 ≠ k

/-- Strictly increasing keys. -/
def Increasing (ms : List (κ × ν)) : Prop := (ms.map Prod.fst).Pairwise (· < ·)

instance (ms : List (κ × ν)) : Decidable (Increasing ms) :=
  inferInstanceAs (Decidable ((ms.map Prod.fst).Pairwise (· < ·)))

@[simp] theorem get?_nil (k : κ) : get? k ([] : List (κ × ν)) = none := rfl

theorem get?_cons (k l : κ) (v : ν) (ms : List (κ × ν)) :
    get? k ((l, v) :: ms) = if k = l then some v else get? k ms := rfl

@[simp] theorem get?_assign (k l : κ) (v : ν) (ms : List (κ × ν)) :
    get? l (assign k v ms) = if l = k then some v else get? l ms := by
  induction ms with
  | nil => rfl
  | cons m ms ih =>
    obtain ⟨j, w⟩ := m
    rcases lt_trichotomy k j with h | h | h
    · simp [assign, h, get?_cons]
    · subst h
      by_cases hl : l = k <;> simp [assign, get?_cons, hl]
    · simp only [assign, h.not_gt, h.ne', ↓reduceIte, get?_cons, ih]
      by_cases hl : l = k
      · subst hl; simp [h.ne']
      · simp [hl]

@[simp] theorem get?_put (k l : κ) (v : ν) (ms : List (κ × ν)) :
    get? l (put k v ms) = if l = k then (get? k ms).map (fun _ => v) else get? l ms := by
  induction ms with
  | nil => simp [put]
  | cons m ms ih =>
    obtain ⟨j, w⟩ := m
    by_cases hk : k = j
    · subst hk
      by_cases hl : l = k <;> simp [put, get?_cons, hl]
    · simp only [put, hk, ↓reduceIte, get?_cons, ih]
      by_cases hl : l = k
      · subst hl; simp [hk]
      · simp [hl]

theorem get?_filter (p : κ → Bool) (k : κ) (ms : List (κ × ν)) :
    get? k (ms.filter fun m => p m.1) = if p k then get? k ms else none := by
  induction ms with
  | nil => simp
  | cons m ms ih =>
    obtain ⟨j, w⟩ := m
    by_cases hj : p j <;> by_cases hk : k = j
    · subst hk; simp [hj, get?_cons]
    · simp [hj, get?_cons, hk, ih]
    · subst hk; simp [hj, ih]
    · simp [hj, get?_cons, hk, ih]

@[simp] theorem get?_erase (k l : κ) (ms : List (κ × ν)) :
    get? l (erase k ms) = if l = k then none else get? l ms := by
  have h := get?_filter (fun j => decide (j ≠ k)) l ms
  simp only [erase]
  rw [h]
  by_cases hl : l = k <;> simp [hl]

@[simp] theorem get?_map {μ : Type*} (f : κ → ν → μ) (k : κ) (ms : List (κ × ν)) :
    get? k (ms.map fun m => (m.1, f m.1 m.2)) = (get? k ms).map (f k) := by
  induction ms with
  | nil => rfl
  | cons m ms ih =>
    obtain ⟨j, w⟩ := m
    by_cases hk : k = j
    · subst hk; simp [get?_cons]
    · simpa [get?_cons, hk] using ih

@[simp] theorem put_keys (k : κ) (v : ν) (ms : List (κ × ν)) :
    (put k v ms).map Prod.fst = ms.map Prod.fst := by
  induction ms with
  | nil => rfl
  | cons m ms ih =>
    obtain ⟨j, w⟩ := m
    by_cases hk : k = j <;> simp [put, hk, ih]

theorem mem_of_get? {k : κ} {v : ν} {ms : List (κ × ν)} (h : get? k ms = some v) :
    (k, v) ∈ ms := by
  induction ms with
  | nil => simp at h
  | cons m ms ih =>
    obtain ⟨j, w⟩ := m
    by_cases hk : k = j
    · subst hk
      simp only [get?_cons, ↓reduceIte, Option.some.injEq] at h
      simp [h]
    · simp only [get?_cons, hk, ↓reduceIte] at h
      exact List.mem_cons_of_mem _ (ih h)

theorem get?_isSome_iff {k : κ} {ms : List (κ × ν)} :
    (get? k ms).isSome ↔ k ∈ ms.map Prod.fst := by
  induction ms with
  | nil => simp
  | cons m ms ih =>
    obtain ⟨j, w⟩ := m
    by_cases hk : k = j <;> simp [get?_cons, hk, ih]

theorem get?_eq_none_iff {k : κ} {ms : List (κ × ν)} :
    get? k ms = none ↔ k ∉ ms.map Prod.fst := by
  rw [← get?_isSome_iff, Option.not_isSome_iff_eq_none]

theorem get?_of_mem {k : κ} {v : ν} {ms : List (κ × ν)} (hn : (ms.map Prod.fst).Nodup)
    (h : (k, v) ∈ ms) : get? k ms = some v := by
  induction ms with
  | nil => simp at h
  | cons m ms ih =>
    obtain ⟨j, w⟩ := m
    simp only [List.map_cons, List.nodup_cons] at hn
    rcases List.mem_cons.mp h with he | h
    · obtain ⟨rfl, rfl⟩ := Prod.mk.inj he
      simp [get?_cons]
    · have hk : k ≠ j := fun e => hn.1 (e ▸ List.mem_map_of_mem (f := Prod.fst) h)
      simpa [get?_cons, hk] using ih hn.2 h

/-- Erasing the first member with a property takes away the key of this member alone. -/
theorem get?_eraseP {ms : List (κ × ν)} (hn : (ms.map Prod.fst).Nodup) (p : κ × ν → Bool) (k : κ) :
    get? k (ms.eraseP p) =
      if (ms.find? p).any fun m => decide (m.1 = k) then none else get? k ms := by
  induction ms with
  | nil => simp
  | cons m ms ih =>
    obtain ⟨j, w⟩ := m
    obtain ⟨hj, hms⟩ : j ∉ ms.map Prod.fst ∧ (ms.map Prod.fst).Nodup := by simpa using hn
    by_cases hp : p (j, w) = true
    · rw [List.eraseP_cons_of_pos hp, List.find?_cons_of_pos hp]
      by_cases hk : j = k
      · subst hk
        simpa using get?_eq_none_iff.mpr hj
      · simp [get?_cons, hk, Ne.symm hk]
    · rw [List.eraseP_cons_of_neg hp, List.find?_cons_of_neg hp]
      by_cases hk : k = j
      · subst hk
        have hf : (ms.find? p).any (fun m => decide (m.1 = k)) = false := by
          rw [Bool.eq_false_iff]
          intro hf
          obtain ⟨m, hm, hmk⟩ := (Option.any_eq_true _ _).mp hf
          exact hj ((of_decide_eq_true hmk) ▸ List.mem_map_of_mem (List.mem_of_find?_eq_some hm))
        simp [get?_cons, hf]
      · simp only [get?_cons, hk, ↓reduceIte]
        exact ih hms

theorem countP_key {ms : List (κ × ν)} (hn : (ms.map Prod.fst).Nodup) (k : κ) :
    ms.countP (fun m => decide (m.1 = k)) = if (get? k ms).isSome then 1 else 0 := by
  have hc : ms.countP (fun m => decide (m.1 = k)) = (ms.map Prod.fst).count k := by
    simp only [List.count, List.countP_map]
    rfl
  rw [hc]
  split_ifs with hk
  · exact List.count_eq_one_of_mem hn (get?_isSome_iff.mp hk)
  · exact List.count_eq_zero_of_not_mem fun hm => hk (get?_isSome_iff.mpr hm)

/-- An assignment adds one member with a property at most. -/
theorem countP_assign_le (p : κ × ν → Bool) (k : κ) (v : ν) (ms : List (κ × ν)) :
    (assign k v ms).countP p ≤ ms.countP p + if p (k, v) then 1 else 0 := by
  induction ms with
  | nil => simp [assign, List.countP_cons]
  | cons m ms ih =>
    obtain ⟨j, w⟩ := m
    unfold assign
    split_ifs with hlt he <;> simp only [List.countP_cons] at ih ⊢ <;> grind

/-- A key picks out its member. -/
theorem filter_key {ms : List (κ × ν)} (hn : (ms.map Prod.fst).Nodup) (k : κ) :
    ms.filter (fun m => decide (m.1 = k)) = ((get? k ms).map fun v => (k, v)).toList := by
  induction ms with
  | nil => rfl
  | cons m ms ih =>
    obtain ⟨j, w⟩ := m
    obtain ⟨hj, hms⟩ : j ∉ ms.map Prod.fst ∧ (ms.map Prod.fst).Nodup := by simpa using hn
    by_cases hk : j = k
    · subst hk
      simp [ih hms, get?_cons, get?_eq_none_iff.mpr hj]
    · simp [ih hms, get?_cons, hk, Ne.symm hk]

theorem put_get? {k : κ} {v : ν} {ms : List (κ × ν)} (h : get? k ms = some v) :
    put k v ms = ms := by
  induction ms with
  | nil => rfl
  | cons m ms ih =>
    obtain ⟨j, w⟩ := m
    by_cases hk : k = j
    · simp only [get?_cons, hk, ↓reduceIte, Option.some.injEq] at h
      simp [put, hk, h]
    · simp only [get?_cons, hk, ↓reduceIte] at h
      simp [put, hk, ih h]

theorem put_put (k : κ) (v w : ν) (ms : List (κ × ν)) : put k w (put k v ms) = put k w ms := by
  induction ms with
  | nil => rfl
  | cons m ms ih =>
    obtain ⟨j, u⟩ := m
    by_cases hk : k = j <;> simp [put, hk, ih]

theorem assign_assign (k : κ) (v w : ν) (ms : List (κ × ν)) :
    assign k w (assign k v ms) = assign k w ms := by
  induction ms with
  | nil => simp [assign]
  | cons m ms ih =>
    obtain ⟨j, u⟩ := m
    rcases lt_trichotomy k j with h | h | h
    · simp [assign, h]
    · simp [assign, h]
    · simp [assign, h.not_gt, h.ne', ih]

theorem get?_append (k : κ) (ms ns : List (κ × ν)) :
    get? k (ms ++ ns) = (get? k ms).or (get? k ns) := by
  induction ms with
  | nil => rfl
  | cons m ms ih =>
    obtain ⟨j, w⟩ := m
    by_cases hj : k = j <;> simp [get?_cons, hj, ih]

/-- Of several assignments to one key the last one counts. -/
theorem get?_foldl_assign (k : κ) (ms d : List (κ × ν)) :
    get? k (ms.foldl (fun d m => assign m.1 m.2 d) d) = (get? k ms.reverse).or (get? k d) := by
  induction ms generalizing d with
  | nil => rfl
  | cons m ms ih =>
    obtain ⟨l, v⟩ := m
    simp only [List.foldl_cons, ih, get?_assign, List.reverse_cons, get?_append, get?_cons]
    by_cases hk : k = l <;> simp [hk]

theorem get?_reverse {k : κ} {ms : List (κ × ν)} (hn : (ms.map Prod.fst).Nodup) :
    get? k ms.reverse = get? k ms := by
  have hr : (ms.reverse.map Prod.fst).Nodup := by
    rw [List.map_reverse]
    exact List.nodup_reverse.mpr hn
  cases h : get? k ms with
  | none =>
    rw [get?_eq_none_iff] at h ⊢
    simpa using h
  | some v => exact get?_of_mem hr (List.mem_reverse.mpr (mem_of_get? h))

theorem put_append_cons {k : κ} {ms ns : List (κ × ν)} (h : k ∉ ms.map Prod.fst) (v w : ν) :
    put k w (ms ++ (k, v) :: ns) = ms ++ (k, w) :: ns := by
  induction ms with
  | nil => simp [put]
  | cons m ms ih =>
    obtain ⟨j, u⟩ := m
    simp only [List.map_cons, List.mem_cons, not_or] at h
    simp [put, h.1, ih h.2]

theorem Increasing.nodup {ms : List (κ × ν)} (h : Increasing ms) : (ms.map Prod.fst).Nodup :=
  List.Pairwise.imp (fun h => ne_of_lt h) h

theorem Increasing.put {ms : List (κ × ν)} (h : Increasing ms) (k : κ) (v : ν) :
    Increasing (put k v ms) := by
  unfold Increasing
  rwa [put_keys]

theorem Increasing.filter {ms : List (κ × ν)} (h : Increasing ms) (p : κ × ν → Bool) :
    Increasing (ms.filter p) :=
  h.sublist (List.filter_sublist.map Prod.fst)

theorem mem_assign_keys {k j : κ} {v : ν} {ms : List (κ × ν)}
    (h : j ∈ (assign k v ms).map Prod.fst) : j = k ∨ j ∈ ms.map Prod.fst := by
  rw [← get?_isSome_iff, get?_assign] at h
  split_ifs at h with he
  · exact Or.inl he
  · exact Or.inr (get?_isSome_iff.mp h)

theorem mem_assign {k : κ} {v : ν} {ms : List (κ × ν)} {m : κ × ν} (h : m ∈ assign k v ms) :
    m = (k, v) ∨ m ∈ ms := by
  induction ms with
  | nil => exact .inl (List.mem_singleton.mp h)
  | cons l ms ih =>
    obtain ⟨j, w⟩ := l
    unfold assign at h
    split_ifs at h
    · exact List.mem_cons.mp h
    · exact (List.mem_cons.mp h).imp_right (List.mem_cons_of_mem _)
    · rcases List.mem_cons.mp h with rfl | h
      · exact .inr List.mem_cons_self
      · exact (ih h).imp_right (List.mem_cons_of_mem _)

theorem mem_assign_self (k : κ) (v : ν) (ms : List (κ × ν)) : (k, v) ∈ assign k v ms :=
  mem_of_get? (by simp)

/-- The members of the other keys stay. -/
theorem mem_assign_of_ne {k : κ} {v : ν} {ms : List (κ × ν)} {m : κ × ν} (h : m ∈ ms)
    (hne : m.1 ≠ k) : m ∈ assign k v ms := by
  induction ms with
  | nil => simp at h
  | cons l ms ih =>
    obtain ⟨j, w⟩ := l
    unfold assign
    split_ifs with hlt heq
    · exact List.mem_cons_of_mem _ h
    · rcases List.mem_cons.mp h with rfl | h
      · exact absurd heq.symm hne
      · exact List.mem_cons_of_mem _ h
    · rcases List.mem_cons.mp h with rfl | h
      · exact List.mem_cons_self
      · exact List.mem_cons_of_mem _ (ih h)

theorem Increasing.assign {ms : List (κ × ν)} (h : Increasing ms) (k : κ) (v : ν) :
    Increasing (assign k v ms) := by
  induction ms with
  | nil => simp [Increasing, Members.assign]
  | cons m ms ih =>
    obtain ⟨j, w⟩ := m
    obtain ⟨hj, ht⟩ := List.pairwise_cons.mp h
    rcases lt_trichotomy k j with hk | hk | hk
    · simp only [Members.assign, hk, ↓reduceIte]
      refine List.pairwise_cons.mpr ⟨?_, h⟩
      intro i hi
      rcases List.mem_cons.mp hi with rfl | hi
      · exact hk
      · exact hk.trans (hj i hi)
    · subst hk
      simp only [Members.assign, lt_irrefl, ↓reduceIte]
      exact List.pairwise_cons.mpr ⟨hj, ht⟩
    · simp only [Members.assign, hk.not_gt, hk.ne', ↓reduceIte]
      refine List.pairwise_cons.mpr ⟨?_, ih ht⟩
      intro i hi
      rcases mem_assign_keys hi with rfl | hi
      · exact hk
      · exact hj i hi

theorem Increasing.foldl_assign {ms : List (κ × ν)} (h : Increasing ms) (ns : List (κ × ν)) :
    Increasing (ns.foldl (fun d m => Members.assign m.1 m.2 d) ms) := by
  induction ns generalizing ms with
  | nil => exact h
  | cons n ns ih => exact ih (h.assign n.1 n.2)

/-- Lists in increasing key order are determined by what lookup answers. -/
theorem Increasing.ext {ms ns : List (κ × ν)} (hm : Increasing ms) (hn : Increasing ns)
    (h : ∀ k, get? k ms = get? k ns) : ms = ns := by
  induction ms generalizing ns with
  | nil =>
    cases ns with
    | nil => rfl
    | cons n ns =>
      obtain ⟨j, w⟩ := n
      simpa [get?_cons] using h j
  | cons m ms ih =>
    cases ns with
    | nil =>
      obtain ⟨i, v⟩ := m
      simpa [get?_cons] using h i
    | cons n ns =>
      obtain ⟨i, v⟩ := m
      obtain ⟨j, w⟩ := n
      obtain ⟨hi, hms⟩ := List.pairwise_cons.mp hm
      obtain ⟨hj, hns⟩ := List.pairwise_cons.mp hn
      have hij : i = j := by
        rcases lt_trichotomy i j with hlt | he | hlt
        · have hk : i ∈ (List.map Prod.fst ((j, w) :: ns)) := by
            rw [← get?_isSome_iff, ← h i]; simp [get?_cons]
          rcases List.mem_cons.mp hk with rfl | hk
          · rfl
          · exact absurd (hj i hk) hlt.not_gt
        · exact he
        · have hk : j ∈ (List.map Prod.fst ((i, v) :: ms)) := by
            rw [← get?_isSome_iff, h j]; simp [get?_cons]
          rcases List.mem_cons.mp hk with rfl | hk
          · rfl
          · exact absurd (hi j hk) hlt.not_gt
      subst hij
      have hv : v = w := by simpa [get?_cons] using h i
      subst hv
      have ht : ms = ns := by
        apply ih hms hns
        intro k
        by_cases hk : k = i
        · subst hk
          have h1 : get? k ms = none := get?_eq_none_iff.mpr fun hc => lt_irrefl _ (hi k hc)
          have h2 : get? k ns = none := get?_eq_none_iff.mpr fun hc => lt_irrefl _ (hj k hc)
          rw [h1, h2]
        · simpa [get?_cons, hk] using h k
      rw [ht]

end Members
