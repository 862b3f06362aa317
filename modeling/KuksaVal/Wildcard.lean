import Mathlib.Data.List.Infix
import Mathlib.Tactic.SplitIfs

/-! Patterns with a letter for any word, and lists where the last element that matches decides. -/
namespace Wildcard
variable {α β : Type*} [DecidableEq α]

/-- `star` stands for any word of the letters that it allows, any other letter for one of those
that it allows. -/
def matchPattern (star : α) (allows : α → β → Bool) : List α → List β → Bool
  | [], w => w.isEmpty
  | k :: ks, w =>
      if k = star then (List.range (w.length + 1)).any fun n =>
        (w.take n).all (allows star) && matchPattern star allows ks (w.drop n)
      else match w with
        | [] => false
        | c :: cs => allows k c && matchPattern star allows ks cs

section Patterns
variable {star : α}

@[simp] theorem matchPattern_nil (allows : α → β → Bool) (w : List β) :
    matchPattern star allows [] w = w.isEmpty := rfl

theorem matchPattern_star (allows : α → β → Bool) (ks : List α) (w : List β) :
    matchPattern star allows (star :: ks) w = (List.range (w.length + 1)).any fun n =>
      (w.take n).all (allows star) && matchPattern star allows ks (w.drop n) := by
  simp [matchPattern]

theorem matchPattern_letter {k : α} (hk : k ≠ star) (allows : α → β → Bool) (ks : List α) (c : β)
    (cs : List β) : matchPattern star allows (k :: ks) (c :: cs) =
      (allows k c && matchPattern star allows ks cs) := by
  simp [matchPattern, hk]

theorem matchPattern_letter_nil {k : α} (hk : k ≠ star) (allows : α → β → Bool) (ks : List α) :
    matchPattern star allows (k :: ks) [] = false := by
  simp [matchPattern, hk]

/-- A pattern whose letters allow themselves matches its own text. -/
theorem matchPattern_self {allows : α → α → Bool} (h : ∀ k, allows k k = true) (ks : List α) :
    matchPattern star allows ks ks = true := by
  induction ks with
  | nil => rfl
  | cons k ks ih =>
    by_cases hk : k = star
    · subst hk
      rw [matchPattern_star, List.any_eq_true]
      refine ⟨1, by simp, ?_⟩
      simp [h, ih]
    · rw [matchPattern_letter hk, h k, ih]
      rfl

variable {allows : α → β → Bool} {ks ks' : List α} {w : List β}

theorem matchPattern_star_iff : matchPattern star allows (star :: ks) w = true ↔
    ∃ u v, w = u ++ v ∧ (∀ c ∈ u, allows star c = true) ∧
      matchPattern star allows ks v = true := by
  rw [matchPattern_star, List.any_eq_true]
  constructor
  · rintro ⟨n, -, h⟩
    rw [Bool.and_eq_true, List.all_eq_true] at h
    exact ⟨w.take n, w.drop n, (List.take_append_drop n w).symm, h⟩
  · rintro ⟨u, v, rfl, hu, hv⟩
    refine ⟨u.length, List.mem_range.mpr (by rw [List.length_append]; omega), ?_⟩
    rw [List.take_left, List.drop_left, Bool.and_eq_true, List.all_eq_true]
    exact ⟨hu, hv⟩

theorem matchPattern_letter_iff {k : α} (hk : k ≠ star) :
    matchPattern star allows (k :: ks) w = true ↔
      ∃ c cs, w = c :: cs ∧ allows k c = true ∧ matchPattern star allows ks cs = true := by
  cases w with
  | nil => simp [matchPattern_letter_nil hk]
  | cons c cs =>
    rw [matchPattern_letter hk, Bool.and_eq_true]
    constructor
    · intro h
      exact ⟨c, cs, rfl, h⟩
    · rintro ⟨_, _, he, h⟩
      obtain ⟨rfl, rfl⟩ := List.cons.inj he
      exact h

/-- One pattern after another matches one word after another. -/
theorem matchPattern_append : matchPattern star allows (ks ++ ks') w = true ↔
    ∃ u v, w = u ++ v ∧ matchPattern star allows ks u = true ∧
      matchPattern star allows ks' v = true := by
  induction ks generalizing w with
  | nil => simp
  | cons k ks ih =>
    rw [List.cons_append]
    by_cases hk : k = star
    · subst hk
      simp only [matchPattern_star_iff, ih]
      constructor
      · rintro ⟨t, _, rfl, ht, u, v, rfl, hu, hv⟩
        exact ⟨t ++ u, v, (List.append_assoc t u v).symm, ⟨t, u, rfl, ht, hu⟩, hv⟩
      · rintro ⟨_, v, rfl, ⟨t, u, rfl, ht, hu⟩, hv⟩
        exact ⟨t, u ++ v, List.append_assoc t u v, ht, u, v, rfl, hu, hv⟩
    · simp only [matchPattern_letter_iff hk, ih]
      constructor
      · rintro ⟨c, _, rfl, hc, u, v, rfl, hu, hv⟩
        exact ⟨c :: u, v, rfl, ⟨c, u, rfl, hc, hu⟩, hv⟩
      · rintro ⟨_, v, rfl, ⟨c, u, rfl, hc, hu⟩, hv⟩
        exact ⟨c, u ++ v, rfl, hc, u, v, rfl, hu, hv⟩

/-- Letters that allow only themselves match only their own word. -/
theorem matchPattern_letters_iff {allows : α → α → Bool} {ks w : List α}
    (h : ∀ k ∈ ks, k ≠ star ∧ ∀ c, allows k c = true ↔ c = k) :
    matchPattern star allows ks w = true ↔ w = ks := by
  induction ks generalizing w with
  | nil => simp
  | cons k ks ih =>
    rw [List.forall_mem_cons] at h
    simp only [matchPattern_letter_iff h.1.1, h.1.2, ih h.2]
    constructor
    · rintro ⟨_, _, rfl, rfl, rfl⟩
      rfl
    · rintro rfl
      exact ⟨k, ks, rfl, rfl, rfl⟩

/-- A word may be spelled in other letters that are allowed alike. -/
theorem matchPattern_map {γ : Type*} {allows' : α → γ → Bool} {f : β → γ}
    (h : ∀ k, ∀ c ∈ w, allows' k (f c) = allows k c) :
    matchPattern star allows' ks (w.map f) = matchPattern star allows ks w := by
  induction ks generalizing w with
  | nil => cases w <;> rfl
  | cons k ks ih =>
    by_cases hk : k = star
    · subst hk
      rw [matchPattern_star, matchPattern_star, List.length_map]
      congr 1
      funext n
      have htake : ((w.map f).take n).all (allows' k) = (w.take n).all (allows k) := by
        rw [← List.map_take, List.all_map, Bool.eq_iff_iff, List.all_eq_true, List.all_eq_true]
        refine forall₂_congr fun c hc => ?_
        rw [Function.comp_apply, h k c (List.mem_of_mem_take hc)]
      rw [htake, ← List.map_drop, ih fun k c hc => h k c (List.mem_of_mem_drop hc)]
    · cases w with
      | nil => rw [List.map_nil, matchPattern_letter_nil hk, matchPattern_letter_nil hk]
      | cons c cs =>
        rw [List.map_cons, matchPattern_letter hk, matchPattern_letter hk,
          h k c List.mem_cons_self, ih fun k c hc => h k c (List.mem_cons_of_mem _ hc)]

end Patterns

section LastMatch

/-- There is a last element with `P`, and it has `Q`. -/
def LastHas (P Q : β → Prop) (l : List β) : Prop :=
  ∃ pre m post, l = pre ++ m :: post ∧ P m ∧ Q m ∧ ∀ m' ∈ post, ¬ P m'

variable {P Q : β → Prop} {m : β} {l : List β}

theorem not_lastHas_nil : ¬ LastHas P Q [] := by
  rintro ⟨pre, m, post, h, -⟩
  simp at h

theorem lastHas_cons : LastHas P Q (m :: l) ↔
    LastHas P Q l ∨ (P m ∧ Q m ∧ ∀ m' ∈ l, ¬ P m') := by
  constructor
  · rintro ⟨pre, m', post, h, hP, hQ, hpost⟩
    cases pre with
    | nil =>
      obtain ⟨rfl, rfl⟩ := List.cons.inj h
      exact .inr ⟨hP, hQ, hpost⟩
    | cons k pre =>
      obtain ⟨rfl, rfl⟩ := List.cons.inj h
      exact .inl ⟨pre, m', post, rfl, hP, hQ, hpost⟩
  · rintro (⟨pre, m', post, rfl, hP, hQ, hpost⟩ | ⟨hP, hQ, hl⟩)
    · exact ⟨m :: pre, m', post, rfl, hP, hQ, hpost⟩
    · exact ⟨[], m, l, rfl, hP, hQ, hl⟩

theorem LastHas.exists_mem (h : LastHas P Q l) : ∃ m ∈ l, P m ∧ Q m := by
  obtain ⟨pre, m, post, rfl, hP, hQ, -⟩ := h
  exact ⟨m, by simp, hP, hQ⟩

theorem not_lastHas_iff : ¬ LastHas P Q l ↔
    ∀ pre m post, l = pre ++ m :: post → Q m → P m → ∃ m' ∈ post, P m' := by
  unfold LastHas
  push Not
  exact forall₄_congr fun pre m post h => imp.swap

theorem lastHas_congr {P' : β → Prop}
    (h : ∀ m ∈ l, (P m ↔ P' m)) : LastHas P Q l ↔ LastHas P' Q l := by
  refine exists₃_congr fun pre m post => and_congr_right ?_
  rintro rfl
  rw [h m (by simp)]
  refine and_congr_right fun _ => and_congr_right fun _ => forall₂_congr fun m' hm' => ?_
  rw [h m' (by simp [hm'])]

/-- Whatever lacks `Q` is followed by another element with `P`. -/
theorem lastHas_iff : LastHas P Q l ↔ (∃ m ∈ l, P m) ∧
    ∀ pre m post, l = pre ++ m :: post → P m → ¬ Q m → ∃ m' ∈ post, P m' := by
  induction l with
  | nil => simp [not_lastHas_nil]
  | cons k l ih =>
    rw [lastHas_cons, ih]
    constructor
    · rintro (⟨⟨m, hm, hP⟩, hnext⟩ | ⟨hP, hQ, hl⟩)
      · refine ⟨⟨m, List.mem_cons_of_mem k hm, hP⟩, ?_⟩
        intro pre m' post h hP' hQ'
        cases pre with
        | nil =>
          obtain ⟨rfl, rfl⟩ := List.cons.inj h
          exact ⟨m, hm, hP⟩
        | cons k' pre =>
          obtain ⟨rfl, rfl⟩ := List.cons.inj h
          exact hnext pre m' post rfl hP' hQ'
      · refine ⟨⟨k, List.mem_cons_self, hP⟩, ?_⟩
        intro pre m' post h hP' hQ'
        cases pre with
        | nil =>
          obtain ⟨rfl, rfl⟩ := List.cons.inj h
          exact absurd hQ hQ'
        | cons k' pre =>
          obtain ⟨rfl, rfl⟩ := List.cons.inj h
          exact absurd hP' (hl m' (by simp))
    · rintro ⟨⟨m, hm, hP⟩, hnext⟩
      by_cases hl : ∃ m' ∈ l, P m'
      · exact .inl ⟨hl, fun pre m' post h => hnext (k :: pre) m' post (by rw [h]; rfl)⟩
      · push Not at hl
        obtain rfl | hm := List.mem_cons.mp hm
        · refine .inr ⟨hP, ?_, hl⟩
          by_contra hQ
          obtain ⟨m', hm', hP'⟩ := hnext [] m l rfl hP hQ
          exact hl m' hm' hP'
        · exact absurd hP (hl m hm)

theorem lastHas_append {l₁ l₂ : List β} : LastHas P Q (l₁ ++ l₂) ↔
    LastHas P Q l₂ ∨ (LastHas P Q l₁ ∧ ∀ m ∈ l₂, ¬ P m) := by
  induction l₁ with
  | nil => simp [not_lastHas_nil]
  | cons k l₁ ih =>
    rw [List.cons_append, lastHas_cons, ih, lastHas_cons, List.forall_mem_append]
    tauto

/-- An element put in between decides only as the new last one. -/
theorem LastHas.insert_iff {pre post : List β} (h : LastHas P Q (pre ++ post)) :
    LastHas P Q (pre ++ m :: post) ↔ (P m → Q m ∨ ∃ m' ∈ post, P m') := by
  rw [lastHas_append, lastHas_cons, List.forall_mem_cons]
  rcases lastHas_append.mp h with h | ⟨h, hpost⟩
  · obtain ⟨k, hk, hP, -⟩ := h.exists_mem
    simp only [h, true_or, true_iff]
    exact fun _ => .inr ⟨k, hk, hP⟩
  · have hlast : ¬ LastHas P Q post := by
      intro hl
      obtain ⟨k, hk, hP, -⟩ := hl.exists_mem
      exact hpost k hk hP
    have hnone : ¬ ∃ m' ∈ post, P m' := fun ⟨k, hk, hP⟩ => hpost k hk hP
    simp only [hlast, h, hnone]
    tauto

end LastMatch

end Wildcard
