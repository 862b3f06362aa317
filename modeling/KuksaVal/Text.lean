import Mathlib.Data.List.Basic
import Mathlib.Tactic.SplitIfs

/-! Replacement algorithms on texts, as lists over any alphabet. -/
namespace Text
variable {α : Type*} [DecidableEq α]

def replaceChar (a b : α) (cs : List α) : List α := cs.map fun c => if c = a then b else c

/-- Left-to-right replacement. The counter skips what an earlier match has consumed. -/
def replaceFrom (pat rep : List α) : ℕ → List α → List α
  | _, [] => []
  | n + 1, _ :: cs => replaceFrom pat rep n cs
  | 0, c :: cs =>
      if pat.isPrefixOf (c :: cs) then rep ++ replaceFrom pat rep (pat.length - 1) cs
      else c :: replaceFrom pat rep 0 cs

/-- Replace every occurrence that does not overlap an earlier one. -/
def replaceAll (pat rep cs : List α) : List α := replaceFrom pat rep 0 cs

def eraseAll (pat cs : List α) : List α := replaceAll pat [] cs

def eraseFirst (pat : List α) : List α → List α
  | [] => []
  | c :: cs => if pat.isPrefixOf (c :: cs) then (c :: cs).drop pat.length
      else c :: eraseFirst pat cs

def eraseLast (pat cs : List α) : List α := (eraseFirst pat.reverse cs.reverse).reverse

theorem intercalate_cons {α : Type*} (sep l : List α) (ls : List (List α)) :
    sep.intercalate (l :: ls) = l ++ ls.flatMap (sep ++ ·) := by
  induction ls generalizing l with
  | nil => simp [List.intercalate]
  | cons m ls ih =>
    have hm := ih m
    simp only [List.intercalate, List.intersperse_cons_cons, List.flatten_cons] at hm ⊢
    rw [hm, List.flatMap_cons, List.append_assoc]

theorem map_intersperse {α β : Type*} (f : α → β) (sep : α) (l : List α) :
    (l.intersperse sep).map f = (l.map f).intersperse (f sep) := by
  induction l with
  | nil => rfl
  | cons x l ih => cases l <;> simp_all

theorem intersperse_injective {α : Type*} (sep : α) :
    Function.Injective fun l : List α => l.intersperse sep := by
  intro l m h
  apply List.ext_getElem?
  intro i
  have hi := congrArg (fun k : List α => k[2 * i]?) h
  simpa using hi

/-- No piece of a text that is split contains the separator. -/
theorem not_mem_of_mem_splitOn {a : α} {cs e : List α} (h : e ∈ cs.splitOn a) : a ∉ e := by
  induction cs generalizing e with
  | nil =>
    rw [List.splitOn_nil, List.mem_singleton] at h
    simp [h]
  | cons c cs ih =>
    rw [List.splitOn_cons_eq_if_modifyHead] at h
    split_ifs at h with hc
    · rcases List.mem_cons.mp h with rfl | h
      · simp
      · exact ih h
    · have hca : a ≠ c := fun e => hc (by simp [e])
      cases hs : cs.splitOn a with
      | nil => simp [hs] at h
      | cons d ds =>
        rw [hs, List.modifyHead_cons, List.mem_cons] at h
        rcases h with rfl | h
        · rw [List.mem_cons, not_or]
          exact ⟨hca, ih (hs ▸ List.mem_cons_self)⟩
        · exact ih (hs ▸ List.mem_cons_of_mem d h)

@[simp] theorem replaceChar_nil (a b : α) : replaceChar a b [] = [] := rfl

@[simp] theorem replaceChar_append (a b : α) (cs ds : List α) :
    replaceChar a b (cs ++ ds) = replaceChar a b cs ++ replaceChar a b ds := List.map_append

theorem replaceChar_of_not_mem {a b : α} {cs : List α} (h : a ∉ cs) : replaceChar a b cs = cs := by
  unfold replaceChar
  conv_rhs => rw [← cs.map_id]
  apply List.map_congr_left
  intro c hc
  have hca : c ≠ a := fun e => h (e ▸ hc)
  simp [hca]

/-- Renaming a separator is the same as joining with the new one. -/
theorem replaceChar_intercalate {a b : α} {ls : List (List α)} (h : ∀ l ∈ ls, a ∉ l) :
    replaceChar a b ([a].intercalate ls) = [b].intercalate ls := by
  induction ls with
  | nil => rfl
  | cons l ls ih =>
    have hl := replaceChar_of_not_mem (b := b) (h l (by simp))
    cases ls with
    | nil => simpa [List.intercalate] using hl
    | cons m ls =>
      have ht := ih fun k hk => h k (List.mem_cons_of_mem _ hk)
      simp only [List.intercalate, List.intersperse_cons_cons, List.flatten_cons,
        replaceChar_append, hl] at ht ⊢
      rw [ht]
      simp [replaceChar]

theorem replaceFrom_skip (pat rep ds cs : List α) :
    replaceFrom pat rep ds.length (ds ++ cs) = replaceFrom pat rep 0 cs := by
  induction ds with
  | nil => rfl
  | cons d ds ih => simpa [replaceFrom] using ih

@[simp] theorem replaceAll_nil (pat rep : List α) : replaceAll pat rep [] = [] := rfl

theorem replaceAll_cons_of_ne {p c : α} (h : c ≠ p) (pat rep cs : List α) :
    replaceAll (p :: pat) rep (c :: cs) = c :: replaceAll (p :: pat) rep cs := by
  simp [replaceAll, replaceFrom, Ne.symm h]

theorem replaceAll_cons_of_not_match {pat : List α} {c : α} {cs : List α}
    (h : pat.isPrefixOf (c :: cs) = false) (rep : List α) :
    replaceAll pat rep (c :: cs) = c :: replaceAll pat rep cs := by
  simp [replaceAll, replaceFrom, h]

/-- A stretch without the first character of the pattern is kept. -/
theorem replaceAll_append_of_not_mem {p : α} {ds : List α} (h : p ∉ ds) (pat rep cs : List α) :
    replaceAll (p :: pat) rep (ds ++ cs) = ds ++ replaceAll (p :: pat) rep cs := by
  induction ds with
  | nil => rfl
  | cons d ds ih =>
    simp only [List.mem_cons, not_or] at h
    rw [List.cons_append, replaceAll_cons_of_ne (Ne.symm h.1), ih h.2, List.cons_append]

theorem replaceAll_match (p : α) (pat rep cs : List α) :
    replaceAll (p :: pat) rep (p :: pat ++ cs) = rep ++ replaceAll (p :: pat) rep cs := by
  have hp : (p :: pat).isPrefixOf (p :: (pat ++ cs)) = true := by simp
  simp only [replaceAll, List.cons_append, replaceFrom, hp, ↓reduceIte, List.length_cons,
    Nat.add_sub_cancel, replaceFrom_skip]

/-- Erasing a single character is filtering it out. -/
theorem eraseAll_singleton (p : α) (cs : List α) : eraseAll [p] cs = cs.filter (· ≠ p) := by
  unfold eraseAll
  induction cs with
  | nil => rfl
  | cons c cs ih =>
    by_cases hc : c = p
    · subst hc
      have := replaceAll_match c [] [] cs
      simp_all
    · simp [replaceAll_cons_of_ne hc, ih, hc]

/-- The text before the first separator determines itself. -/
theorem eq_of_append_cons_eq {q : α} {us vs rs ss : List α} (hu : q ∉ us) (hv : q ∉ vs)
    (h : us ++ q :: rs = vs ++ q :: ss) : us = vs := by
  have ht (ws xs : List α) (hw : q ∉ ws) : (ws ++ q :: xs).takeWhile (· ≠ q) = ws := by
    have hp : ∀ w ∈ ws, decide (w ≠ q) = true := fun w hm => by
      have : w ≠ q := fun e => hw (e ▸ hm)
      simpa using this
    rw [List.takeWhile_append_of_pos hp]
    simp
  rw [← ht us rs hu, h, ht vs ss hv]

theorem eraseFirst_append (p : α) (pat cs : List α) : eraseFirst (p :: pat) (p :: pat ++ cs) = cs := by
  simp [eraseFirst]

theorem eraseLast_append (p : α) (cs : List α) : eraseLast [p] (cs ++ [p]) = cs := by
  simp [eraseLast, eraseFirst]

end Text
