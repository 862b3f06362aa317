import KuksaVal.Json.Path
import Mathlib.Data.List.TakeWhile

/-! Expressions that go on with dotted names, whatever stands before these. -/
namespace Json

def dottedNames (names : List String) : String :=
  String.ofList (names.flatMap fun n => '.' :: n.toList)

@[simp] theorem dottedNames_nil : dottedNames [] = "" := rfl

theorem toList_dottedNames (names : List String) :
    (dottedNames names).toList = names.flatMap fun n => '.' :: n.toList := String.toList_ofList

theorem append_dottedNames_concat (p : String) (names : List String) (n : String) :
    p ++ dottedNames (names ++ [n]) = p ++ dottedNames names ++ "." ++ n := by
  simp [dottedNames, ← String.toList_inj]

/-- What is selected by selectors with a name is below members of that name. -/
theorem key_mem_of_select {ss : List Selector} {j : Json} {l : Loc} (h : l ∈ select ss j)
    {k : String} (hk : .name k ∈ ss) : .key k ∈ l := by
  induction ss generalizing j l with
  | nil => simp at hk
  | cons s ss ih =>
    rcases List.mem_cons.mp hk with rfl | hk
    · obtain ⟨c, -, m, -, rfl⟩ := mem_select_name.mp h
      exact List.mem_cons_self
    · obtain ⟨t, -, c, -, m, hm, rfl⟩ := mem_select_cons.mp h
      exact List.mem_cons_of_mem _ (ih hm hk)

end Json

namespace JsonPath
open Json

/-- What is assumed of the library where an expression goes on with dotted names: it selects only
below members of these names. A hyphen in the last one is part of the name, or malformed. -/
structure NamesMembers (jp : JsonPath) : Prop where
  dotted : ∀ {p f g}, jp.compile p = .ok f → ∀ names, (∀ n ∈ names, Identifier n) →
    jp.compile (p ++ dottedNames names) = .ok g → ∀ j, ∀ l ∈ g j, ∀ n ∈ names, .key n ∈ l
  hyphenated : ∀ {p f g}, jp.compile p = .ok f → ∀ names, (∀ n ∈ names, Identifier n) →
    ∀ n rest, Identifier n →
      jp.compile (p ++ dottedNames (names ++ [n ++ "-" ++ rest])) = .ok g →
        ∀ j, ∀ l ∈ g j, ∃ k, .key (n ++ "-" ++ k) ∈ l

/-! The selector language: what comes before a dot is read as it is without what follows. -/

theorem takeWhile_append_of_neg {p : Char → Bool} {c : Char} (hc : p c = false)
    (xs ys : List Char) : (xs ++ c :: ys).takeWhile p = xs.takeWhile p := by
  induction xs with
  | nil => simp [hc]
  | cons x xs ih =>
    simp only [List.cons_append, List.takeWhile_cons, ih]

theorem dropWhile_append_of_neg {p : Char → Bool} {c : Char} (hc : p c = false)
    (xs ys : List Char) : (xs ++ c :: ys).dropWhile p = xs.dropWhile p ++ c :: ys := by
  induction xs with
  | nil => simp [hc]
  | cons x xs ih =>
    simp only [List.cons_append, List.dropWhile_cons, ih]
    split_ifs <;> rfl

theorem lexName_append {cs n rest : List Char} (h : lexName cs = some (n, rest))
    (t : List Char) : lexName (cs ++ t) = some (n, rest ++ t) := by
  fun_induction lexName cs generalizing n rest with
  | case1 c cs ih =>
    obtain ⟨⟨n', rest'⟩, hr, he⟩ := Option.map_eq_some_iff.mp h
    obtain ⟨rfl, rfl⟩ := Prod.mk.inj he
    simp [lexName, ih hr]
  | case2 cs =>
    obtain ⟨rfl, rfl⟩ := Prod.mk.inj (Option.some.inj h)
    rfl
  | case3 => simp at h
  | case4 c cs hb hq1 hq2 ih =>
    obtain ⟨⟨n', rest'⟩, hr, he⟩ := Option.map_eq_some_iff.mp h
    obtain ⟨rfl, rfl⟩ := Prod.mk.inj he
    have hne : c ≠ '\\' := by
      rintro rfl
      cases cs with
      | nil => simp [lexName] at hr
      | cons d ds => exact hb d ds rfl rfl
    rw [List.cons_append, lexName.eq_4 _ _ (fun _ _ hc _ => hne hc) (fun _ hc _ => hq2 hc) hq2, ih hr]
    rfl
  | case5 => simp at h

theorem lexSelector_append {cs rest : List Char} {s : Selector}
    (h : lexSelector cs = some (s, rest)) (t : List Char) :
    lexSelector (cs ++ '.' :: t) = some (s, rest ++ '.' :: t) := by
  unfold lexSelector at h
  split at h
  · obtain ⟨rfl, rfl⟩ := Prod.mk.inj (Option.some.inj h)
    rfl
  · obtain ⟨⟨n, rest'⟩, hn, he⟩ := Option.map_eq_some_iff.mp h
    obtain ⟨rfl, rfl⟩ := Prod.mk.inj he
    simp [lexSelector, lexName_append hn]
  · rename_i cs hstar hquote
    split at h
    · rename_i d ds rest' hdigits hclose
      obtain ⟨rfl, rfl⟩ := Prod.mk.inj (Option.some.inj h)
      have hd : d.isDigit = true := List.mem_takeWhile_imp (hdigits ▸ List.mem_cons_self)
      obtain ⟨cs, rfl⟩ : ∃ cs', cs = d :: cs' := by
        refine ⟨ds ++ ']' :: rest', ?_⟩
        rw [← List.takeWhile_append_dropWhile (p := Char.isDigit) (l := cs), hdigits, hclose]
        rfl
      have h1 : d ≠ '*' := fun h => by simp [h] at hd
      have h2 : d ≠ '\x27' := fun h => by simp [h] at hd
      rw [List.cons_append, List.cons_append, lexSelector.eq_3 _
        (fun _ h => h1 (List.cons.inj h).1) (fun _ h => h2 (List.cons.inj h).1), ← List.cons_append,
        takeWhile_append_of_neg (by decide), dropWhile_append_of_neg (by decide), hdigits, hclose]
      rfl
    · simp at h
  · rename_i cs
    simp only [List.cons_append, lexSelector]
    rw [takeWhile_append_of_neg (by decide), dropWhile_append_of_neg (by decide)]
    split at h
    · simp at h
    · rename_i hn
      obtain ⟨rfl, rfl⟩ := Prod.mk.inj (Option.some.inj h)
      rfl
  · simp at h

theorem parseSelectors_cons_iff {n : ℕ} {c : Char} {cs : List Char} {us : List Selector} :
    parseSelectors (n + 1) (c :: cs) = some us ↔ ∃ s rest vs,
      lexSelector (c :: cs) = some (s, rest) ∧ parseSelectors n rest = some vs ∧ us = s :: vs := by
  simp only [parseSelectors, Option.bind_eq_bind, Option.bind_eq_some_iff, Prod.exists]
  constructor
  · rintro ⟨s, rest, hl, vs, hp, he⟩
    exact ⟨s, rest, vs, hl, hp, (Option.some.inj he).symm⟩
  · rintro ⟨s, rest, vs, hl, hp, rfl⟩
    exact ⟨s, rest, hl, vs, hp, rfl⟩

/-- What is read of a text that goes on with a dot is what is read of the two parts. -/
theorem parseSelectors_append {n k : ℕ} {cs t : List Char} {ss us : List Selector}
    (h : parseSelectors n cs = some ss) (hu : parseSelectors k (cs ++ '.' :: t) = some us) :
    ∃ m vs, parseSelectors m ('.' :: t) = some vs ∧ us = ss ++ vs := by
  induction n generalizing k cs ss us with
  | zero =>
    cases cs with
    | nil =>
      obtain rfl := Option.some.inj h
      exact ⟨k, us, hu, rfl⟩
    | cons c cs => simp [parseSelectors] at h
  | succ n ih =>
    cases cs with
    | nil =>
      obtain rfl := Option.some.inj h
      exact ⟨k, us, hu, rfl⟩
    | cons c cs =>
      obtain ⟨s, rest, ss', hl, hp, rfl⟩ := parseSelectors_cons_iff.mp h
      cases k with
      | zero => simp [parseSelectors] at hu
      | succ k =>
        obtain ⟨s', rest', us', hl', hp', rfl⟩ := parseSelectors_cons_iff.mp hu
        obtain ⟨rfl, rfl⟩ := Prod.mk.inj (Option.some.inj
          ((lexSelector_append hl t).symm.trans hl'))
        obtain ⟨m, vs, hm, rfl⟩ := ih hp hp'
        exact ⟨m, vs, hm, rfl⟩

theorem lexSelector_identifier {n : String} (hn : Identifier n) {t : List Char}
    (ht : ∀ c, t.head? = some c → isIdentChar c = false) :
    lexSelector ('.' :: (n.toList ++ t)) = some (.name n, t) := by
  have htake : (n.toList ++ t).takeWhile isIdentChar = n.toList := by
    rw [List.takeWhile_append_of_pos hn.2]
    cases t with
    | nil => simp
    | cons c t => simp [ht c rfl]
  have hdrop : (n.toList ++ t).dropWhile isIdentChar = t := by
    rw [List.dropWhile_append_of_pos hn.2]
    cases t with
    | nil => rfl
    | cons c t => simp [ht c rfl]
  simp only [lexSelector, htake, hdrop]
  split
  · rename_i he
    exact absurd he hn.1
  · simp

/-- Names, and then what follows them, are read one after the other. -/
theorem parseSelectors_names {names : List String} (hi : ∀ n ∈ names, Identifier n) {t : List Char}
    (ht : ∀ c, t.head? = some c → c = '.') {k : ℕ} {us : List Selector}
    (h : parseSelectors k ((names.flatMap fun n => '.' :: n.toList) ++ t) = some us) :
    ∃ m vs, parseSelectors m t = some vs ∧ us = names.map .name ++ vs := by
  induction names generalizing k us with
  | nil => exact ⟨k, us, h, rfl⟩
  | cons n names ih =>
    obtain ⟨hn, hi⟩ := List.forall_mem_cons.mp hi
    have hnext (c : Char)
        (hc : ((names.flatMap fun n => '.' :: n.toList) ++ t).head? = some c) :
        isIdentChar c = false := by
      obtain rfl : c = '.' := by
        cases names with
        | nil => exact ht c hc
        | cons m names => exact (Option.some.inj hc).symm
      decide
    rw [List.flatMap_cons, List.cons_append, List.cons_append, List.append_assoc] at h
    cases k with
    | zero => simp [parseSelectors] at h
    | succ k =>
      obtain ⟨s, rest, us', hl, hp, rfl⟩ := parseSelectors_cons_iff.mp h
      obtain ⟨rfl, rfl⟩ := Prod.mk.inj (Option.some.inj
        ((lexSelector_identifier hn hnext).symm.trans hl))
      obtain ⟨m, vs, hm, rfl⟩ := ih hi hp
      exact ⟨m, vs, hm, rfl⟩

theorem compile_selectors {p : String} {f : Json → List Loc} (h : selectors.compile p = .ok f) :
    ∃ ss, parse p = some ss ∧ f = select ss := by
  simp only [selectors] at h
  split at h
  · rename_i ss hp
    exact ⟨ss, hp, (Except.ok.inj h).symm⟩
  · simp at h

theorem parse_eq_some {p : String} {ss : List Selector} (h : parse p = some ss) :
    ∃ cs, p.toList = '$' :: cs ∧ ∃ n, parseSelectors n cs = some ss := by
  unfold parse at h
  split at h
  · rename_i cs hp
    exact ⟨cs, hp, _, h⟩
  · simp at h

/-- An expression, and names and a text that follow it with dots. -/
theorem parse_append {p q : String} {ss us : List Selector} (hp : parse p = some ss)
    {names : List String} (hi : ∀ n ∈ names, Identifier n) {t : List Char}
    (ht : ∀ c, t.head? = some c → c = '.')
    (hq : q.toList = (names.flatMap fun n => '.' :: n.toList) ++ t) (h : parse (p ++ q) = some us) :
    ∃ m vs, parseSelectors m t = some vs ∧ us = ss ++ (names.map .name ++ vs) := by
  obtain ⟨cs, hcs, n, hn⟩ := parse_eq_some hp
  obtain ⟨ds, hds, k, hk⟩ := parse_eq_some h
  have hds' : ds = cs ++ q.toList := by
    rw [String.toList_append, hcs, List.cons_append] at hds
    exact (List.cons.inj hds).2.symm
  have hfollow : ∃ m vs, parseSelectors m q.toList = some vs ∧ us = ss ++ vs := by
    cases hqs : q.toList with
    | nil =>
      have hpq : p ++ q = p := by simp [← String.toList_inj, hqs]
      rw [hpq, hp] at h
      exact ⟨0, [], rfl, by simpa using (Option.some.inj h).symm⟩
    | cons c t' =>
      obtain rfl : c = '.' := by
        cases names with
        | nil => exact ht c (congrArg List.head? (hq.symm.trans hqs))
        | cons m names => exact (List.cons.inj (hqs.symm.trans hq)).1
      exact parseSelectors_append hn (hqs ▸ hds' ▸ hk)
  obtain ⟨m, vs, hvs, rfl⟩ := hfollow
  obtain ⟨m', ws, hws, rfl⟩ := parseSelectors_names hi ht (hq ▸ hvs)
  exact ⟨m', ws, hws, rfl⟩

theorem selectors_namesMembers : NamesMembers .selectors where
  dotted := by
    intro p f g hf names hi hg j l hl n hn
    obtain ⟨ss, hss, -⟩ := compile_selectors hf
    obtain ⟨us, hus, rfl⟩ := compile_selectors hg
    obtain ⟨m, vs, -, rfl⟩ := parse_append (t := []) hss hi (by simp)
      (by rw [toList_dottedNames, List.append_nil]) hus
    exact key_mem_of_select hl
      (List.mem_append_right _ (List.mem_append_left _ (List.mem_map_of_mem hn)))
  hyphenated := by
    intro p f g hf names hi n rest hn hg j l hl
    obtain ⟨ss, hss, -⟩ := compile_selectors hf
    obtain ⟨us, hus, rfl⟩ := compile_selectors hg
    obtain ⟨m, vs, hvs, rfl⟩ := parse_append (t := '.' :: (n.toList ++ '-' :: rest.toList)) hss hi
      (fun c hc => (Option.some.inj hc).symm) (by simp [toList_dottedNames]) hus
    -- The name is read up to its hyphen, which begins no selector.
    cases m with
    | zero => simp [parseSelectors] at hvs
    | succ m =>
      obtain ⟨s, t, vs', hl', hp, -⟩ := parseSelectors_cons_iff.mp hvs
      have hread := lexSelector_identifier hn (t := '-' :: rest.toList)
        (fun c hc => Option.some.inj hc ▸ by decide)
      obtain ⟨-, rfl⟩ := Prod.mk.inj (Option.some.inj (hread.symm.trans hl'))
      cases m with
      | zero => simp [parseSelectors] at hp
      | succ m =>
        obtain ⟨s, t, vs', hno, -, -⟩ := parseSelectors_cons_iff.mp hp
        simp [lexSelector] at hno

end JsonPath
