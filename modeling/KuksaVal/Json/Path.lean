import KuksaVal.Json.Location

/-! Path queries. The query library is a parameter: what is assumed of it is that an
expression made of bracketed selectors selects what the selectors say, and that an
identifier after a dot selects the member of that name. -/
namespace Json

inductive Selector where
  | name (k : String)
  | index (i : ℕ)
  | wildcard
  deriving DecidableEq, Repr

/-- The steps a selector takes from a value, in member order. -/
def Selector.steps : Selector → Json → List Step
  | .name k, j => if (j.child? (.key k)).isSome then [.key k] else []
  | .index i, j => if (j.child? (.index i)).isSome then [.index i] else []
  | .wildcard, .obj ms => ms.map fun m => .key m.1
  | .wildcard, .arr xs => (List.range xs.length).map .index
  | .wildcard, _ => []

def select : List Selector → Json → List Loc
  | [], _ => [[]]
  | s :: ss, j => (s.steps j).flatMap fun t =>
      ((j.child? t).elim [] (select ss)).map (t :: ·)

@[simp] theorem select_nil (j : Json) : select [] j = [[]] := rfl

theorem mem_select_cons {s : Selector} {ss : List Selector} {j : Json} {l : Loc} :
    l ∈ select (s :: ss) j ↔
      ∃ t ∈ s.steps j, ∃ c, j.child? t = some c ∧ ∃ m ∈ select ss c, l = t :: m := by
  simp only [select, List.mem_flatMap, List.mem_map]
  constructor
  · rintro ⟨t, ht, m, hm, rfl⟩
    cases hc : j.child? t with
    | none => simp [hc] at hm
    | some c => exact ⟨t, ht, c, hc, m, by simpa [hc] using hm, rfl⟩
  · rintro ⟨t, ht, c, hc, m, hm, rfl⟩
    exact ⟨t, ht, m, by simpa [hc] using hm, rfl⟩

/-- A name selects the member of that name, and what is selected in it. -/
theorem mem_select_name {k : String} {ss : List Selector} {j : Json} {l : Loc} :
    l ∈ select (.name k :: ss) j ↔
      ∃ c, j.get? k = some c ∧ ∃ m ∈ select ss c, l = .key k :: m := by
  rw [mem_select_cons, ← child?_key]
  constructor
  · rintro ⟨t, ht, c, hc, m, hm, rfl⟩
    rw [Selector.steps] at ht
    split_ifs at ht
    · obtain rfl := List.mem_singleton.mp ht
      exact ⟨c, hc, m, hm, rfl⟩
    · simp at ht
  · rintro ⟨c, hc, m, hm, rfl⟩
    exact ⟨.key k, by simp [Selector.steps, hc], c, hc, m, hm, rfl⟩

theorem select_located {ss : List Selector} {j : Json} {l : Loc} (h : l ∈ select ss j) :
    (j.at? l).isSome := by
  induction ss generalizing j l with
  | nil => simp_all
  | cons s ss ih =>
    obtain ⟨t, _, c, hc, m, hm, rfl⟩ := mem_select_cons.mp h
    simpa [at?_cons, hc] using ih hm

theorem select_length {ss : List Selector} {j : Json} {l : Loc} (h : l ∈ select ss j) :
    l.length = ss.length := by
  induction ss generalizing j l with
  | nil => simp_all
  | cons s ss ih =>
    obtain ⟨t, _, c, _, m, hm, rfl⟩ := mem_select_cons.mp h
    simp [ih hm]

theorem steps_setChild (s : Selector) (j : Json) (t : Step) (v : Json) :
    s.steps (j.setChild t v) = s.steps j := by
  cases s with
  | name k =>
    have h : ((j.setChild t v).child? (.key k)).isSome = (j.child? (.key k)).isSome := by
      rw [child?_setChild]
      split_ifs with he
      · simp [he]
      · rfl
    simp only [Selector.steps, h]
  | index i =>
    have h : ((j.setChild t v).child? (.index i)).isSome = (j.child? (.index i)).isSome := by
      rw [child?_setChild]
      split_ifs with he
      · simp [he]
      · rfl
    simp only [Selector.steps, h]
  | wildcard =>
    cases j with
    | obj ms =>
      cases t with
      | key k =>
        have h := congrArg (List.map Step.key) (Members.put_keys k v ms)
        rwa [List.map_map, List.map_map] at h
      | index i => rfl
    | arr xs => cases t <;> simp [Selector.steps, setChild]
    | _ => cases t <;> rfl

/-- What is selected above a replaced location stays selected, and nothing else is. -/
theorem select_setAt {ss : List Selector} {j : Json} {l : Loc} (h : ss.length ≤ l.length)
    (v : Json) : select ss (j.setAt l v) = select ss j := by
  induction ss generalizing j l with
  | nil => rfl
  | cons s ss ih =>
    cases l with
    | nil => simp at h
    | cons t l =>
      cases hc : j.child? t with
      | none => rw [setAt_cons_none hc]
      | some c =>
        simp only [setAt_cons_some hc, select, steps_setChild]
        congr 1
        funext u
        rw [child?_setChild]
        split_ifs with hu
        · subst hu
          simp [hc, ih (by simpa using h)]
        · rfl

def escapeName (c : Char) : List Char :=
  if c = '\x27' ∨ c = '\\' then ['\\', c] else [c]

def Selector.render : Selector → List Char
  | .name k => ['[', '\x27'] ++ k.toList.flatMap escapeName ++ ['\x27', ']']
  | .index i => '[' :: (Nat.toDigits 10 i ++ [']'])
  | .wildcard => ['[', '*', ']']

/-- The bracketed expression for a list of selectors. -/
def renderPath (ss : List Selector) : String := String.ofList ('$' :: ss.flatMap Selector.render)

def Step.selector : Step → Selector
  | .key k => .name k
  | .index i => .index i

/-- The normalized path of a location. -/
def Loc.toPath (l : Loc) : String := renderPath (l.map Step.selector)

theorem steps_selector {j c : Json} {s : Step} (h : j.child? s = some c) :
    s.selector.steps j = [s] := by
  cases s <;> simp [Step.selector, Selector.steps, h]

/-- Selecting along a location, and then further in what is there. -/
theorem select_loc_append {j c : Json} {l : Loc} (h : j.at? l = some c) (ss : List Selector) :
    select (l.map Step.selector ++ ss) j = (select ss c).map (l ++ ·) := by
  induction l generalizing j with
  | nil =>
    obtain rfl : j = c := by simpa using h
    simp
  | cons s l ih =>
    obtain ⟨d, hd, hl⟩ := Option.bind_eq_some_iff.mp h
    simp [select, steps_selector hd, hd, ih hl, Function.comp_def]

theorem select_loc {j : Json} {l : Loc} (h : (j.at? l).isSome) :
    select (l.map Step.selector) j = [l] := by
  obtain ⟨c, hc⟩ := Option.isSome_iff_exists.mp h
  simpa using select_loc_append hc []

theorem renderPath_append (ss ts : List Selector) :
    renderPath (ss ++ ts) = renderPath ss ++ String.ofList (ts.flatMap Selector.render) := by
  simp [renderPath, ← String.toList_inj]

def isIdentChar (c : Char) : Bool := c.isAlphanum || c = '_'

/-- Letters, digits and underscores. -/
def Identifier (s : String) : Prop := s.toList ≠ [] ∧ ∀ c ∈ s.toList, isIdentChar c = true

instance (s : String) : Decidable (Identifier s) :=
  decidable_of_iff (s.toList ≠ [] ∧ s.toList.all isIdentChar) (by simp [Identifier])

def dottedPath (names : List String) : String :=
  String.ofList ('$' :: names.flatMap fun n => '.' :: n.toList)

end Json

/-- The path query library: an expression is malformed or denotes the locations it selects
in a document, in order. -/
structure JsonPath where
  compile : String → Except String (Json → List Json.Loc)
  located : ∀ {p f}, compile p = .ok f → ∀ j, ∀ l ∈ f j, (j.at? l).isSome
  bracketed : ∀ ss, compile (Json.renderPath ss) = .ok (Json.select ss)
  dotted : ∀ names, (∀ n ∈ names, Json.Identifier n) →
    compile (Json.dottedPath names) = .ok (Json.select (names.map .name))

namespace JsonPath
open Json

/-- Read a quoted name up to its closing quote and bracket. -/
def lexName : List Char → Option (List Char × List Char)
  | '\\' :: c :: cs => (lexName cs).map fun r => (c :: r.1, r.2)
  | '\x27' :: ']' :: cs => some ([], cs)
  | '\x27' :: _ => none
  | c :: cs => (lexName cs).map fun r => (c :: r.1, r.2)
  | [] => none

def lexSelector : List Char → Option (Selector × List Char)
  | '[' :: '*' :: ']' :: cs => some (.wildcard, cs)
  | '[' :: '\x27' :: cs => (lexName cs).map fun r => (.name (String.ofList r.1), r.2)
  | '[' :: cs =>
      match cs.takeWhile Char.isDigit, cs.dropWhile Char.isDigit with
      | d :: ds, ']' :: rest => some (.index (Nat.ofDigitChars 10 (d :: ds) 0), rest)
      | _, _ => none
  | '.' :: cs =>
      match cs.takeWhile isIdentChar with
      | [] => none
      | n => some (.name (String.ofList n), cs.dropWhile isIdentChar)
  | _ => none

/-- Selectors to the end of the text, at most as many as the fuel. -/
def parseSelectors : ℕ → List Char → Option (List Selector)
  | _, [] => some []
  | 0, _ :: _ => none
  | n + 1, c :: cs => do
      let (s, rest) ← lexSelector (c :: cs)
      let ss ← parseSelectors n rest
      return s :: ss

def parse (p : String) : Option (List Selector) :=
  match p.toList with
  | '$' :: cs => parseSelectors cs.length cs
  | _ => none

theorem lexName_escaped (k rest : List Char) :
    lexName (k.flatMap escapeName ++ '\x27' :: ']' :: rest) = some (k, rest) := by
  induction k with
  | nil => rfl
  | cons c k ih =>
    by_cases hc : c = '\x27' ∨ c = '\\'
    · simp [escapeName, hc, lexName, ih]
    · have hq : c ≠ '\x27' := fun h => hc (Or.inl h)
      have hb : c ≠ '\\' := fun h => hc (Or.inr h)
      simp only [List.flatMap_cons, escapeName, hc, ↓reduceIte, List.cons_append, List.nil_append]
      rw [lexName.eq_4 _ _ (fun _ _ h _ => hb h) (fun _ h _ => hq h) hq]
      simp [ih]

theorem lexSelector_render (s : Selector) (rest : List Char) :
    lexSelector (s.render ++ rest) = some (s, rest) := by
  cases s with
  | name k => simp [Selector.render, lexSelector, lexName_escaped]
  | wildcard => rfl
  | index i =>
    have hd : ∀ c ∈ Nat.toDigits 10 i, c.isDigit = true := fun c hc =>
      Nat.isDigit_of_mem_toDigits (by decide) (by decide) hc
    have hv : Nat.ofDigitChars 10 (Nat.toDigits 10 i) 0 = i := Nat.ofDigitChars_ten_toDigits
    have hn : Nat.toDigits 10 i ≠ [] := Nat.toDigits_ne_nil
    simp only [Selector.render, List.cons_append, List.append_assoc, List.nil_append]
    generalize Nat.toDigits 10 i = ds at hd hv hn
    have ht : (ds ++ ']' :: rest).takeWhile Char.isDigit = ds := by
      rw [List.takeWhile_append_of_pos hd]
      simp
    have hr : (ds ++ ']' :: rest).dropWhile Char.isDigit = ']' :: rest := by
      rw [List.dropWhile_append_of_pos hd]
      simp
    cases ds with
    | nil => exact absurd rfl hn
    | cons d ds =>
      have hdd : d.isDigit = true := hd d (by simp)
      have h1 : d ≠ '*' := fun h => by simp [h] at hdd
      have h2 : d ≠ '\x27' := fun h => by simp [h] at hdd
      rw [List.cons_append] at ht hr ⊢
      rw [lexSelector.eq_3 _ (fun _ h => h1 (List.cons.inj h).1) (fun _ h => h2 (List.cons.inj h).1),
        ht, hr]
      simp [hv]

theorem parseSelectors_render (ss : List Selector) (n : ℕ) (h : ss.length ≤ n) :
    parseSelectors n (ss.flatMap Selector.render) = some ss := by
  induction ss generalizing n with
  | nil => cases n <;> rfl
  | cons s ss ih =>
    cases n with
    | zero => simp at h
    | succ n =>
      have hl := lexSelector_render s (ss.flatMap Selector.render)
      have hr := ih n (by simpa using h)
      cases hs : s.render with
      | nil => cases s <;> simp [Selector.render] at hs
      | cons c cs =>
        simp only [List.flatMap_cons, hs, List.cons_append] at hl ⊢
        simp [parseSelectors, hl, hr]

private def dotted' (names : List String) : List Char := names.flatMap fun n => '.' :: n.toList

private theorem dotted_takeWhile {n : String} (hn : Identifier n) (names : List String) :
    (n.toList ++ dotted' names).takeWhile isIdentChar = n.toList ∧
    (n.toList ++ dotted' names).dropWhile isIdentChar = dotted' names := by
  rw [List.takeWhile_append_of_pos hn.2, List.dropWhile_append_of_pos hn.2]
  cases names with
  | nil => simp [dotted']
  | cons m names => simp [dotted', isIdentChar]

theorem parseSelectors_dotted (names : List String) (hi : ∀ n ∈ names, Identifier n) (k : ℕ)
    (h : names.length ≤ k) :
    parseSelectors k (names.flatMap fun n => '.' :: n.toList) = some (names.map .name) := by
  induction names generalizing k with
  | nil => cases k <;> rfl
  | cons n names ih =>
    cases k with
    | zero => simp at h
    | succ k =>
      have hn : Identifier n := hi n (by simp)
      obtain ⟨ht, hd⟩ := dotted_takeWhile hn names
      have hr := ih (fun m hm => hi m (by simp [hm])) k (by simpa using h)
      simp only [List.flatMap_cons, List.cons_append]
      change parseSelectors (k + 1) ('.' :: (n.toList ++ dotted' names)) = _
      have hl : lexSelector ('.' :: (n.toList ++ dotted' names)) =
          some (.name n, dotted' names) := by
        simp only [lexSelector, ht, hd]
        cases hc : n.toList with
        | nil => exact absurd hc hn.1
        | cons c cs => simp [← hc]
      simp only [parseSelectors, hl, Option.bind_eq_bind, Option.bind_some]
      change (parseSelectors k (dotted' names)).bind _ = _
      rw [show parseSelectors k (dotted' names) = _ from hr]
      rfl

theorem length_le_flatMap {α β : Type*} (f : α → List β) (hf : ∀ a, f a ≠ []) (xs : List α) :
    xs.length ≤ (xs.flatMap f).length := by
  induction xs with
  | nil => simp
  | cons x xs ih =>
    have := List.length_pos_iff.mpr (hf x)
    simp only [List.flatMap_cons, List.length_append, List.length_cons]
    omega

@[simp] theorem parse_render (ss : List Selector) : parse (renderPath ss) = some ss := by
  simp only [parse, renderPath, String.toList_ofList]
  exact parseSelectors_render ss _ (length_le_flatMap _ (fun s => by
    cases s <;> simp [Selector.render]) ss)

theorem parse_dotted (names : List String) (hi : ∀ n ∈ names, Identifier n) :
    parse (dottedPath names) = some (names.map .name) := by
  simp only [parse, dottedPath, String.toList_ofList]
  exact parseSelectors_dotted names hi _ (length_le_flatMap _ (fun n => by simp) names)

/-- The selector language by itself: any other text is malformed. -/
def selectors : JsonPath where
  compile p := match parse p with
    | some ss => .ok (select ss)
    | none => .error "Syntax error"
  located := by
    intro p f h j l hl
    cases hp : parse p with
    | none => simp [hp] at h
    | some ss =>
      simp only [hp, Except.ok.injEq] at h
      exact select_located (h ▸ hl)
  bracketed ss := by simp
  dotted names hi := by simp [parse_dotted names hi]

/-- The selector language with one further expression. -/
def selectorsAnd (p : String) (f : Json → List Loc) (hf : ∀ j, ∀ l ∈ f j, (j.at? l).isSome)
    (hp : parse p = none) : JsonPath where
  compile q := if q = p then .ok f else selectors.compile q
  located := by
    intro q g h j l hl
    split_ifs at h
    · exact hf j l (Except.ok.inj h ▸ hl)
    · exact selectors.located h j l hl
  bracketed ss := by
    have hne : renderPath ss ≠ p := fun h => by simp [← h] at hp
    simp [hne, selectors.bracketed]
  dotted names hi := by
    have hne : dottedPath names ≠ p := fun h => by simp [← h, parse_dotted names hi] at hp
    simp [hne, selectors.dotted names hi]

variable (jp : JsonPath)

/-- The locations a query matches. -/
def matches? (j : Json) (p : String) : Except String (List Loc) := (jp.compile p).map fun f => f j

/-- `json_query` with result type value. -/
def query (j : Json) (p : String) : Except String (List Json) :=
  (jp.matches? j p).map fun ls => ls.filterMap j.at?

/-- `json_query` with result type path. -/
def queryPaths (j : Json) (p : String) : Except String (List String) :=
  (jp.matches? j p).map fun ls => ls.map Loc.toPath

/-- `json_replace`: every matched value is replaced. -/
def replace (j : Json) (p : String) (v : Json) : Except String Json :=
  (jp.matches? j p).map fun ls => ls.foldl (fun d l => d.setAt l v) j

variable {jp} {j : Json} {p : String} {ls : List Loc}

theorem matches?_renderPath (j : Json) (ss : List Selector) :
    jp.matches? j (renderPath ss) = .ok (select ss j) := by
  simp [matches?, jp.bracketed, Except.map]

theorem matches?_error_iff {e : String} : jp.matches? j p = .error e ↔ jp.compile p = .error e := by
  unfold matches?
  cases jp.compile p <;> simp [Except.map]

theorem matches?_eq_ok (h : jp.matches? j p = .ok ls) : ∃ f, jp.compile p = .ok f ∧ f j = ls := by
  unfold matches? at h
  cases hc : jp.compile p with
  | error e => simp [hc, Except.map] at h
  | ok f => exact ⟨f, rfl, by simpa [hc, Except.map] using h⟩

theorem matches?_located (h : jp.matches? j p = .ok ls) : ∀ l ∈ ls, (j.at? l).isSome := by
  obtain ⟨f, hc, rfl⟩ := matches?_eq_ok h
  exact jp.located hc j

theorem query_of_matches (h : jp.matches? j p = .ok ls) :
    jp.query j p = .ok (ls.filterMap j.at?) := by
  simp [query, h, Except.map]

theorem query_length (h : jp.matches? j p = .ok ls) {vs : List Json}
    (hq : jp.query j p = .ok vs) : vs.length = ls.length := by
  rw [query_of_matches h, Except.ok.injEq] at hq
  rw [← hq]
  have hl := matches?_located h
  clear h hq
  induction ls with
  | nil => rfl
  | cons l ls ih =>
    obtain ⟨v, hv⟩ := Option.isSome_iff_exists.mp (hl l (by simp))
    simp [hv, ih fun m hm => hl m (List.mem_cons_of_mem _ hm)]

/-- A query has one result exactly when one location is matched, and it is what is there. -/
theorem query_eq_singleton_iff {v : Json} :
    jp.query j p = .ok [v] ↔ ∃ l, jp.matches? j p = .ok [l] ∧ j.at? l = some v := by
  constructor
  · intro hq
    cases hm : jp.matches? j p with
    | error e => simp [query, hm, Except.map] at hq
    | ok ls =>
      have hl := query_length hm hq
      obtain ⟨l, rfl⟩ := List.length_eq_one_iff.mp hl.symm
      refine ⟨l, rfl, ?_⟩
      obtain ⟨w, hw⟩ := Option.isSome_iff_exists.mp (matches?_located hm l (by simp))
      rw [query_of_matches hm] at hq
      simpa [hw] using hq
  · rintro ⟨l, hm, hv⟩
    simp [query_of_matches hm, hv]

theorem query_eq_error_iff {e : String} : jp.query j p = .error e ↔ jp.compile p = .error e := by
  rw [← matches?_error_iff (j := j)]
  unfold query
  cases jp.matches? j p <;> simp [Except.map]

theorem replace_singleton {l : Loc} (h : jp.matches? j p = .ok [l]) (v : Json) :
    jp.replace j p v = .ok (j.setAt l v) := by
  simp [replace, h, Except.map]

end JsonPath
