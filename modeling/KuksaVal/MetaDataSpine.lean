import Mathlib.Data.List.TakeWhile
import KuksaVal.MetadataTree
import KuksaVal.VssTree

/-! A request for metadata on a well-formed tree: the nodes on the way to the first match, each
inside the one above it. -/
namespace VssDatabase
open Json VSSPath

section Tokens

/-- A key as a query spells it. -/
def quoted (k : String) : List Char := '[' :: '\x27' :: (k.toList ++ ['\x27', ']'])

theorem strtok_of_not_mem {delims tok rest : List Char} {c : Char} (hne : tok ≠ [])
    (h : ∀ d ∈ tok, d ∉ delims) (hc : c ∈ delims) :
    strtok delims (tok ++ c :: rest) = some (tok, rest) := by
  obtain ⟨d, ds, rfl⟩ := List.exists_cons_of_ne_nil hne
  have hdrop : (d :: ds ++ c :: rest).dropWhile (· ∈ delims) = d :: ds ++ c :: rest := by
    simp [h d (by simp)]
  have htake : (d :: ds ++ c :: rest).takeWhile (· ∉ delims) = d :: ds := by
    rw [List.takeWhile_append_of_pos (by simpa using h)]
    simp [hc]
  have hrest : (d :: ds ++ c :: rest).dropWhile (· ∉ delims) = c :: rest := by
    rw [List.dropWhile_append_of_pos (by simpa using h)]
    simp [hc]
  rw [strtok, hdrop]
  show some ((d :: ds ++ c :: rest).takeWhile (· ∉ delims),
    ((d :: ds ++ c :: rest).dropWhile (· ∉ delims)).drop 1) = _
  rw [htake, hrest]
  rfl

/-- Between names the tokenizer skips a bracket and takes the next one. -/
theorem strtok_bracket (rest : List Char) :
    strtok ['\x27', ']'] (']' :: '[' :: '\x27' :: rest) = some (['['], rest) := by
  simp [strtok]

/-- A name that the tokenizer leaves in one piece. -/
def Quotable (n : String) : Prop :=
  n ≠ "" ∧ '[' ∉ n.toList ∧ '\x27' ∉ n.toList ∧ '\x00' ∉ n.toList

theorem quotable_of_identifier {n : String} (h : Identifier n) : Quotable n := by
  refine ⟨fun e => h.1 (by simp [e]), ?_, ?_, ?_⟩ <;>
    exact Segment.not_mem (.inr h) (by decide) (by decide)

theorem strtok_key {k : String} (hk : Quotable k) (rest : List Char) :
    strtok ['[', '\x27'] (k.toList ++ '\x27' :: rest) = some (k.toList, rest) := by
  apply strtok_of_not_mem (by simpa using hk.1) _ (by simp)
  intro d hd hmem
  simp only [List.mem_cons, List.not_mem_nil, or_false] at hmem
  rcases hmem with rfl | rfl
  · exact hk.2.1 hd
  · exact hk.2.2.1 hd

/-- The tokens of a query, from the first name on, are its keys. -/
theorem vssTokens_quoted (k : String) (ks : List String) (h : ∀ m ∈ k :: ks, Quotable m)
    (fuel : ℕ) (hf : 2 * ks.length + 2 ≤ fuel) :
    vssTokens fuel true (k.toList ++ '\x27' :: ']' :: ks.flatMap quoted) = k :: ks := by
  induction ks generalizing k fuel with
  | nil =>
    obtain ⟨n, rfl⟩ : ∃ n, fuel = n + 2 := ⟨fuel - 2, by omega⟩
    simp only [vssTokens, ↓reduceIte, strtok_key (h k List.mem_cons_self), String.ofList_toList]
    rfl
  | cons m ks ih =>
    rw [List.length_cons] at hf
    obtain ⟨n, rfl⟩ : ∃ n, fuel = n + 2 := ⟨fuel - 2, by omega⟩
    have hrest : ']' :: (m :: ks).flatMap quoted =
        ']' :: '[' :: '\x27' :: (m.toList ++ '\x27' :: ']' :: ks.flatMap quoted) := by
      simp [quoted]
    simp only [vssTokens, ↓reduceIte, strtok_key (h k List.mem_cons_self), hrest, strtok_bracket,
      Bool.false_eq_true, String.ofList_toList]
    rw [ih m (fun p hp => h p (List.mem_cons_of_mem k hp)) n (by omega)]

/-- The path of keys, as a query spells them one after the other. -/
def normalizedPath (names : List String) : String := String.ofList ('$' :: names.flatMap quoted)

theorem toPath_keys {ks : List String} (h : ∀ k ∈ ks, Identifier k) :
    Loc.toPath (ks.map .key) = normalizedPath ks := by
  rw [Loc.toPath, renderPath, normalizedPath, List.map_map, List.flatMap_map]
  congr 2
  apply List.flatMap_congr
  intro k hk
  have hplain : k.toList.flatMap escapeName = k.toList := flatMap_escapeName fun c hc =>
    ⟨fun e => Segment.not_mem (.inr (h k hk)) (by decide) (by decide) (e ▸ hc),
      fun e => Segment.not_mem (.inr (h k hk)) (by decide) (by decide) (e ▸ hc)⟩
  simp [Step.selector, Selector.render, hplain, quoted]

theorem length_flatMap_quoted (ks : List String) : 2 * ks.length ≤ (ks.flatMap quoted).length := by
  induction ks with
  | nil => simp
  | cons k ks ih =>
    simp only [List.flatMap_cons, List.length_append, List.length_cons, quoted]
    omega

/-- A leading quote is skipped. -/
theorem vssTokens_quote (fuel : ℕ) (text : List Char) :
    vssTokens fuel true ('\x27' :: text) = vssTokens fuel true text := by
  cases fuel with
  | zero => rfl
  | succ fuel => simp [vssTokens, strtok]

theorem cString_normalizedPath {names : List String} (h : ∀ n ∈ names, Quotable n) :
    cString (normalizedPath names) = '$' :: names.flatMap quoted := by
  rw [cString, normalizedPath, String.toList_ofList, List.takeWhile_eq_self_iff]
  intro c hc
  simp only [decide_eq_true_eq]
  rintro rfl
  simp only [List.mem_cons, List.mem_flatMap, quoted, List.mem_append, List.not_mem_nil] at hc
  rcases hc with hc | ⟨n, hn, hc | hc | hc | hc | hc | hc⟩
  · exact absurd hc (by decide)
  · exact absurd hc (by decide)
  · exact absurd hc (by decide)
  · exact (h n hn).2.2.2 hc
  · exact absurd hc (by decide)
  · exact absurd hc (by decide)
  · exact hc

/-- The tokens of a path of names are the names. -/
theorem getVSSTokens_quoted {names : List String} (h : ∀ n ∈ names, Quotable n) :
    getVSSTokens (normalizedPath names) = names := by
  have hpath := cString_normalizedPath h
  cases names with
  | nil =>
    rw [getVSSTokens, hpath]
    rfl
  | cons k ks =>
    have hlen : 2 * ks.length + 2 ≤ (normalizedPath (k :: ks)).length := by
      have := length_flatMap_quoted (k :: ks)
      rw [normalizedPath, String.length_ofList, List.length_cons]
      simp only [List.length_cons] at this
      omega
    have hfirst : strtok ['[', '\x27'] ('$' :: (k :: ks).flatMap quoted) =
        some (['$'], '\x27' :: (k.toList ++ '\x27' :: ']' :: ks.flatMap quoted)) := by
      simp [strtok, quoted]
    rw [getVSSTokens, hpath, hfirst]
    show vssTokens _ true _ = _
    rw [vssTokens_quote, vssTokens_quoted k ks h _ hlen]

/-- The tokens of a normalized path are its keys. -/
theorem getVSSTokens_toPath {ks : List String} (h : ∀ k ∈ ks, Identifier k) :
    getVSSTokens (Loc.toPath (ks.map .key)) = ks := by
  rw [toPath_keys h]
  exact getVSSTokens_quoted fun k hk => quotable_of_identifier (h k hk)

theorem strtok_subset {delims text tok rest : List Char}
    (h : strtok delims text = some (tok, rest)) :
    (∀ c ∈ tok, c ∈ text) ∧ ∀ c ∈ rest, c ∈ text := by
  unfold strtok at h
  have hdrop : ∀ c ∈ text.dropWhile (· ∈ delims), c ∈ text := fun c hc =>
    (List.dropWhile_sublist _).subset hc
  split at h
  · cases h
  · obtain ⟨rfl, rfl⟩ := Prod.mk.inj (Option.some.inj h)
    constructor
    · intro c hc
      exact hdrop c ((List.takeWhile_sublist _).subset hc)
    · intro c hc
      exact hdrop c ((List.dropWhile_sublist _).subset (List.mem_of_mem_drop hc))

/-- The tokens are made of characters of the text. -/
theorem vssTokens_subset (fuel : ℕ) (isName : Bool) (text : List Char) :
    ∀ t ∈ vssTokens fuel isName text, ∀ c ∈ t.toList, c ∈ text := by
  induction fuel generalizing isName text with
  | zero => simp [vssTokens]
  | succ fuel ih =>
    intro t ht c hc
    rw [vssTokens] at ht
    cases hs : strtok (if isName then ['[', '\x27'] else ['\x27', ']']) text with
    | none => simp [hs] at ht
    | some p =>
      obtain ⟨tok, rest⟩ := p
      obtain ⟨htok, hrest⟩ := strtok_subset hs
      simp only [hs] at ht
      cases isName with
      | false => exact hrest c (ih true rest t ht c hc)
      | true =>
        rcases List.mem_cons.mp ht with rfl | ht
        · exact htok c (by simpa using hc)
        · exact hrest c (ih false rest t ht c hc)

/-- No token has the character that ends the text. -/
theorem nul_not_mem_of_mem_getVSSTokens {path t : String} (h : t ∈ getVSSTokens path) :
    '\x00' ∉ t.toList := by
  intro hc
  have hmem : '\x00' ∈ cString path := by
    unfold getVSSTokens at h
    split at h
    · simp at h
    · next hs => exact (strtok_subset hs).2 _ (vssTokens_subset _ _ _ t h _ hc)
  simpa using List.mem_takeWhile_imp hmem

/-- A path of names without brackets, quotes and dollars is taken apart into its names exactly
where none of them has a NUL, at which the text would end. -/
theorem getVSSTokens_normalizedPath_iff (names : List String)
    (h : ∀ n ∈ names, n ≠ "" ∧ ∀ c ∈ ['[', ']', '\x27', '$'], c ∉ n.toList) :
    getVSSTokens (normalizedPath names) = names ↔ ∀ n ∈ names, '\x00' ∉ n.toList := by
  constructor
  · intro heq n hn
    rw [← heq] at hn
    exact nul_not_mem_of_mem_getVSSTokens hn
  · intro hnul
    apply getVSSTokens_quoted
    intro n hn
    obtain ⟨hne, hc⟩ := h n hn
    exact ⟨hne, hc _ (by simp), hc _ (by simp), hnul n hn⟩

/-- Also a name that is the key of the children is one. -/
theorem getVSSTokens_normalizedPath_children :
    getVSSTokens (normalizedPath ["Vehicle", "children", "Speed"]) =
      ["Vehicle", "children", "Speed"] :=
  (getVSSTokens_normalizedPath_iff ["Vehicle", "children", "Speed"] (by simp)).mpr (by simp)

theorem not_getVSSTokens_normalizedPath :
    ¬ ∀ names : List String, names ≠ [] →
      (∀ n ∈ names, n ≠ "" ∧ ∀ c ∈ ['[', ']', '\x27', '$'], c ∉ n.toList) →
      getVSSTokens (normalizedPath names) = names := by
  intro h
  have hcut := h ["a\x00b"] (by simp) (by simp)
  exact absurd hcut (by decide)

end Tokens

section WayDown

/-- A node as an answer shows it: description and type as text. -/
def described (n : Json) : Json := textMember "type" (textMember "description" n)

/-- The nodes on the way down through the children, each with its name; the last one under its
name. -/
def wayDown : Json → List String → Option (List (String × Json))
  | _, [] => some []
  | d, [k] => (d.get? k).map fun n => [(k, ofMembers [(k, described n)])]
  | d, k :: ks =>
      (d.get? k).bind fun n => (n.get? "children").bind fun d' =>
        (wayDown d' ks).map ((k, described n) :: ·)

variable {jp : JsonPath} {tree d node : Json}

theorem dottedPath_snoc (ks : List String) (k : String) :
    dottedPath ks ++ "." ++ k = dottedPath (ks ++ [k]) := by
  rw [← String.toList_inj]
  simp [dottedPath]

theorem map_key_selector (ks : List String) :
    (ks.map Step.key).map Step.selector = ks.map Selector.name := by
  simp [Step.selector]

/-- A dotted query of keys that lead to a value selects it. -/
theorem jsonQuery_dotted {ks : List String} (hks : ∀ k ∈ ks, Identifier k)
    (hat : tree.at? (ks.map .key) = some node) :
    jsonQuery jp tree (dottedPath ks) = .ok [node] := by
  have hm : jp.matches? tree (dottedPath ks) = .ok [ks.map .key] := by
    have hsel := select_loc (j := tree) (l := ks.map .key) (by simp [hat])
    rw [map_key_selector] at hsel
    simp [JsonPath.matches?, jp.dotted ks hks, Except.map, hsel]
  rw [jsonQuery_eq_ok_iff, JsonPath.query_of_matches hm]
  simp [hat]

theorem childrenKey_identifier : Identifier "children" := by decide +kernel

/-- The loop from a container of nodes on: it goes down name by name, as far as there is room. -/
theorem metaDataNodes_wayDown {names : List String} (hne : names ≠ []) (ht : VssTree d)
    (hat : d.at? (nodeLoc names) = some node) {pre : List String} (hpre : ∀ k ∈ pre, Identifier k)
    (hd : tree.at? (pre.map .key) = some d) {parents : List (String × Json)}
    (hp : parents.length ≤ maxParents) :
    ∃ ps, wayDown d names = some ps ∧ ps.length = names.length ∧
      metaDataNodes jp tree (names.intersperse "children") (dottedPath pre) parents =
        if parents.length + names.length ≤ maxParents then .ok (some (parents ++ ps))
        else .error ⟨.undefinedBehaviour, "parentArray"⟩ := by
  induction names generalizing d pre parents with
  | nil => exact absurd rfl hne
  | cons k ks ih =>
    obtain ⟨n, hn, hrest⟩ : ∃ n, d.get? k = some n ∧ n.at? (belowLoc ks) = some node := by
      rw [nodeLoc_cons, at?_cons, child?_key] at hat
      exact Option.bind_eq_some_iff.mp hat
    obtain ⟨hk, hv⟩ := ht.node hn
    have hpre' : ∀ m ∈ pre ++ [k], Identifier m := by
      rw [List.forall_mem_append, List.forall_mem_singleton]
      exact ⟨hpre, hk.1⟩
    have hnat : tree.at? ((pre ++ [k]).map .key) = some n := by
      rw [List.map_append, at?_append, hd]
      simp [at?_cons, child?_key, hn]
    have hq : jsonQuery jp tree _ = _ := jsonQuery_dotted hpre' hnat
    cases ks with
    | nil =>
      refine ⟨[(k, ofMembers [(k, described n)])], by simp [wayDown, hn], rfl, ?_⟩
      rw [List.intersperse_singleton]
      unfold metaDataNodes
      simp only [ne_eq, not_true_eq_false, ↓reduceIte, dottedPath_snoc, hq, hk.2,
        not_false_eq_true, and_self]
      rfl
    | cons k' ks =>
      obtain ⟨d', hd', hbelow⟩ : ∃ d', n.get? "children" = some d' ∧
          d'.at? (nodeLoc (k' :: ks)) = some node := by
        rw [belowLoc_cons, at?_cons, child?_key] at hrest
        rw [nodeLoc_cons]
        exact Option.bind_eq_some_iff.mp hrest
      have hpre'' : ∀ m ∈ pre ++ [k] ++ ["children"], Identifier m := by
        rw [List.forall_mem_append, List.forall_mem_singleton]
        exact ⟨hpre', childrenKey_identifier⟩
      have hd'at : tree.at? ((pre ++ [k] ++ ["children"]).map .key) = some d' := by
        rw [List.map_append, at?_append, hnat]
        simp [at?_cons, child?_key, hd']
      have hne' : (k' :: ks).intersperse "children" ≠ [] := by cases ks <;> simp
      have hskip (ps : List (String × Json)) : metaDataNodes jp tree
          ("children" :: (k' :: ks).intersperse "children") (dottedPath (pre ++ [k])) ps =
          metaDataNodes jp tree ((k' :: ks).intersperse "children")
            (dottedPath (pre ++ [k] ++ ["children"])) ps := by
        rw [metaDataNodes, if_pos ⟨hne', rfl⟩, dottedPath_snoc]
      have hstep : metaDataNodes jp tree ((k :: k' :: ks).intersperse "children") (dottedPath pre)
          parents = if parents.length < maxParents then
            metaDataNodes jp tree ((k' :: ks).intersperse "children")
              (dottedPath (pre ++ [k] ++ ["children"])) (parents ++ [(k, described n)])
          else .error ⟨.undefinedBehaviour, "parentArray"⟩ := by
        rw [List.intersperse_cons_cons, metaDataNodes, if_neg (fun h => hk.2 h.2)]
        simp only [dottedPath_snoc, hq, List.cons_ne_nil, false_and, ↓reduceIte, hskip]
        rfl
      rw [hstep]
      by_cases hroom : parents.length < maxParents
      · have hnext : (parents ++ [(k, described n)]).length ≤ maxParents := by
          rw [List.length_append]
          exact hroom
        obtain ⟨ps, hps, hlen, hloop⟩ :=
          ih (by simp) (hv.children hd') hbelow hpre'' hd'at hnext
        refine ⟨(k, described n) :: ps, by simp [wayDown, hn, hd', hps], by simp [hlen], ?_⟩
        rw [if_pos hroom, hloop]
        simp only [List.length_append, List.length_cons, List.length_nil, List.append_assoc,
          List.cons_append, List.nil_append]
        congr 2
        omega
      · have hzero : ([] : List (String × Json)).length ≤ maxParents := Nat.zero_le maxParents
        obtain ⟨ps, hps, hlen, -⟩ := ih (by simp) (hv.children hd') hbelow hpre'' hd'at hzero
        refine ⟨(k, described n) :: ps, by simp [wayDown, hn, hd', hps], by simp [hlen], ?_⟩
        rw [if_neg hroom, if_neg (by simp only [List.length_cons]; omega)]

/-- On a well-formed tree an answer nests what is on the way to the first match, as long as there
are no more than 16 names on it. -/
theorem getMetaData_wayDown {db : VssDatabase} {path : VSSPath} (ht : VssTree db.metaTree)
    {names : List String} (hne : names ≠ []) {ls : List Loc}
    (hm : jp.matches? db.metaTree path.getJSONPath = .ok (nodeLoc names :: ls)) :
    ∃ ps, wayDown db.metaTree names = some ps ∧ getMetaData jp db path =
      if names.length ≤ maxParents then
        nestParents ((ps.getLast?.map Prod.snd).getD (ofMembers [])) ps.dropLast
      else .error ⟨.undefinedBehaviour, "parentArray"⟩ := by
  obtain ⟨node, hat⟩ := Option.isSome_iff_exists.mp
    (JsonPath.matches?_located hm (nodeLoc names) List.mem_cons_self)
  have hroot : db.metaTree.at? (([] : List String).map .key) = some db.metaTree := rfl
  have hnone : ∀ k ∈ ([] : List String), Identifier k := by simp
  have hzero : ([] : List (String × Json)).length ≤ maxParents := Nat.zero_le maxParents
  obtain ⟨ps, hps, -, hloop⟩ : ∃ ps, wayDown db.metaTree names = some ps ∧ _ ∧
      metaDataNodes jp db.metaTree _ _ _ = _ := metaDataNodes_wayDown hne ht hat hnone hroot hzero
  refine ⟨ps, hps, ?_⟩
  have hq : jp.queryPaths db.metaTree path.getJSONPath =
      .ok ((nodeLoc names).toPath :: ls.map Loc.toPath) := by
    simp [JsonPath.queryPaths, hm, Except.map]
  have hkeys : ∀ k ∈ names.intersperse "children", Identifier k := by
    have hnames := (ht.located hne hat).1
    clear hm hat hps hloop hq
    induction names with
    | nil => simp
    | cons k ks ih =>
      rw [List.forall_mem_cons] at hnames
      cases ks with
      | nil => simpa using hnames.1.1
      | cons k' ks =>
        rw [List.intersperse_cons_cons, List.forall_mem_cons, List.forall_mem_cons]
        exact ⟨hnames.1.1, childrenKey_identifier, ih (by simp) hnames.2⟩
  have htokens : getVSSTokens (nodeLoc names).toPath = names.intersperse "children" := by
    rw [nodeLoc, ← Text.map_intersperse]
    exact getVSSTokens_toPath hkeys
  have hdollar : dottedPath [] = "$" := rfl
  rw [hdollar, List.nil_append, List.length_nil, Nat.zero_add] at hloop
  simp only [getMetaData, hq, htokens, hloop]
  split_ifs <;> rfl

end WayDown

section Buffers
variable {jp : JsonPath} {tree : Json}

/-- Every access to the arrays of parents is within their bounds. -/
def WithinBuffers (jp : JsonPath) (db : VssDatabase) (path : VSSPath) : Prop :=
  ∀ e, getMetaData jp db path = .error e → e.kind ≠ .undefinedBehaviour

/-- The first queries, at least this many, match exactly one value each. -/
def SingleMatches (jp : JsonPath) (tree : Json) (n : ℕ) (queries : List String) : Prop :=
  n ≤ queries.length ∧ ∀ q ∈ queries.take n, ∃ l, jp.matches? tree q = .ok [l]

theorem singleMatches_cons {n : ℕ} {q : String} {qs : List String} :
    SingleMatches jp tree (n + 1) (q :: qs) ↔
      (∃ l, jp.matches? tree q = .ok [l]) ∧ SingleMatches jp tree n qs := by
  simp only [SingleMatches, List.length_cons, Nat.add_le_add_iff_right, List.take_succ_cons,
    List.forall_mem_cons]
  tauto

/-- The loop leaves the arrays when one more query than there is room for matches once. -/
theorem metaDataNodes_undefined_iff (tokens : List String) (formatPath : String)
    (parents : List (String × Json)) (hp : parents.length ≤ maxParents) :
    (∃ e, metaDataNodes jp tree tokens formatPath parents = .error e ∧
      e.kind = .undefinedBehaviour) ↔
      SingleMatches jp tree (maxParents - parents.length + 1) (formatPaths tokens formatPath) := by
  induction tokens generalizing formatPath parents with
  | nil => simp [metaDataNodes, formatPaths, SingleMatches]
  | cons token tokens ih =>
    by_cases hc : tokens ≠ [] ∧ token = "children"
    · simp only [metaDataNodes, formatPaths, if_pos hc]
      exact ih _ _ hp
    simp only [formatPaths, if_neg hc, singleMatches_cons]
    obtain ⟨msg, hm, he⟩ | ⟨ls, hm, hl, he⟩ | ⟨l, shown, hm, he⟩ :=
      metaDataNodes_query jp tree formatPath parents hc
    · simp [he, hm, Exn.jsonpathError]
    · have hne (l : Loc) : ls ≠ [l] := by
        rintro rfl
        exact hl rfl
      simp [he, hm, hne]
    · rw [he]
      simp only [hm, Except.ok.injEq, List.cons.injEq, and_true, exists_eq', true_and]
      by_cases hr : parents.length < maxParents
      · obtain ⟨room, hroom⟩ : ∃ room, maxParents - parents.length = room + 1 :=
          ⟨maxParents - parents.length - 1, by omega⟩
        have hnext : maxParents - (parents.length + 1) + 1 = maxParents - parents.length := by
          omega
        simp only [hr, ↓reduceIte]
        rw [ih _ _ (by rw [List.length_append]; exact hr), List.length_append,
          List.length_singleton, hnext]
      · have hroom : maxParents - parents.length = 0 := by omega
        simp [hr, hroom, SingleMatches]

theorem not_withinBuffers_iff {db : VssDatabase} {path : VSSPath} {l : Loc} {ls : List Loc}
    (hm : jp.matches? db.metaTree path.getJSONPath = .ok (l :: ls)) :
    ¬ WithinBuffers jp db path ↔ SingleMatches jp db.metaTree (maxParents + 1)
      (formatPaths (getVSSTokens l.toPath) "$") := by
  have hq : jp.queryPaths db.metaTree path.getJSONPath =
      .ok (l.toPath :: ls.map Loc.toPath) := by
    simp [JsonPath.queryPaths, hm, Except.map]
  have hiff : (∃ e, metaDataNodes jp db.metaTree (getVSSTokens l.toPath) "$" [] = .error e ∧
      e.kind = .undefinedBehaviour) ↔ SingleMatches jp db.metaTree (maxParents + 1)
        (formatPaths (getVSSTokens l.toPath) "$") :=
    metaDataNodes_undefined_iff (getVSSTokens l.toPath) "$" [] (Nat.zero_le maxParents)
  rw [← hiff]
  simp only [WithinBuffers, getMetaData, hq, not_forall, not_not]
  cases hr : metaDataNodes jp db.metaTree (getVSSTokens l.toPath) "$" [] with
  | error e => simp
  | ok r =>
    cases r with
    | none => simp
    | some parents =>
      constructor
      · rintro ⟨e, he, hk⟩
        rw [nestParents_kind he] at hk
        simp at hk
      · rintro ⟨e, he, -⟩
        simp at he

/-- A request for metadata stays within the arrays unless more than 16 of the names on the way to
its first match lead to one value each; on a well-formed tree, exactly when that match is at most
16 names deep. -/
theorem withinBuffers_iff (jp : JsonPath) (db : VssDatabase) (path : VSSPath) :
    (WithinBuffers jp db path ↔
      ∀ l ls, jp.matches? db.metaTree path.getJSONPath = .ok (l :: ls) →
        ¬ SingleMatches jp db.metaTree (maxParents + 1)
          (formatPaths (getVSSTokens l.toPath) "$")) ∧
    (VssTree db.metaTree → ∀ names ls, names ≠ [] →
      jp.matches? db.metaTree path.getJSONPath = .ok (nodeLoc names :: ls) →
        (WithinBuffers jp db path ↔ names.length ≤ maxParents)) := by
  constructor
  · cases hm : jp.matches? db.metaTree path.getJSONPath with
    | error msg =>
      simp [WithinBuffers, getMetaData, JsonPath.queryPaths, hm, Except.map, Exn.jsonpathError]
    | ok ls =>
      cases ls with
      | nil => simp [WithinBuffers, getMetaData, JsonPath.queryPaths, hm, Except.map]
      | cons l ls =>
        have hiff := not_withinBuffers_iff hm
        rw [← not_iff_not, hiff]
        simp
  · intro ht names ls hne hm
    obtain ⟨ps, -, hget⟩ := getMetaData_wayDown ht hne hm
    unfold WithinBuffers
    rw [hget]
    split_ifs with hdepth
    · refine iff_of_true (fun e he => ?_) hdepth
      rw [nestParents_kind he]
      decide
    · exact iff_of_false (fun h => h _ rfl rfl) hdepth

/-- A node with this many names below it. -/
def deepNode : ℕ → Json
  | 0 => .obj [("type", .str "sensor")]
  | n + 1 => .obj [("children", .obj [("B", deepNode n)]), ("type", .str "branch")]

def deepTree (n : ℕ) : Json := .obj [("Vehicle", deepNode n)]

def deepNames (n : ℕ) : List String := "Vehicle" :: List.replicate n "B"

def deepPath (n : ℕ) : VSSPath := .fromVSS (joined '/' (deepNames n))

theorem deepTree_vssTree (n : ℕ) : VssTree (deepTree n) := by
  apply vssTree_singleton (by decide +kernel)
  induction n with
  | zero => exact .leaf rfl (by decide) rfl
  | succ n ih => exact (vssTree_singleton (by decide +kernel) ih).branch

theorem deepNames_nodeName (n : ℕ) : ∀ k ∈ deepNames n, NodeName k := by
  intro k hk
  rcases List.mem_cons.mp hk with rfl | hk
  · decide +kernel
  · rw [List.eq_of_mem_replicate hk]
    decide +kernel

theorem deepPath_matches (n : ℕ) :
    jp.matches? (deepTree n) (deepPath n).getJSONPath = .ok [nodeLoc (deepNames n)] := by
  have hat : ((deepTree n).at? (nodeLoc (deepNames n))).isSome := by
    rw [deepNames, nodeLoc_cons]
    show ((deepNode n).at? (belowLoc (List.replicate n "B"))).isSome
    induction n with
    | zero => rfl
    | succ n ih => exact ih
  rw [getJSONPath, deepPath, fromVSS_joined (by simp [deepNames]) (deepNames_nodeName n),
    Loc.toPath, JsonPath.matches?_renderPath, select_loc hat]

/-- A tree of the server with 17 names one below the other, and the path of the last one. -/
theorem withinBuffers_seventeen : ∃ db, initJsonTree (deepTree 16) = .ok db ∧
    ¬ WithinBuffers .selectors db (deepPath 16) := by
  obtain ⟨db, hdb⟩ : ∃ db : VssDatabase, db = ⟨deepTree 16, deepTree 16⟩ := ⟨_, rfl⟩
  have htree : db.metaTree = deepTree 16 := by rw [hdb]
  refine ⟨db, by rw [hdb]; decide +kernel, ?_⟩
  intro h
  obtain ⟨ps, -, hget⟩ := getMetaData_wayDown (htree ▸ deepTree_vssTree 16)
    (by simp [deepNames]) (htree ▸ deepPath_matches 16)
  rw [if_neg (by decide)] at hget
  exact h _ hget rfl

theorem withinBuffers_sixteen :
    WithinBuffers .selectors ⟨deepTree 15, deepTree 15⟩ (deepPath 15) :=
  ((withinBuffers_iff .selectors ⟨deepTree 15, deepTree 15⟩ (deepPath 15)).2 (deepTree_vssTree 15)
    (deepNames 15) [] (by decide) (deepPath_matches 15)).mpr (by decide)

end Buffers

section Spine
variable {d n inner : Json} {names : List String}

/-- The nodes along these names from `d` down: each one above with all its members and, as its
children, nothing but the next one; the last one with everything below it. -/
inductive Spine : Json → List String → Json → Prop
  | last {d n : Json} {k : String} (hn : d.get? k = some n) : Spine d [k] (.obj [(k, n)])
  | above {d d' n element inner : Json} {k k' : String} {ks : List String}
      (hn : d.get? k = some n) (hd : n.get? "children" = some d')
      (hi : Spine d' (k' :: ks) inner) (hc : element.get? "children" = some inner)
      (hm : ∀ key, key ≠ "children" → element.get? key = n.get? key) :
      Spine d (k :: k' :: ks) (.obj [(k, element)])

/-- A well-formed tree of metadata: what its nodes have as a description is a text. -/
structure MetadataTree (tree : Json) : Prop where
  nodes : VssTree tree
  ordered : tree.ordered = true
  texts : ∀ names node v, names ≠ [] → tree.at? (nodeLoc names) = some node →
    node.get? "description" = some v → ∃ s, v = .str s

theorem textMember_of_text {key : String} (ho : n.ordered = true)
    (h : ∀ v, n.get? key = some v → ∃ s, v = .str s) : textMember key n = n := by
  unfold textMember
  cases hv : n.get? key with
  | none => rfl
  | some v =>
    obtain ⟨s, rfl⟩ := h v hv
    exact insertOrAssign_self ho hv

theorem VssNode.type_text (h : VssNode n) {v : Json} (hv : n.get? "type" = some v) :
    ∃ s, v = .str s := by
  cases h with
  | leaf type _ _ => exact ⟨_, (Option.some.inj (type.symm.trans hv)).symm⟩
  | branch type _ _ _ => exact ⟨_, (Option.some.inj (type.symm.trans hv)).symm⟩

/-- A node whose description and type are texts is shown as it is. -/
theorem MetadataTree.described_eq (h : MetadataTree d) {k : String} (hn : d.get? k = some n) :
    described n = n := by
  have hat : d.at? (nodeLoc [k]) = some n := by simp [nodeLoc, at?_cons, child?_key, hn]
  have ho := ordered_at? h.ordered hat
  rw [described, textMember_of_text ho fun v => h.texts [k] n v (by simp) hat]
  exact textMember_of_text ho fun v => (h.nodes.node hn).2.type_text

theorem MetadataTree.children (h : MetadataTree d) {k : String} {d' : Json}
    (hn : d.get? k = some n) (hd : n.get? "children" = some d') : MetadataTree d' := by
  have hat (l : Loc) : d.at? (.key k :: .key "children" :: l) = d'.at? l := by
    simp [at?_cons, child?_key, hn, hd]
  refine ⟨(h.nodes.node hn).2.children hd, ordered_at? h.ordered (hat []), ?_⟩
  intro names node v hne hnode
  obtain ⟨m, ms, rfl⟩ := List.exists_cons_of_ne_nil hne
  apply h.texts (k :: m :: ms) node v (by simp)
  rw [nodeLoc_cons, belowLoc_cons, ← nodeLoc_cons, hat, hnode]

theorem wayDown_ne_nil {k : String} {ks : List String} {ps : List (String × Json)}
    (h : wayDown d (k :: ks) = some ps) : ps ≠ [] := by
  rintro rfl
  cases ks with
  | nil => simp [wayDown] at h
  | cons k' ks =>
    obtain ⟨n, -, hn⟩ := Option.bind_eq_some_iff.mp h
    obtain ⟨d', -, hd⟩ := Option.bind_eq_some_iff.mp hn
    simp at hd

/-- The nodes on the way down, nested, are the spine. -/
theorem nestParents_wayDown (h : MetadataTree d) (hne : names ≠ []) {ps : List (String × Json)}
    (hps : wayDown d names = some ps) :
    ∃ answer, nestParents ((ps.getLast?.map Prod.snd).getD (ofMembers [])) ps.dropLast =
      .ok answer ∧ Spine d names answer := by
  induction names generalizing d ps with
  | nil => exact absurd rfl hne
  | cons k ks ih =>
    cases ks with
    | nil =>
      obtain ⟨n, hn, rfl⟩ := Option.map_eq_some_iff.mp hps
      rw [h.described_eq hn]
      exact ⟨_, rfl, .last hn⟩
    | cons k' ks =>
      obtain ⟨n, hn, hrest⟩ := Option.bind_eq_some_iff.mp hps
      obtain ⟨d', hd', hrest⟩ := Option.bind_eq_some_iff.mp hrest
      obtain ⟨ps', hps', rfl⟩ := Option.map_eq_some_iff.mp hrest
      obtain ⟨inner, hinner, hspine⟩ := ih (h.children hn hd') (by simp) hps'
      have hne' := wayDown_ne_nil hps'
      rw [List.getLast?_cons_of_ne_nil hne', List.dropLast_cons_of_ne_nil hne', h.described_eq hn]
      have hobj := isObject_of_get? hd'
      refine ⟨.obj [(k, n.insertOrAssign "children" inner)], ?_, .above hn hd' hspine ?_ ?_⟩
      · rw [nestParents, hinner]
        simp only [tryInsertOrAssign, hobj, ↓reduceIte, Except.map]
        rfl
      · rw [get?_insertOrAssign _ _ _ hobj, if_pos rfl]
      · intro key hkey
        rw [get?_insertOrAssign _ _ _ hobj, if_neg hkey]

/-- On a well-formed tree a request for metadata is answered with the spine to its first match, or
with something of size 0; what a path of names and wildcards matches are nodes. -/
theorem getMetaData_spine (jp : JsonPath) (db : VssDatabase) (path : VSSPath)
    (h : MetadataTree db.metaTree) :
    (∀ names ls, names ≠ [] → names.length ≤ maxParents →
      jp.matches? db.metaTree path.getJSONPath = .ok (nodeLoc names :: ls) →
        ∃ answer, getMetaData jp db path = .ok answer ∧ Spine db.metaTree names answer) ∧
    (jp.matches? db.metaTree path.getJSONPath = .ok [] →
      ∃ answer, getMetaData jp db path = .ok answer ∧ answer.size = 0) ∧
    ∀ input, Plain input → path.getJSONPath = gen2tojson input →
      ∃ ls, jp.matches? db.metaTree path.getJSONPath = .ok ls ∧
        ∀ l ∈ ls, ∃ names, names ≠ [] ∧ l = nodeLoc names := by
  refine ⟨?_, ?_, ?_⟩
  · intro names ls hne hdepth hm
    obtain ⟨ps, hps, hget⟩ := getMetaData_wayDown h.nodes hne hm
    obtain ⟨answer, hnest, hspine⟩ := nestParents_wayDown h hne hps
    rw [hget, if_pos hdepth]
    exact ⟨answer, hnest, hspine⟩
  · intro hm
    exact ⟨.int 0, by simp [getMetaData, JsonPath.queryPaths, hm, Except.map], rfl⟩
  · intro input hp hjson
    rw [hjson, gen2tojson_eq_renderPath hp, JsonPath.matches?_renderPath]
    refine ⟨_, rfl, fun l hl => h.nodes.select ?_ hl⟩
    exact List.map_eq_nil_iff.not.mpr (List.splitOn_ne_nil '/' _)

theorem deepTree_metadataTree : MetadataTree (deepTree 15) := by
  refine ⟨deepTree_vssTree 15, by decide +kernel, ?_⟩
  intro names node v _ hnode hv
  have hkey : (deepTree 15).noKey (fun k => k = "description") = true := by decide +kernel
  rw [get?_of_noKey (noKey_at? hkey hnode) (by simp)] at hv
  simp at hv

theorem getMetaData_spine_sixteen : ∃ answer,
    getMetaData .selectors ⟨deepTree 15, deepTree 15⟩ (deepPath 15) = .ok answer ∧
      Spine (deepTree 15) (deepNames 15) answer :=
  (getMetaData_spine .selectors ⟨deepTree 15, deepTree 15⟩ (deepPath 15)
    deepTree_metadataTree).1 (deepNames 15) [] (by decide) (by decide) (deepPath_matches 15)

end Spine

end VssDatabase
