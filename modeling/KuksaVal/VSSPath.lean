import KuksaVal.Text
import KuksaVal.Json.Path

/-! A signal path in its three spellings: separated by slashes, by dots, and as the query
that is run on the tree. -/

structure VSSPath where
  vsspath : String
  vssgen1path : String
  jsonpath : String
  gen1Origin : Bool
  deriving DecidableEq, Repr

namespace VSSPath
open Json Text

def getVSSPath (p : VSSPath) : String := p.vsspath

def getVSSGen1Path (p : VSSPath) : String := p.vssgen1path

def getJSONPath (p : VSSPath) : String := p.jsonpath

def isGen1Origin (p : VSSPath) : Bool := p.gen1Origin

def toString (p : VSSPath) : String :=
  if p.isGen1Origin then p.getVSSGen1Path else p.getVSSPath

def gen1togen2 (input : String) : String := String.ofList (replaceChar '.' '/' input.toList)

def gen2togen1 (input : String) : String := String.ofList (replaceChar '/' '.' input.toList)

def childrenText : List Char := '[' :: '\x27' :: ("children".toList ++ ['\x27', ']'])

def elementText (element : List Char) : List Char :=
  if element = ['*'] then "[*]".toList else "['".toList ++ element ++ "']".toList

def gen2tojson (input : String) : String :=
  String.ofList ('$' :: childrenText.intercalate ((input.toList.splitOn '/').map elementText))

def jsontogen2 (input : String) : String :=
  let gen2 := eraseAll childrenText input.toList
  let gen2 := eraseAll ['\x27'] gen2
  let gen2 := replaceAll [']', '['] ['/'] gen2
  let gen2 := eraseFirst ['$', '['] gen2
  let gen2 := eraseLast [']'] gen2
  String.ofList gen2

def fromVSS (input : String) : VSSPath :=
  if '.' ∈ input.toList then
    { vsspath := gen1togen2 input, vssgen1path := input
      jsonpath := gen2tojson (gen1togen2 input), gen1Origin := true }
  else
    { vsspath := input, vssgen1path := gen2togen1 input
      jsonpath := gen2tojson input, gen1Origin := false }

def fromVSSGen2 (input : String) : VSSPath :=
  { vsspath := input, vssgen1path := gen2togen1 input
    jsonpath := gen2tojson input, gen1Origin := false }

def fromVSSGen1 (input : String) : VSSPath :=
  { vsspath := gen1togen2 input, vssgen1path := input
    jsonpath := gen2tojson (gen1togen2 input), gen1Origin := true }

def fromJSON (input : String) (gen1 : Bool) : VSSPath :=
  { vsspath := jsontogen2 input, vssgen1path := gen2togen1 (jsontogen2 input)
    jsonpath := input, gen1Origin := gen1 }

@[simp] theorem fromJSON_jsonpath (input : String) (gen1 : Bool) :
    (fromJSON input gen1).jsonpath = input := rfl

@[simp] theorem fromJSON_gen1 (input : String) (gen1 : Bool) :
    (fromJSON input gen1).isGen1Origin = gen1 := rfl

/-- The query depends on the slash spelling alone. -/
theorem fromVSS_jsonpath (input : String) :
    (fromVSS input).jsonpath = gen2tojson (fromVSS input).vsspath := by
  unfold fromVSS
  split_ifs <;> rfl

theorem fromVSS_vsspath (input : String) : (fromVSS input).vsspath = gen1togen2 input := by
  unfold fromVSS
  split_ifs with h
  · rfl
  · simp [gen1togen2, replaceChar_of_not_mem h]

section Selectors

def elementSelector (element : List Char) : Selector :=
  if element = ['*'] then .wildcard else .name (String.ofList element)

/-- What the query of a slash path selects, when no character of it closes a quote. -/
def selectors (input : String) : List Selector :=
  ((input.toList.splitOn '/').map elementSelector).intersperse (.name "children")

/-- No quote and no backslash. -/
def Plain (input : String) : Prop := ∀ c ∈ input.toList, c ≠ '\x27' ∧ c ≠ '\\'

instance (input : String) : Decidable (Plain input) :=
  decidable_of_iff (input.toList.all fun c => decide (c ≠ '\x27' ∧ c ≠ '\\')) (by simp [Plain])

theorem flatMap_escapeName {cs : List Char} (h : ∀ c ∈ cs, c ≠ '\x27' ∧ c ≠ '\\') :
    cs.flatMap escapeName = cs := by
  induction cs with
  | nil => rfl
  | cons c cs ih =>
    obtain ⟨hq, hb⟩ := h c (by simp)
    rw [List.flatMap_cons, ih fun d hd => h d (List.mem_cons_of_mem _ hd)]
    simp [escapeName, hq, hb]

theorem render_elementSelector {e : List Char} (h : ∀ c ∈ e, c ≠ '\x27' ∧ c ≠ '\\') :
    (elementSelector e).render = elementText e := by
  unfold elementSelector elementText
  split_ifs
  · rfl
  · simp [Selector.render, flatMap_escapeName h]

theorem mem_of_mem_splitOn {α : Type*} [DecidableEq α] {s : α} {cs e : List α}
    (he : e ∈ cs.splitOn s) {c : α} (hc : c ∈ e) : c ∈ cs := by
  have hcs : [s].intercalate (cs.splitOn s) = cs := List.intercalate_splitOn s
  rw [← hcs]
  generalize cs.splitOn s = ls at he
  induction ls with
  | nil => simp at he
  | cons l ls ih =>
    cases ls with
    | nil => simp_all [List.intercalate]
    | cons m ls =>
      simp only [List.intercalate, List.intersperse_cons_cons, List.flatten_cons] at ih ⊢
      rcases List.mem_cons.mp he with rfl | he
      · simp [hc]
      · simp [ih he]

/-- A plain slash path becomes the bracketed expression of its selectors. -/
theorem gen2tojson_eq_renderPath {input : String} (h : Plain input) :
    gen2tojson input = renderPath (selectors input) := by
  unfold gen2tojson renderPath selectors
  have he (e : List Char) (hm : e ∈ input.toList.splitOn '/') :
      (elementSelector e).render = elementText e :=
    render_elementSelector fun c hc => h c (mem_of_mem_splitOn hm hc)
  generalize input.toList.splitOn '/' = ls at he
  congr 2
  induction ls with
  | nil => rfl
  | cons l ls ih =>
    have hl := he l (by simp)
    cases ls with
    | nil => simp [List.intercalate, hl]
    | cons m ls =>
      have ht := ih fun e hm => he e (List.mem_cons_of_mem _ hm)
      simp only [List.intercalate, List.map_cons, List.intersperse_cons_cons,
        List.flatten_cons, List.flatMap_cons, hl] at ht ⊢
      rw [ht]
      rfl

theorem Plain.gen1togen2 {input : String} (h : Plain input) :
    Plain (VSSPath.gen1togen2 input) := by
  intro c hc
  simp only [VSSPath.gen1togen2, replaceChar, String.toList_ofList, List.mem_map] at hc
  obtain ⟨d, hd, rfl⟩ := hc
  split_ifs
  · decide
  · exact h d hd

/-- The query of a plain path text is the bracketed expression of its selectors. -/
theorem fromVSS_plain {input : String} (h : Plain input) :
    (fromVSS input).jsonpath = renderPath (selectors (gen1togen2 input)) := by
  rw [fromVSS_jsonpath, fromVSS_vsspath, gen2tojson_eq_renderPath h.gen1togen2]

theorem selectors_length_pos (input : String) : 0 < (selectors input).length := by
  have h := List.splitOn_ne_nil '/' input.toList
  unfold selectors
  cases hs : input.toList.splitOn '/' with
  | nil => exact absurd hs h
  | cons l ls => cases ls <;> simp

end Selectors

section Nodes

/-- The location of the node with these names, from the root. -/
def nodeLoc (names : List String) : Loc := (names.map Step.key).intersperse (.key "children")

def joined (sep : Char) (names : List String) : String :=
  String.ofList ([sep].intercalate (names.map String.toList))

/-- The canonical dotted path of a node. -/
def canonicalGen1 (names : List String) : String := joined '.' names

def canonicalGen2 (names : List String) : String := joined '/' names

/-- A name a node can have: an identifier other than the key of the children. -/
def NodeName (n : String) : Prop := Identifier n ∧ n ≠ "children"

instance (n : String) : Decidable (NodeName n) :=
  inferInstanceAs (Decidable (Identifier n ∧ n ≠ "children"))

/-- A segment of a path: a wildcard, or an identifier. -/
def Segment (s : String) : Prop := s = "*" ∨ Identifier s

instance (s : String) : Decidable (Segment s) := inferInstanceAs (Decidable (_ ∨ _))

theorem NodeName.segment {n : String} (h : NodeName n) : Segment n := .inr h.1

theorem Segment.not_mem {s : String} (h : Segment s) {c : Char} (hc : isIdentChar c = false)
    (hstar : c ≠ '*') : c ∉ s.toList := by
  intro hm
  rcases h with rfl | h
  · exact hstar (List.mem_singleton.mp hm)
  · simp [h.2 c hm] at hc

theorem toList_joined_cons (sep : Char) (n : String) (ns : List String) :
    (joined sep (n :: ns)).toList = n.toList ++ ns.flatMap fun m => sep :: m.toList := by
  rw [joined, String.toList_ofList, List.map_cons, intercalate_cons, List.flatMap_map]
  rfl

theorem mem_joined {sep c : Char} {segs : List String} (h : c ∈ (joined sep segs).toList) :
    c = sep ∨ ∃ s ∈ segs, c ∈ s.toList := by
  cases segs with
  | nil => simp [joined] at h
  | cons n ns =>
    rw [toList_joined_cons, List.mem_append, List.mem_flatMap] at h
    rcases h with h | ⟨m, hm, h⟩
    · exact .inr ⟨n, List.mem_cons_self, h⟩
    · rcases List.mem_cons.mp h with h | h
      · exact .inl h
      · exact .inr ⟨m, List.mem_cons_of_mem n hm, h⟩

section Joined
variable {segs : List String}

/-- Segments can be read off their path. -/
theorem splitOn_joined {sep : Char} (hne : segs ≠ []) (h : ∀ s ∈ segs, sep ∉ s.toList) :
    (joined sep segs).toList.splitOn sep = segs.map String.toList := by
  rw [joined, String.toList_ofList]
  apply List.splitOn_intercalate
  · intro l hl
    obtain ⟨s, hs, rfl⟩ := List.mem_map.mp hl
    exact h s hs
  · simpa using hne

theorem plain_joined (h : ∀ s ∈ segs, Segment s) : Plain (joined '/' segs) := by
  intro c hc
  rcases mem_joined hc with rfl | ⟨s, hs, hcs⟩
  · decide
  · exact ⟨fun e => (h s hs).not_mem (c := '\x27') (by decide) (by decide) (e ▸ hcs),
      fun e => (h s hs).not_mem (c := '\\') (by decide) (by decide) (e ▸ hcs)⟩

theorem Segment.no_slash {s : String} (h : Segment s) : '/' ∉ s.toList :=
  h.not_mem (by decide) (by decide)

theorem gen1togen2_joined (hs : ∀ s ∈ segs, Segment s) :
    gen1togen2 (joined '/' segs) = joined '/' segs := by
  have hdot : '.' ∉ (joined '/' segs).toList := by
    intro hm
    rcases mem_joined hm with hc | ⟨s, hmem, hc⟩
    · exact absurd hc (by decide)
    · exact (hs s hmem).not_mem (by decide) (by decide) hc
  rw [gen1togen2, Text.replaceChar_of_not_mem hdot, String.ofList_toList]

/-- The query of a path selects segment by segment, below children in between. -/
theorem selectors_joined (hne : segs ≠ []) (h : ∀ s ∈ segs, Segment s) :
    selectors (joined '/' segs) =
      (segs.map fun s => elementSelector s.toList).intersperse (.name "children") := by
  rw [selectors, splitOn_joined hne fun s hs => (h s hs).no_slash, List.map_map]
  rfl

theorem NodeName.elementSelector {n : String} (h : NodeName n) :
    VSSPath.elementSelector n.toList = .name n := by
  have hn : n.toList ≠ ['*'] := by
    intro e
    have hs := h.1.2 '*' (by simp [e])
    exact absurd hs (by decide)
  rw [VSSPath.elementSelector, if_neg hn, String.ofList_toList]

/-- The normalized path of a node is the query of its names. -/
theorem toPath_nodeLoc (hne : segs ≠ []) (h : ∀ n ∈ segs, NodeName n) :
    Loc.toPath (nodeLoc segs) = gen2tojson (joined '/' segs) := by
  have hseg : ∀ s ∈ segs, Segment s := fun s hs => (h s hs).segment
  rw [gen2tojson_eq_renderPath (plain_joined hseg), selectors_joined hne hseg, Loc.toPath, nodeLoc,
    map_intersperse, List.map_map]
  congr 2
  apply List.map_congr_left
  intro n hn
  rw [(h n hn).elementSelector]
  rfl

/-- The slash path of a node is turned into its normalized path. -/
theorem fromVSS_joined (hne : segs ≠ []) (h : ∀ n ∈ segs, NodeName n) :
    (fromVSS (joined '/' segs)).jsonpath = Loc.toPath (nodeLoc segs) := by
  rw [fromVSS_jsonpath, fromVSS_vsspath, gen1togen2_joined fun s hs => (h s hs).segment,
    toPath_nodeLoc hne h]

end Joined

section Decoding

theorem elementText_segment {s : String} (h : Segment s) :
    (elementText s.toList).filter (· ≠ '\x27') = '[' :: (s.toList ++ [']']) := by
  have hq := h.not_mem (c := '\x27') (by decide) (by decide)
  have hfilter : s.toList.filter (· ≠ '\x27') = s.toList := by
    rw [List.filter_eq_self]
    intro c hc
    simpa using fun e : c = '\x27' => hq (e ▸ hc)
  unfold elementText
  split_ifs with hs
  · rw [hs]
    rfl
  · rw [List.filter_append, List.filter_append, hfilter]
    rfl

theorem eraseAll_children_match (cs : List Char) :
    eraseAll childrenText (childrenText ++ cs) = eraseAll childrenText cs :=
  replaceAll_match '[' _ [] cs

/-- Erasing the keys of children erases the segments that look like them, and no others. -/
theorem eraseAll_children_segment {s : String} (h : Segment s) (cs : List Char) :
    eraseAll childrenText (elementText s.toList ++ cs) =
      (if s = "children" then [] else elementText s.toList) ++ eraseAll childrenText cs := by
  have hrest (rest : List Char) (hi : '[' ∉ rest)
      (hm : childrenText.isPrefixOf ('[' :: rest ++ cs) = false) :
      eraseAll childrenText ('[' :: rest ++ cs) = '[' :: rest ++ eraseAll childrenText cs := by
    rw [List.cons_append] at hm ⊢
    unfold eraseAll
    rw [replaceAll_cons_of_not_match hm]
    unfold childrenText
    rw [replaceAll_append_of_not_mem hi]
    rfl
  rcases h with rfl | h
  · exact hrest ['*', ']'] (by decide) rfl
  · have hs : s.toList ≠ ['*'] := fun e => absurd (h.2 '*' (by simp [e])) (by decide)
    have hn (c : Char) (hc : isIdentChar c = false) : c ∉ s.toList := fun hm => by
      simp [h.2 c hm] at hc
    have helem : elementText s.toList = '[' :: '\x27' :: (s.toList ++ ['\x27', ']']) := by
      rw [elementText, if_neg hs]
      rfl
    split_ifs with hc
    · subst hc
      exact eraseAll_children_match cs
    · rw [helem]
      apply hrest
      · have := hn '[' (by decide)
        simp [this]
      · rw [Bool.eq_false_iff]
        intro hp
        obtain ⟨t, ht⟩ := List.isPrefixOf_iff_prefix.mp hp
        have hq : "children".toList ++ '\x27' :: (']' :: t) = s.toList ++ '\x27' :: (']' :: cs) := by
          simpa only [childrenText, List.cons_append, List.append_assoc, List.cons.injEq, true_and,
            List.nil_append] using ht
        have he := eq_of_append_cons_eq (by decide) (hn '\x27' (by decide)) hq
        exact hc (String.toList_inj.mp he.symm)

/-- Of the segments those remain that are not the key of children. -/
theorem eraseAll_children_segments {ns : List String} (h : ∀ s ∈ ns, Segment s) :
    eraseAll childrenText (ns.flatMap fun m => childrenText ++ elementText m.toList) =
      (ns.filter (· ≠ "children")).flatMap fun m => elementText m.toList := by
  induction ns with
  | nil => rfl
  | cons n ns ih =>
    rw [List.forall_mem_cons] at h
    rw [List.flatMap_cons, List.append_assoc, eraseAll_children_match,
      eraseAll_children_segment h.1, ih h.2, List.filter_cons]
    by_cases hn : n = "children" <;> simp [hn]

/-- Closing and opening brackets between segments become separators. -/
theorem replaceAll_brackets {n : String} {ns : List String} (h : ∀ m ∈ n :: ns, ']' ∉ m.toList) :
    replaceAll [']', '['] ['/']
        (n.toList ++ ']' :: ns.flatMap fun m => '[' :: (m.toList ++ [']'])) =
      (joined '/' (n :: ns)).toList ++ [']'] := by
  induction ns generalizing n with
  | nil =>
    rw [List.flatMap_nil, replaceAll_append_of_not_mem (h n (by simp)), toList_joined_cons]
    simp [replaceAll, replaceFrom]
  | cons m ns ih =>
    have ht := ih fun k hk => h k (List.mem_cons_of_mem _ hk)
    have hm := replaceAll_match ']' ['['] ['/']
      (m.toList ++ ']' :: ns.flatMap fun m => '[' :: (m.toList ++ [']']))
    simp only [List.cons_append, List.nil_append] at hm
    rw [replaceAll_append_of_not_mem (h n (by simp))]
    simp only [List.flatMap_cons, List.cons_append, List.append_assoc, List.nil_append]
    rw [hm, ht, toList_joined_cons, toList_joined_cons]
    simp

/-- Decoding the query of a path gives back the segments other than `children`, and the root
where there are no others. -/
theorem jsontogen2_gen2tojson {segs : List String} (hne : segs ≠ []) (h : ∀ s ∈ segs, Segment s) :
    jsontogen2 (gen2tojson (joined '/' segs)) =
      if segs.filter (· ≠ "children") = [] then "$"
      else joined '/' (segs.filter (· ≠ "children")) := by
  have hjson : (gen2tojson (joined '/' segs)).toList =
      '$' :: childrenText.intercalate (segs.map fun s => elementText s.toList) := by
    rw [gen2tojson, String.toList_ofList, splitOn_joined hne fun s hs => (h s hs).no_slash,
      List.map_map]
    rfl
  have h1 : eraseAll childrenText (gen2tojson (joined '/' segs)).toList =
      '$' :: (segs.filter (· ≠ "children")).flatMap fun m => elementText m.toList := by
    obtain ⟨n, ns, rfl⟩ := List.exists_cons_of_ne_nil hne
    rw [List.forall_mem_cons] at h
    have hd (cs : List Char) : eraseAll childrenText ('$' :: cs) =
        '$' :: eraseAll childrenText cs := replaceAll_cons_of_ne (by decide) _ _ _
    rw [hjson, hd, List.map_cons, intercalate_cons, List.flatMap_map,
      eraseAll_children_segment h.1, eraseAll_children_segments h.2, List.filter_cons]
    by_cases hn : n = "children" <;> simp [hn]
  have hkept : ∀ m ∈ segs.filter (· ≠ "children"), Segment m := fun m hm =>
    h m (List.mem_of_mem_filter hm)
  generalize segs.filter (· ≠ "children") = kept at h1 hkept ⊢
  have h2 : eraseAll ['\x27'] ('$' :: kept.flatMap fun m => elementText m.toList) =
      '$' :: kept.flatMap fun m => '[' :: (m.toList ++ [']']) := by
    rw [eraseAll_singleton, List.filter_cons_of_pos (by decide), List.filter_flatMap]
    exact congrArg (List.cons '$') (List.flatMap_congr fun m hm => elementText_segment (hkept m hm))
  unfold jsontogen2
  simp only [h1, h2]
  split_ifs with hk
  · subst hk
    decide
  · obtain ⟨n, ns, rfl⟩ := List.exists_cons_of_ne_nil hk
    have hb := replaceAll_brackets fun m hm =>
      (hkept m hm).not_mem (c := ']') (by decide) (by decide)
    have h3 : replaceAll [']', '['] ['/'] ('$' :: (n :: ns).flatMap fun m =>
        '[' :: (m.toList ++ [']'])) = '$' :: '[' :: ((joined '/' (n :: ns)).toList ++ [']']) := by
      rw [replaceAll_cons_of_ne (by decide), List.flatMap_cons, List.cons_append,
        replaceAll_cons_of_ne (by decide), List.append_assoc]
      simpa using hb
    have h4 := eraseFirst_append '$' ['['] ((joined '/' (n :: ns)).toList ++ [']'])
    simp only [List.cons_append, List.nil_append] at h4
    rw [h3, h4, eraseLast_append, String.ofList_toList]

end Decoding

theorem filter_nodeNames {ns : List String} (h : ∀ m ∈ ns, NodeName m) :
    ns.filter (· ≠ "children") = ns := by
  rw [List.filter_eq_self]
  intro m hm
  simpa using (h m hm).2

/-- Decoding the query of a node gives back its names, whatever they are. -/
theorem jsontogen2_toPath {n : String} {ns : List String} (h : ∀ m ∈ n :: ns, NodeName m) :
    jsontogen2 (Loc.toPath (nodeLoc (n :: ns))) = canonicalGen2 (n :: ns) := by
  rw [toPath_nodeLoc (by simp) h,
    jsontogen2_gen2tojson (by simp) fun m hm => (h m hm).segment, filter_nodeNames h]
  rfl

theorem gen2togen1_joined {segs : List String} (h : ∀ s ∈ segs, '/' ∉ s.toList) :
    gen2togen1 (joined '/' segs) = joined '.' segs := by
  have hs : ∀ l ∈ segs.map String.toList, '/' ∉ l := by
    intro l hl
    obtain ⟨s, hm, rfl⟩ := List.mem_map.mp hl
    exact h s hm
  simp only [gen2togen1, joined, String.toList_ofList, replaceChar_intercalate hs]

theorem gen2togen1_canonical {ns : List String} (h : ∀ m ∈ ns, NodeName m) :
    gen2togen1 (canonicalGen2 ns) = canonicalGen1 ns :=
  gen2togen1_joined fun m hm => (h m hm).segment.no_slash

end Nodes

end VSSPath
