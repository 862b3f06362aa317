import KuksaVal.VssTree

/-! The enumeration of leaves is exact: every leaf at or below a node that the path matches, once,
in the order of the paths. -/
namespace VssDatabase
open Json VSSPath

section Order

/-- A text stays before a later one when what follows the first starts with a slash. -/
theorem append_lt_append {n m : List Char} (h : n < m) (hm : ∀ c ∈ m, '/' < c) {s : List Char}
    (hs : s = [] ∨ ∃ u, s = '/' :: u) (t : List Char) : n ++ s < m ++ t := by
  induction h with
  | nil =>
    rename_i c m
    rcases hs with rfl | ⟨u, rfl⟩
    · exact .nil
    · exact .rel (hm c (by simp))
  | rel h => exact .rel h
  | cons _ ih => exact .cons (ih fun c hc => hm c (by simp [hc]))

theorem identChar_range {c : Char} (h : isIdentChar c = true) : 47 < c.toNat ∧ c.toNat < 123 := by
  change ((decide (c.val ≥ 65 ∧ c.val ≤ 90) || decide (c.val ≥ 97) && decide (c.val ≤ 122) ||
    decide (c.val ≥ 48) && decide (c.val ≤ 57)) || decide (c = '_')) = true at h
  simp only [Bool.or_eq_true, Bool.and_eq_true, decide_eq_true_eq, UInt32.le_iff_toNat_le,
    ge_iff_le] at h
  change ((((65 ≤ c.toNat ∧ c.toNat ≤ 90) ∨ (97 ≤ c.toNat ∧ c.toNat ≤ 122)) ∨
    (48 ≤ c.toNat ∧ c.toNat ≤ 57)) ∨ c = '_') at h
  rcases h with ((h | h) | h) | rfl
  · omega
  · omega
  · omega
  · decide

theorem slash_lt {c : Char} (h : isIdentChar c = true) : '/' < c := by
  rw [Char.lt_def, UInt32.lt_iff_toNat_lt]
  exact (identChar_range h).1

theorem nodeName_slash_lt {n : String} (h : NodeName n) : ∀ c ∈ n.toList, '/' < c := fun c hc =>
  slash_lt (h.1.2 c hc)

/-- What follows a name in a slash path. -/
def tailText (ns : List String) : List Char := ns.flatMap fun m => '/' :: m.toList

theorem tailText_cases (ns : List String) : tailText ns = [] ∨ ∃ u, tailText ns = '/' :: u := by
  cases ns with
  | nil => exact .inl rfl
  | cons n ns => exact .inr ⟨_, rfl⟩

/-- Names after their parents are in order when the ways down are. -/
theorem tailText_lt {ns ms : List String} (hm : ∀ m ∈ ms, NodeName m)
    (h : Loc.Before (belowLoc ns) (belowLoc ms)) : tailText ns < tailText ms := by
  induction ns generalizing ms with
  | nil => simp [Loc.Before] at h
  | cons n ns ih =>
    cases ms with
    | nil => simp [Loc.Before] at h
    | cons m ms =>
      rw [List.forall_mem_cons] at hm
      simp only [belowLoc_cons, Loc.before_cons] at h
      show '/' :: (n.toList ++ tailText ns) < '/' :: (m.toList ++ tailText ms)
      apply List.Lex.cons
      rcases h with hlt | ⟨he, h⟩
      · exact append_lt_append (String.lt_iff_toList_lt.mp hlt) (nodeName_slash_lt hm.1)
          (tailText_cases ns) _
      · obtain rfl := Step.key.inj he
        exact List.append_left_lt (ih hm.2 h)

/-- The slash paths of nodes are in order when their locations are. -/
theorem canonicalGen2_lt {ns ms : List String} (hm : ∀ m ∈ ms, NodeName m)
    (h : Loc.Before (nodeLoc ns) (nodeLoc ms)) : canonicalGen2 ns < canonicalGen2 ms := by
  cases ns with
  | nil => simp [nodeLoc, Loc.Before] at h
  | cons n ns =>
    cases ms with
    | nil => simp [nodeLoc, Loc.Before] at h
    | cons m ms =>
      rw [List.forall_mem_cons] at hm
      rw [nodeLoc_cons, nodeLoc_cons] at h
      unfold canonicalGen2
      rw [String.lt_iff_toList_lt, toList_joined_cons, toList_joined_cons]
      show n.toList ++ tailText ns < m.toList ++ tailText ms
      rcases h with hlt | ⟨he, h⟩
      · exact append_lt_append (String.lt_iff_toList_lt.mp hlt) (nodeName_slash_lt hm.1)
          (tailText_cases ns) _
      · obtain rfl := Step.key.inj he
        exact List.append_left_lt (tailText_lt hm.2 h)

end Order

section Patterns

/-- A wildcard stands for every name, another segment for itself. -/
def SegmentMatches (s n : String) : Prop := s = "*" ∨ s = n

/-- A node at or below one that the segments match, and no branch. -/
def LeafBelow (tree : Json) (segs names : List String) : Prop :=
  (∃ above, above <+: names ∧ List.Forall₂ SegmentMatches segs above) ∧
    ∃ node, tree.at? (nodeLoc names) = some node ∧ node.get? "type" ≠ some (.str "branch")

variable {j tree : Json} {segs : List String}

theorem VssTree.mem_steps_iff (h : VssTree j) (s : String) {t : Step} {c : Json} :
    (t ∈ (elementSelector s.toList).steps j ∧ j.child? t = some c) ↔
      ∃ k, t = .key k ∧ SegmentMatches s k ∧ j.get? k = some c := by
  obtain ⟨ms, rfl, -⟩ := h
  unfold elementSelector SegmentMatches
  split_ifs with hs
  · obtain rfl : s = "*" := String.toList_inj.mp hs
    constructor
    · rintro ⟨ht, hc⟩
      obtain ⟨m, -, rfl⟩ := List.mem_map.mp ht
      exact ⟨m.1, rfl, .inl rfl, hc⟩
    · rintro ⟨k, rfl, -, hc⟩
      exact ⟨List.mem_map.mpr ⟨(k, c), Members.mem_of_get? hc, rfl⟩, hc⟩
  · have hstar : s ≠ "*" := by
      rintro rfl
      exact hs (by decide)
    rw [String.ofList_toList, Selector.steps]
    constructor
    · rintro ⟨ht, hc⟩
      split_ifs at ht
      · obtain rfl := List.mem_singleton.mp ht
        exact ⟨s, rfl, .inr rfl, hc⟩
      · simp at ht
    · rintro ⟨k, rfl, hk, hc⟩
      obtain rfl := hk.resolve_left hstar
      have hsome : (Json.child? (.obj ms) (.key s)).isSome := by
        rw [child?_key, hc]
        rfl
      exact ⟨by simp [hsome], hc⟩

theorem nodeLoc_cons_cons (k k' : String) (ns : List String) :
    nodeLoc (k :: k' :: ns) = .key k :: .key "children" :: nodeLoc (k' :: ns) := rfl

/-- What segments select: the nodes whose names they match one by one. -/
theorem VssTree.mem_select_iff (h : VssTree j) (hne : segs ≠ []) {l : Loc} :
    l ∈ Json.select ((segs.map fun s => elementSelector s.toList).intersperse (.name "children")) j ↔
      ∃ names, l = nodeLoc names ∧ List.Forall₂ SegmentMatches segs names ∧
        (j.at? l).isSome := by
  induction segs generalizing j l with
  | nil => exact absurd rfl hne
  | cons s segs ih =>
    cases segs with
    | nil =>
      simp only [List.map_cons, List.map_nil, List.intersperse_singleton, mem_select_cons]
      constructor
      · rintro ⟨t, ht, c, hc, m, hm, rfl⟩
        obtain ⟨k, rfl, hk, -⟩ := (h.mem_steps_iff s).mp ⟨ht, hc⟩
        obtain rfl : m = [] := by simpa using hm
        exact ⟨[k], rfl, .cons hk .nil, by simp [at?_cons, hc]⟩
      · rintro ⟨names, rfl, hf, hat⟩
        obtain ⟨k, hk, rfl⟩ : ∃ k, SegmentMatches s k ∧ names = [k] := by
          cases hf with
          | cons hk hf =>
            cases hf
            exact ⟨_, hk, rfl⟩
        obtain ⟨c, hc⟩ := Option.isSome_iff_exists.mp hat
        have hget : j.get? k = some c := by simpa [nodeLoc, at?_cons, child?_key] using hc
        obtain ⟨ht, hc'⟩ := (h.mem_steps_iff s).mpr ⟨k, rfl, hk, hget⟩
        exact ⟨.key k, ht, c, hc', [], by simp, rfl⟩
    | cons s' segs =>
      simp only [List.map_cons, List.intersperse_cons_cons] at ih ⊢
      constructor
      · intro hl
        have hat := select_located hl
        obtain ⟨t, ht, c, hc, m, hm, rfl⟩ := mem_select_cons.mp hl
        obtain ⟨k, rfl, hk, hget⟩ := (h.mem_steps_iff s).mp ⟨ht, hc⟩
        obtain ⟨d, hd, m', hm', rfl⟩ := mem_select_name.mp hm
        obtain ⟨names, rfl, hf, -⟩ := (ih ((h.node hget).2.children hd) (by simp)).mp hm'
        refine ⟨k :: names, ?_, .cons hk hf, hat⟩
        cases hf
        rfl
      · rintro ⟨names, rfl, hf, hat⟩
        obtain ⟨k, k', ns, hk, hf', rfl⟩ : ∃ k k' ns, SegmentMatches s k ∧
            List.Forall₂ SegmentMatches (s' :: segs) (k' :: ns) ∧ names = k :: k' :: ns := by
          cases hf with
          | cons hk hf =>
            cases hf with
            | cons hk' hf => exact ⟨_, _, _, hk, .cons hk' hf, rfl⟩
        obtain ⟨node, hat⟩ := Option.isSome_iff_exists.mp hat
        rw [nodeLoc_cons_cons, at?_cons, child?_key] at hat
        obtain ⟨c, hc, hat⟩ := Option.bind_eq_some_iff.mp hat
        rw [at?_cons, child?_key] at hat
        obtain ⟨d, hd, hat⟩ := Option.bind_eq_some_iff.mp hat
        obtain ⟨ht, hc'⟩ := (h.mem_steps_iff s).mpr ⟨k, rfl, hk, hc⟩
        refine mem_select_cons.mpr ⟨.key k, ht, c, hc', _, ?_, rfl⟩
        refine mem_select_name.mpr ⟨d, hd, _, ?_, rfl⟩
        exact (ih ((h.node hc).2.children hd) (by simp)).mpr
          ⟨k' :: ns, rfl, hf', Option.isSome_iff_exists.mpr ⟨node, hat⟩⟩

/-- The leaves at or below what a path of segments selects. -/
theorem VssTree.leafOf_iff (h : VssTree tree) (hne : segs ≠ []) {names : List String}
    {ls : List Loc} (hl : ls = Json.select ((segs.map fun s => elementSelector s.toList).intersperse
      (.name "children")) tree) : LeafOf tree ls names ↔ LeafBelow tree segs names := by
  unfold LeafOf LeafBelow
  constructor
  · rintro ⟨above, habove, hpre, hnode⟩
    obtain ⟨names', he, hf, -⟩ := (h.mem_select_iff hne).mp (hl ▸ habove)
    obtain rfl := nodeLoc_injective he
    exact ⟨⟨above, hpre, hf⟩, hnode⟩
  · rintro ⟨⟨above, ⟨more, rfl⟩, hf⟩, node, hat, hb⟩
    refine ⟨above, hl ▸ (h.mem_select_iff hne).mpr ⟨above, rfl, hf, ?_⟩, ⟨more, rfl⟩, node, hat, hb⟩
    have hne' : above ≠ [] := by
      rintro rfl
      cases hf
      exact hne rfl
    rw [nodeLoc_append hne', at?_append] at hat
    obtain ⟨n, hn, -⟩ := Option.bind_eq_some_iff.mp hat
    rw [hn]
    rfl

end Patterns

section Enumeration
variable {jp : JsonPath} {db : VssDatabase}

/-- The leaves at or below what the segments match: each once, in the order of the paths, with a
query that selects it and its names as slash path. -/
structure LeafEnumeration (jp : JsonPath) (tree : Json) (segs : List String)
    (paths : List VSSPath) (leaves : List (List String)) : Prop where
  exact : ∀ names, names ∈ leaves ↔ LeafBelow tree segs names
  once : leaves.Nodup
  names : paths.map getVSSPath = leaves.map canonicalGen2
  selects : List.Forall₂ (fun p names => jp.matches? tree p.getJSONPath = .ok [nodeLoc names])
    paths leaves
  sorted : (paths.map getVSSPath).Pairwise (· < ·)
  empty : paths = [] ↔ ¬ ∃ names, LeafBelow tree segs names

theorem LeafBelow.located {tree : Json} {segs names : List String} (h : LeafBelow tree segs names)
    (hne : segs ≠ []) (ht : VssTree tree) :
    names ≠ [] ∧ (∀ n ∈ names, NodeName n) ∧ ∃ node, tree.at? (nodeLoc names) = some node := by
  obtain ⟨⟨above, ⟨more, rfl⟩, hf⟩, node, hat, -⟩ := h
  have hne' : above ++ more ≠ [] := by
    intro he
    obtain ⟨rfl, -⟩ := List.append_eq_nil_iff.mp he
    cases hf
    exact hne rfl
  exact ⟨hne', (ht.located hne' hat).1, node, hat⟩

theorem fromJSON_toPath_vsspath {names : List String} (hne : names ≠ [])
    (h : ∀ n ∈ names, NodeName n) (gen1 : Bool) :
    (fromJSON (Loc.toPath (nodeLoc names)) gen1).vsspath = canonicalGen2 names := by
  obtain ⟨n, ns, rfl⟩ := List.exists_cons_of_ne_nil hne
  exact jsontogen2_toPath h

/-- The enumeration of leaves is exact on every well-formed tree, for every path of names and
wildcards. -/
theorem getLeafPaths_exact (jp : JsonPath) (db : VssDatabase) (path : VSSPath)
    (segs : List String) (hne : segs ≠ []) (hs : ∀ s ∈ segs, Segment s)
    (hp : path.getJSONPath = gen2tojson (joined '/' segs)) (ht : VssTree db.dataTree)
    (ho : db.dataTree.ordered = true) :
    ∃ paths leaves, getLeafPaths jp db path = .ok paths ∧
      LeafEnumeration jp db.dataTree segs paths leaves := by
  have hsel := selectors_joined hne hs
  have hm : jp.matches? db.dataTree path.jsonpath =
      .ok (Json.select (selectors (joined '/' segs)) db.dataTree) := by
    rw [getJSONPath] at hp
    rw [hp, gen2tojson_eq_renderPath (plain_joined hs), JsonPath.matches?_renderPath]
  obtain ⟨paths, hpaths, henum⟩ := getLeafPaths_enumerates hm
  have hplain : Json.select (selectors (joined '/' segs)) db.dataTree =
      Json.select (selectors (gen1togen2 (joined '/' segs))) db.dataTree := by
    rw [gen1togen2_joined hs]
  obtain ⟨leaves, hleaves, hnodup, hmem⟩ := ht.leavesAt ho _ hplain
  have hbelow (names : List String) : names ∈ leaves ↔ LeafBelow db.dataTree segs names :=
    (hmem names).trans (ht.leafOf_iff hne (by rw [hsel]))
  have hnames (names : List String) (h : names ∈ leaves) :=
    ((hbelow names).mp h).located hne ht
  have hvss (gen1 : Bool) (names : List String) (h : names ∈ leaves) :
      (fromJSON (Loc.toPath (nodeLoc names)) gen1).vsspath = canonicalGen2 names :=
    fromJSON_toPath_vsspath (hnames names h).1 (hnames names h).2.1 gen1
  -- Locations in order give paths in order, so no merge moves anything.
  have hbefore : leaves.Pairwise fun ns ms => Loc.Before (nodeLoc ns) (nodeLoc ms) :=
    List.pairwise_map.mp (hleaves ▸ leavesAt_pairwise ho _)
  have hsorted : leaves.Pairwise fun ns ms => canonicalGen2 ns < canonicalGen2 ms :=
    hbefore.imp_of_mem fun _ hms hb => canonicalGen2_lt (hnames _ hms).2.1 hb
  rw [hleaves, pathsOf, List.map_map] at henum
  obtain rfl := henum.2 (List.pairwise_map.mpr (hsorted.imp_of_mem fun {ns ms} hns hms hlt => by
    show (fromJSON _ _).vsspath < (fromJSON _ _).vsspath
    rwa [hvss _ ns hns, hvss _ ms hms]))
  have hmap : (leaves.map ((fun l => fromJSON (Loc.toPath l) path.isGen1Origin) ∘ nodeLoc)).map
      getVSSPath = leaves.map canonicalGen2 := by
    rw [List.map_map]
    exact List.map_congr_left fun names h => hvss _ names h
  refine ⟨_, leaves, hpaths, hbelow, hnodup, hmap, ?_, ?_, ?_⟩
  · rw [List.forall₂_map_left_iff, List.forall₂_same]
    intro names h
    obtain ⟨-, -, node, hat⟩ := hnames names h
    show jp.matches? db.dataTree (Loc.toPath (nodeLoc names)) = _
    rw [Loc.toPath, JsonPath.matches?_renderPath, select_loc (by simp [hat])]
  · rw [hmap]
    exact List.pairwise_map.mpr hsorted
  · rw [List.map_eq_nil_iff]
    simp only [← hbelow]
    constructor
    · rintro rfl ⟨names, h⟩
      simp at h
    · intro h
      exact List.eq_nil_iff_forall_not_mem.mpr fun names hm => h ⟨names, hm⟩

/-- A branch and a leaf whose name goes on where the name of the branch ends. -/
def doorTree : Json :=
  .obj [("Door", .obj [("children", .obj [("Left", .obj [("type", .str "sensor")])]),
    ("type", .str "branch")]), ("Door1", .obj [("type", .str "sensor")])]

theorem doorTree_vssTree : VssTree doorTree := by
  have hleaf : VssNode (.obj [("type", .str "sensor")]) := .leaf rfl (by decide) rfl
  have hdoor := (vssTree_singleton (n := "Left") (by decide +kernel) hleaf).branch
  refine ⟨_, rfl, ?_⟩
  intro m hm
  simp only [List.mem_cons, List.not_mem_nil, or_false] at hm
  rcases hm with rfl | rfl
  · exact ⟨by decide +kernel, hdoor⟩
  · exact ⟨by decide +kernel, hleaf⟩

theorem getLeafPaths_doors : ∃ paths leaves,
    getLeafPaths .selectors ⟨doorTree, doorTree⟩ (.fromVSS "*") = .ok paths ∧
      LeafEnumeration .selectors doorTree ["*"] paths leaves :=
  getLeafPaths_exact .selectors ⟨doorTree, doorTree⟩ (.fromVSS "*") ["*"] (by decide)
    (by decide +kernel) (by decide +kernel) doorTree_vssTree (by decide +kernel)

end Enumeration

end VssDatabase
