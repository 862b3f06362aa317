import KuksaVal.MetaDataUpdates
import KuksaVal.LeafPaths

/-! What the checks and the enumeration of leaves read of a tree: in two trees of one metadata they
find the same nodes. -/
namespace VssDatabase
open Json

/-- The query of names and wildcards, with the children between them. -/
def NodeQuery (p : String) : Prop :=
  ∃ ss : List Selector, ss ≠ [] ∧ p = renderPath (ss.intersperse (.name "children"))

variable {jp : JsonPath} {tree tree' node node' : Json} {l : Loc} {p : String}

section Queries

theorem nodeQuery_fromVSS {path : String} (hp : VSSPath.Plain path) :
    NodeQuery (VSSPath.fromVSS path).jsonpath :=
  ⟨_, List.map_eq_nil_iff.not.mpr (List.splitOn_ne_nil '/' _), VSSPath.fromVSS_plain hp⟩

theorem IsNodeLoc.selectors (hl : IsNodeLoc l) : ∃ ss : List Selector, ss ≠ [] ∧
    l.map Step.selector = ss.intersperse (.name "children") := by
  induction hl with
  | top s => exact ⟨[s.selector], by simp, rfl⟩
  | @down s l _ ih =>
    obtain ⟨ss, hne, he⟩ := ih
    obtain ⟨s', ss, rfl⟩ := List.exists_cons_of_ne_nil hne
    refine ⟨s.selector :: s' :: ss, by simp, ?_⟩
    rw [List.intersperse_cons_cons, ← he]
    rfl

theorem IsNodeLoc.nodeQuery (hl : IsNodeLoc l) : NodeQuery l.toPath := by
  obtain ⟨ss, hne, he⟩ := hl.selectors
  exact ⟨ss, hne, congrArg renderPath he⟩

theorem intersperse_append_singleton {α : Type*} (sep a : α) {xs : List α} (hne : xs ≠ []) :
    (xs ++ [a]).intersperse sep = xs.intersperse sep ++ [sep, a] := by
  induction xs with
  | nil => exact absurd rfl hne
  | cons x xs ih =>
    cases xs with
    | nil => rfl
    | cons y xs =>
      rw [List.cons_append, List.cons_append, List.intersperse_cons_cons,
        List.intersperse_cons_cons, ← List.cons_append, ih (by simp)]
      rfl

theorem IsNodeLoc.nodeQuery_children (hl : IsNodeLoc l) :
    NodeQuery (l.toPath ++ "['children'][*]") := by
  obtain ⟨ss, hne, he⟩ := hl.selectors
  refine ⟨ss ++ [.wildcard], by simp, ?_⟩
  rw [childPath_eq, he, intersperse_append_singleton _ _ hne]
  rfl

theorem NodeQuery.isNodeLoc (hp : NodeQuery p) {ls : List Loc} (hm : jp.matches? tree p = .ok ls)
    (hl : l ∈ ls) : IsNodeLoc l := by
  obtain ⟨ss, hne, rfl⟩ := hp
  rw [JsonPath.matches?_renderPath, Except.ok.injEq] at hm
  exact isNodeLoc_of_select hne (hm ▸ hl)

variable (jp) in
theorem NodeQuery.matches? (hp : NodeQuery p) (h : prune isRuntime tree = prune isRuntime tree') :
    jp.matches? tree p = jp.matches? tree' p := by
  obtain ⟨ss, -, rfl⟩ := hp
  rw [JsonPath.matches?_renderPath, JsonPath.matches?_renderPath,
    ← select_prune children_not_runtime, h, select_prune children_not_runtime]

/-- A path resolves in both trees, to nodes of one metadata. -/
theorem NodeQuery.resolves {path : VSSPath} (hp : NodeQuery path.jsonpath)
    (h : prune isRuntime tree = prune isRuntime tree') (hr : Resolves jp tree path l node) :
    ∃ node', Resolves jp tree' path l node' ∧
      pruneNode isRuntime node = pruneNode isRuntime node' := by
  have hl := hp.isNodeLoc hr.unique (List.mem_singleton_self l)
  have hat := map_at?_of_prune children_not_runtime hl h.symm
  rw [hr.located, Option.map_some] at hat
  obtain ⟨node', hn', he⟩ := Option.map_eq_some_iff.mp hat
  exact ⟨node', ⟨(hp.matches? jp h).symm.trans hr.unique, hn'⟩, he.symm⟩

/-- Members that are not written at run time are read alike. -/
theorem get?_of_pruneNode (h : pruneNode isRuntime node = pruneNode isRuntime node') {k : String}
    (hk : isRuntime k = false) (hc : k ≠ "children") : node.get? k = node'.get? k := by
  cases node with
  | obj ms =>
    obtain ⟨ms', rfl, he⟩ := pruneNode_eq_obj h
    have hm := congrArg (Members.get? k) he
    simpa [get?_pruneMembers, hk, hc, get?] using hm
  | _ =>
    cases node' with
    | obj ms' => simp [pruneNode] at h
    | _ => rfl

variable (jp) in
/-- A query finds nodes of one metadata in both trees. -/
theorem NodeQuery.query (hp : NodeQuery p) (h : prune isRuntime tree = prune isRuntime tree') :
    ∃ vs vs', jsonQuery jp tree p = .ok vs ∧ jsonQuery jp tree' p = .ok vs' ∧
      List.Forall₂ (fun v v' => pruneNode isRuntime v = pruneNode isRuntime v') vs vs' := by
  have hm : ∃ ls, jp.matches? tree p = .ok ls := by
    obtain ⟨ss, -, rfl⟩ := hp
    exact ⟨_, JsonPath.matches?_renderPath tree _⟩
  obtain ⟨ls, hm⟩ := hm
  have hm' := (hp.matches? jp h).symm.trans hm
  refine ⟨_, _, jsonQuery_eq_ok_iff.mpr (JsonPath.query_of_matches hm),
    jsonQuery_eq_ok_iff.mpr (JsonPath.query_of_matches hm'), ?_⟩
  have hl : ∀ l ∈ ls, ∃ v v', tree.at? l = some v ∧ tree'.at? l = some v' ∧
      pruneNode isRuntime v = pruneNode isRuntime v' := by
    intro l hl
    obtain ⟨v, hv⟩ := Option.isSome_iff_exists.mp (JsonPath.matches?_located hm l hl)
    have hat := map_at?_of_prune children_not_runtime (hp.isNodeLoc hm hl) h.symm
    rw [hv, Option.map_some] at hat
    obtain ⟨v', hv', he⟩ := Option.map_eq_some_iff.mp hat
    exact ⟨v, v', hv, hv', he.symm⟩
  clear hm hm'
  induction ls with
  | nil => exact .nil
  | cons l ls ih =>
    obtain ⟨v, v', hv, hv', he⟩ := hl l List.mem_cons_self
    rw [List.filterMap_cons_some hv, List.filterMap_cons_some hv']
    exact .cons he (ih fun m hm => hl m (List.mem_cons_of_mem l hm))

/-- What is computed from the metadata of the matched nodes is computed alike. -/
theorem NodeQuery.map_query {α : Type*} (hp : NodeQuery p)
    (h : prune isRuntime tree = prune isRuntime tree') {f : List Json → α}
    (hf : ∀ vs vs',
      List.Forall₂ (fun v v' => pruneNode isRuntime v = pruneNode isRuntime v') vs vs' →
        f vs = f vs') :
    (jsonQuery jp tree p).map f = (jsonQuery jp tree' p).map f := by
  obtain ⟨vs, vs', hq, hq', hall⟩ := hp.query jp h
  rw [hq, hq']
  exact congrArg Except.ok (hf vs vs' hall)

end Queries

section Checks
variable {db db' : VssDatabase} {path : VSSPath}

theorem typeReads_of_pruneNode (h : pruneNode isRuntime node = pruneNode isRuntime node')
    (type : String) : typeReads type node = typeReads type node' := by
  unfold typeReads
  rw [get?_of_pruneNode h (by decide) (by decide)]

theorem isType_of_pruneNode (h : pruneNode isRuntime node = pruneNode isRuntime node')
    (type : String) : isType type node = isType type node' := by
  unfold isType
  rw [get?_of_pruneNode h (by decide) (by decide)]

variable (hp : NodeQuery path.jsonpath)
  (h : prune isRuntime db.dataTree = prune isRuntime db'.dataTree)
include hp h

theorem pathExists_congr : pathExists jp db path = pathExists jp db' path := by
  refine hp.map_query h ?_
  intro vs vs' hall
  rw [hall.length_eq]

theorem pathIsWritable_congr : pathIsWritable jp db path = pathIsWritable jp db' path := by
  refine hp.map_query h ?_
  intro vs vs' hall
  cases hall with
  | nil => rfl
  | cons he hall =>
    cases hall with
    | nil => simp only [typeReads_of_pruneNode he]
    | cons _ _ => rfl

theorem pathIsReadable_congr : pathIsReadable jp db path = pathIsReadable jp db' path := by
  refine hp.map_query h ?_
  intro vs vs' hall
  cases hall with
  | nil => rfl
  | cons he hall =>
    cases hall with
    | nil => simp only [isSensor, isActor, isAttribute, isType_of_pruneNode he]
    | cons _ _ => rfl

theorem pathIsAttributable_congr (attr : String) :
    pathIsAttributable jp db path attr = pathIsAttributable jp db' path attr := by
  refine hp.map_query h ?_
  intro vs vs' hall
  cases hall with
  | nil => rfl
  | cons he hall =>
    cases hall with
    | nil => simp only [typeReads_of_pruneNode he]
    | cons _ _ => rfl

end Checks

section Leaves
variable {db db' : VssDatabase} {path : VSSPath}

/-- The loop over matched nodes goes on from what the recursion gives. -/
theorem collectLeafPaths_congr (h : prune isRuntime db.dataTree = prune isRuntime db'.dataTree)
    {recurse recurse' : VSSPath → Except Exn (List VSSPath)}
    (hr : ∀ path : VSSPath, NodeQuery path.jsonpath → recurse path = recurse' path) (gen1 : Bool)
    {ls : List Loc} (hl : ∀ l ∈ ls, IsNodeLoc l) (paths : List VSSPath) :
    collectLeafPaths jp db recurse gen1 (ls.map Loc.toPath) paths =
      collectLeafPaths jp db' recurse' gen1 (ls.map Loc.toPath) paths := by
  induction ls generalizing paths with
  | nil => rfl
  | cons l ls ih =>
    have htail := ih fun m hm => hl m (List.mem_cons_of_mem l hm)
    have hloc := hl l List.mem_cons_self
    obtain ⟨vs, vs', hq, hq', hall⟩ := hloc.nodeQuery.query jp h
    simp only [List.map_cons, collectLeafPaths, hq, hq']
    cases hall with
    | nil => exact htail paths
    | cons he _ =>
      simp only [typeReads_of_pruneNode he, htail]
      rw [hr (.fromJSON (l.toPath ++ "['children'][*]") gen1) hloc.nodeQuery_children]

theorem getLeafPathsWithin_congr (h : prune isRuntime db.dataTree = prune isRuntime db'.dataTree)
    (fuel : ℕ) (hp : NodeQuery path.jsonpath) :
    getLeafPathsWithin jp db fuel path = getLeafPathsWithin jp db' fuel path := by
  induction fuel generalizing path with
  | zero => rfl
  | succ fuel ih =>
    have hm := hp.matches? jp h
    unfold getLeafPathsWithin JsonPath.queryPaths VSSPath.getJSONPath
    rw [hm]
    cases hls : jp.matches? db'.dataTree path.jsonpath with
    | error e => rfl
    | ok ls =>
      rw [hls] at hm
      exact collectLeafPaths_congr h (fun path hp => ih hp) path.isGen1Origin
        (fun l hl => hp.isNodeLoc hm hl) []

/-- A recursion that answers more is answered alike where the first one answers. -/
theorem collectLeafPaths_mono {recurse recurse' : VSSPath → Except Exn (List VSSPath)}
    (hr : ∀ path r, recurse path = .ok r → recurse' path = .ok r) {gen1 : Bool}
    {jpaths : List String} {paths r : List VSSPath}
    (h : collectLeafPaths jp db recurse gen1 jpaths paths = .ok r) :
    collectLeafPaths jp db recurse' gen1 jpaths paths = .ok r := by
  induction jpaths generalizing paths with
  | nil => exact h
  | cons jpath jpaths ih =>
    unfold collectLeafPaths at h ⊢
    cases hq : jsonQuery jp db.dataTree jpath with
    | error e => simp [hq] at h
    | ok vs =>
      rw [hq] at h
      cases vs with
      | nil => exact ih h
      | cons res vs =>
        simp only at h ⊢
        split_ifs at h ⊢
        · cases hb : recurse (.fromJSON (jpath ++ "['children'][*]") gen1) with
          | error e => simp [hb] at h
          | ok below =>
            rw [hb] at h
            rw [hr _ _ hb]
            exact ih h
        · exact ih h

theorem getLeafPathsWithin_mono {fuel : ℕ} {r : List VSSPath}
    (h : getLeafPathsWithin jp db fuel path = .ok r) :
    getLeafPathsWithin jp db (fuel + 1) path = .ok r := by
  induction fuel generalizing path r with
  | zero => simp [getLeafPathsWithin] at h
  | succ fuel ih =>
    unfold getLeafPathsWithin at h ⊢
    cases hq : jp.queryPaths db.dataTree path.getJSONPath with
    | error e => simpa [hq] using h
    | ok jpaths =>
      rw [hq] at h
      exact collectLeafPaths_mono (fun _ _ hr => ih hr) h

/-- More fuel than a result needs does not change it. -/
theorem getLeafPathsWithin_le {fuel fuel' : ℕ} (hle : fuel ≤ fuel') {r : List VSSPath}
    (h : getLeafPathsWithin jp db fuel path = .ok r) :
    getLeafPathsWithin jp db fuel' path = .ok r := by
  induction hle with
  | refl => exact h
  | step _ ih => exact getLeafPathsWithin_mono ih

/-- Trees of one metadata have the same leaves, in the same order. -/
theorem getLeafPaths_congr (h : prune isRuntime db.dataTree = prune isRuntime db'.dataTree)
    (hp : NodeQuery path.jsonpath) : getLeafPaths jp db path = getLeafPaths jp db' path := by
  obtain ⟨r, hr⟩ := getLeafPaths_isOk jp db path
  obtain ⟨r', hr'⟩ := getLeafPaths_isOk jp db' path
  have h1 := getLeafPathsWithin_le (Nat.le_max_left _ (db'.dataTree.depth + 1)) hr
  have h2 := getLeafPathsWithin_le (Nat.le_max_right (db.dataTree.depth + 1) _) hr'
  rw [getLeafPathsWithin_congr h _ hp] at h1
  rw [hr, hr', ← h1, h2]

/-- What holds of the leaves that the loop meets and of those below branches holds of all. -/
theorem collectLeafPaths_forall {P : VSSPath → Prop} {gen1 : Bool}
    {recurse : VSSPath → Except Exn (List VSSPath)} {ls : List Loc}
    (hl : ∀ l ∈ ls, (db.dataTree.at? l).isSome ∧ P (.fromJSON l.toPath gen1) ∧
      ∀ below, recurse (.fromJSON (l.toPath ++ "['children'][*]") gen1) = .ok below →
        ∀ q ∈ below, P q)
    {paths r : List VSSPath} (hpaths : ∀ q ∈ paths, P q)
    (h : collectLeafPaths jp db recurse gen1 (ls.map Loc.toPath) paths = .ok r) :
    ∀ q ∈ r, P q := by
  induction ls generalizing paths with
  | nil =>
    obtain rfl : paths = r := Except.ok.inj h
    exact hpaths
  | cons l ls ih =>
    obtain ⟨hat, hleaf, hbelow⟩ := hl l List.mem_cons_self
    have htail (ps : List VSSPath) := @ih (fun m hm => hl m (List.mem_cons_of_mem l hm)) ps
    obtain ⟨c, hc⟩ := Option.isSome_iff_exists.mp hat
    simp only [List.map_cons, collectLeafPaths, jsonQuery_toPath hc] at h
    split_ifs at h
    · cases hb : recurse (.fromJSON (l.toPath ++ "['children'][*]") gen1) with
      | error e => simp [hb] at h
      | ok below =>
        rw [hb] at h
        refine htail _ ?_ h
        intro q hq
        have hperm : (mergePaths paths below).Perm (paths ++ below) := List.merge_perm_append _
        exact (List.mem_append.mp (hperm.mem_iff.mp hq)).elim (hpaths q) (hbelow below hb q)
    · refine htail _ ?_ h
      intro q hq
      rcases List.mem_append.mp hq with hq | hq
      · exact hpaths q hq
      · exact List.mem_singleton.mp hq ▸ hleaf

/-- What is enumerated are the locations of nodes. -/
theorem getLeafPathsWithin_located {fuel : ℕ} {r : List VSSPath} (hp : NodeQuery path.jsonpath)
    (h : getLeafPathsWithin jp db fuel path = .ok r) :
    ∀ q ∈ r, ∃ l gen1, q = .fromJSON l.toPath gen1 ∧ IsNodeLoc l ∧ (db.dataTree.at? l).isSome := by
  induction fuel generalizing path r with
  | zero => simp [getLeafPathsWithin] at h
  | succ fuel ih =>
    cases hm : jp.matches? db.dataTree path.jsonpath with
    | error e =>
      have hr : r = [] := by
        simpa [getLeafPathsWithin, JsonPath.queryPaths, VSSPath.getJSONPath, hm, Except.map,
          eq_comm] using h
      simp [hr]
    | ok ls =>
      rw [getLeafPathsWithin_succ fuel hm] at h
      refine collectLeafPaths_forall ?_ (by simp) h
      intro l hl
      have hloc := hp.isNodeLoc hm hl
      have hat := JsonPath.matches?_located hm l hl
      exact ⟨hat, ⟨l, _, rfl, hloc, hat⟩, fun below hb => ih hloc.nodeQuery_children hb⟩

end Leaves

end VssDatabase
