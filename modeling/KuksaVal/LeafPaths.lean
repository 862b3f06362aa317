import KuksaVal.Resolution
import KuksaVal.Json.Order

/-! The enumeration of the leaves at or below the nodes that a path matches. -/
namespace VssDatabase
open Json

/-- The children of a branch are below this selection. -/
def childSelectors : List Selector := [.name "children", .wildcard]

theorem select_childSelectors_length {n : Json} {t : Loc} (h : t ∈ select childSelectors n) :
    t.length = 2 := select_length h

/-- The locations of the leaves of a node, relative to it. -/
def leaves (n : Json) : List Loc :=
  if typeReads "branch" n then
    (select childSelectors n).attach.flatMap fun t =>
      match _hc : n.at? t.1 with
      | some c => (leaves c).map (t.1 ++ ·)
      | none => []
  else [[]]
termination_by n.depth
decreasing_by
  have := depth_at?_le _hc
  have := select_childSelectors_length t.2
  omega

theorem leaves_branch {n : Json} (h : typeReads "branch" n = true) :
    leaves n = (select childSelectors n).flatMap fun t =>
      ((n.at? t).elim [] leaves).map (t ++ ·) := by
  rw [leaves]
  simp only [h, ↓reduceIte]
  rw [List.flatMap_subtype (g := fun t => ((n.at? t).elim [] leaves).map (t ++ ·))]
  · rw [List.unattach_attach]
  · intro t _
    split
    · rename_i c hc
      simp only [hc, Option.elim_some]
    · rename_i hc
      simp [hc]

theorem leaves_leaf {n : Json} (h : typeReads "branch" n = false) : leaves n = [[]] := by
  rw [leaves]
  simp [h]

theorem depth_pos_of_get? {n v : Json} {k : String} (h : n.get? k = some v) : 0 < n.depth := by
  have hc : n.child? (.key k) = some v := by rwa [child?_key]
  exact (Nat.zero_le _).trans_lt (depth_child?_lt hc)

theorem depth_branch_pos {n : Json} (h : typeReads "branch" n = true) : 0 < n.depth := by
  cases ht : n.get? "type" with
  | none => simp [typeReads, ht] at h
  | some t => exact depth_pos_of_get? ht

/-- The paths that stand for leaves at these locations. -/
def pathsOf (gen1 : Bool) (ls : List Loc) : List VSSPath :=
  ls.map fun l => .fromJSON l.toPath gen1

/-- The leaves at or below a location. -/
def leavesAt (tree : Json) (l : Loc) : List Loc := ((tree.at? l).elim [] leaves).map (l ++ ·)

theorem leavesAt_branch {tree n : Json} {l : Loc} (hn : tree.at? l = some n)
    (hb : typeReads "branch" n = true) :
    leavesAt tree l = ((select childSelectors n).map (l ++ ·)).flatMap (leavesAt tree) := by
  have hc (t : Loc) : leavesAt tree (l ++ t) =
      (((n.at? t).elim [] leaves).map (t ++ ·)).map (l ++ ·) := by
    simp [leavesAt, at?_append, hn, Function.comp_def]
  rw [List.flatMap_map]
  simp only [hc]
  rw [← List.map_flatMap, ← leaves_branch hb]
  simp [leavesAt, hn]

/-- The leaves of a node come in the order of the members. -/
theorem leaves_pairwise {n : Json} (hn : n.ordered = true) : (leaves n).Pairwise Loc.Before := by
  induction hd : n.depth using Nat.strong_induction_on generalizing n with
  | _ d ih =>
    by_cases hb : typeReads "branch" n = true
    · rw [leaves_branch hb]
      apply pairwise_flatMap_append (select_pairwise hn childSelectors)
      intro t ht
      cases hc : n.at? t with
      | none => simp
      | some c =>
        have := depth_at?_le hc
        have := select_childSelectors_length ht
        exact ih c.depth (by omega) (ordered_at? hn hc) rfl
    · simp [leaves_leaf (by simpa using hb)]

theorem leavesAt_pairwise {tree : Json} (ht : tree.ordered = true) (ss : List Selector) :
    ((select ss tree).flatMap (leavesAt tree)).Pairwise Loc.Before := by
  apply pairwise_flatMap_append (select_pairwise ht ss)
  intro l _
  cases hc : tree.at? l with
  | none => simp
  | some c => exact leaves_pairwise (ordered_at? ht hc)

theorem childPath_eq (l : Loc) :
    l.toPath ++ "['children'][*]" = renderPath (l.map Step.selector ++ childSelectors) := by
  rw [renderPath_append]
  rfl

variable {jp : JsonPath} {db : VssDatabase}

theorem jsonQuery_toPath {tree c : Json} {l : Loc} (h : tree.at? l = some c) :
    jsonQuery jp tree l.toPath = .ok [c] := by
  rw [jsonQuery_eq_ok_iff, JsonPath.query_eq_singleton_iff]
  refine ⟨l, ?_, h⟩
  rw [Loc.toPath, JsonPath.matches?_renderPath, select_loc (by simp [h])]

/-- The paths that are expected, in the same order when that is the order of their texts. -/
def Enumerates (paths expected : List VSSPath) : Prop :=
  paths.Perm expected ∧
    (expected.Pairwise (fun a b => a.vsspath < b.vsspath) → paths = expected)

/-- Merging in an enumeration of what comes next continues an enumeration. -/
theorem Enumerates.merge {paths below expected rest result : List VSSPath}
    (hb : Enumerates below expected)
    (hr : Enumerates result (mergePaths paths below ++ rest)) :
    Enumerates result (paths ++ (expected ++ rest)) := by
  constructor
  · have hm : (mergePaths paths below).Perm (paths ++ below) := List.merge_perm_append _
    rw [← List.append_assoc]
    exact hr.1.trans ((hm.trans (hb.1.append_left paths)).append_right rest)
  · intro hsorted
    obtain ⟨-, hnext, hcross⟩ := List.pairwise_append.mp hsorted
    obtain rfl := hb.2 (List.pairwise_append.mp hnext).1
    have hm : mergePaths paths below = paths ++ below := by
      apply List.merge_of_le
      intro a b ha hb'
      have hab : ¬ b.vsspath < a.vsspath :=
        lt_asymm (hcross a ha b (List.mem_append_left rest hb'))
      rw [decide_eq_false hab]
      rfl
    rw [hm, List.append_assoc] at hr
    exact hr.2 hsorted

/-- The loop over matched locations, when the recursion enumerates what is below branches. -/
theorem collectLeafPaths_spec (recurse : VSSPath → Except Exn (List VSSPath)) (gen1 : Bool)
    (ls : List Loc) (hl : ∀ l ∈ ls, ∃ n, db.dataTree.at? l = some n ∧
      (typeReads "branch" n = true → ∃ below,
        recurse (.fromJSON (l.toPath ++ "['children'][*]") gen1) = .ok below ∧
        Enumerates below (pathsOf gen1 (leavesAt db.dataTree l)))) (paths : List VSSPath) :
    ∃ result, collectLeafPaths jp db recurse gen1 (ls.map Loc.toPath) paths = .ok result ∧
      Enumerates result (paths ++ pathsOf gen1 (ls.flatMap (leavesAt db.dataTree))) := by
  induction ls generalizing paths with
  | nil => exact ⟨paths, rfl, by simp [pathsOf, Enumerates]⟩
  | cons l ls ih =>
    have ht := fun p => ih (fun m hm => hl m (List.mem_cons_of_mem _ hm)) p
    obtain ⟨n, hn, hb⟩ := hl l (by simp)
    simp only [List.map_cons, collectLeafPaths, jsonQuery_toPath hn]
    by_cases hbr : typeReads "branch" n = true
    · obtain ⟨below, hr, hp⟩ := hb hbr
      obtain ⟨result, he, hall⟩ := ht (mergePaths paths below)
      refine ⟨result, by simp only [hbr, ↓reduceIte, hr, he], ?_⟩
      simp only [pathsOf, List.flatMap_cons, List.map_append] at hp hall ⊢
      exact hp.merge hall
    · obtain ⟨result, he, hall⟩ := ht (paths ++ [.fromJSON l.toPath gen1])
      refine ⟨result, by simp only [hbr, Bool.false_eq_true, ↓reduceIte, he], ?_⟩
      have hleaf : leavesAt db.dataTree l = [l] := by
        simp [leavesAt, hn, leaves_leaf (by simpa using hbr)]
      simpa [pathsOf, hleaf] using hall

theorem getLeafPathsWithin_succ (fuel : ℕ) {path : VSSPath} {ls : List Loc}
    (hm : jp.matches? db.dataTree path.jsonpath = .ok ls) :
    getLeafPathsWithin jp db (fuel + 1) path =
      collectLeafPaths jp db (getLeafPathsWithin jp db fuel) path.isGen1Origin
        (ls.map Loc.toPath) [] := by
  have hq : jp.queryPaths db.dataTree path.jsonpath = .ok (ls.map Loc.toPath) := by
    simp [JsonPath.queryPaths, hm, Except.map]
  simp only [getLeafPathsWithin, VSSPath.getJSONPath, hq]

/-- With fuel for the depth that is left, the recursion enumerates exactly the leaves. -/
theorem getLeafPathsWithin_spec (fuel : ℕ) (path : VSSPath) (ls : List Loc)
    (hm : jp.matches? db.dataTree path.jsonpath = .ok ls)
    (hf : ∀ l ∈ ls, db.dataTree.depth ≤ fuel + l.length) :
    ∃ result, getLeafPathsWithin jp db (fuel + 1) path = .ok result ∧
      Enumerates result (pathsOf path.isGen1Origin (ls.flatMap (leavesAt db.dataTree))) := by
  have hloc := JsonPath.matches?_located hm
  rw [getLeafPathsWithin_succ fuel hm]
  induction fuel generalizing path ls with
  | zero =>
    -- No fuel is left for a branch, and none is needed: it would be deeper than the tree.
    have hleaf : ∀ l ∈ ls, ∃ n, db.dataTree.at? l = some n ∧ ¬ typeReads "branch" n = true := by
      intro l hl
      obtain ⟨n, hn⟩ := Option.isSome_iff_exists.mp (hloc l hl)
      refine ⟨n, hn, fun hb => ?_⟩
      have := depth_branch_pos hb
      have := depth_at?_le hn
      have := hf l hl
      omega
    obtain ⟨result, he, hp⟩ := collectLeafPaths_spec (getLeafPathsWithin jp db 0)
      path.isGen1Origin ls (fun l hl => by
        obtain ⟨n, hn, hb⟩ := hleaf l hl
        exact ⟨n, hn, fun h => absurd h hb⟩) []
    exact ⟨result, he, by simpa using hp⟩
  | succ fuel ih =>
    have hbelow : ∀ l ∈ ls, ∃ n, db.dataTree.at? l = some n ∧
        (typeReads "branch" n = true → ∃ below, getLeafPathsWithin jp db (fuel + 1)
          (.fromJSON (l.toPath ++ "['children'][*]") path.isGen1Origin) = .ok below ∧
          Enumerates below (pathsOf path.isGen1Origin (leavesAt db.dataTree l))) := by
      intro l hl
      obtain ⟨n, hn⟩ := Option.isSome_iff_exists.mp (hloc l hl)
      refine ⟨n, hn, fun hb => ?_⟩
      have hc : jp.matches? db.dataTree (l.toPath ++ "['children'][*]") =
          .ok ((select childSelectors n).map (l ++ ·)) := by
        rw [childPath_eq, JsonPath.matches?_renderPath, select_loc_append hn]
      have hjson := VSSPath.fromJSON_jsonpath (l.toPath ++ "['children'][*]") path.isGen1Origin
      have hgen := VSSPath.fromJSON_gen1 (l.toPath ++ "['children'][*]") path.isGen1Origin
      generalize VSSPath.fromJSON (l.toPath ++ "['children'][*]") path.isGen1Origin = child
        at hjson hgen ⊢
      rw [← hjson] at hc
      have hd : ∀ m ∈ (select childSelectors n).map (l ++ ·),
          db.dataTree.depth ≤ fuel + m.length := by
        intro m hm
        obtain ⟨t, ht, rfl⟩ := List.mem_map.mp hm
        have := select_childSelectors_length ht
        have := hf l hl
        simp only [List.length_append]
        omega
      obtain ⟨below, hr, hperm⟩ := ih _ _ hc hd (JsonPath.matches?_located hc)
      rw [← getLeafPathsWithin_succ fuel hc] at hr
      rw [hgen] at hperm
      refine ⟨below, hr, ?_⟩
      rwa [leavesAt_branch hn hb]
    obtain ⟨result, he, hp⟩ := collectLeafPaths_spec (getLeafPathsWithin jp db (fuel + 1))
      path.isGen1Origin ls hbelow []
    exact ⟨result, he, by simpa using hp⟩

theorem getLeafPaths_enumerates {path : VSSPath} {ls : List Loc}
    (hm : jp.matches? db.dataTree path.jsonpath = .ok ls) :
    ∃ result, getLeafPaths jp db path = .ok result ∧
      Enumerates result (pathsOf path.isGen1Origin (ls.flatMap (leavesAt db.dataTree))) :=
  getLeafPathsWithin_spec _ path ls hm fun _ _ => by omega

/-- The enumeration always comes to an end, and gives each leaf at or below a matched node
once. -/
theorem getLeafPaths_spec {path : VSSPath} {ls : List Loc}
    (hm : jp.matches? db.dataTree path.jsonpath = .ok ls) :
    ∃ result, getLeafPaths jp db path = .ok result ∧
      result.Perm (pathsOf path.isGen1Origin (ls.flatMap (leavesAt db.dataTree))) := by
  obtain ⟨result, he, hall⟩ := getLeafPaths_enumerates hm
  exact ⟨result, he, hall.1⟩

/-- A malformed path has no leaves; every other path has its own. -/
theorem getLeafPaths_isOk (jp : JsonPath) (db : VssDatabase) (path : VSSPath) :
    ∃ result, getLeafPaths jp db path = .ok result := by
  cases hm : jp.matches? db.dataTree path.jsonpath with
  | ok ls =>
    obtain ⟨result, he, _⟩ := getLeafPaths_spec hm
    exact ⟨result, he⟩
  | error e =>
    refine ⟨[], ?_⟩
    simp [getLeafPaths, getLeafPathsWithin, VSSPath.getJSONPath, JsonPath.queryPaths, hm,
      Except.map]

end VssDatabase
