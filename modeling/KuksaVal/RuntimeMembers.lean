import KuksaVal.Resolution

/-! Trees without some of the members of their nodes. Reading, replacing and selecting nodes
commute with the deletion as long as it keeps the children. -/
namespace VssDatabase
open Json

section Prune
variable (del : String → Bool)

/- Nodes are the members of the root, and those of the children of a node. -/
mutual
def pruneNode : Json → Json
  | .obj ms => .obj (pruneMembers ms)
  | j => j

def pruneMembers : List (String × Json) → List (String × Json)
  | [] => []
  | (k, v) :: ms =>
      if del k then pruneMembers ms
      else (k, if k = "children" then prune v else v) :: pruneMembers ms

/-- Delete members from every node of a tree. -/
def prune : Json → Json
  | .obj ms => .obj (pruneNodes ms)
  | .arr xs => .arr (pruneElems xs)
  | j => j

def pruneNodes : List (String × Json) → List (String × Json)
  | [] => []
  | (k, v) :: ms => (k, pruneNode v) :: pruneNodes ms

def pruneElems : List Json → List Json
  | [] => []
  | x :: xs => pruneNode x :: pruneElems xs
end

end Prune

/-- The members that a set changes. -/
def isRuntime (k : String) : Bool :=
  k = "value" || k = "targetValue" || "ts_s-".toList.isPrefixOf k.toList ||
    "ts_ns-".toList.isPrefixOf k.toList

theorem children_not_runtime : isRuntime "children" = false := by decide

/-- The metadata of a tree: the runtime members are deleted from every node. -/
def metadataOf : Json → Json := prune isRuntime

variable {del : String → Bool}

theorem pruneNodes_eq (ms : List (String × Json)) :
    pruneNodes del ms = ms.map fun m => (m.1, pruneNode del m.2) := by
  induction ms with
  | nil => rfl
  | cons m ms ih =>
    obtain ⟨k, v⟩ := m
    simp [pruneNodes, ih]

theorem pruneElems_eq (xs : List Json) : pruneElems del xs = xs.map (pruneNode del) := by
  induction xs with
  | nil => rfl
  | cons x xs ih => simp [pruneElems, ih]

theorem get?_pruneNodes (k : String) (ms : List (String × Json)) :
    Members.get? k (pruneNodes del ms) = (Members.get? k ms).map (pruneNode del) := by
  rw [pruneNodes_eq, Members.get?_map fun _ => pruneNode del]

theorem get?_pruneMembers (k : String) (ms : List (String × Json)) :
    Members.get? k (pruneMembers del ms) = if del k then none
      else if k = "children" then (Members.get? k ms).map (prune del) else Members.get? k ms := by
  induction ms with
  | nil => simp [pruneMembers]
  | cons m ms ih =>
    obtain ⟨l, v⟩ := m
    unfold pruneMembers
    by_cases hl : del l = true
    · rw [if_pos hl, ih]
      by_cases hk : k = l
      · simp [hk, hl]
      · simp [Members.get?_cons, hk]
    · rw [if_neg hl, Members.get?_cons, Members.get?_cons, ih]
      by_cases hk : k = l
      · subst hk
        rw [if_pos rfl, if_pos rfl, if_neg hl]
        split_ifs <;> rfl
      · simp [hk]

section Children

/-- The children of a tree are nodes. -/
theorem child?_prune (j : Json) (s : Step) :
    (prune del j).child? s = (j.child? s).map (pruneNode del) := by
  cases j with
  | obj ms =>
    cases s with
    | key k => exact get?_pruneNodes k ms
    | index i => rfl
  | arr xs =>
    cases s with
    | key k => rfl
    | index i => simp [prune, pruneElems_eq, child?]
  | _ => cases s <;> rfl

theorem setChild_prune (j : Json) (s : Step) (v : Json) :
    prune del (j.setChild s v) = (prune del j).setChild s (pruneNode del v) := by
  cases j with
  | obj ms =>
    cases s with
    | key k =>
      show Json.obj _ = Json.obj _
      congr 1
      induction ms with
      | nil => rfl
      | cons m ms ih =>
        obtain ⟨l, w⟩ := m
        by_cases hk : k = l
        · simp [Members.put, pruneNodes, hk]
        · simp [Members.put, pruneNodes, hk, ih]
    | index i => rfl
  | arr xs =>
    cases s with
    | key k => rfl
    | index i => simp [prune, pruneElems_eq, setChild, List.map_set]
  | _ => cases s <;> rfl

/-- The children of a node are a tree. -/
theorem children_pruneNode (hdel : del "children" = false) (j : Json) :
    (pruneNode del j).child? (.key "children") =
      (j.child? (.key "children")).map (prune del) := by
  cases j with
  | obj ms =>
    show Members.get? "children" (pruneMembers del ms) = (Members.get? "children" ms).map (prune del)
    rw [get?_pruneMembers]
    simp [hdel]
  | _ => rfl

theorem setChildren_pruneNode (hdel : del "children" = false) (j v : Json) :
    pruneNode del (j.setChild (.key "children") v) =
      (pruneNode del j).setChild (.key "children") (prune del v) := by
  cases j with
  | obj ms =>
    show Json.obj _ = Json.obj _
    congr 1
    induction ms with
    | nil => rfl
    | cons m ms ih =>
      obtain ⟨l, w⟩ := m
      by_cases hk : "children" = l
      · subst hk
        simp [Members.put, pruneMembers, hdel]
      · by_cases hr : del l = true
        · simpa [Members.put, pruneMembers, hk, hr] using ih
        · simp [Members.put, pruneMembers, hk, hr, ih]
  | _ => rfl

end Children

section Locations

/-- Locations of nodes: names, and the children between them. -/
inductive IsNodeLoc : Loc → Prop
  | top (s : Step) : IsNodeLoc [s]
  | down (s : Step) {l : Loc} (h : IsNodeLoc l) : IsNodeLoc (s :: .key "children" :: l)

theorem at?_prune (hdel : del "children" = false) {l : Loc} (h : IsNodeLoc l) (j : Json) :
    (prune del j).at? l = (j.at? l).map (pruneNode del) := by
  induction h generalizing j with
  | top s =>
    simp only [at?_cons, child?_prune]
    cases j.child? s <;> rfl
  | down s _ ih =>
    simp only [at?_cons, child?_prune]
    cases j.child? s with
    | none => rfl
    | some n =>
      simp only [Option.map_some, Option.bind_some, children_pruneNode hdel]
      cases n.child? (.key "children") with
      | none => rfl
      | some d => exact ih d

theorem setAt_prune (hdel : del "children" = false) {l : Loc} (h : IsNodeLoc l) (j v : Json) :
    prune del (j.setAt l v) = (prune del j).setAt l (pruneNode del v) := by
  induction h generalizing j with
  | top s =>
    cases hs : j.child? s with
    | none =>
      have hm : (prune del j).child? s = none := by simp [child?_prune, hs]
      rw [setAt_cons_none hs, setAt_cons_none hm]
    | some n =>
      have hm : (prune del j).child? s = some (pruneNode del n) := by simp [child?_prune, hs]
      rw [setAt_cons_some hs, setAt_cons_some hm]
      exact setChild_prune j s v
  | down s _ ih =>
    cases hs : j.child? s with
    | none =>
      have hm : (prune del j).child? s = none := by simp [child?_prune, hs]
      rw [setAt_cons_none hs, setAt_cons_none hm]
    | some n =>
      have hm : (prune del j).child? s = some (pruneNode del n) := by simp [child?_prune, hs]
      rw [setAt_cons_some hs, setAt_cons_some hm, setChild_prune]
      congr 1
      cases hc : n.child? (.key "children") with
      | none =>
        have hcm : (pruneNode del n).child? (.key "children") = none := by
          simp [children_pruneNode hdel, hc]
        rw [setAt_cons_none hc, setAt_cons_none hcm]
      | some d =>
        have hcm : (pruneNode del n).child? (.key "children") = some (prune del d) := by
          simp [children_pruneNode hdel, hc]
        rw [setAt_cons_some hc, setAt_cons_some hcm, setChildren_pruneNode hdel, ih]

theorem steps_prune (s : Selector) (j : Json) : s.steps (prune del j) = s.steps j := by
  cases s with
  | name k => simp [Selector.steps, child?_prune]
  | index i => simp [Selector.steps, child?_prune]
  | wildcard =>
    cases j with
    | obj ms => simp [Selector.steps, prune, pruneNodes_eq]
    | arr xs => simp [Selector.steps, prune, pruneElems_eq]
    | _ => rfl

theorem steps_children_pruneNode (hdel : del "children" = false) (j : Json) :
    (Selector.name "children").steps (pruneNode del j) = (Selector.name "children").steps j := by
  simp [Selector.steps, children_pruneNode hdel]

theorem select_children_pruneNode (hdel : del "children" = false) {ss : List Selector}
    (h : ∀ j, select ss (prune del j) = select ss j) (n : Json) :
    select (.name "children" :: ss) (pruneNode del n) = select (.name "children" :: ss) n := by
  unfold select
  rw [steps_children_pruneNode hdel]
  apply List.flatMap_congr
  intro t ht
  obtain rfl : t = .key "children" := by
    simp only [Selector.steps] at ht
    split_ifs at ht
    · exact List.mem_singleton.mp ht
    · simp at ht
  rw [children_pruneNode hdel]
  cases n.child? (.key "children") with
  | none => rfl
  | some d => simp [h d]

/-- What the path of a request selects depends on the metadata alone. -/
theorem select_prune (hdel : del "children" = false) (ss : List Selector) (j : Json) :
    select (ss.intersperse (.name "children")) (prune del j) =
      select (ss.intersperse (.name "children")) j := by
  induction ss generalizing j with
  | nil => rfl
  | cons s ss ih =>
    cases ss with
    | nil =>
      simp only [List.intersperse_singleton, select, steps_prune, child?_prune]
      congr 1
      funext t
      cases j.child? t <;> rfl
    | cons s' ss =>
      rw [List.intersperse_cons_cons]
      rw [select, select, steps_prune]
      congr 1
      funext t
      rw [child?_prune]
      cases j.child? t with
      | none => rfl
      | some n => simp [select_children_pruneNode hdel ih n]

theorem isNodeLoc_of_select {ss : List Selector} (hne : ss ≠ []) {j : Json} {l : Loc}
    (hl : l ∈ select (ss.intersperse (.name "children")) j) : IsNodeLoc l := by
  induction ss generalizing j l with
  | nil => exact absurd rfl hne
  | cons s ss ih =>
    cases ss with
    | nil =>
      obtain ⟨t, -, c, -, m, hm, rfl⟩ := mem_select_cons.mp hl
      obtain rfl : m = [] := by simpa using hm
      exact .top t
    | cons s' ss =>
      rw [List.intersperse_cons_cons] at hl
      obtain ⟨t, -, c, -, _, hc, rfl⟩ := mem_select_cons.mp hl
      obtain ⟨u, hu, d, -, m, hm, rfl⟩ := mem_select_cons.mp hc
      obtain rfl : u = .key "children" := by
        simp only [Selector.steps] at hu
        split_ifs at hu
        · exact List.mem_singleton.mp hu
        · simp at hu
      exact .down t (ih (by simp) hm)

variable {tree tree' node v : Json} {l : Loc}

/-- Replacing a node by one with the same members left keeps what is left of the tree. -/
theorem prune_setAt_eq (hdel : del "children" = false) (hl : IsNodeLoc l)
    (hn : tree.at? l = some node) (hv : pruneNode del v = pruneNode del node) :
    prune del (tree.setAt l v) = prune del tree := by
  rw [setAt_prune hdel hl, hv, ← setAt_prune hdel hl, setAt_self hn]

/-- Of the node at a location the same is left, where the same is left of the trees. -/
theorem map_at?_of_prune (hdel : del "children" = false) (hl : IsNodeLoc l)
    (h : prune del tree' = prune del tree) :
    (tree'.at? l).map (pruneNode del) = (tree.at? l).map (pruneNode del) := by
  rw [← at?_prune hdel hl, ← at?_prune hdel hl, h]

/-- A plain path matches the same, where the same is left of the trees. -/
theorem matches?_of_prune {jp : JsonPath} {path : String} (hdel : del "children" = false)
    (hp : VSSPath.Plain path) (h : prune del tree' = prune del tree) :
    jp.matches? tree' (VSSPath.fromVSS path).jsonpath =
      jp.matches? tree (VSSPath.fromVSS path).jsonpath := by
  rw [VSSPath.fromVSS_plain hp, JsonPath.matches?_renderPath, JsonPath.matches?_renderPath]
  unfold VSSPath.selectors
  rw [← select_prune hdel, h, select_prune hdel]

end Locations

end VssDatabase
