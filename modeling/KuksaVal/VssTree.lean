import KuksaVal.LeafPaths
import Mathlib.Data.Set.List

/-! Well-formed trees of signals: branches with children, and sensors, actuators and attributes
without. In such a tree every path of names and wildcards selects nodes. -/
namespace VssDatabase
open Json VSSPath

/-- A node and all nodes below it. -/
inductive VssNode : Json → Prop
  | leaf {ms : List (String × Json)} {t : String} (type : Members.get? "type" ms = some (.str t))
      (signal : t ∈ ["sensor", "actuator", "attribute"])
      (children : Members.get? "children" ms = none) : VssNode (.obj ms)
  | branch {ms cs : List (String × Json)} (type : Members.get? "type" ms = some (.str "branch"))
      (children : Members.get? "children" ms = some (.obj cs)) (names : ∀ m ∈ cs, NodeName m.1)
      (nodes : ∀ m ∈ cs, VssNode m.2) : VssNode (.obj ms)

/-- Nodes under their names: a whole tree, or the children of a branch. -/
def VssTree (j : Json) : Prop := ∃ ms, j = .obj ms ∧ ∀ m ∈ ms, NodeName m.1 ∧ VssNode m.2

theorem VssTree.node {j n : Json} (h : VssTree j) {k : String} (hk : j.get? k = some n) :
    NodeName k ∧ VssNode n := by
  obtain ⟨ms, rfl, hm⟩ := h
  exact hm (k, n) (Members.mem_of_get? hk)

theorem VssTree.step {j n : Json} (h : VssTree j) {s : Step} (hs : j.child? s = some n) :
    ∃ k, s = .key k ∧ NodeName k ∧ VssNode n := by
  have hn := h
  obtain ⟨ms, rfl, -⟩ := h
  cases s with
  | key k => exact ⟨k, rfl, hn.node hs⟩
  | index i => simp [child?] at hs

theorem VssNode.branch_iff {n : Json} (h : VssNode n) :
    typeReads "branch" n = true ↔ ∃ d, n.get? "children" = some d := by
  rw [typeReads_iff (by decide)]
  cases h with
  | @leaf ms t type signal children =>
    constructor
    · intro h
      obtain rfl : t = "branch" := by simpa using type.symm.trans h
      simp at signal
    · rintro ⟨d, hd⟩
      simp [get?, children] at hd
  | branch type children _ _ => exact ⟨fun _ => ⟨_, children⟩, fun _ => type⟩

theorem VssNode.children {n d : Json} (h : VssNode n) (hd : n.get? "children" = some d) :
    VssTree d := by
  cases h with
  | leaf type signal children => simp [get?, children] at hd
  | branch type children names nodes =>
    obtain rfl := Option.some.inj (children.symm.trans hd)
    exact ⟨_, rfl, fun m hm => ⟨names m hm, nodes m hm⟩⟩

theorem vssTree_singleton {n : String} {j : Json} (hn : NodeName n) (hj : VssNode j) :
    VssTree (.obj [(n, j)]) := by
  refine ⟨_, rfl, ?_⟩
  intro m hm
  obtain rfl := List.mem_singleton.mp hm
  exact ⟨hn, hj⟩

theorem VssTree.branch {j : Json} (h : VssTree j) :
    VssNode (.obj [("children", j), ("type", .str "branch")]) := by
  obtain ⟨ms, rfl, hm⟩ := h
  exact .branch rfl rfl (fun m h => (hm m h).1) fun m h => (hm m h).2

section Locations

/-- The way down from a node to one below it. -/
def belowLoc (names : List String) : Loc := names.flatMap fun n => [.key "children", .key n]

@[simp] theorem belowLoc_nil : belowLoc [] = [] := rfl

@[simp] theorem belowLoc_cons (n : String) (ns : List String) :
    belowLoc (n :: ns) = .key "children" :: .key n :: belowLoc ns := rfl

theorem nodeLoc_cons (n : String) (ns : List String) : nodeLoc (n :: ns) = .key n :: belowLoc ns := by
  induction ns generalizing n with
  | nil => rfl
  | cons m ns ih =>
    have hm := ih m
    simp only [nodeLoc, List.map_cons, List.intersperse_cons_cons] at hm ⊢
    rw [hm]
    rfl

theorem nodeLoc_append {ns : List String} (h : ns ≠ []) (ms : List String) :
    nodeLoc (ns ++ ms) = nodeLoc ns ++ belowLoc ms := by
  obtain ⟨n, ns, rfl⟩ := List.exists_cons_of_ne_nil h
  rw [List.cons_append, nodeLoc_cons, nodeLoc_cons]
  simp [belowLoc]

theorem belowLoc_injective : Function.Injective belowLoc := by
  intro ns ms h
  induction ns generalizing ms with
  | nil => cases ms <;> simp_all
  | cons n ns ih =>
    cases ms with
    | nil => simp at h
    | cons m ms =>
      obtain ⟨hn, h⟩ : n = m ∧ belowLoc ns = belowLoc ms := by simpa using h
      rw [hn, ih h]

theorem nodeLoc_injective : Function.Injective nodeLoc := by
  intro ns ms h
  cases ns with
  | nil =>
    cases ms with
    | nil => rfl
    | cons m ms =>
      rw [nodeLoc_cons] at h
      simp [nodeLoc] at h
  | cons n ns =>
    cases ms with
    | nil =>
      rw [nodeLoc_cons] at h
      simp [nodeLoc] at h
    | cons m ms =>
      rw [nodeLoc_cons, nodeLoc_cons] at h
      obtain ⟨hn, h⟩ : n = m ∧ belowLoc ns = belowLoc ms := by simpa using h
      rw [hn, belowLoc_injective h]

theorem VssNode.located {n node : Json} {names : List String} (h : VssNode n)
    (hn : n.at? (belowLoc names) = some node) : (∀ m ∈ names, NodeName m) ∧ VssNode node := by
  induction names generalizing n with
  | nil =>
    obtain rfl : n = node := by simpa using hn
    exact ⟨by simp, h⟩
  | cons m ms ih =>
    simp only [belowLoc_cons, at?_cons, child?_key] at hn
    obtain ⟨d, hd, hn⟩ := Option.bind_eq_some_iff.mp hn
    obtain ⟨c, hc, hn⟩ := Option.bind_eq_some_iff.mp hn
    obtain ⟨hm, hvc⟩ := (h.children hd).node hc
    obtain ⟨hms, hv⟩ := ih hvc hn
    exact ⟨List.forall_mem_cons.mpr ⟨hm, hms⟩, hv⟩

theorem VssTree.located {j node : Json} {names : List String} (h : VssTree j) (hne : names ≠ [])
    (hn : j.at? (nodeLoc names) = some node) : (∀ m ∈ names, NodeName m) ∧ VssNode node := by
  obtain ⟨m, ms, rfl⟩ := List.exists_cons_of_ne_nil hne
  rw [nodeLoc_cons, at?_cons, child?_key] at hn
  obtain ⟨c, hc, hn⟩ := Option.bind_eq_some_iff.mp hn
  obtain ⟨hm, hvc⟩ := h.node hc
  obtain ⟨hms, hv⟩ := hvc.located hn
  exact ⟨List.forall_mem_cons.mpr ⟨hm, hms⟩, hv⟩

/-- Selectors at the places of names, through the children between them, select nodes. -/
theorem VssTree.select {j : Json} (h : VssTree j) {ss : List Selector} (hne : ss ≠ []) {l : Loc}
    (hl : l ∈ Json.select (ss.intersperse (.name "children")) j) :
    ∃ names, names ≠ [] ∧ l = nodeLoc names := by
  induction ss generalizing j l with
  | nil => exact absurd rfl hne
  | cons s ss ih =>
    cases ss with
    | nil =>
      obtain ⟨t, -, c, hc, m, hm, rfl⟩ := mem_select_cons.mp hl
      obtain ⟨k, rfl, -⟩ := h.step hc
      obtain rfl : m = [] := by simpa using hm
      exact ⟨[k], by simp, rfl⟩
    | cons s' ss =>
      rw [List.intersperse_cons_cons] at hl
      obtain ⟨_, -, c, hc, _, hc', rfl⟩ := mem_select_cons.mp hl
      obtain ⟨k, rfl, -, hv⟩ := h.step hc
      obtain ⟨d, hd, m, hm, rfl⟩ := mem_select_name.mp hc'
      obtain ⟨names, hn, rfl⟩ := ih (hv.children hd) (by simp) hm
      exact ⟨k :: names, by simp, by
        obtain ⟨n, ns, rfl⟩ := List.exists_cons_of_ne_nil hn
        rw [nodeLoc_cons, nodeLoc_cons]
        rfl⟩

end Locations

section Leaves

theorem VssNode.mem_select_childSelectors {n : Json} (h : VssNode n) {t : Loc} :
    t ∈ Json.select childSelectors n ↔ ∃ d k c, n.get? "children" = some d ∧ d.get? k = some c ∧
      t = belowLoc [k] := by
  constructor
  · intro ht
    obtain ⟨d, hd, _, hd', rfl⟩ := mem_select_name.mp ht
    obtain ⟨_, -, c, hc, m, hm, rfl⟩ := mem_select_cons.mp hd'
    obtain ⟨k, rfl, -⟩ := (h.children hd).step hc
    obtain rfl : m = [] := by simpa using hm
    exact ⟨d, k, c, hd, by rwa [child?_key] at hc, rfl⟩
  · rintro ⟨d, k, c, hd, hc, rfl⟩
    obtain ⟨cs, rfl, -⟩ := h.children hd
    refine mem_select_name.mpr ⟨.obj cs, hd, [.key k], ?_, rfl⟩
    refine mem_select_cons.mpr ⟨.key k, ?_, c, by rwa [child?_key], [], by simp, rfl⟩
    exact List.mem_map.mpr ⟨(k, c), Members.mem_of_get? hc, rfl⟩

/-- The leaves of a node are the nodes at or below it that are no branches. -/
theorem VssNode.mem_leaves_iff {n : Json} (h : VssNode n) {t : Loc} :
    t ∈ leaves n ↔ ∃ names node, t = belowLoc names ∧ n.at? (belowLoc names) = some node ∧
      typeReads "branch" node = false := by
  have hv := h
  induction h generalizing t with
  | @leaf ms _ type signal children =>
    have hb : typeReads "branch" (.obj ms) = false := by
      rw [Bool.eq_false_iff, Ne, hv.branch_iff]
      simp [get?, children]
    rw [leaves_leaf hb, List.mem_singleton]
    constructor
    · rintro rfl
      exact ⟨[], .obj ms, rfl, rfl, hb⟩
    · rintro ⟨names, node, rfl, hn, -⟩
      cases names with
      | nil => rfl
      | cons m ns => simp [at?_cons, child?, children] at hn
  | @branch ms cs type children names nodes ih =>
    have hb : typeReads "branch" (.obj ms) = true := hv.branch_iff.mpr ⟨_, children⟩
    have hat (k : String) : (Json.obj ms).at? (belowLoc [k]) = Members.get? k cs := by
      simp [at?_cons, child?, children]
    have hget : (Json.obj ms).get? "children" = some (.obj cs) := children
    rw [leaves_branch hb, List.mem_flatMap]
    constructor
    · rintro ⟨s, hs, ht⟩
      obtain ⟨d, k, c, hd, hc, rfl⟩ := hv.mem_select_childSelectors.mp hs
      obtain rfl : Json.obj cs = d := Option.some.inj (hget.symm.trans hd)
      have hc' : Members.get? k cs = some c := hc
      rw [hat, hc', Option.elim_some] at ht
      obtain ⟨u, hu, rfl⟩ := List.mem_map.mp ht
      have hm := Members.mem_of_get? hc'
      obtain ⟨more, node, rfl, hn, hnb⟩ := (ih _ hm (nodes _ hm)).mp hu
      refine ⟨k :: more, node, rfl, ?_, hnb⟩
      show (Json.obj ms).at? (belowLoc [k] ++ belowLoc more) = some node
      rw [at?_append, hat, hc']
      exact hn
    · rintro ⟨names', node, rfl, hn, hnb⟩
      cases names' with
      | nil =>
        obtain rfl : Json.obj ms = node := by simpa using hn
        simp [hb] at hnb
      | cons k more =>
        replace hn : (Json.obj ms).at? (belowLoc [k] ++ belowLoc more) = some node := hn
        rw [at?_append, hat] at hn
        obtain ⟨c, hc, hn⟩ := Option.bind_eq_some_iff.mp hn
        have hm := Members.mem_of_get? hc
        refine ⟨belowLoc [k], hv.mem_select_childSelectors.mpr ⟨_, k, c, hget, hc, rfl⟩, ?_⟩
        rw [hat, hc, Option.elim_some]
        exact List.mem_map.mpr ⟨_, (ih _ hm (nodes _ hm)).mpr ⟨more, node, rfl, hn, hnb⟩, rfl⟩

/-- A node at or below one of the nodes that are matched, and no branch. -/
def LeafOf (tree : Json) (ls : List Loc) (names : List String) : Prop :=
  ∃ above, nodeLoc above ∈ ls ∧ above <+: names ∧
    ∃ node, tree.at? (nodeLoc names) = some node ∧ node.get? "type" ≠ some (.str "branch")

/-- The leaves at or below what a plain path matches are the nodes there that are no branches,
each once. -/
theorem VssTree.leavesAt {tree : Json} (h : VssTree tree) (ho : tree.ordered = true)
    {path : String} (ls : List Loc)
    (hl : ls = Json.select (selectors (VSSPath.gen1togen2 path)) tree) :
    ∃ leaves : List (List String), ls.flatMap (VssDatabase.leavesAt tree) = leaves.map nodeLoc ∧
      leaves.Nodup ∧ ∀ names, names ∈ leaves ↔ LeafOf tree ls names := by
  have hmatch : ∀ l ∈ ls, ∃ names, names ≠ [] ∧ l = nodeLoc names := by
    intro l hm
    refine h.select (List.map_eq_nil_iff.not.mpr (List.splitOn_ne_nil '/' _)) (hl ▸ hm)
  have hmem (t : Loc) : t ∈ ls.flatMap (VssDatabase.leavesAt tree) ↔
      ∃ names, t = nodeLoc names ∧ LeafOf tree ls names := by
    rw [List.mem_flatMap]
    constructor
    · rintro ⟨l, hm, ht⟩
      obtain ⟨above, hne, rfl⟩ := hmatch l hm
      obtain ⟨u, hu, rfl⟩ := List.mem_map.mp ht
      cases hn : tree.at? (nodeLoc above) with
      | none => simp [hn] at hu
      | some n =>
        rw [hn, Option.elim_some, (h.located hne hn).2.mem_leaves_iff] at hu
        obtain ⟨more, node, rfl, hnode, hb⟩ := hu
        refine ⟨above ++ more, (nodeLoc_append hne more).symm, above, hm,
          List.prefix_append above more, node, ?_, ?_⟩
        · rw [nodeLoc_append hne, at?_append, hn]
          exact hnode
        · intro hb'
          simp [(typeReads_iff (by decide) node).mpr hb'] at hb
    · rintro ⟨names, rfl, above, hm, ⟨more, rfl⟩, node, hnode, hb⟩
      obtain ⟨names', hne, he⟩ := hmatch _ hm
      obtain rfl := nodeLoc_injective he
      rw [nodeLoc_append hne, at?_append] at hnode
      obtain ⟨n, hn, hnode⟩ := Option.bind_eq_some_iff.mp hnode
      have hb' : typeReads "branch" node = false := by
        rw [Bool.eq_false_iff]
        exact fun hr => hb ((typeReads_iff (by decide) node).mp hr)
      refine ⟨nodeLoc above, hm, List.mem_map.mpr ⟨belowLoc more, ?_, ?_⟩⟩
      · rw [hn, Option.elim_some, (h.located hne hn).2.mem_leaves_iff]
        exact ⟨more, node, rfl, hnode, hb'⟩
      · rw [nodeLoc_append hne]
  have hnodup : (ls.flatMap (VssDatabase.leavesAt tree)).Nodup :=
    nodup_of_before (hl ▸ leavesAt_pairwise ho _)
  obtain ⟨leaves, hleaves⟩ : ∃ leaves : List (List String),
      ls.flatMap (VssDatabase.leavesAt tree) = leaves.map nodeLoc := by
    have hall : ∀ t ∈ ls.flatMap (VssDatabase.leavesAt tree), ∃ names, nodeLoc names = t := by
      intro t ht
      obtain ⟨names, rfl, -⟩ := (hmem t).mp ht
      exact ⟨names, rfl⟩
    have hrange : ls.flatMap (VssDatabase.leavesAt tree) ∈ Set.range (List.map nodeLoc) := by
      rw [Set.range_list_map]
      exact hall
    obtain ⟨leaves, he⟩ := hrange
    exact ⟨leaves, he.symm⟩
  refine ⟨leaves, hleaves, List.Nodup.of_map nodeLoc (hleaves ▸ hnodup), fun names => ?_⟩
  have hm := hmem (nodeLoc names)
  rw [hleaves, List.mem_map_of_injective nodeLoc_injective] at hm
  rw [hm]
  constructor
  · rintro ⟨names', he, hleaf⟩
    rwa [nodeLoc_injective he]
  · intro hleaf
    exact ⟨names, rfl, hleaf⟩

end Leaves

end VssDatabase
