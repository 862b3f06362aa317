import KuksaVal.Overlays
import KuksaVal.VssTree

/-! What an overlay without values leaves of the values that are there: every node stays, and only
the defaults that it declares for attributes come in. -/
namespace VssDatabase
open Json VSSPath

/-- Nodes at and below a place, the members of each meeting a condition. -/
inductive NodesWith (p : List (String × Json) → Prop) : Json → Prop
  | leaf {ms : List (String × Json)} (here : p ms) (children : Members.get? "children" ms = none) :
      NodesWith p (.obj ms)
  | branch {ms cs : List (String × Json)} (here : p ms)
      (children : Members.get? "children" ms = some (.obj cs))
      (nodes : ∀ m ∈ cs, NodesWith p m.2) : NodesWith p (.obj ms)

theorem NodesWith.mono {p q : List (String × Json) → Prop} (hpq : ∀ ms, p ms → q ms) {n : Json}
    (h : NodesWith p n) : NodesWith q n := by
  induction h with
  | leaf here children => exact .leaf (hpq _ here) children
  | branch here children _ ih => exact .branch (hpq _ here) children ih

/-- No member that a set changes, and no children below an attribute. -/
def OverlayNode (ms : List (String × Json)) : Prop :=
  (∀ m ∈ ms, isRuntime m.1 = false) ∧
    (isAttribute (.obj ms) = true → Members.get? "children" ms = none)

/-- A well-formed overlay without values. -/
def OverlayTree (j : Json) : Prop := ∃ ms, j = .obj ms ∧ ∀ m ∈ ms, NodesWith OverlayNode m.2

section Filled

theorem childrenInPlace_of_leaf {ms : List (String × Json)}
    (h : Members.get? "children" ms = none) : childrenInPlace ms = (.ok (), ms) := by
  induction ms with
  | nil => rfl
  | cons m ms ih =>
    obtain ⟨k, v⟩ := m
    rw [Members.get?_cons] at h
    split_ifs at h with hk
    simp [childrenInPlace, Ne.symm hk, ih h]

theorem childrenInPlace_of_branch {ms : List (String × Json)} {v : Json}
    (h : Members.get? "children" ms = some v) :
    childrenInPlace ms =
      ((containerInPlace v).1, Members.put "children" (containerInPlace v).2 ms) := by
  induction ms with
  | nil => simp at h
  | cons m ms ih =>
    obtain ⟨k, w⟩ := m
    rw [Members.get?_cons] at h
    split_ifs at h with hk
    · subst hk
      obtain rfl := Option.some.inj h
      simp [childrenInPlace, Members.put]
    · simp [childrenInPlace, Members.put, Ne.symm hk, hk, ih h]

theorem subtreesInPlace_of_ok {cs : List (String × Json)}
    (h : ∀ m ∈ cs, (defaultsInPlace m.2).1 = .ok ()) :
    subtreesInPlace cs = (.ok (), cs.map fun m => (m.1, (defaultsInPlace m.2).2)) := by
  induction cs with
  | nil => rfl
  | cons m cs ih =>
    obtain ⟨k, v⟩ := m
    obtain ⟨hv, hcs⟩ := List.forall_mem_cons.mp h
    simp [subtreesInPlace, hv, ih hcs]

/-- The value that filling in defaults gives to a node. -/
def filledValue (node : Json) : Option Json :=
  if isAttribute node then (node.get? "default").map fun d => .str d.asString else none

/-- The members of a node, but its children, after its default is filled in. -/
theorem get?_defaultsInPlace {k : String} (hk : k ≠ "children") (ms : List (String × Json)) :
    (defaultsInPlace (.obj ms)).2.get? k =
      if k = "value" then (filledValue (.obj ms)).or (Members.get? k ms)
      else Members.get? k ms := by
  have hc := get?_childrenInPlace hk ms
  unfold defaultsInPlace filledValue
  by_cases ha : isAttribute (.obj ms) = true
  · cases hd : Members.get? "default" ms with
    | some d => by_cases hv : k = "value" <;> simp [ha, hd, get?, hv]
    | none => by_cases hv : k = "value" <;> simp_all [get?]
  · by_cases hv : k = "value" <;> simp_all [get?]

variable {n : Json}

/-- Nodes whose attributes have no children are left as nodes, each filled in by itself. -/
theorem NodesWith.filled (h : NodesWith OverlayNode n) :
    (defaultsInPlace n).1 = .ok () ∧ NodesWith (fun _ => True) (defaultsInPlace n).2 ∧
      ∀ names, (defaultsInPlace n).2.at? (belowLoc names) =
        (n.at? (belowLoc names)).map fun m => (defaultsInPlace m).2 := by
  induction h with
  | @leaf ms here children =>
    have hc := childrenInPlace_of_leaf children
    obtain ⟨ms', hr, hms'⟩ : ∃ ms', defaultsInPlace (.obj ms) = (.ok (), .obj ms') ∧
        Members.get? "children" ms' = none := by
      unfold defaultsInPlace
      split_ifs
      · cases Members.get? "default" ms with
        | none => exact ⟨ms, by simp [hc], children⟩
        | some d => exact ⟨_, rfl, by simp [children]⟩
      · exact ⟨ms, by simp [hc], children⟩
    refine ⟨by rw [hr], by rw [hr]; exact .leaf trivial hms', ?_⟩
    intro names
    cases names with
    | nil => rfl
    | cons m names => simp [hr, at?_cons, child?, hms', children]
  | @branch ms cs here children nodes ih =>
    have hno : isAttribute (.obj ms) = false := by
      rw [Bool.eq_false_iff]
      intro ha
      simp [here.2 ha] at children
    have hsub := subtreesInPlace_of_ok fun m hm => (ih m hm).1
    have hr : defaultsInPlace (.obj ms) = (.ok (), .obj (Members.put "children"
        (.obj (cs.map fun m => (m.1, (defaultsInPlace m.2).2))) ms)) := by
      simp [defaultsInPlace, hno, childrenInPlace_of_branch children, containerInPlace, hsub]
    have hput : Members.get? "children" (Members.put "children"
        (.obj (cs.map fun m => (m.1, (defaultsInPlace m.2).2))) ms) =
          some (.obj (cs.map fun m => (m.1, (defaultsInPlace m.2).2))) := by
      simp [children]
    refine ⟨by rw [hr], ?_, ?_⟩
    · rw [hr]
      refine .branch trivial hput ?_
      intro m hm
      obtain ⟨m', hm', rfl⟩ := List.mem_map.mp hm
      exact (ih m' hm').2.1
    · intro names
      cases names with
      | nil => rfl
      | cons m names =>
        have hget := Members.get?_map (fun _ v => (defaultsInPlace v).2) m cs
        rw [hr]
        simp only [belowLoc_cons, at?_cons, child?_key, get?, hput, children, Option.bind_some, hget]
        cases hm : Members.get? m cs with
        | none => rfl
        | some c => exact (ih _ (Members.mem_of_get? hm)).2.2 names

end Filled

section Overlaid

/-- What an overlay makes of what is at a place in the tree and in the overlay. -/
def overlay? : Option Json → Option Json → Option Json
  | some v, some w => some (overlay v w)
  | some v, none => some v
  | none, w => w

theorem overlay?_none (a : Option Json) : overlay? a none = a := by cases a <;> rfl

theorem overlay?_str (a : Option Json) (s : String) :
    overlay? a (some (.str s)) = some (.str s) := by
  cases a with
  | none => rfl
  | some v => cases v <;> rfl

theorem get?_overlay_obj (s : Json) {ns : List (String × Json)} (hn : (ns.map Prod.fst).Nodup)
    (k : String) : (overlay s (.obj ns)).get? k = overlay? (s.get? k) (Members.get? k ns) := by
  cases s with
  | obj ms =>
    rw [get?_overlay k ms hn]
    show _ = overlay? (Members.get? k ms) (Members.get? k ns)
    cases Members.get? k ms <;> cases Members.get? k ns <;> rfl
  | _ => rfl

/-- Further down it is the same, where it is so below what both have. -/
theorem overlay?_bind {a b : Option Json} {f : Json → Option Json}
    (h : ∀ v w, b = some w → f (overlay v w) = overlay? (f v) (f w)) :
    (overlay? a b).bind f = overlay? (a.bind f) (b.bind f) := by
  cases b with
  | none => rw [overlay?_none, Option.bind_none, overlay?_none]
  | some w =>
    cases a with
    | none => rfl
    | some v => exact h v w rfl

variable {s o : Json}

/-- Below the nodes of an overlay. -/
theorem NodesWith.at?_overlay {p : List (String × Json) → Prop} (h : NodesWith p o)
    (ho : o.ordered = true) (s : Json) (names : List String) :
    (overlay s o).at? (belowLoc names) =
      overlay? (s.at? (belowLoc names)) (o.at? (belowLoc names)) := by
  induction names generalizing s o with
  | nil => rfl
  | cons n names ih =>
    simp only [belowLoc_cons, at?_cons, child?_key]
    cases h with
    | @leaf ms here children =>
      have hn := ((ordered_obj ms).mp ho).1.nodup
      rw [get?_overlay_obj s hn, children, overlay?_none]
      simp [get?, children, overlay?_none]
    | @branch ms cs here children nodes =>
      have hn := ((ordered_obj ms).mp ho).1.nodup
      have hcs : (Json.obj cs).ordered = true := ordered_get? (j := .obj ms) ho children
      rw [get?_overlay_obj s hn, children]
      show _ = overlay? _ ((Members.get? "children" ms).bind _)
      rw [children]
      refine overlay?_bind fun v w hw => ?_
      obtain rfl := Option.some.inj hw
      rw [get?_overlay_obj v ((ordered_obj cs).mp hcs).1.nodup]
      refine overlay?_bind fun u c hc => ?_
      exact ih (nodes _ (Members.mem_of_get? hc)) (ordered_get? (j := .obj cs) hcs hc) u

/-- At and below the names of a whole tree. -/
theorem at?_overlay_tree {p : List (String × Json) → Prop} {ms : List (String × Json)}
    (h : ∀ m ∈ ms, NodesWith p m.2) (ho : (Json.obj ms).ordered = true) (s : Json) (n : String)
    (names : List String) : (overlay s (.obj ms)).at? (nodeLoc (n :: names)) =
      overlay? (s.at? (nodeLoc (n :: names))) ((Json.obj ms).at? (nodeLoc (n :: names))) := by
  simp only [nodeLoc_cons, at?_cons, child?_key]
  rw [get?_overlay_obj s ((ordered_obj ms).mp ho).1.nodup]
  refine overlay?_bind fun v w hw => ?_
  exact (h _ (Members.mem_of_get? hw)).at?_overlay (ordered_get? (j := .obj ms) ho hw) v names

theorem NodesWith.at? {p : List (String × Json) → Prop} (h : NodesWith p o)
    {names : List String} {node : Json} (hn : o.at? (belowLoc names) = some node) :
    NodesWith p node := by
  induction names generalizing o with
  | nil =>
    obtain rfl : o = node := by simpa using hn
    exact h
  | cons m names ih =>
    simp only [belowLoc_cons, at?_cons, child?_key] at hn
    obtain ⟨d, hd, hdn⟩ := Option.bind_eq_some_iff.mp hn
    obtain ⟨c, hc, hcn⟩ := Option.bind_eq_some_iff.mp hdn
    cases h with
    | leaf here children => simp [get?, children] at hd
    | @branch ms cs here children nodes =>
      obtain rfl := Option.some.inj (children.symm.trans hd)
      exact ih (nodes _ (Members.mem_of_get? hc)) hcn

theorem NodesWith.obj {p : List (String × Json) → Prop} (h : NodesWith p o) :
    ∃ ms, o = .obj ms := by
  cases h with
  | leaf _ _ => exact ⟨_, rfl⟩
  | branch _ _ _ => exact ⟨_, rfl⟩

theorem nodesWith_at?_tree {p : List (String × Json) → Prop} {ms : List (String × Json)}
    (h : ∀ m ∈ ms, NodesWith p m.2) {n : String} {names : List String} {node : Json}
    (hat : (Json.obj ms).at? (nodeLoc (n :: names)) = some node) : NodesWith p node := by
  rw [nodeLoc_cons, at?_cons, child?_key] at hat
  obtain ⟨c, hc, hcn⟩ := Option.bind_eq_some_iff.mp hat
  exact (h _ (Members.mem_of_get? hc)).at? hcn

/-- A member of the node under some names. -/
def memberAt (tree : Json) (names : List String) (k : String) : Option Json :=
  (tree.at? (nodeLoc names)).bind fun node => node.get? k

/-- An overlay acts on the members of nodes. -/
theorem memberAt_overlay {p : List (String × Json) → Prop} {ms : List (String × Json)}
    (h : ∀ m ∈ ms, NodesWith p m.2) (ho : (Json.obj ms).ordered = true) (s : Json) (n : String)
    (names : List String) (k : String) : memberAt (overlay s (.obj ms)) (n :: names) k =
      overlay? (memberAt s (n :: names) k) (memberAt (.obj ms) (n :: names) k) := by
  unfold memberAt
  rw [at?_overlay_tree h ho]
  refine overlay?_bind fun v w hw => ?_
  obtain ⟨ns, rfl⟩ := (nodesWith_at?_tree h hw).obj
  exact get?_overlay_obj v ((ordered_obj ns).mp (ordered_at? ho hw)).1.nodup k

end Overlaid

section Values

/-- An overlay declares an attribute with a default, at the vehicle or below. -/
def DeclaresAttribute (jsonTree : Json) (names : List String) (d : Json) : Prop :=
  names.head? = some "Vehicle" ∧ ∃ node, jsonTree.at? (nodeLoc names) = some node ∧
    isAttribute node = true ∧ node.get? "default" = some d

/-- Every node stays, with its target value and all its timestamps, and the values that change
are those of attributes that are declared with a default of another text. -/
structure PreservesValues (before after jsonTree : Json) : Prop where
  nodes : ∀ names, names ≠ [] → (before.at? (nodeLoc names)).any isObject = true →
    (after.at? (nodeLoc names)).any isObject = true
  runtime : ∀ names, names ≠ [] → ∀ k, isRuntime k = true → k ≠ "value" →
    memberAt after names k = memberAt before names k
  changed : ∀ names, names ≠ [] → (memberAt after names "value" ≠ memberAt before names "value" ↔
    ∃ d, DeclaresAttribute jsonTree names d ∧
      memberAt before names "value" ≠ some (.str d.asString))
  default : ∀ names d, DeclaresAttribute jsonTree names d →
    memberAt after names "value" = some (.str d.asString)

/-- The value that an overlay declares for a node. -/
def declaredValue (jsonTree : Json) (names : List String) : Option Json :=
  if names.head? = some "Vehicle" then (jsonTree.at? (nodeLoc names)).bind filledValue else none

theorem declaredValue_eq_some_iff {jsonTree v : Json} {names : List String} :
    declaredValue jsonTree names = some v ↔
      ∃ d, DeclaresAttribute jsonTree names d ∧ v = .str d.asString := by
  unfold declaredValue DeclaresAttribute filledValue
  constructor
  · intro h
    split_ifs at h with hn
    obtain ⟨node, hat, hv⟩ := Option.bind_eq_some_iff.mp h
    split_ifs at hv with ha
    obtain ⟨d, hd, rfl⟩ := Option.map_eq_some_iff.mp hv
    exact ⟨d, ⟨hn, node, hat, ha, hd⟩, rfl⟩
  · rintro ⟨d, ⟨hn, node, hat, ha, hd⟩, rfl⟩
    simp [hn, hat, ha, hd]

theorem overlay?_declaredValue (a : Option Json) (jsonTree : Json) (names : List String) :
    overlay? a (declaredValue jsonTree names) = (declaredValue jsonTree names).or a := by
  cases hd : declaredValue jsonTree names with
  | none => rw [overlay?_none, Option.none_or]
  | some v =>
    obtain ⟨d, -, rfl⟩ := declaredValue_eq_some_iff.mp hd
    rw [overlay?_str, Option.some_or]

/-- A declared value is another one where its text is. -/
theorem or_declaredValue_ne_iff (a : Option Json) (jsonTree : Json) (names : List String) :
    (declaredValue jsonTree names).or a ≠ a ↔
      ∃ d, DeclaresAttribute jsonTree names d ∧ a ≠ some (.str d.asString) := by
  cases hd : declaredValue jsonTree names with
  | none =>
    have hno (d : Json) : ¬ DeclaresAttribute jsonTree names d := fun h => by
      have hs := declaredValue_eq_some_iff.mpr ⟨d, h, rfl⟩
      simp [hs] at hd
    simp [hno]
  | some v =>
    obtain ⟨d, hdecl, rfl⟩ := declaredValue_eq_some_iff.mp hd
    rw [Option.some_or]
    constructor
    · intro hne
      exact ⟨d, hdecl, Ne.symm hne⟩
    · rintro ⟨d', hdecl', hne⟩
      have hs := declaredValue_eq_some_iff.mpr ⟨d', hdecl', rfl⟩
      rw [hd] at hs
      rw [← hs] at hne
      exact Ne.symm hne

theorem NodesWith.get?_runtime {node : Json} (h : NodesWith OverlayNode node) {k : String}
    (hk : isRuntime k = true) : node.get? k = none := by
  have hnone {ms : List (String × Json)} (hms : OverlayNode ms) : Members.get? k ms = none := by
    cases hv : Members.get? k ms with
    | none => rfl
    | some v => simp [hms.1 _ (Members.mem_of_get? hv)] at hk
  cases h with
  | leaf here children => exact hnone here
  | branch here children nodes => exact hnone here

theorem NodesWith.get?_filled {node : Json} (h : NodesWith OverlayNode node) {k : String}
    (hk : isRuntime k = true) :
    (defaultsInPlace node).2.get? k = if k = "value" then filledValue node else none := by
  have hne : k ≠ "children" := by
    rintro rfl
    exact absurd hk (by decide)
  have hnone := h.get?_runtime hk
  cases h with
  | leaf here children =>
    rw [get?_defaultsInPlace hne, show Members.get? k _ = none from hnone, Option.or_none]
  | branch here children nodes =>
    rw [get?_defaultsInPlace hne, show Members.get? k _ = none from hnone, Option.or_none]

variable {channel : KuksaChannel} {ms : List (String × Json)}

theorem memberAt_runtime (h : ∀ m ∈ ms, NodesWith OverlayNode m.2) {k : String}
    (hk : isRuntime k = true) (n : String) (names : List String) :
    memberAt (.obj ms) (n :: names) k = none := by
  unfold memberAt
  rw [nodeLoc_cons, at?_cons, child?_key]
  cases hn : (Json.obj ms).get? n with
  | none => rfl
  | some c =>
    rw [Option.bind_some]
    cases hat : c.at? (belowLoc names) with
    | none => rfl
    | some node => exact ((h _ (Members.mem_of_get? hn)).at? hat).get?_runtime hk

/-- What a well-formed overlay without values is after its defaults are filled in. -/
theorem jsonTreeAfter_overlayTree (ha : channel.authorizedToModifyTree = true)
    (h : ∀ m ∈ ms, NodesWith OverlayNode m.2) :
    updateOutcome channel (.obj ms) = .ok () ∧ ∃ ms', jsonTreeAfter channel (.obj ms) = .obj ms' ∧
      (∀ m ∈ ms', NodesWith (fun _ => True) m.2) ∧
      ∀ n names k, isRuntime k = true → memberAt (.obj ms') (n :: names) k =
        if k = "value" then declaredValue (.obj ms) (n :: names) else none := by
  have hplain (m : String × Json) (hm : m ∈ ms) : NodesWith (fun _ => True) m.2 :=
    (h m hm).mono fun _ _ => trivial
  unfold updateOutcome jsonTreeAfter
  simp only [ha, Bool.true_eq_false, ↓reduceIte]
  cases hv : (Json.obj ms).get? "Vehicle" with
  | none =>
    refine ⟨rfl, ms, rfl, hplain, ?_⟩
    intro n names k hk
    rw [memberAt_runtime h hk]
    unfold declaredValue
    split_ifs with hval hn
    · obtain rfl := Option.some.inj hn
      rw [nodeLoc_cons, at?_cons, child?_key, hv]
      rfl
    · rfl
    · rfl
  | some vehicle =>
    obtain ⟨hok, hnodes, hat⟩ := (h _ (Members.mem_of_get? hv)).filled
    refine ⟨hok, _, rfl, ?_, ?_⟩
    · intro m hm
      rcases Members.mem_assign hm with rfl | hm
      · exact hnodes
      · exact hplain m hm
    · intro n names k hk
      by_cases hn : n = "Vehicle"
      · subst hn
        unfold memberAt declaredValue
        rw [nodeLoc_cons, at?_cons, at?_cons, child?_key, child?_key, hv]
        simp only [get?, Members.get?_assign, ↓reduceIte, Option.bind_some, hat, List.head?_cons]
        cases hnode : vehicle.at? (belowLoc names) with
        | none => simp
        | some node =>
          exact ((h _ (Members.mem_of_get? hv)).at? hnode).get?_filled hk
      · have hsame : memberAt (.obj (Members.assign "Vehicle" (defaultsInPlace vehicle).2 ms))
            (n :: names) k = memberAt (.obj ms) (n :: names) k := by
          unfold memberAt
          rw [nodeLoc_cons, at?_cons, at?_cons]
          simp [child?, hn]
        rw [hsame, memberAt_runtime h hk]
        simp [declaredValue, hn]

/-- A well-formed overlay without values is applied, and preserves the values that are there but
for the defaults that it declares. -/
theorem updateJsonTree_preservesValues (metaTree dataTree jsonTree : Document)
    (channel : KuksaChannel) (ha : channel.authorizedToModifyTree = true)
    (ho : OverlayTree jsonTree.1) :
    (updateJsonTree ⟨dataTree.1, metaTree.1⟩ channel jsonTree.1).1 = .ok () ∧
      PreservesValues dataTree.1
        (updateJsonTree ⟨dataTree.1, metaTree.1⟩ channel jsonTree.1).2.dataTree jsonTree.1 := by
  obtain ⟨jsonTree, hordered⟩ := jsonTree
  obtain ⟨ms, rfl, hms⟩ := ho
  obtain ⟨hok, ms', hafter, hnodes, hmember⟩ := jsonTreeAfter_overlayTree ha hms
  have ho' := ordered_jsonTreeAfter hordered hok
  rw [updateJsonTree_eq metaTree.2 dataTree.2, hok]
  rw [hafter] at ho'
  simp only [hafter, ↓reduceIte, true_and]
  have hat := at?_overlay_tree hnodes ho' dataTree.1
  have hover (n : String) (names : List String) (k : String) (hk : isRuntime k = true) :
      memberAt (overlay dataTree.1 (.obj ms')) (n :: names) k =
        overlay? (memberAt dataTree.1 (n :: names) k)
          (if k = "value" then declaredValue (.obj ms) (n :: names) else none) := by
    rw [memberAt_overlay hnodes ho', hmember n names k hk]
  have hvalue (n : String) (names : List String) :
      memberAt (overlay dataTree.1 (.obj ms')) (n :: names) "value" =
        (declaredValue (.obj ms) (n :: names)).or (memberAt dataTree.1 (n :: names) "value") := by
    rw [hover n names "value" (by decide), if_pos rfl, overlay?_declaredValue]
  constructor
  · intro names hne hbefore
    obtain ⟨n, names, rfl⟩ := List.exists_cons_of_ne_nil hne
    obtain ⟨v, hv, hobj⟩ := (Option.any_eq_true _ _).mp hbefore
    rw [hat n names, hv]
    cases hw : (Json.obj ms').at? (nodeLoc (n :: names)) with
    | none => simpa [overlay?] using hobj
    | some w =>
      obtain ⟨ns, rfl⟩ := (nodesWith_at?_tree hnodes hw).obj
      cases v <;> rfl
  · intro names hne k hk hval
    obtain ⟨n, names, rfl⟩ := List.exists_cons_of_ne_nil hne
    rw [hover n names k hk, if_neg hval, overlay?_none]
  · intro names hne
    obtain ⟨n, names, rfl⟩ := List.exists_cons_of_ne_nil hne
    rw [hvalue n names]
    exact or_declaredValue_ne_iff _ _ _
  · intro names d hdecl
    obtain ⟨n, names, rfl⟩ : ∃ n ns, names = n :: ns := by
      cases names with
      | nil => simp [DeclaresAttribute] at hdecl
      | cons n ns => exact ⟨n, ns, rfl⟩
    rw [hvalue n names, declaredValue_eq_some_iff.mpr ⟨d, hdecl, rfl⟩, Option.some_or]

end Values

section Five

def fiveNode (value : List (String × Json)) : Json :=
  .obj [("Vehicle", .obj [("children", .obj [("Id", .obj ([("datatype", .str "uint16"),
    ("default", .int 5), ("type", .str "attribute")] ++ value))])])]

/-- An attribute whose default is five, as it is read from a file. -/
def fiveTrees : VssDatabase := ⟨fiveNode [("value", .str "5")], fiveNode []⟩

def fiveFile : Document := ⟨fiveNode [], by decide +kernel⟩

def fiveData : Document := ⟨fiveNode [("value", .str "5")], by decide +kernel⟩

/-- An overlay that declares the attribute with a default. -/
def idDefault (d : Json) : Json :=
  .obj [("Vehicle", .obj [("children", .obj [("Id", .obj [("default", d),
    ("type", .str "attribute")])])])]

theorem idDefault_overlayTree (d : Json) : OverlayTree (idDefault d) := by
  have hdefault : isRuntime "default" = false := by decide
  have htype : isRuntime "type" = false := by decide
  have hid : NodesWith OverlayNode (.obj [("default", d), ("type", .str "attribute")]) :=
    .leaf ⟨by simp [hdefault, htype], fun _ => rfl⟩ rfl
  refine ⟨_, rfl, ?_⟩
  intro m hm
  obtain rfl := List.mem_singleton.mp hm
  have hchildren : Members.get? "children" [("children", Json.obj [("Id", .obj [("default", d),
      ("type", .str "attribute")])])] = some (.obj [("Id", _)]) := rfl
  refine .branch ⟨by simp [children_not_runtime], fun h => ?_⟩ hchildren ?_
  · simp [isAttribute, isType, get?, Members.get?_cons] at h
  · intro m hm
    obtain rfl := List.mem_singleton.mp hm
    exact hid

def idEditor : KuksaChannel := { modifyTree := true }

/-- The trees after an overlay that declares a default. -/
def fiveRun (d : Json) : VssDatabase := (fiveTrees.updateJsonTree idEditor (idDefault d)).2

theorem preservesValues_six : PreservesValues fiveTrees.dataTree (fiveRun (.int 6)).dataTree
    (idDefault (.int 6)) :=
  (updateJsonTree_preservesValues fiveFile fiveData ⟨idDefault (.int 6), by decide +kernel⟩
    idEditor rfl (idDefault_overlayTree (.int 6))).2

/-- Five is not the text that is stored, and the value stays. -/
theorem default_of_same_text :
    (TreeOperation.system .selectors .decimal).Reachable TransitionSystem.Any fiveTrees ∧
      OverlayTree (idDefault (.int 5)) ∧
      ¬ ∀ names, names ≠ [] → (memberAt (fiveRun (.int 5)).dataTree names "value" ≠
          memberAt fiveTrees.dataTree names "value" ↔
        ∃ d, DeclaresAttribute (idDefault (.int 5)) names d ∧
          memberAt fiveTrees.dataTree names "value" ≠ some d) := by
  refine ⟨.init ⟨fiveFile, by decide +kernel⟩, idDefault_overlayTree (.int 5), ?_⟩
  intro hall
  have hsame : memberAt (fiveRun (.int 5)).dataTree ["Vehicle", "Id"] "value" =
      memberAt fiveTrees.dataTree ["Vehicle", "Id"] "value" := by
    decide +kernel
  refine (hall ["Vehicle", "Id"] (by simp)).mpr ⟨.int 5, ⟨rfl, _, rfl, ?_, rfl⟩, ?_⟩ hsame
  · decide +kernel
  · decide +kernel

end Five

end VssDatabase
