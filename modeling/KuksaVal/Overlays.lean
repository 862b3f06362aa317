import KuksaVal.Json.Merge
import KuksaVal.TreeAgreement

/-! Overlays of the two trees: how far they overwrite what is there, and that applying one
twice is applying it once. -/
namespace VssDatabase
open Json

section Overwriting

/-- The overlay is merged into the tree, and every array that it mentions is there. -/
structure Overwrites (sourceTree jsonTree : Json) : Prop where
  merged : updateTree sourceTree jsonTree = .ok (deepMerge sourceTree jsonTree)
  arrays : ∀ (tree : Json) (keys : List String) (ys : List Json),
    updateTree sourceTree jsonTree = .ok tree → jsonTree.at? (keys.map .key) = some (.arr ys) →
      tree.at? (keys.map .key) = some (.arr ys)

/-- An overlay overwrites the tree exactly where it covers the arrays of the tree. -/
theorem overwrites_iff (sourceTree jsonTree : Document) :
    Overwrites sourceTree.1 jsonTree.1 ↔ arraysCovered sourceTree.1 jsonTree.1 = true := by
  rw [← overlay_eq_deepMerge_iff sourceTree.2 jsonTree.2]
  have heq := updateTree_eq sourceTree.2 jsonTree.1
  constructor
  · intro h
    exact Except.ok.inj (heq.symm.trans h.merged)
  · intro h
    refine ⟨heq.trans (congrArg _ h), ?_⟩
    intro tree keys ys ht hat
    obtain rfl := Except.ok.inj (heq.symm.trans ht)
    rw [h]
    exact deepMerge_at? jsonTree.2 hat

/-- A signal that may read "a" or "b". -/
def allowedTree : Document := ⟨.obj [("allowed", .arr [.str "a", .str "b"])], by decide +kernel⟩

def allowedOverlay : Document := ⟨.obj [("allowed", .arr [.str "c"])], by decide +kernel⟩

/-- The second of two allowed values stays beside the only one of the overlay. -/
theorem allowed_not_overwritten :
    updateTree allowedTree.1 allowedOverlay.1 =
        .ok (.obj [("allowed", .arr [.str "c", .str "b"])]) ∧
      ¬ Overwrites allowedTree.1 allowedOverlay.1 := by
  have hb : updateTree allowedTree.1 allowedOverlay.1 =
      .ok (.obj [("allowed", .arr [.str "c", .str "b"])]) := by
    decide +kernel
  refine ⟨hb, ?_⟩
  intro h
  have hc := h.arrays _ ["allowed"] [.str "c"] hb rfl
  exact absurd hc (by decide +kernel)

end Overwriting

section InPlace

/- Defaults are filled in in place; what was done before an exception stays. -/
mutual
def defaultsInPlace : Json → Except Exn Unit × Json
  | .obj ms =>
      if isAttribute (.obj ms) then
        match Members.get? "default" ms with
        | some d => (.ok (), .obj (Members.assign "value" (.str d.asString) ms))
        | none => ((childrenInPlace ms).1, .obj (childrenInPlace ms).2)
      else ((childrenInPlace ms).1, .obj (childrenInPlace ms).2)
  | j => (.ok (), j)

def childrenInPlace : List (String × Json) → Except Exn Unit × List (String × Json)
  | [] => (.ok (), [])
  | (k, v) :: ms =>
      if k = "children" then ((containerInPlace v).1, (k, (containerInPlace v).2) :: ms)
      else ((childrenInPlace ms).1, (k, v) :: (childrenInPlace ms).2)

def containerInPlace : Json → Except Exn Unit × Json
  | .obj ms => ((subtreesInPlace ms).1, .obj (subtreesInPlace ms).2)
  | j => (.error ⟨.domainError, "Not an object"⟩, j)

def subtreesInPlace : List (String × Json) → Except Exn Unit × List (String × Json)
  | [] => (.ok (), [])
  | (k, v) :: ms =>
      match (defaultsInPlace v).1 with
      | .error e => (.error e, (k, (defaultsInPlace v).2) :: ms)
      | .ok () => ((subtreesInPlace ms).1, (k, (defaultsInPlace v).2) :: (subtreesInPlace ms).2)
end

/-- The result of a function that works in place. -/
def resultOf {α : Type*} (r : Except Exn Unit × α) : Except Exn α := r.1.map fun _ => r.2

mutual
theorem applyDefaultValues_eq : (j : Json) → applyDefaultValues j = resultOf (defaultsInPlace j)
  | .obj ms => by
    have hc : (applyToChildren ms).map Json.obj =
        resultOf ((childrenInPlace ms).1, Json.obj (childrenInPlace ms).2) := by
      rw [applyToChildren_eq ms]
      unfold resultOf
      cases (childrenInPlace ms).1 <;> rfl
    unfold applyDefaultValues defaultsInPlace
    split_ifs
    · cases Members.get? "default" ms with
      | none => exact hc
      | some d => rfl
    · exact hc
  | .null | .bool _ | .int _ | .double _ | .str _ | .arr _ => rfl

theorem applyToChildren_eq : (ms : List (String × Json)) →
    applyToChildren ms = resultOf (childrenInPlace ms)
  | [] => rfl
  | (k, v) :: ms => by
    unfold applyToChildren childrenInPlace
    split_ifs
    · rw [applyToContainer_eq v]
      unfold resultOf
      cases (containerInPlace v).1 <;> rfl
    · rw [applyToChildren_eq ms]
      unfold resultOf
      cases (childrenInPlace ms).1 <;> rfl

theorem applyToContainer_eq : (j : Json) → applyToContainer j = resultOf (containerInPlace j)
  | .obj ms => by
    unfold applyToContainer containerInPlace
    rw [applyToSubtrees_eq ms]
    unfold resultOf
    cases (subtreesInPlace ms).1 <;> rfl
  | .null | .bool _ | .int _ | .double _ | .str _ | .arr _ => rfl

theorem applyToSubtrees_eq : (ms : List (String × Json)) →
    applyToSubtrees ms = resultOf (subtreesInPlace ms)
  | [] => rfl
  | (k, v) :: ms => by
    unfold applyToSubtrees subtreesInPlace
    rw [applyDefaultValues_eq v, applyToSubtrees_eq ms]
    unfold resultOf
    cases (defaultsInPlace v).1 with
    | error e => rfl
    | ok _ => cases (subtreesInPlace ms).1 <;> rfl
end

theorem get?_childrenInPlace {k : String} (hk : k ≠ "children") (ms : List (String × Json)) :
    Members.get? k (childrenInPlace ms).2 = Members.get? k ms := by
  induction ms with
  | nil => rfl
  | cons m ms ih =>
    obtain ⟨l, v⟩ := m
    unfold childrenInPlace
    split_ifs with hl
    · subst hl
      simp [Members.get?_cons, hk]
    · simp [Members.get?_cons, ih]

theorem isAttribute_congr {ms ns : List (String × Json)}
    (h : Members.get? "type" ms = Members.get? "type" ns) :
    isAttribute (.obj ms) = isAttribute (.obj ns) := by
  rw [Bool.eq_iff_iff, isAttribute, isAttribute, isType_iff, isType_iff]
  simp only [get?, h]

/- Filling in defaults once more does the same again. -/
mutual
theorem defaultsInPlace_twice : (j : Json) → defaultsInPlace (defaultsInPlace j).2 = defaultsInPlace j
  | .obj ms => by
    have hattr : isAttribute (.obj (childrenInPlace ms).2) = isAttribute (.obj ms) :=
      isAttribute_congr (get?_childrenInPlace (by decide) ms)
    have hdefault : Members.get? "default" (childrenInPlace ms).2 = Members.get? "default" ms :=
      get?_childrenInPlace (by decide) ms
    have hc := childrenInPlace_twice ms
    by_cases ha : isAttribute (.obj ms) = true
    · cases hd : Members.get? "default" ms with
      | some d =>
        have hv : isAttribute (.obj (Members.assign "value" (.str d.asString) ms)) = true :=
          (isAttribute_congr (by simp)).trans ha
        simp [defaultsInPlace, ha, hd, hv, Members.assign_assign]
      | none => simp [defaultsInPlace, ha, hd, hattr, hdefault, hc]
    · simp [defaultsInPlace, ha, hattr, hc]
  | .null | .bool _ | .int _ | .double _ | .str _ | .arr _ => rfl

theorem childrenInPlace_twice : (ms : List (String × Json)) →
    childrenInPlace (childrenInPlace ms).2 = childrenInPlace ms
  | [] => rfl
  | (k, v) :: ms => by
    by_cases hk : k = "children"
    · simp [childrenInPlace, hk, containerInPlace_twice v]
    · simp [childrenInPlace, hk, childrenInPlace_twice ms]

theorem containerInPlace_twice : (j : Json) →
    containerInPlace (containerInPlace j).2 = containerInPlace j
  | .obj ms => by simp [containerInPlace, subtreesInPlace_twice ms]
  | .null | .bool _ | .int _ | .double _ | .str _ | .arr _ => rfl

theorem subtreesInPlace_twice : (ms : List (String × Json)) →
    subtreesInPlace (subtreesInPlace ms).2 = subtreesInPlace ms
  | [] => rfl
  | (k, v) :: ms => by
    have hv := defaultsInPlace_twice v
    cases hr : (defaultsInPlace v).1 with
    | error e => simp [subtreesInPlace, hr, hv]
    | ok _ => simp [subtreesInPlace, hr, hv, subtreesInPlace_twice ms]
end

/-- The argument after a call that updates the trees with it. -/
def jsonTreeAfter (channel : KuksaChannel) (jsonTree : Json) : Json :=
  if channel.authorizedToModifyTree = false then jsonTree
  else match jsonTree.get? "Vehicle" with
    | some vehicle => jsonTree.insertOrAssign "Vehicle" (defaultsInPlace vehicle).2
    | none => jsonTree

/-- Whether the call gets as far as the trees. -/
def updateOutcome (channel : KuksaChannel) (jsonTree : Json) : Except Exn Unit :=
  if channel.authorizedToModifyTree = false then
    .error (.noPermissionException "do not have write access for updating json tree or is invalid")
  else match jsonTree.get? "Vehicle" with
    | some vehicle => (defaultsInPlace vehicle).1
    | none => .ok ()

variable {db : VssDatabase} {channel : KuksaChannel} {jsonTree : Json}

/-- A call that gets as far overlays both trees with the argument that it leaves. -/
theorem updateJsonTree_eq (hm : db.metaTree.ordered = true) (hd : db.dataTree.ordered = true) :
    db.updateJsonTree channel jsonTree = (updateOutcome channel jsonTree,
      if updateOutcome channel jsonTree = .ok () then
        ⟨overlay db.dataTree (jsonTreeAfter channel jsonTree),
          overlay db.metaTree (jsonTreeAfter channel jsonTree)⟩
      else db) := by
  unfold updateJsonTree jsonTreeAfter updateOutcome
  by_cases ha : channel.authorizedToModifyTree = false
  · simp [ha]
  · simp only [if_neg ha]
    cases hv : jsonTree.get? "Vehicle" with
    | none => simp only [updateTree_eq hm, updateTree_eq hd, ↓reduceIte]
    | some vehicle =>
      simp only [applyDefaultValues_eq, resultOf]
      cases hr : (defaultsInPlace vehicle).1 with
      | error e => simp [Except.map]
      | ok _ => simp only [Except.map, updateTree_eq hm, updateTree_eq hd, ↓reduceIte]

theorem ordered_jsonTreeAfter (ho : jsonTree.ordered = true)
    (h : updateOutcome channel jsonTree = .ok ()) :
    (jsonTreeAfter channel jsonTree).ordered = true := by
  unfold updateOutcome at h
  unfold jsonTreeAfter
  split_ifs at h ⊢ with ha
  cases hv : jsonTree.get? "Vehicle" with
  | none => exact ho
  | some vehicle =>
    simp only [hv] at h
    have happ : applyDefaultValues vehicle = .ok (defaultsInPlace vehicle).2 := by
      rw [applyDefaultValues_eq, resultOf, h]
      rfl
    have hordered := (applyDefaultValues_metadata _ _ happ).2 (ordered_get? ho hv)
    exact ordered_insertOrAssign ho hordered

theorem insertOrAssign_insertOrAssign (j : Json) (k : String) (v w : Json) :
    (j.insertOrAssign k v).insertOrAssign k w = j.insertOrAssign k w := by
  cases j with
  | obj ms => simp [insertOrAssign, Members.assign_assign]
  | _ => rfl

/-- A call with the argument that a call leaves ends alike and leaves the same. -/
theorem jsonTreeAfter_twice (channel : KuksaChannel) (jsonTree : Json) :
    updateOutcome channel (jsonTreeAfter channel jsonTree) = updateOutcome channel jsonTree ∧
      jsonTreeAfter channel (jsonTreeAfter channel jsonTree) = jsonTreeAfter channel jsonTree := by
  unfold updateOutcome jsonTreeAfter
  split_ifs with ha
  · exact ⟨rfl, rfl⟩
  · cases hv : jsonTree.get? "Vehicle" with
    | none => simp [hv]
    | some vehicle =>
      have hget := get?_insertOrAssign "Vehicle" "Vehicle" (defaultsInPlace vehicle).2
        (isObject_of_get? hv)
      rw [if_pos rfl] at hget
      simp only [hget, defaultsInPlace_twice vehicle, insertOrAssign_insertOrAssign, and_self]

end InPlace

/-- Updating both trees with an overlay twice is updating them once: the call ends alike, the
trees are the same, and so is the overlay with its defaults filled in. -/
theorem updateJsonTree_twice (metaTree dataTree jsonTree : Document) (channel : KuksaChannel) :
    VssDatabase.updateJsonTree (updateJsonTree ⟨dataTree.1, metaTree.1⟩ channel jsonTree.1).2
        channel (jsonTreeAfter channel jsonTree.1) =
      updateJsonTree ⟨dataTree.1, metaTree.1⟩ channel jsonTree.1 ∧
      jsonTreeAfter channel (jsonTreeAfter channel jsonTree.1) =
        jsonTreeAfter channel jsonTree.1 := by
  obtain ⟨houtcome, hafter⟩ := jsonTreeAfter_twice channel jsonTree.1
  refine ⟨?_, hafter⟩
  have honce : updateJsonTree ⟨dataTree.1, metaTree.1⟩ channel jsonTree.1 = _ :=
    updateJsonTree_eq metaTree.2 dataTree.2
  cases hr : updateOutcome channel jsonTree.1 with
  | error e =>
    simp only [hr, reduceCtorEq, ↓reduceIte] at honce
    rw [honce, updateJsonTree_eq metaTree.2 dataTree.2, houtcome, hr]
    simp
  | ok _ =>
    simp only [hr, ↓reduceIte] at honce
    have ho := ordered_jsonTreeAfter jsonTree.2 hr
    rw [honce, updateJsonTree_eq (ordered_overlay metaTree.2 ho) (ordered_overlay dataTree.2 ho),
      houtcome, hr, hafter]
    simp only [overlay_overlay dataTree.2 ho, overlay_overlay metaTree.2 ho, ↓reduceIte]

end VssDatabase
