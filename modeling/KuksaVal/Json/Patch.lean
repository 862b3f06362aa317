import KuksaVal.Json.Location

/-! Patches between values: the differences of two values as operations, applying them, and
what is left of the target when nothing is removed. -/
namespace Json

/-- An operation names the container it changes and the step in it, or the value it
replaces. -/
inductive PatchOp where
  | add (parent : Loc) (step : Step) (value : Json)
  | remove (parent : Loc) (step : Step)
  | replace (path : Loc) (value : Json)
  deriving DecidableEq, Repr

def PatchOp.isRemove : PatchOp → Bool
  | .remove _ _ => true
  | _ => false

/-- The same operation, seen from one step further out. -/
def PatchOp.under (s : Step) : PatchOp → PatchOp
  | .add p t v => .add (s :: p) t v
  | .remove p t => .remove (s :: p) t
  | .replace p v => .replace (s :: p) v

@[simp] theorem PatchOp.isRemove_under (s : Step) (op : PatchOp) :
    (op.under s).isRemove = op.isRemove := by
  cases op <;> rfl

/- Equal parts give nothing. Arrays are compared index by index, the surplus of the source
removed from the end and the surplus of the target added. -/
mutual
def fromDiff : Json → Json → List PatchOp
  | .arr xs, .arr ys => if xs = ys then [] else diffElems 0 xs ys
  | .obj ms, .obj ns =>
      if ms = ns then []
      else diffMembers ns ms ++
        (ns.filter fun n => (Members.get? n.1 ms).isNone).map fun n => .add [] (.key n.1) n.2
  | s, t => if s = t then [] else [.replace [] t]

def diffElems (i : ℕ) : List Json → List Json → List PatchOp
  | x :: xs, y :: ys => (fromDiff x y).map (.under (.index i)) ++ diffElems (i + 1) xs ys
  | [], ys => ys.zipIdx i |>.map fun y => .add [] (.index y.2) y.1
  | _ :: xs, [] => (List.range (xs.length + 1)).reverse.map fun k => .remove [] (.index (i + k))

def diffMembers (target : List (String × Json)) : List (String × Json) → List PatchOp
  | [] => []
  | (k, v) :: ms =>
      (match Members.get? k target with
        | some w => (fromDiff v w).map (.under (.key k))
        | none => [.remove [] (.key k)]) ++ diffMembers target ms
end

def addChild : Json → Step → Json → Option Json
  | .obj ms, .key k, v => some (.obj (Members.assign k v ms))
  | .arr xs, .index i, v => if i ≤ xs.length then some (.arr (xs.insertIdx i v)) else none
  | _, _, _ => none

def removeChild : Json → Step → Option Json
  | .obj ms, .key k => if (Members.get? k ms).isSome then some (.obj (Members.erase k ms)) else none
  | .arr xs, .index i => if i < xs.length then some (.arr (xs.eraseIdx i)) else none
  | _, _ => none

def applyOp (d : Json) : PatchOp → Option Json
  | .add p s v => (d.at? p).bind fun c => (c.addChild s v).map (d.setAt p)
  | .remove p s => (d.at? p).bind fun c => (c.removeChild s).map (d.setAt p)
  | .replace p v => (d.at? p).map fun _ => d.setAt p v

/-- All operations in order, or none of them. -/
def applyPatch (d : Json) (ops : List PatchOp) : Option Json := ops.foldlM applyOp d

/- What the operations other than removals make of the source: members and elements of the
source stay, those of the target come in, and where both have one the target's wins. -/
mutual
def overlay : Json → Json → Json
  | .arr xs, .arr ys => .arr (overlayElems xs ys)
  | .obj ms, .obj ns => .obj ((ns.filter fun n => (Members.get? n.1 ms).isNone).foldl
      (fun d n => Members.assign n.1 n.2 d) (overlayMembers ns ms))
  | _, t => t

def overlayElems : List Json → List Json → List Json
  | x :: xs, y :: ys => overlay x y :: overlayElems xs ys
  | [], ys => ys
  | xs, [] => xs

def overlayMembers (target : List (String × Json)) :
    List (String × Json) → List (String × Json)
  | [] => []
  | (k, v) :: ms =>
      (k, match Members.get? k target with
        | some w => overlay v w
        | none => v) :: overlayMembers target ms
end

theorem applyOp_under {d c : Json} {s : Step} (h : d.child? s = some c) (op : PatchOp) :
    d.applyOp (op.under s) = (c.applyOp op).map (d.setChild s) := by
  cases op with
  | add p t v =>
    simp only [PatchOp.under, applyOp, at?_cons, h, Option.bind_some]
    cases hp : c.at? p with
    | none => rfl
    | some e => cases he : e.addChild t v <;> simp [he, setAt_cons_some h]
  | remove p t =>
    simp only [PatchOp.under, applyOp, at?_cons, h, Option.bind_some]
    cases hp : c.at? p with
    | none => rfl
    | some e => cases he : e.removeChild t <;> simp [he, setAt_cons_some h]
  | replace p v =>
    simp only [PatchOp.under, applyOp, at?_cons, h, Option.bind_some]
    cases hp : c.at? p <;> simp [setAt_cons_some h]

theorem setChild_setChild (d : Json) (s : Step) (v w : Json) :
    (d.setChild s v).setChild s w = d.setChild s w := by
  cases d with
  | obj ms => cases s <;> simp [setChild, Members.put_put]
  | arr xs => cases s <;> simp [setChild]
  | _ => cases s <;> rfl

/-- A patch of a child acts on the child alone. -/
theorem applyPatch_under {d c : Json} {s : Step} (h : d.child? s = some c)
    (ops : List PatchOp) :
    d.applyPatch (ops.map (.under s)) = (c.applyPatch ops).map (d.setChild s) := by
  induction ops generalizing d c with
  | nil => simp [applyPatch, setChild_self h]
  | cons op ops ih =>
    simp only [applyPatch, List.map_cons, List.foldlM_cons, applyOp_under h]
    cases ho : c.applyOp op with
    | none => rfl
    | some e =>
      have hc : (d.setChild s e).child? s = some e := by simp [child?_setChild, h]
      have hi := ih hc
      simp only [applyPatch] at hi
      simp only [Option.map_some, Option.bind_eq_bind, Option.bind_some]
      rw [hi]
      congr 1
      funext w
      exact setChild_setChild d s e w

theorem applyPatch_append (d : Json) (ops ops' : List PatchOp) :
    d.applyPatch (ops ++ ops') = (d.applyPatch ops).bind fun e => e.applyPatch ops' := by
  simp [applyPatch, List.foldlM_append]

/-- The operations that are kept. -/
def keepOps (ops : List PatchOp) : List PatchOp := ops.filter fun op => !op.isRemove

@[simp] theorem keepOps_append (ops ops' : List PatchOp) :
    keepOps (ops ++ ops') = keepOps ops ++ keepOps ops' := List.filter_append ..

@[simp] theorem keepOps_under (s : Step) (ops : List PatchOp) :
    keepOps (ops.map (.under s)) = (keepOps ops).map (.under s) := by
  simp [keepOps, List.filter_map, Function.comp_def]

theorem keepOps_map_keep {α : Type*} {f : α → PatchOp} (h : ∀ a, (f a).isRemove = false)
    (l : List α) : keepOps (l.map f) = l.map f := by
  unfold keepOps
  rw [List.filter_eq_self]
  intro op ho
  obtain ⟨a, _, rfl⟩ := List.mem_map.mp ho
  simp [h a]

theorem keepOps_map_remove {α : Type*} {f : α → PatchOp} (h : ∀ a, (f a).isRemove = true)
    (l : List α) : keepOps (l.map f) = [] := by
  unfold keepOps
  rw [List.filter_eq_nil_iff]
  intro op ho
  obtain ⟨a, _, rfl⟩ := List.mem_map.mp ho
  simp [h a]

theorem overlayMembers_keys (ns ms : List (String × Json)) :
    (overlayMembers ns ms).map Prod.fst = ms.map Prod.fst := by
  induction ms with
  | nil => rfl
  | cons m ms ih =>
    obtain ⟨k, v⟩ := m
    simp [overlayMembers, ih]

theorem get?_overlayMembers (k : String) (ns ms : List (String × Json)) :
    Members.get? k (overlayMembers ns ms) = (Members.get? k ms).map fun v =>
      match Members.get? k ns with
      | some w => overlay v w
      | none => v := by
  induction ms with
  | nil => rfl
  | cons m ms ih =>
    obtain ⟨l, v⟩ := m
    by_cases hk : k = l
    · subst hk; simp [overlayMembers, Members.get?_cons]
    · simp [overlayMembers, Members.get?_cons, hk, ih]

/-- Members of both are overlaid, the others are taken from where they are. -/
theorem get?_overlay (k : String) (ms : List (String × Json)) {ns : List (String × Json)}
    (hn : (ns.map Prod.fst).Nodup) :
    (overlay (.obj ms) (.obj ns)).get? k =
      match Members.get? k ms, Members.get? k ns with
      | some v, some w => some (overlay v w)
      | some v, none => some v
      | none, w => w := by
  have hf : ((ns.filter fun n => (Members.get? n.1 ms).isNone).map Prod.fst).Nodup :=
    hn.sublist (List.filter_sublist.map Prod.fst)
  simp only [overlay, get?, Members.get?_foldl_assign, Members.get?_reverse hf,
    get?_overlayMembers]
  rw [Members.get?_filter fun j => (Members.get? j ms).isNone]
  cases hm : Members.get? k ms <;> cases hw : Members.get? k ns <;> simp

theorem overlay_self {s : Json} (hs : s.ordered = true) : overlay s s = s := by
  induction s with
  | arr xs ih =>
    have ho := (ordered_arr xs).mp hs
    have he (ys : List Json) (hy : ∀ y ∈ ys, overlay y y = y) : overlayElems ys ys = ys := by
      induction ys with
      | nil => rfl
      | cons y ys ihy =>
        simp [overlayElems, hy y (by simp), ihy fun z hz => hy z (List.mem_cons_of_mem _ hz)]
    simp only [overlay, he xs fun x hx => ih x hx (ho x hx)]
  | obj ms ih =>
    obtain ⟨hi, ho⟩ := (ordered_obj ms).mp hs
    have hl (l : List (String × Json)) (h : ∀ m ∈ l, m ∈ ms) : overlayMembers ms l = l := by
      induction l with
      | nil => rfl
      | cons m l ihl =>
        obtain ⟨k, v⟩ := m
        have hm := h (k, v) (by simp)
        have hv : overlay v v = v := ih (k, v) hm (ho (k, v) hm)
        simp [overlayMembers, Members.get?_of_mem hi.nodup hm, hv,
          ihl fun n hn => h n (List.mem_cons_of_mem _ hn)]
    have hf : (ms.filter fun n => (Members.get? n.1 ms).isNone) = [] := by
      rw [List.filter_eq_nil_iff]
      rintro ⟨k, v⟩ hm
      simp [Members.get?_of_mem hi.nodup hm]
    simp only [overlay, hl ms fun _ h => h, hf, List.foldl_nil]
  | _ => rfl

theorem applyPatch_addElems (pre ys : List Json) :
    (Json.arr pre).applyPatch ((ys.zipIdx pre.length).map fun y =>
      .add [] (.index y.2) y.1) = some (.arr (pre ++ ys)) := by
  induction ys generalizing pre with
  | nil => simp [applyPatch]
  | cons y ys ih =>
    have ha : (Json.arr pre).applyOp (.add [] (.index pre.length) y) = some (.arr (pre ++ [y])) := by
      simp [applyOp, addChild]
    have ht := ih (pre ++ [y])
    simp only [List.length_append, List.length_singleton, applyPatch] at ht
    simp only [applyPatch, List.zipIdx_cons, List.map_cons, List.foldlM_cons, ha,
      Option.bind_eq_bind, Option.bind_some]
    simpa using ht

theorem applyPatch_diffElems {xs : List Json}
    (hx : ∀ x ∈ xs, ∀ t, x.applyPatch (keepOps (fromDiff x t)) = some (overlay x t))
    (pre ys : List Json) :
    (Json.arr (pre ++ xs)).applyPatch (keepOps (diffElems pre.length xs ys)) =
      some (.arr (pre ++ overlayElems xs ys)) := by
  induction xs generalizing pre ys with
  | nil =>
    simp only [diffElems, overlayElems, List.append_nil]
    rw [keepOps_map_keep]
    · exact applyPatch_addElems pre ys
    · exact fun _ => rfl
  | cons x xs ih =>
    cases ys with
    | nil =>
      simp only [diffElems, overlayElems]
      rw [keepOps_map_remove]
      · rfl
      · exact fun _ => rfl
    | cons y ys =>
      have hc : (Json.arr (pre ++ x :: xs)).child? (.index pre.length) = some x := by
        simp [child?]
      have ht := ih (fun z hz => hx z (List.mem_cons_of_mem _ hz)) (pre ++ [overlay x y]) ys
      simp only [List.length_append, List.length_singleton, List.append_assoc,
        List.singleton_append] at ht
      simp only [diffElems, keepOps_append, keepOps_under, applyPatch_append,
        applyPatch_under hc, hx x (by simp) y, Option.map_some, Option.bind_some, overlayElems]
      simpa [setChild] using ht

theorem applyPatch_diffMembers {ms : List (String × Json)} (ns : List (String × Json))
    (hm : ∀ m ∈ ms, ∀ t, m.2.applyPatch (keepOps (fromDiff m.2 t)) = some (overlay m.2 t))
    (pre : List (String × Json)) (hn : ((pre ++ ms).map Prod.fst).Nodup) :
    (Json.obj (pre ++ ms)).applyPatch (keepOps (diffMembers ns ms)) =
      some (.obj (pre ++ overlayMembers ns ms)) := by
  induction ms generalizing pre with
  | nil => simp [diffMembers, overlayMembers, keepOps, applyPatch]
  | cons m ms ih =>
    obtain ⟨k, v⟩ := m
    have hk : k ∉ pre.map Prod.fst := by
      simp only [List.map_append, List.map_cons, List.nodup_append] at hn
      exact fun h => hn.2.2 k h k (by simp) rfl
    have hget : Members.get? k (pre ++ (k, v) :: ms) = some v := by
      rw [Members.get?_append, Members.get?_eq_none_iff.mpr hk]
      simp [Members.get?_cons]
    have ht (w : Json) := ih (fun n hm' => hm n (List.mem_cons_of_mem _ hm')) (pre ++ [(k, w)])
      (by simpa using hn)
    simp only [List.append_assoc, List.singleton_append] at ht
    simp only [diffMembers, keepOps_append, applyPatch_append, overlayMembers]
    cases hw : Members.get? k ns with
    | none =>
      have hr : keepOps [.remove [] (.key k)] = [] := rfl
      simp only [hr]
      exact ht v
    | some w =>
      have hc : (Json.obj (pre ++ (k, v) :: ms)).child? (.key k) = some v := hget
      simp only [keepOps_under, applyPatch_under hc, hm (k, v) (by simp) w, Option.map_some,
        Option.bind_some, setChild, Members.put_append_cons hk]
      exact ht (overlay v w)

theorem applyPatch_addMembers (ms ns : List (String × Json)) :
    (Json.obj ms).applyPatch (ns.map fun n => .add [] (.key n.1) n.2) =
      some (.obj (ns.foldl (fun d n => Members.assign n.1 n.2 d) ms)) := by
  induction ns generalizing ms with
  | nil => rfl
  | cons n ns ih =>
    have ha : (Json.obj ms).applyOp (.add [] (.key n.1) n.2) =
        some (.obj (Members.assign n.1 n.2 ms)) := by
      simp [applyOp, addChild]
    have ht := ih (Members.assign n.1 n.2 ms)
    simp only [applyPatch] at ht
    simp only [applyPatch, List.map_cons, List.foldlM_cons, ha, Option.bind_eq_bind,
      Option.bind_some, List.foldl_cons]
    exact ht

/-- Values that are not containers of one kind: the target takes the source's place. -/
theorem applyPatch_replace {s t : Json} (hs : s.ordered = true) (ho : overlay s t = t)
    (hf : fromDiff s t = if s = t then [] else [.replace [] t]) :
    s.applyPatch (keepOps (fromDiff s t)) = some (overlay s t) := by
  rw [hf]
  split_ifs with he
  · rw [← he, overlay_self hs]
    rfl
  · rw [ho]
    rfl

/-- Applying what is kept of the differences overlays the target on the source. -/
theorem applyPatch_fromDiff {s : Json} (hs : s.ordered = true) (t : Json) :
    s.applyPatch (keepOps (fromDiff s t)) = some (overlay s t) := by
  induction s generalizing t with
  | arr xs ih =>
    cases t with
    | arr ys =>
      simp only [fromDiff]
      split_ifs with he
      · rw [← he, overlay_self hs]
        rfl
      · have hx := (ordered_arr xs).mp hs
        exact applyPatch_diffElems (fun x hm t => ih x hm (hx x hm) t) [] ys
    | _ => exact applyPatch_replace hs rfl (by simp only [fromDiff])
  | obj ms ih =>
    cases t with
    | obj ns =>
      obtain ⟨hi, hx⟩ := (ordered_obj ms).mp hs
      simp only [fromDiff]
      split_ifs with he
      · rw [← he, overlay_self hs]
        rfl
      · have hd := applyPatch_diffMembers ns (fun m hm t => ih m hm (hx m hm) t) [] hi.nodup
        simp only [List.nil_append] at hd
        rw [keepOps_append, applyPatch_append, hd, Option.bind_some, keepOps_map_keep]
        · exact applyPatch_addMembers _ _
        · exact fun _ => rfl
    | _ => exact applyPatch_replace hs rfl (by simp only [fromDiff])
  | _ => cases t <;> exact applyPatch_replace hs rfl (by simp only [fromDiff])

theorem ordered_overlay {s t : Json} (hs : s.ordered = true) (ht : t.ordered = true) :
    (overlay s t).ordered = true := by
  induction s generalizing t with
  | arr xs ih =>
    cases t with
    | arr ys =>
      have he : ∀ (xs ys : List Json), (∀ x ∈ xs, ∀ t, x.ordered = true → t.ordered = true →
          (overlay x t).ordered = true) → (∀ x ∈ xs, x.ordered = true) →
          (∀ y ∈ ys, y.ordered = true) → ∀ z ∈ overlayElems xs ys, z.ordered = true := by
        intro xs
        induction xs with
        | nil => intro ys _ _ hy z hz; exact hy z (by simpa [overlayElems] using hz)
        | cons x xs ihx =>
          intro ys ho hx hy z hz
          cases ys with
          | nil => exact hx z (by simpa [overlayElems] using hz)
          | cons y ys =>
            rcases List.mem_cons.mp hz with rfl | hz
            · exact ho x (by simp) y (hx x (by simp)) (hy y (by simp))
            · exact ihx ys (fun w hw => ho w (List.mem_cons_of_mem _ hw))
                (fun w hw => hx w (List.mem_cons_of_mem _ hw))
                (fun w hw => hy w (List.mem_cons_of_mem _ hw)) z hz
      exact (ordered_arr _).mpr (he xs ys (fun x hx t ho ht => ih x hx ho ht)
        ((ordered_arr xs).mp hs) ((ordered_arr ys).mp ht))
    | _ => exact ht
  | obj ms ih =>
    cases t with
    | obj ns =>
      obtain ⟨hi, hm⟩ := (ordered_obj ms).mp hs
      obtain ⟨hj, hn⟩ := (ordered_obj ns).mp ht
      have ho : Members.Increasing (overlayMembers ns ms) := by
        unfold Members.Increasing
        rwa [overlayMembers_keys]
      refine (ordered_obj _).mpr ⟨ho.foldl_assign _, ?_⟩
      rintro ⟨k, v⟩ hk
      have hg := Members.get?_of_mem (ho.foldl_assign _).nodup hk
      have hget : (overlay (.obj ms) (.obj ns)).get? k = some v := hg
      rw [get?_overlay k ms hj.nodup] at hget
      cases hms : Members.get? k ms with
      | none =>
        rw [hms] at hget
        exact hn _ (Members.mem_of_get? hget)
      | some u =>
        have hu := Members.mem_of_get? hms
        cases hns : Members.get? k ns with
        | none =>
          simp only [hms, hns, Option.some.injEq] at hget
          exact hget ▸ hm _ hu
        | some w =>
          simp only [hms, hns, Option.some.injEq] at hget
          exact hget ▸ ih _ hu (hm _ hu) (hn _ (Members.mem_of_get? hns))
    | _ => exact ht
  | _ => cases t <;> exact ht

end Json
