import KuksaVal.Json.Patch

/-! The deep merge of two values, and how overlaying one on the other differs from it: only in
arrays, and there in what the target does not have. Overlaying a target twice changes nothing
more. -/
namespace Json

/- Members of both objects are merged, the others are kept, and every other value of the target
takes the place of the source's. -/
mutual
def deepMerge : Json → Json → Json
  | .obj ms, .obj ns => .obj ((ns.filter fun n => (Members.get? n.1 ms).isNone).foldl
      (fun d n => Members.assign n.1 n.2 d) (deepMergeMembers ns ms))
  | _, t => t

def deepMergeMembers (target : List (String × Json)) :
    List (String × Json) → List (String × Json)
  | [] => []
  | (k, v) :: ms =>
      (k, match Members.get? k target with
        | some w => deepMerge v w
        | none => v) :: deepMergeMembers target ms
end

/- Nothing of the source is missing in the target: no member, and no element. -/
mutual
def covered : Json → Json → Bool
  | .arr xs, .arr ys => coveredElems xs ys
  | .obj ms, .obj ns => coveredMembers ns ms
  | _, _ => true

def coveredElems : List Json → List Json → Bool
  | [], _ => true
  | _ :: _, [] => false
  | x :: xs, y :: ys => covered x y && coveredElems xs ys

def coveredMembers (target : List (String × Json)) : List (String × Json) → Bool
  | [] => true
  | (k, v) :: ms =>
      (Members.get? k target).any (fun w => covered v w) && coveredMembers target ms
end

/- Where both have an array at one place in their objects, nothing of the source's is missing in
the target's. -/
mutual
def arraysCovered : Json → Json → Bool
  | .arr xs, .arr ys => coveredElems xs ys
  | .obj ms, .obj ns => arraysCoveredMembers ns ms
  | _, _ => true

def arraysCoveredMembers (target : List (String × Json)) : List (String × Json) → Bool
  | [] => true
  | (k, v) :: ms =>
      (Members.get? k target).all (fun w => arraysCovered v w) && arraysCoveredMembers target ms
end

theorem coveredMembers_iff (ns ms : List (String × Json)) : coveredMembers ns ms = true ↔
    ∀ m ∈ ms, ∃ w, Members.get? m.1 ns = some w ∧ covered m.2 w = true := by
  induction ms with
  | nil => simp [coveredMembers]
  | cons m ms ih =>
    obtain ⟨k, v⟩ := m
    simp [coveredMembers, ih, Option.any_eq_true]

theorem arraysCoveredMembers_iff (ns ms : List (String × Json)) :
    arraysCoveredMembers ns ms = true ↔
      ∀ m ∈ ms, ∀ w, Members.get? m.1 ns = some w → arraysCovered m.2 w = true := by
  induction ms with
  | nil => simp [arraysCoveredMembers]
  | cons m ms ih =>
    obtain ⟨k, v⟩ := m
    simp [arraysCoveredMembers, ih, Option.all_eq_true]

theorem get?_deepMergeMembers (k : String) (ns ms : List (String × Json)) :
    Members.get? k (deepMergeMembers ns ms) = (Members.get? k ms).map fun v =>
      match Members.get? k ns with
      | some w => deepMerge v w
      | none => v := by
  induction ms with
  | nil => rfl
  | cons m ms ih =>
    obtain ⟨l, v⟩ := m
    by_cases hk : k = l
    · subst hk; simp [deepMergeMembers, Members.get?_cons]
    · simp [deepMergeMembers, Members.get?_cons, hk, ih]

theorem deepMergeMembers_keys (ns ms : List (String × Json)) :
    (deepMergeMembers ns ms).map Prod.fst = ms.map Prod.fst := by
  induction ms with
  | nil => rfl
  | cons m ms ih =>
    obtain ⟨k, v⟩ := m
    simp [deepMergeMembers, ih]

/-- What the deep merge has under a key. -/
theorem get?_deepMerge (k : String) (ms : List (String × Json)) {ns : List (String × Json)}
    (hn : (ns.map Prod.fst).Nodup) :
    (deepMerge (.obj ms) (.obj ns)).get? k =
      match Members.get? k ms, Members.get? k ns with
      | some v, some w => some (deepMerge v w)
      | some v, none => some v
      | none, w => w := by
  have hf : ((ns.filter fun n => (Members.get? n.1 ms).isNone).map Prod.fst).Nodup :=
    hn.sublist (List.filter_sublist.map Prod.fst)
  simp only [deepMerge, get?, Members.get?_foldl_assign, Members.get?_reverse hf,
    get?_deepMergeMembers]
  rw [Members.get?_filter fun j => (Members.get? j ms).isNone]
  cases hm : Members.get? k ms <;> cases hw : Members.get? k ns <;> simp

/-- An array of the target at a place in its objects is there in the merge. -/
theorem deepMerge_at? {s t : Json} (ht : t.ordered = true) {keys : List String} {ys : List Json}
    (h : t.at? (keys.map .key) = some (.arr ys)) :
    (deepMerge s t).at? (keys.map .key) = some (.arr ys) := by
  induction keys generalizing s t with
  | nil =>
    obtain rfl : t = .arr ys := Option.some.inj h
    cases s <;> rfl
  | cons k keys ih =>
    cases t with
    | obj ns =>
      rw [List.map_cons, at?_cons, child?_key] at h
      obtain ⟨w, hw, hat⟩ := Option.bind_eq_some_iff.mp h
      cases s with
      | obj ms =>
        have hn := ((ordered_obj ns).mp ht).1.nodup
        have hw' : Members.get? k ns = some w := hw
        rw [List.map_cons, at?_cons, child?_key, get?_deepMerge k ms hn, hw']
        cases Members.get? k ms with
        | none => exact hat
        | some v => exact ih (ordered_get? ht hw) hat
      | _ => exact h
    | _ => simp [at?_cons, child?_key, get?] at h

section Differences

theorem increasing_overlay {ms : List (String × Json)} (h : Members.Increasing ms)
    (ns : List (String × Json)) :
    ∃ ps, overlay (.obj ms) (.obj ns) = .obj ps ∧ Members.Increasing ps := by
  refine ⟨_, rfl, Members.Increasing.foldl_assign ?_ _⟩
  unfold Members.Increasing
  rwa [overlayMembers_keys]

theorem increasing_deepMerge {ms : List (String × Json)} (h : Members.Increasing ms)
    (ns : List (String × Json)) :
    ∃ ps, deepMerge (.obj ms) (.obj ns) = .obj ps ∧ Members.Increasing ps := by
  refine ⟨_, rfl, Members.Increasing.foldl_assign ?_ _⟩
  unfold Members.Increasing
  rwa [deepMergeMembers_keys]

/-- Objects in order are equal when lookups are. -/
theorem obj_eq_iff {a b : Json} {ms ns : List (String × Json)} (ha : a = .obj ms)
    (hb : b = .obj ns) (hm : Members.Increasing ms) (hn : Members.Increasing ns) :
    a = b ↔ ∀ k, a.get? k = b.get? k := by
  subst ha hb
  constructor
  · intro h k
    rw [h]
  · intro h
    rw [hm.ext hn h]

theorem overlayElems_eq_right_iff {xs : List Json}
    (ih : ∀ x ∈ xs, ∀ y : Json, y.ordered = true → (overlay x y = y ↔ covered x y = true))
    {ys : List Json} (hy : ∀ y ∈ ys, y.ordered = true) :
    overlayElems xs ys = ys ↔ coveredElems xs ys = true := by
  induction xs generalizing ys with
  | nil => simp [overlayElems, coveredElems]
  | cons x xs ihx =>
    cases ys with
    | nil => simp [overlayElems, coveredElems]
    | cons y ys =>
      obtain ⟨hy, hys⟩ := List.forall_mem_cons.mp hy
      have hrest := ihx (fun z hz => ih z (List.mem_cons_of_mem _ hz)) hys
      simp [overlayElems, coveredElems, hrest, ih x List.mem_cons_self y hy]

/-- A target that covers the source replaces it, and no other does. -/
theorem overlay_eq_right_iff {s : Json} (hs : s.ordered = true) {t : Json}
    (ht : t.ordered = true) : overlay s t = t ↔ covered s t = true := by
  induction s generalizing t with
  | arr xs ih =>
    cases t with
    | arr ys =>
      have hx := (ordered_arr xs).mp hs
      simp only [overlay, covered, Json.arr.injEq]
      exact overlayElems_eq_right_iff (fun x hm y => ih x hm (hx x hm)) ((ordered_arr ys).mp ht)
    | _ => simp [overlay, covered]
  | obj ms ih =>
    cases t with
    | obj ns =>
      obtain ⟨hi, hm⟩ := (ordered_obj ms).mp hs
      obtain ⟨hj, hn⟩ := (ordered_obj ns).mp ht
      obtain ⟨ps, hps, hp⟩ := increasing_overlay hi ns
      rw [obj_eq_iff hps rfl hp hj, covered, coveredMembers_iff]
      simp only [get?_overlay _ ms hj.nodup]
      constructor
      · rintro h ⟨k, v⟩ hmem
        have hk := h k
        rw [Members.get?_of_mem hi.nodup hmem] at hk
        cases hw : Members.get? k ns with
        | none => simp [hw, get?] at hk
        | some w =>
          have hv : overlay v w = w := by simpa [hw, get?] using hk
          exact ⟨w, rfl, (ih _ hmem (hm _ hmem) (hn _ (Members.mem_of_get? hw))).mp hv⟩
      · intro h k
        cases hv : Members.get? k ms with
        | none => simp [get?]
        | some v =>
          have hmem := Members.mem_of_get? hv
          obtain ⟨w, hw, hc⟩ := h (k, v) hmem
          have hvw : overlay v w = w :=
            (ih _ hmem (hm _ hmem) (hn _ (Members.mem_of_get? hw))).mpr hc
          simp only [get?]
          rw [show Members.get? k ns = some w from hw]
          simp [hvw]
    | _ => simp [overlay, covered]
  | _ => cases t <;> simp [overlay, covered]

/-- Overlaying is the deep merge exactly where the arrays of the source are covered. -/
theorem overlay_eq_deepMerge_iff {s : Json} (hs : s.ordered = true) {t : Json}
    (ht : t.ordered = true) : overlay s t = deepMerge s t ↔ arraysCovered s t = true := by
  induction s generalizing t with
  | arr xs ih =>
    cases t with
    | arr ys => exact overlay_eq_right_iff hs ht
    | _ => simp [overlay, deepMerge, arraysCovered]
  | obj ms ih =>
    cases t with
    | obj ns =>
      obtain ⟨hi, hm⟩ := (ordered_obj ms).mp hs
      obtain ⟨hj, hn⟩ := (ordered_obj ns).mp ht
      obtain ⟨ps, hps, hp⟩ := increasing_overlay hi ns
      obtain ⟨qs, hqs, hq⟩ := increasing_deepMerge hi ns
      rw [obj_eq_iff hps hqs hp hq, arraysCovered, arraysCoveredMembers_iff]
      simp only [get?_overlay _ ms hj.nodup, get?_deepMerge _ ms hj.nodup]
      constructor
      · rintro h ⟨k, v⟩ hmem w hw
        have hk := h k
        have hw' : Members.get? k ns = some w := hw
        have hvw : overlay v w = deepMerge v w := by
          simpa [Members.get?_of_mem hi.nodup hmem, hw'] using hk
        exact (ih _ hmem (hm _ hmem) (hn _ (Members.mem_of_get? hw))).mp hvw
      · intro h k
        cases hv : Members.get? k ms with
        | none => simp
        | some v =>
          cases hw : Members.get? k ns with
          | none => simp
          | some w =>
            have hmem := Members.mem_of_get? hv
            have hvw : overlay v w = deepMerge v w :=
              (ih _ hmem (hm _ hmem) (hn _ (Members.mem_of_get? hw))).mpr (h (k, v) hmem w hw)
            simp [hvw]
    | _ => simp [overlay, deepMerge, arraysCovered]
  | _ => cases t <;> simp [overlay, deepMerge, arraysCovered]

end Differences

section Twice

theorem overlayElems_overlayElems {xs : List Json}
    (ih : ∀ x ∈ xs, ∀ y : Json, y.ordered = true → overlay (overlay x y) y = overlay x y)
    {ys : List Json} (hy : ∀ y ∈ ys, y.ordered = true) :
    overlayElems (overlayElems xs ys) ys = overlayElems xs ys := by
  induction xs generalizing ys with
  | nil =>
    have hself := overlay_self ((ordered_arr ys).mpr hy)
    simp only [overlay, Json.arr.injEq] at hself
    simpa [overlayElems] using hself
  | cons x xs ihx =>
    cases ys with
    | nil => simp [overlayElems]
    | cons y ys =>
      obtain ⟨hy, hys⟩ := List.forall_mem_cons.mp hy
      simp only [overlayElems, ih x List.mem_cons_self y hy,
        ihx (fun z hz => ih z (List.mem_cons_of_mem _ hz)) hys]

/-- Overlaying a target once more changes nothing. -/
theorem overlay_overlay {s : Json} (hs : s.ordered = true) {t : Json} (ht : t.ordered = true) :
    overlay (overlay s t) t = overlay s t := by
  induction s generalizing t with
  | arr xs ih =>
    cases t with
    | arr ys =>
      have hx := (ordered_arr xs).mp hs
      simp only [overlay, Json.arr.injEq]
      exact overlayElems_overlayElems (fun x hm y => ih x hm (hx x hm)) ((ordered_arr ys).mp ht)
    | _ => exact overlay_self ht
  | obj ms ih =>
    cases t with
    | obj ns =>
      obtain ⟨hi, hm⟩ := (ordered_obj ms).mp hs
      obtain ⟨hj, hn⟩ := (ordered_obj ns).mp ht
      obtain ⟨ps, hps, hp⟩ := increasing_overlay hi ns
      obtain ⟨qs, hqs, hq⟩ := increasing_overlay hp ns
      rw [hps, obj_eq_iff hqs rfl hq hp]
      intro k
      have hget : Members.get? k ps = (overlay (.obj ms) (.obj ns)).get? k := by
        rw [hps]
        rfl
      rw [get?_overlay k ms hj.nodup] at hget
      rw [get?_overlay k ps hj.nodup]
      simp only [get?, hget]
      cases hv : Members.get? k ms with
      | none =>
        cases hw : Members.get? k ns with
        | none => rfl
        | some w => simp [overlay_self (hn _ (Members.mem_of_get? hw))]
      | some v =>
        cases hw : Members.get? k ns with
        | none => rfl
        | some w =>
          have hmem := Members.mem_of_get? hv
          simp [ih _ hmem (hm _ hmem) (hn _ (Members.mem_of_get? hw))]
    | _ => exact overlay_self ht
  | _ => cases t <;> exact overlay_self ht

end Twice

end Json
