import KuksaVal.Json.Patch

/-! Values that are overlaid one after the other: of the layers that say what is at a place, the
last one decides. -/

namespace Json

/-- A value without members or elements. -/
def isScalar : Json → Bool
  | .obj _ => false
  | .arr _ => false
  | _ => true

/-- There is nothing at the place below the keys, and only objects on the way to it. -/
def silentAt : List String → Json → Bool
  | k :: ks, .obj ms => (Members.get? k ms).all (silentAt ks)
  | _, _ => false

variable {s t v : Json} {keys : List String}

theorem overlay_of_isScalar (s : Json) (h : t.isScalar = true) : overlay s t = t := by
  cases t <;> first | (cases s <;> rfl) | simp [isScalar] at h

theorem at?_of_silentAt (h : silentAt keys t = true) : t.at? (keys.map .key) = none := by
  induction keys generalizing t with
  | nil => simp [silentAt] at h
  | cons k keys ih =>
    cases t with
    | obj ms =>
      rw [List.map_cons, at?_cons, child?_key]
      cases hk : Members.get? k ms with
      | none => simp [get?, hk]
      | some w =>
        simp only [silentAt, hk, Option.all_some] at h
        simp [get?, hk, ih h]
    | _ => simp [silentAt] at h

/-- What a layer says is there, and what is above it is not seen. -/
theorem at?_overlay_of_isScalar (ht : t.ordered = true) (h : t.at? (keys.map .key) = some v)
    (hv : v.isScalar = true) (s : Json) : (overlay s t).at? (keys.map .key) = some v := by
  induction keys generalizing s t with
  | nil =>
    obtain rfl : t = v := Option.some.inj h
    rw [overlay_of_isScalar s hv]
    exact h
  | cons k keys ih =>
    rw [List.map_cons, at?_cons, child?_key] at h
    obtain ⟨w, hw, hat⟩ := Option.bind_eq_some_iff.mp h
    cases t with
    | obj ns =>
      cases s with
      | obj ms =>
        have hn := ((ordered_obj ns).mp ht).1.nodup
        have hk : Members.get? k ns = some w := hw
        rw [List.map_cons, at?_cons, child?_key, get?_overlay k ms hn, hk]
        cases Members.get? k ms with
        | none => exact hat
        | some u => exact ih (ordered_get? ht hw) hat u
      | _ =>
        rw [List.map_cons, at?_cons, child?_key]
        simpa [overlay, hw] using hat
    | _ => simp [get?] at hw

/-- Where a layer says nothing, what is above it is seen. -/
theorem at?_overlay_of_silentAt (ht : t.ordered = true) (h : silentAt keys t = true) (s : Json) :
    (overlay s t).at? (keys.map .key) = s.at? (keys.map .key) := by
  induction keys generalizing s t with
  | nil => simp [silentAt] at h
  | cons k keys ih =>
    cases t with
    | obj ns =>
      cases s with
      | obj ms =>
        have hn := ((ordered_obj ns).mp ht).1.nodup
        rw [List.map_cons, at?_cons, at?_cons, child?_key, child?_key, get?_overlay k ms hn]
        simp only [silentAt] at h
        cases hk : Members.get? k ns with
        | none => cases hm : Members.get? k ms <;> simp [get?, hm]
        | some w =>
          simp only [hk, Option.all_some] at h
          cases hm : Members.get? k ms with
          | none => simp [get?, hm, at?_of_silentAt h]
          | some u =>
            simpa [get?, hm] using ih (ordered_get? (j := .obj ns) ht hk) h u
      | _ =>
        have hnone := at?_of_silentAt h
        simpa [overlay, at?_cons, child?_key, get?] using hnone
    | _ => simp [silentAt] at h

/-- All layers, from the first on. -/
def overlays (s : Json) (layers : List Json) : Json := layers.foldl overlay s

theorem overlays_at?_of_silentAt {layers : List Json} (ht : ∀ t ∈ layers, t.ordered = true)
    (h : ∀ t ∈ layers, silentAt keys t = true) (s : Json) :
    (overlays s layers).at? (keys.map .key) = s.at? (keys.map .key) := by
  induction layers generalizing s with
  | nil => rfl
  | cons t layers ih =>
    have hrest := ih (fun u hu => ht u (List.mem_cons_of_mem t hu))
      (fun u hu => h u (List.mem_cons_of_mem t hu)) (overlay s t)
    exact hrest.trans (at?_overlay_of_silentAt (ht t List.mem_cons_self) (h t List.mem_cons_self) s)

/-- The last layer that says what is at the place decides. -/
theorem overlays_at?_of_last {before after : List Json} (hl : t.ordered = true)
    (ht : ∀ u ∈ after, u.ordered = true) (h : t.at? (keys.map .key) = some v)
    (hv : v.isScalar = true) (ha : ∀ u ∈ after, silentAt keys u = true) (s : Json) :
    (overlays s (before ++ t :: after)).at? (keys.map .key) = some v := by
  unfold overlays
  rw [List.foldl_append, List.foldl_cons]
  exact (overlays_at?_of_silentAt ht ha _).trans (at?_overlay_of_isScalar hl h hv _)

end Json
