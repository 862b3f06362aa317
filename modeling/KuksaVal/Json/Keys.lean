import KuksaVal.Json.Patch

/-! Values without members of certain keys, at any depth. Reading a part, replacing one, assigning
a member and overlaying keep to this. -/
namespace Members
variable {κ ν : Type*} [LinearOrder κ]

theorem mem_foldl_assign {ms ns : List (κ × ν)} {m : κ × ν}
    (h : m ∈ ns.foldl (fun d n => assign n.1 n.2 d) ms) : m ∈ ns ∨ m ∈ ms := by
  induction ns generalizing ms with
  | nil => exact .inr h
  | cons n ns ih =>
    rcases ih h with hm | hm
    · exact .inl (List.mem_cons_of_mem _ hm)
    · rcases mem_assign hm with rfl | hm
      · exact .inl List.mem_cons_self
      · exact .inr hm

end Members

namespace Json

/- No member at any depth has a key with the property. -/
mutual
def noKey (p : String → Bool) : Json → Bool
  | .arr xs => noKeyElems p xs
  | .obj ms => noKeyMembers p ms
  | _ => true

def noKeyElems (p : String → Bool) : List Json → Bool
  | [] => true
  | x :: xs => noKey p x && noKeyElems p xs

def noKeyMembers (p : String → Bool) : List (String × Json) → Bool
  | [] => true
  | (k, v) :: ms => !p k && noKey p v && noKeyMembers p ms
end

variable {p : String → Bool}

@[simp] theorem noKey_arr (xs : List Json) :
    (arr xs).noKey p = true ↔ ∀ x ∈ xs, x.noKey p = true := by
  show noKeyElems p xs = true ↔ _
  induction xs with
  | nil => simp [noKeyElems]
  | cons x xs ih => simp [noKeyElems, ih]

@[simp] theorem noKey_obj (ms : List (String × Json)) :
    (obj ms).noKey p = true ↔ ∀ m ∈ ms, p m.1 = false ∧ m.2.noKey p = true := by
  show noKeyMembers p ms = true ↔ _
  induction ms with
  | nil => simp [noKeyMembers]
  | cons m ms ih =>
    obtain ⟨k, v⟩ := m
    simp only [noKeyMembers, Bool.and_eq_true, Bool.not_eq_true', ih, List.forall_mem_cons]

theorem noKey_get? {j v : Json} {k : String} (hj : j.noKey p = true) (h : j.get? k = some v) :
    p k = false ∧ v.noKey p = true := by
  cases j with
  | obj ms => exact (noKey_obj ms).mp hj (k, v) (Members.mem_of_get? h)
  | _ => simp [get?] at h

/-- Such a value has no such member. -/
theorem get?_of_noKey {j : Json} {k : String} (hj : j.noKey p = true) (hk : p k = true) :
    j.get? k = none := by
  cases h : j.get? k with
  | none => rfl
  | some v => simp [(noKey_get? hj h).1] at hk

theorem noKey_child? {j c : Json} {s : Step} (hj : j.noKey p = true) (h : j.child? s = some c) :
    c.noKey p = true := by
  cases s with
  | key k => exact (noKey_get? hj (by rwa [child?_key] at h)).2
  | index i =>
    cases j with
    | arr xs => exact (noKey_arr xs).mp hj c (List.mem_of_getElem? h)
    | _ => simp [child?] at h

theorem noKey_at? {j c : Json} {l : Loc} (hj : j.noKey p = true) (h : j.at? l = some c) :
    c.noKey p = true := by
  induction l generalizing j with
  | nil =>
    obtain rfl : j = c := by simpa using h
    exact hj
  | cons s l ih =>
    obtain ⟨d, hd, hl⟩ := Option.bind_eq_some_iff.mp h
    exact ih (noKey_child? hj hd) hl

/-- The keys on the way to what is in such a value do not have the property. -/
theorem noKey_on_way {j c : Json} {l : Loc} (hj : j.noKey p = true) (h : j.at? l = some c)
    {k : String} (hk : .key k ∈ l) : p k = false := by
  induction l generalizing j with
  | nil => simp at hk
  | cons s l ih =>
    obtain ⟨d, hd, hl⟩ := Option.bind_eq_some_iff.mp h
    rcases List.mem_cons.mp hk with rfl | hk
    · exact (noKey_get? hj (by rwa [child?_key] at hd)).1
    · exact ih (noKey_child? hj hd) hl hk

theorem noKey_setChild {j v : Json} (s : Step) (hj : j.noKey p = true) (hv : v.noKey p = true) :
    (j.setChild s v).noKey p = true := by
  cases j with
  | obj ms =>
    cases s with
    | key k =>
      have hm := (noKey_obj ms).mp hj
      refine (noKey_obj _).mpr ?_
      induction ms with
      | nil => simp [Members.put]
      | cons n ns ih =>
        obtain ⟨l, w⟩ := n
        obtain ⟨hn, hns⟩ := List.forall_mem_cons.mp hm
        unfold Members.put
        split_ifs
        · exact List.forall_mem_cons.mpr ⟨⟨hn.1, hv⟩, hns⟩
        · exact List.forall_mem_cons.mpr ⟨hn, ih ((noKey_obj ns).mpr hns) hns⟩
    | index i => exact hj
  | arr xs =>
    cases s with
    | key k => exact hj
    | index i =>
      refine (noKey_arr _).mpr fun x hx => ?_
      rcases List.mem_or_eq_of_mem_set hx with hx | rfl
      · exact (noKey_arr xs).mp hj x hx
      · exact hv
  | _ => cases s <;> exact hj

theorem noKey_setAt {j v : Json} (l : Loc) (hj : j.noKey p = true) (hv : v.noKey p = true) :
    (j.setAt l v).noKey p = true := by
  induction l generalizing j with
  | nil => exact hv
  | cons s l ih =>
    cases hc : j.child? s with
    | none => rwa [setAt_cons_none hc]
    | some c =>
      rw [setAt_cons_some hc]
      exact noKey_setChild s hj (ih (noKey_child? hj hc))

theorem noKey_insertOrAssign {j v : Json} {k : String} (hj : j.noKey p = true) (hk : p k = false)
    (hv : v.noKey p = true) : (j.insertOrAssign k v).noKey p = true := by
  cases j with
  | obj ms =>
    refine (noKey_obj _).mpr fun m hm => ?_
    rcases Members.mem_assign hm with rfl | hm
    · exact ⟨hk, hv⟩
    · exact (noKey_obj ms).mp hj m hm
  | _ => exact hj

theorem noKey_foldl_assign {ms ns : List (String × Json)} (hm : (obj ms).noKey p = true)
    (hn : (obj ns).noKey p = true) :
    (obj (ns.foldl (fun d n => Members.assign n.1 n.2 d) ms)).noKey p = true := by
  refine (noKey_obj _).mpr fun m h => ?_
  rcases Members.mem_foldl_assign h with h | h
  · exact (noKey_obj ns).mp hn m h
  · exact (noKey_obj ms).mp hm m h

theorem mem_overlayMembers {ms ns : List (String × Json)} {m : String × Json}
    (h : m ∈ overlayMembers ns ms) : ∃ v, (m.1, v) ∈ ms ∧
      (m.2 = v ∨ ∃ w, Members.get? m.1 ns = some w ∧ m.2 = overlay v w) := by
  induction ms with
  | nil => simp [overlayMembers] at h
  | cons n ms ih =>
    obtain ⟨k, v⟩ := n
    unfold overlayMembers at h
    rcases List.mem_cons.mp h with rfl | h
    · refine ⟨v, List.mem_cons_self, ?_⟩
      cases hw : Members.get? k ns with
      | none => exact .inl rfl
      | some w => exact .inr ⟨w, rfl, rfl⟩
    · obtain ⟨u, hu, heq⟩ := ih h
      exact ⟨u, List.mem_cons_of_mem _ hu, heq⟩

theorem noKey_overlayElems {xs : List Json}
    (ih : ∀ x ∈ xs, ∀ y : Json, y.noKey p = true → (overlay x y).noKey p = true)
    (hx : ∀ x ∈ xs, x.noKey p = true) {ys : List Json} (hy : ∀ y ∈ ys, y.noKey p = true) :
    ∀ z ∈ overlayElems xs ys, z.noKey p = true := by
  induction xs generalizing ys with
  | nil => simpa [overlayElems] using hy
  | cons x xs ihx =>
    cases ys with
    | nil => simpa [overlayElems] using hx
    | cons y ys =>
      obtain ⟨hy, hys⟩ := List.forall_mem_cons.mp hy
      unfold overlayElems
      refine List.forall_mem_cons.mpr ⟨ih x List.mem_cons_self y hy, ?_⟩
      exact ihx (fun z hz => ih z (List.mem_cons_of_mem _ hz)) (List.forall_mem_cons.mp hx).2 hys

theorem noKey_overlay {s t : Json} (hs : s.noKey p = true) (ht : t.noKey p = true) :
    (overlay s t).noKey p = true := by
  induction s generalizing t with
  | arr xs ih =>
    cases t with
    | arr ys =>
      have hx := (noKey_arr xs).mp hs
      exact (noKey_arr _).mpr (noKey_overlayElems (fun x hm y => ih x hm (hx x hm)) hx
        ((noKey_arr ys).mp ht))
    | _ => exact ht
  | obj ms ih =>
    cases t with
    | obj ns =>
      have hm := (noKey_obj ms).mp hs
      have hn := (noKey_obj ns).mp ht
      apply noKey_foldl_assign
      · refine (noKey_obj _).mpr fun m h => ?_
        obtain ⟨v, hv, heq⟩ := mem_overlayMembers h
        refine ⟨(hm _ hv).1, ?_⟩
        rcases heq with rfl | ⟨w, hw, heq⟩
        · exact (hm _ hv).2
        · rw [heq]
          exact ih _ hv (hm _ hv).2 (hn _ (Members.mem_of_get? hw)).2
      · exact (noKey_obj _).mpr fun n h => hn n (List.mem_of_mem_filter h)
    | _ => exact ht
  | _ => cases t <;> exact ht

end Json
