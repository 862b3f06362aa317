import KuksaVal.Json.Value

/-! Locations: the steps from the root of a value to one inside it. Reading and replacing at
a location satisfy the usual laws, with no order on members assumed. -/
namespace Json

inductive Step where
  | key (name : String)
  | index (i : ℕ)
  deriving DecidableEq, Repr

abbrev Loc := List Step

def child? : Json → Step → Option Json
  | .obj ms, .key k => Members.get? k ms
  | .arr xs, .index i => xs[i]?
  | _, _ => none

def setChild : Json → Step → Json → Json
  | .obj ms, .key k, v => .obj (Members.put k v ms)
  | .arr xs, .index i, v => .arr (xs.set i v)
  | j, _, _ => j

def at? (j : Json) : Loc → Option Json
  | [] => some j
  | s :: l => (j.child? s).bind fun c => c.at? l

/-- Replace the value at a location; a location that is absent leaves the value alone. -/
def setAt (j : Json) : Loc → Json → Json
  | [], v => v
  | s :: l, v =>
      match j.child? s with
      | some c => j.setChild s (c.setAt l v)
      | none => j

theorem child?_key (j : Json) (k : String) : j.child? (.key k) = j.get? k := by
  cases j <;> rfl

theorem child?_setChild (j : Json) (s t : Step) (v : Json) :
    (j.setChild s v).child? t = if t = s then (j.child? s).map (fun _ => v) else j.child? t := by
  cases j with
  | obj ms =>
    cases s with
    | key k =>
      cases t with
      | key l => simp [setChild, child?]
      | index i => simp [setChild, child?]
    | index i => cases t <;> simp +contextual [setChild, child?]
  | arr xs =>
    cases s with
    | key k => cases t <;> simp +contextual [setChild, child?]
    | index i =>
      cases t with
      | key l => simp [setChild, child?]
      | index n =>
        by_cases hn : n = i
        · subst hn
          by_cases hl : n < xs.length <;> simp [setChild, child?, hl]
        · simp [setChild, child?, hn, Ne.symm hn]
  | _ => cases s <;> cases t <;> simp +contextual [setChild, child?]

@[simp] theorem at?_nil (j : Json) : j.at? [] = some j := rfl

theorem at?_cons (j : Json) (s : Step) (l : Loc) :
    j.at? (s :: l) = (j.child? s).bind fun c => c.at? l := rfl

theorem at?_append (j : Json) (l m : Loc) :
    j.at? (l ++ m) = (j.at? l).bind fun c => c.at? m := by
  induction l generalizing j with
  | nil => rfl
  | cons s l ih =>
    simp only [List.cons_append, at?_cons]
    cases j.child? s with
    | none => rfl
    | some c => simpa using ih c

@[simp] theorem setAt_nil (j v : Json) : j.setAt [] v = v := rfl

theorem setAt_cons_some {j c : Json} {s : Step} (h : j.child? s = some c) (l : Loc) (v : Json) :
    j.setAt (s :: l) v = j.setChild s (c.setAt l v) := by
  simp [setAt, h]

theorem setAt_cons_none {j : Json} {s : Step} (h : j.child? s = none) (l : Loc) (v : Json) :
    j.setAt (s :: l) v = j := by
  simp [setAt, h]

/-- Reading below a replaced location reads the new value. -/
theorem at?_setAt_append {j : Json} {l : Loc} (h : (j.at? l).isSome) (v : Json) (m : Loc) :
    (j.setAt l v).at? (l ++ m) = v.at? m := by
  induction l generalizing j with
  | nil => rfl
  | cons s l ih =>
    cases hc : j.child? s with
    | none => simp [at?_cons, hc] at h
    | some c =>
      have hl : (c.at? l).isSome := by simpa [at?_cons, hc] using h
      simp only [setAt_cons_some hc, List.cons_append, at?_cons, child?_setChild, hc]
      simpa using ih hl

theorem at?_setAt_self {j : Json} {l : Loc} (h : (j.at? l).isSome) (v : Json) :
    (j.setAt l v).at? l = some v := by
  simpa using at?_setAt_append h v []

/-- Reading at a location neither above nor below a replaced one is unaffected. -/
theorem at?_setAt_of_not_prefix {j : Json} {l m : Loc} (hlm : ¬ l <+: m) (hml : ¬ m <+: l)
    (v : Json) : (j.setAt l v).at? m = j.at? m := by
  induction l generalizing j m with
  | nil => exact absurd ( List.nil_prefix) hlm
  | cons s l ih =>
    cases m with
    | nil => exact absurd ( List.nil_prefix) hml
    | cons t m =>
      cases hc : j.child? s with
      | none => rw [setAt_cons_none hc]
      | some c =>
        simp only [setAt_cons_some hc, at?_cons, child?_setChild]
        by_cases ht : t = s
        · subst ht
          rw [List.prefix_cons_inj] at hlm hml
          simp [hc, ih hlm hml]
        · simp [ht]

theorem setChild_self {j c : Json} {s : Step} (h : j.child? s = some c) :
    j.setChild s c = j := by
  cases j with
  | obj ms =>
    cases s with
    | key k => simp only [setChild, Members.put_get? h]
    | index i => rfl
  | arr xs =>
    cases s with
    | key k => rfl
    | index i =>
      obtain ⟨hi, he⟩ := List.getElem?_eq_some_iff.mp h
      simp only [setChild, ← he, List.set_getElem_self]
  | _ => cases s <;> rfl

theorem setAt_self {j v : Json} {l : Loc} (h : j.at? l = some v) : j.setAt l v = j := by
  induction l generalizing j with
  | nil => simpa using h.symm
  | cons s l ih =>
    cases hc : j.child? s with
    | none => exact setAt_cons_none hc l v
    | some c =>
      have hl : c.at? l = some v := by simpa [at?_cons, hc] using h
      rw [setAt_cons_some hc, ih hl, setChild_self hc]

theorem ordered_child? {j c : Json} {s : Step} (hj : j.ordered = true)
    (h : j.child? s = some c) : c.ordered = true := by
  cases s with
  | key k => exact ordered_get? hj (by rwa [child?_key] at h)
  | index i =>
    cases j with
    | arr xs => exact (ordered_arr xs).mp hj c (List.mem_of_getElem? h)
    | _ => simp [child?] at h

theorem ordered_at? {j c : Json} {l : Loc} (hj : j.ordered = true) (h : j.at? l = some c) :
    c.ordered = true := by
  induction l generalizing j with
  | nil =>
    obtain rfl : j = c := by simpa using h
    exact hj
  | cons s l ih =>
    obtain ⟨d, hd, hl⟩ := Option.bind_eq_some_iff.mp h
    exact ih (ordered_child? hj hd) hl

theorem ordered_setChild {j v : Json} (s : Step) (hj : j.ordered = true)
    (hv : v.ordered = true) : (j.setChild s v).ordered = true := by
  cases j with
  | obj ms =>
    cases s with
    | key k =>
      obtain ⟨hi, hm⟩ := (ordered_obj ms).mp hj
      refine (ordered_obj _).mpr ⟨hi.put k v, ?_⟩
      rintro ⟨l, w⟩ hl
      have hg := Members.get?_of_mem (hi.put k v).nodup hl
      rw [Members.get?_put] at hg
      split_ifs at hg with he
      · obtain ⟨_, _, rfl⟩ := Option.map_eq_some_iff.mp hg
        exact hv
      · exact hm _ (Members.mem_of_get? hg)
    | index i => exact hj
  | arr xs =>
    cases s with
    | key k => exact hj
    | index i =>
      refine (ordered_arr _).mpr fun x hx => ?_
      rcases List.mem_or_eq_of_mem_set hx with hx | rfl
      · exact (ordered_arr xs).mp hj x hx
      · exact hv
  | _ => cases s <;> exact hj

theorem ordered_setAt {j v : Json} (l : Loc) (hj : j.ordered = true) (hv : v.ordered = true) :
    (j.setAt l v).ordered = true := by
  induction l generalizing j with
  | nil => exact hv
  | cons s l ih =>
    cases hc : j.child? s with
    | none => rwa [setAt_cons_none hc]
    | some c =>
      rw [setAt_cons_some hc]
      exact ordered_setChild s hj (ih (ordered_child? hj hc))

/- Longest location inside a value. -/
mutual
def depth : Json → ℕ
  | .arr xs => depthElems xs
  | .obj ms => depthMembers ms
  | _ => 0

def depthElems : List Json → ℕ
  | [] => 0
  | x :: xs => max (depth x + 1) (depthElems xs)

def depthMembers : List (String × Json) → ℕ
  | [] => 0
  | (_, v) :: ms => max (depth v + 1) (depthMembers ms)
end

theorem depth_child?_lt {j c : Json} {s : Step} (h : j.child? s = some c) :
    c.depth < j.depth := by
  have hmembers (ms : List (String × Json)) (m : String × Json) (hm : m ∈ ms) :
      m.2.depth < depthMembers ms := by
    induction ms with
    | nil => simp at hm
    | cons n ms ih =>
      obtain ⟨k, v⟩ := n
      rcases List.mem_cons.mp hm with rfl | hm
      · simp [depthMembers]
      · exact (ih hm).trans_le (by simp [depthMembers])
  have helems (xs : List Json) (x : Json) (hx : x ∈ xs) : x.depth < depthElems xs := by
    induction xs with
    | nil => simp at hx
    | cons y xs ih =>
      rcases List.mem_cons.mp hx with rfl | hx
      · simp [depthElems]
      · exact (ih hx).trans_le (by simp [depthElems])
  cases j with
  | obj ms =>
    cases s with
    | key k => simpa [depth] using hmembers ms (k, c) (Members.mem_of_get? h)
    | index i => simp [child?] at h
  | arr xs =>
    cases s with
    | key k => simp [child?] at h
    | index i => simpa [depth] using helems xs c (List.mem_of_getElem? h)
  | _ => simp [child?] at h

theorem depth_at?_le {j c : Json} {l : Loc} (h : j.at? l = some c) :
    c.depth + l.length ≤ j.depth := by
  induction l generalizing j with
  | nil =>
    obtain rfl : j = c := by simpa using h
    simp
  | cons s l ih =>
    obtain ⟨d, hd, hl⟩ := Option.bind_eq_some_iff.mp h
    have := depth_child?_lt hd
    have := ih hl
    simp only [List.length_cons]
    omega

end Json
