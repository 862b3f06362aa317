import KuksaVal.RuntimeMembers

/-! What the operations do to a pruned tree: assigning deleted members, merging into a node and
overlaying a tree act on what is left alone. -/
namespace VssDatabase
open Json

variable {del : String → Bool}

section Members

theorem pruneMembers_keys (ms : List (String × Json)) :
    (pruneMembers del ms).map Prod.fst = (ms.map Prod.fst).filter fun k => !del k := by
  induction ms with
  | nil => rfl
  | cons m ms ih =>
    obtain ⟨k, v⟩ := m
    unfold pruneMembers
    by_cases hk : del k = true <;> simp [hk, ih]

theorem increasing_pruneMembers {ms : List (String × Json)} (h : Members.Increasing ms) :
    Members.Increasing (pruneMembers del ms) := by
  unfold Members.Increasing
  rw [pruneMembers_keys]
  exact List.Pairwise.filter _ h

theorem increasing_pruneNodes {ms : List (String × Json)} (h : Members.Increasing ms) :
    Members.Increasing (pruneNodes del ms) := by
  have hk : (pruneNodes del ms).map Prod.fst = ms.map Prod.fst := by
    rw [pruneNodes_eq]
    simp
  unfold Members.Increasing
  rwa [hk]

/-- Two nodes are pruned to the same when the members that are kept are the same, and their
children are pruned to the same. -/
theorem pruneMembers_eq_iff (hdel : del "children" = false) {ms ns : List (String × Json)} (hm : Members.Increasing ms)
    (hn : Members.Increasing ns) : pruneMembers del ms = pruneMembers del ns ↔
      (∀ k, del k = false → k ≠ "children" → Members.get? k ms = Members.get? k ns) ∧
      (Members.get? "children" ms).map (prune del) =
        (Members.get? "children" ns).map (prune del) := by
  constructor
  · intro h
    have hk (k : String) := congrArg (Members.get? k) h
    simp only [get?_pruneMembers] at hk
    constructor
    · intro k hr hc
      simpa [hr, hc] using hk k
    · simpa [hdel] using hk "children"
  · rintro ⟨ho, hc⟩
    apply (increasing_pruneMembers hm).ext (increasing_pruneMembers hn)
    intro k
    rw [get?_pruneMembers, get?_pruneMembers]
    split_ifs with hr hk
    · rfl
    · rw [hk, hc]
    · exact ho k (by simpa using hr) hk

theorem pruneNodes_eq_iff {ms ns : List (String × Json)} (hm : Members.Increasing ms)
    (hn : Members.Increasing ns) : pruneNodes del ms = pruneNodes del ns ↔
      ∀ k, (Members.get? k ms).map (pruneNode del) = (Members.get? k ns).map (pruneNode del) := by
  constructor
  · intro h k
    rw [← get?_pruneNodes, h, get?_pruneNodes]
  · intro h
    apply (increasing_pruneNodes hm).ext (increasing_pruneNodes hn)
    intro k
    rw [get?_pruneNodes, get?_pruneNodes, h]

theorem pruneMembers_assign {k : String} (hk : del k = true) (v : Json)
    (ms : List (String × Json)) : pruneMembers del (Members.assign k v ms) = pruneMembers del ms := by
  induction ms with
  | nil => simp [Members.assign, pruneMembers, hk]
  | cons m ms ih =>
    obtain ⟨l, w⟩ := m
    unfold Members.assign
    split_ifs with hlt heq
    · simp [pruneMembers, hk]
    · subst heq
      simp [pruneMembers, hk]
    · simp only [pruneMembers, ih]

theorem pruneNode_insertOrAssign {k : String} (hk : del k = true) (j v : Json) :
    pruneNode del (j.insertOrAssign k v) = pruneNode del j := by
  cases j with
  | obj ms =>
    show Json.obj _ = Json.obj _
    rw [pruneMembers_assign hk]
  | _ => rfl

/-- A set changes runtime members alone. -/
theorem pruneNode_storedNode (hdel : ∀ k, isRuntime k = true → del k = true) (ck : Clock)
    (node : Json) {attr : String} (ha : attr = "value" ∨ attr = "targetValue") (value : Json) :
    pruneNode del (storedNode ck node attr value) = pruneNode del node := by
  have h1 : isRuntime attr = true := by rcases ha with rfl | rfl <;> decide
  have h2 : isRuntime ("ts_s" ++ ("-" ++ attr)) = true := by rcases ha with rfl | rfl <;> decide
  have h3 : isRuntime ("ts_ns" ++ ("-" ++ attr)) = true := by rcases ha with rfl | rfl <;> decide
  unfold storedNode JsonResponses.addTimeStampToJSON
  rw [pruneNode_insertOrAssign (hdel _ h3), pruneNode_insertOrAssign (hdel _ h2),
    pruneNode_insertOrAssign (hdel _ h1)]

end Members

section Merge

theorem isObject_pruneNode (j : Json) : (pruneNode del j).isObject = j.isObject := by
  cases j <;> rfl

/-- Merging into nodes that are pruned to the same gives such nodes again, or fails on both. -/
theorem pruneNode_mergeOrUpdate (hdel : del "children" = false) {d m : Json} (source : Json)
    (hd : d.ordered = true)
    (hm : m.ordered = true) (h : pruneNode del d = pruneNode del m) :
    (d.mergeOrUpdate source).map (pruneNode del) = (m.mergeOrUpdate source).map (pruneNode del) := by
  have ho : d.isObject = m.isObject := by
    rw [← isObject_pruneNode d, h, isObject_pruneNode]
  cases d with
  | obj ms =>
    cases m with
    | obj ms' =>
      cases source with
      | obj ns =>
        have hi := ((ordered_obj ms).mp hd).1
        have hi' := ((ordered_obj ms').mp hm).1
        obtain ⟨hk, hc⟩ := (pruneMembers_eq_iff hdel hi hi').mp (Json.obj.inj h)
        simp only [mergeOrUpdate, Except.map, pruneNode, Except.ok.injEq, Json.obj.injEq]
        rw [pruneMembers_eq_iff hdel (hi.foldl_assign ns) (hi'.foldl_assign ns)]
        constructor
        · intro k hr hne
          rw [Members.get?_foldl_assign, Members.get?_foldl_assign, hk k hr hne]
        · rw [Members.get?_foldl_assign, Members.get?_foldl_assign]
          cases Members.get? "children" ns.reverse with
          | none => simpa using hc
          | some c => rfl
      | _ => rfl
    | _ => simp [isObject] at ho
  | _ =>
    cases m with
    | obj ms' => simp [isObject] at ho
    | _ => rfl

theorem ordered_mergeOrUpdate {d source r : Json} (hd : d.ordered = true)
    (hs : source.ordered = true) (h : d.mergeOrUpdate source = .ok r) : r.ordered = true := by
  cases d with
  | obj ms =>
    cases source with
    | obj ns =>
      obtain rfl := Except.ok.inj h
      obtain ⟨hi, hm⟩ := (ordered_obj ms).mp hd
      obtain ⟨hj, hn⟩ := (ordered_obj ns).mp hs
      refine (ordered_obj _).mpr ⟨hi.foldl_assign ns, ?_⟩
      rintro ⟨k, v⟩ hk
      have hg := Members.get?_of_mem (hi.foldl_assign ns).nodup hk
      rw [Members.get?_foldl_assign, Members.get?_reverse hj.nodup] at hg
      rcases Option.or_eq_some_iff.mp hg with hg | ⟨-, hg⟩
      · exact hn _ (Members.mem_of_get? hg)
      · exact hm _ (Members.mem_of_get? hg)
    | _ => simp [mergeOrUpdate] at h
  | _ => simp [mergeOrUpdate] at h

end Merge

section Overlay

theorem pruneNode_eq_obj {m : Json} {ms : List (String × Json)}
    (h : .obj ms = pruneNode del m) : ∃ ns, m = .obj ns ∧ ms = pruneMembers del ns := by
  cases m with
  | obj ns => exact ⟨ns, rfl, Json.obj.inj h⟩
  | _ => simp [pruneNode] at h

theorem prune_eq_obj {m : Json} {ms : List (String × Json)}
    (h : .obj ms = prune del m) : ∃ ns, m = .obj ns ∧ ms = pruneNodes del ns := by
  cases m with
  | obj ns => exact ⟨ns, rfl, Json.obj.inj h⟩
  | _ => simp [prune] at h

theorem prune_eq_arr {m : Json} {xs : List Json}
    (h : .arr xs = prune del m) : ∃ ys, m = .arr ys ∧ xs = pruneElems del ys := by
  cases m with
  | arr ys => exact ⟨ys, rfl, Json.arr.inj h⟩
  | _ => simp [prune] at h

theorem pruneElems_overlayElems {xs xs' : List Json} (ys : List Json)
    (ih : ∀ x ∈ xs, ∀ x' o : Json, x'.ordered = true → o.ordered = true →
      pruneNode del x = pruneNode del x' → pruneNode del (overlay x o) = pruneNode del (overlay x' o))
    (hx : ∀ x ∈ xs', x.ordered = true) (hy : ∀ y ∈ ys, y.ordered = true)
    (h : pruneElems del xs = pruneElems del xs') :
    pruneElems del (overlayElems xs ys) = pruneElems del (overlayElems xs' ys) := by
  induction xs generalizing xs' ys with
  | nil =>
    cases xs' with
    | nil => rfl
    | cons x' xs' => simp [pruneElems] at h
  | cons x xs ihx =>
    cases xs' with
    | nil => simp [pruneElems] at h
    | cons x' xs' =>
      obtain ⟨h1, h2⟩ := List.cons.inj h
      cases ys with
      | nil => simpa [overlayElems] using h
      | cons y ys =>
        have hrest := ihx ys (fun w hw => ih w (List.mem_cons_of_mem _ hw))
          (fun w hw => hx w (List.mem_cons_of_mem _ hw))
          (fun w hw => hy w (List.mem_cons_of_mem _ hw)) h2
        simp only [overlayElems, pruneElems]
        rw [ih x (by simp) x' y (hx x' (by simp)) (hy y (by simp)) h1, hrest]

/-- Where the members under a key agree after pruning, so do the overlaid ones. -/
theorem map_get?_overlay_congr {f : Json → Json} {k : String} {ms ms' ns : List (String × Json)}
    (hn : (ns.map Prod.fst).Nodup)
    (h : (Members.get? k ms).map f = (Members.get? k ms').map f)
    (hf : ∀ c c' w, Members.get? k ms = some c → Members.get? k ms' = some c' →
      Members.get? k ns = some w → f c = f c' → f (overlay c w) = f (overlay c' w)) :
    ((overlay (.obj ms) (.obj ns)).get? k).map f =
      ((overlay (.obj ms') (.obj ns)).get? k).map f := by
  rw [get?_overlay k ms hn, get?_overlay k ms' hn]
  cases hv : Members.get? k ms with
  | none =>
    rw [hv, Option.map_none, eq_comm, Option.map_eq_none_iff] at h
    rw [h]
  | some c =>
    rw [hv, Option.map_some] at h
    obtain ⟨c', hv', hc⟩ := Option.map_eq_some_iff.mp h.symm
    rw [hv']
    cases hw : Members.get? k ns with
    | none => simp [hc]
    | some w => simp [hf c c' w hv hv' hw hc.symm]

/-- An overlay acts on pruned nodes, and on pruned trees. -/
theorem prune_overlay (hdel : del "children" = false) (d : Json) (hd : d.ordered = true) :
    (∀ m o : Json, m.ordered = true → o.ordered = true → pruneNode del d = pruneNode del m →
        pruneNode del (overlay d o) = pruneNode del (overlay m o)) ∧
      ∀ m o : Json, m.ordered = true → o.ordered = true → prune del d = prune del m →
        prune del (overlay d o) = prune del (overlay m o) := by
  induction d with
  | obj ms ih =>
    obtain ⟨hi, hms⟩ := (ordered_obj ms).mp hd
    constructor
    · intro m o hm ho h
      obtain ⟨ms', rfl, he⟩ := pruneNode_eq_obj h
      obtain ⟨hi', hms'⟩ := (ordered_obj ms').mp hm
      obtain ⟨hk, hc⟩ := (pruneMembers_eq_iff hdel hi hi').mp he
      cases o with
      | obj ns =>
        have hj := ((ordered_obj ns).mp ho)
        have ht := ((ordered_obj _).mp (ordered_overlay hd ho)).1
        have ht' := ((ordered_obj _).mp (ordered_overlay hm ho)).1
        show Json.obj _ = Json.obj _
        congr 1
        refine (pruneMembers_eq_iff hdel ht ht').mpr ⟨fun k hr hne => ?_, ?_⟩
        · refine (get?_overlay k ms hj.1.nodup).trans
            (Eq.trans ?_ (get?_overlay k ms' hj.1.nodup).symm)
          rw [hk k hr hne]
        · refine map_get?_overlay_congr hj.1.nodup hc fun c c' w hv hv' hw heq => ?_
          have hcm := Members.mem_of_get? hv
          have hc'm := hms' _ (Members.mem_of_get? hv')
          exact (ih _ hcm (hms _ hcm)).2 c' w hc'm (hj.2 _ (Members.mem_of_get? hw)) heq
      | _ => rfl
    · intro m o hm ho h
      obtain ⟨ms', rfl, he⟩ := prune_eq_obj h
      obtain ⟨hi', hms'⟩ := (ordered_obj ms').mp hm
      have hk := (pruneNodes_eq_iff hi hi').mp he
      cases o with
      | obj ns =>
        have hj := ((ordered_obj ns).mp ho)
        have ht := ((ordered_obj _).mp (ordered_overlay hd ho)).1
        have ht' := ((ordered_obj _).mp (ordered_overlay hm ho)).1
        show Json.obj _ = Json.obj _
        congr 1
        refine (pruneNodes_eq_iff ht ht').mpr fun k => ?_
        refine map_get?_overlay_congr hj.1.nodup (hk k) fun c c' w hv hv' hw heq => ?_
        have hcm := Members.mem_of_get? hv
        have hc'm := hms' _ (Members.mem_of_get? hv')
        exact (ih _ hcm (hms _ hcm)).1 c' w hc'm (hj.2 _ (Members.mem_of_get? hw)) heq
      | _ => rfl
  | arr xs ih =>
    have hxs := (ordered_arr xs).mp hd
    constructor
    · intro m o _ _ h
      obtain rfl : Json.arr xs = m := by cases m <;> first | exact h | simp [pruneNode] at h
      rfl
    · intro m o hm ho h
      obtain ⟨xs', rfl, he⟩ := prune_eq_arr h
      cases o with
      | arr ys =>
        show Json.arr _ = Json.arr _
        rw [pruneElems_overlayElems ys (fun x hx => (ih x hx (hxs x hx)).1)
          ((ordered_arr xs').mp hm) ((ordered_arr ys).mp ho) he]
      | _ => rfl
  | _ =>
    constructor
    · intro m o _ _ h
      obtain rfl : _ = m := by cases m <;> first | exact h | simp [pruneNode] at h
      rfl
    · intro m o _ _ h
      obtain rfl : _ = m := by cases m <;> first | exact h | simp [prune] at h
      rfl

end Overlay

end VssDatabase
