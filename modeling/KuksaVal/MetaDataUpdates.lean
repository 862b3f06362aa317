import KuksaVal.TreeAgreement

/-! Updates of metadata between sets: an update reads its node in one critical section of the
database and writes it back in another. -/

/-- Metadata without values, timestamps and children. -/
structure StaticMetadata where
  json : Json
  static : ∀ k, (json.get? k).isSome → VssDatabase.isRuntime k = false ∧ k ≠ "children"

/-- An update between its critical sections: the copies of its node, and the locations in the
tree with the values at which they were found. -/
structure UpdateInFlight where
  path : String
  metadata : StaticMetadata
  copies : List Json × List Json
  located : List Json.Loc

/-- The value of an attribute and the two numbers of its timestamp. -/
structure StoredDatapoint where
  value : Option Json
  seconds : Option Json
  nanoseconds : Option Json
  deriving DecidableEq

/-- The database, the updates in flight, and what was last stored for each attribute of each
node, initially what is there. -/
structure MetaDataUpdates where
  db : VssDatabase
  inFlight : ℕ → Option UpdateInFlight := fun _ => none
  last : Json.Loc → String → StoredDatapoint

inductive UpdateStep where
  | set (ck : Clock) (path attr : String) (value : Json)
  | read (thread : ℕ) (channel : KuksaChannel) (path : String) (metadata : StaticMetadata)
  | write (thread : ℕ)

namespace MetaDataUpdates
open Json VssDatabase

/-- What a tree holds for an attribute of the node at a location. -/
def storedAt (tree : Json) (l : Loc) (attr : String) : StoredDatapoint :=
  ⟨tree.at? (l ++ [.key attr]), tree.at? (l ++ [.key ("ts_s-" ++ attr)]),
    tree.at? (l ++ [.key ("ts_ns-" ++ attr)])⟩

/-- What a set has stored, by the data that it publishes and returns. -/
def datapointStored (attr : String) (data : Json) : StoredDatapoint :=
  let member (k : String) := (data.get? "dp").bind (Json.get? k)
  ⟨member attr, member "ts_s", member "ts_ns"⟩

variable (jp : JsonPath) (nm : Numerics) (st : MetaDataUpdates)

/-- A set that stores publishes once; its location is the one that its path matches. -/
def lastAfter (path attr : String) (pubs : List Publication) : Loc → String → StoredDatapoint :=
  match jp.matches? st.db.dataTree (VSSPath.fromVSS path).jsonpath, pubs with
  | .ok [l], [p] => Function.update st.last l
      (Function.update (st.last l) attr (datapointStored attr p.data))
  | _, _ => st.last

/-- The critical section of a set. -/
def set (ck : Clock) (path attr : String) (value : Json) : MetaDataUpdates :=
  match st.db.setSignal jp nm ck (.fromVSS path) attr value with
  | (_, db, pubs) => { st with db := db, last := lastAfter jp st path attr pubs }

/-- The first critical section of an update, unless it is refused. -/
def read (thread : ℕ) (channel : KuksaChannel) (path : String) (metadata : StaticMetadata) :
    MetaDataUpdates :=
  if channel.authorizedToModifyTree = false then st
  else
    match st.db.readForUpdate jp (.fromVSS path) with
    | .error _ => st
    | .ok copies => { st with
        inFlight := Function.update st.inFlight thread (some ⟨path, metadata, copies,
          (jp.matches? st.db.dataTree (VSSPath.fromVSS path).jsonpath).toOption.getD []⟩) }

/-- The second critical section of an update, unless its copies cannot be merged with the
metadata. -/
def write (thread : ℕ) (u : UpdateInFlight) : MetaDataUpdates :=
  { st with
    inFlight := Function.update st.inFlight thread none
    db := match mergeNodes (.fromVSS u.path) u.metadata.json u.copies with
      | .error _ => st.db
      | .ok nodes => (st.db.writeBack jp (.fromVSS u.path) nodes).2 }

/-- Each thread has one update in flight at most. -/
def next : UpdateStep → Option MetaDataUpdates
  | .set ck path attr value => some (set jp nm st ck path attr value)
  | .read thread channel path metadata =>
      if (st.inFlight thread).isSome then none else some (read jp st thread channel path metadata)
  | .write thread => (st.inFlight thread).map (write jp st thread)

/-- All runs of any number of threads on a database. -/
def system (db : VssDatabase) : TransitionSystem MetaDataUpdates UpdateStep :=
  .ofNext { db := db, last := storedAt db.dataTree } (next jp nm)

/-- The path of a request names nodes, as every text without a quote and a backslash does. -/
def NamesNodes (path : String) : Prop :=
  ∀ l node, Resolves jp st.db.dataTree (.fromVSS path) l node → IsNodeLoc l

/-- Nothing is stored at or below the node of an update in flight, and its path goes on matching
that node, as every text without a quote and a backslash does. -/
def Undisturbed : UpdateStep → Prop
  | .set _ path attr _ => NamesNodes jp st path ∧ (attr = "value" ∨ attr = "targetValue") ∧
      ∀ l node, Resolves jp st.db.dataTree (.fromVSS path) l node →
        ∀ thread u m, st.inFlight thread = some u → u.located = [m] → ¬ m <+: l
  | .read _ _ path _ => NamesNodes jp st path
  | .write thread => ∀ u, st.inFlight thread = some u → ¬ VSSPath.Plain u.path →
      jp.matches? st.db.dataTree (VSSPath.fromVSS u.path).jsonpath = .ok u.located

variable {jp nm st} {st' : MetaDataUpdates} {ck : Clock} {tree node d d' : Json} {l m r : Loc}
  {k attr : String}

section Members

/-- Below a node there are its children. -/
theorem isNodeLoc_append (hl : IsNodeLoc l) (h : IsNodeLoc (l ++ r)) :
    r = [] ∨ ∃ r', r = .key "children" :: r' := by
  induction hl with
  | top s =>
    cases h with
    | top => exact .inl rfl
    | down _ h => exact .inr ⟨_, rfl⟩
  | down s _ ih =>
    cases h with
    | down _ h => exact ih h

theorem isRuntime_ne_children (hk : isRuntime k = true) : k ≠ "children" := by
  rintro rfl
  simp [children_not_runtime] at hk

/-- Replacing a node leaves the values and timestamps of the others above and beside it. -/
theorem at?_setAt_of_runtime (hm : IsNodeLoc m) (hl : IsNodeLoc l) (hne : ¬ m <+: l)
    (hk : isRuntime k = true) (v : Json) :
    (tree.setAt m v).at? (l ++ [Step.key k]) = tree.at? (l ++ [Step.key k]) := by
  apply at?_setAt_of_not_prefix
  · intro h
    rcases List.prefix_concat_iff.mp h with rfl | h
    · rcases isNodeLoc_append hl hm with h | ⟨r', h⟩
      · simp at h
      · obtain ⟨h, -⟩ := List.cons.inj h
        exact isRuntime_ne_children hk (Step.key.inj h)
    · exact hne h
  · rintro ⟨t, rfl⟩
    rw [List.append_assoc] at hm
    rcases isNodeLoc_append hl hm with h | ⟨r', h⟩
    · simp at h
    · obtain ⟨h, -⟩ := List.cons.inj h
      exact isRuntime_ne_children hk (Step.key.inj h)

/-- Nodes with the same children are the same below. -/
theorem at?_of_children (h : d'.get? "children" = d.get? "children") :
    d'.at? (.key "children" :: r) = d.at? (.key "children" :: r) := by
  rw [at?_cons, at?_cons, child?_key, child?_key, h]

theorem at?_key (j : Json) : j.at? [Step.key k] = j.get? k := by
  rw [at?_cons, child?_key]
  cases j.get? k <;> rfl

/-- Nodes that agree in a member and in the children agree in that member, and below. -/
theorem at?_of_get? (hl : IsNodeLoc l) (hr : IsNodeLoc (l ++ r))
    (hc : d'.get? "children" = d.get? "children") (hk : r = [] → d'.get? k = d.get? k) :
    d'.at? (r ++ [Step.key k]) = d.at? (r ++ [Step.key k]) := by
  rcases isNodeLoc_append hl hr with rfl | ⟨r', rfl⟩
  · rw [List.nil_append, at?_key, at?_key, hk rfl]
  · exact at?_of_children hc

end Members

section Shape

/-- The members that do not belong to the shape of a tree. -/
def notChildren (k : String) : Bool := k ≠ "children"

theorem shape_children : notChildren "children" = false := by decide

/-- The nodes of a tree without their members other than the children. -/
def shapeOf (tree : Json) : Json := prune notChildren tree

/-- Static metadata changes no runtime member, no children and no shape. -/
theorem mergeOrUpdate_static (metadata : StaticMetadata)
    (h : d.mergeOrUpdate metadata.json = .ok d') :
    (∀ k, isRuntime k = true ∨ k = "children" → d'.get? k = d.get? k) ∧
      pruneNode notChildren d' =
        pruneNode notChildren d := by
  obtain ⟨source, hstatic⟩ := metadata
  cases d with
  | obj ms =>
    cases source with
    | obj ns =>
      obtain rfl := Except.ok.inj h
      have hkeys (n : String × Json) (hn : n ∈ ns) : isRuntime n.1 = false ∧ n.1 ≠ "children" :=
        hstatic n.1 (Members.get?_isSome_iff.mpr (List.mem_map_of_mem hn))
      constructor
      · intro k hk
        have hnone : Members.get? k ns.reverse = none := by
          rw [Members.get?_eq_none_iff, List.map_reverse, List.mem_reverse]
          intro hmem
          obtain ⟨n, hn, rfl⟩ := List.mem_map.mp hmem
          obtain ⟨hr, hc⟩ := hkeys n hn
          rcases hk with hk | hk
          · simp [hr] at hk
          · exact hc hk
        show Members.get? k _ = Members.get? k ms
        rw [Members.get?_foldl_assign, hnone, Option.none_or]
      · show Json.obj _ = Json.obj _
        congr 1
        clear h hstatic
        induction ns generalizing ms with
        | nil => rfl
        | cons n ns ih =>
          rw [List.foldl_cons, ih _ fun n' hn => hkeys n' (List.mem_cons_of_mem _ hn)]
          exact pruneMembers_assign (decide_eq_true (hkeys n List.mem_cons_self).2) _ ms
    | _ => simp [mergeOrUpdate] at h
  | _ => simp [mergeOrUpdate] at h

end Shape

section Sets

/-- The members that a set of an attribute writes. -/
def writtenKeys (attr : String) : List String := [attr, "ts_s-" ++ attr, "ts_ns-" ++ attr]

theorem isRuntime_of_written (ha : attr = "value" ∨ attr = "targetValue")
    (hk : k ∈ writtenKeys attr) : isRuntime k = true := by
  have hall : (writtenKeys attr).all isRuntime = true := by rcases ha with rfl | rfl <;> decide
  exact List.all_eq_true.mp hall k hk

theorem get?_storedNode_of_not_written (hn : node.isObject = true) (v : Json)
    (hk : k ∉ writtenKeys attr) : (storedNode ck node attr v).get? k = node.get? k := by
  simp only [writtenKeys, List.mem_cons, List.not_mem_nil, or_false, not_or] at hk
  rw [get?_storedNode hn, if_neg hk.2.2, if_neg hk.2.1, if_neg hk.1]

variable (ck) in
/-- A set leaves every value and timestamp but its own. -/
theorem at?_set (hm : IsNodeLoc m) (hl : IsNodeLoc l) (hn : tree.at? m = some node)
    (ho : node.isObject = true) (ha : attr = "value" ∨ attr = "targetValue") (v : Json)
    (hk : isRuntime k = true) (hne : l = m → k ∉ writtenKeys attr) :
    (tree.setAt m (storedNode ck node attr v)).at? (l ++ [Step.key k]) =
      tree.at? (l ++ [Step.key k]) := by
  by_cases hp : m <+: l
  · obtain ⟨r, rfl⟩ := hp
    have hat : tree.at? (m ++ (r ++ [Step.key k])) = node.at? (r ++ [Step.key k]) := by
      rw [at?_append, hn]
      rfl
    rw [List.append_assoc, at?_setAt_append (by simp [hn]), hat]
    apply at?_of_get? hm hl
    · apply get?_storedNode_of_not_written ho
      intro hmem
      exact isRuntime_ne_children (isRuntime_of_written ha hmem) rfl
    · rintro rfl
      exact get?_storedNode_of_not_written ho v (hne (List.append_nil m))
  · exact at?_setAt_of_runtime hm hl hp hk _

variable (ck) in
theorem shapeOf_set (hm : IsNodeLoc m) (hn : tree.at? m = some node)
    (ha : attr = "value" ∨ attr = "targetValue") (v : Json) :
    shapeOf (tree.setAt m (storedNode ck node attr v)) = shapeOf tree := by
  apply prune_setAt_eq shape_children hm hn
  apply pruneNode_storedNode _ ck node ha v
  intro k hk
  exact decide_eq_true (isRuntime_ne_children hk)

/-- What the tree holds after a set, for its own attribute and for the others. -/
theorem storedAt_set (hm : IsNodeLoc m) (hl : IsNodeLoc l) (hn : tree.at? m = some node)
    (ho : node.isObject = true) (ha : attr = "value" ∨ attr = "targetValue") (v : Json)
    {attr' : String} (ha' : attr' = "value" ∨ attr' = "targetValue") :
    storedAt (tree.setAt m (storedNode ck node attr v)) l attr' =
      if l = m ∧ attr' = attr then ⟨some v, some (.int ck.seconds), some (.int ck.nanoseconds)⟩
      else storedAt tree l attr' := by
  split_ifs with h
  · obtain ⟨rfl, rfl⟩ := h
    have hkeys : attr' ≠ "ts_s-" ++ attr' ∧ attr' ≠ "ts_ns-" ++ attr' ∧
        "ts_s-" ++ attr' ≠ "ts_ns-" ++ attr' := by rcases ha with rfl | rfl <;> decide
    have hat (k : String) : (tree.setAt l (storedNode ck node attr' v)).at? (l ++ [Step.key k]) =
        (storedNode ck node attr' v).get? k := by
      rw [at?_setAt_append (by simp [hn]), at?_key]
    unfold storedAt
    rw [hat, hat, hat, get?_storedNode ho, get?_storedNode ho, get?_storedNode ho]
    simp [hkeys]
  · have hwritten (k : String) (hk : k ∈ writtenKeys attr') (heq : l = m) :
        k ∉ writtenKeys attr := by
      have hne : attr' ≠ attr := fun he => h ⟨heq, he⟩
      have hall : (writtenKeys attr').all fun k => decide (k ∉ writtenKeys attr) := by
        rcases ha with rfl | rfl <;> rcases ha' with rfl | rfl
        · exact absurd rfl hne
        · decide
        · decide
        · exact absurd rfl hne
      simpa using List.all_eq_true.mp hall k hk
    have hat (k : String) (hk : k ∈ writtenKeys attr') :=
      at?_set ck hm hl hn ho ha v (isRuntime_of_written ha' hk) (hwritten k hk)
    unfold storedAt
    rw [hat _ (by simp [writtenKeys]), hat _ (by simp [writtenKeys]), hat _ (by simp [writtenKeys])]

end Sets

section Invariant

/-- Two trees that hold the same values and timestamps, and have the same shape. -/
structure SameStored (tree tree' : Json) : Prop where
  shape : shapeOf tree' = shapeOf tree
  stored : ∀ l k, IsNodeLoc l → isRuntime k = true →
    tree'.at? (l ++ [.key k]) = tree.at? (l ++ [.key k])

/-- A copy that still holds what the tree holds at a location and below. -/
structure CopyOf (tree : Json) (l : Loc) (d : Json) : Prop where
  isNodeLoc : IsNodeLoc l
  shape : (tree.at? l).map (pruneNode notChildren) = some (pruneNode notChildren d)
  stored : ∀ r k, IsNodeLoc (l ++ r) → isRuntime k = true →
    d.at? (r ++ [.key k]) = tree.at? (l ++ (r ++ [.key k]))

/-- The tree holds what was last stored, and every update in flight has a true copy of it. -/
structure Kept (jp : JsonPath) (st : MetaDataUpdates) : Prop where
  last : ∀ l attr, IsNodeLoc l → attr = "value" ∨ attr = "targetValue" →
    storedAt st.db.dataTree l attr = st.last l attr
  copies : ∀ thread u m d, st.inFlight thread = some u → u.copies = ([m], [d]) →
    ∃ l, u.located = [l] ∧ CopyOf st.db.dataTree l d
  plain : ∀ thread u, st.inFlight thread = some u → VSSPath.Plain u.path →
    jp.matches? st.db.dataTree (VSSPath.fromVSS u.path).jsonpath = .ok u.located

theorem CopyOf.mono {tree' : Json} (h : CopyOf tree l d) (hs : SameStored tree tree') :
    CopyOf tree' l d := by
  refine ⟨h.isNodeLoc, ?_, ?_⟩
  · rw [map_at?_of_prune shape_children h.isNodeLoc hs.shape]
    exact h.shape
  · intro r k hr hk
    rw [h.stored r k hr hk, ← List.append_assoc]
    exact (hs.stored (l ++ r) k hr hk).symm

/-- Writing a copy back, with static metadata merged into it, changes nothing that is stored. -/
theorem CopyOf.sameStored (h : CopyOf tree l d) (metadata : StaticMetadata)
    (hd : d.mergeOrUpdate metadata.json = .ok d') : SameStored tree (tree.setAt l d') := by
  obtain ⟨hget, hshape⟩ := mergeOrUpdate_static metadata hd
  obtain ⟨node, hn, hnode⟩ := Option.map_eq_some_iff.mp h.shape
  refine ⟨prune_setAt_eq shape_children h.isNodeLoc hn (hshape.trans hnode.symm), ?_⟩
  intro l' k hl' hk
  by_cases hp : l <+: l'
  · obtain ⟨r, rfl⟩ := hp
    rw [List.append_assoc, at?_setAt_append (by simp [hn]), ← h.stored r k hl' hk]
    exact at?_of_get? h.isNodeLoc hl' (hget _ (.inr rfl)) fun _ => hget k (.inl hk)
  · exact at?_setAt_of_runtime h.isNodeLoc hl' hp hk d'

/-- A set that stores elsewhere leaves a copy true. -/
theorem CopyOf.set (h : CopyOf tree l d) (hm : IsNodeLoc m) (hn : tree.at? m = some node)
    (ho : node.isObject = true) (ha : attr = "value" ∨ attr = "targetValue") (hne : ¬ l <+: m)
    (v : Json) : CopyOf (tree.setAt m (storedNode ck node attr v)) l d := by
  have hshape := shapeOf_set ck hm hn ha v
  refine ⟨h.isNodeLoc, ?_, ?_⟩
  · rw [map_at?_of_prune shape_children h.isNodeLoc hshape]
    exact h.shape
  · intro r k hr hk
    rw [h.stored r k hr hk, ← List.append_assoc]
    refine (at?_set ck hm hr hn ho ha v hk ?_).symm
    rintro rfl
    exact absurd (List.prefix_append l r) hne

theorem lastAfter_nil (path attr : String) : lastAfter jp st path attr [] = st.last := by
  unfold lastAfter
  split
  · contradiction
  · rfl

/-- The data of a set carry what it has stored. -/
theorem datapointStored_publishedData (ho : node.isObject = true)
    (ha : attr = "value" ∨ attr = "targetValue") (path : VSSPath) (v : Json) :
    datapointStored attr (publishedData path attr v (storedNode ck node attr v)) =
      ⟨some v, some (.int ck.seconds), some (.int ck.nanoseconds)⟩ := by
  have hkeys : "ts_s-" ++ attr ≠ "ts_ns-" ++ attr ∧ attr ≠ "ts_s" ∧ attr ≠ "ts_ns" := by
    rcases ha with rfl | rfl <;> decide
  unfold datapointStored publishedData
  rw [get?_storedNode ho, get?_storedNode ho]
  simp [JsonResponses.get?_ofMembers, Members.get?_cons, hkeys]

theorem Kept.set (h : st.Kept jp) {path : String} {value : Json}
    (hok : Undisturbed jp st (.set ck path attr value)) :
    (MetaDataUpdates.set jp nm st ck path attr value).Kept jp := by
  obtain ⟨hnames, ha, hfree⟩ := hok
  unfold MetaDataUpdates.set
  rcases setSignal_cases jp nm ck st.db (.fromVSS path) attr value with
    ⟨e, he⟩ | ⟨-, data, he⟩ | ⟨db', m, node, stored, ⟨hr, hd, -, rfl⟩, he⟩
  · rw [he]
    simp only [lastAfter_nil]
    exact h
  · rw [he]
    simp only [lastAfter_nil]
    exact h
  · have hm := hnames m node hr
    have ho := isObject_of_contains hd
    have hshape := shapeOf_set ck hm hr.located ha stored
    rw [he]
    refine ⟨?_, ?_, ?_⟩
    · intro l attr' hl ha'
      simp only [storedAt_set hm hl hr.located ho ha stored ha', lastAfter, hr.unique,
        publicationOf, datapointStored_publishedData ho ha]
      split_ifs with heq
      · obtain ⟨rfl, rfl⟩ := heq
        simp
      · rw [h.last l attr' hl ha']
        by_cases hl' : l = m
        · subst hl'
          have hne : attr' ≠ attr := fun he => heq ⟨rfl, he⟩
          simp [hne]
        · simp [hl']
    · intro thread u m' d hu hc
      obtain ⟨l, hl, hcopy⟩ := h.copies thread u m' d hu hc
      exact ⟨l, hl, hcopy.set hm hr.located ho ha (hfree m node hr thread u l hu hl) stored⟩
    · intro thread u hu hp
      rw [← h.plain thread u hu hp]
      exact matches?_of_prune shape_children hp hshape

/-- What an update reads, where it is not refused. -/
theorem read_cases (jp : JsonPath) (st : MetaDataUpdates) (thread : ℕ) (channel : KuksaChannel)
    (path : String) (metadata : StaticMetadata) :
    read jp st thread channel path metadata = st ∨ ∃ copies ls,
      jp.matches? st.db.dataTree (VSSPath.fromVSS path).jsonpath = .ok ls ∧
      copies.2 = ls.filterMap st.db.dataTree.at? ∧
      read jp st thread channel path metadata = { st with
        inFlight := Function.update st.inFlight thread (some ⟨path, metadata, copies, ls⟩) } := by
  unfold read
  split_ifs
  · exact .inl rfl
  · cases hr : st.db.readForUpdate jp (.fromVSS path) with
    | error e => exact .inl rfl
    | ok copies =>
      obtain ⟨-, hq⟩ := readForUpdate_eq_ok hr
      have hq := jsonQuery_eq_ok_iff.mp hq
      cases hm : jp.matches? st.db.dataTree (VSSPath.fromVSS path).jsonpath with
      | error e => simp [JsonPath.query, hm, Except.map] at hq
      | ok ls =>
        rw [JsonPath.query_of_matches hm] at hq
        exact .inr ⟨copies, ls, rfl, (Except.ok.inj hq).symm, rfl⟩

theorem Kept.read (h : st.Kept jp) {thread : ℕ} {channel : KuksaChannel} {path : String}
    {metadata : StaticMetadata}
    (hok : Undisturbed jp st (.read thread channel path metadata)) :
    (MetaDataUpdates.read jp st thread channel path metadata).Kept jp := by
  rcases read_cases jp st thread channel path metadata with he | ⟨copies, ls, hm, hq, he⟩
  · rw [he]
    exact h
  · rw [he]
    refine ⟨h.last, ?_, ?_⟩
    · intro thread' u m' d hu hc
      simp only [Function.update_apply] at hu
      split_ifs at hu with ht
      · obtain rfl := Option.some.inj hu
        have hd : copies.2 = [d] := congrArg Prod.snd hc
        have hquery : jp.query st.db.dataTree (VSSPath.fromVSS path).jsonpath = .ok [d] := by
          rw [JsonPath.query_of_matches hm, ← hq, hd]
        obtain ⟨l, hl, hat⟩ := JsonPath.query_eq_singleton_iff.mp hquery
        obtain rfl := Except.ok.inj (hm.symm.trans hl)
        refine ⟨l, rfl, hok l d ⟨hl, hat⟩, by rw [hat]; rfl, ?_⟩
        intro r k _ _
        have hbelow : st.db.dataTree.at? (l ++ (r ++ [Step.key k])) = d.at? (r ++ [Step.key k]) := by
          rw [at?_append, hat]
          rfl
        exact hbelow.symm
      · exact h.copies thread' u m' d hu hc
    · intro thread' u hu hp
      simp only [Function.update_apply] at hu
      split_ifs at hu with ht
      · obtain rfl := Option.some.inj hu
        exact hm
      · exact h.plain thread' u hu hp

theorem Kept.write (h : st.Kept jp) {thread : ℕ} {u : UpdateInFlight}
    (hu : st.inFlight thread = some u) (hok : Undisturbed jp st (.write thread)) :
    (MetaDataUpdates.write jp st thread u).Kept jp := by
  have hsame : SameStored st.db.dataTree (MetaDataUpdates.write jp st thread u).db.dataTree := by
    have hrefl : SameStored st.db.dataTree st.db.dataTree := ⟨rfl, fun _ _ _ _ => rfl⟩
    have hmatch : jp.matches? st.db.dataTree (VSSPath.fromVSS u.path).jsonpath =
        .ok u.located := by
      by_cases hp : VSSPath.Plain u.path
      · exact h.plain thread u hu hp
      · exact hok u hu hp
    unfold MetaDataUpdates.write
    cases hn : mergeNodes (.fromVSS u.path) u.metadata.json u.copies with
    | error e => exact hrefl
    | ok nodes =>
      obtain ⟨m', d, hc, -, hmerge⟩ := mergeNodes_eq_ok hn
      obtain ⟨l, hl, hcopy⟩ := h.copies thread u m' d hu hc
      obtain ⟨node, hat, -⟩ := Option.map_eq_some_iff.mp hcopy.shape
      have hres : Resolves jp st.db.dataTree (.fromVSS u.path) l node := ⟨hl ▸ hmatch, hat⟩
      simp only [writeBack, VSSPath.getJSONPath, hres.jsonReplace]
      split
      · exact hrefl
      · exact hcopy.sameStored u.metadata hmerge
  have hrest (thread' : ℕ) (u' : UpdateInFlight)
      (hu' : (MetaDataUpdates.write jp st thread u).inFlight thread' = some u') :
      st.inFlight thread' = some u' := by
    simp only [MetaDataUpdates.write, Function.update_apply] at hu'
    split_ifs at hu'
    exact hu'
  refine ⟨?_, ?_, ?_⟩
  · intro l attr hl ha
    have hat (k : String) (hk : k ∈ writtenKeys attr) :=
      hsame.stored l k hl (isRuntime_of_written ha hk)
    refine Eq.trans ?_ (h.last l attr hl ha)
    unfold storedAt
    rw [hat _ (by simp [writtenKeys]), hat _ (by simp [writtenKeys]), hat _ (by simp [writtenKeys])]
  · intro thread' u' m' d hu' hc
    obtain ⟨l, hl, hcopy⟩ := h.copies thread' u' m' d (hrest thread' u' hu') hc
    exact ⟨l, hl, hcopy.mono hsame⟩
  · intro thread' u' hu' hp
    rw [← h.plain thread' u' (hrest thread' u' hu') hp]
    exact matches?_of_prune shape_children hp hsame.shape

theorem Kept.next (h : st.Kept jp) {step : UpdateStep} (hok : Undisturbed jp st step)
    (hs : next jp nm st step = some st') : st'.Kept jp := by
  cases step with
  | set ck path attr value =>
    obtain rfl := Option.some.inj hs
    exact h.set hok
  | read thread channel path metadata =>
    simp only [MetaDataUpdates.next] at hs
    split_ifs at hs
    obtain rfl := Option.some.inj hs
    exact h.read hok
  | write thread =>
    obtain ⟨u, hu, rfl⟩ := Option.map_eq_some_iff.mp hs
    exact h.write hu hok

end Invariant

/-- Where nothing is stored at or below the node of an update in flight, every attribute of
every node holds what was last stored for it. -/
theorem storedAt_eq_last (jp : JsonPath) (nm : Numerics) (db : VssDatabase) (st : MetaDataUpdates)
    (h : (system jp nm db).Reachable (Undisturbed jp) st) (l : Loc) (attr : String)
    (hl : IsNodeLoc l) (ha : attr = "value" ∨ attr = "targetValue") :
    storedAt st.db.dataTree l attr = st.last l attr := by
  have hkept : st.Kept jp := by
    refine h.invariant ?_ ?_
    · rintro _ rfl
      refine ⟨fun _ _ _ _ => rfl, ?_, ?_⟩ <;> simp
    · intro st step st' hi hok hs
      exact hi.next hok hs
  exact hkept.last l attr hl ha

section Branch
open VssCommandProcessor

/-- A new description. -/
def described : StaticMetadata where
  json := .obj [("description", .str "On-board data")]
  static k hk := by
    obtain ⟨m, hm, rfl⟩ := List.mem_map.mp (Members.get?_isSome_iff.mp hk)
    obtain rfl := List.mem_singleton.mp hm
    decide

def treeEditor : KuksaChannel := { modifyTree := true }

def speedSet : UpdateStep := .set midnight "Vehicle.OBD.Speed" "value" (.int 5)

def branchRead : UpdateStep := .read 0 treeEditor "Vehicle.OBD" described

/-- The database after these steps. -/
def updatesAfter (steps : List UpdateStep) : MetaDataUpdates :=
  TransitionSystem.after { db := ⟨speedTree, speedTree⟩, last := storedAt speedTree }
    (next .selectors .decimal) steps

theorem namesNodes_plain {path : String} (hp : VSSPath.Plain path) : NamesNodes jp st path :=
  fun _ _ hr => hr.isNodeLoc hp

theorem storedAt_eq_last_speed : ∃ st₁ st₂ st₃,
    next .selectors .decimal (updatesAfter []) speedSet = some st₁ ∧
    next .selectors .decimal st₁ branchRead = some st₂ ∧
    next .selectors .decimal st₂ (.write 0) = some st₃ ∧
      storedAt st₃.db.dataTree (VSSPath.nodeLoc ["Vehicle", "OBD", "Speed"]) "value" =
        st₃.last (VSSPath.nodeLoc ["Vehicle", "OBD", "Speed"]) "value" := by
  have hrun : ((next .selectors .decimal (updatesAfter []) speedSet).bind fun st =>
      (next .selectors .decimal st branchRead).bind fun st =>
        (st.inFlight 0).map UpdateInFlight.path) = some "Vehicle.OBD" := by decide +kernel
  obtain ⟨st₁, h₁, hrun⟩ := Option.bind_eq_some_iff.mp hrun
  obtain ⟨st₂, h₂, hrun⟩ := Option.bind_eq_some_iff.mp hrun
  obtain ⟨u, hu, hpath⟩ := Option.map_eq_some_iff.mp hrun
  have h₃ : next .selectors .decimal st₂ (.write 0) = some (write .selectors st₂ 0 u) :=
    congrArg (Option.map _) hu
  refine ⟨st₁, st₂, _, h₁, h₂, h₃, storedAt_eq_last .selectors .decimal ⟨speedTree, speedTree⟩ _ ?_
    _ "value" (.down _ (.down _ (.top _))) (.inl rfl)⟩
  refine .step (.step (.step (.init rfl) ?_ h₁) ?_ h₂) ?_ h₃
  · refine ⟨namesNodes_plain (by decide), .inl rfl, ?_⟩
    intro l node _ thread u m hu
    simp at hu
  · exact namesNodes_plain (by decide)
  · intro u' hu' hp
    obtain rfl := Option.some.inj (hu.symm.trans hu')
    rw [hpath] at hp
    exact absurd (by decide) hp

/-- A set of the speed between the critical sections of an update of the branch. -/
def lostSteps : List UpdateStep := [branchRead, speedSet, .write 0]

/-- The value of a set is lost when the copy of the branch is written back. -/
theorem lost_update : ¬ ∀ (jp : JsonPath) (nm : Numerics) (db : VssDatabase)
    (st : MetaDataUpdates), (system jp nm db).Reachable TransitionSystem.Any st →
      ∀ l attr, IsNodeLoc l → attr = "value" ∨ attr = "targetValue" →
        storedAt st.db.dataTree l attr = st.last l attr := by
  intro h
  have hlast := h .selectors .decimal ⟨speedTree, speedTree⟩ (updatesAfter lostSteps)
    (TransitionSystem.after_reachable lostSteps fun _ _ _ => trivial)
    (VSSPath.nodeLoc ["Vehicle", "OBD", "Speed"]) "value"
    (.down _ (.down _ (.top _))) (.inl rfl)
  have hlost : storedAt (updatesAfter lostSteps).db.dataTree
      (VSSPath.nodeLoc ["Vehicle", "OBD", "Speed"]) "value" ≠
        (updatesAfter lostSteps).last (VSSPath.nodeLoc ["Vehicle", "OBD", "Speed"]) "value" := by
    decide +kernel
  exact hlost hlast

end Branch

end MetaDataUpdates
