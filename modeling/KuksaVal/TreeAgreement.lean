import KuksaVal.PrunedTrees
import KuksaVal.Runs
import KuksaVal.SetRequest

/-! Runs of the operations on the two trees, from the file they are read from. -/
namespace VssDatabase
open Json

section Defaults

/-- What filling in defaults does to the members of a node, of a tree or of children. -/
structure DefaultsFilled (metadata : List (String × Json) → List (String × Json))
    (ms ms' : List (String × Json)) : Prop where
  metadata : metadata ms' = metadata ms
  keys : ms'.map Prod.fst = ms.map Prod.fst
  ordered : (∀ m ∈ ms, m.2.ordered = true) → ∀ m ∈ ms', m.2.ordered = true

theorem DefaultsFilled.obj {metadata : List (String × Json) → List (String × Json)}
    {ms ms' : List (String × Json)} (h : DefaultsFilled metadata ms ms')
    (ho : (Json.obj ms).ordered = true) : (Json.obj ms').ordered = true := by
  obtain ⟨hi, hm⟩ := (ordered_obj ms).mp ho
  refine (ordered_obj ms').mpr ⟨?_, h.ordered hm⟩
  unfold Members.Increasing
  rw [h.keys]
  exact hi

mutual
theorem applyDefaultValues_metadata : (j j' : Json) → applyDefaultValues j = .ok j' →
    pruneNode isRuntime j' = pruneNode isRuntime j ∧ (j.ordered = true → j'.ordered = true)
  | .obj ms, j', h => by
    have hchildren (h : (applyToChildren ms).map .obj = .ok j') :
        pruneNode isRuntime j' = pruneNode isRuntime (.obj ms) ∧
          ((Json.obj ms).ordered = true → j'.ordered = true) := by
      cases hc : applyToChildren ms with
      | error e => simp [hc, Except.map] at h
      | ok ms' =>
        rw [hc] at h
        obtain rfl := Except.ok.inj h
        have hf := applyToChildren_metadata ms ms' hc
        exact ⟨congrArg Json.obj hf.metadata, hf.obj⟩
    unfold applyDefaultValues at h
    split_ifs at h
    · split at h
      · obtain rfl := Except.ok.inj h
        refine ⟨congrArg Json.obj (pruneMembers_assign (by decide) _ ms), fun ho => ?_⟩
        exact ordered_insertOrAssign (k := "value") ho (by rfl)
      · exact hchildren h
    · exact hchildren h
  | .null, j', h => by
    obtain rfl := Except.ok.inj h
    exact ⟨rfl, id⟩
  | .bool _, j', h => by
    obtain rfl := Except.ok.inj h
    exact ⟨rfl, id⟩
  | .int _, j', h => by
    obtain rfl := Except.ok.inj h
    exact ⟨rfl, id⟩
  | .double _, j', h => by
    obtain rfl := Except.ok.inj h
    exact ⟨rfl, id⟩
  | .str _, j', h => by
    obtain rfl := Except.ok.inj h
    exact ⟨rfl, id⟩
  | .arr _, j', h => by
    obtain rfl := Except.ok.inj h
    exact ⟨rfl, id⟩

theorem applyToChildren_metadata : (ms ms' : List (String × Json)) →
    applyToChildren ms = .ok ms' → DefaultsFilled (pruneMembers isRuntime) ms ms'
  | [], ms', h => by
    obtain rfl := Except.ok.inj h
    exact ⟨rfl, rfl, id⟩
  | (k, v) :: ms, ms', h => by
    unfold applyToChildren at h
    split_ifs at h with hk
    · cases hc : applyToContainer v with
      | error e => simp [hc, Except.map] at h
      | ok v' =>
        rw [hc] at h
        obtain rfl := Except.ok.inj h
        obtain ⟨hm, ho⟩ := applyToContainer_metadata v v' hc
        refine ⟨by simp [pruneMembers, hk, hm], rfl, fun hall => ?_⟩
        obtain ⟨hv, hms⟩ := List.forall_mem_cons.mp hall
        exact List.forall_mem_cons.mpr ⟨ho hv, hms⟩
    · cases hc : applyToChildren ms with
      | error e => simp [hc, Except.map] at h
      | ok ms' =>
        rw [hc] at h
        obtain rfl := Except.ok.inj h
        have hf := applyToChildren_metadata ms ms' hc
        refine ⟨by simp [pruneMembers, hk, hf.metadata], by simp [hf.keys], fun hall => ?_⟩
        obtain ⟨hv, hms⟩ := List.forall_mem_cons.mp hall
        exact List.forall_mem_cons.mpr ⟨hv, hf.ordered hms⟩

theorem applyToContainer_metadata : (j j' : Json) → applyToContainer j = .ok j' →
    prune isRuntime j' = prune isRuntime j ∧ (j.ordered = true → j'.ordered = true)
  | .obj ms, j', h => by
    unfold applyToContainer at h
    cases hc : applyToSubtrees ms with
    | error e => simp [hc, Except.map] at h
    | ok ms' =>
      rw [hc] at h
      obtain rfl := Except.ok.inj h
      have hf := applyToSubtrees_metadata ms ms' hc
      exact ⟨congrArg Json.obj hf.metadata, hf.obj⟩
  | .null, _, h | .bool _, _, h | .int _, _, h | .double _, _, h | .str _, _, h | .arr _, _, h => by
    simp [applyToContainer] at h

theorem applyToSubtrees_metadata : (ms ms' : List (String × Json)) →
    applyToSubtrees ms = .ok ms' → DefaultsFilled (pruneNodes isRuntime) ms ms'
  | [], ms', h => by
    obtain rfl := Except.ok.inj h
    exact ⟨rfl, rfl, id⟩
  | (k, v) :: ms, ms', h => by
    unfold applyToSubtrees at h
    cases hv : applyDefaultValues v with
    | error e => simp [hv] at h
    | ok v' =>
      cases hc : applyToSubtrees ms with
      | error e => simp [hv, hc, Except.map] at h
      | ok ms' =>
        simp only [hv, hc, Except.map] at h
        obtain rfl := Except.ok.inj h
        obtain ⟨hm, ho⟩ := applyDefaultValues_metadata v v' hv
        have hf := applyToSubtrees_metadata ms ms' hc
        refine ⟨by simp [pruneNodes, hm, hf.metadata], by simp [hf.keys], fun hall => ?_⟩
        obtain ⟨hv, hms⟩ := List.forall_mem_cons.mp hall
        exact List.forall_mem_cons.mpr ⟨ho hv, hf.ordered hms⟩
end

end Defaults

section Stored

theorem ordered_toJson {nm : Numerics} {dt : String} {t : NumType} (h : numTypeOf nm dt = some t)
    (c : t.Carrier) : (t.toJson c).ordered = true := by
  have hmem := Members.mem_of_get? h
  simp only [numTypes, List.mem_cons, Prod.mk.injEq, List.not_mem_nil, or_false] at hmem
  rcases hmem with ⟨-, rfl⟩ | ⟨-, rfl⟩ | ⟨-, rfl⟩ | ⟨-, rfl⟩ | ⟨-, rfl⟩ | ⟨-, rfl⟩ | ⟨-, rfl⟩ |
    ⟨-, rfl⟩ | ⟨-, rfl⟩ | ⟨-, rfl⟩ <;> rfl

theorem ordered_dispatchType {nm : Numerics} {checkArray : String → Except Exn Json}
    {meta_ val stored : Json} (ha : ∀ dt s, checkArray dt = .ok s → s = val)
    (hv : val.ordered = true) (h : dispatchType nm checkArray meta_ val = .ok stored) :
    stored.ordered = true := by
  unfold dispatchType at h
  split at h
  · simp at h
  · simp only at h
    split at h
    · rename_i t ht
      unfold checkNumTypes at h
      repeat' split at h
      all_goals first
        | (obtain rfl := Except.ok.inj h
           exact ordered_toJson ht _)
        | simp at h
    · split_ifs at h with hb hs harr
      · unfold checkBoolType at h
        simp only at h
        split_ifs at h
        · obtain rfl := Except.ok.inj h
          rfl
        · obtain rfl := Except.ok.inj h
          rfl
      · unfold checkStringType at h
        repeat' split at h
        all_goals first
          | (obtain rfl := Except.ok.inj h
             exact hv)
          | simp at h
      · rw [ha _ _ h]
        exact hv

theorem ordered_checkAndSanitizeType {nm : Numerics} {meta_ val stored : Json}
    (hv : val.ordered = true) (h : checkAndSanitizeType nm meta_ val = .ok stored) :
    stored.ordered = true := by
  cases val with
  | arr vs =>
    unfold checkAndSanitizeType at h
    refine ordered_dispatchType ?_ hv h
    intro dt s hs
    split at hs
    · simp at hs
    · exact (Except.ok.inj hs).symm
  | _ =>
    unfold checkAndSanitizeType at h
    refine ordered_dispatchType ?_ hv h
    intro dt s hs
    simp at hs

theorem ordered_storedNode (ck : Clock) {node value : Json} (attr : String)
    (hn : node.ordered = true) (hv : value.ordered = true) :
    (storedNode ck node attr value).ordered = true := by
  unfold storedNode JsonResponses.addTimeStampToJSON
  apply ordered_insertOrAssign _ rfl
  apply ordered_insertOrAssign _ rfl
  exact ordered_insertOrAssign hn hv

end Stored

/-- The three operations, with values as the parser builds them. -/
inductive TreeOperation where
  | setSignal (ck : Clock) (path attr : String) (value : Document)
  | updateJsonTree (channel : KuksaChannel) (jsonTree : Document)
  | updateMetaData (channel : KuksaChannel) (path : String) (metadata : Document)

namespace TreeOperation

/-- Requests name the attributes that can be set, and paths without quotes. -/
def WellFormed : TreeOperation → Prop
  | .setSignal _ path attr _ => VSSPath.Plain path ∧ (attr = "value" ∨ attr = "targetValue")
  | .updateJsonTree _ _ => True
  | .updateMetaData _ path _ => VSSPath.Plain path

variable (jp : JsonPath) (nm : Numerics)

/-- The trees after an operation, whether it succeeds or fails. -/
def run (db : VssDatabase) : TreeOperation → VssDatabase
  | .setSignal ck path attr value => (db.setSignal jp nm ck (.fromVSS path) attr value.1).2.1
  | .updateJsonTree channel jsonTree => (db.updateJsonTree channel jsonTree.1).2
  | .updateMetaData channel path metadata =>
      (db.updateMetaData jp channel (.fromVSS path) metadata.1).2

/-- Any number of operations on the trees read from a file. -/
def system : TransitionSystem VssDatabase TreeOperation where
  init db := ∃ file : Document, initJsonTree file.1 = .ok db
  step db op db' := db' = run jp nm db op

end TreeOperation

/-- Both trees have one metadata. -/
structure Agrees (db : VssDatabase) : Prop where
  data : db.dataTree.ordered = true
  metadata : db.metaTree.ordered = true
  agree : prune isRuntime db.dataTree = prune isRuntime db.metaTree

variable {jp : JsonPath} {nm : Numerics} {db : VssDatabase}

theorem agrees_initJsonTree {file : Document} (h : initJsonTree file.1 = .ok db) : db.Agrees := by
  unfold initJsonTree at h
  split at h
  · simp at h
  · rename_i vehicle hv
    rw [member_eq_ok] at hv
    cases hd : applyDefaultValues vehicle with
    | error e => simp [hd, Except.map] at h
    | ok vehicle' =>
      rw [hd] at h
      obtain rfl := Except.ok.inj h
      obtain ⟨hm, ho⟩ := applyDefaultValues_metadata vehicle vehicle' hd
      refine ⟨ordered_insertOrAssign file.2 (ho (ordered_get? file.2 hv)), file.2, ?_⟩
      obtain ⟨file, hfile⟩ := file
      cases file with
      | obj ms =>
        obtain ⟨hi, -⟩ := (ordered_obj ms).mp hfile
        show Json.obj _ = Json.obj _
        congr 1
        refine (pruneNodes_eq_iff (hi.assign "Vehicle" vehicle') hi).mpr fun k => ?_
        rw [Members.get?_assign]
        split_ifs with hk
        · subst hk
          have hv' : Members.get? "Vehicle" ms = some vehicle := hv
          simp [hv', hm]
        · rfl
      | _ => simp [get?] at hv

theorem Resolves.isNodeLoc {tree node : Json} {l : Loc} {p : String}
    (h : Resolves jp tree (.fromVSS p) l node) (hp : VSSPath.Plain p) : IsNodeLoc l := by
  have hu := h.unique
  rw [VSSPath.fromVSS_plain hp, JsonPath.matches?_renderPath, Except.ok.injEq] at hu
  apply isNodeLoc_of_select (List.map_eq_nil_iff.not.mpr (List.splitOn_ne_nil '/' _))
  show l ∈ select (VSSPath.selectors (VSSPath.gen1togen2 p)) tree
  rw [hu]
  exact List.mem_singleton_self l

/-- A plain path resolves alike in trees of one metadata. -/
theorem Resolves.of_metadataOf_eq {tree tree' node : Json} {l : Loc} {p : String}
    (h : Resolves jp tree (.fromVSS p) l node) (hp : VSSPath.Plain p)
    (he : prune isRuntime tree = prune isRuntime tree') :
    ∃ node', Resolves jp tree' (.fromVSS p) l node' ∧ pruneNode isRuntime node = pruneNode isRuntime node' := by
  have hat := map_at?_of_prune children_not_runtime (h.isNodeLoc hp) he.symm
  rw [h.located, Option.map_some] at hat
  obtain ⟨node', hn, hm⟩ := Option.map_eq_some_iff.mp hat
  refine ⟨node', ⟨?_, hn⟩, hm.symm⟩
  rw [matches?_of_prune children_not_runtime hp he.symm, h.unique]

theorem Agrees.setSignal (h : db.Agrees) (ck : Clock) {path attr : String} (value : Document)
    (hp : VSSPath.Plain path) (ha : attr = "value" ∨ attr = "targetValue") :
    (db.setSignal jp nm ck (.fromVSS path) attr value.1).2.1.Agrees := by
  rcases setSignal_cases jp nm ck db (.fromVSS path) attr value.1 with
    ⟨e, he⟩ | ⟨-, data, he⟩ | ⟨db', l, node, stored, ⟨hr, hd, hs, rfl⟩, he⟩
  · rw [he]
    exact h
  · rw [he]
    exact h
  · rw [he]
    have hn := ordered_at? h.data hr.located
    have hstored := ordered_checkAndSanitizeType value.2 hs
    refine ⟨ordered_setAt l h.data (ordered_storedNode ck attr hn hstored), h.metadata, ?_⟩
    exact (prune_setAt_eq children_not_runtime (hr.isNodeLoc hp) hr.located
      (pruneNode_storedNode (fun _ h => h) ck node ha stored)).trans h.agree

theorem updateTree_eq {s : Json} (hs : s.ordered = true) (t : Json) :
    updateTree s t = .ok (overlay s t) := by
  unfold updateTree
  rw [applyPatch_fromDiff hs]

theorem Agrees.overlay (h : db.Agrees) {jsonTree : Json} (ho : jsonTree.ordered = true) :
    Agrees ⟨Json.overlay db.dataTree jsonTree, Json.overlay db.metaTree jsonTree⟩ :=
  ⟨ordered_overlay h.data ho, ordered_overlay h.metadata ho,
    (prune_overlay children_not_runtime db.dataTree h.data).2 _ _ h.metadata ho h.agree⟩

theorem Agrees.updateJsonTree (h : db.Agrees) (channel : KuksaChannel) (jsonTree : Document) :
    (db.updateJsonTree channel jsonTree.1).2.Agrees := by
  unfold VssDatabase.updateJsonTree
  split_ifs
  · exact h
  · cases hw : jsonTree.1.get? "Vehicle" with
    | none =>
      simp only [updateTree_eq h.metadata, updateTree_eq h.data]
      exact h.overlay jsonTree.2
    | some vehicle =>
      cases hd : applyDefaultValues vehicle with
      | error e =>
        simp only [hd, Except.map]
        exact h
      | ok vehicle' =>
        have ho := (applyDefaultValues_metadata vehicle vehicle' hd).2 (ordered_get? jsonTree.2 hw)
        simp only [hd, Except.map, updateTree_eq h.metadata, updateTree_eq h.data]
        exact h.overlay (ordered_insertOrAssign jsonTree.2 ho)

theorem singleNode_eq_ok {path : VSSPath} {res : List Json} {node : Json}
    (h : singleNode path res = .ok node) : res = [node] := by
  unfold singleNode at h
  split at h
  · rw [Except.ok.inj h]
  · simp at h

theorem readForUpdate_eq_ok {path : VSSPath} {res : List Json × List Json}
    (h : readForUpdate jp db path = .ok res) :
    jsonQuery jp db.metaTree path.jsonpath = .ok res.1 ∧
      jsonQuery jp db.dataTree path.jsonpath = .ok res.2 := by
  unfold readForUpdate VSSPath.getJSONPath at h
  split at h
  · simp at h
  · split at h
    · simp at h
    · rename_i hm _ _ hd
      rw [← Except.ok.inj h]
      exact ⟨hm, hd⟩

theorem mergeNodes_eq_ok {path : VSSPath} {metadata : Json} {res : List Json × List Json}
    {nodes : Json × Json} (h : mergeNodes path metadata res = .ok nodes) :
    ∃ m d, res = ([m], [d]) ∧ m.mergeOrUpdate metadata = .ok nodes.1 ∧
      d.mergeOrUpdate metadata = .ok nodes.2 := by
  unfold mergeNodes at h
  split at h
  · simp at h
  · rename_i m hm
    split at h
    · simp at h
    · rename_i d hd
      split at h
      · simp at h
      · rename_i m' hm'
        cases hd' : d.mergeOrUpdate metadata with
        | error e => simp [hd', Except.map] at h
        | ok d' =>
          rw [hd'] at h
          obtain rfl := Except.ok.inj h
          refine ⟨m, d, ?_, hm', hd'⟩
          rw [← singleNode_eq_ok hm, ← singleNode_eq_ok hd]

/-- What an update of metadata does: nothing, or it replaces the node in both trees. -/
theorem updateMetaData_cases (jp : JsonPath) (db : VssDatabase) (channel : KuksaChannel)
    (path : VSSPath) (metadata : Json) :
    (∃ e, db.updateMetaData jp channel path metadata = (.error e, db)) ∨
    ∃ l l' m m' d d', Resolves jp db.metaTree path l m ∧ Resolves jp db.dataTree path l' d ∧
      m.mergeOrUpdate metadata = .ok m' ∧ d.mergeOrUpdate metadata = .ok d' ∧
      db.updateMetaData jp channel path metadata = (.ok (),
        ⟨db.dataTree.setAt l' d', db.metaTree.setAt l m'⟩) := by
  unfold updateMetaData
  split_ifs
  · exact Or.inl ⟨_, rfl⟩
  · cases hr : readForUpdate jp db path with
    | error e => exact Or.inl ⟨e, rfl⟩
    | ok res =>
      simp only
      cases hn : mergeNodes path metadata res with
      | error e => exact Or.inl ⟨e, rfl⟩
      | ok nodes =>
        obtain ⟨hqm, hqd⟩ := readForUpdate_eq_ok hr
        obtain ⟨m, d, rfl, hm', hd'⟩ := mergeNodes_eq_ok hn
        obtain ⟨l, hl⟩ := jsonQuery_singleton_iff.mp hqm
        obtain ⟨l', hl'⟩ := jsonQuery_singleton_iff.mp hqd
        refine Or.inr ⟨l, l', m, nodes.1, d, nodes.2, hl, hl', hm', hd', ?_⟩
        simp only [writeBack, VSSPath.getJSONPath, hl.jsonReplace, hl'.jsonReplace]

theorem Agrees.updateMetaData (h : db.Agrees) (channel : KuksaChannel) {path : String}
    (metadata : Document) (hp : VSSPath.Plain path) :
    (db.updateMetaData jp channel (.fromVSS path) metadata.1).2.Agrees := by
  rcases updateMetaData_cases jp db channel (.fromVSS path) metadata.1 with
    ⟨e, he⟩ | ⟨l, l', m, m', d, d', hm, hd, hm', hd', he⟩
  · rw [he]
    exact h
  · rw [he]
    obtain ⟨m₂, hm₂, hmd⟩ := hd.of_metadataOf_eq hp h.agree
    obtain ⟨rfl, rfl⟩ := hm.eq hm₂
    have hmo := ordered_at? h.metadata hm.located
    have hdo := ordered_at? h.data hd.located
    have hnode : pruneNode isRuntime d' = pruneNode isRuntime m' := by
      have hmerge := pruneNode_mergeOrUpdate children_not_runtime metadata.1 hdo hmo hmd
      rw [hm', hd'] at hmerge
      exact Except.ok.inj hmerge
    refine ⟨ordered_setAt _ h.data (ordered_mergeOrUpdate hdo metadata.2 hd'),
      ordered_setAt _ h.metadata (ordered_mergeOrUpdate hmo metadata.2 hm'), ?_⟩
    have hl := hd.isNodeLoc hp
    rw [setAt_prune children_not_runtime hl, setAt_prune children_not_runtime hl, hnode, h.agree]

theorem Agrees.run (h : db.Agrees) (op : TreeOperation) (hop : op.WellFormed) :
    (TreeOperation.run jp nm db op).Agrees := by
  cases op with
  | setSignal ck path attr value => exact h.setSignal ck value hop.1 hop.2
  | updateJsonTree channel jsonTree => exact h.updateJsonTree channel jsonTree
  | updateMetaData channel path metadata => exact h.updateMetaData channel metadata hop

/-- Whatever is set and updated, successfully or not, both trees have one metadata. -/
theorem trees_agree (jp : JsonPath) (nm : Numerics) (db : VssDatabase)
    (h : (TreeOperation.system jp nm).Reachable (fun _ op => op.WellFormed) db) :
    metadataOf db.dataTree = metadataOf db.metaTree := by
  have hagrees : db.Agrees := by
    refine h.invariant ?_ ?_
    · rintro db ⟨file, hf⟩
      exact agrees_initJsonTree hf
    · rintro db op _ hdb hop rfl
      exact hdb.run op hop
  exact hagrees.agree

section Speed
open VssCommandProcessor

def treeEditor : KuksaChannel := { modifyTree := true }

/-- The speed of the vehicle is set to 5, an overlay gives it a unit, and an update a bound. -/
def speedOperations : List TreeOperation :=
  [.setSignal midnight "Vehicle.OBD.Speed" "value" ⟨.int 5, rfl⟩,
    .updateJsonTree treeEditor ⟨.obj [("Vehicle", .obj [("children", .obj [("OBD", .obj [
      ("children", .obj [("Speed", .obj [("unit", .str "km/h")])])])])])], by decide +kernel⟩,
    .updateMetaData treeEditor "Vehicle.OBD.Speed" ⟨.obj [("max", .int 250)], by decide +kernel⟩]

def speedRun : VssDatabase :=
  speedOperations.foldl (TreeOperation.run .selectors .decimal) ⟨speedTree, speedTree⟩

theorem reachable_foldl {jp : JsonPath} {nm : Numerics} {db : VssDatabase}
    (h : (TreeOperation.system jp nm).Reachable (fun _ op => op.WellFormed) db)
    {ops : List TreeOperation} (hops : ∀ op ∈ ops, op.WellFormed) :
    (TreeOperation.system jp nm).Reachable (fun _ op => op.WellFormed)
      (ops.foldl (TreeOperation.run jp nm) db) := by
  induction ops generalizing db with
  | nil => exact h
  | cons op ops ih =>
    obtain ⟨hop, hops⟩ := List.forall_mem_cons.mp hops
    exact ih (.step h hop rfl) hops

theorem speedRun_reachable : (TreeOperation.system .selectors .decimal).Reachable
    (fun _ op => op.WellFormed) speedRun := by
  refine reachable_foldl (.init ⟨⟨speedTree, by decide +kernel⟩, by decide +kernel⟩) ?_
  have hplain : VSSPath.Plain "Vehicle.OBD.Speed" := by decide
  simp only [speedOperations, List.forall_mem_cons]
  exact ⟨⟨hplain, .inl rfl⟩, trivial, hplain, by simp⟩

/-- What the two trees hold at the speed after the run. -/
theorem trees_agree_speed :
    speedRun.dataTree.at? (VSSPath.nodeLoc ["Vehicle", "OBD", "Speed"]) =
        some (.obj [("datatype", .str "uint8"), ("max", .int 250), ("ts_ns-value", .int 0),
          ("ts_s-value", .int 0), ("type", .str "sensor"), ("unit", .str "km/h"),
          ("value", .int 5)]) ∧
      metadataOf speedRun.dataTree = metadataOf speedRun.metaTree :=
  ⟨by decide +kernel, trees_agree .selectors .decimal speedRun speedRun_reachable⟩

end Speed

end VssDatabase
