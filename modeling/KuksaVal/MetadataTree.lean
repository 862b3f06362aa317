import KuksaVal.Json.DottedNames
import KuksaVal.Json.Keys
import KuksaVal.Overlays

/-! The tree of metadata and the members that a set changes: none comes in from a file, an overlay
or metadata without them, unless an overlay brings a default. -/
namespace VssDatabase
open Json

/-- No member at any depth is one that a set changes. -/
def lifeless (j : Json) : Bool := j.noKey isRuntime

/- An attribute with a default that filling in defaults comes to. -/
mutual
def declaresDefault : Json → Bool
  | .obj ms =>
      isAttribute (.obj ms) && (Members.get? "default" ms).isSome || declaresInChildren ms
  | _ => false

def declaresInChildren : List (String × Json) → Bool
  | [] => false
  | (k, v) :: ms => if k = "children" then declaresInContainer v else declaresInChildren ms

def declaresInContainer : Json → Bool
  | .obj ms => declaresInSubtrees ms
  | _ => false

def declaresInSubtrees : List (String × Json) → Bool
  | [] => false
  | (_, v) :: ms => declaresDefault v || declaresInSubtrees ms
end

section Defaults

/- Without a default nothing is filled in. -/
mutual
theorem defaultsInPlace_of_none : (j : Json) → declaresDefault j = false →
    (defaultsInPlace j).2 = j
  | .obj ms, h => by
    obtain ⟨hd, hc⟩ := Bool.or_eq_false_iff.mp h
    have hkeep := childrenInPlace_of_none ms hc
    unfold defaultsInPlace
    split_ifs with ha
    · have hnone : Members.get? "default" ms = none := by simpa [ha] using hd
      simp [hnone, hkeep]
    · simp [hkeep]
  | .null, _ | .bool _, _ | .int _, _ | .double _, _ | .str _, _ | .arr _, _ => rfl

theorem childrenInPlace_of_none : (ms : List (String × Json)) → declaresInChildren ms = false →
    (childrenInPlace ms).2 = ms
  | [], _ => rfl
  | (k, v) :: ms, h => by
    unfold declaresInChildren at h
    unfold childrenInPlace
    split_ifs at h ⊢
    · simp [containerInPlace_of_none v h]
    · simp [childrenInPlace_of_none ms h]

theorem containerInPlace_of_none : (j : Json) → declaresInContainer j = false →
    (containerInPlace j).2 = j
  | .obj ms, h => by simp [containerInPlace, subtreesInPlace_of_none ms h]
  | .null, _ | .bool _, _ | .int _, _ | .double _, _ | .str _, _ | .arr _, _ => rfl

theorem subtreesInPlace_of_none : (ms : List (String × Json)) → declaresInSubtrees ms = false →
    (subtreesInPlace ms).2 = ms
  | [], _ => rfl
  | (k, v) :: ms, h => by
    obtain ⟨hv, hms⟩ := Bool.or_eq_false_iff.mp h
    have hkeep := defaultsInPlace_of_none v hv
    unfold subtreesInPlace
    cases (defaultsInPlace v).1 <;> simp [hkeep, subtreesInPlace_of_none ms hms]
end

theorem insertOrAssign_self {j v : Json} {k : String} (hj : j.ordered = true)
    (h : j.get? k = some v) : j.insertOrAssign k v = j := by
  cases j with
  | obj ms =>
    have hi := ((ordered_obj ms).mp hj).1
    show Json.obj _ = Json.obj _
    congr 1
    apply (hi.assign k v).ext hi
    intro l
    rw [Members.get?_assign]
    split_ifs with hl
    · subst hl
      exact h.symm
    · rfl
  | _ => rfl

end Defaults

section Answers
variable {jp : JsonPath} {tree : Json}

theorem lifeless_textMember {key : String} (hk : isRuntime key = false) {j : Json}
    (h : lifeless j = true) : lifeless (textMember key j) = true := by
  unfold textMember
  cases j.get? key with
  | none => exact h
  | some v => exact noKey_insertOrAssign h hk rfl

theorem lifeless_jsonQuery (h : lifeless tree = true) {path : String} {node : Json}
    (hq : jsonQuery jp tree path = .ok [node]) : lifeless node = true := by
  obtain ⟨l, -, hl⟩ := JsonPath.query_eq_singleton_iff.mp (jsonQuery_eq_ok_iff.mp hq)
  exact noKey_at? h hl

/-- The query is an expression that was read, with names of nodes after it. -/
def Continues (jp : JsonPath) (formatPath : String) : Prop :=
  ∃ p f names, jp.compile p = .ok f ∧ (∀ n ∈ names, Identifier n) ∧
    formatPath = p ++ dottedNames names

theorem continues_root (jp : JsonPath) : Continues jp "$" :=
  ⟨"$", _, [], jp.bracketed [], by simp, rfl⟩

theorem Continues.children {formatPath : String} (h : Continues jp formatPath) :
    Continues jp (formatPath ++ "." ++ "children") := by
  obtain ⟨p, f, names, hf, hi, rfl⟩ := h
  refine ⟨p, f, names ++ ["children"], hf, ?_, (append_dottedNames_concat p names "children").symm⟩
  rw [List.forall_mem_append]
  exact ⟨hi, by decide⟩

theorem isRuntime_cases {k : String} (h : isRuntime k = true) :
    k = "value" ∨ k = "targetValue" ∨
      ∃ n rest, (n = "ts_s" ∨ n = "ts_ns") ∧ k = n ++ "-" ++ rest := by
  simp only [isRuntime, Bool.or_eq_true, decide_eq_true_eq, List.isPrefixOf_iff_prefix] at h
  rcases h with ((rfl | rfl) | ⟨t, ht⟩) | ⟨t, ht⟩
  · exact .inl rfl
  · exact .inr (.inl rfl)
  · exact .inr (.inr ⟨"ts_s", String.ofList t, .inl rfl, by simp [← String.toList_inj, ← ht]⟩)
  · exact .inr (.inr ⟨"ts_ns", String.ofList t, .inr rfl, by simp [← String.toList_inj, ← ht]⟩)

theorem isRuntime_timestamp {n : String} (hn : n = "ts_s" ∨ n = "ts_ns") (k : String) :
    isRuntime (n ++ "-" ++ k) = true := by
  rcases hn with rfl | rfl <;> simp [isRuntime]

/-- A name that a query finds a node by is none of a member that a set changes. -/
theorem token_not_runtime (hjp : jp.NamesMembers) (htree : lifeless tree = true)
    {formatPath token : String} (hc : Continues jp formatPath) {node : Json}
    (hq : jsonQuery jp tree (formatPath ++ "." ++ token) = .ok [node]) :
    isRuntime token = false ∧ Continues jp (formatPath ++ "." ++ token) := by
  obtain ⟨l, hm, hl⟩ := JsonPath.query_eq_singleton_iff.mp (jsonQuery_eq_ok_iff.mp hq)
  obtain ⟨g, hg, hgl⟩ := JsonPath.matches?_eq_ok hm
  refine ⟨?_, _, g, [], hg, by simp, by simp⟩
  obtain ⟨p, f, names, hf, hi, rfl⟩ := hc
  have hlg : l ∈ g tree := hgl ▸ List.mem_singleton_self l
  rw [← append_dottedNames_concat] at hg
  have hidentifier (hid : Identifier token) : isRuntime token = false := by
    have hall : ∀ n ∈ names ++ [token], Identifier n := by
      rw [List.forall_mem_append]
      exact ⟨hi, by simpa using hid⟩
    exact noKey_on_way htree hl
      (hjp.dotted hf _ hall hg tree l hlg token (List.mem_append_right _ List.mem_cons_self))
  by_contra hr
  rcases isRuntime_cases (by simpa using hr) with rfl | rfl | ⟨n, rest, hn, rfl⟩
  · exact hr (hidentifier (by decide))
  · exact hr (hidentifier (by decide))
  · have hid : Identifier n := by rcases hn with rfl | rfl <;> decide
    obtain ⟨k, hk⟩ := hjp.hyphenated hf names hi n rest hid hg tree l hlg
    have hno := noKey_on_way htree hl hk
    rw [isRuntime_timestamp hn] at hno
    cases hno

/-- Nodes of the tree under their names, none with a member that a set changes. -/
def NodesOnTheWay (parents : List (String × Json)) : Prop :=
  ∀ p ∈ parents, isRuntime p.1 = false ∧ lifeless p.2 = true

theorem lifeless_named {name : String} {j : Json} (hn : isRuntime name = false)
    (h : lifeless j = true) : lifeless (ofMembers [(name, j)]) = true :=
  (noKey_obj _).mpr fun m hm => by
    obtain rfl := List.mem_singleton.mp hm
    exact ⟨hn, h⟩

theorem metaDataNodes_onTheWay (hjp : jp.NamesMembers) (htree : lifeless tree = true)
    {tokens : List String} {formatPath : String} (hc : Continues jp formatPath)
    {parents ps : List (String × Json)} (hp : NodesOnTheWay parents)
    (h : metaDataNodes jp tree tokens formatPath parents = .ok (some ps)) : NodesOnTheWay ps := by
  induction tokens generalizing formatPath parents with
  | nil =>
    obtain rfl : parents = ps := by simpa [metaDataNodes] using h
    exact hp
  | cons token tokens ih =>
    unfold metaDataNodes at h
    simp only at h
    by_cases hskip : tokens ≠ [] ∧ token = "children"
    · rw [if_pos hskip] at h
      exact ih (hskip.2 ▸ hc.children) hp h
    rw [if_neg hskip] at h
    cases hq : jsonQuery jp tree (formatPath ++ "." ++ token) with
    | error e => simp [hq] at h
    | ok res =>
      rcases res with _ | ⟨node, _ | ⟨node', nodes⟩⟩
      · simp [hq] at h
      · simp only [hq] at h
        obtain ⟨htoken, hnext⟩ := token_not_runtime hjp htree hc hq
        have hnode : lifeless (textMember "type" (textMember "description" node)) = true :=
          lifeless_textMember (by decide)
            (lifeless_textMember (by decide) (lifeless_jsonQuery htree hq))
        split_ifs at h with hroom hlast
        · refine ih hnext ?_ h
          unfold NodesOnTheWay
          rw [List.forall_mem_append]
          exact ⟨hp, by simpa using ⟨htoken, lifeless_named htoken hnode⟩⟩
        · refine ih hnext ?_ h
          unfold NodesOnTheWay
          rw [List.forall_mem_append]
          exact ⟨hp, by simpa using ⟨htoken, hnode⟩⟩
      · simp [hq] at h

theorem lifeless_nestParents {parents : List (String × Json)} (hp : NodesOnTheWay parents)
    {result answer : Json} (hr : lifeless result = true)
    (h : nestParents result parents = .ok answer) : lifeless answer = true := by
  induction parents generalizing answer with
  | nil =>
    obtain rfl := Except.ok.inj h
    exact hr
  | cons p parents ih =>
    obtain ⟨name, node⟩ := p
    obtain ⟨⟨hname, hn⟩, hrest⟩ := List.forall_mem_cons.mp hp
    unfold nestParents at h
    cases hi : nestParents result parents with
    | error e => simp [hi] at h
    | ok inner =>
      simp only [hi, tryInsertOrAssign] at h
      cases ho : node.isObject with
      | false => simp [ho, Except.map] at h
      | true =>
        simp only [ho, ↓reduceIte, Except.map] at h
        obtain rfl := Except.ok.inj h
        exact lifeless_named hname (noKey_insertOrAssign hn children_not_runtime (ih hrest hi))

/-- What is answered from metadata without such members has none. -/
theorem lifeless_getMetaData (hjp : jp.NamesMembers) {db : VssDatabase}
    (h : lifeless db.metaTree = true) {path : VSSPath} {answer : Json}
    (hg : db.getMetaData jp path = .ok answer) : lifeless answer = true := by
  unfold getMetaData at hg
  cases hq : jp.queryPaths db.metaTree path.getJSONPath with
  | error e => simp [hq] at hg
  | ok jPaths =>
    cases jPaths with
    | nil =>
      obtain rfl : Json.int 0 = answer := by simpa [hq] using hg
      rfl
    | cons jPath jPaths =>
      simp only [hq] at hg
      cases hm : metaDataNodes jp db.metaTree (getVSSTokens jPath) "$" [] with
      | error e => simp [hm] at hg
      | ok parents =>
        cases parents with
        | none =>
          obtain rfl : Json.int 0 = answer := by simpa [hm] using hg
          rfl
        | some ps =>
          simp only [hm] at hg
          have hps := metaDataNodes_onTheWay hjp h (continues_root jp) (by simp [NodesOnTheWay]) hm
          refine lifeless_nestParents (fun p hp => hps p (List.mem_of_mem_dropLast hp)) ?_ hg
          cases hl : ps.getLast? with
          | none => rfl
          | some p => exact (hps p (List.mem_of_getLast? hl)).2

end Answers

section Runs

namespace TreeOperation

/-- Overlays and metadata bring none of the members that a set changes. -/
def Lifeless : TreeOperation → Prop
  | .setSignal _ _ _ _ => True
  | .updateJsonTree _ jsonTree => lifeless jsonTree.1 = true
  | .updateMetaData _ _ metadata => lifeless metadata.1 = true

/-- An overlay that gets as far as the trees declares no attribute with a default. -/
def BringsNoDefault : TreeOperation → Prop
  | .updateJsonTree channel jsonTree => updateOutcome channel jsonTree.1 = .ok () →
      ∀ vehicle, jsonTree.1.get? "Vehicle" = some vehicle → declaresDefault vehicle = false
  | _ => True

/-- Any number of operations on the trees read from a file without such members. -/
def lifelessSystem (jp : JsonPath) (nm : Numerics) : TransitionSystem VssDatabase TreeOperation where
  init db := ∃ file : Document, lifeless file.1 = true ∧ initJsonTree file.1 = .ok db
  step db op db' := db' = run jp nm db op

end TreeOperation

/-- Both trees are in order, and the one of metadata has no member that a set changes. -/
structure MetaTreeKept (db : VssDatabase) : Prop where
  data : db.dataTree.ordered = true
  metadata : db.metaTree.ordered = true
  lifeless : VssDatabase.lifeless db.metaTree = true

variable {jp : JsonPath} {nm : Numerics} {db : VssDatabase}

theorem metaTree_initJsonTree {file : Json} (h : initJsonTree file = .ok db) :
    db.metaTree = file := by
  unfold initJsonTree at h
  split at h
  · simp at h
  · rename_i vehicle _
    cases hd : applyDefaultValues vehicle with
    | error e => simp [hd, Except.map] at h
    | ok vehicle' =>
      rw [hd] at h
      obtain rfl := Except.ok.inj h
      rfl

theorem jsonTreeAfter_of_none {channel : KuksaChannel} {jsonTree : Document}
    (h : ∀ vehicle, jsonTree.1.get? "Vehicle" = some vehicle → declaresDefault vehicle = false) :
    jsonTreeAfter channel jsonTree.1 = jsonTree.1 := by
  unfold jsonTreeAfter
  split_ifs
  · rfl
  · cases hv : jsonTree.1.get? "Vehicle" with
    | none => rfl
    | some vehicle =>
      simp only [defaultsInPlace_of_none vehicle (h vehicle hv), insertOrAssign_self jsonTree.2 hv]

theorem MetaTreeKept.setSignal (h : db.MetaTreeKept) (ck : Clock) (path attr : String)
    (value : Document) :
    (db.setSignal jp nm ck (.fromVSS path) attr value.1).2.1.MetaTreeKept := by
  rcases setSignal_cases jp nm ck db (.fromVSS path) attr value.1 with
    ⟨e, he⟩ | ⟨-, data, he⟩ | ⟨db', l, node, stored, ⟨hr, -, hs, rfl⟩, he⟩
  · rw [he]
    exact h
  · rw [he]
    exact h
  · rw [he]
    have hn := ordered_at? h.data hr.located
    have hstored := ordered_storedNode ck attr hn (ordered_checkAndSanitizeType value.2 hs)
    exact ⟨ordered_setAt l h.data hstored, h.metadata, h.lifeless⟩

theorem MetaTreeKept.updateJsonTree (h : db.MetaTreeKept) {channel : KuksaChannel}
    {jsonTree : Document} (hlife : VssDatabase.lifeless jsonTree.1 = true)
    (hdefault : updateOutcome channel jsonTree.1 = .ok () →
      ∀ vehicle, jsonTree.1.get? "Vehicle" = some vehicle → declaresDefault vehicle = false) :
    (db.updateJsonTree channel jsonTree.1).2.MetaTreeKept := by
  rw [updateJsonTree_eq h.metadata h.data]
  simp only
  split_ifs with ho
  · rw [jsonTreeAfter_of_none (hdefault ho)]
    exact ⟨ordered_overlay h.data jsonTree.2, ordered_overlay h.metadata jsonTree.2,
      noKey_overlay h.lifeless hlife⟩
  · exact h

theorem noKey_mergeOrUpdate {p : String → Bool} {d source r : Json} (hd : d.noKey p = true)
    (hs : source.noKey p = true) (h : d.mergeOrUpdate source = .ok r) : r.noKey p = true := by
  cases d with
  | obj ms =>
    cases source with
    | obj ns =>
      obtain rfl := Except.ok.inj h
      exact noKey_foldl_assign hd hs
    | _ => simp [mergeOrUpdate] at h
  | _ => simp [mergeOrUpdate] at h

theorem MetaTreeKept.updateMetaData (h : db.MetaTreeKept) (channel : KuksaChannel) (path : String)
    {metadata : Document} (hlife : VssDatabase.lifeless metadata.1 = true) :
    (db.updateMetaData jp channel (.fromVSS path) metadata.1).2.MetaTreeKept := by
  rcases updateMetaData_cases jp db channel (.fromVSS path) metadata.1 with
    ⟨e, he⟩ | ⟨l, l', m, m', d, d', hm, hd, hm', hd', he⟩
  · rw [he]
    exact h
  · rw [he]
    have hmo := ordered_at? h.metadata hm.located
    have hdo := ordered_at? h.data hd.located
    exact ⟨ordered_setAt _ h.data (ordered_mergeOrUpdate hdo metadata.2 hd'),
      ordered_setAt _ h.metadata (ordered_mergeOrUpdate hmo metadata.2 hm'),
      noKey_setAt _ h.lifeless (noKey_mergeOrUpdate (noKey_at? h.lifeless hm.located) hlife hm')⟩

theorem MetaTreeKept.run (h : db.MetaTreeKept) {op : TreeOperation}
    (hop : op.Lifeless ∧ op.BringsNoDefault) : (TreeOperation.run jp nm db op).MetaTreeKept := by
  cases op with
  | setSignal ck path attr value => exact h.setSignal ck path attr value
  | updateJsonTree channel jsonTree => exact h.updateJsonTree hop.1 hop.2
  | updateMetaData channel path metadata => exact h.updateMetaData channel path hop.1

/-- As long as no overlay brings a default, the tree of metadata has no member that a set changes,
and neither has any answer to a request for metadata. -/
theorem metaTree_lifeless (jp : JsonPath) (nm : Numerics) (db : VssDatabase)
    (h : (TreeOperation.lifelessSystem jp nm).Reachable
      (fun _ op => op.Lifeless ∧ op.BringsNoDefault) db) :
    lifeless db.metaTree = true ∧
      (jp.NamesMembers →
        ∀ path answer, db.getMetaData jp path = .ok answer → lifeless answer = true) := by
  have hkept : db.MetaTreeKept := by
    refine h.invariant ?_ ?_
    · rintro db ⟨file, hlife, hf⟩
      have ha := agrees_initJsonTree hf
      refine ⟨ha.data, ha.metadata, ?_⟩
      rw [metaTree_initJsonTree hf]
      exact hlife
    · rintro db op _ hdb hop rfl
      exact hdb.run hop
  exact ⟨hkept.lifeless, fun hjp path answer hg => lifeless_getMetaData hjp hkept.lifeless hg⟩

end Runs

section Default

/-- A vehicle with an attribute. -/
def idTree : Document :=
  ⟨.obj [("Vehicle", .obj [("children", .obj [("Id", .obj [("datatype", .str "uint16"),
    ("type", .str "attribute")])]), ("type", .str "branch")])], by decide +kernel⟩

/-- An overlay that gives metadata to the attribute. -/
def idOverlay (key : String) : Json :=
  .obj [("Vehicle", .obj [("children", .obj [("Id", .obj [(key, .str "100"),
    ("type", .str "attribute")])])])]

def treeOwner : KuksaChannel := { modifyTree := true }

def describeId : TreeOperation :=
  .updateJsonTree treeOwner ⟨idOverlay "description", by decide +kernel⟩

def defaultId : TreeOperation := .updateJsonTree treeOwner ⟨idOverlay "default", by decide +kernel⟩

def idRun (op : TreeOperation) : VssDatabase :=
  TreeOperation.run .selectors .decimal ⟨idTree.1, idTree.1⟩ op

theorem idTree_init : initJsonTree idTree.1 = .ok ⟨idTree.1, idTree.1⟩ := by decide +kernel

/-- What a request for the metadata of the attribute is answered with. -/
def idAnswer (op : TreeOperation) : Json :=
  match (idRun op).getMetaData .selectors (.fromVSS "Vehicle.Id") with
  | .ok answer => answer
  | .error _ => .null

theorem metaTree_lifeless_description :
    (idRun describeId).metaTree ≠ idTree.1 ∧ lifeless (idRun describeId).metaTree = true ∧
      idAnswer describeId ≠ .int 0 ∧ lifeless (idAnswer describeId) = true := by
  have hreached : (TreeOperation.lifelessSystem .selectors .decimal).Reachable
      (fun _ op => op.Lifeless ∧ op.BringsNoDefault) (idRun describeId) := by
    refine .step (.init ⟨idTree, by decide +kernel, idTree_init⟩) (a := describeId) ⟨?_, ?_⟩ rfl
    · show lifeless (idOverlay "description") = true
      decide +kernel
    · rintro - vehicle hv
      obtain rfl := Option.some.inj hv
      decide +kernel
  have hanswer : (idRun describeId).getMetaData .selectors (.fromVSS "Vehicle.Id") =
      .ok (idAnswer describeId) := by decide +kernel
  obtain ⟨htree, hanswers⟩ := metaTree_lifeless .selectors .decimal (idRun describeId) hreached
  exact ⟨by decide +kernel, htree, by decide +kernel,
    hanswers JsonPath.selectors_namesMembers _ _ hanswer⟩

/-- The default of an overlay is a value in the tree of metadata, and in what is answered from
it. -/
theorem metaTree_not_lifeless :
    (TreeOperation.lifelessSystem .selectors .decimal).Reachable (fun _ op => op.Lifeless)
        (idRun defaultId) ∧
      lifeless (idRun defaultId).metaTree = false ∧
      (idRun defaultId).getMetaData .selectors (.fromVSS "Vehicle.Id") =
        .ok (idAnswer defaultId) ∧
      lifeless (idAnswer defaultId) = false := by
  refine ⟨?_, by decide +kernel, by decide +kernel, by decide +kernel⟩
  refine .step (.init ⟨idTree, by decide +kernel, idTree_init⟩) (a := defaultId) ?_ rfl
  show lifeless (idOverlay "default") = true
  decide +kernel

end Default

end VssDatabase
