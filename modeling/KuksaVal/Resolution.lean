import KuksaVal.VssCommandProcessor

/-! What the checks and the store of the database say about the node that a path resolves
to. -/
namespace VssDatabase
open Json

/-- The query of a path matches exactly one location, and this is the node there. -/
structure Resolves (jp : JsonPath) (tree : Json) (path : VSSPath) (l : Loc) (node : Json) :
    Prop where
  unique : jp.matches? tree path.jsonpath = .ok [l]
  located : tree.at? l = some node

variable {jp : JsonPath} {nm : Numerics} {ck : Clock} {db : VssDatabase} {path : VSSPath}

theorem Resolves.eq {tree node node' : Json} {l l' : Loc} (h : Resolves jp tree path l node)
    (h' : Resolves jp tree path l' node') : l = l' ∧ node = node' := by
  obtain rfl : l = l' := by simpa [h.unique] using h'.unique
  exact ⟨rfl, Option.some.inj (h.located.symm.trans h'.located)⟩

/-- A plain path goes on resolving to a node whose content is replaced. -/
theorem Resolves.setAt {tree node : Json} {l : Loc} {p : String}
    (h : Resolves jp tree (.fromVSS p) l node) (hp : VSSPath.Plain p) (v : Json) :
    Resolves jp (tree.setAt l v) (.fromVSS p) l v := by
  have hu := h.unique
  rw [VSSPath.fromVSS_plain hp, JsonPath.matches?_renderPath, Except.ok.injEq] at hu
  have hl : l.length = (VSSPath.selectors (VSSPath.gen1togen2 p)).length :=
    select_length (hu ▸ List.mem_singleton_self l)
  refine ⟨?_, at?_setAt_self (by simp [h.located]) v⟩
  rw [VSSPath.fromVSS_plain hp, JsonPath.matches?_renderPath, select_setAt hl.ge, hu]

theorem jsonQuery_error_iff {tree : Json} {p : String} {e : Exn} :
    jsonQuery jp tree p = .error e ↔ ∃ msg, jp.compile p = .error msg ∧ e = .jsonpathError msg := by
  unfold jsonQuery
  cases hq : jp.query tree p with
  | error msg =>
    have hc := JsonPath.query_eq_error_iff.mp hq
    simp [Except.mapError, hc, eq_comm]
  | ok vs =>
    have hc (msg : String) : jp.compile p ≠ .error msg := fun hc => by
      simp [JsonPath.query_eq_error_iff.mpr hc] at hq
    simp [Except.mapError, hc]

theorem jsonQuery_eq_ok_iff {tree : Json} {p : String} {vs : List Json} :
    jsonQuery jp tree p = .ok vs ↔ jp.query tree p = .ok vs := by
  unfold jsonQuery
  cases jp.query tree p <;> simp [Except.mapError]

theorem jsonQuery_singleton_iff {tree node : Json} :
    jsonQuery jp tree path.jsonpath = .ok [node] ↔ ∃ l, Resolves jp tree path l node := by
  rw [jsonQuery_eq_ok_iff, JsonPath.query_eq_singleton_iff]
  exact ⟨fun ⟨l, hu, hn⟩ => ⟨l, hu, hn⟩, fun ⟨l, h⟩ => ⟨l, h.unique, h.located⟩⟩

theorem Resolves.query {tree node : Json} {l : Loc} (h : Resolves jp tree path l node) :
    jsonQuery jp tree path.jsonpath = .ok [node] :=
  jsonQuery_singleton_iff.mpr ⟨l, h⟩

theorem Resolves.jsonReplace {tree node : Json} {l : Loc} (h : Resolves jp tree path l node)
    (v : Json) : VssDatabase.jsonReplace jp tree path.jsonpath v = .ok (tree.setAt l v) := by
  simp [VssDatabase.jsonReplace, JsonPath.replace_singleton h.unique, Except.mapError]

theorem typeReads_iff {type : String} (ht : (type.toList.head?.any startsDump) = false)
    (node : Json) : typeReads type node = true ↔ node.get? "type" = some (.str type) := by
  unfold typeReads
  cases node.get? "type" with
  | none => simp
  | some t => simp [asString_eq_iff ht]

theorem isType_iff (type : String) (node : Json) :
    isType type node = true ↔ node.get? "type" = some (.str type) := by
  simp [isType]

/-- A node that can be set: a sensor or an actuator. -/
def IsSettable (node : Json) : Prop :=
  node.get? "type" = some (.str "sensor") ∨ node.get? "type" = some (.str "actuator")

/-- A node that can be subscribed to: a sensor, an actuator or an attribute. -/
def IsSignal (node : Json) : Prop :=
  IsSettable node ∨ node.get? "type" = some (.str "attribute")

instance (node : Json) : Decidable (IsSettable node) := inferInstanceAs (Decidable (_ ∨ _))

instance (node : Json) : Decidable (IsSignal node) := inferInstanceAs (Decidable (_ ∨ _))

theorem Resolves.pathExists {node : Json} {l : Loc} (h : Resolves jp db.dataTree path l node) :
    VssDatabase.pathExists jp db path = .ok true := by
  simp [VssDatabase.pathExists, VSSPath.getJSONPath, h.query, Except.map]

/-- A test of the one node that is found is passed by what the path resolves to. -/
theorem map_query_eq_true_iff {tree : Json} {test : Json → Bool} {check : List Json → Bool}
    (hone : ∀ node, check [node] = test node)
    (hother : ∀ vs, (∀ node, vs ≠ [node]) → check vs = false) :
    (jsonQuery jp tree path.jsonpath).map check = .ok true ↔
      ∃ l node, Resolves jp tree path l node ∧ test node = true := by
  constructor
  · intro h
    obtain ⟨vs, hq, hc⟩ : ∃ vs, jsonQuery jp tree path.jsonpath = .ok vs ∧ check vs = true := by
      cases hq : jsonQuery jp tree path.jsonpath with
      | error e => simp [hq, Except.map] at h
      | ok vs => exact ⟨vs, rfl, by simpa [hq, Except.map] using h⟩
    by_cases hn : ∃ node, vs = [node]
    · obtain ⟨node, rfl⟩ := hn
      obtain ⟨l, hr⟩ := jsonQuery_singleton_iff.mp hq
      exact ⟨l, node, hr, hone node ▸ hc⟩
    · rw [hother vs fun node he => hn ⟨node, he⟩] at hc
      simp at hc
  · rintro ⟨l, node, hr, ht⟩
    rw [hr.query, Except.map, hone, ht]

theorem pathIsWritable_eq_true_iff :
    pathIsWritable jp db path = .ok true ↔
      ∃ l node, Resolves jp db.dataTree path l node ∧ IsSettable node := by
  have hs (node : Json) :
      (typeReads "sensor" node || typeReads "actuator" node) = true ↔ IsSettable node := by
    rw [Bool.or_eq_true, typeReads_iff (by decide), typeReads_iff (by decide)]
    rfl
  simp only [← hs]
  apply map_query_eq_true_iff (fun _ => rfl)
  intro vs hvs
  split
  · exact absurd rfl (hvs _)
  · rfl

theorem pathIsReadable_eq_true_iff :
    pathIsReadable jp db path = .ok true ↔
      ∃ l node, Resolves jp db.dataTree path l node ∧ IsSignal node := by
  have hi (node : Json) :
      (isSensor node || isActor node || isAttribute node) = true ↔ IsSignal node := by
    simp [isSensor, isActor, isAttribute, isType_iff, IsSignal, IsSettable]
  simp only [← hi]
  apply map_query_eq_true_iff (fun _ => rfl)
  intro vs hvs
  split
  · exact absurd rfl (hvs _)
  · rfl

theorem Resolves.pathIsAttributable {node : Json} {l : Loc}
    (h : Resolves jp db.dataTree path l node) (attr : String) :
    VssDatabase.pathIsAttributable jp db path attr = .ok (decide
      (attr = "targetValue" ∧ node.get? "type" = some (.str "actuator") ∨ attr = "value")) := by
  have ht : typeReads "actuator" node = decide (node.get? "type" = some (.str "actuator")) := by
    rw [Bool.eq_iff_iff, decide_eq_true_iff]
    exact typeReads_iff (by decide) node
  simp [VssDatabase.pathIsAttributable, VSSPath.getJSONPath, h.query, Except.map, ht]

/-- The node after a set: the value, and the two numbers of its timestamp. -/
def storedNode (ck : Clock) (node : Json) (attr : String) (value : Json) : Json :=
  JsonResponses.addTimeStampToJSON ck (node.insertOrAssign attr value) ("-" ++ attr)

/-- The call of the publisher that goes with a set. -/
def publicationOf (path : VSSPath) (attr : String) (value stored : Json) : Publication :=
  ⟨path, ((stored.get? "datatype").map asString).getD "", attr,
    publishedData path attr value stored⟩

/-- What a set does that stores a value. -/
structure Stores (jp : JsonPath) (nm : Numerics) (ck : Clock) (db db' : VssDatabase)
    (path : VSSPath) (attr : String) (value : Json) (l : Loc) (node stored : Json) : Prop where
  resolves : Resolves jp db.dataTree path l node
  datatype : node.contains "datatype" = true
  sanitized : checkAndSanitizeType nm node value = .ok stored
  replaced : db' = { db with dataTree := db.dataTree.setAt l (storedNode ck node attr stored) }

/-- A set throws, or matches no single node and does nothing, or stores and publishes. -/
theorem setSignal_cases (jp : JsonPath) (nm : Numerics) (ck : Clock) (db : VssDatabase)
    (path : VSSPath) (attr : String) (value : Json) :
    (∃ e, setSignal jp nm ck db path attr value = (.error e, db, [])) ∨
    ((¬ ∃ l node, Resolves jp db.dataTree path l node) ∧
      ∃ data, setSignal jp nm ck db path attr value = (.ok data, db, [])) ∨
    ∃ db' l node stored, Stores jp nm ck db db' path attr value l node stored ∧
      setSignal jp nm ck db path attr value =
        (.ok (publishedData path attr stored (storedNode ck node attr stored)), db',
          [publicationOf path attr stored (storedNode ck node attr stored)]) := by
  unfold setSignal VSSPath.getJSONPath
  cases hq : jsonQuery jp db.dataTree path.jsonpath with
  | error e => exact Or.inl ⟨e, rfl⟩
  | ok vs =>
    have hnot (h : ∀ node, vs ≠ [node]) : ¬ ∃ l node, Resolves jp db.dataTree path l node := by
      rintro ⟨l, node, hr⟩
      exact h node (by simpa [hr.query] using hq.symm)
    match vs, hq, hnot with
    | [], hq, hnot => exact Or.inr (Or.inl ⟨hnot (by simp), _, rfl⟩)
    | _ :: _ :: _, hq, hnot => exact Or.inr (Or.inl ⟨hnot (by simp), _, rfl⟩)
    | [node], hq, hnot =>
      obtain ⟨l, hr⟩ := jsonQuery_singleton_iff.mp hq
      by_cases hd : node.contains "datatype" = true
      · cases hs : checkAndSanitizeType nm node value with
        | error e => exact Or.inl ⟨e, by simp [hd, hs]⟩
        | ok stored =>
          refine Or.inr (Or.inr ⟨_, l, node, stored, ⟨hr, hd, hs, rfl⟩, ?_⟩)
          simp only [hd, ↓reduceIte, hs, hr.jsonReplace]
          rfl
      · refine Or.inl ⟨.genException (path.getVSSPath ++ "is invalid for set"), ?_⟩
        simp [hd]

/-- A set of a path that resolves to a node of an admissible value does store it. -/
theorem setSignal_of_stores {db' : VssDatabase} {attr : String} {value node stored : Json}
    {l : Loc} (h : Stores jp nm ck db db' path attr value l node stored) :
    setSignal jp nm ck db path attr value =
      (.ok (publishedData path attr stored (storedNode ck node attr stored)), db',
        [publicationOf path attr stored (storedNode ck node attr stored)]) := by
  obtain ⟨hr, hd, hs, rfl⟩ := h
  simp only [setSignal, VSSPath.getJSONPath, hr.query, hd, ↓reduceIte, hs, hr.jsonReplace]
  rfl

/-- The members of the node after a set. -/
theorem get?_storedNode {node : Json} (hn : node.isObject = true) (attr : String) (value : Json)
    (k : String) : (storedNode ck node attr value).get? k =
      if k = "ts_ns-" ++ attr then some (.int ck.nanoseconds)
      else if k = "ts_s-" ++ attr then some (.int ck.seconds)
      else if k = attr then some value else node.get? k := by
  have hs : "ts_s" ++ ("-" ++ attr) = "ts_s-" ++ attr := by
    rw [← String.append_assoc]
    rfl
  have hns : "ts_ns" ++ ("-" ++ attr) = "ts_ns-" ++ attr := by
    rw [← String.append_assoc]
    rfl
  simp [storedNode, JsonResponses.addTimeStampToJSON, hn, hs, hns]

/-- The value that an answer to a read carries for an attribute. -/
def shownValue (answer : Json) (attr : String) : Option Json :=
  (answer.get? "dp").bind fun dp => dp.get? attr

/-- The datapoint of a node carries the value of the attribute that is asked for. -/
theorem datapointOf_shown {node v : Json} {attr : String} {ts : ℤ × ℤ} {asString : Bool}
    (ha : attr ≠ "ts_s" ∧ attr ≠ "ts_ns" ∧ attr ≠ "ts") (hv : node.get? attr = some v)
    (hts : storedTimeStamp nm node attr = .ok ts) :
    ∃ d, datapointOf nm ck path attr asString node = .ok d ∧
      d.get? attr = some (if asString then .str v.asString else v) := by
  have hdp (shown : Json) (k : String) :
      (ofMembers [(attr, shown), ("ts_s", .int ts.1), ("ts_ns", .int ts.2)]).get? k =
        if k = "ts_ns" then some (.int ts.2) else if k = "ts_s" then some (.int ts.1)
        else if k = attr then some shown else none := by
    simp [JsonResponses.get?_ofMembers, Members.get?_cons]
  unfold datapointOf
  simp only [hv, hts]
  cases asString with
  | true =>
    simp only [↓reduceIte]
    have h1 := hdp (.str v.asString) "ts_s"
    have h2 := hdp (.str v.asString) "ts_ns"
    obtain ⟨d, hd, hg⟩ := JsonResponses.convertJSONTimeStampToISO8601_int ck nm rfl h1 h2
    refine ⟨d, hd, ?_⟩
    rw [hg attr ha.1 ha.2.1 ha.2.2, hdp]
    simp [ha]
  | false =>
    refine ⟨_, rfl, ?_⟩
    simp only [Bool.false_eq_true, ↓reduceIte]
    rw [hdp]
    simp [ha]

/-- A read that succeeds returns the path and the value of the attribute at the node. -/
theorem Resolves.getSignal_ok {node answer : Json} {l : Loc} {attr : String} {asString : Bool}
    (h : Resolves jp db.dataTree path l node)
    (ha : attr ≠ "ts_s" ∧ attr ≠ "ts_ns" ∧ attr ≠ "ts")
    (hg : getSignal jp nm ck db path attr asString = .ok answer) :
    answer.get? "path" = some (.str path.toString) ∧ ∃ v, node.get? attr = some v ∧
      shownValue answer attr = some (if asString then .str v.asString else v) := by
  simp only [getSignal, VSSPath.getJSONPath, h.query, elementAt, List.getElem?_cons_zero] at hg
  cases hv : node.get? attr with
  | none => simp [datapointOf, hv, Except.map] at hg
  | some v =>
    cases hts : storedTimeStamp nm node attr with
    | error e => simp [datapointOf, hv, hts, Except.map] at hg
    | ok ts =>
      obtain ⟨d, hd, hs⟩ : ∃ d, datapointOf nm ck path attr asString node = .ok d ∧ _ :=
        datapointOf_shown ha hv hts
      rw [hd] at hg
      obtain rfl := Except.ok.inj hg
      refine ⟨by simp [JsonResponses.get?_ofMembers, Members.get?_cons], v, rfl, ?_⟩
      simp [shownValue, JsonResponses.get?_ofMembers, Members.get?_cons, hs]

section MetaData

/-- What the loop of `getMetaData` makes of a name that it does not skip. -/
theorem metaDataNodes_query (jp : JsonPath) (tree : Json) (formatPath : String)
    (parents : List (String × Json)) {token : String} {tokens : List String}
    (hc : ¬ (tokens ≠ [] ∧ token = "children")) :
    (∃ msg, jp.matches? tree (formatPath ++ "." ++ token) = .error msg ∧
      metaDataNodes jp tree (token :: tokens) formatPath parents = .error (.jsonpathError msg)) ∨
    (∃ ls, jp.matches? tree (formatPath ++ "." ++ token) = .ok ls ∧ ls.length ≠ 1 ∧
      metaDataNodes jp tree (token :: tokens) formatPath parents = .ok none) ∨
    ∃ l shown, jp.matches? tree (formatPath ++ "." ++ token) = .ok [l] ∧
      metaDataNodes jp tree (token :: tokens) formatPath parents =
        if parents.length < maxParents then
          metaDataNodes jp tree tokens (formatPath ++ "." ++ token) (parents ++ [(token, shown)])
        else .error ⟨.undefinedBehaviour, "parentArray"⟩ := by
  rw [metaDataNodes, if_neg hc]
  generalize formatPath ++ "." ++ token = q
  cases hm : jp.matches? tree q with
  | error msg =>
    have hq : jsonQuery jp tree q = .error (.jsonpathError msg) :=
      jsonQuery_error_iff.mpr ⟨msg, JsonPath.matches?_error_iff.mp hm, rfl⟩
    exact .inl ⟨msg, rfl, by rw [hq]⟩
  | ok ls =>
    have hq := jsonQuery_eq_ok_iff.mpr (JsonPath.query_of_matches hm)
    have hlen := JsonPath.query_length hm (JsonPath.query_of_matches hm)
    rw [hq]
    generalize ls.filterMap tree.at? = vs at hlen
    rcases vs with _ | ⟨res, _ | ⟨res', vs⟩⟩
    · exact .inr (.inl ⟨ls, rfl, by simp [← hlen], rfl⟩)
    · obtain ⟨l, rfl⟩ := List.length_eq_one_iff.mp hlen.symm
      exact .inr (.inr ⟨l, _, rfl, rfl⟩)
    · exact .inr (.inl ⟨ls, rfl, by simp [← hlen], rfl⟩)

/-- Parents can only fail to be nested in something that has no members. -/
theorem nestParents_kind {result : Json} {parents : List (String × Json)} {e : Exn}
    (h : nestParents result parents = .error e) : e.kind = .notAnObject := by
  induction parents generalizing e with
  | nil => simp [nestParents] at h
  | cons p ps ih =>
    unfold nestParents at h
    cases hn : nestParents result ps with
    | error e' =>
      obtain rfl : e' = e := by simpa [hn] using h
      exact ih hn
    | ok inner =>
      simp only [hn, tryInsertOrAssign] at h
      split_ifs at h
      · simp [Except.map] at h
      · obtain rfl := Except.error.inj h
        rfl

end MetaData

end VssDatabase

namespace SubscriptionHandler
open AccessChecker VssDatabase

variable {jp : JsonPath} {rx : StdRegex} {db : VssDatabase} {channel : KuksaChannel} {path : String}

/-- Subscribing asks for read access to the text, and for one node to be told about. -/
theorem checkSubscribe_eq_ok_iff {p : VSSPath} :
    checkSubscribe jp rx db channel path = .ok p ↔
      p = .fromVSS path ∧ checkReadAccess rx channel (.fromVSS path) = .ok true ∧
        ∃ l node, Resolves jp db.dataTree (.fromVSS path) l node ∧ IsSignal node := by
  constructor
  · intro h
    unfold checkSubscribe at h
    simp only at h
    split at h <;> try simp at h
    split at h <;> try simp at h
    rename_i hs
    split at h <;> try simp at h
    rename_i hr
    exact ⟨h.symm, hr, pathIsReadable_eq_true_iff.mp hs⟩
  · rintro ⟨rfl, ha, l, node, hr, hs⟩
    have hread : pathIsReadable jp db (.fromVSS path) = .ok true :=
      pathIsReadable_eq_true_iff.mpr ⟨l, node, hr, hs⟩
    simp only [checkSubscribe, hr.pathExists, hread, ha]

theorem subscribe_eq_ok_iff {h : SubscriptionHandler} {subId id : SubscriptionId} {attr : String} :
    (h.subscribe jp rx db subId channel path attr).1 = .ok id ↔
      id = subId ∧ checkReadAccess rx channel (.fromVSS path) = .ok true ∧
        ∃ l node, Resolves jp db.dataTree (.fromVSS path) l node ∧ IsSignal node := by
  unfold subscribe
  cases hc : checkSubscribe jp rx db channel path with
  | error e =>
    have hne : ¬ (checkReadAccess rx channel (.fromVSS path) = .ok true ∧
        ∃ l node, Resolves jp db.dataTree (.fromVSS path) l node ∧ IsSignal node) := by
      intro h
      rw [checkSubscribe_eq_ok_iff.mpr ⟨rfl, h⟩] at hc
      simp at hc
    simp [hne]
  | ok p =>
    have h := (checkSubscribe_eq_ok_iff.mp hc).2
    simp [h, eq_comm]

end SubscriptionHandler
