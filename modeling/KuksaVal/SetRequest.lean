import KuksaVal.Resolution

/-! A set request as a whole: what its success answer promises, and that anything else leaves
the values alone. -/
namespace VssCommandProcessor
open Json JsonResponses VssDatabase

variable {pf : Platform} {ck : Clock} {db : VssDatabase} {channel : KuksaChannel}

theorem setAnswer_no_error (requestId : String) :
    (setAnswer ck requestId).contains "error" = false := by
  unfold setAnswer contains
  rw [get?_ofMembers]
  simp [Members.get?_cons]

theorem ne_setAnswer {answer : Json} (h : answer.contains "error" = true) (requestId : String) :
    answer ≠ setAnswer ck requestId := by
  rintro rfl
  simp [setAnswer_no_error] at h

/-- A refusal is an answer that reports an error, by the name of the request. -/
theorem setRefusal_eq_some {path : VSSPath} {attr requestId : String} {answer : Json}
    (h : setRefusal pf ck db channel path attr requestId = .ok (some answer)) :
    ∃ number reason message, number ∈ ["403", "404"] ∧
      answer = errorAnswer ck (some "set") requestId number reason message := by
  unfold setRefusal at h
  split at h
  · simp at h
  · obtain rfl := Option.some.inj (Except.ok.inj h)
    exact ⟨_, _, _, by simp, rfl⟩
  · split at h
    · simp at h
    · obtain rfl := Option.some.inj (Except.ok.inj h)
      exact ⟨_, _, _, by simp, rfl⟩
    · split at h
      · simp at h
      · obtain rfl := Option.some.inj (Except.ok.inj h)
        exact ⟨_, _, _, by simp, rfl⟩
      · split at h
        · simp at h
        · obtain rfl := Option.some.inj (Except.ok.inj h)
          exact ⟨_, _, _, by simp, rfl⟩
        · simp at h

/-- The checks of a set pass for one node that may be set. -/
theorem setRefusal_eq_none_iff {path : VSSPath} {attr requestId : String} :
    setRefusal pf ck db channel path attr requestId = .ok none ↔
      ∃ l node, Resolves pf.jsonPath db.dataTree path l node ∧
        AccessChecker.checkWriteAccess pf.regex channel path = .ok true ∧ IsSettable node ∧
        db.pathIsAttributable pf.jsonPath path attr = .ok true := by
  constructor
  · intro h
    unfold setRefusal at h
    split at h <;> try simp at h
    split at h <;> try simp at h
    rename_i hw
    split at h <;> try simp at h
    rename_i hs
    split at h <;> try simp at h
    rename_i ha
    obtain ⟨l, node, hr, hset⟩ := pathIsWritable_eq_true_iff.mp hs
    exact ⟨l, node, hr, hw, hset, ha⟩
  · rintro ⟨l, node, hr, hw, hs, ha⟩
    have hwr := pathIsWritable_eq_true_iff.mpr ⟨l, node, hr, hs⟩
    simp only [setRefusal, hr.pathExists, hw, hwr, ha]

/-- No refusal: write access, and one node that may be set in this attribute. -/
theorem setRefusal_none {path : VSSPath} {attr requestId : String}
    (h : setRefusal pf ck db channel path attr requestId = .ok none) :
    AccessChecker.checkWriteAccess pf.regex channel path = .ok true ∧
      ∃ l node, Resolves pf.jsonPath db.dataTree path l node ∧ IsSettable node ∧
        (attr = "targetValue" ∧ node.get? "type" = some (.str "actuator") ∨ attr = "value") := by
  obtain ⟨l, node, hr, hw, hs, ha⟩ := setRefusal_eq_none_iff.mp h
  rw [hr.pathIsAttributable] at ha
  exact ⟨hw, l, node, hr, hs, by simpa using ha⟩

theorem setFailure_ne_setAnswer {path : VSSPath} {requestId : String} {e : Exn} (id : String) :
    setFailure pf ck path requestId e ≠ .ok (setAnswer ck id) := by
  intro h
  unfold setFailure answerUnhandled at h
  repeat' split at h
  all_goals first
    | (simp only [Except.ok.injEq] at h
       exact ne_setAnswer (errorAnswer_contains_error ..) id h)
    | simp [setAnswer, ofMembers] at h

theorem refuseRequest_ne_setAnswer {action unhandled : String} {request : Json} {e : Exn}
    (id : String) : refuseRequest ck action unhandled request e ≠ .ok (setAnswer ck id) := by
  have hm (f : String → Json) (hf : ∀ rid, (f rid).contains "error" = true) :
      (VSSRequestValidator.tryExtractRequestId request).map f ≠ .ok (setAnswer ck id) := by
    cases VSSRequestValidator.tryExtractRequestId request with
    | error e => simp [Except.map]
    | ok rid => simpa [Except.map] using ne_setAnswer (hf rid) id
  unfold refuseRequest
  split_ifs
  · simp
  · exact hm _ fun _ => errorAnswer_contains_error ..
  · exact hm _ fun _ => errorAnswer_contains_error ..

/-- What a set request does: nothing, or it stores one value and answers with success. -/
theorem processSet_cases (pf : Platform) (ck : Clock) (db : VssDatabase) (channel : KuksaChannel)
    (request : Json) :
    ((∀ id, (processSet pf ck db channel request).1 ≠ .ok (setAnswer ck id)) ∧
      (processSet pf ck db channel request).2 = (db, [])) ∨
    ∃ path requestId value db' l node stored,
      text request "path" = .ok path ∧
      text request "requestId" = .ok requestId ∧
      request.member (attributeOf request) = .ok value ∧
      AccessChecker.checkWriteAccess pf.regex channel (.fromVSS path) = .ok true ∧
      Stores pf.jsonPath pf.numerics ck db db' (.fromVSS path) (attributeOf request) value l
        node stored ∧
      IsSettable node ∧
      (attributeOf request = "targetValue" ∧ node.get? "type" = some (.str "actuator") ∨
        attributeOf request = "value") ∧
      processSet pf ck db channel request = (.ok (setAnswer ck requestId), db',
        [publicationOf (.fromVSS path) (attributeOf request) stored
          (storedNode ck node (attributeOf request) stored)]) := by
  unfold processSet
  cases hv : validateRequest pf VSSRequestValidator.schemaSet request with
  | error e => exact Or.inl ⟨refuseRequest_ne_setAnswer, rfl⟩
  | ok _ =>
    cases hp : text request "path" with
    | error e => exact Or.inl ⟨by simp, rfl⟩
    | ok path =>
      cases hi : text request "requestId" with
      | error e => exact Or.inl ⟨by simp, rfl⟩
      | ok requestId =>
        cases hm : request.member (attributeOf request) with
        | error e => exact Or.inl ⟨by simp, rfl⟩
        | ok value =>
          simp only
          unfold performSet
          cases hr : setRefusal pf ck db channel (.fromVSS path) (attributeOf request) requestId with
          | error e => exact Or.inl ⟨by simp, rfl⟩
          | ok refusal =>
            cases refusal with
            | some answer =>
              obtain ⟨number, reason, message, -, rfl⟩ := setRefusal_eq_some hr
              have ha := errorAnswer_contains_error ck (some "set") requestId number reason message
              exact Or.inl ⟨fun id => by simpa using ne_setAnswer ha id, rfl⟩
            | none =>
              obtain ⟨hw, l, node, hres, hs, ht⟩ := setRefusal_none hr
              rcases setSignal_cases pf.jsonPath pf.numerics ck db (.fromVSS path) (attributeOf request)
                value with
                ⟨e, he⟩ | ⟨hno, _⟩ | ⟨db', l', node', stored, hst, he⟩
              · exact Or.inl ⟨by simpa [he] using setFailure_ne_setAnswer, by simp [he]⟩
              · exact absurd ⟨l, node, hres⟩ hno
              · obtain ⟨rfl, rfl⟩ := hres.eq hst.resolves
                exact Or.inr ⟨path, requestId, value, db', l, node, stored, rfl, rfl, rfl, hw,
                  hst, hs, ht, by simp [he]⟩

/-- A read of the path returns the value, as text where text is asked for. -/
def ReadsBack (jp : JsonPath) (nm : Numerics) (db : VssDatabase) (path : VSSPath)
    (attr : String) (value : Json) : Prop :=
  ∀ (ck : Clock) (asString : Bool), ∃ answer, db.getSignal jp nm ck path attr asString = .ok answer ∧
    shownValue answer attr = some (if asString then .str value.asString else value)

/-- The datapoint of a node just set carries the value that was stored. -/
theorem datapointOf_storedNode (nm : Numerics) (ck : Clock) {node : Json} (hn : node.isObject = true)
    {attr : String} (ha : attr = "value" ∨ attr = "targetValue") (ck' : Clock) (path : VSSPath)
    (stored : Json) (asString : Bool) :
    ∃ d, datapointOf nm ck' path attr asString (storedNode ck node attr stored) = .ok d ∧
      d.get? attr = some (if asString then .str stored.asString else stored) := by
  have hts : attr ≠ "ts_s" ∧ attr ≠ "ts_ns" ∧ attr ≠ "ts" := by
    rcases ha with rfl | rfl <;> decide
  have hk : attr ≠ "ts_s-" ++ attr ∧ attr ≠ "ts_ns-" ++ attr ∧
      "ts_s-" ++ attr ≠ "ts_ns-" ++ attr := by
    rcases ha with rfl | rfl <;> decide
  have hv : (storedNode ck node attr stored).get? attr = some stored := by
    rw [get?_storedNode hn]
    simp [hk.1, hk.2.1]
  have hs : storedTimeStamp nm (storedNode ck node attr stored) attr =
      .ok (IntType.wrap ⟨64, false⟩ ck.seconds, IntType.wrap ⟨32, false⟩ ck.nanoseconds) := by
    unfold storedTimeStamp
    rw [get?_storedNode hn, get?_storedNode hn]
    simp [hk.2.2, asInteger, Except.map]
  exact datapointOf_shown hts hv hs

theorem readsBack_of_resolves {jp : JsonPath} {nm : Numerics} {path : VSSPath} {l : Loc}
    {node stored : Json} {attr : String} (ha : attr = "value" ∨ attr = "targetValue")
    (hn : node.isObject = true)
    (h : Resolves jp db.dataTree path l (storedNode ck node attr stored)) :
    ReadsBack jp nm db path attr stored := by
  intro ck' asString
  obtain ⟨d, hd, hg⟩ := datapointOf_storedNode nm ck hn ha ck' path stored asString
  refine ⟨ofMembers [("path", .str path.toString), ("dp", d)], ?_, ?_⟩
  · simp [getSignal, VSSPath.getJSONPath, h.query, elementAt, hd, Except.map]
  · simp [shownValue, get?_ofMembers, Members.get?_cons, hg]

/-- Two trees that differ in one attribute of the node at one location. -/
structure OneAttributeSet (tree tree' : Json) (l : Loc) (node : Json) (attr : String)
    (stored : Json) : Prop where
  stored : ∃ node', tree' = tree.setAt l node' ∧ tree'.at? l = some node' ∧
    node'.get? attr = some stored ∧
    ∀ k, k ≠ attr → k ≠ "ts_s-" ++ attr → k ≠ "ts_ns-" ++ attr → node'.get? k = node.get? k
  elsewhere : ∀ m, ¬ l <+: m → ¬ m <+: l → tree'.at? m = tree.at? m

theorem oneAttributeSet_storedNode (ck : Clock) {tree node : Json} {l : Loc} (hl : tree.at? l = some node)
    (hn : node.isObject = true) {attr : String} (ha : attr = "value" ∨ attr = "targetValue")
    (stored : Json) :
    OneAttributeSet tree (tree.setAt l (storedNode ck node attr stored)) l node attr stored where
  stored := by
    have hk : attr ≠ "ts_s-" ++ attr ∧ attr ≠ "ts_ns-" ++ attr := by
      rcases ha with rfl | rfl <;> decide
    refine ⟨_, rfl, at?_setAt_self (by simp [hl]) _, ?_, ?_⟩
    · rw [get?_storedNode hn]
      simp [hk]
    · intro k h1 h2 h3
      rw [get?_storedNode hn]
      simp [h1, h2, h3]
  elsewhere m hlm hml := at?_setAt_of_not_prefix hlm hml _

/-- A set request either answers with success, and then it has stored the sanitized value in
one attribute of the one node that the path matches, published it once, and it reads back as
long as the path goes on matching that node; or it has changed and published nothing. -/
theorem processSet_all_or_nothing (pf : Platform) (ck : Clock) (db : VssDatabase)
    (channel : KuksaChannel) (request : Json) :
    (∀ requestId, (processSet pf ck db channel request).1 = .ok (setAnswer ck requestId) →
      ∃ path value l node stored,
        text request "path" = .ok path ∧ request.member (attributeOf request) = .ok value ∧
        Resolves pf.jsonPath db.dataTree (.fromVSS path) l node ∧
        IsSettable node ∧
        (attributeOf request = "targetValue" → node.get? "type" = some (.str "actuator")) ∧
        checkAndSanitizeType pf.numerics node value = .ok stored ∧
        (processSet pf ck db channel request).2.1.metaTree = db.metaTree ∧
        OneAttributeSet db.dataTree (processSet pf ck db channel request).2.1.dataTree l node
          (attributeOf request) stored ∧
        (pf.jsonPath.matches? (processSet pf ck db channel request).2.1.dataTree
            (VSSPath.fromVSS path).jsonpath = .ok [l] →
          ReadsBack pf.jsonPath pf.numerics (processSet pf ck db channel request).2.1
            (.fromVSS path) (attributeOf request) stored) ∧
        (VSSPath.Plain path →
          pf.jsonPath.matches? (processSet pf ck db channel request).2.1.dataTree
            (VSSPath.fromVSS path).jsonpath = .ok [l]) ∧
        ∃ p, (processSet pf ck db channel request).2.2 = [p] ∧ p.path = .fromVSS path ∧
          p.attr = attributeOf request) ∧
    ((∀ requestId, (processSet pf ck db channel request).1 ≠ .ok (setAnswer ck requestId)) →
      (processSet pf ck db channel request).2 = (db, [])) := by
  rcases processSet_cases pf ck db channel request with
    ⟨hne, hs⟩ | ⟨path, requestId, value, db', l, node, stored, hp, _, hm, _, hst, ht, ha, he⟩
  · exact ⟨fun id hid => absurd hid (hne id), fun _ => hs⟩
  · have hattr : attributeOf request = "value" ∨ attributeOf request = "targetValue" :=
      ha.elim (fun h => Or.inr h.1) Or.inl
    have hobj : node.isObject = true := isObject_of_contains hst.datatype
    have hset := oneAttributeSet_storedNode ck hst.resolves.located hobj hattr stored
    refine ⟨fun _ _ => ⟨path, value, l, node, stored, hp, hm, hst.resolves, ht, ?_, hst.sanitized,
      ?_, ?_, ?_, ?_, ?_⟩, fun hno => absurd (by rw [he]) (hno requestId)⟩
    · intro htarget
      rcases ha with h | h
      · exact h.2
      · exact absurd (htarget.symm.trans h) (by decide)
    · rw [he, hst.replaced]
    · rw [he, hst.replaced]
      exact hset
    · rw [he, hst.replaced]
      intro hu
      exact readsBack_of_resolves hattr hobj
        ⟨hu, at?_setAt_self (by simp [hst.resolves.located]) _⟩
    · rw [he, hst.replaced]
      intro hplain
      exact (hst.resolves.setAt hplain _).unique
    · rw [he]
      exact ⟨_, rfl, rfl, rfl⟩

section Filter

/-- A path text that closes the quote and goes on with a filter expression. -/
def filterPath : String :=
  "Vehicle']['children'][?(@['children']['Speed']['value'] != 5)]['children']['Speed"

/-- The speed of every branch where it is not 5. -/
def otherSpeeds (j : Json) : List Loc :=
  (select [.name "Vehicle", .name "children", .wildcard, .name "children", .name "Speed"] j).filter
    fun l => decide (j.at? (l ++ [.key "value"]) ≠ some (.int 5))

def filterPlatform : Platform :=
  { Platform.basic (fun _ => .error "Parse error") with
    jsonPath := .selectorsAnd (VSSPath.fromVSS filterPath).jsonpath otherSpeeds
      (fun _ _ hl => select_located (List.mem_of_mem_filter hl)) (by decide +kernel) }

def speedTree : Json :=
  .obj [("Vehicle", .obj [("children", .obj [("OBD", .obj [("children", .obj [("Speed",
    .obj [("datatype", .str "uint8"), ("type", .str "sensor"), ("value", .int 1)])]),
    ("type", .str "branch")])]), ("type", .str "branch")])]

def midnight : Clock := ⟨"1970-01-01T00:00:00.0Z", 0, 0, fun _ => "1970-01-01T00:00:00."⟩

def filterSet : Except Exn Json × VssDatabase × List Publication :=
  processSet filterPlatform midnight ⟨speedTree, speedTree⟩
    { permissions := [("Vehicle*", .str "rw")] }
    (.obj [("action", .str "set"), ("path", .str filterPath), ("requestId", .str "1"),
      ("value", .int 5)])

/-- Setting the speed to 5 through the filter succeeds, and then the path matches nothing. -/
theorem filterSet_not_readsBack :
    filterSet.1 = .ok (setAnswer midnight "1") ∧
      ¬ ReadsBack filterPlatform.jsonPath filterPlatform.numerics filterSet.2.1
        (.fromVSS filterPath) "value" (.int 5) := by
  refine ⟨by decide +kernel, fun h => ?_⟩
  obtain ⟨answer, ha, _⟩ := h midnight false
  have he : filterSet.2.1.getSignal filterPlatform.jsonPath filterPlatform.numerics midnight
      (.fromVSS filterPath) "value" false = .error ⟨.outOfRange, "Invalid array subscript"⟩ := by
    decide +kernel
  simp [he] at ha

end Filter

end VssCommandProcessor
