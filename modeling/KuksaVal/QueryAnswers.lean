import KuksaVal.LeafPaths
import KuksaVal.SetRequest

/-! Which requests are answered: what each handler lets through, and which of it the dispatch
catches. -/
namespace VssDatabase
open Json

variable {jp : JsonPath} {nm : Numerics} {ck : Clock} {db : VssDatabase}

theorem jsonQuery_throwsOnly (tree : Json) (p : String) :
    ThrowsOnly [.jsonpathError] (jsonQuery jp tree p) := by
  unfold jsonQuery
  cases jp.query tree p <;> simp [Except.mapError, Exn.jsonpathError]

theorem defined_jsonQuery (tree : Json) (p : String) : Defined (jsonQuery jp tree p) :=
  (jsonQuery_throwsOnly tree p).defined (by decide)

theorem jsonReplace_throwsOnly (tree : Json) (p : String) (v : Json) :
    ThrowsOnly [.jsonpathError] (jsonReplace jp tree p v) := by
  unfold jsonReplace
  cases jp.replace tree p v <;> simp [Except.mapError, Exn.jsonpathError]

theorem defined_jsonReplace (tree : Json) (p : String) (v : Json) :
    Defined (jsonReplace jp tree p v) :=
  (jsonReplace_throwsOnly tree p v).defined (by decide)

theorem defined_pathExists (path : VSSPath) : Defined (pathExists jp db path) := by
  simp [pathExists, defined_jsonQuery]

theorem defined_pathIsReadable (path : VSSPath) : Defined (pathIsReadable jp db path) := by
  simp [pathIsReadable, defined_jsonQuery]

theorem defined_pathIsAttributable (path : VSSPath) (attr : String) :
    Defined (pathIsAttributable jp db path attr) := by
  simp [pathIsAttributable, defined_jsonQuery]

theorem defined_convertJSONTimeStamp (target : Json) :
    Defined (JsonResponses.convertJSONTimeStampToISO8601 ck nm target) := by
  unfold JsonResponses.convertJSONTimeStampToISO8601
  split
  · split
    · rename_i e he
      exact (defined_asInteger _ _).of_error he
    · split
      · rename_i e he
        exact (defined_asInteger _ _).of_error he
      · simp
  · simp

theorem defined_datapointOf (path : VSSPath) (attr : String) (asString : Bool) (result : Json) :
    Defined (datapointOf nm ck path attr asString result) := by
  have hts : Defined (storedTimeStamp nm result attr) := by
    unfold storedTimeStamp
    split
    · split
      · rename_i e he
        exact (defined_asInteger _ _).of_error he
      · simp [defined_asInteger]
    · simp
  unfold datapointOf
  split
  · simp [Exn.notSetException]
  · split
    · rename_i e he
      exact hts.of_error he
    · simp only
      split_ifs
      · exact defined_convertJSONTimeStamp _
      · simp

theorem defined_getSignal (path : VSSPath) (attr : String) (asString : Bool) :
    Defined (getSignal jp nm ck db path attr asString) := by
  unfold getSignal elementAt
  split
  · rename_i e he
    exact (defined_jsonQuery _ _).of_error he
  · split
    · rename_i e he
      split at he
      · simp at he
      · simp [← Except.error.inj he]
    · simp [defined_datapointOf]

theorem defined_setSignal (path : VSSPath) (attr : String) (value : Json) :
    Defined (setSignal jp nm ck db path attr value).1 := by
  unfold setSignal
  split
  · rename_i e he
    exact (defined_jsonQuery _ _).of_error he
  · split_ifs
    · split
      · rename_i e he
        exact (defined_checkAndSanitizeType _ _).of_error he
      · simp only
        split
        · rename_i e he
          exact (defined_jsonReplace _ _ _).of_error he
        · simp
    · simp [Exn.genException]
  · simp

mutual
theorem applyDefaultValues_throwsOnly :
    (j : Json) → ThrowsOnly [.domainError] (applyDefaultValues j)
  | .obj ms => by
    have h := applyToChildren_throwsOnly ms
    unfold applyDefaultValues
    split_ifs
    · split <;> simp [h]
    · simp [h]
  | .null | .bool _ | .int _ | .double _ | .str _ | .arr _ => by simp [applyDefaultValues]

theorem applyToChildren_throwsOnly :
    (ms : List (String × Json)) → ThrowsOnly [.domainError] (applyToChildren ms)
  | [] => by simp [applyToChildren]
  | (k, v) :: ms => by
    have hv := applyToContainer_throwsOnly v
    have hms := applyToChildren_throwsOnly ms
    unfold applyToChildren
    split_ifs <;> simp [hv, hms]

theorem applyToContainer_throwsOnly :
    (j : Json) → ThrowsOnly [.domainError] (applyToContainer j)
  | .obj ms => by
    have h := applyToSubtrees_throwsOnly ms
    simp [applyToContainer, h]
  | .null | .bool _ | .int _ | .double _ | .str _ | .arr _ => by simp [applyToContainer]

theorem applyToSubtrees_throwsOnly :
    (ms : List (String × Json)) → ThrowsOnly [.domainError] (applyToSubtrees ms)
  | [] => by simp [applyToSubtrees]
  | (k, v) :: ms => by
    have hv := applyDefaultValues_throwsOnly v
    have hms := applyToSubtrees_throwsOnly ms
    unfold applyToSubtrees
    split
    · rename_i e he
      exact hv.of_error he
    · simp [hms]
end

theorem updateTree_throwsOnly (sourceTree jsonTree : Json) :
    ThrowsOnly [.genException] (updateTree sourceTree jsonTree) := by
  unfold updateTree
  split <;> simp [Exn.genException]

/-- With the right to the tree, an update of it fails on the defaults or on the patch. -/
theorem updateJsonTree_throwsOnly {channel : KuksaChannel} (hm : channel.modifyTree = true)
    (jsonTree : Json) :
    ThrowsOnly [.domainError, .genException] (updateJsonTree db channel jsonTree).1 := by
  have hpatch (s t : Json) : ThrowsOnly [.domainError, .genException] (updateTree s t) :=
    (updateTree_throwsOnly s t).mono (by decide)
  unfold updateJsonTree KuksaChannel.authorizedToModifyTree
  simp only [hm, Bool.true_eq_false, ↓reduceIte]
  split
  · rename_i e he
    split at he
    · have hd := (throwsOnly_map (jsonTree.insertOrAssign "Vehicle") _).mpr
        (applyDefaultValues_throwsOnly _) e he
      simpa using Or.inl (by simpa using hd)
    · simp at he
  · split
    · rename_i e he
      exact (hpatch _ _).of_error he
    · split
      · rename_i e he
        exact (hpatch _ _).of_error he
      · simp

theorem defined_updateJsonTree (channel : KuksaChannel) (jsonTree : Json) :
    Defined (updateJsonTree db channel jsonTree).1 := by
  cases hm : channel.modifyTree with
  | true => exact (updateJsonTree_throwsOnly hm jsonTree).defined (by decide)
  | false =>
    simp [updateJsonTree, KuksaChannel.authorizedToModifyTree, hm, Exn.noPermissionException]

theorem singleNode_throwsOnly (path : VSSPath) (res : List Json) :
    ThrowsOnly [.notValidException] (singleNode path res) := by
  unfold singleNode
  split <;> simp [Exn.notValidException]

/-- What an update of metadata throws besides the refusal of the right to it. -/
def updateKinds : List ExnKind := [.jsonpathError, .notValidException, .domainError]

theorem readForUpdate_throwsOnly (path : VSSPath) :
    ThrowsOnly updateKinds (readForUpdate jp db path) := by
  have hq (tree : Json) : ThrowsOnly updateKinds (jsonQuery jp tree path.getJSONPath) :=
    (jsonQuery_throwsOnly tree _).mono (by decide)
  unfold readForUpdate
  split
  · rename_i e he
    exact (hq _).of_error he
  · split
    · rename_i e he
      exact (hq _).of_error he
    · simp

theorem mergeNodes_throwsOnly (path : VSSPath) (metadata : Json) (res : List Json × List Json) :
    ThrowsOnly updateKinds (mergeNodes path metadata res) := by
  have hs (res : List Json) : ThrowsOnly updateKinds (singleNode path res) :=
    (singleNode_throwsOnly path res).mono (by decide)
  have hmerge (j : Json) : ThrowsOnly updateKinds (j.mergeOrUpdate metadata) :=
    (mergeOrUpdate_throwsOnly j metadata).mono (by decide)
  unfold mergeNodes
  split
  · rename_i e he
    exact (hs _).of_error he
  · split
    · rename_i e he
      exact (hs _).of_error he
    · split
      · rename_i e he
        exact (hmerge _).of_error he
      · simp [hmerge]

theorem writeBack_throwsOnly (path : VSSPath) (nodes : Json × Json) :
    ThrowsOnly updateKinds (writeBack jp db path nodes).1 := by
  have hr (tree v : Json) : ThrowsOnly updateKinds (jsonReplace jp tree path.getJSONPath v) :=
    (jsonReplace_throwsOnly tree _ v).mono (by decide)
  unfold writeBack
  split
  · rename_i e he
    exact (hr _ _).of_error he
  · split
    · rename_i e he
      exact (hr _ _).of_error he
    · simp

theorem updateMetaData_throwsOnly {channel : KuksaChannel} (hm : channel.modifyTree = true)
    (path : VSSPath) (metadata : Json) :
    ThrowsOnly updateKinds (updateMetaData jp db channel path metadata).1 := by
  unfold updateMetaData KuksaChannel.authorizedToModifyTree
  simp only [hm, Bool.true_eq_false, ↓reduceIte]
  split
  · rename_i e he
    exact (readForUpdate_throwsOnly path).of_error he
  · split
    · rename_i e he
      exact (mergeNodes_throwsOnly path metadata _).of_error he
    · exact writeBack_throwsOnly _ _

theorem defined_updateMetaData (channel : KuksaChannel) (path : VSSPath) (metadata : Json) :
    Defined (updateMetaData jp db channel path metadata).1 := by
  cases hm : channel.modifyTree with
  | true => exact (updateMetaData_throwsOnly hm path metadata).defined (by decide)
  | false =>
    simp [updateMetaData, KuksaChannel.authorizedToModifyTree, hm, Exn.noPermissionException]

end VssDatabase

namespace VssCommandProcessor
open Json JsonResponses VSSRequestValidator VssDatabase

/-- The dispatch has an answer for whatever is thrown. -/
def Answered (r : Except Exn Json) : Prop := ∀ e, r = .error e → isCaught e = true

@[simp] theorem answered_ok (answer : Json) : Answered (.ok answer) := by simp [Answered]

@[simp] theorem answered_error (e : Exn) : Answered (.error e) ↔ isCaught e = true := by
  simp [Answered]

theorem member_error_isCaught {request : Json} {k : String} {e : Exn}
    (h : request.member k = .error e) : isCaught e = true := by
  rcases member_error_kind h with h | h <;> simp [isCaught, h]

theorem text_error_isCaught {request : Json} {k : String} {e : Exn}
    (h : text request k = .error e) : isCaught e = true := by
  unfold text at h
  cases hm : request.member k with
  | error e' =>
    simp only [hm, Except.map, Except.error.injEq] at h
    exact h ▸ member_error_isCaught hm
  | ok v => simp [hm, Except.map] at h

theorem answered_tryExtractRequestId (request : Json) (f : String → Json) :
    Answered ((tryExtractRequestId request).map f) := by
  unfold tryExtractRequestId
  split <;> simp [Except.map, isCaught]

variable {pf : Platform} {ck : Clock} {db : VssDatabase} {channel : KuksaChannel} {sv : Server}

theorem answered_refuseRequest {schema : Schema} {request : Json} {e : Exn}
    (h : validateRequest pf schema request = .error e) (action unhandled : String) :
    Answered (refuseRequest ck action unhandled request e) := by
  have hk : e.kind = .schemaError := by
    unfold validateRequest validate at h
    split_ifs at h
    rw [← Except.error.inj h]
  simp only [refuseRequest, hk, reduceCtorEq, ↓reduceIte]
  exact answered_tryExtractRequestId _ _

theorem answered_answerUnhandled {e : Exn} (h : e.kind ≠ .undefinedBehaviour)
    (requestId action : String) : Answered (answerUnhandled ck requestId action e) := by
  simp [answerUnhandled, h]

theorem answered_setFailure {e : Exn} (h : e.kind ≠ .undefinedBehaviour) (path : VSSPath)
    (requestId : String) : Answered (setFailure pf ck path requestId e) := by
  unfold setFailure
  split
  all_goals first | exact answered_ok _ | exact answered_answerUnhandled h _ _

theorem answered_subscribeFailure {e : Exn} (h : e.kind ≠ .undefinedBehaviour)
    (requestId path : String) : Answered (subscribeFailure ck requestId path e) := by
  unfold subscribeFailure
  split
  all_goals first | exact answered_ok _ | exact answered_answerUnhandled h _ _

theorem answered_updateFailure {e : Exn} (h : e.kind ≠ .undefinedBehaviour)
    (action requestId : String) : Answered (updateFailure ck action requestId e) := by
  unfold updateFailure
  split
  all_goals first | exact answered_ok _ | exact answered_answerUnhandled h _ _

theorem defined_checkSignalAccess (path required : String) :
    Defined (AccessChecker.checkSignalAccess pf.regex channel path required) := by
  intro e he
  rw [AccessChecker.checkSignalAccess_error pf.regex he]
  simp

section Protected

theorem defined_collectDatapoints (path : VSSPath) (pathStr attr requestId : String)
    (vssPaths : List VSSPath) :
    Defined (collectDatapoints pf ck db channel path pathStr attr requestId vssPaths) := by
  induction vssPaths with
  | nil => simp [collectDatapoints]
  | cons p ps ih =>
    unfold collectDatapoints
    split
    · rename_i e he
      exact (defined_checkSignalAccess _ _).of_error he
    · simp
    · split
      · rename_i e he
        exact (defined_pathIsAttributable _ _).of_error he
      · simp
      · split
        · rename_i e he
          exact (defined_getSignal _ _ _).of_error he
        · split
          · simp
          · exact ih

theorem answered_processGet (request : Json) : Answered (processGet pf ck db channel request) := by
  have hd (pathStr requestId : String) : Defined (performGet pf ck db channel (.fromVSS pathStr)
      pathStr (attributeOf request) requestId) := by
    unfold performGet
    obtain ⟨paths, hp⟩ := getLeafPaths_isOk pf.jsonPath db (.fromVSS pathStr)
    simp only [hp]
    split
    · rename_i e he
      exact (defined_collectDatapoints _ _ _ _ _).of_error he
    · simp
    · split_ifs <;> simp
  unfold processGet
  split
  · rename_i e he
    simpa using text_error_isCaught he
  · split
    · rename_i e he
      exact answered_refuseRequest he _ _
    · split
      · rename_i e he
        simpa using text_error_isCaught he
      · split
        · rename_i e he
          unfold getFailure
          split_ifs
          · simp
          · exact answered_answerUnhandled (hd _ _ e he) _ _
        · simp

theorem answered_processSubscribe (subId : SubscriptionId) (request : Json) :
    Answered (processSubscribe pf ck sv subId channel request).1 := by
  unfold processSubscribe
  split
  · rename_i e he
    exact answered_refuseRequest he _ _
  · split
    · rename_i path requestId _ _
      have hd : Defined (sv.subHandler.subscribe pf.jsonPath pf.regex sv.database subId channel path
          (attributeOf request)).1 := by
        unfold SubscriptionHandler.subscribe
        split
        · rename_i e he
          have hc : Defined (SubscriptionHandler.checkSubscribe pf.jsonPath pf.regex sv.database
              channel path) := by
            unfold SubscriptionHandler.checkSubscribe
            simp only
            split
            · rename_i e he
              exact (defined_pathExists _).of_error he
            · simp [Exn.noPathFoundonTree]
            · split
              · rename_i e he
                exact (defined_pathIsReadable _).of_error he
              · simp [Exn.noPathFoundonTree]
              · split
                · rename_i e he
                  exact (defined_checkSignalAccess _ _).of_error he
                · simp [Exn.noPermissionException]
                · simp
          exact hc.of_error he
        · simp
      split
      · rename_i e handler he
        exact answered_subscribeFailure (hd e (by rw [he])) _ _
      · simp
    · rename_i e _ he
      simpa using text_error_isCaught he
    · rename_i e he _
      simpa using text_error_isCaught he

theorem answered_processUnsubscribe (request : Json) :
    Answered (processUnsubscribe pf ck sv request).1 := by
  unfold processUnsubscribe
  split
  · rename_i e he
    exact answered_refuseRequest he _ _
  · split
    · split
      · exact answered_tryExtractRequestId _ _
      · simp only
        split_ifs <;> simp
    · rename_i e _ he
      simpa using text_error_isCaught he
    · rename_i e he _
      simpa using text_error_isCaught he

theorem answered_processUpdateVSSTree (request : Json) :
    Answered (processUpdateVSSTree pf ck db channel request).1 := by
  unfold processUpdateVSSTree
  split
  · rename_i e he
    exact answered_refuseRequest he _ _
  · split
    · rename_i requestId metadata _ _
      split
      · rename_i e db' he
        exact answered_updateFailure (defined_updateJsonTree _ _ e (by rw [he])) _ _
      · simp
    · rename_i e _ he
      simpa using text_error_isCaught he
    · rename_i e he _
      simpa using member_error_isCaught he

theorem answered_processUpdateMetaData (request : Json) :
    Answered (processUpdateMetaData pf ck db channel request).1 := by
  unfold processUpdateMetaData
  split
  · rename_i e he
    simpa using text_error_isCaught he
  · split
    · rename_i e he
      exact answered_refuseRequest he _ _
    · split
      · split
        · rename_i e db' he
          exact answered_updateFailure (defined_updateMetaData _ _ _ e (by rw [he])) _ _
        · simp
      · rename_i e _ he
        simpa using text_error_isCaught he
      · rename_i e he _
        simpa using member_error_isCaught he

end Protected

section Set

theorem text_of_valid {enum required : List String} {properties : List (String × Schema)}
    {request : Json} (h : valid pf.numerics (.mk [.object] enum required properties) request = true)
    {k : String} (hk : k ∈ required) : ∃ s, text request k = .ok s := by
  obtain ⟨v, hv⟩ := get?_of_valid pf.numerics h hk
  exact ⟨v.asString, by simp [text, member_of_get? hv, Except.map]⟩

/-- A set request is answered: its path is a well-formed query, and where this matches
something, the channel has an entry of its own for the path or only well-formed patterns. -/
def SetAnswered (pf : Platform) (db : VssDatabase) (channel : KuksaChannel) (request : Json) :
    Prop :=
  valid pf.numerics schemaSet request = true → request.contains (attributeOf request) = true →
    ∀ path, text request "path" = .ok path →
      ∃ ls, pf.jsonPath.matches? db.dataTree (VSSPath.fromVSS path).jsonpath = .ok ls ∧
        (ls ≠ [] →
          AccessChecker.ownPermission channel.permissions (VSSPath.fromVSS path).vssgen1path ≠ "" ∨
          AccessChecker.PatternsCompile pf.regex channel.permissions)

theorem answered_performSet_iff (path : VSSPath) (attr requestId : String) (value : Json) :
    Answered (performSet pf ck db channel path attr requestId value).1 ↔
      ∃ ls, pf.jsonPath.matches? db.dataTree path.jsonpath = .ok ls ∧
        (ls ≠ [] → AccessChecker.ownPermission channel.permissions path.vssgen1path ≠ "" ∨
          AccessChecker.PatternsCompile pf.regex channel.permissions) := by
  cases hm : pf.jsonPath.matches? db.dataTree path.jsonpath with
  | error msg =>
    have hq : jsonQuery pf.jsonPath db.dataTree path.jsonpath = .error (.jsonpathError msg) :=
      jsonQuery_error_iff.mpr ⟨msg, JsonPath.matches?_error_iff.mp hm, rfl⟩
    simp [performSet, setRefusal, pathExists, VSSPath.getJSONPath, hq, Except.map, isCaught,
      Exn.jsonpathError]
  | ok ls =>
    have hq := jsonQuery_eq_ok_iff.mpr (JsonPath.query_of_matches hm)
    have hlen := JsonPath.query_length hm (JsonPath.query_of_matches hm)
    have hex : pathExists pf.jsonPath db path = .ok (decide (ls ≠ [])) := by
      simp [pathExists, VSSPath.getJSONPath, hq, Except.map, hlen]
    by_cases hls : ls = []
    · simp [performSet, setRefusal, hex, hls]
    · simp only [hls, ne_eq, not_false_eq_true, decide_true] at hex
      rw [← AccessChecker.checkSignalAccess_isOk_iff pf.regex channel path.vssgen1path "w"]
      simp only [Except.ok.injEq, exists_eq_left', ne_eq, hls, not_false_eq_true, forall_const]
      change _ ↔ ∃ b, AccessChecker.checkWriteAccess pf.regex channel path = .ok b
      cases hw : AccessChecker.checkWriteAccess pf.regex channel path with
      | error e =>
        have hk := AccessChecker.checkSignalAccess_error pf.regex hw
        simp [performSet, setRefusal, hex, hw, isCaught, hk]
      | ok granted =>
        have hwr : ∃ b, pathIsWritable pf.jsonPath db path = .ok b := by
          simp [pathIsWritable, VSSPath.getJSONPath, hq, Except.map]
        have hat : ∃ b, pathIsAttributable pf.jsonPath db path attr = .ok b := by
          simp [pathIsAttributable, VSSPath.getJSONPath, hq, Except.map]
        obtain ⟨bw, hbw⟩ := hwr
        obtain ⟨ba, hba⟩ := hat
        have hset := @defined_setSignal pf.jsonPath pf.numerics ck db path attr value
        have hok : Answered (performSet pf ck db channel path attr requestId value).1 := by
          unfold performSet
          cases granted <;> cases bw <;> cases ba <;> simp only [setRefusal, hex, hw, hbw, hba] <;>
            try exact answered_ok _
          cases hs : setSignal pf.jsonPath pf.numerics ck db path attr value with
          | mk r rest =>
            cases r with
            | error e => exact answered_setFailure (hset e (by rw [hs])) _ _
            | ok data => exact answered_ok _
        simpa using hok

theorem answered_processSet_iff (request : Json) :
    Answered (processSet pf ck db channel request).1 ↔ SetAnswered pf db channel request := by
  unfold processSet SetAnswered
  cases hv : validateRequest pf schemaSet request with
  | error e => simp [answered_refuseRequest hv, not_valid_of_error pf.numerics hv]
  | ok u =>
    have hvalid := (validate_eq_ok_iff pf.numerics).mp hv
    obtain ⟨requestId, hid⟩ := text_of_valid hvalid (k := "requestId") (by simp)
    simp only [hvalid, hid, forall_const]
    cases hp : text request "path" with
    | error e => simp [text_error_isCaught hp]
    | ok path =>
      cases hm : request.member (attributeOf request) with
      | error e => simp [member_error_isCaught hm, contains_of_member_error hm]
      | ok value =>
        simp only [contains_of_member hm, forall_const, Except.ok.injEq, forall_eq']
        exact answered_performSet_iff _ _ _ _

end Set

section GetMetaData

/-- A query is answered when it is well formed, and there is room for its single match. -/
def DottedAnswered (jp : JsonPath) (tree : Json) (room : ℕ) (queries : List String) : Prop :=
  ∀ i q, queries[i]? = some q →
    (∀ p ∈ queries.take i, ∃ l, jp.matches? tree p = .ok [l]) →
    ∃ ls, jp.matches? tree q = .ok ls ∧ (ls.length = 1 → i < room)

theorem dottedAnswered_nil (jp : JsonPath) (tree : Json) (room : ℕ) :
    DottedAnswered jp tree room [] := by simp [DottedAnswered]

theorem dottedAnswered_cons {jp : JsonPath} {tree : Json} {room : ℕ} {q : String}
    {qs : List String} : DottedAnswered jp tree room (q :: qs) ↔
      ∃ ls, jp.matches? tree q = .ok ls ∧
        (ls.length = 1 → 0 < room ∧ DottedAnswered jp tree (room - 1) qs) := by
  constructor
  · intro h
    obtain ⟨ls, hm, hr⟩ := h 0 q rfl (by simp)
    refine ⟨ls, hm, fun hl => ⟨hr hl, fun i p hp hu => ?_⟩⟩
    obtain ⟨l, rfl⟩ := List.length_eq_one_iff.mp hl
    obtain ⟨ks, hk, hroom⟩ := h (i + 1) p (by simpa using hp) (by
      simp only [List.take_succ_cons, List.mem_cons, forall_eq_or_imp]
      exact ⟨⟨l, hm⟩, hu⟩)
    exact ⟨ks, hk, fun hl => by have := hroom hl; omega⟩
  · rintro ⟨ls, hm, hr⟩ i p hp hu
    cases i with
    | zero =>
      obtain rfl : q = p := by simpa using hp
      exact ⟨ls, hm, fun hl => (hr hl).1⟩
    | succ i =>
      simp only [List.take_succ_cons, List.mem_cons, forall_eq_or_imp] at hu
      obtain ⟨⟨l, hl⟩, hu⟩ := hu
      obtain rfl : ls = [l] := Except.ok.inj (hm.symm.trans hl)
      obtain ⟨ks, hk, hroom⟩ := (hr rfl).2 i p (by simpa using hp) hu
      exact ⟨ks, hk, fun h1 => by have := hroom h1; omega⟩

theorem metaDataNodes_isOk_iff (jp : JsonPath) (tree : Json) (tokens : List String)
    (formatPath : String) (parents : List (String × Json)) (hp : parents.length ≤ maxParents) :
    (∀ e, metaDataNodes jp tree tokens formatPath parents = .error e → isCaught e = true) ↔
      DottedAnswered jp tree (maxParents - parents.length) (formatPaths tokens formatPath) := by
  induction tokens generalizing formatPath parents with
  | nil => simp [metaDataNodes, formatPaths, dottedAnswered_nil]
  | cons token tokens ih =>
    by_cases hc : tokens ≠ [] ∧ token = "children"
    · simp only [metaDataNodes, formatPaths, if_pos hc]
      exact ih _ _ hp
    simp only [formatPaths, if_neg hc, dottedAnswered_cons]
    obtain ⟨msg, hm, he⟩ | ⟨ls, hm, hl, he⟩ | ⟨l, shown, hm, he⟩ :=
      metaDataNodes_query jp tree formatPath parents hc
    · simp [he, hm, isCaught, Exn.jsonpathError]
    · simp [he, hm, hl]
    · rw [he]
      simp only [hm, Except.ok.injEq, exists_eq_left', List.length_singleton, forall_const]
      by_cases hr : parents.length < maxParents
      · simp only [hr, ↓reduceIte]
        rw [ih _ _ (by simp only [List.length_append, List.length_singleton]; omega)]
        simp only [List.length_append, List.length_singleton, Nat.sub_add_eq]
        exact ⟨fun h => ⟨by omega, h⟩, fun h => h.2⟩
      · have hz : ¬ 0 < maxParents - parents.length := by omega
        simp [hr, hz, isCaught]

/-- A request for metadata is answered: its path is a well-formed query, and the names on the
way to its first match, spelled with dots, are well-formed queries for at most 16 nodes. -/
def MetaDataAnswered (pf : Platform) (db : VssDatabase) (request : Json) : Prop :=
  valid pf.numerics schemaGet request = true → ∀ path, text request "path" = .ok path →
    ∃ ls, pf.jsonPath.matches? db.metaTree (VSSPath.fromVSS path).jsonpath = .ok ls ∧
      ∀ l, ls.head? = some l → DottedAnswered pf.jsonPath db.metaTree maxParents
        (formatPaths (getVSSTokens l.toPath) "$")

theorem nestParents_error {result : Json} {parents : List (String × Json)} {e : Exn}
    (h : nestParents result parents = .error e) : isCaught e = true := by
  simp [isCaught, nestParents_kind h]

theorem getMetaData_isOk_iff (jp : JsonPath) (path : VSSPath) :
    (∀ e, getMetaData jp db path = .error e → isCaught e = true) ↔
      ∃ ls, jp.matches? db.metaTree path.jsonpath = .ok ls ∧
        ∀ l, ls.head? = some l → DottedAnswered jp db.metaTree maxParents
          (formatPaths (getVSSTokens l.toPath) "$") := by
  unfold getMetaData JsonPath.queryPaths VSSPath.getJSONPath
  cases hm : jp.matches? db.metaTree path.jsonpath with
  | error msg => simp [Except.map, isCaught, Exn.jsonpathError]
  | ok ls =>
    cases ls with
    | nil => simp [Except.map]
    | cons l ls =>
      have hiff := metaDataNodes_isOk_iff jp db.metaTree (getVSSTokens l.toPath) "$" [] (by simp)
      simp only [List.length_nil, Nat.sub_zero] at hiff
      simp only [Except.map, List.map_cons, Except.ok.injEq, exists_eq_left', List.head?_cons,
        Option.some.injEq, forall_eq', ← hiff]
      cases hn : metaDataNodes jp db.metaTree (getVSSTokens l.toPath) "$" [] with
      | error e => simp
      | ok r =>
        cases r with
        | none => simp
        | some parents => simpa using fun e h => nestParents_error h

theorem answered_processGetMetaData_iff (request : Json) :
    Answered (processGetMetaData pf ck db request) ↔ MetaDataAnswered pf db request := by
  unfold processGetMetaData MetaDataAnswered
  cases hp : text request "path" with
  | error e => simp [text_error_isCaught hp]
  | ok path =>
    cases hv : validateRequest pf schemaGet request with
    | error e => simp [answered_refuseRequest hv, not_valid_of_error pf.numerics hv]
    | ok u =>
      have hvalid := (validate_eq_ok_iff pf.numerics).mp hv
      obtain ⟨requestId, hid⟩ := text_of_valid hvalid (k := "requestId") (by simp)
      simp only [hvalid, hid, forall_const, Except.ok.injEq, forall_eq', ← getMetaData_isOk_iff]
      cases getMetaData pf.jsonPath db (.fromVSS path) <;> simp [Except.map, Answered]

end GetMetaData

section Authorize

/-- A verified token that is not yet expired is answered: its right to modify the tree is a
truth value, and its permissions are an object. -/
def TokenAnswered (pf : Platform) (auth : Authenticator) (token : String) : Prop :=
  ∀ claims ttl, pf.jwt.decode token = .ok claims → pf.jwt.verify auth.pubkey token = .ok () →
    Authenticator.expiry pf.numerics claims = .ok ttl → 0 < ttl →
      (∀ v, Members.get? "modifyTree" claims = some v → ∃ b, asBool pf.numerics v = .ok b) ∧
      ∀ v, Members.get? "kuksa-vss" claims = some v → v.isObject = true

theorem asBool_error {nm : Numerics} {j : Json} {e : Exn} (h : asBool nm j = .error e) :
    isCaught e = false := by
  rw [asBool_eq_error h]
  rfl

theorem mayModifyTree_answered_iff {nm : Numerics} (claims : List (String × Json)) :
    (∀ e, Authenticator.mayModifyTree nm claims = .error e → isCaught e = true) ↔
      ∀ v, Members.get? "modifyTree" claims = some v → ∃ b, asBool nm v = .ok b := by
  unfold Authenticator.mayModifyTree
  cases Members.get? "modifyTree" claims with
  | none => simp
  | some v =>
    cases hb : asBool nm v with
    | error e => simp [hb, asBool_error hb]
    | ok b => simp [hb]

theorem permissionsOf_answered_iff (claims : List (String × Json)) :
    (∀ e, Authenticator.permissionsOf claims = .error e → isCaught e = true) ↔
      ∀ v, Members.get? "kuksa-vss" claims = some v → v.isObject = true := by
  unfold Authenticator.permissionsOf
  cases Members.get? "kuksa-vss" claims with
  | none => simp
  | some v => cases v <;> simp [objectRange, Except.map, isObject, isCaught]

theorem resolvePermissions_answered_iff {claims : List (String × Json)}
    (hd : pf.jwt.decode channel.authToken = .ok claims) :
    (∀ e, (Authenticator.resolvePermissions pf.jwt pf.numerics channel).1 = .error e →
        isCaught e = true) ↔
      (∀ v, Members.get? "modifyTree" claims = some v → ∃ b, asBool pf.numerics v = .ok b) ∧
      ∀ v, Members.get? "kuksa-vss" claims = some v → v.isObject = true := by
  rw [← mayModifyTree_answered_iff, ← permissionsOf_answered_iff]
  unfold Authenticator.resolvePermissions
  simp only [hd]
  cases hm : Authenticator.mayModifyTree pf.numerics claims with
  | error e =>
    have hne : isCaught e = false := by
      unfold Authenticator.mayModifyTree at hm
      split at hm
      · simp at hm
      · exact asBool_error hm
    simp [hne]
  | ok modify => cases hp : Authenticator.permissionsOf claims <;> simp

variable (channel) in
theorem validate_answered_iff (auth : Authenticator) (token : String) :
    (∀ e, (auth.validate pf.jwt pf.numerics channel token).1 = .error e → isCaught e = true) ↔
      TokenAnswered pf auth token := by
  have refused (h : ∀ claims ttl, pf.jwt.decode token = .ok claims →
      pf.jwt.verify auth.pubkey token = .ok () →
      Authenticator.expiry pf.numerics claims = .ok ttl → ¬ 0 < ttl) :
      TokenAnswered pf auth token := fun claims ttl hd hv hx ht => absurd ht (h claims ttl hd hv hx)
  unfold Authenticator.validate Authenticator.validateToken
  cases hd : pf.jwt.decode token with
  | error e => simpa using refused fun claims ttl h => by simp [hd] at h
  | ok claims =>
    cases hv : pf.jwt.verify auth.pubkey token with
    | error e => simpa using refused fun claims ttl _ h => by simp [hv] at h
    | ok u =>
      cases hx : Authenticator.expiry pf.numerics claims with
      | error e =>
        have h := refused fun claims' ttl h _ h' => by
          obtain rfl : claims = claims' := Except.ok.inj (hd.symm.trans h)
          simp [hx] at h'
        simpa [hx] using h
      | ok ttl =>
        by_cases ht : 0 < ttl
        · have hc : pf.jwt.decode ((channel.setAuthorized true).setAuthToken token).authToken =
              .ok claims := hd
          have hr := resolvePermissions_answered_iff hc
          have hiff : TokenAnswered pf auth token ↔
              (∀ v, Members.get? "modifyTree" claims = some v →
                ∃ b, asBool pf.numerics v = .ok b) ∧
              ∀ v, Members.get? "kuksa-vss" claims = some v → v.isObject = true := by
            constructor
            · intro h
              exact h claims ttl hd hv hx ht
            · intro h claims' _ hd' _ _ _
              obtain rfl : claims = claims' := Except.ok.inj (hd.symm.trans hd')
              exact h
          rw [hiff, ← hr]
          simp only [hx, ht, ↓reduceIte]
          cases Authenticator.resolvePermissions pf.jwt pf.numerics
            ((channel.setAuthorized true).setAuthToken token) with
          | mk r c => cases r <;> simp
        · have h := refused fun claims' ttl' h _ h' => by
            obtain rfl : claims = claims' := Except.ok.inj (hd.symm.trans h)
            obtain rfl : ttl = ttl' := Except.ok.inj (hx.symm.trans h')
            exact ht
          simpa [hx, ht] using h

theorem answered_processAuthorize_iff (auth : Authenticator) (requestId token : String) :
    Answered (processAuthorize pf ck auth channel requestId token).1 ↔
      TokenAnswered pf auth token := by
  rw [← validate_answered_iff channel]
  unfold processAuthorize
  cases auth.validate pf.jwt pf.numerics channel token with
  | mk r c =>
    cases r with
    | error e => simp
    | ok ttl =>
      simp only
      split_ifs <;> simp

end Authorize

/-- What the three handlers that let exceptions through ask of a request. -/
structure RequestAnswered (pf : Platform) (sv : Server) (channel : KuksaChannel) (root : Json) :
    Prop where
  set : text root "action" = .ok "set" → SetAnswered pf sv.database channel root
  getMetaData : text root "action" = .ok "getMetaData" → MetaDataAnswered pf sv.database root
  authorize : text root "action" = .ok "authorize" → ∀ token requestId,
    text root "tokens" = .ok token → text root "requestId" = .ok requestId →
      TokenAnswered pf sv.tokenValidator token

theorem requestAnswered_iff {root : Json} {action : String} (h : text root "action" = .ok action) :
    RequestAnswered pf sv channel root ↔
      (action = "set" → SetAnswered pf sv.database channel root) ∧
      (action = "getMetaData" → MetaDataAnswered pf sv.database root) ∧
      (action = "authorize" → ∀ token requestId, text root "tokens" = .ok token →
        text root "requestId" = .ok requestId → TokenAnswered pf sv.tokenValidator token) := by
  have hr : RequestAnswered pf sv channel root ↔ _ ∧ _ ∧ _ :=
    ⟨fun h => ⟨h.set, h.getMetaData, h.authorize⟩, fun ⟨h₁, h₂, h₃⟩ => ⟨h₁, h₂, h₃⟩⟩
  simpa only [h, Except.ok.injEq] using hr

variable (ck) in
theorem answered_dispatch_iff (subId : SubscriptionId) (root : Json) :
    Answered (dispatch pf ck sv subId channel root).1 ↔ RequestAnswered pf sv channel root := by
  unfold dispatch
  cases ha : text root "action" with
  | error e =>
    have hr : RequestAnswered pf sv channel root := by constructor <;> simp [ha]
    simp [text_error_isCaught ha, hr]
  | ok action =>
    rw [requestAnswered_iff ha]
    simp only
    by_cases h₁ : action = "get"
    · rw [if_pos h₁]
      simp [h₁, answered_processGet]
    rw [if_neg h₁]
    by_cases h₂ : action = "set"
    · rw [if_pos h₂]
      simp [h₂, answered_processSet_iff]
    rw [if_neg h₂]
    by_cases h₃ : action = "getMetaData"
    · rw [if_pos h₃]
      simp [h₃, answered_processGetMetaData_iff]
    rw [if_neg h₃]
    by_cases h₄ : action = "updateMetaData"
    · rw [if_pos h₄]
      simp [h₄, answered_processUpdateMetaData]
    rw [if_neg h₄]
    by_cases h₅ : action = "authorize"
    · rw [if_pos h₅]
      subst h₅
      split
      · rename_i token requestId ht hid
        simp [answered_processAuthorize_iff, ht, hid]
      · rename_i e he
        simp [text_error_isCaught he, he]
      · rename_i e he _
        simp [text_error_isCaught he, he]
    rw [if_neg h₅]
    by_cases h₆ : action = "unsubscribe"
    · rw [if_pos h₆]
      simp [h₆, answered_processUnsubscribe]
    rw [if_neg h₆]
    by_cases h₇ : action = "subscribe"
    · rw [if_pos h₇]
      simp [h₇, answered_processSubscribe]
    rw [if_neg h₇]
    by_cases h₈ : action = "updateVSSTree"
    · rw [if_pos h₈]
      simp [h₈, answered_processUpdateVSSTree]
    · rw [if_neg h₈]
      simp [h₂, h₃, h₅, answered_tryExtractRequestId]

/-- A request string has an answer, unless it is a request to set, to get metadata or to
authorize with something in it that the libraries refuse. -/
theorem processQuery_answers_iff (pf : Platform) (ck : Clock) (sv : Server)
    (subId : SubscriptionId) (reqJson : String) (channel : KuksaChannel) :
    (∃ answer, (processQuery pf ck sv subId reqJson channel).1 = .ok answer) ↔
      ∀ root, pf.parse reqJson = .ok root → RequestAnswered pf sv channel root := by
  unfold processQuery
  cases hr : pf.parse reqJson with
  | error e => simp
  | ok root =>
    simp only [Except.ok.injEq, forall_eq']
    rw [← answered_dispatch_iff ck subId root]
    cases hd : dispatch pf ck sv subId channel root with
    | mk r rest =>
      cases r with
      | error e => cases hc : isCaught e <;> simp [hc]
      | ok answer => simp

section Quote

def quoteRequest : Json :=
  .obj [("action", .str "set"), ("path", .str "Vehicle/'"), ("requestId", .str "1"),
    ("value", .int 5)]

def quotePlatform : Platform :=
  .basic fun s => if s = dump quoteRequest then .ok quoteRequest else .error "Parse error"

/-- A quote in the path of a set request escapes from the dispatch as an exception. -/
theorem processQuery_quote_escapes :
    ¬ ∃ answer, (processQuery quotePlatform midnight ⟨⟨speedTree, speedTree⟩, ⟨[], []⟩, ⟨""⟩⟩ 0
      (dump quoteRequest) {}).1 = .ok answer := by
  have h : ((processQuery quotePlatform midnight ⟨⟨speedTree, speedTree⟩, ⟨[], []⟩, ⟨""⟩⟩ 0
      (dump quoteRequest) {}).1.toOption) = none := by decide +kernel
  rintro ⟨answer, ha⟩
  simp [ha, Except.toOption] at h

end Quote

end VssCommandProcessor
