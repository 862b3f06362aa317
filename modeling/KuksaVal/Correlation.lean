import KuksaVal.Authorization
import KuksaVal.QueryAnswers
import KuksaVal.TokenRights
import KuksaVal.TreeAgreement

/-! Which answers name the action and the number of the request that they are for. -/
namespace VssCommandProcessor
open Json JsonResponses VSSRequestValidator AccessChecker VssDatabase

/-- The answer names its action and its request. -/
def Correlated (action requestId : String) (answer : Json) : Prop :=
  answer.get? "action" = some (.str action) ∧ answer.get? "requestId" = some (.str requestId)

/-- A handler answers by name, and throws nothing that the dispatch answers for it. -/
def Correlates (action requestId : String) (r : Except Exn Json) : Prop :=
  (∀ answer, r = .ok answer → Correlated action requestId answer) ∧
    ∀ e, r = .error e → isCaught e = false

variable {pf : Platform} {ck : Clock} {sv : Server} {db : VssDatabase} {subId : SubscriptionId}
  {channel : KuksaChannel} {request : Json} {action requestId : String}

@[simp] theorem correlates_ok {answer : Json} :
    Correlates action requestId (.ok answer) ↔ Correlated action requestId answer := by
  simp [Correlates]

@[simp] theorem correlates_error {e : Exn} :
    Correlates action requestId (.error e) ↔ isCaught e = false := by
  simp [Correlates]

theorem correlated_errorAnswer_iff {a : Option String} {id number reason message : String} :
    Correlated action requestId (errorAnswer ck a id number reason message) ↔
      a = some action ∧ id = requestId := by
  unfold Correlated errorAnswer
  rw [get?_ofMembers, get?_ofMembers]
  cases a <;> simp [Members.get?_cons]

theorem correlated_ofMembers_iff {ms : List (String × Json)} :
    Correlated action requestId (ofMembers ms) ↔
      Members.get? "action" ms.reverse = some (.str action) ∧
        Members.get? "requestId" ms.reverse = some (.str requestId) := by
  simp [Correlated, get?_ofMembers]

theorem not_correlated_malFormedMessage {message id : String} :
    ¬ Correlated action requestId (malFormedMessage ck message id) := by
  simp [malFormedMessage, correlated_errorAnswer_iff]

theorem not_correlated_str {s : String} : ¬ Correlated action requestId (.str s) := by
  simp [Correlated, get?]

theorem text_of_get? {k s : String} (h : request.get? k = some (.str s)) :
    text request k = .ok s := by
  simp [text, member_of_get? h, Except.map, asString]

theorem text_ok_of_get? {k : String} {v : Json} (h : request.get? k = some v) :
    text request k = .ok v.asString := by
  simp [text, member_of_get? h, Except.map]

/-- The dispatch answers what it catches without a name. -/
theorem processQuery_correlates_iff {reqJson : String} (hp : pf.parse reqJson = .ok request) :
    (∀ answer, (processQuery pf ck sv subId reqJson channel).1 = .ok answer →
        Correlated action requestId answer) ↔
      Correlates action requestId (dispatch pf ck sv subId channel request).1 := by
  unfold processQuery
  simp only [hp]
  split
  · rename_i e _ _ hd
    rw [hd]
    cases hc : isCaught e with
    | true => simp [hc, not_correlated_malFormedMessage]
    | false => simp [hc]
  · rename_i answer _ _ hd
    rw [hd]
    simp

theorem tryExtractRequestId_of_get? (hid : request.get? "requestId" = some (.str requestId)) :
    tryExtractRequestId request = .ok requestId := by
  cases request with
  | obj ms =>
    have hm : Members.get? "requestId" ms = some (.str requestId) := hid
    simp [tryExtractRequestId, hm, asString]
  | _ => simp [get?] at hid

section Exits

/-- A request that its schema refuses is answered by name. -/
theorem correlates_refuseRequest (hid : request.get? "requestId" = some (.str requestId))
    {schema : Schema} {e : Exn} (hv : validateRequest pf schema request = .error e)
    (unhandledAction : String) :
    Correlates action requestId (refuseRequest ck action unhandledAction request e) := by
  have hk : e.kind = .schemaError := by
    unfold validateRequest validate at hv
    split_ifs at hv
    exact Except.error.inj hv ▸ rfl
  simp [refuseRequest, hk, tryExtractRequestId_of_get? hid, Except.map, malFormedRequest,
    correlated_errorAnswer_iff]

theorem correlates_answerUnhandled_iff {a : String} {e : Exn} :
    Correlates action requestId (answerUnhandled ck requestId a e) ↔
      e.kind = .undefinedBehaviour ∨ a = action := by
  unfold answerUnhandled
  split_ifs with h
  · simp [h, isCaught]
  · simp [h, malFormedRequest, correlated_errorAnswer_iff]

end Exits

section Get

variable (pf db channel request) in
/-- A readable leaf is found before the attribute turns out not to be one of the path. -/
def MisnamesGet (path : String) : Prop :=
  valid pf.numerics schemaGet request = true ∧
    ∃ p ps, db.getLeafPaths pf.jsonPath (.fromVSS path) = .ok (p :: ps) ∧
      checkReadAccess pf.regex channel p = .ok true ∧
      db.pathIsAttributable pf.jsonPath (.fromVSS path) (attributeOf request) = .ok false

theorem correlated_collectDatapoints {path : VSSPath} {pathStr attr : String}
    (ha : db.pathIsAttributable pf.jsonPath path attr ≠ .ok false) {vssPaths : List VSSPath}
    {answer : Json} (h : collectDatapoints pf ck db channel path pathStr attr requestId vssPaths =
      .ok (.inl answer)) : Correlated "get" requestId answer := by
  induction vssPaths with
  | nil => simp [collectDatapoints] at h
  | cons p ps ih =>
    unfold collectDatapoints at h
    split at h
    · simp at h
    · obtain rfl := Sum.inl.inj (Except.ok.inj h)
      simp [noAccess, correlated_errorAnswer_iff]
    · split at h
      · simp at h
      · rename_i hf
        exact absurd hf ha
      · split at h
        · simp at h
        · cases hc : collectDatapoints pf ck db channel path pathStr attr requestId ps with
          | error e => simp [hc] at h
          | ok r =>
            rw [hc] at h
            cases r with
            | inl answer' =>
              obtain rfl := Sum.inl.inj (Except.ok.inj h)
              exact ih hc
            | inr dps => simp at h

variable (ck requestId) in
/-- The loop over the leaves answers under another name where the first leaf is readable and
the attribute is not one of the path, and only there. -/
theorem correlated_performGet_iff {path : VSSPath} (pathStr : String) {attr : String} :
    (∀ answer, performGet pf ck db channel path pathStr attr requestId = .ok answer →
        Correlated "get" requestId answer) ↔
      ¬ ∃ p ps, db.getLeafPaths pf.jsonPath path = .ok (p :: ps) ∧
        checkReadAccess pf.regex channel p = .ok true ∧
        db.pathIsAttributable pf.jsonPath path attr = .ok false := by
  constructor
  · rintro h ⟨p, ps, hl, hr, ha⟩
    have hc := h (noAccess ck requestId "set"
      ("Can not get " ++ path.toString ++ " with attribute " ++ attr ++ ".")) (by
        simp only [performGet, hl, collectDatapoints, hr, ha])
    simp [noAccess, correlated_errorAnswer_iff] at hc
  · intro hno answer h
    unfold performGet at h
    split at h
    · simp at h
    · rename_i vssPaths hl
      split at h
      · simp at h
      · rename_i answer' hc
        obtain rfl := Except.ok.inj h
        by_cases ha : db.pathIsAttributable pf.jsonPath path attr = .ok false
        · -- The first leaf decides, and it is not readable.
          cases vssPaths with
          | nil => simp [collectDatapoints] at hc
          | cons p ps =>
            unfold collectDatapoints at hc
            split at hc
            · simp at hc
            · obtain rfl := Sum.inl.inj (Except.ok.inj hc)
              simp [noAccess, correlated_errorAnswer_iff]
            · rename_i hr
              exact absurd ⟨p, ps, hl, hr, ha⟩ hno
        · exact correlated_collectDatapoints ha hc
      · split_ifs at h
        · obtain rfl := Except.ok.inj h
          simp [pathNotFound, correlated_errorAnswer_iff]
        · obtain rfl := Except.ok.inj h
          simp [getAnswer, correlated_ofMembers_iff, Members.get?_cons]

theorem correlates_getFailure (e : Exn) : Correlates "get" requestId (getFailure ck requestId e) := by
  unfold getFailure
  split_ifs
  · simp [notSetResponse, correlated_errorAnswer_iff]
  · exact correlates_answerUnhandled_iff.mpr (Or.inr rfl)

theorem processGet_correlates_iff (hid : request.get? "requestId" = some (.str requestId)) :
    Correlates "get" requestId (processGet pf ck db channel request) ↔
      ∃ path, text request "path" = .ok path ∧ ¬ MisnamesGet pf db channel request path := by
  unfold processGet MisnamesGet
  cases hp : text request "path" with
  | error e => simp [text_error_isCaught hp]
  | ok path =>
    simp only [Except.ok.injEq, exists_eq_left']
    cases hv : validateRequest pf schemaGet request with
    | error e =>
      simpa [not_valid_of_error pf.numerics hv] using correlates_refuseRequest hid hv "get"
    | ok u =>
      have hval : valid pf.numerics schemaGet request = true :=
        (validate_eq_ok_iff pf.numerics).mp hv
      simp only [text_of_get? hid, hval, true_and]
      rw [← correlated_performGet_iff ck requestId path]
      cases hg : performGet pf ck db channel (.fromVSS path) path (attributeOf request)
        requestId with
      | error e => simpa using correlates_getFailure e
      | ok answer => simp

end Get

section Set

variable (pf db channel request) in
/-- A set has a value, and the node that it passes the checks for has a supported datatype. -/
def NamesSet : Prop :=
  valid pf.numerics schemaSet request = true → request.contains (attributeOf request) = true ∧
    ∀ path, text request "path" = .ok path → ∀ l node,
      Resolves pf.jsonPath db.dataTree (.fromVSS path) l node →
      checkWriteAccess pf.regex channel (.fromVSS path) = .ok true → IsSettable node →
      db.pathIsAttributable pf.jsonPath (.fromVSS path) (attributeOf request) = .ok true →
        ∃ datatype, node.get? "datatype" = some datatype ∧
          SupportedDatatype pf.numerics datatype.asString

theorem isCaught_of_jsonQuery {e : Exn} (hk : e.kind ∈ [ExnKind.jsonpathError]) :
    isCaught e = false := by
  obtain hk : e.kind = .jsonpathError := by simpa using hk
  simp [isCaught, hk]

/-- The checks of a set throw nothing that the dispatch answers. -/
theorem setRefusal_not_caught {path : VSSPath} {attr : String} {e : Exn}
    (h : setRefusal pf ck db channel path attr requestId = .error e) : isCaught e = false := by
  have hq {f : List Json → Bool} {e : Exn}
      (h : (jsonQuery pf.jsonPath db.dataTree path.getJSONPath).map f = .error e) :
      isCaught e = false :=
    isCaught_of_jsonQuery ((throwsOnly_map f _).mpr (jsonQuery_throwsOnly _ _) e h)
  unfold setRefusal at h
  split at h
  · rename_i he
    obtain rfl := Except.error.inj h
    exact hq he
  · simp at h
  · split at h
    · rename_i he
      obtain rfl := Except.error.inj h
      have hk := checkSignalAccess_error pf.regex he
      simp [isCaught, hk]
    · simp at h
    · split at h
      · rename_i he
        obtain rfl := Except.error.inj h
        exact hq he
      · simp at h
      · split at h
        · rename_i he
          obtain rfl := Except.error.inj h
          exact hq he
        · simp at h
        · simp at h

variable (ck) in
/-- The store reports a generic exception for a node without a supported datatype, and only
for such a node. -/
theorem setSignal_generic_iff {path : VSSPath} (attr : String) (value : Json) {node : Json} {l : Loc}
    (hr : Resolves pf.jsonPath db.dataTree path l node) :
    (∃ e, (db.setSignal pf.jsonPath pf.numerics ck path attr value).1 = .error e ∧
        e.kind = .genException) ↔
      ¬ ∃ datatype, node.get? "datatype" = some datatype ∧
        SupportedDatatype pf.numerics datatype.asString := by
  unfold setSignal VSSPath.getJSONPath
  simp only [hr.query]
  cases hd : node.get? "datatype" with
  | none => simp [contains, hd, Exn.genException]
  | some datatype =>
    obtain ⟨hs, hn⟩ := checkAndSanitizeType_throws pf.numerics hd value
    have hc : node.contains "datatype" = true := by simp [contains, hd]
    simp only [hc, ↓reduceIte, Option.some.injEq, exists_eq_left']
    cases hsan : checkAndSanitizeType pf.numerics node value with
    | error e =>
      simp only [Except.error.injEq, exists_eq_left']
      by_cases hsup : SupportedDatatype pf.numerics datatype.asString
      · have hk := hs hsup e hsan
        simp only [hsup, not_true_eq_false, iff_false]
        intro hg
        simp [conversionKinds, hg] at hk
      · obtain ⟨msg, he⟩ := hn hsup
        rw [hsan] at he
        obtain rfl := Except.error.inj he
        simp [hsup, Exn.genException]
    | ok stored =>
      have hsup : SupportedDatatype pf.numerics datatype.asString := by
        by_contra hno
        obtain ⟨msg, he⟩ := hn hno
        simp [he] at hsan
      simp only [hr.jsonReplace, hsup]
      simp

theorem correlates_setFailure_iff {path : VSSPath} {e : Exn} :
    Correlates "set" requestId (setFailure pf ck path requestId e) ↔ e.kind ≠ .genException := by
  obtain ⟨kind, what⟩ := e
  cases kind <;> simp [setFailure, correlates_answerUnhandled_iff, pathNotFound, valueOutOfBounds,
    noAccess, correlated_errorAnswer_iff, not_correlated_str]

theorem processSet_correlates_iff (hid : request.get? "requestId" = some (.str requestId)) :
    Correlates "set" requestId (processSet pf ck db channel request).1 ↔
      NamesSet pf db channel request := by
  unfold processSet NamesSet
  cases hv : validateRequest pf schemaSet request with
  | error e => simpa [not_valid_of_error pf.numerics hv] using correlates_refuseRequest hid hv "set"
  | ok u =>
    have hval : valid pf.numerics schemaSet request = true :=
      (validate_eq_ok_iff pf.numerics).mp hv
    obtain ⟨vpath, hpath⟩ := get?_of_valid pf.numerics hval (k := "path") (by simp)
    simp only [hval, forall_const, text_ok_of_get? hpath, text_of_get? hid, Except.ok.injEq,
      forall_eq']
    cases hm : request.member (attributeOf request) with
    | error e => simp [member_error_isCaught hm, contains_of_member_error hm]
    | ok value =>
      simp only [contains_of_member hm, true_and]
      unfold performSet
      cases href : setRefusal pf ck db channel (.fromVSS vpath.asString) (attributeOf request)
        requestId with
      | error e =>
        simp only [correlates_error, setRefusal_not_caught href, true_iff]
        intro l node hr hw hs ha
        rw [setRefusal_eq_none_iff.mpr ⟨l, node, hr, hw, hs, ha⟩] at href
        simp at href
      | ok refusal =>
        cases refusal with
        | some answer =>
          obtain ⟨number, reason, message, -, rfl⟩ := setRefusal_eq_some href
          simp only [correlates_ok, correlated_errorAnswer_iff, and_self, true_iff]
          intro l node hr hw hs ha
          rw [setRefusal_eq_none_iff.mpr ⟨l, node, hr, hw, hs, ha⟩] at href
          simp at href
        | none =>
          obtain ⟨l, node, hr, hw, hs, ha⟩ := setRefusal_eq_none_iff.mp href
          have hgen := setSignal_generic_iff ck (attributeOf request) value hr
          have hall : (∀ l node, Resolves pf.jsonPath db.dataTree (.fromVSS vpath.asString) l node →
              checkWriteAccess pf.regex channel (.fromVSS vpath.asString) = .ok true →
              IsSettable node → db.pathIsAttributable pf.jsonPath (.fromVSS vpath.asString)
                (attributeOf request) = .ok true → ∃ datatype,
                  node.get? "datatype" = some datatype ∧
                    SupportedDatatype pf.numerics datatype.asString) ↔
              ∃ datatype, node.get? "datatype" = some datatype ∧
                SupportedDatatype pf.numerics datatype.asString := by
            constructor
            · intro h
              exact h l node hr hw hs ha
            · rintro h l' node' hr' - - -
              obtain ⟨rfl, rfl⟩ := hr.eq hr'
              exact h
          rw [hall, ← not_iff_not, ← hgen]
          simp only
          split
          · rename_i e _ _ hset
            simp [hset, correlates_setFailure_iff]
          · rename_i hset
            simp [hset, setAnswer, correlated_ofMembers_iff, Members.get?_cons]

end Set

section Subscriptions

variable (pf db channel request) in
/-- The path of a subscription can be queried, and the permissions decide on a readable one. -/
def NamesSubscribe : Prop :=
  valid pf.numerics schemaSubscribe request = true → ∀ path, text request "path" = .ok path →
    (∀ msg, pf.jsonPath.compile (VSSPath.fromVSS path).jsonpath ≠ .error msg) ∧
      (db.pathIsReadable pf.jsonPath (.fromVSS path) = .ok true →
        ∃ b, checkReadAccess pf.regex channel (.fromVSS path) = .ok b)

theorem correlates_subscribeFailure_iff {path : String} {e : Exn} :
    Correlates "subscribe" requestId (subscribeFailure ck requestId path e) ↔
      e.kind ∈ [.noPathFoundonTree, .noPermissionException, .genException,
        .undefinedBehaviour] := by
  obtain ⟨kind, what⟩ := e
  cases kind <;> simp [subscribeFailure, correlates_answerUnhandled_iff, pathNotFound,
    valueOutOfBounds, noAccess, correlated_errorAnswer_iff]

theorem pathExists_of_pathIsReadable {path : VSSPath}
    (h : db.pathIsReadable pf.jsonPath path = .ok true) :
    db.pathExists pf.jsonPath path = .ok true := by
  obtain ⟨l, node, hr, -⟩ := pathIsReadable_eq_true_iff.mp h
  exact hr.pathExists

/-- The checks of a subscription throw something unforeseen for a path that cannot be queried
and for a readable path on which the permissions do not decide. -/
theorem checkSubscribe_foreseen_iff {path : String} :
    (∀ e, SubscriptionHandler.checkSubscribe pf.jsonPath pf.regex db channel path = .error e →
        e.kind ∈ [.noPathFoundonTree, .noPermissionException, .genException,
          .undefinedBehaviour]) ↔
      (∀ msg, pf.jsonPath.compile (VSSPath.fromVSS path).jsonpath ≠ .error msg) ∧
        (db.pathIsReadable pf.jsonPath (.fromVSS path) = .ok true →
          ∃ b, checkReadAccess pf.regex channel (.fromVSS path) = .ok b) := by
  unfold SubscriptionHandler.checkSubscribe
  simp only
  cases hq : jsonQuery pf.jsonPath db.dataTree (VSSPath.fromVSS path).jsonpath with
  | error e =>
    obtain ⟨msg, hc, rfl⟩ := jsonQuery_error_iff.mp hq
    simp [VssDatabase.pathExists, VSSPath.getJSONPath, hq, Except.map, Exn.jsonpathError, hc]
  | ok res =>
    have hc (msg : String) : pf.jsonPath.compile (VSSPath.fromVSS path).jsonpath ≠ .error msg := by
      intro hc
      have he : jsonQuery pf.jsonPath db.dataTree (VSSPath.fromVSS path).jsonpath =
          .error (.jsonpathError msg) := jsonQuery_error_iff.mpr ⟨msg, hc, rfl⟩
      simp [hq] at he
    have hexists : ∃ b, db.pathExists pf.jsonPath (.fromVSS path) = .ok b := by
      refine ⟨decide (res.length ≠ 0), ?_⟩
      simp [VssDatabase.pathExists, VSSPath.getJSONPath, hq, Except.map]
    have hreadable : ∃ b, db.pathIsReadable pf.jsonPath (.fromVSS path) = .ok b := by
      simp [VssDatabase.pathIsReadable, VSSPath.getJSONPath, hq, Except.map]
    obtain ⟨b, hb⟩ := hreadable
    cases b with
    | false =>
      obtain ⟨b', hb'⟩ := hexists
      cases b' <;> simp [hb, hb', hc, Exn.noPathFoundonTree]
    | true =>
      simp only [pathExists_of_pathIsReadable hb, hb, forall_const]
      cases ha : checkReadAccess pf.regex channel (.fromVSS path) with
      | error e =>
        have hk := checkSignalAccess_error pf.regex ha
        simp [hk]
      | ok b => cases b <;> simp [hc, Exn.noPermissionException]

theorem processSubscribe_correlates_iff
    (hid : request.get? "requestId" = some (.str requestId)) :
    Correlates "subscribe" requestId (processSubscribe pf ck sv subId channel request).1 ↔
      NamesSubscribe pf sv.database channel request := by
  unfold processSubscribe NamesSubscribe
  cases hv : validateRequest pf schemaSubscribe request with
  | error e => simpa [not_valid_of_error pf.numerics hv] using correlates_refuseRequest hid hv "get"
  | ok u =>
    have hval : valid pf.numerics schemaSubscribe request = true :=
      (validate_eq_ok_iff pf.numerics).mp hv
    obtain ⟨vpath, hpath⟩ := get?_of_valid pf.numerics hval (k := "path") (by simp)
    simp only [hval, forall_const, text_ok_of_get? hpath, text_of_get? hid, Except.ok.injEq,
      forall_eq']
    rw [← checkSubscribe_foreseen_iff]
    unfold SubscriptionHandler.subscribe
    cases hc : SubscriptionHandler.checkSubscribe pf.jsonPath pf.regex sv.database channel
      vpath.asString with
    | error e => simp [correlates_subscribeFailure_iff]
    | ok p => simp [correlated_ofMembers_iff, Members.get?_cons]

/-- A request to unsubscribe is always answered by name. -/
theorem processUnsubscribe_correlates (hid : request.get? "requestId" = some (.str requestId)) :
    Correlates "unsubscribe" requestId (processUnsubscribe pf ck sv request).1 := by
  unfold processUnsubscribe
  cases hv : validateRequest pf schemaUnsubscribe request with
  | error e => exact correlates_refuseRequest hid hv "unsubscribe"
  | ok u =>
    have hval : valid pf.numerics schemaUnsubscribe request = true :=
      (validate_eq_ok_iff pf.numerics).mp hv
    obtain ⟨vid, hsub⟩ := get?_of_valid pf.numerics hval (k := "subscriptionId") (by simp)
    simp only [text_ok_of_get? hsub, text_of_get? hid]
    cases hp : pf.parseUuid vid.asString with
    | error e =>
      simp only [tryExtractRequestId_of_get? hid, Except.map, correlates_ok]
      simp [malFormedRequest, correlated_errorAnswer_iff]
    | ok id =>
      simp only
      split_ifs
      · simp [correlated_ofMembers_iff, Members.get?_cons]
      · simp [correlated_errorAnswer_iff]

end Subscriptions

section Metadata

variable (pf db channel request)

/-- Where the tree may be updated, the defaults of its nodes can be filled in. -/
def NamesUpdateVSSTree : Prop :=
  valid pf.numerics schemaUpdateVSSTree request = true → channel.modifyTree = true →
    ∀ metadata vehicle, request.get? "metadata" = some metadata →
      metadata.get? "Vehicle" = some vehicle → ∃ j, applyDefaultValues vehicle = .ok j

/-- Where the tree may be updated, the path has one node in each tree, and that is an object. -/
def NamesUpdateMetaData (path : String) : Prop :=
  valid pf.numerics schemaUpdateMetadata request = true → channel.modifyTree = true →
    ∃ m d, jsonQuery pf.jsonPath db.metaTree (VSSPath.fromVSS path).jsonpath = .ok [m] ∧
      jsonQuery pf.jsonPath db.dataTree (VSSPath.fromVSS path).jsonpath = .ok [d] ∧
      m.isObject = true ∧ d.isObject = true

/-- The nodes above the one whose metadata is asked for are objects. -/
def NamesGetMetaData (path : String) : Prop :=
  valid pf.numerics schemaGet request = true → ∀ jPath jPaths parents,
    pf.jsonPath.queryPaths db.metaTree (VSSPath.fromVSS path).jsonpath = .ok (jPath :: jPaths) →
    metaDataNodes pf.jsonPath db.metaTree (getVSSTokens jPath) "$" [] = .ok (some parents) →
      ∀ p ∈ parents.dropLast, p.2.isObject = true

variable {pf db channel request}

theorem correlates_updateFailure_iff {e : Exn} (ha : action ≠ "get") :
    Correlates action requestId (updateFailure ck action requestId e) ↔
      e.kind ∈ [.genException, .noPermissionException, .undefinedBehaviour] := by
  obtain ⟨kind, what⟩ := e
  cases kind <;> simp [updateFailure, updateAnswer, correlates_answerUnhandled_iff, noAccess,
    correlated_errorAnswer_iff, correlated_ofMembers_iff, Members.get?_cons, Ne.symm ha]

theorem correlated_updateAnswer :
    Correlated action requestId (ofMembers (updateAnswer ck action requestId)) := by
  simp [updateAnswer, correlated_ofMembers_iff, Members.get?_cons]

variable (db) in
/-- An update of the tree fails on the defaults or, foreseen, on the patch. -/
theorem updateJsonTree_foreseen_iff (hm : channel.modifyTree = true) (jsonTree : Json) :
    (∀ e, (db.updateJsonTree channel jsonTree).1 = .error e →
        e.kind ∈ [.genException, .noPermissionException, .undefinedBehaviour]) ↔
      ∀ vehicle, jsonTree.get? "Vehicle" = some vehicle → ∃ j, applyDefaultValues vehicle = .ok j := by
  have hpatch {s t : Json} {e : Exn} (h : updateTree s t = .error e) : e.kind = .genException := by
    simpa using updateTree_throwsOnly s t e h
  unfold updateJsonTree KuksaChannel.authorizedToModifyTree
  simp only [hm, Bool.true_eq_false, ↓reduceIte]
  constructor
  · intro h vehicle hv
    cases hd : applyDefaultValues vehicle with
    | ok j => exact ⟨j, rfl⟩
    | error e =>
      have hk := applyDefaultValues_throwsOnly vehicle e hd
      have hf := h e (by simp only [hv, hd, Except.map])
      rw [List.mem_singleton.mp hk] at hf
      simp at hf
  · intro h e he
    split at he
    · rename_i e' hd
      split at hd
      · rename_i vehicle hv
        obtain ⟨j, hj⟩ := h vehicle hv
        simp [hj, Except.map] at hd
      · simp at hd
    · split at he
      · rename_i e' hp
        obtain rfl := Except.error.inj he
        simp [hpatch hp]
      · split at he
        · rename_i e' hp
          obtain rfl := Except.error.inj he
          simp [hpatch hp]
        · simp at he

theorem processUpdateVSSTree_correlates_iff
    (hid : request.get? "requestId" = some (.str requestId)) :
    Correlates "updateVSSTree" requestId (processUpdateVSSTree pf ck db channel request).1 ↔
      NamesUpdateVSSTree pf channel request := by
  unfold processUpdateVSSTree NamesUpdateVSSTree
  cases hv : validateRequest pf schemaUpdateVSSTree request with
  | error e => simpa [not_valid_of_error pf.numerics hv] using correlates_refuseRequest hid hv "updateVSSTree"
  | ok u =>
    have hval : valid pf.numerics schemaUpdateVSSTree request = true :=
      (validate_eq_ok_iff pf.numerics).mp hv
    obtain ⟨metadata, hmeta⟩ := get?_of_valid pf.numerics hval (k := "metadata") (by simp)
    simp only [hval, forall_const, text_of_get? hid, member_of_get? hmeta, hmeta,
      Option.some.injEq]
    cases hm : channel.modifyTree with
    | false =>
      have hu : db.updateJsonTree channel metadata = (.error (.noPermissionException
          "do not have write access for updating json tree or is invalid"), db) := by
        simp [updateJsonTree, KuksaChannel.authorizedToModifyTree, hm]
      simp [hu, correlates_updateFailure_iff, Exn.noPermissionException]
    | true =>
      have hf := updateJsonTree_foreseen_iff db hm metadata
      have hall : (true = true → ∀ m vehicle, metadata = m → m.get? "Vehicle" = some vehicle →
          ∃ j, applyDefaultValues vehicle = .ok j) ↔
          ∀ vehicle, metadata.get? "Vehicle" = some vehicle →
            ∃ j, applyDefaultValues vehicle = .ok j := by
        constructor
        · exact fun h vehicle hve => h rfl metadata vehicle rfl hve
        · rintro h - m vehicle rfl hve
          exact h vehicle hve
      rw [hall, ← hf]
      split
      · rename_i e db' hu
        rw [hu]
        simp [correlates_updateFailure_iff]
      · rename_i db' hu
        rw [hu]
        simp [correlated_updateAnswer]

theorem updateMetaData_of_queries {path : VSSPath} {m d : Json}
    (hm : jsonQuery pf.jsonPath db.metaTree path.jsonpath = .ok [m])
    (hd : jsonQuery pf.jsonPath db.dataTree path.jsonpath = .ok [d]) {metadata : Json}
    (ho : metadata.isObject = true) (hmo : m.isObject = true) (hdo : d.isObject = true)
    (hright : channel.modifyTree = true) :
    (db.updateMetaData pf.jsonPath channel path metadata).1 = .ok () := by
  obtain ⟨l, hl⟩ := jsonQuery_singleton_iff.mp hm
  obtain ⟨l', hl'⟩ := jsonQuery_singleton_iff.mp hd
  obtain ⟨m', hm'⟩ := mergeOrUpdate_isOk_iff.mpr ⟨hmo, ho⟩
  obtain ⟨d', hd'⟩ := mergeOrUpdate_isOk_iff.mpr ⟨hdo, ho⟩
  have hread : readForUpdate pf.jsonPath db path = .ok ([m], [d]) := by
    simp [readForUpdate, VSSPath.getJSONPath, hm, hd]
  have hmerge : mergeNodes path metadata ([m], [d]) = .ok (m', d') := by
    simp [mergeNodes, singleNode, hm', hd', Except.map]
  simp [updateMetaData, KuksaChannel.authorizedToModifyTree, hright, hread, hmerge, writeBack,
    VSSPath.getJSONPath, hl.jsonReplace, hl'.jsonReplace]

/-- With the right to the tree an update of metadata is made or fails unforeseen. -/
theorem updateMetaData_foreseen_iff {path : VSSPath} {metadata : Json}
    (ho : metadata.isObject = true) (hright : channel.modifyTree = true) :
    (∀ e, (db.updateMetaData pf.jsonPath channel path metadata).1 = .error e →
        e.kind ∈ [.genException, .noPermissionException, .undefinedBehaviour]) ↔
      ∃ m d, jsonQuery pf.jsonPath db.metaTree path.jsonpath = .ok [m] ∧
        jsonQuery pf.jsonPath db.dataTree path.jsonpath = .ok [d] ∧
        m.isObject = true ∧ d.isObject = true := by
  constructor
  · intro h
    rcases updateMetaData_cases pf.jsonPath db channel path metadata with
      ⟨e, he⟩ | ⟨l, l', m, m', d, d', hm, hd, hmm, hdm, -⟩
    · have hk := updateMetaData_throwsOnly hright path metadata e (congrArg Prod.fst he)
      have hf := h e (congrArg Prod.fst he)
      simp only [updateKinds, List.mem_cons, List.not_mem_nil, or_false] at hk
      rcases hk with hk | hk | hk <;> simp [hk] at hf
    · exact ⟨m, d, hm.query, hd.query, (mergeOrUpdate_isOk_iff.mp ⟨m', hmm⟩).1,
        (mergeOrUpdate_isOk_iff.mp ⟨d', hdm⟩).1⟩
  · rintro ⟨m, d, hm, hd, hmo, hdo⟩ e he
    rw [updateMetaData_of_queries hm hd ho hmo hdo hright] at he
    simp at he

theorem processUpdateMetaData_correlates_iff
    (hid : request.get? "requestId" = some (.str requestId)) :
    Correlates "updateMetaData" requestId (processUpdateMetaData pf ck db channel request).1 ↔
      ∃ path, text request "path" = .ok path ∧ NamesUpdateMetaData pf db channel request path := by
  unfold processUpdateMetaData NamesUpdateMetaData
  cases hp : text request "path" with
  | error e => simp [text_error_isCaught hp]
  | ok path =>
    simp only [Except.ok.injEq, exists_eq_left']
    cases hv : validateRequest pf schemaUpdateMetadata request with
    | error e =>
      simpa [not_valid_of_error pf.numerics hv] using correlates_refuseRequest hid hv "updateMetaData"
    | ok u =>
      have hval : valid pf.numerics schemaUpdateMetadata request = true :=
        (validate_eq_ok_iff pf.numerics).mp hv
      obtain ⟨metadata, hmeta⟩ := get?_of_valid pf.numerics hval (k := "metadata") (by simp)
      have ho : metadata.isObject = true := by
        have hs := property_of_valid pf.numerics hval (s := VSSRequestValidator.metadata)
          (by simp) hmeta
        simpa [VSSRequestValidator.metadata, valid, hasType, validProperties] using hs
      simp only [hval, forall_const, text_of_get? hid, member_of_get? hmeta]
      cases hm : channel.modifyTree with
      | false =>
        have hu : db.updateMetaData pf.jsonPath channel (.fromVSS path) metadata =
            (.error (.noPermissionException
              "do not have write access for updating MetaData or is invalid"), db) := by
          simp [updateMetaData, KuksaChannel.authorizedToModifyTree, hm]
        simp [hu, correlates_updateFailure_iff, Exn.noPermissionException]
      | true =>
        simp only [forall_const]
        rw [← updateMetaData_foreseen_iff ho hm]
        split
        · rename_i e db' hu
          rw [hu]
          simp [correlates_updateFailure_iff]
        · rename_i db' hu
          rw [hu]
          simp [correlated_updateAnswer]

theorem nestParents_correlates (result : Json) (parents : List (String × Json)) :
    ThrowsOnly [.notAnObject] (nestParents result parents) ∧
      ((∃ r, nestParents result parents = .ok r) ↔ ∀ p ∈ parents, p.2.isObject = true) := by
  induction parents with
  | nil => simp [nestParents]
  | cons p ps ih =>
    obtain ⟨name, node⟩ := p
    obtain ⟨hk, hok⟩ := ih
    unfold nestParents
    cases hn : nestParents result ps with
    | error e =>
      rw [hn] at hk hok
      have hno : ¬ ∀ p ∈ ps, p.2.isObject = true := by
        rw [← hok]
        simp
      exact ⟨hk, by simpa using fun _ => by simpa using hno⟩
    | ok inner =>
      rw [hn] at hok
      have hall : ∀ p ∈ ps, p.2.isObject = true := hok.mp ⟨inner, rfl⟩
      unfold tryInsertOrAssign
      cases ho : node.isObject with
      | true => simpa [ho, Except.map] using hall
      | false => simp [ho, Except.map]

theorem metaDataNodes_throwsOnly (jp : JsonPath) (tree : Json) (tokens : List String)
    (formatPath : String) (parents : List (String × Json)) :
    ThrowsOnly [.jsonpathError, .undefinedBehaviour]
      (metaDataNodes jp tree tokens formatPath parents) := by
  induction tokens generalizing formatPath parents with
  | nil => simp [metaDataNodes]
  | cons token tokens ih =>
    unfold metaDataNodes
    simp only
    by_cases hc : tokens ≠ [] ∧ token = "children"
    · rw [if_pos hc]
      exact ih _ _
    · rw [if_neg hc]
      cases hq : jsonQuery jp tree (formatPath ++ "." ++ token) with
      | error e => exact ((jsonQuery_throwsOnly tree _).mono (by decide)).of_error hq
      | ok res =>
        rcases res with _ | ⟨node, _ | ⟨node', nodes⟩⟩
        · simp
        · by_cases hl : parents.length < maxParents
          · simpa only [if_pos hl] using ih _ _
          · simp [hl]
        · simp

/-- The metadata is read without an exception that the dispatch answers where the nodes above
are objects, and only there. -/
theorem getMetaData_foreseen_iff {path : VSSPath} :
    (∀ e, db.getMetaData pf.jsonPath path = .error e → isCaught e = false) ↔
      ∀ jPath jPaths parents,
        pf.jsonPath.queryPaths db.metaTree path.jsonpath = .ok (jPath :: jPaths) →
        metaDataNodes pf.jsonPath db.metaTree (getVSSTokens jPath) "$" [] = .ok (some parents) →
          ∀ p ∈ parents.dropLast, p.2.isObject = true := by
  unfold getMetaData VSSPath.getJSONPath
  cases hq : pf.jsonPath.queryPaths db.metaTree path.jsonpath with
  | error e => simp [isCaught, Exn.jsonpathError]
  | ok jPaths =>
    cases jPaths with
    | nil => simp
    | cons jPath jPaths =>
      have hk := metaDataNodes_throwsOnly pf.jsonPath db.metaTree (getVSSTokens jPath) "$" []
      simp only
      cases hn : metaDataNodes pf.jsonPath db.metaTree (getVSSTokens jPath) "$" [] with
      | error e =>
        have hke := hk e hn
        simp only [List.mem_cons, List.not_mem_nil, or_false] at hke
        have hc : isCaught e = false := by rcases hke with hke | hke <;> simp [isCaught, hke]
        simp only [Except.error.injEq, forall_eq', hc, true_iff]
        rintro _ _ parents ⟨⟩ hn'
        simp [hn] at hn'
      | ok found =>
        cases found with
        | none =>
          simp only [reduceCtorEq, false_implies, implies_true, true_iff]
          rintro _ _ parents ⟨⟩ hn'
          simp [hn] at hn'
        | some parents =>
          obtain ⟨hthrows, hok⟩ := nestParents_correlates
            ((parents.getLast?.map Prod.snd).getD (ofMembers [])) parents.dropLast
          have hall : (∀ jPath' jPaths' parents', (Except.ok (jPath :: jPaths) :
              Except String (List String)) = .ok (jPath' :: jPaths') →
              metaDataNodes pf.jsonPath db.metaTree (getVSSTokens jPath') "$" [] =
                .ok (some parents') → ∀ p ∈ parents'.dropLast, p.2.isObject = true) ↔
              ∀ p ∈ parents.dropLast, p.2.isObject = true := by
            constructor
            · exact fun h => h jPath jPaths parents rfl hn
            · rintro h _ _ parents' ⟨⟩ hn'
              obtain rfl : parents = parents' := by simpa [hn] using hn'
              exact h
          rw [hall, ← hok]
          cases hr : nestParents ((parents.getLast?.map Prod.snd).getD (ofMembers []))
            parents.dropLast with
          | error e =>
            have hke : e.kind = .notAnObject := by simpa using hthrows e hr
            simp [isCaught, hke, hr]
          | ok r => simp [hr]

theorem processGetMetaData_correlates_iff
    (hid : request.get? "requestId" = some (.str requestId)) :
    Correlates "getMetaData" requestId (processGetMetaData pf ck db request) ↔
      ∃ path, text request "path" = .ok path ∧ NamesGetMetaData pf db request path := by
  unfold processGetMetaData NamesGetMetaData
  cases hp : text request "path" with
  | error e => simp [text_error_isCaught hp]
  | ok path =>
    simp only [Except.ok.injEq, exists_eq_left']
    cases hv : validateRequest pf schemaGet request with
    | error e =>
      simpa [not_valid_of_error pf.numerics hv] using correlates_refuseRequest hid hv "getMetaData"
    | ok u =>
      have hval : valid pf.numerics schemaGet request = true :=
        (validate_eq_ok_iff pf.numerics).mp hv
      simp only [hval, forall_const, text_of_get? hid]
      rw [← getMetaData_foreseen_iff]
      cases hg : db.getMetaData pf.jsonPath (.fromVSS path) with
      | error e => simp [Except.map]
      | ok st =>
        simp only [Except.map, correlates_ok]
        split_ifs <;> simp [correlated_ofMembers_iff, Members.get?_cons]

end Metadata

/-- An authorize request is always answered by name. -/
theorem processAuthorize_correlates {auth : Authenticator} {token : String} :
    Correlates "authorize" requestId
      (processAuthorize pf ck auth channel requestId token).1 := by
  have hk : ThrowsOnly _ (auth.validate pf.jwt pf.numerics channel token).1 :=
    Authenticator.validate_throwsOnly
  unfold processAuthorize
  split
  · rename_i e _ hval
    have hke := hk e (congrArg Prod.fst hval)
    simp only [List.mem_cons, List.not_mem_nil, or_false] at hke
    rcases hke with hke | hke <;> simp [isCaught, hke]
  · split_ifs
    · simp [correlated_errorAnswer_iff]
    · simp [correlated_ofMembers_iff, Members.get?_cons]

def supportedActions : List String :=
  ["get", "set", "getMetaData", "updateMetaData", "updateVSSTree", "authorize", "subscribe",
    "unsubscribe"]

/-- None of the exits that leave out the name of a request, or take another one, is taken. -/
structure NamesRequest (pf : Platform) (sv : Server) (channel : KuksaChannel) (request : Json)
    (action : String) : Prop where
  get : action = "get" → ∃ path, text request "path" = .ok path ∧
    ¬ MisnamesGet pf sv.database channel request path
  set : action = "set" → NamesSet pf sv.database channel request
  getMetaData : action = "getMetaData" → ∃ path, text request "path" = .ok path ∧
    NamesGetMetaData pf sv.database request path
  updateMetaData : action = "updateMetaData" → ∃ path, text request "path" = .ok path ∧
    NamesUpdateMetaData pf sv.database channel request path
  updateVSSTree : action = "updateVSSTree" → NamesUpdateVSSTree pf channel request
  subscribe : action = "subscribe" → NamesSubscribe pf sv.database channel request

/-- Every response to a request names its action and its number exactly when the request takes
none of the exits that do not. -/
theorem processQuery_correlated_iff (pf : Platform) (ck : Clock) (sv : Server)
    (subId : SubscriptionId) (channel : KuksaChannel) (reqJson : String) (request : Json)
    (action requestId : String) (hp : pf.parse reqJson = .ok request)
    (ha : request.get? "action" = some (.str action))
    (hid : request.get? "requestId" = some (.str requestId)) (hsup : action ∈ supportedActions)
    (htok : action = "authorize" → ∃ token, request.get? "tokens" = some (.str token)) :
    (∀ answer, (processQuery pf ck sv subId reqJson channel).1 = .ok answer →
        Correlated action requestId answer) ↔ NamesRequest pf sv channel request action := by
  rw [processQuery_correlates_iff hp]
  have hact := text_of_get? ha
  have hrid := text_of_get? hid
  simp only [supportedActions, List.mem_cons, List.not_mem_nil, or_false] at hsup
  rcases hsup with rfl | rfl | rfl | rfl | rfl | rfl | rfl | rfl
  · have hd : (dispatch pf ck sv subId channel request).1 =
        processGet pf ck sv.database channel request := by simp [dispatch, hact]
    rw [hd, processGet_correlates_iff hid]
    exact ⟨fun h => ⟨fun _ => h, by simp, by simp, by simp, by simp, by simp⟩, fun h => h.get rfl⟩
  · have hd : (dispatch pf ck sv subId channel request).1 =
        (processSet pf ck sv.database channel request).1 := by simp [dispatch, hact]
    rw [hd, processSet_correlates_iff hid]
    exact ⟨fun h => ⟨by simp, fun _ => h, by simp, by simp, by simp, by simp⟩, fun h => h.set rfl⟩
  · have hd : (dispatch pf ck sv subId channel request).1 =
        processGetMetaData pf ck sv.database request := by simp [dispatch, hact]
    rw [hd, processGetMetaData_correlates_iff hid]
    exact ⟨fun h => ⟨by simp, by simp, fun _ => h, by simp, by simp, by simp⟩,
      fun h => h.getMetaData rfl⟩
  · have hd : (dispatch pf ck sv subId channel request).1 =
        (processUpdateMetaData pf ck sv.database channel request).1 := by simp [dispatch, hact]
    rw [hd, processUpdateMetaData_correlates_iff hid]
    exact ⟨fun h => ⟨by simp, by simp, by simp, fun _ => h, by simp, by simp⟩,
      fun h => h.updateMetaData rfl⟩
  · have hd : (dispatch pf ck sv subId channel request).1 =
        (processUpdateVSSTree pf ck sv.database channel request).1 := by simp [dispatch, hact]
    rw [hd, processUpdateVSSTree_correlates_iff hid]
    exact ⟨fun h => ⟨by simp, by simp, by simp, by simp, fun _ => h, by simp⟩,
      fun h => h.updateVSSTree rfl⟩
  · obtain ⟨token, htoken⟩ := htok rfl
    have hd : (dispatch pf ck sv subId channel request).1 =
        (processAuthorize pf ck sv.tokenValidator channel requestId token).1 := by
      simp [dispatch, hact, text_of_get? htoken, hrid]
    rw [hd]
    simp only [processAuthorize_correlates, true_iff]
    exact ⟨by simp, by simp, by simp, by simp, by simp, by simp⟩
  · have hd : (dispatch pf ck sv subId channel request).1 =
        (processSubscribe pf ck sv subId channel request).1 := by simp [dispatch, hact]
    rw [hd, processSubscribe_correlates_iff hid]
    exact ⟨fun h => ⟨by simp, by simp, by simp, by simp, by simp, fun _ => h⟩,
      fun h => h.subscribe rfl⟩
  · have hd : (dispatch pf ck sv subId channel request).1 =
        (processUnsubscribe pf ck sv request).1 := by simp [dispatch, hact]
    rw [hd]
    simp only [processUnsubscribe_correlates hid, true_iff]
    exact ⟨by simp, by simp, by simp, by simp, by simp, by simp⟩

section Speed

def speedServer : Server := ⟨⟨speedTree, speedTree⟩, {}, ⟨"key"⟩⟩

def speedGet : Json :=
  .obj [("action", .str "get"), ("path", .str "Vehicle.OBD.Speed"), ("requestId", .str "7")]

/-- The value of the speed is an attribute of it, and it is answered. -/
theorem processQuery_correlated_iff_get : ∃ answer,
    (processQuery (.basic fun _ => .ok speedGet) midnight speedServer 1 "" speedReader).1 =
      .ok answer ∧ (answer.get? "data").isSome = true ∧ Correlated "get" "7" answer := by
  have hiff := processQuery_correlated_iff (.basic fun _ => .ok speedGet) midnight
    speedServer 1 speedReader "" speedGet "get" "7" rfl rfl rfl (by decide) (by simp)
  have hattributable : speedServer.database.pathIsAttributable .selectors
      (.fromVSS "Vehicle.OBD.Speed") (attributeOf speedGet) = .ok true := by decide +kernel
  have hget : ¬ MisnamesGet (.basic fun _ => .ok speedGet) speedServer.database speedReader
      speedGet "Vehicle.OBD.Speed" := by
    rintro ⟨-, p, ps, -, -, hno⟩
    simp [Platform.basic, hattributable] at hno
  have hok : ((processQuery (.basic fun _ => .ok speedGet) midnight speedServer 1 ""
      speedReader).1.toOption.bind fun answer => answer.get? "data").isSome = true := by
    decide +kernel
  cases hq : (processQuery (.basic fun _ => .ok speedGet) midnight speedServer 1 ""
    speedReader).1 with
  | error e => simp [hq, Except.toOption] at hok
  | ok answer =>
    refine ⟨answer, rfl, by simpa [hq, Except.toOption] using hok, hiff.mpr ?_ answer hq⟩
    exact ⟨fun _ => ⟨"Vehicle.OBD.Speed", rfl, hget⟩, by simp, by simp, by simp, by simp, by simp⟩

/-- A sensor has no target value. -/
def targetGet : Json :=
  .obj [("action", .str "get"), ("attribute", .str "targetValue"),
    ("path", .str "Vehicle.OBD.Speed"), ("requestId", .str "7")]

/-- A get is answered as a set. -/
theorem targetGet_answered :
    ¬ ∀ answer, (processQuery (.basic fun _ => .ok targetGet) midnight speedServer 1 ""
      speedReader).1 = .ok answer → Correlated "get" "7" answer := by
  intro h
  have hset : ((processQuery (.basic fun _ => .ok targetGet) midnight speedServer 1 ""
      speedReader).1.toOption.bind fun answer => answer.get? "action") = some (.str "set") := by
    decide +kernel
  cases hq : (processQuery (.basic fun _ => .ok targetGet) midnight speedServer 1 ""
    speedReader).1 with
  | error e => simp [hq, Except.toOption] at hset
  | ok answer =>
    have hget := (h answer hq).1
    simp [hq, Except.toOption, hget] at hset

end Speed

end VssCommandProcessor
