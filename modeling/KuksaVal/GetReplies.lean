import KuksaVal.GetRequest
import KuksaVal.SetReplies

/-! The reply to a get over the service: which of its messages are filled, and when it lists
exactly the paths that were answered for. -/
open Json

namespace RequestServiceImpl
open VssCommandProcessor VssDatabase JsonResponses

section Leaves

variable (pf : Platform) (kc : KuksaChannel) (attr : String) (db : VssDatabase)

/-- The first node of a path has a value for the attribute, with the numbers of its time. -/
def Holds (leaf : VSSPath) (value : Json) (time : ℤ × ℤ) : Prop :=
  ∃ node nodes, jsonQuery pf.jsonPath db.dataTree leaf.getJSONPath = .ok (node :: nodes) ∧
    node.get? attr = some value ∧ storedTimeStamp pf.numerics node attr = .ok time

/-- A path leads to these leaves, and the channel can read the attribute at all of them. -/
structure Readable (path : String) (leaves : List VSSPath) : Prop where
  leafPaths : db.getLeafPaths pf.jsonPath (.fromVSS path) = .ok leaves
  ne_nil : leaves ≠ []
  granted : ∀ leaf ∈ leaves, AccessChecker.checkReadAccess pf.regex kc leaf = .ok true
  attributable : db.pathIsAttributable pf.jsonPath (.fromVSS path) attr = .ok true
  holds : ∀ leaf ∈ leaves, ∃ value time, Holds pf attr db leaf value time

/-- The datatype by which a message is filled, empty where the lookup throws. -/
def datatypeFor (path : String) : String :=
  match db.getDatatypeForPath pf.jsonPath (.fromVSS path) with
  | .error _ => ""
  | .ok datatype => datatype

/-- If a path can be read, it leads to a single leaf, whose value a message can hold. -/
def FitsMessage (path : String) : Prop :=
  ∀ leaves, Readable pf kc attr db path leaves → ∃ leaf value time field, leaves = [leaf] ∧
    Holds pf attr db leaf value time ∧
    GrpcHandler.valueOf pf.numerics (datatypeFor pf db path) value = .ok field

/-- A message has the path of a leaf and the value that is stored there. -/
def FilledFrom (path : String) (message : GrpcMessage) : Prop :=
  ∃ leaves leaf value time field, Readable pf kc attr db path leaves ∧ leaf ∈ leaves ∧
    Holds pf attr db leaf value time ∧
    GrpcHandler.valueOf pf.numerics (datatypeFor pf db path) value = .ok field ∧
    message.path = leaf.toString ∧ message.val = some field

/-- The answer for one leaf. -/
def signalOf (leaf : VSSPath) (value : Json) (time : ℤ × ℤ) : Json :=
  ofMembers [("path", .str leaf.toString),
    ("dp", ofMembers [(attr, value), ("ts_s", .int time.1), ("ts_ns", .int time.2)])]

variable {pf kc attr db}

theorem Holds.eq {leaf : VSSPath} {value value' : Json} {time time' : ℤ × ℤ}
    (h : Holds pf attr db leaf value time) (h' : Holds pf attr db leaf value' time') :
    value = value' ∧ time = time' := by
  obtain ⟨node, nodes, hq, hv, ht⟩ := h
  obtain ⟨node', nodes', hq', hv', ht'⟩ := h'
  obtain ⟨rfl, rfl⟩ := List.cons.inj (Except.ok.inj (hq.symm.trans hq'))
  exact ⟨Option.some.inj (hv.symm.trans hv'), Except.ok.inj (ht.symm.trans ht')⟩

theorem Readable.eq {path : String} {leaves leaves' : List VSSPath}
    (h : Readable pf kc attr db path leaves) (h' : Readable pf kc attr db path leaves') :
    leaves = leaves' := Except.ok.inj (h.leafPaths.symm.trans h'.leafPaths)

/-- A stream of the service is read the numbers of the time as they are stored. -/
theorem getSignal_eq_ok_iff {ck : Clock} {leaf : VSSPath} {dp : Json} :
    db.getSignal pf.jsonPath pf.numerics ck leaf attr false = .ok dp ↔
      ∃ value time, Holds pf attr db leaf value time ∧ dp = signalOf attr leaf value time := by
  constructor
  · intro h
    unfold getSignal at h
    cases hq : jsonQuery pf.jsonPath db.dataTree leaf.getJSONPath with
    | error e => simp [hq] at h
    | ok nodes =>
      cases nodes with
      | nil => simp [hq, elementAt] at h
      | cons node nodes =>
        simp only [hq, elementAt, List.getElem?_cons_zero] at h
        cases hv : node.get? attr with
        | none => simp [datapointOf, hv, Except.map] at h
        | some value =>
          cases ht : storedTimeStamp pf.numerics node attr with
          | error e => simp [datapointOf, hv, ht, Except.map] at h
          | ok time =>
            refine ⟨value, time, ⟨node, nodes, hq, hv, ht⟩, ?_⟩
            simp only [datapointOf, hv, ht, Except.map, Bool.false_eq_true, if_false] at h
            exact (Except.ok.inj h).symm
  · rintro ⟨value, time, ⟨node, nodes, hq, hv, ht⟩, rfl⟩
    simp [getSignal, hq, elementAt, datapointOf, hv, ht, Except.map, signalOf]

end Leaves

section Answers

variable {pf : Platform} {ck : Clock} {kc : KuksaChannel} {attr : String} {db : VssDatabase}

/-- The loop over the leaves ends with a datapoint for each, exactly where each can be read. -/
theorem collectDatapoints_eq_inr_iff (hkc : GrpcChannel kc) {path : VSSPath}
    {pathStr requestId : String} {leaves : List VSSPath} {dps : List Json} :
    collectDatapoints pf ck db kc path pathStr attr requestId leaves = .ok (.inr dps) ↔
      (∀ leaf ∈ leaves, AccessChecker.checkReadAccess pf.regex kc leaf = .ok true ∧
        db.pathIsAttributable pf.jsonPath path attr = .ok true) ∧
      List.Forall₂ (fun leaf dp => db.getSignal pf.jsonPath pf.numerics ck leaf attr false = .ok dp)
        leaves dps := by
  induction leaves generalizing dps with
  | nil =>
    rw [List.forall₂_nil_left_iff]
    simp [collectDatapoints, eq_comm]
  | cons leaf leaves ih =>
    rw [collectDatapoints, List.forall₂_cons_left_iff, List.forall_mem_cons]
    cases hr : AccessChecker.checkReadAccess pf.regex kc leaf with
    | error e => simp
    | ok granted =>
      cases granted with
      | false => simp
      | true =>
        have hstring : decide (kc.typeOfConnection ≠ .grpc) = false := by
          rcases hkc with hkc | hkc
          · simp [hkc]
          · cases hr.symm.trans (AccessChecker.checkSignalAccess_nil pf.regex hkc _ (by decide))
        rw [hstring]
        cases ha : db.pathIsAttributable pf.jsonPath path attr with
        | error e => simp
        | ok attributable =>
          cases attributable with
          | false => simp
          | true =>
            cases hg : db.getSignal pf.jsonPath pf.numerics ck leaf attr false with
            | error e => simp
            | ok dp =>
              simp only [true_and, and_true, Except.ok.injEq]
              constructor
              · intro h
                rcases hc : collectDatapoints pf ck db kc path pathStr attr requestId leaves with
                  e | answer | dps'
                · simp [hc] at h
                · simp [hc] at h
                · obtain rfl : dp :: dps' = dps := by simpa [hc] using h
                  obtain ⟨hall, hf⟩ := ih.mp hc
                  exact ⟨fun leaf hl => (hall leaf hl).1, dp, dps', rfl, hf, rfl⟩
              · rintro ⟨hall, dp', dps', rfl, hf, rfl⟩
                simp [ih.mpr ⟨fun leaf hl => ⟨hall leaf hl, ha⟩, hf⟩]

/-- Where the loop ends early, it answers with an error. -/
theorem collectDatapoints_inl_reports {path : VSSPath} {pathStr requestId : String}
    {leaves : List VSSPath} {answer : Json}
    (h : collectDatapoints pf ck db kc path pathStr attr requestId leaves = .ok (.inl answer)) :
    ReportsError answer := by
  induction leaves with
  | nil => simp [collectDatapoints] at h
  | cons leaf leaves ih =>
    unfold collectDatapoints at h
    split at h
    · simp at h
    · obtain rfl := Sum.inl.inj (Except.ok.inj h)
      exact reportsError_noAccess _
    · split at h
      · simp at h
      · obtain rfl := Sum.inl.inj (Except.ok.inj h)
        exact reportsError_noAccess _
      · split at h
        · simp at h
        · split at h
          · simp at h
          · exact ih h

theorem getFailure_reports (ck : Clock) (requestId : String) {e : Exn}
    (h : e.kind ≠ .undefinedBehaviour) :
    ∃ answer, getFailure ck requestId e = .ok answer ∧ ReportsError answer := by
  unfold getFailure
  split_ifs
  · exact ⟨_, rfl, reportsError_notSetResponse _⟩
  · exact reportsError_answerUnhandled h

theorem get?_getJson (pf : Platform) (type : RequestType) (uuid : SubscriptionId) (path : String) :
    (getJson pf type uuid path).get? "attribute" = type.attribute.map Json.str ∧
      (getJson pf type uuid path).get? "action" =
        some (.str (if type = .metadata then "getMetaData" else "get")) ∧
      (getJson pf type uuid path).get? "requestId" = some (.str (pf.printUuid uuid)) ∧
      (getJson pf type uuid path).get? "path" = some (.str path) := by
  cases type <;>
    simp [getJson, RequestType.attribute, get?_ofMembers, Members.get?_cons, Members.get?]

/-- The schema refuses no path of a get. -/
theorem processGet_getJson (pf : Platform) (ck : Clock) (db : VssDatabase) (kc : KuksaChannel)
    {type : RequestType} (htype : type ≠ .metadata) (uuid : SubscriptionId) (path : String) :
    processGet pf ck db kc (getJson pf type uuid path) =
      match performGet pf ck db kc (.fromVSS path) path (type.attribute.getD "value")
        (pf.printUuid uuid) with
      | .error e => getFailure ck (pf.printUuid uuid) e
      | .ok answer => .ok answer := by
  obtain ⟨hattr, haction, hid, hpath⟩ := get?_getJson pf type uuid path
  have hobject : (getJson pf type uuid path).isObject = true := rfl
  have hstr (t : String) : (Json.str t).isObject = false := rfl
  have hvalid : validateRequest pf VSSRequestValidator.schemaGet
      (getJson pf type uuid path) = .ok () := by
    rw [validateRequest, VSSRequestValidator.validate_eq_ok_iff]
    cases type <;>
    simp_all [VSSRequestValidator.schemaGet, VSSRequestValidator.valid, RequestType.attribute,
      VSSRequestValidator.validProperties, VSSRequestValidator.hasType, contains,
      VSSRequestValidator.action, VSSRequestValidator.attributeSchema,
      VSSRequestValidator.path, VSSRequestValidator.requestId]
  have hof : attributeOf (getJson pf type uuid path) = type.attribute.getD "value" := by
    cases type <;> simp [attributeOf, hattr, RequestType.attribute, asString]
  cases hperform : performGet pf ck db kc (.fromVSS path) path (type.attribute.getD "value")
    (pf.printUuid uuid) with
  | error e =>
    simp only [processGet, hvalid, hof, text, member_eq_ok.mpr hpath, member_eq_ok.mpr hid,
      Except.map, asString, hperform]
  | ok answer =>
    simp only [processGet, hvalid, hof, text, member_eq_ok.mpr hpath, member_eq_ok.mpr hid,
      Except.map, asString, hperform]

/-- Where a path can be read, the loop over its leaves has a datapoint for each. -/
theorem Readable.collected (hkc : GrpcChannel kc) {path : String}
    {leaves : List VSSPath} (h : Readable pf kc attr db path leaves) (ck : Clock)
    (requestId : String) :
    ∃ dps, collectDatapoints pf ck db kc (.fromVSS path) path attr requestId leaves =
      .ok (.inr dps) := by
  choose! value time hholds using h.holds
  refine ⟨leaves.map fun leaf => signalOf attr leaf (value leaf) (time leaf), ?_⟩
  rw [collectDatapoints_eq_inr_iff hkc, List.forall₂_map_right_iff, List.forall₂_same]
  refine ⟨fun leaf hl => ⟨h.granted leaf hl, h.attributable⟩, fun leaf hl => ?_⟩
  exact getSignal_eq_ok_iff.mpr ⟨value leaf, time leaf, hholds leaf hl, rfl⟩

theorem readable_of_collected (hkc : GrpcChannel kc) {path requestId : String}
    {leaves : List VSSPath} {dps : List Json}
    (hl : db.getLeafPaths pf.jsonPath (.fromVSS path) = .ok leaves) (hne : leaves ≠ [])
    (h : collectDatapoints pf ck db kc (.fromVSS path) path attr requestId leaves =
      .ok (.inr dps)) : Readable pf kc attr db path leaves := by
  obtain ⟨hall, hf⟩ := (collectDatapoints_eq_inr_iff hkc).mp h
  obtain ⟨first, hfirst⟩ := List.exists_mem_of_ne_nil leaves hne
  refine ⟨hl, hne, fun leaf hleaf => (hall leaf hleaf).1, (hall first hfirst).2, ?_⟩
  intro leaf hleaf
  obtain ⟨i, rfl⟩ := List.get_of_mem hleaf
  have hg := hf.get i.isLt (hf.length_eq ▸ i.isLt)
  obtain ⟨value, time, hholds, -⟩ := getSignal_eq_ok_iff.mp hg
  exact ⟨value, time, hholds⟩

/-- The processor answers with what the leaves hold where a path can be read, and otherwise with
an error. -/
theorem processGet_fate (pf : Platform) (hkc : GrpcChannel kc) {type : RequestType}
    (htype : type ≠ .metadata) (ck : Clock) (db : VssDatabase) (uuid : SubscriptionId)
    (path : String) :
    (∃ leaves dps, Readable pf kc (type.attribute.getD "value") db path leaves ∧
      List.Forall₂ (fun leaf dp => db.getSignal pf.jsonPath pf.numerics ck leaf
        (type.attribute.getD "value") false = .ok dp) leaves dps ∧
      processGet pf ck db kc (getJson pf type uuid path) =
        .ok (getAnswer ck (pf.printUuid uuid) (dataOf dps))) ∨
    (∀ leaves, ¬ Readable pf kc (type.attribute.getD "value") db path leaves) ∧
      ∃ answer, processGet pf ck db kc (getJson pf type uuid path) = .ok answer ∧
        ReportsError answer := by
  rw [processGet_getJson pf ck db kc htype]
  generalize type.attribute.getD "value" = attr
  obtain ⟨leaves, hl⟩ := getLeafPaths_isOk pf.jsonPath db (.fromVSS path)
  have hno (hc : ∀ dps, collectDatapoints pf ck db kc (.fromVSS path) path attr
      (pf.printUuid uuid) leaves ≠ .ok (.inr dps)) (leaves' : List VSSPath) :
      ¬ Readable pf kc attr db path leaves' := by
    intro h
    obtain rfl : leaves = leaves' := Except.ok.inj (hl.symm.trans h.leafPaths)
    obtain ⟨dps, he⟩ := h.collected hkc ck (pf.printUuid uuid)
    exact hc dps he
  simp only [performGet, hl]
  rcases hc : collectDatapoints pf ck db kc (.fromVSS path) path attr (pf.printUuid uuid) leaves
    with e | answer | dps
  · right
    obtain ⟨answer, hanswer, hrep⟩ := getFailure_reports ck (pf.printUuid uuid)
      (defined_collectDatapoints _ _ _ _ _ e hc)
    exact ⟨hno (by simp [hc]), answer, hanswer, hrep⟩
  · right
    exact ⟨hno (by simp [hc]), answer, rfl, collectDatapoints_inl_reports hc⟩
  · by_cases hne : leaves = []
    · right
      refine ⟨fun leaves' h => ?_, _, by simp only [if_pos hne]; rfl, reportsError_pathNotFound _⟩
      exact h.ne_nil (Except.ok.inj (h.leafPaths.symm.trans hl) |>.trans hne)
    · left
      refine ⟨leaves, dps, readable_of_collected hkc hl hne hc, ?_, by simp only [if_neg hne]⟩
      exact ((collectDatapoints_eq_inr_iff hkc).mp hc).2

end Answers

section Messages

theorem defined_valueOf (nm : Numerics) (datatype : String) (value : Json) :
    Defined (GrpcHandler.valueOf nm datatype value) := by
  have hbool : Defined (asBool nm value) := by
    intro e he
    rw [asBool_eq_error he]
    decide
  have hfloat (r : Except String Double) : Defined (r.mapError conversionError) := by
    cases r <;> simp [Except.mapError, conversionError]
  unfold GrpcHandler.valueOf
  split_ifs <;> simp [defined_asInteger, hbool, hfloat]

theorem getAnswer_no_error (ck : Clock) (requestId : String) (data : Json) :
    (getAnswer ck requestId data).contains "error" = false := by
  unfold getAnswer contains
  rw [get?_ofMembers]
  simp [Members.get?_cons]

/-- The answer for a single leaf fills a message, unless its value has no such field. -/
theorem fillMessage_signal (nm : Numerics) (ck : Clock) (datatype requestId : String)
    {attr : String} (ha : attr ∈ ["value", "targetValue"]) (leaf : VSSPath) (value : Json)
    (time : ℤ × ℤ) :
    (∃ e, GrpcHandler.valueOf nm datatype value = .error e ∧
      fillMessage nm datatype attr (getAnswer ck requestId (signalOf attr leaf value time)) =
        ({}, .error e)) ∨
    ∃ field timestamp, GrpcHandler.valueOf nm datatype value = .ok field ∧
      fillMessage nm datatype attr (getAnswer ck requestId (signalOf attr leaf value time)) =
        (⟨leaf.toString, some field, some timestamp⟩, .ok ()) := by
  have hne : attr ≠ "ts_s" ∧ attr ≠ "ts_ns" := by
    simp only [List.mem_cons, List.not_mem_nil, or_false] at ha
    rcases ha with rfl | rfl <;> decide
  have hdata : (getAnswer ck requestId (signalOf attr leaf value time)).member "data" =
      .ok (signalOf attr leaf value time) := member_eq_ok.mpr (getAnswer_data _ _)
  have hdp : (signalOf attr leaf value time).member "dp" =
      .ok (ofMembers [(attr, value), ("ts_s", .int time.1), ("ts_ns", .int time.2)]) := by
    simp [member_eq_ok, signalOf, get?_ofMembers, Members.get?_cons]
  have hpath : (signalOf attr leaf value time).member "path" = .ok (.str leaf.toString) := by
    simp [member_eq_ok, signalOf, get?_ofMembers, Members.get?_cons]
  have hpoint (k : String) (v : Json) (hk : Members.get? k [("ts_ns", .int time.2),
      ("ts_s", .int time.1), (attr, value)] = some v) :
      GrpcHandler.dataPoint (getAnswer ck requestId (signalOf attr leaf value time)) k =
        .ok v := by
    simp only [GrpcHandler.dataPoint, hdata, Except.bind, hdp]
    rw [member_eq_ok, get?_ofMembers]
    exact hk
  have hvalue := hpoint attr value (by simp [Members.get?_cons, hne.1, hne.2])
  have hsec := hpoint "ts_s" (.int time.1) (by simp [Members.get?_cons])
  have hnsec := hpoint "ts_ns" (.int time.2) (by simp [Members.get?_cons])
  cases hfield : GrpcHandler.valueOf nm datatype value with
  | error e =>
    left
    exact ⟨e, rfl, by simp [fillMessage, hvalue, Except.bind, hfield]⟩
  | ok field =>
    right
    exact ⟨field, _, rfl, by simp [fillMessage, hvalue, Except.bind, hfield, hdata, hpath, timeOf,
      hsec, hnsec, asInteger, asString]; rfl⟩

/-- The answer for several leaves fills nothing. -/
theorem fillMessage_several (nm : Numerics) (ck : Clock) (datatype attr requestId : String)
    (dps : List Json) :
    ∃ e, e.kind ≠ .undefinedBehaviour ∧
      fillMessage nm datatype attr (getAnswer ck requestId (.arr dps)) = ({}, .error e) := by
  have hdata : (getAnswer ck requestId (.arr dps)).member "data" = .ok (.arr dps) :=
    member_eq_ok.mpr (getAnswer_data _ _)
  obtain ⟨e, he⟩ : ∃ e, (Json.arr dps).member "dp" = .error e := ⟨_, rfl⟩
  refine ⟨e, ?_, by simp [fillMessage, GrpcHandler.dataPoint, hdata, Except.bind, he]⟩
  rcases member_error_kind he with hk | hk <;> simp [hk]

end Messages

section Loop

variable (pf : Platform) (kc : KuksaChannel) (db : VssDatabase) (draws : ℕ → Clock × SubscriptionId)
  (type : RequestType)

/-- The processor answers for a path, and not with an error. -/
def returned (p : String × ℕ) : Bool :=
  match processGet pf (draws p.2).1 db kc (getJson pf type (draws p.2).2 p.1) with
  | .error _ => false
  | .ok answer => !answer.contains "error"

/-- The reply has a filled message for each path that was answered for, in this order. Its status
is 200 exactly if these are all paths, and an error code otherwise. -/
structure ListsReturned (reply : GetResponse) (paths : List (String × ℕ)) : Prop where
  values : List.Forall₂
    (fun p message => FilledFrom pf kc (type.attribute.getD "value") db p.1 message)
    (paths.filter (returned pf kc db draws type)) reply.values
  ok_iff : codeOf reply.status = 200 ↔ ∀ p ∈ paths, returned pf kc db draws type p = true
  failure : codeOf reply.status ≠ 200 → 400 ≤ codeOf reply.status

/-- What a path makes of the reply, and whether it counts as a failure. -/
inductive PathFate (reply : GetResponse) (p : String × ℕ) : GetResponse × Bool → Prop
  | refused {code : GrpcStatus} (hcode : 400 ≤ code.statuscode)
      (hno : returned pf kc db draws type p = false)
      (hfits : FitsMessage pf kc (type.attribute.getD "value") db p.1) :
      PathFate reply p ({ reply with status := some code }, true)
  | filled {message : GrpcMessage} (hyes : returned pf kc db draws type p = true)
      (hfits : FitsMessage pf kc (type.attribute.getD "value") db p.1)
      (hfilled : FilledFrom pf kc (type.attribute.getD "value") db p.1 message) :
      PathFate reply p ({ reply with values := reply.values ++ [message] }, false)
  | unfilled (hyes : returned pf kc db draws type p = true)
      (hfits : ¬ FitsMessage pf kc (type.attribute.getD "value") db p.1) :
      PathFate reply p ({ reply with values := reply.values ++ [{}] }, true)

variable {pf kc db draws type}

/-- An answer for leaves goes on to a new message. -/
theorem getPath_getAnswer (htype : type ≠ .metadata) (ck : Clock) (requestId path : String)
    (data : Json) (reply : GetResponse) :
    getPath pf db type (.ok (getAnswer ck requestId data)) path reply =
      getPath.fill pf type reply (datatypeFor pf db path) (getAnswer ck requestId data) := by
  simp only [getPath, getAnswer_no_error, Bool.false_eq_true, if_false, if_neg htype, datatypeFor]
  rcases getDatatypeForPath_cases pf.jsonPath db (.fromVSS path) with
    ⟨e, hdt, hu⟩ | ⟨-, -, v, -, -, -, hdt⟩
  · simp [hdt, hu]
  · simp [hdt]

theorem getPath_fate (pf : Platform) (db : VssDatabase) (draws : ℕ → Clock × SubscriptionId)
    (hkc : GrpcChannel kc) (htype : type ≠ .metadata) (reply : GetResponse) (p : String × ℕ) :
    ∃ step, PathFate pf kc db draws type reply p step ∧
      getPath pf db type (processGet pf (draws p.2).1 db kc (getJson pf type (draws p.2).2 p.1))
        p.1 reply = .ok step := by
  have ha : type.attribute.getD "value" ∈ ["value", "targetValue"] := by
    cases type <;> simp [RequestType.attribute]
  rcases processGet_fate pf hkc htype (draws p.2).1 db (draws p.2).2 p.1 with
    ⟨leaves, dps, hread, hf, he⟩ | ⟨hno, answer, he, hrep⟩
  · have hyes : returned pf kc db draws type p = true := by
      simp [returned, he, getAnswer_no_error]
    rw [he, getPath_getAnswer htype, getPath.fill]
    cases hf with
    | nil => exact absurd rfl hread.ne_nil
    | @cons leaf dp leaves dps hg hf =>
      cases hf with
      | nil =>
        obtain ⟨value, time, hholds, rfl⟩ := getSignal_eq_ok_iff.mp hg
        rcases fillMessage_signal pf.numerics (draws p.2).1 (datatypeFor pf db p.1)
          (pf.printUuid (draws p.2).2) ha leaf value time with
          ⟨e, hfield, hfill⟩ | ⟨field, timestamp, hfield, hfill⟩
        · refine ⟨_, .unfilled hyes ?_, ?_⟩
          · intro hfits
            obtain ⟨leaf', value', time', field, hleaf, hholds', hok⟩ := hfits _ hread
            obtain rfl : leaf = leaf' := by simpa using hleaf
            obtain ⟨rfl, rfl⟩ := hholds.eq hholds'
            cases hfield.symm.trans hok
          · simp only [dataOf, hfill, caught, if_neg (defined_valueOf _ _ _ e hfield)]
        · have hfilled : FilledFrom pf kc (type.attribute.getD "value") db p.1
              ⟨leaf.toString, some field, some timestamp⟩ :=
            ⟨_, leaf, value, time, field, hread, List.mem_cons_self, hholds, hfield, rfl, rfl⟩
          refine ⟨_, .filled hyes ?_ hfilled, by simp only [dataOf, hfill]⟩
          intro leaves' hread'
          exact ⟨leaf, value, time, field, hread'.eq hread, hholds, hfield⟩
      | @cons leaf' dp' leaves dps hg' hf =>
        obtain ⟨e, hu, hfill⟩ := fillMessage_several pf.numerics (draws p.2).1
          (datatypeFor pf db p.1) (type.attribute.getD "value") (pf.printUuid (draws p.2).2)
          (dp :: dp' :: dps)
        refine ⟨_, .unfilled hyes ?_, by simp only [dataOf, hfill, caught, if_neg hu]⟩
        intro hfits
        obtain ⟨_, _, _, _, hleaf, -⟩ := hfits _ hread
        simp at hleaf
  · obtain ⟨hcontains, code, hcode, hge⟩ := hrep.status pf.numerics
    refine ⟨_, .refused hge ?_ fun leaves hread => absurd hread (hno leaves), ?_⟩
    · simp [returned, he, hcontains]
    · simp [getPath, he, hcontains, hcode]

/-- The loop goes through all paths; it counts a failure where one of them is one. -/
theorem getPaths_values (pf : Platform) (db : VssDatabase) (draws : ℕ → Clock × SubscriptionId)
    (hkc : GrpcChannel kc) (htype : type ≠ .metadata)
    (paths : List (String × ℕ)) (reply : GetResponse) (failed : Bool) :
    ∃ reply' failed' calls vals, getPaths pf db draws type
        (fun ck reqJson => (.processGet kc reqJson, processGet pf ck db kc reqJson)) paths reply
          failed = (.ok (reply', failed'), calls) ∧
      reply'.values = reply.values ++ vals ∧
      List.Forall₂ (fun p message =>
          FitsMessage pf kc (type.attribute.getD "value") db p.1 ∧
            FilledFrom pf kc (type.attribute.getD "value") db p.1 message ∨
          ¬ FitsMessage pf kc (type.attribute.getD "value") db p.1 ∧ message = {})
        (paths.filter (returned pf kc db draws type)) vals ∧
      (failed' = true ↔ failed = true ∨ ∃ p ∈ paths, ¬ (returned pf kc db draws type p = true ∧
        FitsMessage pf kc (type.attribute.getD "value") db p.1)) := by
  induction paths generalizing reply failed with
  | nil => exact ⟨reply, failed, [], [], rfl, by simp, .nil, by simp⟩
  | cons p paths ih =>
    obtain ⟨step, hfate, hp⟩ := getPath_fate pf db draws hkc htype reply p
    obtain ⟨reply', failed', calls, vals, he, hvals, hf, hfailed⟩ := ih step.1 (failed || step.2)
    have hstep : ∃ calls, getPaths pf db draws type
        (fun ck reqJson => (.processGet kc reqJson, processGet pf ck db kc reqJson)) (p :: paths)
          reply failed = (.ok (reply', failed'), calls) := by
      obtain ⟨path, i⟩ := p
      exact ⟨.processGet kc (getJson pf type (draws i).2 path) :: calls, by
        simp only [getPaths, hp, he]⟩
    obtain ⟨calls, hstep⟩ := hstep
    rw [Bool.or_eq_true, or_assoc] at hfailed
    cases hfate with
    | refused hcode hno hfits =>
      refine ⟨reply', failed', calls, vals, hstep, hvals, ?_, ?_⟩
      · rwa [List.filter_cons_of_neg (by simp [hno])]
      · rw [hfailed, List.exists_mem_cons_iff]
        simp [hno]
    | filled hyes hfits hfilled =>
      refine ⟨reply', failed', calls, _ :: vals, hstep, by simpa using hvals, ?_, ?_⟩
      · rw [List.filter_cons_of_pos hyes]
        exact .cons (Or.inl ⟨hfits, hfilled⟩) hf
      · rw [hfailed, List.exists_mem_cons_iff]
        simp [hyes, hfits]
    | unfilled hyes hfits =>
      refine ⟨reply', failed', calls, {} :: vals, hstep, by simpa using hvals, ?_, ?_⟩
      · rw [List.filter_cons_of_pos hyes]
        exact .cons (Or.inr ⟨hfits, rfl⟩) hf
      · rw [hfailed, List.exists_mem_cons_iff]
        simp [hfits]

/-- A path by itself that is refused leaves its error code. -/
theorem getPaths_single (hkc : GrpcChannel kc) (htype : type ≠ .metadata)
    {p : String × ℕ} {reply : GetResponse} {calls : List HandlerCall}
    (h : getPaths pf db draws type (fun ck reqJson => (.processGet kc reqJson,
      processGet pf ck db kc reqJson)) [p] {} false = (.ok (reply, true), calls))
    (hfits : FitsMessage pf kc (type.attribute.getD "value") db p.1) :
    400 ≤ codeOf reply.status := by
  obtain ⟨step, hfate, hp⟩ := getPath_fate pf db draws hkc htype {} p
  obtain rfl : step = (reply, true) := by
    obtain ⟨path, i⟩ := p
    simp only [getPaths, hp, Bool.false_or, Prod.mk.injEq, Except.ok.injEq] at h
    exact Prod.ext h.1.1 h.1.2
  cases hfate with
  | refused hcode hno hfits' => exact hcode
  | unfilled hyes hunfit => exact absurd hfits hunfit

theorem fitsMessage_of_not_returned (hkc : GrpcChannel kc) (htype : type ≠ .metadata)
    {p : String × ℕ} (h : returned pf kc db draws type p ≠ true) :
    FitsMessage pf kc (type.attribute.getD "value") db p.1 := by
  obtain ⟨step, hfate, -⟩ := getPath_fate pf db draws hkc htype {} p
  cases hfate with
  | refused hcode hno hfits => exact hfits
  | filled hyes hfits hfilled => exact hfits
  | unfilled hyes hunfit => exact absurd hyes h

/-- All messages are filled exactly if the paths that were answered for fit into them. -/
theorem forall₂_filledFrom_iff {paths : List (String × ℕ)} {messages : List GrpcMessage}
    {attr : String}
    (hf : List.Forall₂ (fun p message => FitsMessage pf kc attr db p.1 ∧
        FilledFrom pf kc attr db p.1 message ∨ ¬ FitsMessage pf kc attr db p.1 ∧ message = {})
      paths messages) :
    List.Forall₂ (fun p message => FilledFrom pf kc attr db p.1 message) paths messages ↔
      ∀ p ∈ paths, FitsMessage pf kc attr db p.1 := by
  have hempty (path : String) : ¬ FilledFrom pf kc attr db path {} := by
    rintro ⟨-, -, -, -, field, -, -, -, -, -, hval⟩
    cases hval
  induction hf with
  | nil => simp
  | cons hp hf ih =>
    rcases hp with ⟨hfits, hfilled⟩ | ⟨hunfit, rfl⟩
    · simp [ih, hfits, hfilled]
    · simp [hunfit, hempty]

/-- Once the codes are known, a reply lists what was returned exactly if all of it fits. -/
theorem listsReturned_iff (hkc : GrpcChannel kc) (htype : type ≠ .metadata)
    {paths : List (String × ℕ)} {reply : GetResponse} {failed : Bool}
    (hf : List.Forall₂ (fun p message =>
        FitsMessage pf kc (type.attribute.getD "value") db p.1 ∧
          FilledFrom pf kc (type.attribute.getD "value") db p.1 message ∨
        ¬ FitsMessage pf kc (type.attribute.getD "value") db p.1 ∧ message = {})
      (paths.filter (returned pf kc db draws type)) reply.values)
    (hfailed : failed = true ↔ ∃ p ∈ paths, ¬ (returned pf kc db draws type p = true ∧
      FitsMessage pf kc (type.attribute.getD "value") db p.1))
    (hok : failed = false → codeOf reply.status = 200)
    (hbad : (∀ p ∈ paths, FitsMessage pf kc (type.attribute.getD "value") db p.1) →
      failed = true → 400 ≤ codeOf reply.status) :
    ListsReturned pf kc db draws type reply paths ↔
      ∀ p ∈ paths, FitsMessage pf kc (type.attribute.getD "value") db p.1 := by
  have hall : (∀ p ∈ paths.filter (returned pf kc db draws type),
      FitsMessage pf kc (type.attribute.getD "value") db p.1) ↔
      ∀ p ∈ paths, FitsMessage pf kc (type.attribute.getD "value") db p.1 := by
    constructor
    · intro h p hp
      by_cases hyes : returned pf kc db draws type p = true
      · exact h p (List.mem_filter.mpr ⟨hp, hyes⟩)
      · exact fitsMessage_of_not_returned hkc htype hyes
    · intro h p hp
      exact h p (List.mem_of_mem_filter hp)
  rw [← hall, ← forall₂_filledFrom_iff hf]
  refine ⟨ListsReturned.values, fun hvalues => ?_⟩
  have hfits := hall.mp ((forall₂_filledFrom_iff hf).mp hvalues)
  cases failed with
  | false =>
    refine ⟨hvalues, iff_of_true (hok rfl) fun p hp => ?_, fun h => absurd (hok rfl) h⟩
    by_contra hno
    exact absurd (hfailed.mpr ⟨p, hp, fun h => hno h.1⟩) (by simp)
  | true =>
    have hge := hbad hfits rfl
    obtain ⟨p, hp, hno⟩ := hfailed.mp rfl
    refine ⟨hvalues, iff_of_false (by omega) fun h => ?_, fun _ => hge⟩
    exact hno ⟨h p hp, hfits p hp⟩

end Loop

/-- The reply to a get over an authorized channel lists exactly what was returned, where every path
that can be read leads to a single leaf with a value that fits into a message, and only there. -/
theorem get_listsReturned_iff (pf : Platform) (db : VssDatabase) (svc svc' : RequestServiceImpl)
    (draws : ℕ → Clock × SubscriptionId) (context : ServerContext) (request : GetRequest)
    (kc : KuksaChannel) (hsvc : svc.Sound) (hkc : authChecker pf svc context = (some kc, svc'))
    (htype : request.type ≠ .metadata)
    (hne : request.path ≠ []) :
    ∃ reply calls, get pf db svc draws context request = ((.ok reply, calls), svc') ∧
      (ListsReturned pf kc db draws request.type reply request.path.zipIdx ↔
        ∀ path ∈ request.path,
          FitsMessage pf kc (request.type.attribute.getD "value") db path) := by
  obtain ⟨type, paths⟩ := request
  dsimp only at htype hne ⊢
  have hgrpc : GrpcChannel kc := (hsvc.authChecker pf context).2 kc (by rw [hkc])
  obtain ⟨reply, failed, calls, vals, he, hvals, hf, hfailed⟩ :=
    getPaths_values pf db draws hgrpc htype paths.zipIdx {} false
  simp only [List.nil_append, Bool.false_eq_true, false_or] at hvals hfailed
  have hpaths : (∀ p ∈ paths.zipIdx, FitsMessage pf kc (type.attribute.getD "value") db p.1) ↔
      ∀ path ∈ paths, FitsMessage pf kc (type.attribute.getD "value") db path := by
    conv_rhs => rw [← List.zipIdx_map_fst 0 paths]
    exact List.forall_mem_map.symm
  refine ⟨⟨reply.values, if failed && 1 < paths.length then some ⟨400, singleRequests⟩
    else if failed then reply.status
    else some ⟨200, "Get request successfully processed"⟩⟩, calls, ?_, ?_⟩
  · simp only [get, hkc, if_neg htype, getAll, if_neg hne, he]
    split_ifs <;> rfl
  · rw [← hpaths]
    refine listsReturned_iff hgrpc htype (hvals ▸ hf) hfailed ?_ ?_
    · rintro rfl
      rfl
    · rintro hfits rfl
      match paths with
      | [path] => exact getPaths_single hgrpc htype he (hfits (path, 0) List.mem_cons_self)
      | path :: path' :: paths => simp [codeOf]

section Door

def doorLeaf : Json :=
  .obj [("datatype", .str "boolean"), ("type", .str "sensor"), ("value", .bool true)]

/-- A door with a left and a right side. -/
def doorDb : VssDatabase :=
  ⟨.obj [("Door", .obj [("children", .obj [("Left", doorLeaf), ("Right", doorLeaf)]),
    ("type", .str "branch")])], .obj []⟩

def doorPlatform : Platform := .basic fun _ => .error "Parse error"

def passenger : KuksaChannel :=
  { permissions := [("Door.Left", .str "r"), ("Door.Right", .str "r")], typeOfConnection := .grpc }

def passengerService : RequestServiceImpl := { grpcSessionMap := fun _ => some passenger }

theorem passengerService_sound : passengerService.Sound := by
  constructor
  · rintro session kc hk
    obtain rfl := Option.some.inj hk
    exact Or.inl rfl
  · simp [passengerService]
  · simp [passengerService]

def passengerContext : ServerContext := ⟨5, "passenger:1", some "1"⟩

def passengerDraws (i : ℕ) : Clock × SubscriptionId := (midnight, i)

/-- Both sides by their names, and one that is not there. -/
def sidesGet : GetRequest := ⟨.currentValue, ["Door.Left", "Door.Middle", "Door.Right"]⟩

theorem get_listsReturned_sides :
    ∃ reply calls, get doorPlatform doorDb passengerService passengerDraws passengerContext
        sidesGet = ((.ok reply, calls), passengerService) ∧
      (ListsReturned doorPlatform passenger doorDb passengerDraws .currentValue reply
          sidesGet.path.zipIdx ↔
        ∀ path ∈ sidesGet.path, FitsMessage doorPlatform passenger "value" doorDb path) :=
  get_listsReturned_iff doorPlatform doorDb passengerService passengerService passengerDraws
    passengerContext sidesGet passenger passengerService_sound rfl (by decide) (by decide)

def doorGet : GetRequest := ⟨.currentValue, ["Door.*"]⟩

/-- The reply for both sides at once is an empty message without any status. -/
theorem not_get_listsReturned :
    ¬ ∀ (pf : Platform) (db : VssDatabase) (svc svc' : RequestServiceImpl)
      (draws : ℕ → Clock × SubscriptionId) (context : ServerContext) (request : GetRequest)
      (kc : KuksaChannel), svc.Sound → authChecker pf svc context = (some kc, svc') →
      request.type ≠ .metadata → request.path ≠ [] → ∃ reply calls,
        get pf db svc draws context request = ((.ok reply, calls), svc') ∧
        ListsReturned pf kc db draws request.type reply request.path.zipIdx := by
  intro h
  obtain ⟨reply, calls, hget, hlists⟩ := h doorPlatform doorDb passengerService passengerService
    passengerDraws passengerContext doorGet passenger passengerService_sound rfl (by decide)
    (by decide)
  have hrun : (get doorPlatform doorDb passengerService passengerDraws passengerContext
      doorGet).1.1 = .ok ⟨[{}], none⟩ := by
    decide +kernel
  have hreply : reply = ⟨[{}], none⟩ := by
    rw [hget] at hrun
    exact Except.ok.inj hrun
  have hge : 400 ≤ codeOf reply.status := hlists.failure (by rw [hreply]; decide)
  rw [hreply] at hge
  exact absurd hge (by decide)

end Door

end RequestServiceImpl
