import KuksaVal.GrpcCalls
import KuksaVal.QueryAnswers
import KuksaVal.SetRequest

/-! The status of a set over the service: what the answers for the values make of it, and when it
tells whether all values were stored. -/
open Json

namespace RequestServiceImpl
open VssCommandProcessor VssDatabase JsonResponses

section Numbers

/-- An answer that reports an error with a number from 400 on. -/
def ReportsError (answer : Json) : Prop :=
  ∃ ck action requestId number reason message, number ∈ ["400", "403", "404"] ∧
    answer = errorAnswer ck action requestId number reason message

theorem asInteger_numeral (nm : Numerics) {n : ℤ} (h : 0 ≤ n ∧ n < 2 ^ 32) :
    asInteger nm ⟨32, false⟩ (.str (toString n)) = .ok n := by
  have hn : nm.numeral (toString n) = some n := nm.numeral_toString n
  have hr : (⟨32, false⟩ : IntType).lower ≤ n ∧ n ≤ (⟨32, false⟩ : IntType).upper := by
    simp only [IntType.lower, IntType.upper, Bool.false_eq_true, if_false]
    omega
  simp only [asInteger, hn, if_pos hr]

/-- The status of such an answer is its number. -/
theorem ReportsError.status {answer : Json} (h : ReportsError answer) (nm : Numerics) :
    answer.contains "error" = true ∧
      ∃ status, errorStatus nm answer = .ok status ∧ 400 ≤ status.statuscode := by
  obtain ⟨ck, action, requestId, number, reason, message, hn, rfl⟩ := h
  refine ⟨errorAnswer_contains_error .., ?_⟩
  rw [GrpcService.errorStatus_errorAnswer]
  have hcode : ∃ n : ℤ, 400 ≤ n ∧ n < 2 ^ 32 ∧ number = toString n := by
    simp only [List.mem_cons, List.not_mem_nil, or_false] at hn
    rcases hn with rfl | rfl | rfl
    · exact ⟨400, by decide, by decide, rfl⟩
    · exact ⟨403, by decide, by decide, rfl⟩
    · exact ⟨404, by decide, by decide, rfl⟩
  obtain ⟨n, hge, hlt, rfl⟩ := hcode
  rw [asInteger_numeral nm ⟨by omega, hlt⟩]
  exact ⟨_, rfl, hge⟩

variable {ck : Clock} {requestId action : String}

theorem reportsError_pathNotFound (path : String) :
    ReportsError (pathNotFound ck requestId action path) :=
  ⟨_, _, _, _, _, _, by simp, rfl⟩

theorem reportsError_noAccess (message : String) :
    ReportsError (noAccess ck requestId action message) :=
  ⟨_, _, _, _, _, _, by simp, rfl⟩

theorem reportsError_malFormedRequest (message : String) :
    ReportsError (malFormedRequest ck requestId action message) :=
  ⟨_, _, _, _, _, _, by simp, rfl⟩

theorem reportsError_valueOutOfBounds (message : String) :
    ReportsError (valueOutOfBounds ck requestId action message) :=
  ⟨_, _, _, _, _, _, by simp, rfl⟩

theorem reportsError_notSetResponse (message : String) :
    ReportsError (notSetResponse ck requestId message) :=
  ⟨_, _, _, _, _, _, by simp, rfl⟩

/-- What the last handler of an exception answers. -/
theorem reportsError_answerUnhandled {e : Exn} (h : e.kind ≠ .undefinedBehaviour) :
    ∃ answer, answerUnhandled ck requestId action e = .ok answer ∧ ReportsError answer := by
  refine ⟨_, if_neg h, reportsError_malFormedRequest _⟩

end Numbers

section Values

variable (pf : Platform) (kc : KuksaChannel) (attr : String) (db : VssDatabase)

/-- A value of this path comes to `setSignal`, with this datatype. -/
def Reaches (path datatype : String) : Prop :=
  db.getDatatypeForPath pf.jsonPath (.fromVSS path) = .ok datatype ∧
    AccessChecker.checkWriteAccess pf.regex kc (.fromVSS path) = .ok true ∧
    pathIsWritable pf.jsonPath db (.fromVSS path) = .ok true ∧
    pathIsAttributable pf.jsonPath db (.fromVSS path) attr = .ok true

/-- No exception is thrown before there is an answer for this path. -/
def Answerable (path : String) : Prop :=
  (∃ datatype, db.getDatatypeForPath pf.jsonPath (.fromVSS path) = .ok datatype) ∧
    ∃ granted, AccessChecker.checkWriteAccess pf.regex kc (.fromVSS path) = .ok granted

/-- A value comes to `setSignal`, and its datatype is not supported there. -/
def Unsupported (path : String) : Prop :=
  ∃ datatype, Reaches pf kc attr db path datatype ∧ ¬ SupportedDatatype pf.numerics datatype

/-- A value comes to `setSignal` and can be converted there. -/
def Admitted (val : GrpcMessage) : Prop :=
  ∃ datatype l node stored, Reaches pf kc attr db val.path datatype ∧
    Resolves pf.jsonPath db.dataTree (.fromVSS val.path) l node ∧
    checkAndSanitizeType pf.numerics node (settingOf datatype val.val) = .ok stored

variable {pf kc attr db}

theorem get?_setJson (pf : Platform) (uuid : SubscriptionId) (path : String) (value : Json)
    (ha : attr ∈ ["value", "targetValue"]) :
    (setJson pf attr uuid path value).get? "action" = some (.str "set") ∧
      (setJson pf attr uuid path value).get? "attribute" = some (.str attr) ∧
      (setJson pf attr uuid path value).get? "requestId" = some (.str (pf.printUuid uuid)) ∧
      (setJson pf attr uuid path value).get? "path" = some (.str path) ∧
      (setJson pf attr uuid path value).get? attr = some value := by
  have hne : attr ≠ "action" ∧ attr ≠ "attribute" ∧ attr ≠ "requestId" ∧ attr ≠ "path" := by
    simp only [List.mem_cons, List.not_mem_nil, or_false] at ha
    rcases ha with rfl | rfl <;> decide
  simp [setJson, get?_ofMembers, Members.get?_cons, hne.1, hne.2.1, hne.2.2.1, hne.2.2.2, Ne.symm]

/-- The schema refuses no value of a set. -/
theorem processSet_setJson (ck : Clock) (uuid : SubscriptionId) (path : String) (value : Json)
    (ha : attr ∈ ["value", "targetValue"]) :
    processSet pf ck db kc (setJson pf attr uuid path value) =
      performSet pf ck db kc (.fromVSS path) attr (pf.printUuid uuid) value := by
  obtain ⟨haction, hattr, hid, hpath, hvalue⟩ := get?_setJson pf uuid path value ha
  have hobject : (setJson pf attr uuid path value).isObject = true := rfl
  have hstr (t : String) : (Json.str t).isObject = false := rfl
  have hvalid : validateRequest pf VSSRequestValidator.schemaSet
      (setJson pf attr uuid path value) = .ok () := by
    rw [validateRequest, VSSRequestValidator.validate_eq_ok_iff]
    have hnamed : attr = "targetValue" ∨ attr = "value" := by simpa [or_comm] using ha
    simp [VSSRequestValidator.schemaSet, VSSRequestValidator.valid,
      VSSRequestValidator.validProperties, VSSRequestValidator.hasType, hobject, contains, haction,
      hattr, hid, hpath, hstr, VSSRequestValidator.action, VSSRequestValidator.attributeSchema,
      VSSRequestValidator.path, VSSRequestValidator.requestId, hnamed]
  have hof : attributeOf (setJson pf attr uuid path value) = attr := by
    simp [attributeOf, hattr, asString]
  simp only [processSet, hvalid, hof, text, member_eq_ok.mpr hpath, member_eq_ok.mpr hid,
    member_eq_ok.mpr hvalue, Except.map, asString]

theorem setRefusal_reports {ck : Clock} {path : VSSPath} {requestId : String} {answer : Json}
    (h : setRefusal pf ck db kc path attr requestId = .ok (some answer)) : ReportsError answer := by
  obtain ⟨number, reason, message, hnumber, rfl⟩ := setRefusal_eq_some h
  exact ⟨_, _, _, number, reason, message, List.mem_cons_of_mem _ hnumber, rfl⟩

/-- The lookup throws, or finds the datatype of the one node that the path resolves to. -/
theorem getDatatypeForPath_cases (jp : JsonPath) (db : VssDatabase) (path : VSSPath) :
    (∃ e, db.getDatatypeForPath jp path = .error e ∧ e.kind ≠ .undefinedBehaviour) ∨
    ∃ l node v, Resolves jp db.dataTree path l node ∧ IsSignal node ∧
      node.get? "datatype" = some v ∧ db.getDatatypeForPath jp path = .ok v.asString := by
  unfold getDatatypeForPath
  cases hex : pathExists jp db path with
  | error e => exact Or.inl ⟨e, rfl, defined_pathExists path e hex⟩
  | ok found =>
    cases found with
    | false => exact Or.inl ⟨_, rfl, by simp [Exn.noPathFoundonTree]⟩
    | true =>
      cases hre : pathIsReadable jp db path with
      | error e => exact Or.inl ⟨e, rfl, defined_pathIsReadable path e hre⟩
      | ok readable =>
        cases readable with
        | false => exact Or.inl ⟨_, rfl, by simp [Exn.genException]⟩
        | true =>
          obtain ⟨l, node, hr, hs⟩ := pathIsReadable_eq_true_iff.mp hre
          cases hd : node.get? "datatype" with
          | none =>
            refine Or.inl ⟨.genException (path.toString ++ " does not contain a datatype."), ?_,
              by simp [Exn.genException]⟩
            simp [VSSPath.getJSONPath, hr.query, elementAt, hd, bind, Except.bind, throw, throwThe,
              MonadExceptOf.throw]
          | some v =>
            refine Or.inr ⟨l, node, v, hr, hs, hd, ?_⟩
            simp [VSSPath.getJSONPath, hr.query, elementAt, hd, bind, Except.bind, pure,
              Except.pure]

/-- The node of a value that comes to `setSignal`. -/
theorem Reaches.node {path datatype : String} (h : Reaches pf kc attr db path datatype) :
    ∃ l node v, Resolves pf.jsonPath db.dataTree (.fromVSS path) l node ∧
      node.get? "datatype" = some v ∧ v.asString = datatype := by
  rcases getDatatypeForPath_cases pf.jsonPath db (.fromVSS path) with
    ⟨e, he, -⟩ | ⟨l, node, v, hr, -, hd, he⟩
  · cases he.symm.trans h.1
  · exact ⟨l, node, v, hr, hd, Except.ok.inj (he.symm.trans h.1)⟩

theorem Reaches.answerable {path datatype : String} (h : Reaches pf kc attr db path datatype) :
    Answerable pf kc db path :=
  ⟨⟨datatype, h.1⟩, true, h.2.1⟩

/-- Nothing of an unsupported datatype is admitted. -/
theorem not_admitted_of_unsupported {val : GrpcMessage}
    (h : Unsupported pf kc attr db val.path) : ¬ Admitted pf kc attr db val := by
  rintro ⟨datatype, l, node, stored, hreach, hr, hs⟩
  obtain ⟨datatype', hreach', hno⟩ := h
  obtain rfl : datatype = datatype' := Except.ok.inj (hreach.1.symm.trans hreach'.1)
  obtain ⟨l', node', v, hr', hd, rfl⟩ := hreach.node
  obtain ⟨rfl, rfl⟩ := hr.eq hr'
  obtain ⟨msg, he⟩ := (checkAndSanitizeType_throws pf.numerics hd _).2 hno
  cases hs.symm.trans he

theorem setFailure_reports (ck : Clock) (path : VSSPath) (requestId : String) {e : Exn}
    (hk : e.kind ∈ conversionKinds) :
    ∃ answer, setFailure pf ck path requestId e = .ok answer ∧ ReportsError answer := by
  have hu : e.kind ≠ .undefinedBehaviour := by
    intro h
    rw [h] at hk
    simp [conversionKinds] at hk
  unfold setFailure
  split
  · next h => simp [h, conversionKinds] at hk
  · exact ⟨_, rfl, reportsError_pathNotFound _⟩
  · exact ⟨_, rfl, reportsError_valueOutOfBounds _⟩
  · exact ⟨_, rfl, reportsError_noAccess _⟩
  · exact reportsError_answerUnhandled hu

/-- The checks before a set say whether it comes to `setSignal`. -/
theorem setRefusal_none_iff_reaches (ck : Clock) (kc : KuksaChannel) (attr requestId : String)
    {path datatype : String}
    (hdt : db.getDatatypeForPath pf.jsonPath (.fromVSS path) = .ok datatype) :
    setRefusal pf ck db kc (.fromVSS path) attr requestId = .ok none ↔
      Reaches pf kc attr db path datatype := by
  rw [setRefusal_eq_none_iff]
  constructor
  · rintro ⟨l, node, hr, hw, hs, ha⟩
    exact ⟨hdt, hw, pathIsWritable_eq_true_iff.mpr ⟨l, node, hr, hs⟩, ha⟩
  · rintro ⟨-, hw, hs, ha⟩
    obtain ⟨l, node, hr, hset⟩ := pathIsWritable_eq_true_iff.mp hs
    exact ⟨l, node, hr, hw, hset, ha⟩

/-- They throw only what the check of the access throws. -/
theorem setRefusal_isOk (ck : Clock) (attr requestId : String) {path : VSSPath} {l : Loc}
    {node : Json} {granted : Bool} (hr : Resolves pf.jsonPath db.dataTree path l node)
    (hw : AccessChecker.checkWriteAccess pf.regex kc path = .ok granted) :
    ∃ refusal, setRefusal pf ck db kc path attr requestId = .ok refusal := by
  obtain ⟨writable, hwr⟩ : ∃ b, pathIsWritable pf.jsonPath db path = .ok b := by
    simp [pathIsWritable, VSSPath.getJSONPath, hr.query, Except.map]
  obtain ⟨attributable, hat⟩ : ∃ b, pathIsAttributable pf.jsonPath db path attr = .ok b :=
    ⟨_, hr.pathIsAttributable attr⟩
  unfold setRefusal
  simp only [hr.pathExists, hw, hwr, hat]
  cases granted with
  | false => exact ⟨_, rfl⟩
  | true =>
    cases writable with
    | false => exact ⟨_, rfl⟩
    | true =>
      cases attributable with
      | false => exact ⟨_, rfl⟩
      | true => exact ⟨_, rfl⟩

/-- What becomes of a value whose datatype was found. -/
inductive SetFate (pf : Platform) (ck : Clock) (db : VssDatabase) (kc : KuksaChannel)
    (attr : String) (val : GrpcMessage) (requestId : String) :
    Except Exn Json × VssDatabase × List Publication → Prop
  | thrown {e : Exn} (hu : e.kind ≠ .undefinedBehaviour) (hno : ¬ Answerable pf kc db val.path) :
      SetFate pf ck db kc attr val requestId (.error e, db, [])
  | refused {answer : Json} (hr : ReportsError answer) (hno : ¬ Unsupported pf kc attr db val.path)
      (hnot : ¬ Admitted pf kc attr db val) (hans : Answerable pf kc db val.path) :
      SetFate pf ck db kc attr val requestId (.ok answer, db, [])
  | text {t : String} (hun : Unsupported pf kc attr db val.path) :
      SetFate pf ck db kc attr val requestId (.ok (.str t), db, [])
  | stored {db' : VssDatabase} {datatype : String} {l : Loc} {node stored : Json}
      (hadm : Admitted pf kc attr db val)
      (hdt : db.getDatatypeForPath pf.jsonPath (.fromVSS val.path) = .ok datatype)
      (hst : Stores pf.jsonPath pf.numerics ck db db' (.fromVSS val.path) attr
        (settingOf datatype val.val) l node stored) :
      SetFate pf ck db kc attr val requestId (.ok (setAnswer ck requestId), db',
        [publicationOf (.fromVSS val.path) attr stored (storedNode ck node attr stored)])

theorem performSet_fate (ck : Clock) (val : GrpcMessage) (requestId : String) {datatype : String}
    (hdt : db.getDatatypeForPath pf.jsonPath (.fromVSS val.path) = .ok datatype) :
    SetFate pf ck db kc attr val requestId (performSet pf ck db kc (.fromVSS val.path) attr
      requestId (settingOf datatype val.val)) := by
  obtain ⟨l, node, v, hr, hd, rfl⟩ : ∃ l node v,
      Resolves pf.jsonPath db.dataTree (.fromVSS val.path) l node ∧
        node.get? "datatype" = some v ∧ v.asString = datatype := by
    rcases getDatatypeForPath_cases pf.jsonPath db (.fromVSS val.path) with
      ⟨e, he, -⟩ | ⟨l, node, v, hr, -, hd, he⟩
    · cases he.symm.trans hdt
    · exact ⟨l, node, v, hr, hd, Except.ok.inj (he.symm.trans hdt)⟩
  cases hw : AccessChecker.checkWriteAccess pf.regex kc (.fromVSS val.path) with
  | error e =>
    have hperform : performSet pf ck db kc (.fromVSS val.path) attr requestId
        (settingOf v.asString val.val) = (.error e, db, []) := by
      simp [performSet, setRefusal, hr.pathExists, hw]
    rw [hperform]
    refine .thrown (defined_checkSignalAccess _ _ e hw) ?_
    rintro ⟨-, granted, hg⟩
    cases hw.symm.trans hg
  | ok granted =>
    have hans : Answerable pf kc db val.path := ⟨⟨_, hdt⟩, granted, hw⟩
    have hreach := setRefusal_none_iff_reaches ck kc attr requestId hdt
    obtain ⟨refusal, hf⟩ := setRefusal_isOk ck attr requestId hr hw
    have hbelow (h : refusal ≠ none) (datatype : String) :
        ¬ Reaches pf kc attr db val.path datatype := by
      intro hre
      obtain rfl : datatype = v.asString := Except.ok.inj (hre.1.symm.trans hdt)
      exact h (Except.ok.inj (hf.symm.trans (hreach.mpr hre)))
    cases refusal with
    | some answer =>
      have hperform : performSet pf ck db kc (.fromVSS val.path) attr requestId
          (settingOf v.asString val.val) = (.ok answer, db, []) := by
        simp only [performSet, hf]
      rw [hperform]
      refine .refused (setRefusal_reports hf) ?_ ?_ hans
      · rintro ⟨datatype, hre, -⟩
        exact hbelow (by simp) datatype hre
      · rintro ⟨datatype, _, _, _, hre, -⟩
        exact hbelow (by simp) datatype hre
    | none =>
      have hre := hreach.mp hf
      obtain ⟨hsup, hunsup⟩ := checkAndSanitizeType_throws pf.numerics hd
        (settingOf v.asString val.val)
      have hcontains : node.contains "datatype" = true := by simp [contains, hd]
      cases hs : checkAndSanitizeType pf.numerics node (settingOf v.asString val.val) with
      | ok stored =>
        have hst : Stores pf.jsonPath pf.numerics ck db _ (.fromVSS val.path) attr
            (settingOf v.asString val.val) l node stored := ⟨hr, hcontains, hs, rfl⟩
        simp only [performSet, hf, setSignal_of_stores hst]
        exact .stored ⟨_, l, node, stored, hre, hr, hs⟩ hdt hst
      | error e =>
        have hset : db.setSignal pf.jsonPath pf.numerics ck (.fromVSS val.path) attr
            (settingOf v.asString val.val) = (.error e, db, []) := by
          simp [setSignal, VSSPath.getJSONPath, hr.query, hcontains, hs]
        have hperform : performSet pf ck db kc (.fromVSS val.path) attr requestId
            (settingOf v.asString val.val) =
              (setFailure pf ck (.fromVSS val.path) requestId e, db, []) := by
          simp only [performSet, hf, hset]
        rw [hperform]
        by_cases hsupported : SupportedDatatype pf.numerics v.asString
        · obtain ⟨answer, hfail, hrep⟩ :=
            setFailure_reports ck (.fromVSS val.path) requestId (hsup hsupported e hs)
          rw [hfail]
          refine .refused hrep ?_ ?_ hans
          · rintro ⟨datatype, hre', hno⟩
            obtain rfl : datatype = v.asString := Except.ok.inj (hre'.1.symm.trans hdt)
            exact hno hsupported
          · rintro ⟨datatype, l', node', stored, hre', hr', hs'⟩
            obtain rfl : datatype = v.asString := Except.ok.inj (hre'.1.symm.trans hdt)
            obtain ⟨rfl, rfl⟩ := hr.eq hr'
            cases hs.symm.trans hs'
        · obtain ⟨msg, he⟩ := hunsup hsupported
          obtain rfl : e = .genException msg := Except.error.inj (hs.symm.trans he)
          exact .text ⟨_, hre, hsupported⟩

end Values

section Loop

variable (pf : Platform) (kc : KuksaChannel) (attr : String) (draws : ℕ → Clock × SubscriptionId)

/-- The call of the processor for a value, after its datatype was found. -/
def setCall (db : VssDatabase) (val : GrpcMessage × ℕ) (datatype : String) :
    Except Exn Json × VssDatabase × List Publication :=
  processSet pf (draws val.2).1 db kc
    (setJson pf attr (draws val.2).2 val.1.path (settingOf datatype val.1.val))

/-- The trees after a value. -/
def treesAfter (db : VssDatabase) (val : GrpcMessage × ℕ) : VssDatabase :=
  match db.getDatatypeForPath pf.jsonPath (.fromVSS val.1.path) with
  | .error _ => db
  | .ok datatype => (setCall pf kc attr draws db val datatype).2.1

/-- Each value of a set with the trees that the values before it have left. -/
def takenIn : VssDatabase → List (GrpcMessage × ℕ) → List (VssDatabase × GrpcMessage × ℕ)
  | _, [] => []
  | db, val :: vals => (db, val) :: takenIn (treesAfter pf kc attr draws db val) vals

/-- A value is stored by `setSignal`: one node has it afterwards, and it is published. -/
def IsStored (t : VssDatabase × GrpcMessage × ℕ) : Prop :=
  ∃ datatype l node stored db',
    t.1.getDatatypeForPath pf.jsonPath (.fromVSS t.2.1.path) = .ok datatype ∧
    Stores pf.jsonPath pf.numerics (draws t.2.2).1 t.1 db' (.fromVSS t.2.1.path) attr
      (settingOf datatype t.2.1.val) l node stored ∧
    (setCall pf kc attr draws t.1 t.2 datatype).2 =
      (db', [publicationOf (.fromVSS t.2.1.path) attr stored
        (storedNode (draws t.2.2).1 node attr stored)])

/-- The code of the status of a reply, zero where none was set. -/
def codeOf (status : Option GrpcStatus) : ℤ := (status.map GrpcStatus.statuscode).getD 0

/-- The status is 200 exactly if all values were stored, and an error code otherwise. -/
def TellsStored (reply : SetResponse) (taken : List (VssDatabase × GrpcMessage × ℕ)) : Prop :=
  (codeOf reply.status = 200 ↔ ∀ t ∈ taken, IsStored pf kc attr draws t) ∧
    (codeOf reply.status ≠ 200 → 400 ≤ codeOf reply.status)

/-- A value by itself is answered for, and its datatype is supported. Among several values none
has an unsupported datatype, or another one is not admitted. -/
def StatusDecided (db : VssDatabase) (vals : List GrpcMessage) : Prop :=
  (∀ val, vals = [val] →
    Answerable pf kc db val.path ∧ ¬ Unsupported pf kc attr db val.path) ∧
  (1 < vals.length →
    (∀ t ∈ takenIn pf kc attr draws db vals.zipIdx, ¬ Unsupported pf kc attr t.1 t.2.1.path) ∨
    ∃ t ∈ takenIn pf kc attr draws db vals.zipIdx,
      ¬ Unsupported pf kc attr t.1 t.2.1.path ∧ ¬ Admitted pf kc attr t.1 t.2.1)

/-- The status of a value that was set, for now. -/
def setOne : GrpcStatus := ⟨200, "Set request successfully processed"⟩

/-- What a value makes of the status so far, and whether it counts as a failure. -/
inductive ValueFate (db : VssDatabase) (val : GrpcMessage × ℕ) (status : Option GrpcStatus) :
    Option GrpcStatus × Bool → Prop
  | thrown (hans : ¬ Answerable pf kc db val.1.path) (hst : ¬ IsStored pf kc attr draws (db, val)) :
      ValueFate db val status (status, true)
  | refused {code : GrpcStatus} (hcode : 400 ≤ code.statuscode)
      (hans : Answerable pf kc db val.1.path) (hun : ¬ Unsupported pf kc attr db val.1.path)
      (hadm : ¬ Admitted pf kc attr db val.1) (hst : ¬ IsStored pf kc attr draws (db, val)) :
      ValueFate db val status (some code, true)
  | text (hun : Unsupported pf kc attr db val.1.path)
      (hst : ¬ IsStored pf kc attr draws (db, val)) : ValueFate db val status (some setOne, false)
  | stored (hadm : Admitted pf kc attr db val.1) (hst : IsStored pf kc attr draws (db, val)) :
      ValueFate db val status (some setOne, false)

variable {pf kc attr draws} {db : VssDatabase}

/-- What the loop does with a value, before it goes on. -/
theorem setValues_cons (pf : Platform) (kc : KuksaChannel) (draws : ℕ → Clock × SubscriptionId)
    (ha : attr ∈ ["value", "targetValue"]) (val : GrpcMessage × ℕ)
    (vals : List (GrpcMessage × ℕ)) (eff : SetEffect) (status : Option GrpcStatus)
    (failed : Bool) :
    ∃ eff' step, eff'.db = treesAfter pf kc attr draws eff.db val ∧
      ValueFate pf kc attr draws eff.db val status step ∧
      setValues pf draws attr kc (val :: vals) eff status failed =
        setValues pf draws attr kc vals eff' step.1 (failed || step.2) := by
  obtain ⟨msg, i⟩ := val
  rcases getDatatypeForPath_cases pf.jsonPath eff.db (.fromVSS msg.path) with
    ⟨e, he, hu⟩ | ⟨-, -, v, -, -, -, hdt⟩
  · refine ⟨eff, (status, true), by simp [treesAfter, he], .thrown ?_ ?_, ?_⟩
    · rintro ⟨⟨datatype, hdt⟩, -⟩
      cases he.symm.trans hdt
    · rintro ⟨datatype, -, -, -, -, hdt, -⟩
      cases he.symm.trans hdt
    · simp [setValues, he, hu]
  · have hcall : setCall pf kc attr draws eff.db (msg, i) v.asString =
        performSet pf (draws i).1 eff.db kc (.fromVSS msg.path) attr (pf.printUuid (draws i).2)
          (settingOf v.asString msg.val) := processSet_setJson _ _ _ _ ha
    have hfate : SetFate pf (draws i).1 eff.db kc attr msg (pf.printUuid (draws i).2)
        (setCall pf kc attr draws eff.db (msg, i) v.asString) := by
      rw [hcall]
      exact performSet_fate _ msg _ hdt
    have htrees : treesAfter pf kc attr draws eff.db (msg, i) =
        (setCall pf kc attr draws eff.db (msg, i) v.asString).2.1 := by
      simp only [treesAfter, hdt]
    have hnot (hnil : (setCall pf kc attr draws eff.db (msg, i) v.asString).2.2 = []) :
        ¬ IsStored pf kc attr draws (eff.db, msg, i) := by
      rintro ⟨datatype, _, _, _, _, hdt', -, heq⟩
      obtain rfl : datatype = v.asString := Except.ok.inj (hdt'.symm.trans hdt)
      rw [heq] at hnil
      cases hnil
    have hstep (step : Option GrpcStatus × Bool)
        (h : setStatus pf (setCall pf kc attr draws eff.db (msg, i) v.asString).1 status =
          .ok step) : ∃ eff' : SetEffect, eff'.db = treesAfter pf kc attr draws eff.db (msg, i) ∧
        setValues pf draws attr kc ((msg, i) :: vals) eff status failed =
          setValues pf draws attr kc vals eff' step.1 (failed || step.2) := by
      refine ⟨⟨(setCall pf kc attr draws eff.db (msg, i) v.asString).2.1,
        eff.pubs ++ (setCall pf kc attr draws eff.db (msg, i) v.asString).2.2,
        eff.calls ++ [.processSet kc
          (setJson pf attr (draws i).2 msg.path (settingOf v.asString msg.val))]⟩, htrees.symm, ?_⟩
      rw [setCall] at h
      simp only [setValues, hdt, h]
      rfl
    generalize hr : setCall pf kc attr draws eff.db (msg, i) v.asString = r at hfate hnot hstep
    cases hfate with
    | thrown hu hans =>
      obtain ⟨eff', hdb, heq⟩ := hstep (status, true) (by simp [setStatus, caught, hu])
      exact ⟨eff', _, hdb, .thrown hans (hnot rfl), heq⟩
    | refused hrep hun hadm hans =>
      obtain ⟨hcontains, code, hcode, hge⟩ := hrep.status pf.numerics
      obtain ⟨eff', hdb, heq⟩ := hstep (some code, true) (by simp [setStatus, hcontains, hcode])
      exact ⟨eff', _, hdb, .refused hge hans hun hadm (hnot rfl), heq⟩
    | text hun =>
      obtain ⟨eff', hdb, heq⟩ := hstep (some setOne, false) rfl
      exact ⟨eff', _, hdb, .text hun (hnot rfl), heq⟩
    | stored hadm hdt' hst =>
      obtain rfl := Except.ok.inj (hdt'.symm.trans hdt)
      obtain ⟨eff', hdb, heq⟩ := hstep (some setOne, false)
        (by simp [setStatus, setAnswer_no_error, setOne])
      exact ⟨eff', _, hdb, .stored hadm ⟨_, _, _, _, _, hdt, hst, by rw [hr]⟩, heq⟩

theorem not_admitted_of_not_answerable {val : GrpcMessage}
    (h : ¬ Answerable pf kc db val.path) :
    ¬ Unsupported pf kc attr db val.path ∧ ¬ Admitted pf kc attr db val := by
  constructor
  · rintro ⟨datatype, hreach, -⟩
    exact h hreach.answerable
  · rintro ⟨datatype, _, _, _, hreach, -⟩
    exact h hreach.answerable

/-- A value counts as a failure where it is neither unsupported nor admitted. -/
theorem ValueFate.failed_iff {val : GrpcMessage × ℕ} {status : Option GrpcStatus}
    {step : Option GrpcStatus × Bool} (h : ValueFate pf kc attr draws db val status step) :
    step.2 = true ↔ ¬ Unsupported pf kc attr db val.1.path ∧ ¬ Admitted pf kc attr db val.1 := by
  cases h with
  | thrown hans hst => simpa using not_admitted_of_not_answerable hans
  | refused hcode hans hun hadm hst => simp [hun, hadm]
  | text hun hst => simp [hun]
  | stored hadm hst => simp [hadm]

theorem ValueFate.stored_iff {val : GrpcMessage × ℕ} {status : Option GrpcStatus}
    {step : Option GrpcStatus × Bool} (h : ValueFate pf kc attr draws db val status step) :
    IsStored pf kc attr draws (db, val) ↔ Admitted pf kc attr db val.1 := by
  cases h with
  | thrown hans hst => simpa [hst] using (not_admitted_of_not_answerable hans).2
  | refused hcode hans hun hadm hst => simp [hst, hadm]
  | text hun hst => simpa [hst] using not_admitted_of_unsupported hun
  | stored hadm hst => simp [hst, hadm]

/-- The loop goes through all values; it counts a failure where one of them is one. -/
theorem setValues_taken (pf : Platform) (kc : KuksaChannel) (draws : ℕ → Clock × SubscriptionId)
    (ha : attr ∈ ["value", "targetValue"]) (vals : List (GrpcMessage × ℕ))
    (eff : SetEffect) (status : Option GrpcStatus) (failed : Bool) :
    ∃ status' failed' eff', setValues pf draws attr kc vals eff status failed =
        (.ok (status', failed'), eff') ∧
      (failed' = true ↔ failed = true ∨ ∃ t ∈ takenIn pf kc attr draws eff.db vals,
        ¬ Unsupported pf kc attr t.1 t.2.1.path ∧ ¬ Admitted pf kc attr t.1 t.2.1) ∧
      ∀ t ∈ takenIn pf kc attr draws eff.db vals,
        IsStored pf kc attr draws t ↔ Admitted pf kc attr t.1 t.2.1 := by
  induction vals generalizing eff status failed with
  | nil => exact ⟨status, failed, eff, rfl, by simp [takenIn], by simp [takenIn]⟩
  | cons val vals ih =>
    obtain ⟨eff₁, step, hdb, hfate, heq⟩ := setValues_cons pf kc draws ha val vals eff status failed
    obtain ⟨status', failed', eff', heq', hfailed, hall⟩ := ih eff₁ step.1 (failed || step.2)
    refine ⟨status', failed', eff', heq.trans heq', ?_, ?_⟩
    · rw [hfailed, hdb, Bool.or_eq_true, hfate.failed_iff, takenIn, List.exists_mem_cons_iff,
        or_assoc]
    · rw [takenIn, List.forall_mem_cons, ← hdb]
      exact ⟨hfate.stored_iff, hall⟩

end Loop

section Reply

variable {pf : Platform} {kc : KuksaChannel} {attr : String}
  {draws : ℕ → Clock × SubscriptionId} {db : VssDatabase}

theorem codeOf_some (code : GrpcStatus) : codeOf (some code) = code.statuscode := rfl

/-- An error code tells the truth where a value was not stored. -/
theorem tellsStored_of_error {reply : SetResponse} {taken : List (VssDatabase × GrpcMessage × ℕ)}
    (hcode : 400 ≤ codeOf reply.status) (hno : ¬ ∀ t ∈ taken, IsStored pf kc attr draws t) :
    TellsStored pf kc attr draws reply taken := by
  refine ⟨⟨fun h => ?_, fun h => absurd h hno⟩, fun _ => hcode⟩
  rw [h] at hcode
  omega

theorem tellsStored_ok_iff {reply : SetResponse} {taken : List (VssDatabase × GrpcMessage × ℕ)}
    (hcode : codeOf reply.status = 200) : TellsStored pf kc attr draws reply taken ↔
      ∀ t ∈ taken, IsStored pf kc attr draws t := by
  simp [TellsStored, hcode]

/-- The status after a single value. -/
theorem tellsStored_single {val : GrpcMessage} {step : Option GrpcStatus × Bool}
    {reply : SetResponse}
    (hfate : ValueFate pf kc attr draws db (val, 0) none step)
    (hreply : reply.status = if step.2 = true then step.1
      else some ⟨200, "Set request successfully processed."⟩) :
    TellsStored pf kc attr draws reply [(db, val, 0)] ↔
      Answerable pf kc db val.path ∧ ¬ Unsupported pf kc attr db val.path := by
  have hmem : (∀ t ∈ [(db, val, 0)], IsStored pf kc attr draws t) ↔
      IsStored pf kc attr draws (db, val, 0) := by
    simp
  cases hfate with
  | thrown hans hst =>
    have hcode : codeOf reply.status = 0 := by simp [codeOf, hreply]
    have hno : ¬ TellsStored pf kc attr draws reply [(db, val, 0)] := by
      intro h
      have hge := h.2 (by rw [hcode]; decide)
      rw [hcode] at hge
      omega
    simp [hno, hans]
  | refused hge hans hun hadm hst =>
    have hcode : 400 ≤ codeOf reply.status := by simpa [codeOf, hreply] using hge
    have htells := tellsStored_of_error hcode (by rwa [hmem])
    simp [htells, hans, hun]
  | text hun hst =>
    have hcode : codeOf reply.status = 200 := by simp [codeOf, hreply]
    rw [tellsStored_ok_iff hcode, hmem]
    simp [hst, hun]
  | stored hadm hst =>
    have hcode : codeOf reply.status = 200 := by simp [codeOf, hreply]
    rw [tellsStored_ok_iff hcode, hmem]
    obtain ⟨datatype, _, _, _, hreach, -⟩ := id hadm
    have hun : ¬ Unsupported pf kc attr db val.path := fun h => not_admitted_of_unsupported h hadm
    simp [hst, hreach.answerable, hun]

/-- The status after several values. -/
theorem tellsStored_several {vals : List (GrpcMessage × ℕ)} {failed : Bool} {reply : SetResponse}
    (hfailed : failed = true ↔ ∃ t ∈ takenIn pf kc attr draws db vals,
      ¬ Unsupported pf kc attr t.1 t.2.1.path ∧ ¬ Admitted pf kc attr t.1 t.2.1)
    (hall : ∀ t ∈ takenIn pf kc attr draws db vals,
      IsStored pf kc attr draws t ↔ Admitted pf kc attr t.1 t.2.1)
    (hreply : codeOf reply.status = if failed = true then 400 else 200) :
    TellsStored pf kc attr draws reply (takenIn pf kc attr draws db vals) ↔
      (∀ t ∈ takenIn pf kc attr draws db vals, ¬ Unsupported pf kc attr t.1 t.2.1.path) ∨
      ∃ t ∈ takenIn pf kc attr draws db vals,
        ¬ Unsupported pf kc attr t.1 t.2.1.path ∧ ¬ Admitted pf kc attr t.1 t.2.1 := by
  cases failed with
  | true =>
    obtain ⟨t, ht, hun, hadm⟩ := hfailed.mp rfl
    have htells : TellsStored pf kc attr draws reply (takenIn pf kc attr draws db vals) := by
      refine tellsStored_of_error hreply.ge fun hst => hadm ?_
      exact (hall t ht).mp (hst t ht)
    simp only [htells, true_iff]
    exact Or.inr ⟨t, ht, hun, hadm⟩
  | false =>
    have hnone : ¬ ∃ t ∈ takenIn pf kc attr draws db vals,
        ¬ Unsupported pf kc attr t.1 t.2.1.path ∧ ¬ Admitted pf kc attr t.1 t.2.1 := by
      simpa using hfailed
    rw [tellsStored_ok_iff hreply, or_iff_left hnone]
    refine forall₂_congr fun t ht => ?_
    rw [hall t ht]
    constructor
    · intro hadm hun
      exact not_admitted_of_unsupported hun hadm
    · intro hun
      by_contra hadm
      exact hnone ⟨t, ht, hun, hadm⟩

end Reply

/-- The status of a set over an authorized channel is 200 exactly if all values were stored, and
an error code otherwise, where the status is decided, and only there. -/
theorem set_tellsStored_iff (pf : Platform) (db : VssDatabase) (svc svc' : RequestServiceImpl)
    (draws : ℕ → Clock × SubscriptionId) (context : ServerContext) (request : SetRequest)
    (kc : KuksaChannel) (hkc : authChecker pf svc context = (some kc, svc'))
    (htype : request.type ≠ .metadata) :
    ∃ reply eff, set pf db svc draws context request = ((.ok reply, eff), svc') ∧
      (TellsStored pf kc (request.type.attribute.getD "value") draws reply
          (takenIn pf kc (request.type.attribute.getD "value") draws db request.values.zipIdx) ↔
        StatusDecided pf kc (request.type.attribute.getD "value") draws db request.values) := by
  have ha : request.type.attribute.getD "value" ∈ ["value", "targetValue"] := by
    cases request.type <;> simp [RequestType.attribute]
  obtain ⟨type, values⟩ := request
  dsimp only at ha htype ⊢
  generalize hattr : type.attribute.getD "value" = attr at ha ⊢
  match values with
  | [] =>
    refine ⟨{ status := some ⟨200, "Set request successfully processed."⟩ }, { db := db },
      by simp [set, hkc, htype, setValues], ?_⟩
    rw [tellsStored_ok_iff rfl]
    simp [takenIn, StatusDecided]
  | [val] =>
    obtain ⟨eff, step, -, hfate, heq⟩ := setValues_cons pf kc draws ha
      (val, 0) [] { db := db } none false
    obtain ⟨reply, hreply⟩ : ∃ reply : SetResponse, reply.status = if step.2 = true then step.1
        else some ⟨200, "Set request successfully processed."⟩ := ⟨⟨_⟩, rfl⟩
    refine ⟨reply, eff, ?_, ?_⟩
    · have hloop : setValues pf draws attr kc [val].zipIdx { db := db } none false =
          (.ok (step.1, step.2), eff) := by
        simpa [setValues] using heq
      obtain ⟨status⟩ := reply
      obtain rfl := hreply
      simp only [set, hkc, if_neg htype, hattr, hloop]
      cases step.2 <;> simp
    · have htaken : takenIn pf kc attr draws db [val].zipIdx = [(db, val, 0)] := rfl
      rw [htaken, tellsStored_single hfate hreply]
      simp [StatusDecided]
  | val :: val' :: vals =>
    obtain ⟨status, failed, eff, heq, hfailed, hall⟩ := setValues_taken pf kc draws ha
      (val :: val' :: vals).zipIdx { db := db } none false
    simp only [Bool.false_eq_true, false_or] at hfailed
    refine ⟨{ status := some (if failed = true then ⟨400, singleRequests⟩
        else ⟨200, "Set request successfully processed."⟩) }, eff, ?_, ?_⟩
    · simp only [set, hkc, if_neg htype, hattr, heq]
      cases failed <;> simp
    · rw [tellsStored_several hfailed hall (by rw [codeOf_some]; split_ifs <;> rfl)]
      simp [StatusDecided]

section Gear

/-- A tree with a datatype that the sanitizer does not know. -/
def gearDb : VssDatabase :=
  ⟨.obj [("Gear", .obj [("datatype", .str "uint24"), ("type", .str "actuator")])], .obj []⟩

def gearPlatform : Platform := .basic fun _ => .error "Parse error"

def driver : KuksaChannel := { permissions := [("Gear", .str "rw")], typeOfConnection := .grpc }

def driverService : RequestServiceImpl := { grpcSessionMap := fun _ => some driver }

def driverContext : ServerContext := ⟨5, "driver:1", some "1"⟩

def driverDraws (i : ℕ) : Clock × SubscriptionId := (midnight, i)

def gearSet : SetRequest := ⟨.currentValue, [{ path := "Gear", val := some (.string "3") }]⟩

theorem set_tellsStored_gear :
    ∃ reply eff, set gearPlatform gearDb driverService driverDraws driverContext gearSet =
        ((.ok reply, eff), driverService) ∧
      (TellsStored gearPlatform driver "value" driverDraws reply
          (takenIn gearPlatform driver "value" driverDraws gearDb gearSet.values.zipIdx) ↔
        StatusDecided gearPlatform driver "value" driverDraws gearDb gearSet.values) :=
  set_tellsStored_iff gearPlatform gearDb driverService driverService driverDraws driverContext
    gearSet driver rfl (by decide)

/-- The status is 200, and the gear is not stored. -/
theorem not_set_tellsStored :
    ¬ ∀ (pf : Platform) (db : VssDatabase) (svc svc' : RequestServiceImpl)
      (draws : ℕ → Clock × SubscriptionId) (context : ServerContext) (request : SetRequest)
      (kc : KuksaChannel), authChecker pf svc context = (some kc, svc') →
      request.type ≠ .metadata → ∃ reply eff,
        set pf db svc draws context request = ((.ok reply, eff), svc') ∧
        TellsStored pf kc (request.type.attribute.getD "value") draws reply
          (takenIn pf kc (request.type.attribute.getD "value") draws db request.values.zipIdx) := by
  intro h
  obtain ⟨reply, eff, hset, htells, -⟩ := h gearPlatform gearDb driverService driverService
    driverDraws driverContext gearSet driver rfl (by decide)
  have hrun : (set gearPlatform gearDb driverService driverDraws driverContext gearSet).1.1 =
      .ok { status := some ⟨200, "Set request successfully processed."⟩ } := by
    decide +kernel
  have hreply : reply = { status := some ⟨200, "Set request successfully processed."⟩ } := by
    rw [hset] at hrun
    exact Except.ok.inj hrun
  have hcode : codeOf reply.status = 200 := by rw [hreply, codeOf_some]
  obtain ⟨datatype, _, _, _, _, hdt, -, hcall⟩ := htells.mp hcode
    (gearDb, { path := "Gear", val := some (.string "3") }, 0) List.mem_cons_self
  have hgear : gearDb.getDatatypeForPath gearPlatform.jsonPath (.fromVSS "Gear") =
      .ok "uint24" := by
    decide +kernel
  obtain rfl : "uint24" = datatype := Except.ok.inj (hgear.symm.trans hdt)
  have hnil : (setCall gearPlatform driver "value" driverDraws gearDb
      ({ path := "Gear", val := some (.string "3") }, 0) "uint24").2.2 = [] := by
    decide +kernel
  cases hnil.symm.trans (congrArg Prod.snd hcall)

end Gear

end RequestServiceImpl
