import KuksaVal.Datatypes
import KuksaVal.GrpcStreams
import KuksaVal.SetRequest
import KuksaVal.SubThread

/-! What a subscription stream is sent after a set: the value, in the field of its datatype, if
the attribute is the one that the stream is always sent. -/
open Json

namespace GrpcHandler
open VssDatabase

/-- What the value library does with numbers that it has read, and with `null`. -/
structure KeepsFloats (nm : Numerics) : Prop where
  asDouble_double : ∀ d, nm.asDouble (.double d) = .ok d
  asFloat_float : ∀ j d, nm.asFloat j = .ok d → nm.asFloat (.double d) = .ok d
  asDouble_null : ∃ msg, nm.asDouble .null = .error msg
  asFloat_null : ∃ msg, nm.asFloat .null = .error msg

/-- The field that belongs to the datatype has this value; any value of a text signal is there
as text. -/
inductive Carries : String → Json → GrpcValue → Prop
  | uint32 {dt : String} {n : ℤ} (h : dt ∈ ["uint8", "uint16", "uint32"]) :
      Carries dt (.int n) (.uint32 n)
  | int32 {dt : String} {n : ℤ} (h : dt ∈ ["int8", "int16", "int32"]) :
      Carries dt (.int n) (.int32 n)
  | uint64 {n : ℤ} : Carries "uint64" (.int n) (.uint64 n)
  | int64 {n : ℤ} : Carries "int64" (.int n) (.int64 n)
  | float {d : Double} : Carries "float" (.double d) (.float d)
  | double {d : Double} : Carries "double" (.double d) (.double d)
  | boolean {b : Bool} : Carries "boolean" (.bool b) (.bool b)
  | string {v : Json} : Carries "string" v (.string v.asString)

theorem Carries.text {dt s : String} {v : Json} (h : Carries dt v (.string s)) :
    v.asString = s := by
  cases h
  rfl

section Fields
variable {nm : Numerics} {node v w : Json} {dt : String}

/-- The integers of a datatype are integers of its field. -/
theorem valueOf_integer {t : IntType} (h : (dt, t) ∈ integerTypes) {n : ℤ} (hn : t.Range n) :
    ∃ field, valueOf nm dt (.int n) = .ok field ∧ Carries dt (.int n) field := by
  have hfield (u : IntType) (f : ℤ → GrpcValue)
      (hu : 0 < u.bits ∧ u.lower ≤ t.lower ∧ t.upper ≤ u.upper)
      (hv : valueOf nm dt (.int n) = .ok (f (u.wrap n))) (hc : Carries dt (.int n) (f n)) :
      ∃ field, valueOf nm dt (.int n) = .ok field ∧ Carries dt (.int n) field := by
    obtain ⟨hbits, hlower, hupper⟩ := hu
    rw [IntType.wrap_of_range hbits ⟨hlower.trans hn.1, hn.2.trans hupper⟩] at hv
    exact ⟨f n, hv, hc⟩
  simp only [integerTypes, List.mem_cons, Prod.mk.injEq, List.not_mem_nil, or_false] at h
  rcases h with ⟨rfl, rfl⟩ | ⟨rfl, rfl⟩ | ⟨rfl, rfl⟩ | ⟨rfl, rfl⟩ | ⟨rfl, rfl⟩ | ⟨rfl, rfl⟩ |
    ⟨rfl, rfl⟩ | ⟨rfl, rfl⟩
  · exact hfield ⟨32, false⟩ .uint32 (by decide) rfl (.uint32 (by decide))
  · exact hfield ⟨32, true⟩ .int32 (by decide) rfl (.int32 (by decide))
  · exact hfield ⟨32, false⟩ .uint32 (by decide) rfl (.uint32 (by decide))
  · exact hfield ⟨32, true⟩ .int32 (by decide) rfl (.int32 (by decide))
  · exact hfield ⟨32, false⟩ .uint32 (by decide) rfl (.uint32 (by decide))
  · exact hfield ⟨32, true⟩ .int32 (by decide) rfl (.int32 (by decide))
  · exact hfield ⟨64, false⟩ .uint64 (by decide) rfl .uint64
  · exact hfield ⟨64, true⟩ .int64 (by decide) rfl .int64

/-- The default of a boolean attribute, which is stored as text, comes out as the boolean. -/
theorem valueOf_boolean_text (b : Bool) :
    valueOf nm "boolean" (.str (toString b)) = .ok (.bool b) := by
  have hv : valueOf nm "boolean" (.str (toString b)) =
      (asBool nm (.str (toString b))).map .bool := rfl
  rw [hv, asBool_toString]
  rfl

theorem asInteger_range {t : IntType} (h : (dt, t) ∈ integerTypes) {c : ℤ}
    (hc : asInteger nm t v = .ok c) : t.Range c := by
  have hbits := integerTypes_bits h
  cases v with
  | int n =>
    obtain rfl := Except.ok.inj hc
    exact IntType.range_wrap hbits n
  | bool b =>
    have hall : ∀ m ∈ integerTypes, m.2.Range 0 ∧ m.2.Range 1 := by decide
    obtain rfl := Except.ok.inj hc
    split_ifs
    · exact (hall _ h).2
    · exact (hall _ h).1
  | double d =>
    obtain rfl := Except.ok.inj hc
    exact IntType.range_wrap hbits _
  | str s =>
    cases hs : nm.numeral s with
    | none => simp [asInteger, hs] at hc
    | some n =>
      simp only [asInteger, hs] at hc
      split_ifs at hc with hr
      obtain rfl := Except.ok.inj hc
      exact hr
  | _ => simp [asInteger] at hc

/-- What the sanitizer leaves of a floating-point number is read again as it is. -/
theorem number_floating {as : Json → Except String Double}
    (has : ∀ j d, as j = .ok d → as (.double d) = .ok d)
    (hs : checkNumTypes nm (.floating nm as) node v = .ok w) :
    ∃ d, w = .double d ∧ as (.double d) = .ok d := by
  obtain ⟨d, hd, -, -, -, rfl⟩ := checkNumTypes_eq_ok_iff.mp hs
  replace hd : (as v).mapError conversionError = .ok d := hd
  refine ⟨d, rfl, has v d ?_⟩
  cases hv : as v with
  | error msg => simp [hv, Except.mapError] at hd
  | ok d' =>
    rw [hv] at hd
    exact congrArg Except.ok (Except.ok.inj hd)

/-- A value that a set stores is sent in the field of its datatype. -/
theorem valueOf_stored {datatype : Json} (hnm : KeepsFloats nm)
    (hd : node.get? "datatype" = some datatype) (hdt : datatype.asString ∈ scalarDatatypes)
    (hs : checkAndSanitizeType nm node v = .ok w) : ∃ field,
      valueOf nm datatype.asString w = .ok field ∧ Carries datatype.asString w field := by
  have hall : ∀ name ∈ scalarDatatypes, (∃ m ∈ integerTypes, m.1 = name) ∨
      name = "float" ∨ name = "double" ∨ name = "boolean" ∨ name = "string" := by decide
  rcases hall _ hdt with ⟨⟨dt, t⟩, hmem, ht⟩ | ht | ht | ht | ht
  · replace ht : datatype.asString = dt := ht.symm
    have hint : numTypeOf nm dt = some (.integer nm t) := numTypeOf_integer hmem
    rw [checkAndSanitizeType_number hd (by rw [ht, hint])] at hs
    obtain ⟨c, hc, -, -, -, rfl⟩ := checkNumTypes_eq_ok_iff.mp hs
    rw [ht]
    exact valueOf_integer hmem (asInteger_range hmem hc)
  · have hfloat : numTypeOf nm "float" = some (.floating nm nm.asFloat) := rfl
    rw [checkAndSanitizeType_number hd (by rw [ht, hfloat])] at hs
    obtain ⟨d, rfl, hd⟩ := number_floating hnm.asFloat_float hs
    rw [ht]
    exact ⟨.float d, by simp [valueOf, hd, Except.mapError, Except.map], .float⟩
  · have hdouble : numTypeOf nm "double" = some (.floating nm nm.asDouble) := rfl
    rw [checkAndSanitizeType_number hd (by rw [ht, hdouble])] at hs
    obtain ⟨d, rfl, hd⟩ := number_floating (fun _ d _ => hnm.asDouble_double d) hs
    rw [ht]
    exact ⟨.double d, by simp [valueOf, hd, Except.mapError, Except.map], .double⟩
  · rw [checkAndSanitizeType_boolean hd ht] at hs
    obtain ⟨b, rfl⟩ := checkBoolType_eq_ok hs
    rw [ht]
    exact ⟨.bool b, rfl, .boolean⟩
  · rw [ht]
    exact ⟨.string w.asString, rfl, .string⟩

end Fields

section Lookup

/-- `j[key]` for reading: an absent member of an object throws, or is `null`. -/
def lookup (yieldsNull : Bool) (j : Json) (k : String) : Except Exn Json :=
  match j.member k with
  | .ok v => .ok v
  | .error e => if yieldsNull && j.isObject then .ok .null else .error e

/-- What a stream is sent, under either reading of absent members. -/
def sentToStream (yieldsNull : Bool) (nm : Numerics) (vssdatatype : String) (data : Json) :
    Except Exn (String × GrpcValue) :=
  let get := lookup yieldsNull
  match (((get data "data").bind fun data => get data "dp").bind fun dp => get dp "value").bind
      (valueOf nm vssdatatype) with
  | .error e => .error e
  | .ok value => ((get data "data").bind fun data => get data "path").map fun path =>
      (path.asString, value)

theorem lookup_of_get? {yieldsNull : Bool} {j v : Json} {k : String} (h : j.get? k = some v) :
    lookup yieldsNull j k = .ok v := by
  simp [lookup, member_of_get? h]

theorem lookup_false (j : Json) (k : String) : lookup false j k = j.member k := by
  unfold lookup
  cases j.member k <;> rfl

/-- The model of the server throws. -/
theorem sentToStream_false (nm : Numerics) (vssdatatype : String) (data : Json) :
    sentToStream false nm vssdatatype data = grpcSendObjectToStream nm vssdatatype data := by
  simp only [sentToStream, lookup_false]
  rfl

variable {nm : Numerics} {dt : String} {answer data dp : Json} {path : String}

/-- Only as a text can `null` be sent. -/
theorem valueOf_null (hnm : KeepsFloats nm) (hdt : dt ∈ scalarDatatypes) {field : GrpcValue}
    (h : valueOf nm dt .null = .ok field) : dt = "string" ∧ field = .string "null" := by
  obtain ⟨msg, hdouble⟩ := hnm.asDouble_null
  obtain ⟨msg', hfloat⟩ := hnm.asFloat_null
  simp only [scalarDatatypes, List.mem_cons, List.not_mem_nil, or_false] at hdt
  rcases hdt with rfl | rfl | rfl | rfl | rfl | rfl | rfl | rfl | rfl | rfl | rfl | rfl
  case inr.inr.inr.inr.inr.inr.inr.inr.inr.inr.inr => exact ⟨rfl, (Except.ok.inj h).symm⟩
  all_goals simp [valueOf, asInteger, asBool, hdouble, hfloat, Except.mapError, Except.map] at h

/-- Where the value is, it is sent in its field. -/
theorem sentToStream_value {v : Json} (hdata : answer.get? "data" = some data)
    (hdp : data.get? "dp" = some dp) (hpath : data.get? "path" = some (.str path))
    (hv : dp.get? "value" = some v) {field : GrpcValue} (hf : valueOf nm dt v = .ok field)
    (yieldsNull : Bool) : sentToStream yieldsNull nm dt answer = .ok (path, field) := by
  simp [sentToStream, lookup_of_get? hdata, lookup_of_get? hdp, lookup_of_get? hv,
    lookup_of_get? hpath, Except.bind, Except.map, hf]

/-- Where it is not, nothing is sent, or a text is sent that reads `null`. -/
theorem sentToStream_absent (hnm : KeepsFloats nm) (hdt : dt ∈ scalarDatatypes)
    (hdata : answer.get? "data" = some data) (hdp : data.get? "dp" = some dp)
    (hpath : data.get? "path" = some (.str path)) (hobject : dp.isObject = true)
    (hv : dp.get? "value" = none) (yieldsNull : Bool) (sent : String × GrpcValue) :
    sentToStream yieldsNull nm dt answer = .ok sent ↔
      yieldsNull = true ∧ dt = "string" ∧ sent = (path, .string "null") := by
  obtain ⟨e, he⟩ : ∃ e, dp.member "value" = .error e := by
    cases hm : dp.member "value" with
    | error e => exact ⟨e, rfl⟩
    | ok v => simp [member_eq_ok.mp hm] at hv
  have hget : lookup yieldsNull dp "value" = if yieldsNull then .ok .null else .error e := by
    simp [lookup, he, hobject]
  simp only [sentToStream, lookup_of_get? hdata, lookup_of_get? hdp, lookup_of_get? hpath,
    Except.bind, hget]
  cases yieldsNull with
  | false => simp
  | true =>
    cases hf : valueOf nm dt .null with
    | error e =>
      have hne : dt ≠ "string" := by
        rintro rfl
        exact absurd (hf.symm.trans rfl : (Except.error e : Except Exn GrpcValue) = .ok _) (by simp)
      simp [hf, hne]
    | ok field =>
      obtain ⟨rfl, rfl⟩ := valueOf_null hnm hdt hf
      simp [hf, Except.map, eq_comm]

end Lookup

end GrpcHandler

namespace GrpcServer
open VssDatabase GrpcHandler SubThread VssCommandProcessor

/-- The call of the publisher by a set that was accepted, of a signal of single values. -/
structure AcceptedSet (pf : Platform) (path : VSSPath) (attr : String) (stored : Json)
    (p : Publication) : Prop where
  accepted : ∃ ck db value data db',
    setSignal pf.jsonPath pf.numerics ck db path attr value = (.ok data, db', [p]) ∧
      (data.get? "dp").bind (get? attr) = some stored
  attr_mem : attr ∈ ["value", "targetValue"]
  datatype : p.vssdatatype ∈ scalarDatatypes

/-- What a set publishes: the value under its attribute, and whole numbers as its timestamp. -/
structure Published (path : VSSPath) (attr : String) (stored : Json) (p : Publication)
    (dp : Json) : Prop where
  path_text : p.data.get? "path" = some (.str path.toString)
  dp_member : p.data.get? "dp" = some dp
  value : dp.get? attr = some stored
  other : ∀ k, k ∉ [attr, "ts_s", "ts_ns"] → dp.get? k = none
  seconds : ∃ s, dp.get? "ts_s" = some (.int s)
  nanoseconds : ∃ ns, dp.get? "ts_ns" = some (.int ns)

section Answer
variable {pf : Platform} {path : VSSPath} {attr : String} {stored : Json} {p : Publication}

theorem published_publicationOf {ck : Clock} {node : Json} (hnode : node.isObject = true)
    (hattr : attr ∈ ["value", "targetValue"]) : ∃ dp, Published path attr stored
      (publicationOf path attr stored (storedNode ck node attr stored)) dp := by
  obtain ⟨hs, hns⟩ : attr ≠ "ts_s" ∧ attr ≠ "ts_ns" := by
    constructor <;>
    · rintro rfl
      simp at hattr
  have hts : (storedNode ck node attr stored).get? ("ts_s-" ++ attr) = some (.int ck.seconds) := by
    rw [get?_storedNode hnode, if_neg (by simp), if_pos rfl]
  have htns : (storedNode ck node attr stored).get? ("ts_ns-" ++ attr) =
      some (.int ck.nanoseconds) := by
    rw [get?_storedNode hnode, if_pos rfl]
  refine ⟨ofMembers [(attr, stored), ("ts_s", .int ck.seconds), ("ts_ns", .int ck.nanoseconds)],
    ?_, ?_, ?_, ?_, ⟨ck.seconds, ?_⟩, ck.nanoseconds, ?_⟩
  · simp [publicationOf, publishedData, JsonResponses.get?_ofMembers, Members.get?_cons]
  · simp [publicationOf, publishedData, JsonResponses.get?_ofMembers, Members.get?_cons, hts, htns]
  · simp [JsonResponses.get?_ofMembers, Members.get?_cons, hs, hns]
  · intro k hk
    simp only [List.mem_cons, List.not_mem_nil, or_false, not_or] at hk
    simp [JsonResponses.get?_ofMembers, Members.get?_cons, hk]
  · simp [JsonResponses.get?_ofMembers, Members.get?_cons]
  · simp [JsonResponses.get?_ofMembers, Members.get?_cons]

/-- What is published by an accepted set is the stored value of the node that it resolves to. -/
theorem AcceptedSet.stores (h : AcceptedSet pf path attr stored p) :
    ∃ ck db db' value l node,
      Stores pf.jsonPath pf.numerics ck db db' path attr value l node stored ∧
        p = publicationOf path attr stored (storedNode ck node attr stored) := by
  obtain ⟨ck, db, value, data, db', hset, hstored⟩ := h.accepted
  rcases setSignal_cases pf.jsonPath pf.numerics ck db path attr value with
    ⟨e, he⟩ | ⟨-, data', he⟩ | ⟨db'', l, node, stored', hst, he⟩
  · simp [he] at hset
  · simp [he] at hset
  · rw [he] at hset
    simp only [Prod.mk.injEq, Except.ok.injEq, List.cons.injEq, and_true] at hset
    obtain ⟨rfl, rfl, rfl⟩ := hset
    obtain ⟨dp, hp⟩ : ∃ dp, Published path attr stored'
        (publicationOf path attr stored' (storedNode ck node attr stored')) dp :=
      published_publicationOf (isObject_of_contains hst.datatype) h.attr_mem
    have hdp : (publishedData path attr stored' (storedNode ck node attr stored')).get? "dp" =
      some dp := hp.dp_member
    obtain rfl : stored' = stored := by
      rw [hdp, Option.bind_some, hp.value] at hstored
      exact Option.some.inj hstored
    exact ⟨ck, db, _, value, l, node, hst, rfl⟩

theorem AcceptedSet.published (h : AcceptedSet pf path attr stored p) :
    ∃ dp, Published path attr stored p dp := by
  obtain ⟨ck, db, db', value, l, node, hst, rfl⟩ := h.stores
  exact published_publicationOf (isObject_of_contains hst.datatype) h.attr_mem

theorem AcceptedSet.carried (h : AcceptedSet pf path attr stored p)
    (hnm : KeepsFloats pf.numerics) : ∃ field,
      valueOf pf.numerics p.vssdatatype stored = .ok field ∧
        Carries p.vssdatatype stored field := by
  have hdt := h.datatype
  have hother : ∀ a ∈ ["value", "targetValue"], "datatype" ≠ "ts_ns-" ++ a ∧
      "datatype" ≠ "ts_s-" ++ a ∧ "datatype" ≠ a := by decide
  obtain ⟨hns, hs, hattr⟩ := hother attr h.attr_mem
  obtain ⟨ck, db, db', value, l, node, hst, rfl⟩ := h.stores
  obtain ⟨datatype, hd⟩ := Option.isSome_iff_exists.mp hst.datatype
  have htext : (publicationOf path attr stored (storedNode ck node attr stored)).vssdatatype =
      datatype.asString := by
    simp [publicationOf, get?_storedNode (isObject_of_contains hst.datatype), hns, hs, hattr, hd]
  rw [htext] at hdt ⊢
  exact valueOf_stored hnm hd hdt hst.sanitized

/-- The answer of the thread has the members of what is published. -/
theorem subscriptionAnswer_published {dp : Json} (hp : Published path attr stored p dp)
    {n : Notification} (hn : n.data = p.data) (ck : Clock) :
    ∃ answer data dp', subscriptionAnswer pf ck n = .ok answer ∧ answer.get? "data" = some data ∧
      data.get? "path" = some (.str path.toString) ∧ data.get? "dp" = some dp' ∧
      ∀ k, k ∉ ["ts_s", "ts_ns", "ts"] → dp'.get? k = dp.get? k := by
  have hdata : n.data.isObject = true := by
    rw [hn]
    exact isObject_of_get? hp.path_text
  obtain ⟨s, hs⟩ := hp.seconds
  obtain ⟨ns, hns⟩ := hp.nanoseconds
  obtain ⟨dp', hconv, hother⟩ := JsonResponses.convertJSONTimeStampToISO8601_int ck pf.numerics
    (isObject_of_get? hp.value) hs hns
  have hanswer : subscriptionAnswer pf ck n = .ok (ofMembers [("action", .str "subscription"),
      ("subscriptionId", .str (pf.printUuid n.subscriptionId)),
      ("data", n.data.insertOrAssign "dp" dp')]) := by
    rw [subscriptionAnswer, hn, hp.dp_member, Option.getD_some, hconv]
    rfl
  refine ⟨_, n.data.insertOrAssign "dp" dp', dp', hanswer, ?_, ?_, ?_, ?_⟩
  · rw [JsonResponses.get?_ofMembers]
    simp [Members.get?_cons]
  · rw [get?_insertOrAssign _ _ _ hdata, if_neg (by decide), hn, hp.path_text]
  · simp [get?_insertOrAssign _ _ _ hdata]
  · intro k hk
    simp only [List.mem_cons, List.not_mem_nil, or_false, not_or] at hk
    exact hother k hk.1 hk.2.1 hk.2.2

/-- The value of an accepted set is sent in its field exactly if it is a set of `value`, or of a
text that reads `null` where absent members do. -/
theorem AcceptedSet.sent_iff (h : AcceptedSet pf path attr stored p)
    (hnm : KeepsFloats pf.numerics) {n : Notification} (hn : n.data = p.data)
    (hdt : n.vssdatatype = p.vssdatatype) (ck : Clock) (yieldsNull : Bool) :
    (∃ field, (subscriptionAnswer pf ck n).bind
        (sentToStream yieldsNull pf.numerics n.vssdatatype) = .ok (path.toString, field) ∧
      Carries p.vssdatatype stored field) ↔
      attr = "value" ∨ yieldsNull = true ∧ p.vssdatatype = "string" ∧ stored.asString = "null" := by
  obtain ⟨dp, hp⟩ := h.published
  obtain ⟨answer, data, dp', (hanswer : subscriptionAnswer pf ck n = .ok answer), hdata, hpath, hdp,
    hother⟩ := subscriptionAnswer_published hp hn ck
  have hscalar := h.datatype
  rw [hanswer, hdt]
  have hattr : attr = "value" ∨ attr = "targetValue" := by simpa using h.attr_mem
  rcases hattr with rfl | rfl
  · obtain ⟨field, hf, hcarries⟩ := h.carried hnm
    have hv : dp'.get? "value" = some stored := by rw [hother _ (by decide), hp.value]
    refine iff_of_true ⟨field, ?_, hcarries⟩ (.inl rfl)
    exact sentToStream_value hdata hdp hpath hv hf yieldsNull
  · have hv : dp'.get? "value" = none := by rw [hother _ (by decide), hp.other _ (by decide)]
    have hobject : dp'.isObject = true := by
      apply isObject_of_get? (k := "targetValue") (v := stored)
      rw [hother _ (by decide), hp.value]
    have hsent := sentToStream_absent hnm hscalar hdata hdp hpath hobject hv yieldsNull
    simp only [Except.bind, hsent]
    constructor
    · rintro ⟨field, ⟨hy, hstring, he⟩, hcarries⟩
      obtain rfl := (Prod.mk.inj he).2
      exact .inr ⟨hy, hstring, hcarries.text⟩
    · rintro (hne | ⟨hy, hstring, hnull⟩)
      · exact absurd hne (by decide)
      · refine ⟨.string "null", ⟨hy, hstring, rfl⟩, ?_⟩
        rw [hstring, ← hnull]
        exact .string

end Answer

section Thread
variable {pf : Platform} {st st' : GrpcServer} {n : Notification}

/-- The entry is one of a stream that is in the map of its channel. -/
def OnStream (st : GrpcServer) (n : Notification) (stream : ℕ) : Prop :=
  n.channel.typeOfConnection = .grpc ∧
    (n.channel.grpcSubsMap.bind fun p => Members.get? n.subscriptionId (st.maps p)) = some stream

theorem forwarded_onStream {stream : ℕ} (h : OnStream st n stream) (ck : Clock)
    (connectionexist : Bool) : forwarded pf st ck connectionexist n =
      match (subscriptionAnswer pf ck n).bind (sentToStream false pf.numerics n.vssdatatype) with
      | .error e => .failed e
      | .ok value => .written stream value := by
  unfold forwarded
  cases hanswer : subscriptionAnswer pf ck n with
  | error e => rfl
  | ok answer =>
    cases hsent : grpcSendObjectToStream pf.numerics n.vssdatatype answer <;>
      simp [h.1, h.2, Except.bind, sentToStream_false, hsent]

/-- An entry is taken, and ends the thread if it fails. -/
theorem forward_eq (hrun : st.running = true) {rest : List Notification}
    (hb : st.handler.buffer = n :: rest) (ck : Clock) (connectionexist : Bool) :
    ∃ st', forward pf st ck connectionexist = some st' ∧
      (st'.running = true ↔ ∀ e, forwarded pf st ck connectionexist n ≠ .failed e) ∧
      st'.handler.buffer = rest ∧ ∃ owed, st'.outcomes =
        st.outcomes ++ [⟨n, owed, forwarded pf st ck connectionexist n⟩] := by
  refine ⟨_, by simp only [forward, hrun, hb, ↓reduceIte]; rfl, ?_, ?_, _, rfl⟩
  · cases forwarded pf st ck connectionexist n <;> simp
  · simp only
    split_ifs <;> rfl

/-- The thread writes the entry with this value in the field of its datatype, and goes on. -/
def Delivered (pf : Platform) (st : GrpcServer) (ck : Clock) (connectionexist : Bool)
    (n : Notification) (path : VSSPath) (stored : Json) (stream : ℕ) : Prop :=
  ∃ st' field owed, forward pf st ck connectionexist = some st' ∧ st'.running = true ∧
    st'.outcomes = st.outcomes ++ [⟨n, owed, .written stream (path.toString, field)⟩] ∧
      Carries n.vssdatatype stored field

theorem AcceptedSet.delivered_iff {path : VSSPath} {attr : String} {stored : Json}
    {p : Publication} (h : AcceptedSet pf path attr stored p) (hnm : KeepsFloats pf.numerics)
    (hn : n.data = p.data) (hdt : n.vssdatatype = p.vssdatatype) (hrun : st.running = true)
    {rest : List Notification} (hb : st.handler.buffer = n :: rest) {stream : ℕ}
    (hon : OnStream st n stream) (ck : Clock) (connectionexist : Bool) :
    Delivered pf st ck connectionexist n path stored stream ↔ attr = "value" := by
  have hsent := h.sent_iff hnm hn hdt ck false
  simp only [Bool.false_eq_true, false_and, or_false] at hsent
  obtain ⟨st', (hf : forward pf st ck connectionexist = some st'), hrunning, -, owed, hout⟩ :=
    forward_eq hrun hb ck connectionexist
  rw [forwarded_onStream hon] at hrunning hout
  rw [← hsent]
  constructor
  · rintro ⟨st'', field, owed', hf', -, hout', hcarries⟩
    obtain rfl : st' = st'' := Option.some.inj (hf.symm.trans hf')
    rw [hout] at hout'
    refine ⟨field, ?_, hdt ▸ hcarries⟩
    cases hr : (subscriptionAnswer pf ck n).bind
        (sentToStream false pf.numerics n.vssdatatype) with
    | error e => simp [hr] at hout'
    | ok sent =>
      obtain ⟨-, rfl⟩ : _ ∧ sent = (path.toString, field) := by simpa [hr] using hout'
      rfl
  · rintro ⟨field, hr, hcarries⟩
    rw [hr] at hrunning hout
    exact ⟨st', field, owed, hf, hrunning.mpr (by simp), hout, hdt ▸ hcarries⟩

end Thread

section Runs
variable {pf : Platform} {auth : Authenticator} {st st' : GrpcServer}

/-- The buffer and the thread are as before. -/
def SameThread (st st' : GrpcServer) : Prop :=
  st'.handler.buffer = st.handler.buffer ∧ st'.running = st.running ∧ st'.outcomes = st.outcomes

theorem sameThread_endIteration (address : ℕ) (call : SubscribeCall) :
    SameThread st (st.endIteration address call) := by
  unfold GrpcServer.endIteration
  split_ifs
  · exact ⟨rfl, rfl, rfl⟩
  · exact ⟨rfl, rfl, rfl⟩

/-- Only publications and the thread itself change the buffer and the thread. -/
theorem sameThread_next {step : GrpcStep} (hp : ∀ p, step ≠ .publish p)
    (hf : ∀ ck connectionexist, step ≠ .forward ck connectionexist)
    (hs : next pf auth st step = some st') : SameThread st st' := by
  cases next_effect hs with
  | start hs =>
    unfold GrpcServer.start at hs
    split_ifs at hs
    split at hs
    · obtain rfl := Option.some.inj hs
      exact ⟨rfl, rfl, rfl⟩
    · obtain ⟨m, -, rfl⟩ := Option.map_eq_some_iff.mp hs
      exact ⟨rfl, rfl, rfl⟩
  | register hc hpc hfresh hr =>
    obtain ⟨attr, he | ⟨-, -, he⟩⟩ := register_cases pf st _ _ _ _ _
    · rw [he]
      exact sameThread_endIteration _ _
    · rw [he]
      exact ⟨rfl, rfl, rfl⟩
  | unsubscribeRequest hc hpc =>
    rcases unsubscribeRequest_cases st _ _ _ with he | ⟨id, -, he | he⟩
    · rw [he]
      exact sameThread_endIteration _ _
    · rw [he]
      exact ⟨rfl, rfl, rfl⟩
    · rw [he]
      exact sameThread_endIteration _ _
  | insert hc hpc => exact sameThread_endIteration _ _
  | erase hc hpc => exact sameThread_endIteration _ _
  | publish => exact absurd rfl (hp _)
  | forward hb => exact absurd rfl (hf _ _)
  | _ => exact ⟨rfl, rfl, rfl⟩

/-- All publications are of accepted sets of `value`. -/
def PublishesValues (pf : Platform) (_ : GrpcServer) : GrpcStep → Prop
  | .publish p => ∃ path stored, AcceptedSet pf path "value" stored p
  | _ => True

/-- The entry of an accepted set of `value`. -/
def OfSet (pf : Platform) (n : Notification) (path : VSSPath) (stored : Json) : Prop :=
  ∃ p, AcceptedSet pf path "value" stored p ∧ n.data = p.data ∧ n.vssdatatype = p.vssdatatype

/-- What the thread did with the entry, if it was an entry of this set. -/
def Sent (n : Notification) (path : VSSPath) (stored : Json) (result : Forwarded) : Prop :=
  (∀ e, result ≠ .failed e) ∧ ∀ stream sent, result = .written stream sent →
    ∃ field, sent = (path.toString, field) ∧ Carries n.vssdatatype stored field

theorem OfSet.sent {n : Notification} {path : VSSPath} {stored : Json}
    (h : OfSet pf n path stored) (hnm : KeepsFloats pf.numerics) (ck : Clock)
    (connectionexist : Bool) : Sent n path stored (forwarded pf st ck connectionexist n) := by
  obtain ⟨p, hset, hn, hdt⟩ := h
  obtain ⟨field, hr, hcarries⟩ := (hset.sent_iff hnm hn hdt ck false).mpr (.inl rfl)
  rw [← hdt] at hcarries
  by_cases hon : ∃ stream, OnStream st n stream
  · obtain ⟨stream, hon⟩ := hon
    rw [forwarded_onStream hon, hr]
    refine ⟨by simp, ?_⟩
    rintro stream' sent he
    obtain ⟨-, rfl⟩ : _ ∧ (path.toString, field) = sent := by simpa using he
    exact ⟨field, rfl, hcarries⟩
  · unfold forwarded
    cases hanswer : subscriptionAnswer pf ck n with
    | error e => simp [hanswer, Except.bind] at hr
    | ok answer =>
      simp only
      split_ifs with hgrpc hexist
      · have hnone : (n.channel.grpcSubsMap.bind fun p =>
            Members.get? n.subscriptionId (st.maps p)) = none :=
          Option.eq_none_iff_forall_ne_some.mpr fun stream hs => hon ⟨stream, hgrpc, hs⟩
        simp [hnone, Sent]
      · simp [Sent]
      · simp [Sent]

/-- The thread runs, and what waits and what was taken are entries of accepted sets. -/
structure Flowing (pf : Platform) (st : GrpcServer) : Prop where
  running : st.running = true
  buffer : ∀ n ∈ st.handler.buffer, ∃ path stored, OfSet pf n path stored
  outcomes : ∀ o ∈ st.outcomes, ∃ path stored, OfSet pf o.notification path stored ∧
    Sent o.notification path stored o.result

theorem Flowing.next (h : Flowing pf st) (hnm : KeepsFloats pf.numerics) {step : GrpcStep}
    (hok : PublishesValues pf st step) (hs : GrpcServer.next pf auth st step = some st') :
    Flowing pf st' := by
  by_cases hp : ∃ p, step = .publish p
  · obtain ⟨p, rfl⟩ := hp
    obtain rfl := Option.some.inj hs
    obtain ⟨path, stored, hset⟩ := hok
    refine ⟨h.running, ?_, h.outcomes⟩
    intro n hn
    rcases List.mem_append.mp hn with hn | hn
    · exact h.buffer n hn
    · obtain ⟨sub, -, rfl⟩ := List.mem_map.mp hn
      exact ⟨path, stored, p, hset, rfl, rfl⟩
  by_cases hf : ∃ ck connectionexist, step = .forward ck connectionexist
  · obtain ⟨ck, connectionexist, rfl⟩ := hf
    replace hs : forward pf st ck connectionexist = some st' := hs
    cases hb : st.handler.buffer with
    | nil => simp [forward, h.running, hb] at hs
    | cons n rest =>
      have hbuffer := h.buffer
      rw [hb, List.forall_mem_cons] at hbuffer
      obtain ⟨⟨path, stored, hset⟩, hrest⟩ := hbuffer
      have hsent : Sent n path stored (forwarded pf st ck connectionexist n) :=
        hset.sent hnm ck connectionexist
      obtain ⟨st'', (hf : forward pf st ck connectionexist = some st''), hrunning, hbuf, owed,
        hout⟩ := forward_eq h.running hb ck connectionexist
      obtain rfl : st'' = st' := Option.some.inj (hf.symm.trans hs)
      refine ⟨hrunning.mpr hsent.1, by rwa [hbuf], ?_⟩
      rw [hout, List.forall_mem_append, List.forall_mem_singleton]
      exact ⟨h.outcomes, path, stored, hset, hsent⟩
  · obtain ⟨hbuffer, hrunning, hout⟩ := sameThread_next (fun p he => hp ⟨p, he⟩)
      (fun ck connectionexist he => hf ⟨ck, connectionexist, he⟩) hs
    exact ⟨hrunning.trans h.running, hbuffer ▸ h.buffer, hout ▸ h.outcomes⟩

/-- A subscription stream is sent the value of an accepted set in the field of its datatype, and
the thread goes on, exactly if `value` was set; where absent members read `null`, a text that
reads `null` is sent as well. In runs with sets of `value` only the thread never ends. -/
theorem stream_carries_iff (pf : Platform) (hnm : KeepsFloats pf.numerics) :
    (∀ path attr stored p, AcceptedSet pf path attr stored p →
      ∀ handler, ∀ n ∈ entriesFor handler p, ∀ ck,
        (∀ yieldsNull, (∃ field, (subscriptionAnswer pf ck n).bind
            (sentToStream yieldsNull pf.numerics n.vssdatatype) = .ok (path.toString, field) ∧
            Carries p.vssdatatype stored field) ↔ attr = "value" ∨
              yieldsNull = true ∧ p.vssdatatype = "string" ∧ stored.asString = "null") ∧
        ∀ st rest stream connectionexist, st.running = true → st.handler.buffer = n :: rest →
          OnStream st n stream →
            (Delivered pf st ck connectionexist n path stored stream ↔ attr = "value")) ∧
    ∀ auth st, (system pf auth).Reachable (PublishesValues pf) st → Flowing pf st := by
  constructor
  · intro path attr stored p h handler n hn ck
    obtain ⟨sub, -, rfl⟩ := List.mem_map.mp hn
    refine ⟨h.sent_iff hnm rfl rfl ck, ?_⟩
    intro st rest stream connectionexist hrun hb hon
    exact h.delivered_iff hnm rfl rfl hrun hb hon ck connectionexist
  · intro auth st hreach
    refine hreach.invariant ?_ ?_
    · rintro _ rfl
      exact ⟨rfl, by simp, by simp⟩
    · intro st step st' hi hok hs
      exact hi.next hnm hok hs

end Runs

section Position

theorem keepsFloats_decimal : KeepsFloats .decimal := by
  refine ⟨fun _ => rfl, ?_, ⟨_, rfl⟩, ⟨_, rfl⟩⟩
  intro j d hj
  rfl

def positionPlatform : Platform := .basic fun _ => .error "no requests"

/-- An actuator that can be set and told where to go. -/
def positionNode : Json := .obj [("datatype", .str "uint8"), ("type", .str "actuator")]

def positionDb : VssDatabase := ⟨.obj [("Position", positionNode)], .obj []⟩

def positionPath : VSSPath := .fromVSS "Position"

def positionPublication (attr : String) : Publication :=
  publicationOf positionPath attr (.int 5) (storedNode midnight positionNode attr (.int 5))

def positionEntry (attr : String) : Notification where
  subscriptionId := 7
  channel := { connectionID := 5, typeOfConnection := .grpc, grpcSubsMap := some 1 }
  vssdatatype := "uint8"
  data := (positionPublication attr).data

/-- A stream has subscribed to the attribute, and it was set. -/
def positionServer (attr : String) : GrpcServer where
  handler := {
    subscriptions := [(⟨"Position", attr⟩, [(7, (positionEntry attr).channel)])]
    buffer := [positionEntry attr] }
  maps _ := [(7, 3)]

theorem position_stores (attr : String) : ∃ db', Stores .selectors .decimal midnight positionDb db'
    positionPath attr (.int 5) [.key "Position"] positionNode (.int 5) :=
  ⟨_, ⟨by decide +kernel, rfl⟩, by decide, by decide +kernel, rfl⟩

theorem position_accepted {attr : String} (hattr : attr ∈ ["value", "targetValue"]) :
    AcceptedSet positionPlatform positionPath attr (.int 5) (positionPublication attr) := by
  have hall : ∀ a ∈ ["value", "targetValue"],
      ((positionPublication a).data.get? "dp").bind (get? a) = some (.int 5) ∧
        (positionPublication a).vssdatatype ∈ scalarDatatypes := by
    decide +kernel
  obtain ⟨hstored, hdt⟩ := hall attr hattr
  obtain ⟨db', hst⟩ := position_stores attr
  exact ⟨⟨midnight, positionDb, .int 5, _, db', setSignal_of_stores hst, hstored⟩, hattr, hdt⟩

theorem positionEntry_mem {attr : String} (hattr : attr ∈ ["value", "targetValue"]) :
    positionEntry attr ∈ entriesFor (positionServer attr).handler (positionPublication attr) := by
  have hall : ∀ a ∈ ["value", "targetValue"],
      positionEntry a ∈ entriesFor (positionServer a).handler (positionPublication a) := by
    decide +kernel
  exact hall attr hattr

theorem stream_value : Delivered positionPlatform (positionServer "value") midnight true
    (positionEntry "value") positionPath (.int 5) 3 :=
  (((stream_carries_iff positionPlatform keepsFloats_decimal).1 positionPath "value" (.int 5)
    (positionPublication "value") (position_accepted (by decide)) _ _
    (positionEntry_mem (by decide)) midnight).2 (positionServer "value") [] 3 true rfl rfl
    ⟨rfl, rfl⟩).mpr rfl

/-- The thread ends at the target that its stream has subscribed to. -/
theorem stream_targetValue :
    AcceptedSet positionPlatform positionPath "targetValue" (.int 5)
        (positionPublication "targetValue") ∧
      positionEntry "targetValue" ∈
        entriesFor (positionServer "targetValue").handler (positionPublication "targetValue") ∧
      OnStream (positionServer "targetValue") (positionEntry "targetValue") 3 ∧
      ∃ st', forward positionPlatform (positionServer "targetValue") midnight true = some st' ∧
        st'.running = false := by
  refine ⟨position_accepted (by decide), positionEntry_mem (by decide), ⟨rfl, rfl⟩, ?_⟩
  have hrun : (forward positionPlatform (positionServer "targetValue") midnight true).map
      running = some false := by
    decide +kernel
  exact Option.map_eq_some_iff.mp hrun

end Position

end GrpcServer
