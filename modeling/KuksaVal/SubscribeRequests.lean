import KuksaVal.Authorization
import KuksaVal.GrpcCalls
import KuksaVal.GrpcStreams

/-! The requests of one subscription stream, which are all built in the same request object: what
one request leaves in it is there for the next. -/
open Json

/-- What the loop of `subscribe` keeps from one request to the next. -/
structure SubscribeLoop where
  reqJson : Json := .obj []
  currentSubs : List (SubscriptionKey × String) := []
  subsMap : List (SubscriptionId × ℕ) := []
  deriving DecidableEq

/-- A request as it is read, with the state that the server has then and the numbers drawn for
the request and for its subscription. -/
structure Arrival where
  request : SubscribeRequest
  clock : Clock
  server : Server
  uuid : SubscriptionId
  subId : SubscriptionId

/-- One turn of the loop: what it was left before and after, the subscriptions of the server
afterwards and the responses written. -/
structure Turn where
  before : SubscribeLoop
  arrival : Arrival
  after : SubscribeLoop
  handler : SubscriptionHandler
  responses : List GrpcStatus

namespace SubscribeLoop
open VssCommandProcessor RequestServiceImpl

variable (pf : Platform) (kc : KuksaChannel) (stream : ℕ)

/-- The request object of a subscription. Without a name for the type its attribute stays. -/
def subscribeJson (reqJson : Json) (uuid : SubscriptionId) (request : SubscribeRequest) : Json :=
  let reqJson := ((reqJson.insertOrAssign "requestId" (.str (pf.printUuid uuid))).insertOrAssign
    "action" (.str "subscribe")).insertOrAssign "path" (.str request.path)
  match request.type.attribute with
  | some attr => reqJson.insertOrAssign "attribute" (.str attr)
  | none => reqJson

def unsubscribeJson (reqJson : Json) (uuid : SubscriptionId) : Json :=
  (reqJson.insertOrAssign "requestId" (.str (pf.printUuid uuid))).insertOrAssign
    "action" (.str "unsubscribe")

/-- The key of a request in `currentSubs`. -/
def keyOf (request : SubscribeRequest) : SubscriptionKey :=
  ⟨request.path, request.type.attribute.getD "value"⟩

def subscribed : GrpcStatus := ⟨200, "Subscribe request successfully processed"⟩

def unsubscribed : GrpcStatus := ⟨200, "Unsubscribe request successfully processed"⟩

def notSubscribed : GrpcStatus :=
  ⟨400, "Subscribe request error. No valid subscription existed"⟩

/-- A starting request; what is thrown here is only noted. -/
def subscribeRequest (a : Arrival) (loop : SubscribeLoop) : Except Exn Turn :=
  let after := { loop with reqJson := subscribeJson pf loop.reqJson a.uuid a.request }
  let turn := fun after handler responses => Turn.mk loop a after handler responses
  match processSubscribe pf a.clock a.server a.subId kc after.reqJson with
  | (.error e, handler) => (caught e (turn after handler [])).map Prod.fst
  | (.ok respJson, handler) =>
      if respJson.contains "error" then
        match errorStatus pf.numerics respJson with
        | .error e => (caught e (turn after handler [])).map Prod.fst
        | .ok status => .ok (turn after handler [status])
      else
        match respJson.member "subscriptionId" with
        | .error e => (caught e (turn after handler [subscribed])).map Prod.fst
        | .ok id =>
            let after := { after with
              currentSubs := Members.assign (keyOf a.request) id.asString after.currentSubs }
            match pf.parseUuid id.asString with
            | .error _ => .ok (turn after handler [subscribed])
            | .ok subId => .ok (turn
                { after with subsMap := Members.assign subId stream after.subsMap }
                handler [subscribed])

/-- A request to give up a subscription; what is thrown here ends the call. -/
def unsubscribeRequest (a : Arrival) (loop : SubscribeLoop) : Except Exn Turn :=
  let after := { loop with reqJson := unsubscribeJson pf loop.reqJson a.uuid }
  let turn := fun after handler responses => Turn.mk loop a after handler responses
  match Members.get? (keyOf a.request) loop.currentSubs with
  | none => .ok (turn after a.server.subHandler [notSubscribed])
  | some id =>
      let after := { after with
        reqJson := after.reqJson.insertOrAssign "subscriptionId" (.str id) }
      match processUnsubscribe pf a.clock a.server after.reqJson with
      | (.error e, _) => .error e
      | (.ok respJson, handler) =>
          if respJson.contains "error" then
            (errorStatus pf.numerics respJson).map fun status => turn after handler [status]
          else
            match pf.parseUuid id with
            | .error msg => .error ⟨.runtimeError, msg⟩
            | .ok subId => .ok (turn
                { after with
                  currentSubs := Members.erase (keyOf a.request) after.currentSubs
                  subsMap := Members.erase subId after.subsMap }
                handler [unsubscribed])

def turn (a : Arrival) (loop : SubscribeLoop) : Except Exn Turn :=
  if a.request.start then subscribeRequest pf kc stream a loop else unsubscribeRequest pf a loop

/-- The turns for the requests of a stream. The loop is left when no subscription is in the map,
and where something is thrown. -/
def subscribe : SubscribeLoop → List Arrival → List Turn
  | _, [] => []
  | loop, a :: as =>
      match turn pf kc stream a loop with
      | .error _ => []
      | .ok t => t :: if t.after.subsMap = [] then [] else subscribe t.after as

/-- The attribute of a request type, `value` unless it is for the target. -/
def ownAttribute (type : RequestType) : String :=
  if type = .targetValue then "targetValue" else "value"

/-- A starting request is refused, or it is entered and recorded under its own attribute. -/
def StandsAlone (t : Turn) : Prop :=
  t.arrival.request.start = true →
    (t.handler = t.arrival.server.subHandler ∧ t.after.currentSubs = t.before.currentSubs) ∨
    (t.handler = t.arrival.server.subHandler.enter
        ⟨(VSSPath.fromVSS t.arrival.request.path).getVSSPath, ownAttribute t.arrival.request.type⟩
        t.arrival.subId kc ∧
      t.after.currentSubs = Members.assign
        ⟨t.arrival.request.path, ownAttribute t.arrival.request.type⟩
        (pf.printUuid t.arrival.subId) t.before.currentSubs)

instance (t : Turn) : Decidable (StandsAlone pf kc t) :=
  inferInstanceAs (Decidable (_ → (_ ∧ _) ∨ _ ∧ _))

/-- The attribute that is left after a request. -/
def leaves (left : Option String) (request : SubscribeRequest) : Option String :=
  if request.start then request.type.attribute.orElse fun _ => left else left

/-- The attribute that is left by the requests before the `k`-th. -/
def leftBefore (as : List Arrival) (k : ℕ) : Option String :=
  (as.take k).foldl (fun left a => leaves left a.request) none

/-- A starting request with a type that names no attribute does not come, with a path that can be
subscribed to, where the target value is left. -/
def Unaffected (left : Option String) (a : Arrival) : Prop :=
  a.request.start = true → a.request.type.attribute = none → left = some "targetValue" →
    ∀ p, SubscriptionHandler.checkSubscribe pf.jsonPath pf.regex a.server.database kc
      a.request.path ≠ .ok p

section Requests
open VSSRequestValidator SubscriptionHandler

/-- A request object with this attribute left in it, if any. -/
structure Leftover (left : Option String) (reqJson : Json) : Prop where
  object : reqJson.isObject = true
  attr : reqJson.get? "attribute" = left.map Json.str
  named : ∀ attr, left = some attr → attr = "value" ∨ attr = "targetValue"
  filters : reqJson.get? "filters" = none

variable {pf kc stream} {left : Option String} {reqJson : Json}

theorem leftover_empty : Leftover none (.obj []) :=
  ⟨rfl, rfl, by simp, rfl⟩

theorem Leftover.insert (h : Leftover left reqJson) {k : String} (v : Json)
    (hk : k ≠ "attribute") (hf : k ≠ "filters") :
    Leftover left (reqJson.insertOrAssign k v) := by
  refine ⟨by simp [h.object], ?_, h.named, ?_⟩
  · rw [get?_insertOrAssign k _ v h.object, if_neg (Ne.symm hk), h.attr]
  · rw [get?_insertOrAssign k _ v h.object, if_neg (Ne.symm hf), h.filters]

theorem attribute_cases {type : RequestType} {attr : String}
    (h : type.attribute = some attr) : attr = "value" ∨ attr = "targetValue" := by
  cases type <;> simp_all [RequestType.attribute]

variable (pf) in
theorem Leftover.subscribeJson (h : Leftover left reqJson) (uuid : SubscriptionId)
    (request : SubscribeRequest) :
    Leftover (request.type.attribute.orElse fun _ => left)
      (subscribeJson pf reqJson uuid request) := by
  have hbase := ((h.insert (.str (pf.printUuid uuid)) (k := "requestId") (by decide)
    (by decide)).insert (.str "subscribe") (k := "action") (by decide) (by decide)).insert
    (.str request.path) (k := "path") (by decide) (by decide)
  unfold SubscribeLoop.subscribeJson
  cases ha : request.type.attribute with
  | none => exact hbase
  | some attr =>
    refine ⟨by simp [h.object], ?_, ?_, ?_⟩
    · rw [get?_insertOrAssign "attribute" _ (.str attr) hbase.object]
      rfl
    · rintro _ ⟨rfl⟩
      exact attribute_cases ha
    · rw [get?_insertOrAssign "attribute" _ (.str attr) hbase.object, if_neg (by decide)]
      exact hbase.filters

variable (pf) in
/-- The members that a subscription request is given. -/
theorem subscribeJson_get? (h : reqJson.isObject = true) (uuid : SubscriptionId)
    (request : SubscribeRequest) :
    (subscribeJson pf reqJson uuid request).get? "action" = some (.str "subscribe") ∧
      (subscribeJson pf reqJson uuid request).get? "path" = some (.str request.path) ∧
      (subscribeJson pf reqJson uuid request).get? "requestId" =
        some (.str (pf.printUuid uuid)) := by
  unfold subscribeJson
  cases request.type.attribute with
  | none => simp [h]
  | some attr => simp [h]

theorem valid_attributeSchema (nm : Numerics) {attr : String}
    (h : attr = "value" ∨ attr = "targetValue") : valid nm attributeSchema (.str attr) = true := by
  rcases h with rfl | rfl
  · simp [attributeSchema, valid, isObject]
  · simp [attributeSchema, valid, isObject]

/-- The schema refuses no request of a stream. -/
theorem valid_subscribeJson (nm : Numerics) (h : Leftover left reqJson) (uuid : SubscriptionId)
    (request : SubscribeRequest) :
    valid nm schemaSubscribe (subscribeJson pf reqJson uuid request) = true := by
  obtain ⟨ha, hp, hr⟩ := subscribeJson_get? pf h.object uuid request
  have hl := h.subscribeJson pf uuid request
  have hstr (s : String) : (Json.str s).isObject = false := rfl
  simp only [schemaSubscribe, valid, validProperties, hl.object, hl.filters, hl.attr, contains, ha,
    hp, hr, hasType, action, path, requestId, hstr]
  cases hleft : request.type.attribute.orElse fun _ => left with
  | none => simp [ha, hp, hr, hl.object]
  | some attr => simp [ha, hp, hr, hl.object, valid_attributeSchema nm (hl.named attr hleft)]

section Processor
variable {ck : Clock} {sv : Server} {subId uuid : SubscriptionId} {request : SubscribeRequest}

/-- The answer to an accepted subscription. -/
def subscribeAnswer (pf : Platform) (ck : Clock) (uuid subId : SubscriptionId) : Json :=
  ofMembers [("action", .str "subscribe"), ("requestId", .str (pf.printUuid uuid)),
    ("subscriptionId", .str (pf.printUuid subId)), ("ts", .str ck.timeStamp)]

theorem processSubscribe_refused (h : Leftover left reqJson) {e : Exn}
    (hc : checkSubscribe pf.jsonPath pf.regex sv.database kc request.path = .error e) :
    processSubscribe pf ck sv subId kc (subscribeJson pf reqJson uuid request) =
      (subscribeFailure ck (pf.printUuid uuid) request.path e, sv.subHandler) := by
  obtain ⟨-, hp, hr⟩ := subscribeJson_get? pf h.object uuid request
  have hvalid : validateRequest pf schemaSubscribe (subscribeJson pf reqJson uuid request) =
      .ok () := (validate_eq_ok_iff _).mpr (valid_subscribeJson pf.numerics h uuid request)
  simp [processSubscribe, hvalid, text, member_eq_ok.mpr hp, member_eq_ok.mpr hr, Except.map,
    asString, SubscriptionHandler.subscribe, hc]

/-- The attribute that is left in the request object is the one that is subscribed to. -/
theorem processSubscribe_accepted (h : Leftover left reqJson) {p : VSSPath}
    (hc : checkSubscribe pf.jsonPath pf.regex sv.database kc request.path = .ok p) :
    processSubscribe pf ck sv subId kc (subscribeJson pf reqJson uuid request) =
      (.ok (subscribeAnswer pf ck uuid subId), sv.subHandler.enter
        ⟨p.getVSSPath, (request.type.attribute.orElse fun _ => left).getD "value"⟩ subId kc) := by
  obtain ⟨-, hp, hr⟩ := subscribeJson_get? pf h.object uuid request
  have hvalid : validateRequest pf schemaSubscribe (subscribeJson pf reqJson uuid request) =
      .ok () := (validate_eq_ok_iff _).mpr (valid_subscribeJson pf.numerics h uuid request)
  have hattr : attributeOf (subscribeJson pf reqJson uuid request) =
      (request.type.attribute.orElse fun _ => left).getD "value" := by
    rw [attributeOf, (h.subscribeJson pf uuid request).attr]
    cases request.type.attribute.orElse fun _ => left <;> rfl
  simp [processSubscribe, hvalid, text, member_eq_ok.mpr hp, member_eq_ok.mpr hr, Except.map,
    asString, SubscriptionHandler.subscribe, hc, hattr, subscribeAnswer]

theorem subscribeFailure_contains_error {ck : Clock} {requestId path : String} {e : Exn}
    {answer : Json} (h : subscribeFailure ck requestId path e = .ok answer) :
    answer.contains "error" = true := by
  unfold subscribeFailure at h
  split at h
  · exact Except.ok.inj h ▸ JsonResponses.errorAnswer_contains_error ..
  · exact Except.ok.inj h ▸ JsonResponses.errorAnswer_contains_error ..
  · exact Except.ok.inj h ▸ JsonResponses.errorAnswer_contains_error ..
  · unfold answerUnhandled at h
    split_ifs at h
    exact Except.ok.inj h ▸ JsonResponses.errorAnswer_contains_error ..

end Processor

end Requests

section Turns
open SubscriptionHandler

variable {pf kc stream} {left : Option String} {loop : SubscribeLoop} {a : Arrival} {t : Turn}

theorem ownAttribute_eq (type : RequestType) :
    ownAttribute type = type.attribute.getD "value" := by
  cases type <;> rfl

/-- A starting request that the handler refuses changes nothing. -/
theorem subscribeRequest_refused (h : Leftover left loop.reqJson) {e : Exn}
    (hc : checkSubscribe pf.jsonPath pf.regex a.server.database kc a.request.path = .error e)
    (ht : subscribeRequest pf kc stream a loop = .ok t) :
    t.before = loop ∧ t.arrival = a ∧
      t.after.reqJson = subscribeJson pf loop.reqJson a.uuid a.request ∧
      t.handler = a.server.subHandler ∧ t.after.currentSubs = loop.currentSubs := by
  have hlogged {e : Exn} {u : Turn} (hu : (caught e u).map Prod.fst = .ok t) : t = u := by
    unfold caught at hu
    split_ifs at hu
    · cases hu
    · exact (Except.ok.inj hu).symm
  simp only [subscribeRequest, processSubscribe_refused h hc] at ht
  cases hf : subscribeFailure a.clock (pf.printUuid a.uuid) a.request.path e with
  | error e =>
    rw [hf] at ht
    obtain rfl := hlogged ht
    exact ⟨rfl, rfl, rfl, rfl, rfl⟩
  | ok answer =>
    simp only [hf, subscribeFailure_contains_error hf, if_pos] at ht
    split at ht
    · obtain rfl := hlogged ht
      exact ⟨rfl, rfl, rfl, rfl, rfl⟩
    · obtain rfl := Except.ok.inj ht
      exact ⟨rfl, rfl, rfl, rfl, rfl⟩

/-- A starting request that is accepted is entered under what is left in the request object, and
is recorded under what it asks for. -/
theorem subscribeRequest_accepted (h : Leftover left loop.reqJson) {p : VSSPath}
    (hc : checkSubscribe pf.jsonPath pf.regex a.server.database kc a.request.path = .ok p)
    (ht : subscribeRequest pf kc stream a loop = .ok t) :
    t.before = loop ∧ t.arrival = a ∧
      t.after.reqJson = subscribeJson pf loop.reqJson a.uuid a.request ∧
      t.handler = a.server.subHandler.enter
        ⟨p.getVSSPath, (a.request.type.attribute.orElse fun _ => left).getD "value"⟩ a.subId kc ∧
      t.after.currentSubs =
        Members.assign (keyOf a.request) (pf.printUuid a.subId) loop.currentSubs := by
  have hnone : (subscribeAnswer pf a.clock a.uuid a.subId).contains "error" = false := by
    simp [subscribeAnswer, contains, JsonResponses.get?_ofMembers, Members.get?_cons]
  have hid : (subscribeAnswer pf a.clock a.uuid a.subId).member "subscriptionId" =
      .ok (.str (pf.printUuid a.subId)) := by
    rw [member_eq_ok, subscribeAnswer, JsonResponses.get?_ofMembers]
    simp [Members.get?_cons]
  simp only [subscribeRequest, processSubscribe_accepted h hc, hnone, hid, Bool.false_eq_true,
    if_false] at ht
  split at ht
  · obtain rfl := Except.ok.inj ht
    exact ⟨rfl, rfl, rfl, rfl, rfl⟩
  · obtain rfl := Except.ok.inj ht
    exact ⟨rfl, rfl, rfl, rfl, rfl⟩

/-- A request to give up a subscription leaves the attribute in the request object. -/
theorem unsubscribeRequest_leftover (h : Leftover left loop.reqJson)
    (ht : unsubscribeRequest pf a loop = .ok t) :
    t.before = loop ∧ t.arrival = a ∧ Leftover left t.after.reqJson := by
  have hbase : Leftover left (unsubscribeJson pf loop.reqJson a.uuid) :=
    (h.insert _ (by decide) (by decide)).insert _ (by decide) (by decide)
  simp only [unsubscribeRequest] at ht
  split at ht
  · obtain rfl := Except.ok.inj ht
    exact ⟨rfl, rfl, hbase⟩
  · next id hid =>
    have hkept := hbase.insert (.str id) (k := "subscriptionId") (by decide) (by decide)
    split at ht
    · cases ht
    · next respJson handler _ =>
      split_ifs at ht
      · cases hs : errorStatus pf.numerics respJson with
        | error e => simp [hs, Except.map] at ht
        | ok status =>
          rw [hs] at ht
          obtain rfl := Except.ok.inj ht
          exact ⟨rfl, rfl, hkept⟩
      · split at ht
        · cases ht
        · obtain rfl := Except.ok.inj ht
          exact ⟨rfl, rfl, hkept⟩

/-- The attribute that a request leaves is in the request object afterwards. -/
theorem turn_leftover (h : Leftover left loop.reqJson) (ht : turn pf kc stream a loop = .ok t) :
    t.before = loop ∧ t.arrival = a ∧ Leftover (leaves left a.request) t.after.reqJson := by
  unfold turn at ht
  split_ifs at ht with hstart
  · have hleaves : leaves left a.request = a.request.type.attribute.orElse fun _ => left := by
      rw [leaves, if_pos hstart]
    rw [hleaves]
    cases hc : checkSubscribe pf.jsonPath pf.regex a.server.database kc a.request.path with
    | error e =>
      obtain ⟨hb, ha, hreq, -, -⟩ := subscribeRequest_refused h hc ht
      exact ⟨hb, ha, hreq ▸ h.subscribeJson pf a.uuid a.request⟩
    | ok p =>
      obtain ⟨hb, ha, hreq, -, -⟩ := subscribeRequest_accepted h hc ht
      exact ⟨hb, ha, hreq ▸ h.subscribeJson pf a.uuid a.request⟩
  · have hleaves : leaves left a.request = left := by
      rw [leaves, if_neg hstart]
    rw [hleaves]
    exact unsubscribeRequest_leftover h ht

/-- Under what is left a request finds its own attribute, unless it names none and the target
value is left. -/
theorem left_eq_own_iff (h : Leftover left loop.reqJson) (type : RequestType) :
    (type.attribute.orElse fun _ => left).getD "value" = ownAttribute type ↔
      (type.attribute = none → left ≠ some "targetValue") := by
  rw [ownAttribute_eq]
  cases hattr : type.attribute with
  | some attr => simp
  | none =>
    cases hleft : left with
    | none => simp
    | some attr =>
      rcases h.named attr hleft with rfl | rfl
      · simp
      · simp

theorem standsAlone_of_unaffected (h : Leftover left loop.reqJson)
    (ht : turn pf kc stream a loop = .ok t) (hu : Unaffected pf kc left a) :
    StandsAlone pf kc t := by
  obtain ⟨rfl, rfl, -⟩ := turn_leftover h ht
  intro hstart
  rw [turn, if_pos hstart] at ht
  cases hc : checkSubscribe pf.jsonPath pf.regex t.arrival.server.database kc
      t.arrival.request.path with
  | error e =>
    obtain ⟨-, -, -, hhandler, hsubs⟩ := subscribeRequest_refused h hc ht
    exact Or.inl ⟨hhandler, hsubs⟩
  | ok p =>
    obtain ⟨-, -, -, hhandler, hsubs⟩ := subscribeRequest_accepted h hc ht
    obtain ⟨rfl, -, -⟩ := checkSubscribe_eq_ok_iff.mp hc
    have hown := (left_eq_own_iff h t.arrival.request.type).mpr fun hattr hleft =>
      hu hstart hattr hleft _ hc
    right
    rw [hhandler, hsubs, hown, keyOf, ownAttribute_eq]
    exact ⟨rfl, rfl⟩

/-- A subscription with a new number is entered under one key only. -/
theorem enter_inj {handler : SubscriptionHandler} {key key' : SubscriptionKey}
    {subId : SubscriptionId} (hfresh : Members.get? subId (handler.subscriptionsFor key) = none)
    (h : handler.enter key subId kc = handler.enter key' subId kc) : key = key' := by
  by_contra hne
  have hfor := congrArg (fun g => Members.get? subId (g.subscriptionsFor key)) h
  simp only [subscriptionsFor_enter, if_true, if_neg hne, Members.get?_assign, hfresh] at hfor
  cases hfor

theorem enter_ne {handler : SubscriptionHandler} {key : SubscriptionKey}
    {subId : SubscriptionId} (hfresh : Members.get? subId (handler.subscriptionsFor key) = none) :
    handler.enter key subId kc ≠ handler := by
  intro h
  have hfor := congrArg (fun g => Members.get? subId (g.subscriptionsFor key)) h
  simp only [subscriptionsFor_enter, if_true, Members.get?_assign, hfresh] at hfor
  cases hfor

/-- With a new number for the subscription this is the only way to stand alone. -/
theorem unaffected_of_standsAlone (h : Leftover left loop.reqJson)
    (ht : turn pf kc stream a loop = .ok t)
    (hfresh : ∀ key, Members.get? a.subId (a.server.subHandler.subscriptionsFor key) = none)
    (hs : StandsAlone pf kc t) : Unaffected pf kc left a := by
  obtain ⟨rfl, rfl, -⟩ := turn_leftover h ht
  intro hstart hattr hleft p hc
  rw [turn, if_pos hstart] at ht
  obtain ⟨-, -, -, hhandler, -⟩ := subscribeRequest_accepted h hc ht
  rcases hs hstart with ⟨hsame, -⟩ | ⟨hown, -⟩
  · exact enter_ne (hfresh _) (hhandler.symm.trans hsame)
  · have hkey := enter_inj (hfresh _) (hhandler.symm.trans hown)
    exact (left_eq_own_iff h t.arrival.request.type).mp (congrArg SubscriptionKey.attr hkey)
      hattr hleft

/-- The turn for the `k`-th request begins with what the requests before it left. -/
theorem subscribe_leftover {as : List Arrival} {k : ℕ} (h : Leftover left loop.reqJson)
    (ht : (subscribe pf kc stream loop as)[k]? = some t) :
    ∃ a before, as[k]? = some a ∧ turn pf kc stream a before = .ok t ∧
      Leftover ((as.take k).foldl (fun left a => leaves left a.request) left) before.reqJson := by
  induction as generalizing loop left k with
  | nil => simp [subscribe] at ht
  | cons a as ih =>
    rw [subscribe] at ht
    cases hturn : turn pf kc stream a loop with
    | error e => simp [hturn] at ht
    | ok u =>
      simp only [hturn] at ht
      cases k with
      | zero =>
        obtain rfl := Option.some.inj ht
        exact ⟨a, loop, rfl, hturn, h⟩
      | succ k =>
        rw [List.getElem?_cons_succ] at ht
        split_ifs at ht
        · simp at ht
        · obtain ⟨-, -, hl⟩ := turn_leftover h hturn
          exact ih hl ht

/-- The step of a stream keeps the attribute in place of the request object: it does to the
subscriptions what the turn does. -/
theorem register_handler {st : GrpcServer} {address : ℕ} {call : SubscribeCall}
    (h : Leftover call.attr loop.reqJson) (hst : a.server.subHandler = st.handler)
    (ht : subscribeRequest pf call.kc call.stream a loop = .ok t) :
    (st.register pf address a.server.database a.subId a.request call).handler = t.handler ∧
      ∃ call', (st.register pf address a.server.database a.subId a.request call).calls address =
        some call' ∧ Leftover call'.attr t.after.reqJson := by
  have hl := h.subscribeJson pf a.uuid a.request
  have hend (call' : SubscribeCall) : (st.endIteration address call').handler = st.handler ∧
      ∃ call'', (st.endIteration address call').calls address = some call'' ∧
        call''.attr = call'.attr := by
    unfold GrpcServer.endIteration
    split_ifs
    · exact ⟨rfl, _, Function.update_self .., rfl⟩
    · exact ⟨rfl, _, Function.update_self .., rfl⟩
  cases hc : checkSubscribe pf.jsonPath pf.regex a.server.database call.kc a.request.path with
  | error e =>
    obtain ⟨-, -, hreq, hhandler, -⟩ := subscribeRequest_refused h hc ht
    obtain ⟨hsame, call', hcall, hattr⟩ := hend { call with
      attr := a.request.type.attribute.orElse fun _ => call.attr }
    simp only [GrpcServer.register, SubscriptionHandler.subscribe, hc]
    rw [hhandler, hst, hreq]
    exact ⟨hsame, call', hcall, hattr ▸ hl⟩
  | ok p =>
    obtain ⟨-, -, hreq, hhandler, -⟩ := subscribeRequest_accepted h hc ht
    simp only [GrpcServer.register, SubscriptionHandler.subscribe, hc]
    rw [hhandler, hst, hreq]
    exact ⟨rfl, _, Function.update_self .., hl⟩

end Turns

/-- In a stream whose requests are all unaffected each starting request stands alone. A request
that is affected does not, where the number of its subscription is new. -/
theorem subscribe_standAlone (pf : Platform) (kc : KuksaChannel) (stream : ℕ)
    (subsMap : List (SubscriptionId × ℕ)) (as : List Arrival) (k : ℕ) (a : Arrival) (t : Turn)
    (ha : as[k]? = some a)
    (ht : (subscribe pf kc stream { subsMap := subsMap } as)[k]? = some t) :
    (Unaffected pf kc (leftBefore as k) a → StandsAlone pf kc t) ∧
      ((∀ key, Members.get? a.subId (a.server.subHandler.subscriptionsFor key) = none) →
        StandsAlone pf kc t → Unaffected pf kc (leftBefore as k) a) := by
  obtain ⟨a', before, ha', hturn, hl⟩ := subscribe_leftover leftover_empty ht
  obtain rfl : a = a' := Option.some.inj (ha.symm.trans ha')
  constructor
  · intro hu
    exact standsAlone_of_unaffected hl hturn hu
  · intro hfresh hs
    exact unaffected_of_standsAlone hl hturn hfresh hs

section Speed
open VssCommandProcessor

/-- A stream subscribes to the speed with types of requests. -/
def speedArrivals (types : List RequestType) : List Arrival :=
  types.zipIdx.map fun type =>
    { request := ⟨"Vehicle/OBD/Speed", type.1, true⟩
      clock := midnight
      server := ⟨⟨speedTree, speedTree⟩, {}, ⟨"key"⟩⟩
      uuid := 100 + type.2
      subId := type.2 }

def speedTurns (types : List RequestType) : List Turn :=
  subscribe speedPlatform speedReader 3 {} (speedArrivals types)

/-- After a request for the target, one for the current value is for the current value. -/
theorem subscribe_standAlone_speed :
    ∃ t, (speedTurns [.targetValue, .currentValue])[1]? = some t ∧
      StandsAlone speedPlatform speedReader t := by
  obtain ⟨t, ht⟩ : ∃ t, (speedTurns [.targetValue, .currentValue])[1]? = some t :=
    Option.isSome_iff_exists.mp (by decide +kernel)
  refine ⟨t, ht, (subscribe_standAlone speedPlatform speedReader 3 []
    (speedArrivals [.targetValue, .currentValue]) 1 _ t rfl ht).1 ?_⟩
  intro _ hnone
  cases hnone

/-- After a request for the target, one without a name is for the target as well, and is recorded
as one for the current value. -/
theorem not_subscribe_standAlone :
    ¬ ∀ (pf : Platform) (kc : KuksaChannel) (stream : ℕ) (subsMap : List (SubscriptionId × ℕ))
      (as : List Arrival), ∀ t ∈ subscribe pf kc stream { subsMap := subsMap } as,
        StandsAlone pf kc t := by
  intro h
  have hall := h speedPlatform speedReader 3 [] (speedArrivals [.targetValue, .unknownType])
  have hsome : ∃ t ∈ speedTurns [.targetValue, .unknownType],
      ¬ StandsAlone speedPlatform speedReader t := by
    decide +kernel
  obtain ⟨t, ht, hs⟩ := hsome
  exact hs (hall t ht)

end Speed

end SubscribeLoop
