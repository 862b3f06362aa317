import KuksaVal.GrpcSessions

/-! The calls that get and set signals, with the handlers that they reach, and the sessions that
the table holds after any calls. -/
open Json

/-- The status of a response. -/
structure GrpcStatus where
  statuscode : ℤ
  statusdescription : String
  deriving DecidableEq, Repr

/-- A value in a message; its time is in seconds and nanoseconds. -/
structure GrpcMessage where
  path : String := ""
  val : Option GrpcValue := none
  timestamp : Option (ℤ × ℤ) := none
  deriving DecidableEq, Repr

structure GetRequest where
  type : RequestType
  path : List String
  deriving DecidableEq, Repr

structure GetResponse where
  values : List GrpcMessage := []
  status : Option GrpcStatus := none
  deriving DecidableEq, Repr

structure SetRequest where
  type : RequestType
  values : List GrpcMessage
  deriving DecidableEq, Repr

structure SetResponse where
  status : Option GrpcStatus := none
  deriving DecidableEq, Repr

structure AuthResponse where
  connectionId : String := ""
  status : Option GrpcStatus := none
  deriving DecidableEq, Repr

/-- A call of a handler of the processor. -/
inductive HandlerCall where
  | processGet (channel : KuksaChannel) (request : Json)
  | processGetMetaData (request : Json)
  | processSet (channel : KuksaChannel) (request : Json)
  deriving DecidableEq

namespace RequestServiceImpl
open VssCommandProcessor

variable (pf : Platform) (db : VssDatabase)

/-- The number and the text of an answer that reports an error. -/
def errorStatus (nm : Numerics) (resJson : Json) : Except Exn GrpcStatus :=
  match resJson.member "error" with
  | .error e => .error e
  | .ok error =>
      match (error.member "number").bind (asInteger nm ⟨32, false⟩), error.member "reason",
        error.member "message" with
      | .ok code, .ok reason, .ok message => .ok ⟨code, reason.asString ++ " " ++ message.asString⟩
      | .error e, _, _ => .error e
      | _, .error e, _ => .error e
      | _, _, .error e => .error e

/-- `catch (std::exception &)`: the failure is noted and the loop goes on. -/
def caught {α : Type*} (e : Exn) (a : α) : Except Exn (α × Bool) :=
  if e.kind = .undefinedBehaviour then .error e else .ok (a, true)

section Get

/-- One number of the timestamp of an answer. -/
def timeOf (nm : Numerics) (t : IntType) (resJson : Json) (member : String) : Except Exn ℤ :=
  (GrpcHandler.dataPoint resJson member).bind (asInteger nm t)

/-- The message as far as it is filled, and the exception that ended it. -/
def fillMessage (nm : Numerics) (datatype attr : String) (resJson : Json) :
    GrpcMessage × Except Exn Unit :=
  match (GrpcHandler.dataPoint resJson attr).bind (GrpcHandler.valueOf nm datatype) with
  | .error e => ({}, .error e)
  | .ok value =>
      match (resJson.member "data").bind fun data => data.member "path" with
      | .error e => ({ val := some value }, .error e)
      | .ok path =>
          let message : GrpcMessage := { path := path.asString, val := some value }
          match timeOf nm ⟨64, false⟩ resJson "ts_s" with
          | .error e => ({ message with timestamp := some (0, 0) }, .error e)
          | .ok seconds =>
              let seconds := IntType.wrap ⟨64, true⟩ seconds
              match timeOf nm ⟨32, false⟩ resJson "ts_ns" with
              | .error e => ({ message with timestamp := some (seconds, 0) }, .error e)
              | .ok nanos => ({ message with
                  timestamp := some (seconds, IntType.wrap ⟨32, true⟩ nanos) }, .ok ())

/-- The reply after the answer for one path, and whether the path failed. -/
def getPath (type : RequestType) (answer : Except Exn Json) (path : String)
    (reply : GetResponse) : Except Exn (GetResponse × Bool) :=
  match answer with
  | .error e => caught e reply
  | .ok resJson =>
      if resJson.contains "error" then
        match errorStatus pf.numerics resJson with
        | .error e => caught e reply
        | .ok status => .ok ({ reply with status := some status }, true)
      else if type = .metadata then
        match resJson.member "metadata" with
        | .error e => caught e { reply with values := reply.values ++ [{}] }
        | .ok metadata => .ok ({ reply with
            values := reply.values ++ [{ val := some (.string metadata.asString) }] }, false)
      else
        match db.getDatatypeForPath pf.jsonPath (.fromVSS path) with
        | .error e => if e.kind = .undefinedBehaviour then .error e else fill "" resJson
        | .ok datatype => fill datatype resJson
where
  fill (datatype : String) (resJson : Json) : Except Exn (GetResponse × Bool) :=
    match fillMessage pf.numerics datatype (type.attribute.getD "value") resJson with
    | (message, .error e) => caught e { reply with values := reply.values ++ [message] }
    | (message, .ok ()) => .ok ({ reply with values := reply.values ++ [message] }, false)

/-- The request object of a path. -/
def getJson (type : RequestType) (uuid : SubscriptionId) (path : String) : Json :=
  ofMembers ([("action", .str (if type = .metadata then "getMetaData" else "get"))] ++
    ((type.attribute.map fun attr => [("attribute", Json.str attr)]).getD []) ++
    [("requestId", .str (pf.printUuid uuid)), ("path", .str path)])

/-- The loop over the paths, each with the clock and the number drawn for it. -/
def getPaths (draws : ℕ → Clock × SubscriptionId) (type : RequestType)
    (handler : Clock → Json → HandlerCall × Except Exn Json) : List (String × ℕ) →
      GetResponse → Bool → Except Exn (GetResponse × Bool) × List HandlerCall
  | [], reply, singleFailure => (.ok (reply, singleFailure), [])
  | (path, i) :: paths, reply, singleFailure =>
      let (call, answer) := handler (draws i).1 (getJson pf type (draws i).2 path)
      match getPath pf db type answer path reply with
      | .error e => (.error e, [call])
      | .ok (reply, failed) =>
          match getPaths draws type handler paths reply (singleFailure || failed) with
          | (r, calls) => (r, call :: calls)

def singleRequests : String := "One or more paths could not be resolved. Try individual requests."

/-- The get after the session is known. -/
def getAll (draws : ℕ → Clock × SubscriptionId) (request : GetRequest)
    (handler : Clock → Json → HandlerCall × Except Exn Json) :
    Except Exn GetResponse × List HandlerCall :=
  if request.path = [] then (.ok { status := some ⟨400, "No valid path found."⟩ }, [])
  else
    match getPaths pf db draws request.type handler request.path.zipIdx {} false with
    | (.error e, calls) => (.error e, calls)
    | (.ok (reply, singleFailure), calls) =>
        if singleFailure && 1 < request.path.length then
          (.ok { reply with status := some ⟨400, singleRequests⟩ }, calls)
        else if singleFailure then (.ok reply, calls)
        else (.ok { reply with status := some ⟨200, "Get request successfully processed"⟩ }, calls)

/-- Metadata is for everybody. -/
def get (svc : RequestServiceImpl) (draws : ℕ → Clock × SubscriptionId) (context : ServerContext)
    (request : GetRequest) : (Except Exn GetResponse × List HandlerCall) × RequestServiceImpl :=
  match authChecker pf svc context with
  | (kc, svc) =>
      if request.type = .metadata then
        (getAll pf db draws request fun ck reqJson =>
          (.processGetMetaData reqJson, processGetMetaData pf ck db reqJson), svc)
      else match kc with
        | none => ((.ok { status := some ⟨404, "No Authorization."⟩ }, []), svc)
        | some kc =>
            (getAll pf db draws request fun ck reqJson =>
              (.processGet kc reqJson, processGet pf ck db kc reqJson), svc)

end Get

section Set

theorem numeral_zero : ("0".toList.head?.any fun c => c.isDigit || c = '-') = true := by decide

/-- The value of a message, by the accessor that belongs to a data type: the default of the
accessor where another one was set. -/
def settingOf (datatype : String) (val : Option GrpcValue) : Json :=
  if datatype ∈ ["uint8", "uint16", "uint32"] then
    .int (match val with | some (.uint32 n) => n | _ => 0)
  else if datatype ∈ ["int8", "int16", "int32"] then
    .int (match val with | some (.int32 n) => n | _ => 0)
  else if datatype = "uint64" then .int (match val with | some (.uint64 n) => n | _ => 0)
  else if datatype = "int64" then .int (match val with | some (.int64 n) => n | _ => 0)
  else if datatype = "float" then
    .double (match val with | some (.float d) => d | _ => .finite ⟨"0", numeral_zero⟩)
  else if datatype = "double" then
    .double (match val with | some (.double d) => d | _ => .finite ⟨"0", numeral_zero⟩)
  else if datatype = "boolean" then .bool (match val with | some (.bool b) => b | _ => false)
  else .str (match val with | some (.string s) => s | _ => "")

/-- The request object of a value. -/
def setJson (attr : String) (uuid : SubscriptionId) (path : String) (value : Json) : Json :=
  ofMembers [("action", .str "set"), ("attribute", .str attr),
    ("requestId", .str (pf.printUuid uuid)), ("path", .str path), (attr, value)]

/-- The status after the answer for one value, and whether the value failed. -/
def setStatus (answer : Except Exn Json) (status : Option GrpcStatus) :
    Except Exn (Option GrpcStatus × Bool) :=
  match answer with
  | .error e => caught e status
  | .ok resJson =>
      if resJson.contains "error" then
        match errorStatus pf.numerics resJson with
        | .error e => caught e status
        | .ok status => .ok (some status, true)
      else .ok (some ⟨200, "Set request successfully processed"⟩, false)

/-- What is left of a call that sets: the trees, what was published and the handlers called. -/
structure SetEffect where
  db : VssDatabase
  pubs : List Publication := []
  calls : List HandlerCall := []

/-- The loop over the values, each with the clock and the number drawn for it. -/
def setValues (draws : ℕ → Clock × SubscriptionId) (attr : String) (kc : KuksaChannel) :
    List (GrpcMessage × ℕ) → SetEffect → Option GrpcStatus → Bool →
      Except Exn (Option GrpcStatus × Bool) × SetEffect
  | [], eff, status, singleFailure => (.ok (status, singleFailure), eff)
  | (val, i) :: vals, eff, status, singleFailure =>
      match eff.db.getDatatypeForPath pf.jsonPath (.fromVSS val.path) with
      | .error e =>
          if e.kind = .undefinedBehaviour then (.error e, eff)
          else setValues draws attr kc vals eff status true
      | .ok datatype =>
          let reqJson := setJson pf attr (draws i).2 val.path (settingOf datatype val.val)
          let (answer, db, pubs) := processSet pf (draws i).1 eff.db kc reqJson
          let eff := ⟨db, eff.pubs ++ pubs, eff.calls ++ [.processSet kc reqJson]⟩
          match setStatus pf answer status with
          | .error e => (.error e, eff)
          | .ok (status, failed) =>
              setValues draws attr kc vals eff status (singleFailure || failed)

/-- Setting metadata is not supported: nothing is done. -/
def set (svc : RequestServiceImpl) (draws : ℕ → Clock × SubscriptionId) (context : ServerContext)
    (request : SetRequest) : (Except Exn SetResponse × SetEffect) × RequestServiceImpl :=
  match authChecker pf svc context with
  | (none, svc) => ((.ok { status := some ⟨404, "No Authorization!."⟩ }, { db := db }), svc)
  | (some kc, svc) =>
      if request.type = .metadata then ((.ok {}, { db := db }), svc)
      else
        let attr := request.type.attribute.getD "value"
        match setValues pf draws attr kc request.values.zipIdx { db := db } none false with
        | (.error e, eff) => ((.error e, eff), svc)
        | (.ok (status, singleFailure), eff) =>
            if singleFailure && 1 < request.values.length then
              ((.ok { status := some ⟨400, singleRequests⟩ }, eff), svc)
            else if singleFailure then ((.ok { status := status }, eff), svc)
            else ((.ok { status := some ⟨200, "Set request successfully processed."⟩ }, eff), svc)

end Set

section Authorize

/-- The response to an authorization; what is thrown here is not caught. -/
def authResponse (nm : Numerics) (resJson : Json) : Except Exn AuthResponse :=
  if resJson.contains "error" then
    (errorStatus nm resJson).map fun status => { status := some status }
  else (resJson.member "requestId").map fun requestId =>
    { connectionId := requestId.asString, status := some ⟨200, "Authorization Successful."⟩ }

def authorize (ck : Clock) (auth : Authenticator) (svc : RequestServiceImpl)
    (uuid : SubscriptionId) (peer token : String) :
    Except Exn AuthResponse × RequestServiceImpl :=
  match authorizeHelper pf ck auth svc uuid peer token with
  | (.error e, svc) => (.error e, svc)
  | (.ok resJson, svc) => (authResponse pf.numerics resJson, svc)

end Authorize

end RequestServiceImpl

/-- The service and the trees, with the sessions whose authorization was answered with success. -/
structure GrpcService where
  svc : RequestServiceImpl := {}
  db : VssDatabase
  authorized : List GrpcSession := []

/-- A call of the service, with the clocks and the numbers that are drawn for it. Other clients of
the server change the trees. -/
inductive GrpcCall where
  | authorize (ck : Clock) (uuid : SubscriptionId) (peer token : String)
  | get (draws : ℕ → Clock × SubscriptionId) (context : ServerContext) (request : GetRequest)
  | set (draws : ℕ → Clock × SubscriptionId) (context : ServerContext) (request : SetRequest)
  | subscribe (context : ServerContext)
  | database (db : VssDatabase)

namespace GrpcService
open RequestServiceImpl VssCommandProcessor

/-- The response grants a session. -/
def Granted (response : Except Exn AuthResponse) : Prop :=
  (response.toOption.bind AuthResponse.status).map GrpcStatus.statuscode = some 200

instance (response : Except Exn AuthResponse) : Decidable (Granted response) :=
  inferInstanceAs (Decidable (_ = _))

variable (pf : Platform) (auth : Authenticator) (st : GrpcService)

def next : GrpcCall → GrpcService
  | .authorize ck uuid peer token =>
      let (response, svc) := RequestServiceImpl.authorize pf ck auth st.svc uuid peer token
      { st with
        svc := svc
        authorized := if Granted response then ⟨peer, uuid⟩ :: st.authorized else st.authorized }
  | .get draws context request =>
      { st with svc := (RequestServiceImpl.get pf st.db st.svc draws context request).2 }
  | .set draws context request =>
      let (result, svc) := RequestServiceImpl.set pf st.db st.svc draws context request
      { st with svc := svc, db := result.2.db }
  | .subscribe context =>
      { st with svc := (getKuksaChannelForSubscriptionContext pf st.svc context).2 }
  | .database db => { st with db := db }

/-- All runs of the service from its start, with any trees. -/
def system : TransitionSystem GrpcService GrpcCall where
  init st := st.svc = {} ∧ st.authorized = []
  step st call st' := next pf auth st call = st'

/-- The session of a context is authorized. -/
def Authorized (context : ServerContext) : Prop :=
  ∃ session ∈ st.authorized, sessionOf pf context = some session

/-- The sessions of the table are those that were authorized. -/
def SessionsAuthorized : Prop :=
  ∀ session, (st.svc.grpcSessionMap session).isSome ↔ session ∈ st.authorized

/-- Without an authorized session nothing is read or set, and no handler is reached. -/
def RefusesOthers : GrpcCall → Prop
  | .get draws context request => ¬ Authorized pf st context → request.type ≠ .metadata →
      (RequestServiceImpl.get pf st.db st.svc draws context request).1 =
        (.ok { status := some ⟨404, "No Authorization."⟩ }, [])
  | .set draws context request => ¬ Authorized pf st context →
      (RequestServiceImpl.set pf st.db st.svc draws context request).1 =
        (.ok { status := some ⟨404, "No Authorization!."⟩ }, { db := st.db })
  | _ => True

/-- The table is asked for no session that it does not have. -/
def AsksKnown : GrpcCall → Prop
  | .get _ context _ | .set _ context _ =>
      ∀ session, sessionOf pf context = some session → (st.svc.grpcSessionMap session).isSome
  | .subscribe context => st.svc.grpcSubscribeSessionMap context.address = none →
      ∀ session, sessionOf pf context = some session → (st.svc.grpcSessionMap session).isSome
  | _ => True

section Tables

variable {pf : Platform} {auth : Authenticator} {st : GrpcService} {svc : RequestServiceImpl}
  {context : ServerContext}

/-- Asking for a session enters it. -/
theorem authChecker_isSome_iff (session : GrpcSession) :
    ((authChecker pf svc context).2.grpcSessionMap session).isSome ↔
      (svc.grpcSessionMap session).isSome ∨ sessionOf pf context = some session := by
  rcases authChecker_cases pf svc context with ⟨hs, he⟩ | ⟨asked, kc, hs, hm, he⟩ |
    ⟨asked, hs, hm, he⟩
  · simp [hs, he]
  · simp only [hs, he, Option.some.injEq]
    refine ⟨Or.inl, ?_⟩
    rintro (h | rfl)
    · exact h
    · simp [hm]
  · simp only [hs, he, Option.some.injEq, Function.update_apply]
    by_cases hsame : session = asked
    · simp [hsame]
    · simp [hsame, Ne.symm hsame]

theorem authChecker_none_iff :
    (authChecker pf svc context).1 = none ↔ sessionOf pf context = none := by
  rcases authChecker_cases pf svc context with ⟨hs, he⟩ | ⟨_, _, hs, -, he⟩ | ⟨_, hs, -, he⟩
  · simp [hs, he]
  · simp [hs, he]
  · simp [hs, he]

theorem get_svc (db : VssDatabase) (draws : ℕ → Clock × SubscriptionId) (request : GetRequest) :
    (RequestServiceImpl.get pf db svc draws context request).2 =
      (authChecker pf svc context).2 := by
  unfold RequestServiceImpl.get
  rcases authChecker pf svc context with ⟨_ | kc, svc'⟩
  · simp only
    split_ifs <;> rfl
  · simp only
    split_ifs <;> rfl

theorem set_svc (db : VssDatabase) (draws : ℕ → Clock × SubscriptionId) (request : SetRequest) :
    (RequestServiceImpl.set pf db svc draws context request).2 =
      (authChecker pf svc context).2 := by
  unfold RequestServiceImpl.set
  rcases authChecker pf svc context with ⟨_ | kc, svc'⟩
  · rfl
  · simp only
    split_ifs
    · rfl
    · rcases setValues pf draws (request.type.attribute.getD "value") kc request.values.zipIdx
        { db := db } none false with ⟨_ | ⟨status, failed⟩, eff⟩
      · rfl
      · simp only
        split_ifs <;> rfl

/-- A stream asks for its session where no channel is kept at its address. -/
theorem getKuksaChannel_isSome_iff (session : GrpcSession) :
    ((getKuksaChannelForSubscriptionContext pf svc context).2.grpcSessionMap session).isSome ↔
      (svc.grpcSessionMap session).isSome ∨
        svc.grpcSubscribeSessionMap context.address = none ∧
          sessionOf pf context = some session := by
  rcases getKuksaChannel_cases pf svc context with ⟨kc, hk, he⟩ | ⟨hno, -, he⟩ | ⟨kc, hno, -, he⟩
  · simp [hk, he]
  · simp [hno, he, authChecker_isSome_iff]
  · simp [hno, he, authChecker_isSome_iff]

/-- The status of an answer that reports an error has its number. -/
theorem errorStatus_errorAnswer (nm : Numerics) (ck : Clock) (action : Option String)
    (requestId number reason message : String) :
    errorStatus nm (JsonResponses.errorAnswer ck action requestId number reason message) =
      (asInteger nm ⟨32, false⟩ (.str number)).map fun code =>
        ⟨code, reason ++ " " ++ message⟩ := by
  have herror : (JsonResponses.errorAnswer ck action requestId number reason message).member
      "error" = .ok (JsonResponses.errorObject number reason message) := by
    rw [member_eq_ok, JsonResponses.errorAnswer, JsonResponses.get?_ofMembers]
    cases action <;> simp [Members.get?_cons]
  have hmember (k v : String) (hk : Members.get? k [("message", Json.str message),
      ("reason", .str reason), ("number", .str number)] = some (.str v)) :
      (JsonResponses.errorObject number reason message).member k = .ok (.str v) := by
    rw [member_eq_ok, JsonResponses.errorObject, JsonResponses.get?_ofMembers]
    exact hk
  have hnumber := hmember "number" number (by simp [Members.get?_cons])
  have hreason := hmember "reason" reason (by simp [Members.get?_cons])
  have hmessage := hmember "message" message (by simp [Members.get?_cons])
  simp only [errorStatus, herror, hnumber, hreason, hmessage, Except.bind]
  cases asInteger nm ⟨32, false⟩ (.str number) <;> rfl

theorem asInteger_401 (nm : Numerics) : asInteger nm ⟨32, false⟩ (.str "401") = .ok 401 := by
  have h : nm.numeral "401" = some 401 := nm.numeral_toString 401
  simp [asInteger, h, IntType.lower, IntType.upper]

/-- An authorization throws, is refused with the number 401, or is granted. -/
theorem authResponse_cases (pf : Platform) (ck : Clock) (auth : Authenticator)
    (channel : KuksaChannel) (requestId token : String) :
    (∃ e, (processAuthorize pf ck auth channel requestId token).1 = .error e) ∨
    (∃ resJson, (processAuthorize pf ck auth channel requestId token).1 = .ok resJson ∧
      resJson.contains "error" = true ∧ ¬ Granted (authResponse pf.numerics resJson)) ∨
    ∃ resJson, (processAuthorize pf ck auth channel requestId token).1 = .ok resJson ∧
      resJson.contains "error" = false ∧ Granted (authResponse pf.numerics resJson) := by
  unfold processAuthorize
  rcases auth.validate pf.jwt pf.numerics channel token with ⟨e | ttl, channel'⟩
  · exact .inl ⟨e, rfl⟩
  · simp only
    split_ifs
    · refine .inr (.inl ⟨_, rfl, JsonResponses.errorAnswer_contains_error .., ?_⟩)
      simp [authResponse, JsonResponses.errorAnswer_contains_error, errorStatus_errorAnswer,
        asInteger_401, Granted, Except.map, Except.toOption]
    · have hget (k : String) : (ofMembers [("action", .str "authorize"),
          ("requestId", .str requestId), ("TTL", .int ttl), ("ts", .str ck.timeStamp)]).get? k =
          Members.get? k [("ts", .str ck.timeStamp), ("TTL", .int ttl),
            ("requestId", .str requestId), ("action", .str "authorize")] :=
        JsonResponses.get?_ofMembers k _
      have hid := member_eq_ok.mpr ((hget "requestId").trans (by simp [Members.get?_cons]; rfl))
      refine .inr (.inr ⟨_, rfl, ?_, ?_⟩)
      · simp [contains, hget, Members.get?_cons]
      · simp [authResponse, contains, hget, Members.get?_cons, hid, Granted, Except.map,
          Except.toOption]

/-- A session is entered exactly where its authorization is granted. -/
theorem authorize_isSome_iff (pf : Platform) (ck : Clock) (auth : Authenticator)
    (svc : RequestServiceImpl) (uuid : SubscriptionId) (peer token : String)
    (session : GrpcSession) :
    ((RequestServiceImpl.authorize pf ck auth svc uuid peer token).2.grpcSessionMap session).isSome ↔
      (svc.grpcSessionMap session).isSome ∨
        Granted (RequestServiceImpl.authorize pf ck auth svc uuid peer token).1 ∧
          session = ⟨peer, uuid⟩ := by
  have hcases := authResponse_cases pf ck auth
    { connectionID := 0, typeOfConnection := .grpc, grpcSubsMap := some svc.nextMap }
    (pf.printUuid uuid) token
  rcases hp : processAuthorize pf ck auth
    { connectionID := 0, typeOfConnection := .grpc, grpcSubsMap := some svc.nextMap }
    (pf.printUuid uuid) token with ⟨r, kc⟩
  rw [hp] at hcases
  rcases hcases with ⟨e, rfl⟩ | ⟨resJson, rfl, herr, hg⟩ | ⟨resJson, rfl, herr, hg⟩
  · simp [RequestServiceImpl.authorize, authorizeHelper, hp, Granted, Except.toOption]
  · simp [RequestServiceImpl.authorize, authorizeHelper, hp, herr, hg]
  · by_cases hs : session = ⟨peer, uuid⟩
    · simp [RequestServiceImpl.authorize, authorizeHelper, hp, herr, hg, hs]
    · simp [RequestServiceImpl.authorize, authorizeHelper, hp, herr, hs]

end Tables

section Runs

variable {pf : Platform} {auth : Authenticator} {st : GrpcService}

/-- A call keeps the table to the authorized sessions exactly where it asks for no other. -/
theorem SessionsAuthorized.next_iff (h : st.SessionsAuthorized) (call : GrpcCall) :
    (next pf auth st call).SessionsAuthorized ↔ AsksKnown pf st call := by
  have hasked (asked : Option GrpcSession) :
      (∀ session, (st.svc.grpcSessionMap session).isSome ∨ asked = some session ↔
        session ∈ st.authorized) ↔
      ∀ session, asked = some session → (st.svc.grpcSessionMap session).isSome := by
    refine forall_congr' fun session => ?_
    rw [← h session, or_iff_left_iff_imp]
  cases call with
  | authorize ck uuid peer token =>
    refine iff_of_true ?_ trivial
    intro session
    simp only [next, authorize_isSome_iff, h session]
    split_ifs with hg
    · simp [hg, or_comm]
    · simp [hg]
  | get draws context request =>
    simp only [SessionsAuthorized, next, get_svc, authChecker_isSome_iff, hasked, AsksKnown]
  | set draws context request =>
    simp only [SessionsAuthorized, next, set_svc, authChecker_isSome_iff, hasked, AsksKnown]
  | subscribe context =>
    by_cases hno : st.svc.grpcSubscribeSessionMap context.address = none
    · simp only [SessionsAuthorized, next, getKuksaChannel_isSome_iff, hno, true_and, hasked,
        AsksKnown, forall_const]
    · refine iff_of_true ?_ fun h => absurd h hno
      intro session
      simp only [next, getKuksaChannel_isSome_iff, hno, false_and, or_false, h session]
  | database db => exact iff_of_true h trivial

/-- Where only known sessions are asked for, the others are refused. -/
theorem SessionsAuthorized.refusesOthers (h : st.SessionsAuthorized) {call : GrpcCall}
    (hok : AsksKnown pf st call) : RefusesOthers pf st call := by
  have hnone (context : ServerContext) (hno : ¬ Authorized pf st context)
      (hok : ∀ session, sessionOf pf context = some session →
        (st.svc.grpcSessionMap session).isSome) :
      (authChecker pf st.svc context).1 = none := by
    rw [authChecker_none_iff]
    cases hs : sessionOf pf context with
    | none => rfl
    | some session => exact absurd ⟨session, (h session).mp (hok session hs), hs⟩ hno
  cases call with
  | get draws context request =>
    intro hno htype
    have hkc := hnone context hno hok
    unfold RequestServiceImpl.get
    rcases ha : authChecker pf st.svc context with ⟨_ | kc, svc⟩
    · simp [htype]
    · simp [ha] at hkc
  | set draws context request =>
    intro hno
    have hkc := hnone context hno hok
    unfold RequestServiceImpl.set
    rcases ha : authChecker pf st.svc context with ⟨_ | kc, svc⟩
    · rfl
    · simp [ha] at hkc
  | authorize | subscribe | database => trivial

theorem sessionsAuthorized_of_reachable (h : (system pf auth).Reachable (AsksKnown pf) st) :
    st.SessionsAuthorized := by
  refine h.invariant ?_ ?_
  · rintro st ⟨hsvc, hauth⟩ session
    simp [hsvc, hauth]
  · rintro st call _ hi hok rfl
    exact (hi.next_iff call).mpr hok

/-- In every run the channels of the service are its own. -/
theorem sound_of_reachable {good : GrpcService → GrpcCall → Prop}
    (h : (system pf auth).Reachable good st) : st.svc.Sound := by
  have hinv : ∀ st, (system pf auth).init st → st.svc.Sound := by
    rintro st ⟨hsvc, -⟩
    rw [hsvc]
    exact .start
  apply h.invariant hinv
  rintro st call _ hi - rfl
  cases call with
  | authorize ck uuid peer token =>
    have he : (RequestServiceImpl.authorize pf ck auth st.svc uuid peer token).2 =
        (authorizeHelper pf ck auth st.svc uuid peer token).2 := by
      unfold RequestServiceImpl.authorize
      rcases authorizeHelper pf ck auth st.svc uuid peer token with ⟨_ | _, _⟩ <;> rfl
    simp only [next, he]
    exact hi.authorizeHelper uuid peer token
  | get draws context request =>
    simp only [next, get_svc]
    exact (hi.authChecker pf context).1
  | set draws context request =>
    simp only [next, set_svc]
    exact (hi.authChecker pf context).1
  | subscribe context => exact hi.getKuksaChannel pf context
  | database db => exact hi

/-- As long as no call asks for a session that is not in the table, the table has the authorized
sessions and all others are refused; the first call that does ask for one enters it. -/
theorem sessions_guarded (pf : Platform) (auth : Authenticator) (st : GrpcService)
    (h : (system pf auth).Reachable (AsksKnown pf) st) :
    st.SessionsAuthorized ∧ ∀ call,
      ((next pf auth st call).SessionsAuthorized ↔ AsksKnown pf st call) ∧
        (AsksKnown pf st call → RefusesOthers pf st call) := by
  have hst := sessionsAuthorized_of_reachable h
  exact ⟨hst, fun call => ⟨hst.next_iff call, fun hok => hst.refusesOthers hok⟩⟩

section Bogus

/-- A get by a client that was never authorized, with a number that it made up. -/
def bogusGet : GrpcCall :=
  .get (fun _ => (midnight, 3)) ⟨5, "reader:1", some "1"⟩ ⟨.currentValue, ["Vehicle.OBD.Speed"]⟩

def speedService : GrpcService := { db := ⟨speedTree, speedTree⟩ }

theorem sessions_guarded_reader :
    (next StreamSessions.tokenPlatform ⟨"key"⟩ speedService
      (.authorize midnight 1 "reader:1" "reader")).SessionsAuthorized := by
  have h := sessions_guarded StreamSessions.tokenPlatform ⟨"key"⟩ speedService
    (.init ⟨rfl, rfl⟩)
  exact (h.2 _).1.mpr trivial

/-- A session that nobody authorized is entered. -/
theorem bogus_session : ¬ ∀ (pf : Platform) (auth : Authenticator) (st : GrpcService),
    (system pf auth).Reachable TransitionSystem.Any st →
      st.SessionsAuthorized ∧ ∀ call, RefusesOthers pf st call := by
  intro h
  have hrun : (system StreamSessions.tokenPlatform ⟨"key"⟩).Reachable TransitionSystem.Any
      (next StreamSessions.tokenPlatform ⟨"key"⟩ speedService bogusGet) :=
    .step (.init ⟨rfl, rfl⟩) trivial rfl
  have hentered := ((h _ _ _ hrun).1 ⟨"reader:1", 1⟩).mp (by decide +kernel)
  exact absurd hentered (by decide +kernel)

end Bogus

end Runs

end GrpcService
