import KuksaVal.SubscriptionHandler
import KuksaVal.VSSRequestValidator
import KuksaVal.Authenticator

/-! The requests of a client: eight handlers and the dispatch on the action. -/

/-- The libraries that the server is built on. -/
structure Platform where
  jsonPath : JsonPath
  regex : StdRegex
  numerics : Numerics
  jwt : Jwt
  parse : String → Except String Json
  prettyPrint : Json → String
  schemaReport : Schema → Json → String
  parseUuid : String → Except String SubscriptionId
  printUuid : SubscriptionId → String

/-- The libraries as far as the runs on fixed requests below need them. -/
def Platform.basic (parse : String → Except String Json) : Platform where
  jsonPath := .selectors
  regex := .dotted
  numerics := .decimal
  jwt := { decode := fun _ => .error "invalid token supplied"
           verify := fun _ _ => .error "invalid token supplied" }
  parse := parse
  prettyPrint := Json.dump
  schemaReport _ _ := "schema violation"
  parseUuid s := match Numerics.readNumeral s with
    | some n => .ok n.toNat
    | none => .error "invalid uuid string"
  printUuid := toString

/-- What the handlers of a request work on. -/
structure Server where
  database : VssDatabase
  subHandler : SubscriptionHandler
  tokenValidator : Authenticator

namespace VssCommandProcessor
open Json JsonResponses VSSRequestValidator

variable (pf : Platform) (ck : Clock)

def trim (s : String) : String :=
  String.ofList ((s.toList.dropWhile Char.isWhitespace).reverse.dropWhile Char.isWhitespace).reverse

/-- `as<std::string>` of a member. -/
def text (request : Json) (k : String) : Except Exn String := (request.member k).map asString

def validateRequest (schema : Schema) (request : Json) : Except Exn Unit :=
  validate pf.numerics pf.schemaReport schema request

/-- The answer to a request that its schema refuses. -/
def refuseRequest (action unhandledAction : String) (request : Json) (e : Exn) :
    Except Exn Json :=
  if e.kind = .undefinedBehaviour then .error e
  else (tryExtractRequestId request).map fun requestId =>
    if e.kind = .schemaError then
      malFormedRequest ck requestId action ("Schema error: " ++ trim e.what)
    else malFormedRequest ck requestId unhandledAction ("Unhandled error: " ++ e.what)

/-- The member `attribute`, or `value` where it is absent. -/
def attributeOf (request : Json) : String :=
  ((request.get? "attribute").map asString).getD "value"

/-- `catch (std::exception &)` as the last handler. -/
def answerUnhandled (requestId action : String) (e : Exn) : Except Exn Json :=
  if e.kind = .undefinedBehaviour then .error e
  else .ok (malFormedRequest ck requestId action ("Unhandled error: " ++ e.what))

section Set

/-- The checks before anything is set; an answer here ends the request. -/
def setRefusal (db : VssDatabase) (channel : KuksaChannel) (path : VSSPath)
    (attr requestId : String) : Except Exn (Option Json) :=
  match db.pathExists pf.jsonPath path with
  | .error e => .error e
  | .ok false => .ok (some (pathNotFound ck requestId "set" path.toString))
  | .ok true =>
      match AccessChecker.checkWriteAccess pf.regex channel path with
      | .error e => .error e
      | .ok false => .ok (some (noAccess ck requestId "set" ("No write access to " ++ path.toString)))
      | .ok true =>
          match db.pathIsWritable pf.jsonPath path with
          | .error e => .error e
          | .ok false => .ok (some (noAccess ck requestId "set"
              ("Can not set " ++ path.toString ++ ". Only sensor or actor leaves can be set.")))
          | .ok true =>
              match db.pathIsAttributable pf.jsonPath path attr with
              | .error e => .error e
              | .ok false => .ok (some (noAccess ck requestId "set"
                  ("Can not set path:" ++ path.toString ++ " with attribute:" ++ attr ++ ".")))
              | .ok true => .ok none

/-- The answer to an exception of the store. A generic one is answered by a text. -/
def setFailure (path : VSSPath) (requestId : String) (e : Exn) : Except Exn Json :=
  match e.kind with
  | .genException => .ok (.str (pf.prettyPrint (ofMembers
      [("action", .str "set"), ("requestId", .str requestId),
        ("error", errorObject "401" "Unknown error" e.what), ("ts", .str ck.timeStamp)])))
  | .noPathFoundonTree => .ok (pathNotFound ck requestId "set" path.toString)
  | .outOfBoundException => .ok (valueOutOfBounds ck requestId "set" e.what)
  | .noPermissionException => .ok (noAccess ck requestId "set" e.what)
  | _ => answerUnhandled ck requestId "set" e

/-- The success answer of a set. -/
def setAnswer (requestId : String) : Json :=
  ofMembers [("action", .str "set"), ("requestId", .str requestId), ("ts", .str ck.timeStamp)]

def performSet (db : VssDatabase) (channel : KuksaChannel) (path : VSSPath)
    (attr requestId : String) (value : Json) :
    Except Exn Json × VssDatabase × List Publication :=
  match setRefusal pf ck db channel path attr requestId with
  | .error e => (.error e, db, [])
  | .ok (some answer) => (.ok answer, db, [])
  | .ok none =>
      match db.setSignal pf.jsonPath pf.numerics ck path attr value with
      | (.error e, db, pubs) => (setFailure pf ck path requestId e, db, pubs)
      | (.ok _, db, pubs) => (.ok (setAnswer ck requestId), db, pubs)

def processSet (db : VssDatabase) (channel : KuksaChannel) (request : Json) :
    Except Exn Json × VssDatabase × List Publication :=
  match validateRequest pf schemaSet request with
  | .error e => (refuseRequest ck "set" "set" request e, db, [])
  | .ok () =>
      match text request "path", text request "requestId", request.member (attributeOf request) with
      | .ok path, .ok requestId, .ok value =>
          performSet pf ck db channel (.fromVSS path) (attributeOf request) requestId value
      | .error e, _, _ => (.error e, db, [])
      | _, .error e, _ => (.error e, db, [])
      | _, _, .error e => (.error e, db, [])

end Set

section Get

/-- The loop over the leaves: the datapoints in order, or the answer that refuses them. -/
def collectDatapoints (db : VssDatabase) (channel : KuksaChannel) (path : VSSPath)
    (pathStr attr requestId : String) : List VSSPath → Except Exn (Json ⊕ List Json)
  | [] => .ok (.inr [])
  | vssPath :: vssPaths =>
      match AccessChecker.checkReadAccess pf.regex channel vssPath with
      | .error e => .error e
      | .ok false => .ok (.inl (noAccess ck requestId "get"
          ("Insufficient read access to " ++ pathStr)))
      | .ok true =>
          match db.pathIsAttributable pf.jsonPath path attr with
          | .error e => .error e
          | .ok false => .ok (.inl (noAccess ck requestId "set"
              ("Can not get " ++ path.toString ++ " with attribute " ++ attr ++ ".")))
          | .ok true =>
              match db.getSignal pf.jsonPath pf.numerics ck vssPath attr
                (channel.typeOfConnection ≠ .grpc) with
              | .error e => .error e
              | .ok dp =>
                  match collectDatapoints db channel path pathStr attr requestId vssPaths with
                  | .ok (.inr dps) => .ok (.inr (dp :: dps))
                  | other => other

/-- The data of the answer: one datapoint by itself, several as an array. -/
def dataOf : List Json → Json
  | [dp] => dp
  | dps => .arr dps

def getAnswer (requestId : String) (data : Json) : Json :=
  ofMembers [("data", data), ("action", .str "get"), ("requestId", .str requestId),
    ("ts", .str ck.timeStamp)]

def performGet (db : VssDatabase) (channel : KuksaChannel) (path : VSSPath)
    (pathStr attr requestId : String) : Except Exn Json :=
  match db.getLeafPaths pf.jsonPath path with
  | .error e => .error e
  | .ok vssPaths =>
      match collectDatapoints pf ck db channel path pathStr attr requestId vssPaths with
      | .error e => .error e
      | .ok (.inl answer) => .ok answer
      | .ok (.inr dps) =>
          if vssPaths = [] then .ok (pathNotFound ck requestId "get" pathStr)
          else .ok (getAnswer ck requestId (dataOf dps))

def getFailure (requestId : String) (e : Exn) : Except Exn Json :=
  if e.kind = .notSetException then .ok (notSetResponse ck requestId e.what)
  else answerUnhandled ck requestId "get" e

def processGet (db : VssDatabase) (channel : KuksaChannel) (request : Json) : Except Exn Json :=
  match text request "path" with
  | .error e => .error e
  | .ok pathStr =>
      match validateRequest pf schemaGet request with
      | .error e => refuseRequest ck "get" "get" request e
      | .ok () =>
          match text request "requestId" with
          | .error e => .error e
          | .ok requestId =>
              match performGet pf ck db channel (.fromVSS pathStr) pathStr (attributeOf request)
                requestId with
              | .error e => getFailure ck requestId e
              | .ok answer => .ok answer

end Get

section Subscriptions

def subscribeFailure (requestId path : String) (e : Exn) : Except Exn Json :=
  match e.kind with
  | .noPathFoundonTree => .ok (pathNotFound ck requestId "subscribe" path)
  | .noPermissionException => .ok (noAccess ck requestId "subscribe" e.what)
  | .genException => .ok (valueOutOfBounds ck requestId "subscribe" e.what)
  | _ => answerUnhandled ck requestId "get" e

def processSubscribe (sv : Server) (subId : SubscriptionId) (channel : KuksaChannel)
    (request : Json) : Except Exn Json × SubscriptionHandler :=
  match validateRequest pf schemaSubscribe request with
  | .error e => (refuseRequest ck "subscribe" "get" request e, sv.subHandler)
  | .ok () =>
      match text request "path", text request "requestId" with
      | .ok path, .ok requestId =>
          match sv.subHandler.subscribe pf.jsonPath pf.regex sv.database subId channel path
            (attributeOf request) with
          | (.error e, handler) => (subscribeFailure ck requestId path e, handler)
          | (.ok subId, handler) => (.ok (ofMembers [("action", .str "subscribe"),
              ("requestId", .str requestId), ("subscriptionId", .str (pf.printUuid subId)),
              ("ts", .str ck.timeStamp)]), handler)
      | .error e, _ => (.error e, sv.subHandler)
      | _, .error e => (.error e, sv.subHandler)

def processUnsubscribe (sv : Server) (request : Json) : Except Exn Json × SubscriptionHandler :=
  match validateRequest pf schemaUnsubscribe request with
  | .error e => (refuseRequest ck "unsubscribe" "unsubscribe" request e, sv.subHandler)
  | .ok () =>
      match text request "requestId", text request "subscriptionId" with
      | .ok requestId, .ok subscriptionId =>
          match pf.parseUuid subscriptionId with
          | .error e => ((tryExtractRequestId request).map fun id =>
              malFormedRequest ck id "unsubscribe" ("Subscription ID is not a UUID: " ++ e),
              sv.subHandler)
          | .ok subscribeID =>
              match sv.subHandler.unsubscribe subscribeID with
              | (res, handler) =>
                  if res = 0 then (.ok (ofMembers [("action", .str "unsubscribe"),
                    ("requestId", .str requestId),
                    ("subscriptionId", .str (pf.printUuid subscribeID)),
                    ("ts", .str ck.timeStamp)]), handler)
                  else (.ok (errorAnswer ck (some "unsubscribe") requestId "400" "Unknown error"
                    "Error while unsubscribing"), handler)
      | .error e, _ => (.error e, sv.subHandler)
      | _, .error e => (.error e, sv.subHandler)

end Subscriptions

section Metadata

/-- The answer of an update, before its outcome is known. -/
def updateAnswer (action requestId : String) : List (String × Json) :=
  [("action", .str action), ("requestId", .str requestId), ("ts", .str ck.timeStamp)]

def updateFailure (action requestId : String) (e : Exn) : Except Exn Json :=
  match e.kind with
  | .genException => .ok (ofMembers (updateAnswer ck action requestId ++
      [("error", errorObject "401" "Unknown error" e.what)]))
  | .noPermissionException => .ok (noAccess ck requestId action e.what)
  | _ => answerUnhandled ck requestId "get" e

def processUpdateVSSTree (db : VssDatabase) (channel : KuksaChannel) (request : Json) :
    Except Exn Json × VssDatabase :=
  match validateRequest pf schemaUpdateVSSTree request with
  | .error e => (refuseRequest ck "updateVSSTree" "updateVSSTree" request e, db)
  | .ok () =>
      match text request "requestId", request.member "metadata" with
      | .ok requestId, .ok metadata =>
          match db.updateJsonTree channel metadata with
          | (.error e, db) => (updateFailure ck "updateVSSTree" requestId e, db)
          | (.ok (), db) => (.ok (ofMembers (updateAnswer ck "updateVSSTree" requestId)), db)
      | .error e, _ => (.error e, db)
      | _, .error e => (.error e, db)

def processUpdateMetaData (db : VssDatabase) (channel : KuksaChannel) (request : Json) :
    Except Exn Json × VssDatabase :=
  match text request "path" with
  | .error e => (.error e, db)
  | .ok path =>
      match validateRequest pf schemaUpdateMetadata request with
      | .error e => (refuseRequest ck "updateMetaData" "updateMetaData" request e, db)
      | .ok () =>
          match text request "requestId", request.member "metadata" with
          | .ok requestId, .ok metadata =>
              match db.updateMetaData pf.jsonPath channel (.fromVSS path) metadata with
              | (.error e, db) => (updateFailure ck "updateMetaData" requestId e, db)
              | (.ok (), db) =>
                  (.ok (ofMembers (updateAnswer ck "updateMetaData" requestId)), db)
          | .error e, _ => (.error e, db)
          | _, .error e => (.error e, db)

def processGetMetaData (db : VssDatabase) (request : Json) : Except Exn Json :=
  match text request "path" with
  | .error e => .error e
  | .ok pathStr =>
      match validateRequest pf schemaGet request with
      | .error e => refuseRequest ck "getMetaData" "getMetaData" request e
      | .ok () =>
          match text request "requestId" with
          | .error e => .error e
          | .ok requestId =>
              (db.getMetaData pf.jsonPath (.fromVSS pathStr)).map fun st =>
                let answer := [("action", Json.str "getMetaData"), ("requestId", .str requestId),
                  ("ts", .str ck.timeStamp)]
                if st.size = 0 then ofMembers (answer ++ [("error", errorObject "404"
                  "Path not found" ("In database no metadata found for path " ++
                    (VSSPath.fromVSS pathStr).getVSSPath))])
                else ofMembers (answer ++ [("metadata", st)])

end Metadata

def processAuthorize (auth : Authenticator) (channel : KuksaChannel) (requestId token : String) :
    Except Exn Json × KuksaChannel :=
  match auth.validate pf.jwt pf.numerics channel token with
  | (.error e, channel) => (.error e, channel)
  | (.ok ttl, channel) =>
      if ttl = -1 then (.ok (errorAnswer ck (some "authorize") requestId "401" "Invalid Token"
        "Check the JWT token passed"), channel)
      else (.ok (ofMembers [("action", .str "authorize"), ("requestId", .str requestId),
        ("TTL", .int ttl), ("ts", .str ck.timeStamp)]), channel)

/-- The entries that the published datapoints put in the buffer. -/
def publishAll (handler : SubscriptionHandler) (pubs : List Publication) : SubscriptionHandler :=
  pubs.foldl SubscriptionHandler.publishForVSSPath handler

/-- The handler of the action of a request. -/
def dispatch (sv : Server) (subId : SubscriptionId) (channel : KuksaChannel) (root : Json) :
    Except Exn Json × Server × KuksaChannel :=
  match text root "action" with
  | .error e => (.error e, sv, channel)
  | .ok action =>
      if action = "get" then (processGet pf ck sv.database channel root, sv, channel)
      else if action = "set" then
        match processSet pf ck sv.database channel root with
        | (r, db, pubs) => (r, { sv with
            database := db, subHandler := publishAll sv.subHandler pubs }, channel)
      else if action = "getMetaData" then
        (processGetMetaData pf ck sv.database root, sv, channel)
      else if action = "updateMetaData" then
        match processUpdateMetaData pf ck sv.database channel root with
        | (r, db) => (r, { sv with database := db }, channel)
      else if action = "authorize" then
        match text root "tokens", text root "requestId" with
        | .ok token, .ok requestId =>
            match processAuthorize pf ck sv.tokenValidator channel requestId token with
            | (r, channel) => (r, sv, channel)
        | .error e, _ => (.error e, sv, channel)
        | _, .error e => (.error e, sv, channel)
      else if action = "unsubscribe" then
        match processUnsubscribe pf ck sv root with
        | (r, handler) => (r, { sv with subHandler := handler }, channel)
      else if action = "subscribe" then
        match processSubscribe pf ck sv subId channel root with
        | (r, handler) => (r, { sv with subHandler := handler }, channel)
      else if action = "updateVSSTree" then
        match processUpdateVSSTree pf ck sv.database channel root with
        | (r, db) => (r, { sv with database := db }, channel)
      else ((tryExtractRequestId root).map fun requestId =>
        malFormedMessage ck "Unknown action requested" requestId, sv, channel)

/-- The exceptions that the dispatch answers. -/
def isCaught (e : Exn) : Bool :=
  e.kind = .serError || e.kind = .keyNotFound || e.kind = .notAnObject

def processQuery (sv : Server) (subId : SubscriptionId) (reqJson : String)
    (channel : KuksaChannel) : Except Exn Json × Server × KuksaChannel :=
  match pf.parse reqJson with
  | .error e => (.ok (malFormedMessage ck e "UNKNOWN"), sv, channel)
  | .ok root =>
      match dispatch pf ck sv subId channel root with
      | (.error e, sv, channel) =>
          if isCaught e then (.ok (malFormedMessage ck e.what "UNKNOWN"), sv, channel)
          else (.error e, sv, channel)
      | (.ok answer, sv, channel) => (.ok answer, sv, channel)

end VssCommandProcessor
