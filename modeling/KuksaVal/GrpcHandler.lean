import KuksaVal.VssCommandProcessor
import KuksaVal.TokenRights
import Mathlib.Logic.Function.Basic

/-! The gRPC service: its sessions, the channels of its subscription streams, and the values
that it writes to a stream. -/
open Json

inductive RequestType where
  | unknownType
  | currentValue
  | targetValue
  | metadata
  /-- A number that the enumeration has no name for. -/
  | unrecognized (number : ℤ)
  deriving DecidableEq, Repr

/-- `AttributeStringMap`. -/
def RequestType.attribute : RequestType → Option String
  | .currentValue => some "value"
  | .targetValue => some "targetValue"
  | _ => none

/-- The value of a `kuksa::Value`. -/
inductive GrpcValue where
  | uint32 (n : ℤ)
  | int32 (n : ℤ)
  | uint64 (n : ℤ)
  | int64 (n : ℤ)
  | double (d : Double)
  | float (d : Double)
  | bool (b : Bool)
  | string (s : String)
  deriving DecidableEq, Repr

namespace GrpcHandler

/-- `data["data"]["dp"][attr]`. -/
def dataPoint (data : Json) (attr : String) : Except Exn Json :=
  ((data.member "data").bind fun data => data.member "dp").bind fun dp => dp.member attr

variable (nm : Numerics)

/-- The field of the value that belongs to a data type. All others are texts. -/
def valueOf (vssdatatype : String) (value : Json) : Except Exn GrpcValue :=
  if vssdatatype ∈ ["uint8", "uint16", "uint32"] then (asInteger nm ⟨32, false⟩ value).map .uint32
  else if vssdatatype ∈ ["int8", "int16", "int32"] then (asInteger nm ⟨32, true⟩ value).map .int32
  else if vssdatatype = "uint64" then (asInteger nm ⟨64, false⟩ value).map .uint64
  else if vssdatatype = "int64" then (asInteger nm ⟨64, true⟩ value).map .int64
  else if vssdatatype = "float" then
    ((nm.asFloat value).mapError conversionError).map .float
  else if vssdatatype = "double" then
    ((nm.asDouble value).mapError conversionError).map .double
  else if vssdatatype = "boolean" then (asBool nm value).map .bool
  else .ok (.string value.asString)

/-- The path and the value of a `kuksa::Value`. -/
def grpcFillValue (vssdatatype : String) (data : Json) (attr : String) :
    Except Exn (String × GrpcValue) :=
  match (dataPoint data attr).bind (valueOf nm vssdatatype) with
  | .error e => .error e
  | .ok value =>
      ((data.member "data").bind fun data => data.member "path").map fun path =>
        (path.asString, value)

/-- A stream is always sent the attribute `value`. -/
def grpcSendObjectToStream (vssdatatype : String) (data : Json) :
    Except Exn (String × GrpcValue) :=
  grpcFillValue nm vssdatatype data "value"

end GrpcHandler

structure GrpcSession where
  peer : String
  sessionId : SubscriptionId
  deriving DecidableEq, Repr

/-- What the service reads of the context of a call: its address, and who calls. -/
structure ServerContext where
  address : ℕ
  peer : String
  connectionid : Option String
  deriving DecidableEq, Repr

/-- The two tables of sessions. The maps of streams are numbered as they are made. -/
structure RequestServiceImpl where
  grpcSessionMap : GrpcSession → Option KuksaChannel := fun _ => none
  grpcSubscribeSessionMap : ℕ → Option KuksaChannel := fun _ => none
  nextMap : ℕ := 0

namespace RequestServiceImpl
open VssCommandProcessor

variable (pf : Platform) (ck : Clock) (auth : Authenticator) (svc : RequestServiceImpl)

/-- An accepted token makes a session, under a number drawn at random. -/
def authorizeHelper (uuid : SubscriptionId) (peer token : String) :
    Except Exn Json × RequestServiceImpl :=
  let newChannel : KuksaChannel :=
    { connectionID := 0, typeOfConnection := .grpc, grpcSubsMap := some svc.nextMap }
  let svc := { svc with nextMap := svc.nextMap + 1 }
  match processAuthorize pf ck auth newChannel (pf.printUuid uuid) token with
  | (.error e, _) => (.error e, svc)
  | (.ok resJson, newChannel) =>
      if resJson.contains "error" then (.ok resJson, svc)
      else (.ok resJson, { svc with
        grpcSessionMap := Function.update svc.grpcSessionMap ⟨peer, uuid⟩ (some newChannel) })

/-- The session that the metadata of a call names. -/
def sessionOf (context : ServerContext) : Option GrpcSession :=
  context.connectionid.bind fun connIdString =>
    match pf.parseUuid connIdString with
    | .error _ => none
    | .ok connId => some ⟨context.peer, connId⟩

/-- `grpcSessionMap[session]`: a session that was never authorized is entered as it is asked
for, with a channel that has no rights. -/
def authChecker (context : ServerContext) : Option KuksaChannel × RequestServiceImpl :=
  match sessionOf pf context with
  | none => (none, svc)
  | some session =>
      match svc.grpcSessionMap session with
      | some kc => (some kc, svc)
      | none => (some {}, { svc with
          grpcSessionMap := Function.update svc.grpcSessionMap session (some {}) })

/-- The channel of a subscription stream is kept under the address of its context. -/
def getKuksaChannelForSubscriptionContext (context : ServerContext) :
    Option KuksaChannel × RequestServiceImpl :=
  match svc.grpcSubscribeSessionMap context.address with
  | some kc => (some kc, svc)
  | none =>
      match authChecker pf svc context with
      | (none, svc) => (none, svc)
      | (some kc, svc) =>
          let newChannel :=
            { kc with connectionID := context.address, grpcSubsMap := some svc.nextMap }
          (some newChannel, { svc with
            nextMap := svc.nextMap + 1
            grpcSubscribeSessionMap :=
              Function.update svc.grpcSubscribeSessionMap context.address (some newChannel) })

end RequestServiceImpl
