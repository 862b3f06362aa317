import KuksaVal.KuksaChannel
import KuksaVal.VSSTypeSanitizer

/-! Tokens: what a verified token says about the rights of a channel. -/

/-- The token library: the claims in the payload of a token, and its verification by the
public key. -/
structure Jwt where
  decode : String → Except String (List (String × Json))
  verify : String → String → Except String Unit

structure Authenticator where
  pubkey : String
  deriving DecidableEq, Repr

namespace Authenticator

variable (jwt : Jwt) (nm : Numerics) (auth : Authenticator)

/-- The claim `exp` is read from its text. -/
def expiry (claims : List (String × Json)) : Except Exn ℤ :=
  match (Json.obj claims).member "exp" with
  | .error e => .error e
  | .ok exp => asInteger nm ⟨32, true⟩ (.str exp.asString)

/-- The time to live, -1 for a token that is not accepted. The channel keeps a verified
token even where its expiry is not read. -/
def validateToken (channel : KuksaChannel) (authToken : String) : ℤ × KuksaChannel :=
  match jwt.decode authToken with
  | .error _ => (-1, channel)
  | .ok claims =>
      match jwt.verify auth.pubkey authToken with
      | .error _ => (-1, channel)
      | .ok () =>
          let channel := (channel.setAuthorized true).setAuthToken authToken
          match expiry nm claims with
          | .error _ => (-1, channel)
          | .ok ttl => (ttl, channel)

def isPermission (perm : Json) : Bool :=
  perm ∈ [Json.str "rw", .str "wr", .str "w", .str "r"]

def permissionsOf (claims : List (String × Json)) : Except Exn (List (String × Json)) :=
  match Members.get? "kuksa-vss" claims with
  | none => .ok []
  | some tokenPerm => tokenPerm.objectRange.map fun ms => ms.filter fun m => isPermission m.2

def mayModifyTree (claims : List (String × Json)) : Except Exn Bool :=
  match Members.get? "modifyTree" claims with
  | none => .ok false
  | some v => asBool nm v

/-- The rights of the token that the channel holds. -/
def resolvePermissions (channel : KuksaChannel) : Except Exn Unit × KuksaChannel :=
  match jwt.decode channel.authToken with
  | .error e => (.error ⟨.runtimeError, e⟩, channel)
  | .ok claims =>
      match mayModifyTree nm claims with
      | .error e => (.error e, channel)
      | .ok modify =>
          let channel := if modify then channel.enableModifyTree else channel
          match permissionsOf claims with
          | .error e => (.error e, channel)
          | .ok permissions => (.ok (), channel.setPermissions permissions)

def validate (channel : KuksaChannel) (authToken : String) : Except Exn ℤ × KuksaChannel :=
  match validateToken jwt nm auth channel authToken with
  | (ttl, channel) =>
      if 0 < ttl then
        match resolvePermissions jwt nm channel with
        | (.error e, channel) => (.error e, channel)
        | (.ok (), channel) => (.ok ttl, channel)
      else (.ok ttl, channel)

end Authenticator
