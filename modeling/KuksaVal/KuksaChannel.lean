import KuksaVal.Json.Value

/-! The channel of a client: its connection and the rights of its token. -/

inductive ChannelType where
  | websocketPlain
  | websocketSsl
  | httpPlain
  | httpSsl
  | grpc
  deriving DecidableEq, Repr

/-- The permission object is kept parsed; the code keeps its text and parses it back at each
check. The map of the streams of a subscription is known by its address. -/
structure KuksaChannel where
  connectionID : ℕ := 0
  authorized : Bool := false
  modifyTree : Bool := false
  authToken : String := ""
  permissions : List (String × Json) := []
  typeOfConnection : ChannelType := .websocketPlain
  grpcSubsMap : Option ℕ := none
  deriving DecidableEq, Repr

namespace KuksaChannel

def setConnID (c : KuksaChannel) (conID : ℕ) : KuksaChannel := { c with connectionID := conID }

def setAuthorized (c : KuksaChannel) (isauth : Bool) : KuksaChannel :=
  { c with authorized := isauth }

def setAuthToken (c : KuksaChannel) (tok : String) : KuksaChannel := { c with authToken := tok }

def setPermissions (c : KuksaChannel) (perm : List (String × Json)) : KuksaChannel :=
  { c with permissions := perm }

def setType (c : KuksaChannel) (type : ChannelType) : KuksaChannel :=
  { c with typeOfConnection := type }

def enableModifyTree (c : KuksaChannel) : KuksaChannel := { c with modifyTree := true }

def authorizedToModifyTree (c : KuksaChannel) : Bool := c.modifyTree

/-- `operator==`: channels are compared by their connection. -/
def sameAs (c d : KuksaChannel) : Bool := c.connectionID = d.connectionID

end KuksaChannel
