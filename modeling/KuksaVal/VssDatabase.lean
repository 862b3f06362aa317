import KuksaVal.VSSPath
import KuksaVal.KuksaChannel
import KuksaVal.JsonResponses
import KuksaVal.Json.Patch

/-! The database: the tree with the values and the tree with the metadata alone. -/

structure VssDatabase where
  dataTree : Json
  metaTree : Json
  deriving DecidableEq, Repr

/-- One call of `publishForVSSPath`. -/
structure Publication where
  path : VSSPath
  vssdatatype : String
  attr : String
  data : Json
  deriving DecidableEq, Repr

namespace VssDatabase
open Json

def isType (type : String) (element : Json) : Bool := element.get? "type" = some (.str type)

def isActor (element : Json) : Bool := isType "actuator" element

def isSensor (element : Json) : Bool := isType "sensor" element

def isAttribute (element : Json) : Bool := isType "attribute" element

/-- The member `type`, compared as text. -/
def typeReads (type : String) (element : Json) : Bool :=
  (element.get? "type").any fun t => t.asString = type

/- An attribute with a default takes it as its value, the other nodes pass it on to their
children. -/
mutual
def applyDefaultValues : Json → Except Exn Json
  | .obj ms =>
      if isAttribute (.obj ms) then
        match Members.get? "default" ms with
        | some d => .ok (.obj (Members.assign "value" (.str d.asString) ms))
        | none => (applyToChildren ms).map .obj
      else (applyToChildren ms).map .obj
  | j => .ok j

def applyToChildren : List (String × Json) → Except Exn (List (String × Json))
  | [] => .ok []
  | (k, v) :: ms =>
      if k = "children" then (applyToContainer v).map fun v => (k, v) :: ms
      else (applyToChildren ms).map fun ms => (k, v) :: ms

def applyToContainer : Json → Except Exn Json
  | .obj ms => (applyToSubtrees ms).map .obj
  | _ => .error ⟨.domainError, "Not an object"⟩

def applyToSubtrees : List (String × Json) → Except Exn (List (String × Json))
  | [] => .ok []
  | (k, v) :: ms =>
      match applyDefaultValues v with
      | .error e => .error e
      | .ok v => (applyToSubtrees ms).map fun ms => (k, v) :: ms
end

/-- Both trees from one file; the defaults are set in the tree with the values. -/
def initJsonTree (file : Json) : Except Exn VssDatabase :=
  match file.member "Vehicle" with
  | .error e => .error e
  | .ok vehicle => (applyDefaultValues vehicle).map fun vehicle =>
      { dataTree := file.insertOrAssign "Vehicle" vehicle, metaTree := file }

variable (jp : JsonPath) (nm : Numerics) (ck : Clock)

def jsonQuery (tree : Json) (path : String) : Except Exn (List Json) :=
  (jp.query tree path).mapError .jsonpathError

def jsonReplace (tree : Json) (path : String) (value : Json) : Except Exn Json :=
  (jp.replace tree path value).mapError .jsonpathError

variable (db : VssDatabase)

def pathExists (path : VSSPath) : Except Exn Bool :=
  (jsonQuery jp db.dataTree path.getJSONPath).map fun res => decide (res.length ≠ 0)

def pathIsWritable (path : VSSPath) : Except Exn Bool :=
  (jsonQuery jp db.dataTree path.getJSONPath).map fun
    | [res] => typeReads "sensor" res || typeReads "actuator" res
    | _ => false

def pathIsAttributable (path : VSSPath) (attr : String) : Except Exn Bool :=
  (jsonQuery jp db.dataTree path.getJSONPath).map fun
    | [] => false
    | [res] => (attr = "targetValue" && typeReads "actuator" res) || attr = "value"
    | _ => true

def pathIsReadable (path : VSSPath) : Except Exn Bool :=
  (jsonQuery jp db.dataTree path.getJSONPath).map fun
    | [res] => isSensor res || isActor res || isAttribute res
    | _ => false

def getDatatypeForPath (path : VSSPath) : Except Exn String := do
  if !(← pathExists jp db path) then throw (.noPathFoundonTree path.toString)
  if !(← pathIsReadable jp db path) then
    throw (.genException (path.toString ++
      " does not contain a datatype because it is not a sensor/actuator/attribute."))
  let result ← elementAt (← jsonQuery jp db.dataTree path.getJSONPath) 0
  match result.get? "datatype" with
  | some datatype => return datatype.asString
  | none => throw (.genException (path.toString ++ " does not contain a datatype."))

/-- `list::merge` by the slash spelling. -/
def mergePaths (paths others : List VSSPath) : List VSSPath :=
  paths.merge others fun a b => !decide (b.vsspath < a.vsspath)

/-- The loop over the matched nodes; branches are left to `recurse`. -/
def collectLeafPaths (recurse : VSSPath → Except Exn (List VSSPath)) (pathIsGen1 : Bool) :
    List String → List VSSPath → Except Exn (List VSSPath)
  | [], paths => .ok paths
  | jpath :: jpaths, paths =>
      match jsonQuery jp db.dataTree jpath with
      | .error e => .error e
      | .ok [] => collectLeafPaths recurse pathIsGen1 jpaths paths
      | .ok (res :: _) =>
          if typeReads "branch" res then
            match recurse (.fromJSON (jpath ++ "['children'][*]") pathIsGen1) with
            | .error e => .error e
            | .ok below => collectLeafPaths recurse pathIsGen1 jpaths (mergePaths paths below)
          else
            collectLeafPaths recurse pathIsGen1 jpaths (paths ++ [.fromJSON jpath pathIsGen1])

/-- The recursion into branches, at most as deep as the fuel. -/
def getLeafPathsWithin : ℕ → VSSPath → Except Exn (List VSSPath)
  | 0, _ => .error ⟨.undefinedBehaviour, "unbounded recursion"⟩
  | fuel + 1, path =>
      match jp.queryPaths db.dataTree path.getJSONPath with
      | .error _ => .ok []
      | .ok pathRes => collectLeafPaths jp db (getLeafPathsWithin fuel) path.isGen1Origin pathRes []

/-- Every level of recursion goes deeper into the tree, so its depth is fuel enough. -/
def getLeafPaths (path : VSSPath) : Except Exn (List VSSPath) :=
  getLeafPathsWithin jp db (db.dataTree.depth + 1) path

def checkPathValid (path : VSSPath) : Except Exn Bool :=
  (getLeafPaths jp db path).map fun paths => !paths.isEmpty

/-- Overlay a tree: removals are dropped from the differences. -/
def updateTree (sourceTree jsonTree : Json) : Except Exn Json :=
  match sourceTree.applyPatch (keepOps (fromDiff sourceTree jsonTree)) with
  | some tree => .ok tree
  | none => .error (.genException "JSON Patch failed")

def updateJsonTree (channel : KuksaChannel) (jsonTree : Json) :
    Except Exn Unit × VssDatabase :=
  if channel.authorizedToModifyTree = false then
    (.error (.noPermissionException
      "do not have write access for updating json tree or is invalid"), db)
  else
    let withDefaults := match jsonTree.get? "Vehicle" with
      | some vehicle => (applyDefaultValues vehicle).map (jsonTree.insertOrAssign "Vehicle")
      | none => .ok jsonTree
    match withDefaults with
    | .error e => (.error e, db)
    | .ok jsonTree =>
        match updateTree db.metaTree jsonTree with
        | .error e => (.error e, db)
        | .ok metaTree =>
            match updateTree db.dataTree jsonTree with
            | .error e => (.error e, { db with metaTree := metaTree })
            | .ok dataTree => (.ok (), { dataTree := dataTree, metaTree := metaTree })

/-- The first critical section of an update: both nodes are read. -/
def readForUpdate (path : VSSPath) : Except Exn (List Json × List Json) :=
  match jsonQuery jp db.metaTree path.getJSONPath with
  | .error e => .error e
  | .ok resMetaTree =>
      match jsonQuery jp db.dataTree path.getJSONPath with
      | .error e => .error e
      | .ok resDataTree => .ok (resMetaTree, resDataTree)

/-- The node of a query that has to match exactly one. -/
def singleNode (path : VSSPath) : List Json → Except Exn Json
  | [res] => .ok res
  | _ => .error (.notValidException (path.getJSONPath ++ " is not a valid path"))

/-- Between the critical sections: the metadata is merged into the copies. -/
def mergeNodes (path : VSSPath) (metadata : Json) (res : List Json × List Json) :
    Except Exn (Json × Json) :=
  match singleNode path res.1 with
  | .error e => .error e
  | .ok resMetaTree =>
      match singleNode path res.2 with
      | .error e => .error e
      | .ok resDataTree =>
          match resMetaTree.mergeOrUpdate metadata with
          | .error e => .error e
          | .ok resMetaTree => (resDataTree.mergeOrUpdate metadata).map fun d => (resMetaTree, d)

/-- The second critical section: the copies are written back. -/
def writeBack (path : VSSPath) (nodes : Json × Json) : Except Exn Unit × VssDatabase :=
  match jsonReplace jp db.metaTree path.getJSONPath nodes.1 with
  | .error e => (.error e, db)
  | .ok metaTree =>
      match jsonReplace jp db.dataTree path.getJSONPath nodes.2 with
      | .error e => (.error e, { db with metaTree := metaTree })
      | .ok dataTree => (.ok (), { dataTree := dataTree, metaTree := metaTree })

def updateMetaData (channel : KuksaChannel) (path : VSSPath) (metadata : Json) :
    Except Exn Unit × VssDatabase :=
  if channel.authorizedToModifyTree = false then
    (.error (.noPermissionException
      "do not have write access for updating MetaData or is invalid"), db)
  else
    match readForUpdate jp db path with
    | .error e => (.error e, db)
    | .ok res =>
        match mergeNodes path metadata res with
        | .error e => (.error e, db)
        | .ok nodes => writeBack jp db path nodes

/-- One call of `strtok`: the token, and the text after its delimiter. -/
def strtok (delims text : List Char) : Option (List Char × List Char) :=
  match text.dropWhile (· ∈ delims) with
  | [] => none
  | rest => some (rest.takeWhile (· ∉ delims), (rest.dropWhile (· ∉ delims)).drop 1)

/-- Alternate between the two sets of delimiters; every second token is a name. -/
def vssTokens : ℕ → Bool → List Char → List String
  | 0, _, _ => []
  | fuel + 1, isName, text =>
      match strtok (if isName then ['[', '\x27'] else ['\x27', ']']) text with
      | none => []
      | some (tok, rest) =>
          if isName then String.ofList tok :: vssTokens fuel false rest
          else vssTokens fuel true rest

/-- A text as C functions read it: it ends before the first NUL. -/
def cString (text : String) : List Char := text.toList.takeWhile (· ≠ '\x00')

def getVSSTokens (path : String) : List String :=
  match strtok ['[', '\x27'] (cString path) with
  | none => []
  | some (_, rest) => vssTokens path.length true rest

/-- A text member is rewritten as text. -/
def textMember (key : String) (j : Json) : Json :=
  match j.get? key with
  | some v => j.insertOrAssign key (.str v.asString)
  | none => j

def maxParents : ℕ := 16

/-- The nodes on the way down, each with its name; nothing where one is not unique. -/
def metaDataNodes (tree : Json) : List String → String → List (String × Json) →
    Except Exn (Option (List (String × Json)))
  | [], _, parents => .ok (some parents)
  | token :: tokens, formatPath, parents =>
      let formatPath := formatPath ++ "." ++ token
      if tokens ≠ [] ∧ token = "children" then metaDataNodes tree tokens formatPath parents
      else
        match jsonQuery jp tree formatPath with
        | .error e => .error e
        | .ok [res] =>
            let resJson := textMember "type" (textMember "description" res)
            let resJson := if tokens = [] ∧ token ≠ "children" then ofMembers [(token, resJson)]
              else resJson
            if parents.length < maxParents then
              metaDataNodes tree tokens formatPath (parents ++ [(token, resJson)])
            else .error ⟨.undefinedBehaviour, "parentArray"⟩
        | .ok _ => .ok none

/-- The queries on the way down, one for each name. -/
def formatPaths : List String → String → List String
  | [], _ => []
  | token :: tokens, formatPath =>
      let formatPath := formatPath ++ "." ++ token
      if tokens ≠ [] ∧ token = "children" then formatPaths tokens formatPath
      else formatPath :: formatPaths tokens formatPath

/-- Nest the result in the nodes above it, from the innermost out. -/
def nestParents (result : Json) : List (String × Json) → Except Exn Json
  | [] => .ok result
  | (name, node) :: parents =>
      match nestParents result parents with
      | .error e => .error e
      | .ok inner => (node.tryInsertOrAssign "children" inner).map fun element =>
          ofMembers [(name, element)]

def getMetaData (path : VSSPath) : Except Exn Json :=
  match jp.queryPaths db.metaTree path.getJSONPath with
  | .error e => .error (.jsonpathError e)
  | .ok [] => .ok (.int 0)
  | .ok (jPath :: _) =>
      match metaDataNodes jp db.metaTree (getVSSTokens jPath) "$" [] with
      | .error e => .error e
      | .ok none => .ok (.int 0)
      | .ok (some parents) =>
          nestParents ((parents.getLast?.map Prod.snd).getD (ofMembers [])) parents.dropLast

/-- The datapoint that is published: the value and the two numbers of its timestamp. -/
def publishedData (path : VSSPath) (attr : String) (value resJson : Json) : Json :=
  ofMembers [("path", .str path.toString), ("dp", ofMembers [(attr, value),
    ("ts_s", (resJson.get? ("ts_s-" ++ attr)).getD .null),
    ("ts_ns", (resJson.get? ("ts_ns-" ++ attr)).getD .null)])]

/-- The critical section of a set. Nothing is stored unless exactly one node matches. -/
def setSignal (path : VSSPath) (attr : String) (value : Json) :
    Except Exn Json × VssDatabase × List Publication :=
  match jsonQuery jp db.dataTree path.getJSONPath with
  | .error e => (.error e, db, [])
  | .ok [resJson] =>
      if resJson.contains "datatype" then
        match checkAndSanitizeType nm resJson value with
        | .error e => (.error e, db, [])
        | .ok value =>
            let resJson := JsonResponses.addTimeStampToJSON ck
              (resJson.insertOrAssign attr value) ("-" ++ attr)
            match jsonReplace jp db.dataTree path.getJSONPath resJson with
            | .error e => (.error e, db, [])
            | .ok dataTree =>
                let data := publishedData path attr value resJson
                (.ok data, { db with dataTree := dataTree },
                  [⟨path, ((resJson.get? "datatype").map asString).getD "", attr, data⟩])
      else (.error (.genException (path.getVSSPath ++ "is invalid for set")), db, [])
  | .ok _ => (.ok (ofMembers [("path", .str path.toString)]), db, [])

/-- The two numbers of a stored timestamp; zero where one is missing. -/
def storedTimeStamp (result : Json) (attr : String) : Except Exn (ℤ × ℤ) :=
  match result.get? ("ts_s-" ++ attr), result.get? ("ts_ns-" ++ attr) with
  | some s, some ns =>
      match asInteger nm ⟨64, false⟩ s with
      | .error e => .error e
      | .ok sec => (asInteger nm ⟨32, false⟩ ns).map fun nsec => (sec, nsec)
  | _, _ => .ok (0, 0)

/-- The datapoint of a node for one of its attributes. -/
def datapointOf (path : VSSPath) (attr : String) (asString : Bool) (result : Json) :
    Except Exn Json :=
  match result.get? attr with
  | none => .error (.notSetException
      ("Attribute " ++ attr ++ " on " ++ path.getVSSPath ++ " has not been set yet."))
  | some value =>
      match storedTimeStamp nm result attr with
      | .error e => .error e
      | .ok (sec, nsec) =>
          let shown := if asString then .str value.asString else value
          let datapoint := ofMembers [(attr, shown), ("ts_s", .int sec), ("ts_ns", .int nsec)]
          if asString then JsonResponses.convertJSONTimeStampToISO8601 ck nm datapoint
          else .ok datapoint

def getSignal (path : VSSPath) (attr : String) (asString : Bool) : Except Exn Json :=
  match jsonQuery jp db.dataTree path.getJSONPath with
  | .error e => .error e
  | .ok resArray =>
      match elementAt resArray 0 with
      | .error e => .error e
      | .ok result => (datapointOf nm ck path attr asString result).map fun datapoint =>
          ofMembers [("path", .str path.toString), ("dp", datapoint)]

end VssDatabase
