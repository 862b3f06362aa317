import KuksaVal.MetaDataSpine
import KuksaVal.SignalRegister

/-! What a client is told of a node is the metadata that was merged into it last, as long as nobody
else changes the trees. -/

namespace VssDatabase
open Json VSSPath

/-- An answer has at its end what the tree has there. -/
theorem Spine.at? {d answer : Json} {names : List String} (h : Spine d names answer) :
    answer.at? (nodeLoc names) = d.at? (nodeLoc names) := by
  induction h with
  | @last d n k hn =>
    have hmember : (Json.obj [(k, n)]).get? k = some n := by simp [get?, Members.get?_cons]
    simp only [nodeLoc_cons, belowLoc, at?_cons, child?_key, hmember, hn]
  | @above d d' n element inner k k' ks hn hd hi hc hm ih =>
    have hmember : (Json.obj [(k, element)]).get? k = some element := by
      simp [get?, Members.get?_cons]
    rw [nodeLoc_cons] at ih
    rw [nodeLoc_cons, belowLoc_cons]
    simp only [at?_cons (s := .key k), at?_cons (s := .key "children"), child?_key, hmember, hn,
      hc, hd, Option.bind_some]
    exact ih

end VssDatabase

namespace VssCommandProcessor
open Json JsonResponses VSSRequestValidator VssDatabase VSSPath

variable (pf : Platform)

/-- An update of the metadata of a path that is answered with success. -/
def UpdatesAt (sv : Server) (a : ChannelRequest) (path : String) (metadata : Json) : Prop :=
  ∃ request id, pf.parse a.request.reqJson = .ok request ∧
    text request "action" = .ok "updateMetaData" ∧ text request "path" = .ok path ∧
    request.member "metadata" = .ok metadata ∧
    (handle pf sv a).1 = .ok (ofMembers (updateAnswer a.request.clock "updateMetaData" id))

variable {pf} {ck : Clock} {sv : Server} {channel : KuksaChannel} {request metadata : Json}
  {path : String}

theorem updateAnswer_no_error (ck : Clock) (action id : String) :
    (ofMembers (updateAnswer ck action id)).contains "error" = false := by
  simp [contains, get?_ofMembers, updateAnswer, Members.get?_cons]

theorem settle_no_error {r : Except Exn Json} {answer : Json} (h : settle ck r = .ok answer)
    (ha : answer.contains "error" = false) : r = .ok answer := by
  cases r with
  | error e =>
    simp only [settle] at h
    split_ifs at h
    obtain rfl := Except.ok.inj h
    simp [malFormedMessage, errorAnswer_contains_error] at ha
  | ok answer' => exact h

theorem refuseRequest_error {action unhandled : String} {e : Exn} {answer : Json}
    (h : refuseRequest ck action unhandled request e = .ok answer) :
    answer.contains "error" = true := by
  unfold refuseRequest at h
  split_ifs at h
  all_goals
    cases hr : tryExtractRequestId request with
    | error e => simp [hr, Except.map] at h
    | ok id =>
      rw [hr] at h
      obtain rfl := Except.ok.inj h
      exact errorAnswer_contains_error ..

theorem updateFailure_error {action id : String} {e : Exn} {answer : Json}
    (h : updateFailure ck action id e = .ok answer) : answer.contains "error" = true := by
  unfold updateFailure answerUnhandled at h
  split at h
  · obtain rfl := Except.ok.inj h
    simp [contains, get?_ofMembers, updateAnswer, Members.get?_cons]
  · obtain rfl := Except.ok.inj h
    exact errorAnswer_contains_error ..
  · split_ifs at h
    obtain rfl := Except.ok.inj h
    exact errorAnswer_contains_error ..

/-- An update without an error in its answer is made. -/
theorem processUpdateMetaData_success {db : VssDatabase} {answer : Json}
    (h : (processUpdateMetaData pf ck db channel request).1 = .ok answer)
    (ha : answer.contains "error" = false) (hpath : text request "path" = .ok path)
    (hmeta : request.member "metadata" = .ok metadata) :
    (db.updateMetaData pf.jsonPath channel (.fromVSS path) metadata).1 = .ok () ∧
      (processUpdateMetaData pf ck db channel request).2 =
        (db.updateMetaData pf.jsonPath channel (.fromVSS path) metadata).2 := by
  have hno {r : Except Exn Json} (hr : r = .ok answer)
      (he : ∀ a, r = .ok a → a.contains "error" = true) : False := by
    simp [he answer hr] at ha
  unfold processUpdateMetaData at h ⊢
  simp only [hpath, hmeta] at h ⊢
  cases hv : validateRequest pf schemaUpdateMetadata request with
  | error e =>
    rw [hv] at h
    exact (hno h fun _ => refuseRequest_error).elim
  | ok _ =>
    simp only [hv] at h ⊢
    cases hid : text request "requestId" with
    | error e => simp [hid] at h
    | ok id =>
      simp only [hid] at h ⊢
      generalize db.updateMetaData pf.jsonPath channel (.fromVSS path) metadata = r at h ⊢
      obtain ⟨outcome, db'⟩ := r
      cases outcome with
      | error e => exact (hno h fun _ => updateFailure_error).elim
      | ok _ => exact ⟨rfl, rfl⟩

/-- What an update with success has made of the tree of metadata. -/
theorem UpdatesAt.updates {a : ChannelRequest} (h : UpdatesAt pf sv a path metadata) :
    ∃ l node merged, Resolves pf.jsonPath sv.database.metaTree (.fromVSS path) l node ∧
      node.mergeOrUpdate metadata = .ok merged ∧
      (handle pf sv a).2.database.metaTree = sv.database.metaTree.setAt l merged := by
  obtain ⟨request, id, hp, hact, hpath, hmeta, hans⟩ := h
  have hd : dispatch pf a.request.clock sv a.request.subId a.channel request =
      ((processUpdateMetaData pf a.request.clock sv.database a.channel request).1, { sv with
        database := (processUpdateMetaData pf a.request.clock sv.database a.channel request).2 },
        a.channel) := by
    simp [dispatch, hact]
  rw [handle_parsed hp, hd] at hans ⊢
  have ha := updateAnswer_no_error a.request.clock "updateMetaData" id
  obtain ⟨hok, hdb⟩ := processUpdateMetaData_success (settle_no_error hans ha) ha hpath hmeta
  rcases updateMetaData_cases pf.jsonPath sv.database a.channel (.fromVSS path) metadata with
    ⟨e, he⟩ | ⟨l, l', m, m', d, d', hm, -, hm', -, he⟩
  · simp [he] at hok
  · exact ⟨l, m, m', hm, hm', by simp only [hdb, he]⟩

/-- Without the right to change the trees no request changes the tree of metadata. -/
theorem handle_metaTree {a : ChannelRequest} (hm : a.channel.modifyTree = false) :
    (handle pf sv a).2.database.metaTree = sv.database.metaTree := by
  cases hp : pf.parse a.request.reqJson with
  | error e =>
    unfold handle
    rw [processQuery_not_parsed hp]
  | ok request =>
    rw [handle_parsed hp]
    rcases dispatch_database pf a.request.clock sv request a.request.subId hm with
      ⟨hd, -⟩ | ⟨-, -, hd, -⟩
    · simp only [hd]
    · simp only [hd]
      rcases processSet_cases pf a.request.clock sv.database a.channel request with
        ⟨-, he⟩ | ⟨path, requestId, value, db', m, node, stored, -, -, -, -, hst, -, -, he⟩
      · rw [he]
      · rw [he, hst.replaced]

theorem run_metaTree (as : List ChannelRequest) (has : ∀ a ∈ as, a.channel.modifyTree = false) :
    (Answering.run (handle pf) sv as).2.database.metaTree = sv.database.metaTree := by
  induction as generalizing sv with
  | nil => rfl
  | cons a as ih =>
    exact (ih fun b hb => has b (List.mem_cons_of_mem a hb)).trans
      (handle_metaTree (has a List.mem_cons_self))

/-- The answer to a request for metadata. -/
def metaDataAnswer (ck : Clock) (requestId : String) (metadata : Json) : Json :=
  ofMembers [("action", .str "getMetaData"), ("requestId", .str requestId),
    ("ts", .str ck.timeStamp), ("metadata", metadata)]

/-- A well-formed request for the metadata of a path. -/
structure GetsMetaData (pf : Platform) (request : Json) (path requestId : String) : Prop where
  action : text request "action" = .ok "getMetaData"
  valid : valid pf.numerics schemaGet request = true
  path : text request "path" = .ok path
  requestId : text request "requestId" = .ok requestId

theorem handle_getMetaData {a : ChannelRequest} {requestId : String} {answer : Json}
    (hp : pf.parse a.request.reqJson = .ok request) (hg : GetsMetaData pf request path requestId)
    (hget : sv.database.getMetaData pf.jsonPath (.fromVSS path) = .ok answer)
    (hsize : answer.size ≠ 0) :
    (handle pf sv a).1 = .ok (metaDataAnswer a.request.clock requestId answer) := by
  have hval : validateRequest pf schemaGet request = .ok () :=
    (validate_eq_ok_iff pf.numerics).mpr hg.valid
  have hget' : processGetMetaData pf a.request.clock sv.database request =
      .ok (metaDataAnswer a.request.clock requestId answer) := by
    simp [processGetMetaData, hg.path, hval, hg.requestId, hget, hsize, Except.map, metaDataAnswer]
  rw [handle_parsed hp]
  simp [dispatch, hg.action, hget', settle]

theorem Spine.size_ne_zero {d answer : Json} {names : List String} (h : Spine d names answer) :
    answer.size ≠ 0 := by
  cases h <;> simp [size]

/-- After an update of the metadata of a node with success, and any requests of clients without the
right to change the trees, a request for the metadata of the node is answered with the nodes on the
way to it, and at its end the node with the metadata merged into it. -/
theorem get_last_updated (pf : Platform) (sv : Server) (path : String) (metadata : Json)
    (names : List String) (editor : ChannelRequest) (as : List ChannelRequest)
    (reader : ChannelRequest) (hplain : Plain path) (hup : UpdatesAt pf sv editor path metadata)
    (hm : pf.jsonPath.matches? sv.database.metaTree (VSSPath.fromVSS path).jsonpath =
      .ok [nodeLoc names])
    (hne : names ≠ []) (hdepth : names.length ≤ maxParents)
    (htree : MetadataTree (handle pf sv editor).2.database.metaTree)
    (has : ∀ a ∈ as, a.channel.modifyTree = false)
    (request : Json) (requestId : String) (hp : pf.parse reader.request.reqJson = .ok request)
    (hg : GetsMetaData pf request path requestId) :
    ∃ node merged answer, sv.database.metaTree.at? (nodeLoc names) = some node ∧
      node.mergeOrUpdate metadata = .ok merged ∧
      (handle pf (Answering.run (handle pf) (handle pf sv editor).2 as).2 reader).1 =
        .ok (metaDataAnswer reader.request.clock requestId answer) ∧
      Spine (handle pf sv editor).2.database.metaTree names answer ∧
      answer.at? (nodeLoc names) = some merged := by
  obtain ⟨l, node, merged, hr, hmerged, hafter⟩ := hup.updates
  obtain rfl : l = nodeLoc names := by simpa [hm] using hr.unique.symm
  have hr' := hr.setAt hplain merged
  rw [← hafter] at hr'
  have hsame : (Answering.run (handle pf) (handle pf sv editor).2 as).2.database.metaTree =
      (handle pf sv editor).2.database.metaTree := run_metaTree as has
  rw [← hsame] at hr' htree
  obtain ⟨answer, hget, hspine⟩ := (getMetaData_spine pf.jsonPath
    (Answering.run (handle pf) (handle pf sv editor).2 as).2.database (.fromVSS path) htree).1
      names [] hne hdepth hr'.unique
  refine ⟨node, merged, answer, hr.located, hmerged, ?_, hsame ▸ hspine, ?_⟩
  · exact handle_getMetaData hp hg hget (Spine.size_ne_zero hspine)
  · exact hspine.at?.trans hr'.located

section Unit

def unitTree (unit : List (String × Json)) : Json :=
  .obj [("Vehicle", .obj [("children", .obj [("Speed", .obj ([("datatype", .str "uint8"),
    ("type", .str "sensor")] ++ unit))]), ("type", .str "branch")])]

def unitRequest : String → Except String Json
  | "update" => .ok (.obj [("action", .str "updateMetaData"),
      ("metadata", .obj [("unit", .str "km/h")]), ("path", .str "Vehicle.Speed"),
      ("requestId", .str "1")])
  | "get" => .ok (.obj [("action", .str "get"), ("path", .str "Vehicle.Speed"),
      ("requestId", .str "2")])
  | "read" => .ok (.obj [("action", .str "getMetaData"), ("path", .str "Vehicle.Speed"),
      ("requestId", .str "3")])
  | _ => .error "Parse error"

def unitServer : Server := ⟨⟨unitTree [], unitTree []⟩, ⟨[], []⟩, ⟨"key"⟩⟩

def unitEditor : ChannelRequest := ⟨{ modifyTree := true }, ⟨midnight, 0, "update"⟩⟩

theorem unitTree_metadataTree : MetadataTree (unitTree [("unit", .str "km/h")]) := by
  refine ⟨?_, by decide +kernel, ?_⟩
  · apply vssTree_singleton (by decide +kernel)
    exact (vssTree_singleton (by decide +kernel) (.leaf rfl (by decide) rfl)).branch
  · intro names node v _ hnode hv
    have hkey : (unitTree [("unit", .str "km/h")]).noKey (fun k => k = "description") = true := by
      decide +kernel
    rw [get?_of_noKey (noKey_at? hkey hnode) (by simp)] at hv
    simp at hv

/-- A unit is given to the speed, another client reads its value, and a third one its metadata. -/
theorem get_last_updated_unit : ∃ answer,
    (handle (.basic unitRequest) (Answering.run (handle (.basic unitRequest))
        (handle (.basic unitRequest) unitServer unitEditor).2
        [⟨{}, ⟨midnight, 0, "get"⟩⟩]).2 ⟨{}, ⟨midnight, 0, "read"⟩⟩).1 =
      .ok (metaDataAnswer midnight "3" answer) ∧
      (answer.at? (nodeLoc ["Vehicle", "Speed"])).bind (fun node => node.get? "unit") =
        some (.str "km/h") := by
  have hup : UpdatesAt (.basic unitRequest) unitServer unitEditor "Vehicle.Speed"
      (.obj [("unit", .str "km/h")]) :=
    ⟨_, "1", rfl, rfl, rfl, rfl, by decide +kernel⟩
  have hafter : (handle (.basic unitRequest) unitServer unitEditor).2.database.metaTree =
      unitTree [("unit", .str "km/h")] := by decide +kernel
  obtain ⟨node, merged, answer, hnode, hmerged, hans, -, hat⟩ :=
    get_last_updated (.basic unitRequest) unitServer "Vehicle.Speed" (.obj [("unit", .str "km/h")])
      ["Vehicle", "Speed"] unitEditor [⟨{}, ⟨midnight, 0, "get"⟩⟩] ⟨{}, ⟨midnight, 0, "read"⟩⟩
      (by decide +kernel) hup (by decide +kernel) (by simp) (by decide)
      (hafter ▸ unitTree_metadataTree) (by simp) _ "3" rfl ⟨rfl, by decide +kernel, rfl, rfl⟩
  refine ⟨answer, hans, ?_⟩
  have hspeed : unitServer.database.metaTree.at? (nodeLoc ["Vehicle", "Speed"]) =
      some (.obj [("datatype", .str "uint8"), ("type", .str "sensor")]) := by decide +kernel
  obtain rfl := Option.some.inj (hspeed.symm.trans hnode)
  obtain rfl := Except.ok.inj hmerged
  rw [hat]
  decide +kernel

end Unit

end VssCommandProcessor
