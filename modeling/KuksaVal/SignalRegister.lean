import KuksaVal.Secrecy

/-! What a client reads is what was set last, by whichever client, as long as the trees are not
changed. -/
namespace VssCommandProcessor
open Json JsonResponses VSSRequestValidator AccessChecker VssDatabase
open MetaDataUpdates (at?_key at?_set writtenKeys isRuntime_of_written)

/-- A request of a client, with its channel as it is when the request is handled. -/
structure ChannelRequest where
  channel : KuksaChannel
  request : ClientRequest

variable (pf : Platform)

/-- The server answers a request; what it does to the channel is the client's own affair. -/
def handle (sv : Server) (a : ChannelRequest) : Except Exn Json × Server :=
  match processQuery pf a.request.clock sv a.request.subId a.request.reqJson a.channel with
  | (answer, sv, _) => (answer, sv)

/-- A set of the attribute of the node at a location that is answered with success. -/
def SetsAt (sv : Server) (a : ChannelRequest) (l : Loc) (attr : String) : Prop :=
  ∃ request path id, pf.parse a.request.reqJson = .ok request ∧
    text request "action" = .ok "set" ∧ attributeOf request = attr ∧
    text request "path" = .ok path ∧
    pf.jsonPath.matches? sv.database.dataTree (VSSPath.fromVSS path).jsonpath = .ok [l] ∧
    (handle pf sv a).1 = .ok (setAnswer a.request.clock id)

/-- The values that were read of an attribute are those of before, on the same metadata. -/
structure SameSignal (l : Loc) (attr : String) (db db' : VssDatabase) : Prop where
  metadata : prune isRuntime db.dataTree = prune isRuntime db'.dataTree
  values : ∀ k ∈ writtenKeys attr,
    db.dataTree.at? (l ++ [.key k]) = db'.dataTree.at? (l ++ [.key k])

variable {pf} {ck : Clock} {sv : Server} {l : Loc} {attr : String} {channel : KuksaChannel}
  {request : Json}

theorem SameSignal.refl (db : VssDatabase) : SameSignal l attr db db := ⟨rfl, fun _ _ => rfl⟩

theorem SameSignal.trans {db db' db'' : VssDatabase} (h : SameSignal l attr db db')
    (h' : SameSignal l attr db' db'') : SameSignal l attr db db'' :=
  ⟨h.metadata.trans h'.metadata, fun k hk => (h.values k hk).trans (h'.values k hk)⟩

theorem processUnsubscribe_buffer :
    (processUnsubscribe pf ck sv request).2.buffer = sv.subHandler.buffer := by
  unfold processUnsubscribe
  cases validateRequest pf schemaUnsubscribe request with
  | error e => rfl
  | ok _ =>
    cases text request "requestId" with
    | error e => rfl
    | ok requestId =>
      cases text request "subscriptionId" with
      | error e => rfl
      | ok subscriptionId =>
        dsimp only
        cases pf.parseUuid subscriptionId with
        | error e => rfl
        | ok subscribeID =>
          dsimp only
          split_ifs <;> rfl

theorem processSubscribe_buffer (subId : SubscriptionId) :
    (processSubscribe pf ck sv subId channel request).2.buffer = sv.subHandler.buffer := by
  unfold processSubscribe SubscriptionHandler.subscribe
  cases validateRequest pf schemaSubscribe request with
  | error e => rfl
  | ok _ =>
    cases text request "path" with
    | error e => rfl
    | ok path =>
      cases text request "requestId" with
      | error e => rfl
      | ok requestId =>
        dsimp only
        cases SubscriptionHandler.checkSubscribe pf.jsonPath pf.regex sv.database channel path <;>
          rfl

variable (pf ck sv request) in
/-- Without the right to change the trees, only a set changes the database, and only a set
publishes. -/
theorem dispatch_database (subId : SubscriptionId) (hm : channel.modifyTree = false) :
    ((dispatch pf ck sv subId channel request).2.1.database = sv.database ∧
      (dispatch pf ck sv subId channel request).2.1.subHandler.buffer = sv.subHandler.buffer) ∨
      text request "action" = .ok "set" ∧
        (dispatch pf ck sv subId channel request).1 =
          (processSet pf ck sv.database channel request).1 ∧
        (dispatch pf ck sv subId channel request).2.1.database =
          (processSet pf ck sv.database channel request).2.1 ∧
        (dispatch pf ck sv subId channel request).2.1.subHandler =
          publishAll sv.subHandler (processSet pf ck sv.database channel request).2.2 := by
  unfold dispatch
  cases text request "action" with
  | error e => exact .inl ⟨rfl, rfl⟩
  | ok action =>
    by_cases h1 : action = "get"
    · simp only [if_pos h1, and_self, true_or]
    simp only [if_neg h1]
    by_cases h2 : action = "set"
    · rw [if_pos h2]
      exact .inr ⟨congrArg Except.ok h2, rfl, rfl, rfl⟩
    simp only [if_neg h2]
    left
    by_cases h3 : action = "getMetaData"
    · simp only [if_pos h3, and_self]
    simp only [if_neg h3]
    by_cases h4 : action = "updateMetaData"
    · simp only [if_pos h4, and_true]
      exact (processUpdateMetaData_unauthorized pf ck sv.database sv.database request hm).2
    simp only [if_neg h4]
    by_cases h5 : action = "authorize"
    · simp only [if_pos h5]
      cases text request "tokens" with
      | error e => exact ⟨rfl, rfl⟩
      | ok token =>
        cases text request "requestId" with
        | error e => exact ⟨rfl, rfl⟩
        | ok requestId => exact ⟨rfl, rfl⟩
    simp only [if_neg h5]
    by_cases h6 : action = "unsubscribe"
    · simp only [if_pos h6, true_and]
      exact processUnsubscribe_buffer
    simp only [if_neg h6]
    by_cases h7 : action = "subscribe"
    · simp only [if_pos h7, true_and]
      exact processSubscribe_buffer subId
    simp only [if_neg h7]
    by_cases h8 : action = "updateVSSTree"
    · simp only [if_pos h8, and_true]
      exact (processUpdateVSSTree_unauthorized pf ck sv.database sv.database request hm).2
    · simp only [if_neg h8, and_self]

/-- A set that stores a value leaves the metadata. -/
theorem metadata_of_stores {jp : JsonPath} {nm : Numerics} {db db' : VssDatabase} {path : VSSPath}
    {attr : String} {value node stored : Json} {m : Loc}
    (hst : Stores jp nm ck db db' path attr value m node stored) (hm : IsNodeLoc m)
    (ha : attr = "value" ∨ attr = "targetValue") :
    prune isRuntime db.dataTree = prune isRuntime db'.dataTree := by
  rw [hst.replaced]
  exact (prune_setAt_eq children_not_runtime hm hst.resolves.located
    (pruneNode_storedNode (fun _ h => h) ck node ha stored)).symm

/-- A set that stores a value leaves every signal but its own. -/
theorem sameSignal_of_stores {jp : JsonPath} {nm : Numerics} {db db' : VssDatabase} {path : VSSPath}
    {attr' : String} {value node stored : Json} {m : Loc}
    (hst : Stores jp nm ck db db' path attr' value m node stored)
    (hm : IsNodeLoc m) (ha' : attr' = "value" ∨ attr' = "targetValue") (hl : IsNodeLoc l)
    (ha : attr = "value" ∨ attr = "targetValue") (hne : ¬ (m = l ∧ attr' = attr)) :
    SameSignal l attr db db' := by
  have hmeta := metadata_of_stores hst hm ha'
  obtain ⟨hr, hd, -, rfl⟩ := hst
  refine ⟨hmeta, ?_⟩
  intro k hk
  refine (at?_set ck hm hl hr.located (isObject_of_contains hd) ha' stored
    (isRuntime_of_written ha hk) ?_).symm
  rintro rfl hk'
  refine hne ⟨rfl, ?_⟩
  have hdisj : ∀ k ∈ writtenKeys "value", k ∉ writtenKeys "targetValue" := by decide
  rcases ha with rfl | rfl <;> rcases ha' with rfl | rfl
  · rfl
  · exact absurd hk' (hdisj k hk)
  · exact absurd hk (hdisj k hk')
  · rfl

theorem handle_parsed {a : ChannelRequest} (hp : pf.parse a.request.reqJson = .ok request) :
    handle pf sv a =
      (settle a.request.clock
          (dispatch pf a.request.clock sv a.request.subId a.channel request).1,
        (dispatch pf a.request.clock sv a.request.subId a.channel request).2.1) := by
  unfold handle
  rw [processQuery_parsed pf a.request.clock hp]

/-- A request that does not set a signal leaves it as it is. -/
theorem handle_sameSignal {a : ChannelRequest} (ho : ObservedServer.Ordinary pf a.channel a.request)
    (hl : IsNodeLoc l) (ha : attr = "value" ∨ attr = "targetValue")
    (hno : ¬ SetsAt pf sv a l attr) :
    SameSignal l attr sv.database (handle pf sv a).2.database := by
  cases hp : pf.parse a.request.reqJson with
  | error e =>
    unfold handle
    rw [processQuery_not_parsed hp]
    exact .refl _
  | ok request =>
    have hplain := ho.plain request hp
    rw [handle_parsed hp]
    rcases dispatch_database pf a.request.clock sv request a.request.subId ho.modifyTree with
      ⟨hd, -⟩ | ⟨hact, hans, hd, -⟩
    · simp only [hd]
      exact .refl _
    · simp only [hd]
      rcases processSet_cases pf a.request.clock sv.database a.channel request with
        ⟨-, he⟩ | ⟨path, requestId, value, db', m, node, stored, hpath, -, -, -, hst, -, ha', he⟩
      · rw [he]
        exact .refl _
      · have hm := (nodeQuery_fromVSS (hplain path hpath)).isNodeLoc hst.resolves.unique
          (List.mem_singleton_self m)
        rw [he]
        refine sameSignal_of_stores hst hm (ha'.symm.imp id And.left) hl ha ?_
        rintro ⟨rfl, hattr⟩
        refine hno ⟨request, path, requestId, hp, hact, hattr, hpath, hst.resolves.unique, ?_⟩
        rw [handle_parsed hp, hans, he]
        rfl

/-- A run without a set of a signal leaves it as it is. -/
theorem run_sameSignal (hl : IsNodeLoc l) (ha : attr = "value" ∨ attr = "targetValue")
    (as : List ChannelRequest)
    (has : Answering.Throughout (fun sv a =>
      ObservedServer.Ordinary pf a.channel a.request ∧ ¬ SetsAt pf sv a l attr) (handle pf) sv as) :
    SameSignal l attr sv.database (Answering.run (handle pf) sv as).2.database := by
  induction as generalizing sv with
  | nil => exact .refl _
  | cons a as ih =>
    obtain ⟨⟨ho, hno⟩, has⟩ := has
    exact (handle_sameSignal ho hl ha hno).trans (ih has)

/-- A path that resolves to a leaf has it as its only leaf. -/
theorem getLeafPaths_leaf {db : VssDatabase} {path : VSSPath} {node : Json}
    (hr : Resolves pf.jsonPath db.dataTree path l node) (hs : IsSignal node) :
    db.getLeafPaths pf.jsonPath path = .ok [.fromJSON l.toPath path.isGen1Origin] := by
  have hb : typeReads "branch" node = false := by
    rw [Bool.eq_false_iff, ne_eq, typeReads_iff (by decide)]
    rcases hs with (hs | hs) | hs <;> simp [hs]
  simp [getLeafPaths, getLeafPathsWithin_succ _ hr.unique, collectLeafPaths,
    jsonQuery_toPath hr.located, hb]

theorem settle_eq_setAnswer {r : Except Exn Json} {id : String}
    (h : settle ck r = .ok (setAnswer ck id)) : r = .ok (setAnswer ck id) := by
  cases r with
  | error e =>
    simp only [settle] at h
    split_ifs at h
    exact absurd (Except.ok.inj h) (ne_setAnswer (errorAnswer_contains_error ..) id)
  | ok answer => exact h

/-- What a set with success has stored, and where. -/
theorem SetsAt.stores {a : ChannelRequest} (h : SetsAt pf sv a l attr) :
    ∃ request path value node stored db', pf.parse a.request.reqJson = .ok request ∧
      text request "path" = .ok path ∧ request.member attr = .ok value ∧
      Stores pf.jsonPath pf.numerics a.request.clock sv.database db' (.fromVSS path) attr value l
        node stored ∧
      IsSettable node ∧
      (attr = "targetValue" ∧ node.get? "type" = some (.str "actuator") ∨ attr = "value") ∧
      (handle pf sv a).2.database = db' := by
  obtain ⟨request, path, id, hp, hact, rfl, hpath, hm, hans⟩ := h
  have hd : dispatch pf a.request.clock sv a.request.subId a.channel request =
      ((processSet pf a.request.clock sv.database a.channel request).1, { sv with
        database := (processSet pf a.request.clock sv.database a.channel request).2.1,
        subHandler := publishAll sv.subHandler
          (processSet pf a.request.clock sv.database a.channel request).2.2 }, a.channel) := by
    simp [dispatch, hact]
  rw [handle_parsed hp, hd] at hans ⊢
  have hset : (processSet pf a.request.clock sv.database a.channel request).1 =
      .ok (setAnswer a.request.clock id) := settle_eq_setAnswer hans
  rcases processSet_cases pf a.request.clock sv.database a.channel request with
    ⟨hno, -⟩ | ⟨path', requestId, value, db', m, node, stored, hpath', -, hval, -, hst, hs, ha, he⟩
  · exact absurd hset (hno id)
  · obtain rfl : path = path' := Except.ok.inj (hpath.symm.trans hpath')
    obtain rfl : l = m := by simpa [hm] using hst.resolves.unique
    exact ⟨request, path, value, node, stored, db', hp, hpath, hval, hst, hs, ha, by rw [he]⟩

/-- A read of a signal that is as it was after a set shows what was set. -/
theorem getSignal_sameSignal {before db db' : VssDatabase} {path : VSSPath}
    {value node stored : Json}
    (hst : Stores pf.jsonPath pf.numerics ck before db path attr value l node stored)
    (ha : attr = "value" ∨ attr = "targetValue") (h : SameSignal l attr db db') {node' : Json}
    (hn' : db'.dataTree.at? l = some node') (ck' : Clock) (gen1 asString : Bool) :
    ∃ dp, db'.getSignal pf.jsonPath pf.numerics ck' (.fromJSON l.toPath gen1) attr asString =
        .ok dp ∧
      shownValue dp attr = some (if asString then .str stored.asString else stored) := by
  obtain ⟨hr, hd, -, rfl⟩ := hst
  have ho := isObject_of_contains hd
  have hk : ∀ k ∈ writtenKeys attr, node'.get? k = (storedNode ck node attr stored).get? k := by
    intro k hk
    have hv := h.values k hk
    rw [at?_setAt_append (by simp [hr.located]), at?_append, hn', Option.bind_some, at?_key,
      at?_key] at hv
    exact hv.symm
  obtain ⟨d, hdp, hg⟩ := datapointOf_storedNode pf.numerics ck ho ha ck'
    (.fromJSON l.toPath gen1) stored asString
  rw [← datapointOf_congr _ attr asString hk] at hdp
  refine ⟨ofMembers [("path", .str (VSSPath.fromJSON l.toPath gen1).toString), ("dp", d)], ?_, ?_⟩
  · simp [getSignal, VSSPath.getJSONPath, jsonQuery_toPath hn', elementAt, hdp, Except.map]
  · simp [shownValue, get?_ofMembers, Members.get?_cons, hg]

/-- A well-formed get of the attribute of a path. -/
structure Gets (pf : Platform) (request : Json) (path attr requestId : String) : Prop where
  action : text request "action" = .ok "get"
  valid : valid pf.numerics schemaGet request = true
  path : text request "path" = .ok path
  attr : attributeOf request = attr
  requestId : text request "requestId" = .ok requestId

/-- A get of one leaf that may be read is answered with its datapoint. -/
theorem handle_get {a : ChannelRequest} {path requestId : String} {node dp : Json}
    (hp : pf.parse a.request.reqJson = .ok request) (hg : Gets pf request path attr requestId)
    (hr : Resolves pf.jsonPath sv.database.dataTree (.fromVSS path) l node) (hs : IsSettable node)
    (ht : attr = "targetValue" ∧ node.get? "type" = some (.str "actuator") ∨ attr = "value")
    (hread : checkReadAccess pf.regex a.channel
      (.fromJSON l.toPath (VSSPath.fromVSS path).isGen1Origin) = .ok true)
    (hdp : sv.database.getSignal pf.jsonPath pf.numerics a.request.clock
      (.fromJSON l.toPath (VSSPath.fromVSS path).isGen1Origin) attr
      (a.channel.typeOfConnection ≠ .grpc) = .ok dp) :
    (handle pf sv a).1 = .ok (getAnswer a.request.clock requestId dp) := by
  have hval : validateRequest pf schemaGet request = .ok () :=
    (validate_eq_ok_iff pf.numerics).mpr hg.valid
  have hatt : sv.database.pathIsAttributable pf.jsonPath (.fromVSS path) attr = .ok true := by
    rw [hr.pathIsAttributable, decide_eq_true ht]
  have hperf : performGet pf a.request.clock sv.database a.channel (.fromVSS path) path attr
      requestId = .ok (getAnswer a.request.clock requestId dp) := by
    simp only [performGet, getLeafPaths_leaf hr (.inl hs), collectDatapoints, hread, hatt, hdp,
      dataOf, List.cons_ne_nil, if_false]
  have hget : processGet pf a.request.clock sv.database a.channel request =
      .ok (getAnswer a.request.clock requestId dp) := by
    simp only [processGet, hg.path, hval, hg.requestId, hg.attr, hperf]
  rw [handle_parsed hp]
  simp [dispatch, hg.action, hget, settle]

/-- A get of a leaf whose attribute is as it was after a set is answered with what was stored. -/
theorem get_of_stores {before db' : VssDatabase} {setPath : VSSPath} {value node stored : Json}
    (hst : Stores pf.jsonPath pf.numerics ck before db' setPath attr value l node stored)
    (hl : IsNodeLoc l) (hs : IsSettable node)
    (ht : attr = "targetValue" ∧ node.get? "type" = some (.str "actuator") ∨ attr = "value")
    (hsame : SameSignal l attr db' sv.database) {reader : ChannelRequest} {path requestId : String}
    (hp : pf.parse reader.request.reqJson = .ok request)
    (hg : Gets pf request path attr requestId) (hplain : VSSPath.Plain path)
    (hm : pf.jsonPath.matches? before.dataTree (VSSPath.fromVSS path).jsonpath = .ok [l])
    (hread : checkReadAccess pf.regex reader.channel
      (.fromJSON l.toPath (VSSPath.fromVSS path).isGen1Origin) = .ok true) :
    ∃ dp, (handle pf sv reader).1 = .ok (getAnswer reader.request.clock requestId dp) ∧
      shownValue dp attr =
        some (if reader.channel.typeOfConnection ≠ .grpc then .str stored.asString
          else stored) := by
  have ha : attr = "value" ∨ attr = "targetValue" := ht.symm.imp id And.left
  -- Neither the set nor what came after it changes the metadata, so the path goes on resolving.
  have hmeta := metadata_of_stores hst hl ha
  have hr : Resolves pf.jsonPath before.dataTree (.fromVSS path) l node :=
    ⟨hm, hst.resolves.located⟩
  obtain ⟨node', hr', hnode⟩ := (nodeQuery_fromVSS hplain).resolves (hmeta.trans hsame.metadata) hr
  have htype : node'.get? "type" = node.get? "type" :=
    (get?_of_pruneNode hnode (by decide) (by decide)).symm
  obtain ⟨dp, hdp, hshown⟩ := getSignal_sameSignal hst ha hsame hr'.located reader.request.clock
    (VSSPath.fromVSS path).isGen1Origin (reader.channel.typeOfConnection ≠ .grpc)
  refine ⟨dp, handle_get hp hg hr' ?_ ?_ hread hdp, by simpa using hshown⟩
  · simpa only [IsSettable, htype] using hs
  · rwa [htype]

/-- After a set with success, and any requests of any clients that do not set the same attribute of
the same signal with success, a get of it by a client that may read it is answered with the value
that the set has stored. -/
theorem get_last_set (pf : Platform) (sv : Server) (l : Loc) (attr : String)
    (setter : ChannelRequest) (as : List ChannelRequest) (reader : ChannelRequest)
    (hsetter : ObservedServer.Ordinary pf setter.channel setter.request)
    (hset : SetsAt pf sv setter l attr)
    (has : Answering.Throughout (fun sv a =>
      ObservedServer.Ordinary pf a.channel a.request ∧ ¬ SetsAt pf sv a l attr) (handle pf)
      (handle pf sv setter).2 as)
    (request : Json) (path requestId : String)
    (hp : pf.parse reader.request.reqJson = .ok request)
    (hg : Gets pf request path attr requestId) (hplain : VSSPath.Plain path)
    (hm : pf.jsonPath.matches? sv.database.dataTree (VSSPath.fromVSS path).jsonpath = .ok [l])
    (hread : checkReadAccess pf.regex reader.channel
      (.fromJSON l.toPath (VSSPath.fromVSS path).isGen1Origin) = .ok true) :
    ∃ setRequest value node stored dp, pf.parse setter.request.reqJson = .ok setRequest ∧
      setRequest.member attr = .ok value ∧ sv.database.dataTree.at? l = some node ∧
      checkAndSanitizeType pf.numerics node value = .ok stored ∧
      (handle pf (Answering.run (handle pf) (handle pf sv setter).2 as).2 reader).1 =
        .ok (getAnswer reader.request.clock requestId dp) ∧
      shownValue dp attr =
        some (if reader.channel.typeOfConnection ≠ .grpc then .str stored.asString
          else stored) := by
  obtain ⟨setRequest, setPath, value, node, stored, db', hsp, hspath, hval, hst, hs, ht, hdb⟩ :=
    hset.stores
  have ha : attr = "value" ∨ attr = "targetValue" := ht.symm.imp id And.left
  have hl := (nodeQuery_fromVSS (hsetter.plain setRequest hsp setPath hspath)).isNodeLoc
    hst.resolves.unique (List.mem_singleton_self l)
  have hsame := run_sameSignal hl ha as has
  rw [hdb] at hsame
  obtain ⟨dp, hans, hshown⟩ := get_of_stores hst hl hs ht hsame hp hg hplain hm hread
  exact ⟨setRequest, value, node, stored, dp, hsp, hval, hst.resolves.located, hst.sanitized, hans,
    hshown⟩

section Range
open ObservedServer

def rangeReader : KuksaChannel :=
  { connectionID := 3, permissions := [("Vehicle.Range", .str "r")] }

/-- The range is set, another client reads the speed, and a third one the range. -/
theorem get_last_set_range : ∃ dp,
    (handle (.basic carRequest) (Answering.run (handle (.basic carRequest))
        (handle (.basic carRequest) carStart.server ⟨rangeSetter, ⟨midnight, 0, "set"⟩⟩).2
        [⟨speedObserver, ⟨midnight, 0, "get"⟩⟩]).2 ⟨rangeReader, ⟨midnight, 0, "read"⟩⟩).1 =
      .ok (getAnswer midnight "3" dp) ∧ shownValue dp "value" = some (.str "7") := by
  have hset : SetsAt (.basic carRequest) carStart.server ⟨rangeSetter, ⟨midnight, 0, "set"⟩⟩
      (VSSPath.nodeLoc ["Vehicle", "Range"]) "value" :=
    ⟨_, "Vehicle.Range", "1", rfl, rfl, rfl, rfl, matches_range, by decide +kernel⟩
  have hno (sv : Server) : ¬ SetsAt (.basic carRequest) sv ⟨speedObserver, ⟨midnight, 0, "get"⟩⟩
      (VSSPath.nodeLoc ["Vehicle", "Range"]) "value" := by
    rintro ⟨request, path, id, hp, hact, -⟩
    obtain rfl := Except.ok.inj hp
    exact absurd (Except.ok.inj hact) (by decide)
  obtain ⟨setRequest, value, node, stored, dp, hp, hval, hnode, hst, hans, hshown⟩ :=
    get_last_set (.basic carRequest) carStart.server (VSSPath.nodeLoc ["Vehicle", "Range"]) "value"
      ⟨rangeSetter, ⟨midnight, 0, "set"⟩⟩ [⟨speedObserver, ⟨midnight, 0, "get"⟩⟩]
      ⟨rangeReader, ⟨midnight, 0, "read"⟩⟩ ⟨rfl, fun _ => plain_carRequest⟩ hset
      ⟨⟨⟨rfl, fun _ => plain_carRequest⟩, hno _⟩, trivial⟩ _ "Vehicle.Range" "3" rfl
      ⟨rfl, by decide +kernel, rfl, rfl, rfl⟩ (by decide +kernel) matches_range (by decide +kernel)
  refine ⟨dp, hans, ?_⟩
  obtain rfl := Except.ok.inj hp
  obtain rfl := Except.ok.inj hval
  have hat : carStart.server.database.dataTree.at? (VSSPath.nodeLoc ["Vehicle", "Range"]) =
      some (.obj [("datatype", .str "uint8"), ("type", .str "sensor"), ("value", .int 1)]) := by
    decide +kernel
  obtain rfl := Option.some.inj (hat.symm.trans hnode)
  have hsan : checkAndSanitizeType .decimal
      (.obj [("datatype", .str "uint8"), ("type", .str "sensor"), ("value", .int 1)]) (.int 7) =
        .ok (.int 7) := by decide +kernel
  obtain rfl := Except.ok.inj (hsan.symm.trans hst)
  rw [hshown]
  decide +kernel

end Range

end VssCommandProcessor
