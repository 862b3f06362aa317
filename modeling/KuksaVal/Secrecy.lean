import KuksaVal.InformationFlow
import KuksaVal.MetadataReads
import KuksaVal.Requests
import KuksaVal.TokenRights
import KuksaVal.VssDatabaseRecord

/-! Secrecy: what a client is answered, and what it is notified of, does not depend on the values of
signals that it may not read. -/
namespace VssDatabase
open Json
open MetaDataUpdates (at?_key at?_set writtenKeys isRuntime_of_written)

/-- Two databases that differ at most in the values of nodes that are not seen. -/
structure SameSeen (seen : Loc → Prop) (db db' : VssDatabase) : Prop where
  metaTree : db.metaTree = db'.metaTree
  metadata : prune isRuntime db.dataTree = prune isRuntime db'.dataTree
  values : ∀ l k, IsNodeLoc l → seen l → isRuntime k = true →
    db.dataTree.at? (l ++ [.key k]) = db'.dataTree.at? (l ++ [.key k])

variable {jp : JsonPath} {nm : Numerics} {ck : Clock} {seen : Loc → Prop} {db db' : VssDatabase}

theorem SameSeen.refl (db : VssDatabase) : SameSeen seen db db := ⟨rfl, rfl, fun _ _ _ _ _ => rfl⟩

theorem SameSeen.symm (h : SameSeen seen db db') : SameSeen seen db' db :=
  ⟨h.metaTree.symm, h.metadata.symm, fun l k hl hs hk => (h.values l k hl hs hk).symm⟩

theorem SameSeen.trans {db'' : VssDatabase} (h : SameSeen seen db db')
    (h' : SameSeen seen db' db'') : SameSeen seen db db'' :=
  ⟨h.metaTree.trans h'.metaTree, h.metadata.trans h'.metadata,
    fun l k hl hs hk => (h.values l k hl hs hk).trans (h'.values l k hl hs hk)⟩

/-- The datapoint of a node is made of the members that a set writes. -/
theorem datapointOf_congr {node node' : Json} (path : VSSPath) (attr : String) (asString : Bool)
    (hk : ∀ k ∈ writtenKeys attr, node.get? k = node'.get? k) :
    datapointOf nm ck path attr asString node = datapointOf nm ck path attr asString node' := by
  unfold datapointOf storedTimeStamp
  rw [hk attr (by simp [writtenKeys]), hk ("ts_s-" ++ attr) (by simp [writtenKeys]),
    hk ("ts_ns-" ++ attr) (by simp [writtenKeys])]

/-- A leaf that is seen is read alike. -/
theorem SameSeen.getSignal (h : SameSeen seen db db') {l : Loc} (hl : IsNodeLoc l) (hs : seen l)
    (hat : (db.dataTree.at? l).isSome) (gen1 : Bool) {attr : String}
    (ha : attr = "value" ∨ attr = "targetValue") (asString : Bool) :
    db.getSignal jp nm ck (.fromJSON l.toPath gen1) attr asString =
      db'.getSignal jp nm ck (.fromJSON l.toPath gen1) attr asString := by
  obtain ⟨node, hn⟩ := Option.isSome_iff_exists.mp hat
  have hmap := map_at?_of_prune children_not_runtime hl h.metadata.symm
  rw [hn, Option.map_some] at hmap
  obtain ⟨node', hn', -⟩ := Option.map_eq_some_iff.mp hmap
  have hk (k : String) (hk : isRuntime k = true) : node.get? k = node'.get? k := by
    have hv := h.values l k hl hs hk
    rwa [at?_append, at?_append, hn, hn', Option.bind_some, Option.bind_some, at?_key,
      at?_key] at hv
  simp only [VssDatabase.getSignal, VSSPath.getJSONPath, VSSPath.fromJSON_jsonpath,
    jsonQuery_toPath hn, jsonQuery_toPath hn', elementAt, List.getElem?_cons_zero]
  rw [datapointOf_congr _ attr asString fun k hw => hk k (isRuntime_of_written ha hw)]

/-- What the sanitizer reads of a node is metadata. -/
theorem checkAndSanitizeType_congr {node node' : Json}
    (h : pruneNode isRuntime node = pruneNode isRuntime node')
    (hd : node.contains "datatype" = true) (v : Json) :
    checkAndSanitizeType nm node v = checkAndSanitizeType nm node' v := by
  have hk (k : String) (hr : isRuntime k = false) (hc : k ≠ "children") :=
    get?_of_pruneNode h hr hc
  obtain ⟨d, hd⟩ : ∃ d, node.get? "datatype" = some d := Option.isSome_iff_exists.mp hd
  have hd' := (hk "datatype" (by decide) (by decide)).symm.trans hd
  have hnum (t : NumType) (v : Json) : checkNumTypes nm t node v = checkNumTypes nm t node' v := by
    unfold checkNumTypes checkMin checkMax checkBound
    rw [hk "min" (by decide) (by decide), hk "max" (by decide) (by decide), hd, hd']
  have hstr (v : Json) : checkStringType node v = checkStringType node' v := by
    unfold checkStringType checkEnumMember
    rw [hk "allowed" (by decide) (by decide), hk "enum" (by decide) (by decide)]
  have hdisp (arr : String → Except Exn Json) (v : Json) :
      dispatchType nm arr node v = dispatchType nm arr node' v := by
    unfold dispatchType
    rw [member_of_get? hd, member_of_get? hd']
    simp only [hnum, hstr]
  cases v <;>
  · unfold checkAndSanitizeType
    exact hdisp _ _

section Sets
variable {node node' : Json} {l : Loc} {attr : String} {path : VSSPath}
  (he : pruneNode isRuntime node = pruneNode isRuntime node') (ho : node.isObject = true)
  (ho' : node'.isObject = true)
include he ho ho'

/-- What a set writes into a node, and its metadata, do not depend on what the node held. -/
theorem get?_storedNode_congr (v : Json) {k : String}
    (hk : k ∈ writtenKeys attr ∨ isRuntime k = false ∧ k ≠ "children") :
    (storedNode ck node attr v).get? k = (storedNode ck node' attr v).get? k := by
  rw [get?_storedNode ho, get?_storedNode ho']
  split_ifs
  · rfl
  · rfl
  · rfl
  · rcases hk with hk | ⟨hr, hc⟩
    · simp_all [writtenKeys]
    · exact get?_of_pruneNode he hr hc

theorem publicationOf_congr (v : Json) :
    publicationOf path attr v (storedNode ck node attr v) =
      publicationOf path attr v (storedNode ck node' attr v) := by
  have hk (k : String) (h : k ∈ writtenKeys attr ∨ isRuntime k = false ∧ k ≠ "children") :
      (storedNode ck node attr v).get? k = (storedNode ck node' attr v).get? k :=
    get?_storedNode_congr he ho ho' v h
  unfold publicationOf publishedData
  rw [hk ("ts_s-" ++ attr) (.inl (by simp [writtenKeys])),
    hk ("ts_ns-" ++ attr) (.inl (by simp [writtenKeys])),
    hk "datatype" (.inr ⟨by decide, by decide⟩)]

theorem SameSeen.stored (h : SameSeen seen db db') (hl : IsNodeLoc l)
    (hn : db.dataTree.at? l = some node) (hn' : db'.dataTree.at? l = some node')
    (ha : attr = "value" ∨ attr = "targetValue") (v : Json) :
    SameSeen seen { db with dataTree := db.dataTree.setAt l (storedNode ck node attr v) }
      { db' with dataTree := db'.dataTree.setAt l (storedNode ck node' attr v) } := by
  refine ⟨h.metaTree, ?_, ?_⟩
  · have hp := prune_setAt_eq children_not_runtime hl hn
      (pruneNode_storedNode (fun _ h => h) ck node ha v)
    have hp' := prune_setAt_eq children_not_runtime hl hn'
      (pruneNode_storedNode (fun _ h => h) ck node' ha v)
    exact hp.trans (h.metadata.trans hp'.symm)
  · intro m k hm hs hk
    by_cases hw : m = l ∧ k ∈ writtenKeys attr
    · obtain ⟨rfl, hw⟩ := hw
      rw [at?_setAt_append (by simp [hn]), at?_setAt_append (by simp [hn']), at?_key, at?_key,
        get?_storedNode_congr he ho ho' v (.inl hw)]
    · have hne : m = l → k ∉ writtenKeys attr := fun hm hw' => hw ⟨hm, hw'⟩
      rw [at?_set ck hl hm hn ho ha v hk hne, at?_set ck hl hm hn' ho' ha v hk hne,
        h.values m k hm hs hk]

end Sets

variable (jp nm ck) in
/-- A set does the same in both databases, and answers and publishes the same. -/
theorem SameSeen.setSignal (h : SameSeen seen db db') {path : VSSPath}
    (hp : NodeQuery path.jsonpath) {attr : String} (ha : attr = "value" ∨ attr = "targetValue")
    (value : Json) :
    (db.setSignal jp nm ck path attr value).1 = (db'.setSignal jp nm ck path attr value).1 ∧
      SameSeen seen (db.setSignal jp nm ck path attr value).2.1
        (db'.setSignal jp nm ck path attr value).2.1 ∧
      (db.setSignal jp nm ck path attr value).2.2 =
        (db'.setSignal jp nm ck path attr value).2.2 := by
  obtain ⟨vs, vs', hq, hq', hall⟩ := hp.query jp h.metadata
  unfold VssDatabase.setSignal VSSPath.getJSONPath
  rw [hq, hq']
  cases hall with
  | nil => exact ⟨rfl, h, rfl⟩
  | @cons node node' vs vs' he hall =>
    cases hall with
    | cons _ _ => exact ⟨rfl, h, rfl⟩
    | nil =>
      obtain ⟨l, hr⟩ := jsonQuery_singleton_iff.mp hq
      obtain ⟨l', hr'⟩ := jsonQuery_singleton_iff.mp hq'
      obtain rfl : l' = l := by
        have hu := (hp.matches? jp h.metadata).symm.trans hr.unique
        simpa [hr'.unique] using hu
      have hd : node'.contains "datatype" = node.contains "datatype" := by
        unfold contains
        rw [get?_of_pruneNode he (by decide) (by decide)]
      simp only [hd]
      split_ifs with hc
      · rw [← checkAndSanitizeType_congr he hc]
        cases hs : checkAndSanitizeType nm node value with
        | error e => exact ⟨rfl, h, rfl⟩
        | ok v =>
          simp only [hr.jsonReplace, hr'.jsonReplace]
          have ho := isObject_of_contains hc
          have ho' := isObject_of_contains (hd.trans hc)
          have hpub : publicationOf path attr v (storedNode ck node attr v) = _ :=
            publicationOf_congr he ho ho' v
          have hloc := hp.isNodeLoc hr.unique (List.mem_singleton_self l')
          exact ⟨congrArg (fun p : Publication => Except.ok p.data) hpub,
            h.stored he ho ho' hloc hr.located hr'.located ha v,
            congrArg (fun p => [p]) hpub⟩
      · exact ⟨rfl, h, rfl⟩

end VssDatabase

namespace VssCommandProcessor
open Json JsonResponses VSSRequestValidator AccessChecker VssDatabase

/-- The paths of a request are plain texts. -/
def PlainPath (request : Json) : Prop :=
  ∀ path, text request "path" = .ok path → VSSPath.Plain path

/-- Two servers that differ at most in values that are not seen, and in what is notified to others
than the channel with this connection. -/
structure SameServer (seen : Loc → Prop) (connID : ℕ) (sv sv' : Server) : Prop where
  database : SameSeen seen sv.database sv'.database
  tokenValidator : sv.tokenValidator = sv'.tokenValidator
  subscriptions : sv.subHandler.subscriptions = sv'.subHandler.subscriptions
  buffer : (sv.subHandler.buffer.filter fun n => decide (n.channel.connectionID = connID)) =
    sv'.subHandler.buffer.filter fun n => decide (n.channel.connectionID = connID)

variable {pf : Platform} {ck : Clock} {seen : Loc → Prop} {heard : String → Prop} {connID : ℕ}
  {db db' : VssDatabase}
  {sv sv' : Server} {channel : KuksaChannel} {request : Json}

section Get

/-- The channel reads no leaf but what is seen, and subscribes to no path but what is heard. -/
structure ReadsWithin (pf : Platform) (seen : Loc → Prop) (heard : String → Prop)
    (channel : KuksaChannel) : Prop where
  leaves : ∀ l gen1, checkReadAccess pf.regex channel (.fromJSON l.toPath gen1) = .ok true → seen l
  paths : ∀ path, checkReadAccess pf.regex channel (.fromVSS path) = .ok true →
    heard (VSSPath.fromVSS path).getVSSPath

theorem collectDatapoints_congr (h : SameSeen seen db db') (hr : ReadsWithin pf seen heard channel)
    {path : VSSPath} (hp : NodeQuery path.jsonpath) (pathStr requestId : String) {attr : String}
    (ha : attr = "value" ∨ attr = "targetValue") {paths : List VSSPath}
    (hl : ∀ q ∈ paths, ∃ l gen1, q = .fromJSON l.toPath gen1 ∧ IsNodeLoc l ∧
      (db.dataTree.at? l).isSome) :
    collectDatapoints pf ck db channel path pathStr attr requestId paths =
      collectDatapoints pf ck db' channel path pathStr attr requestId paths := by
  induction paths with
  | nil => rfl
  | cons q paths ih =>
    obtain ⟨l, gen1, rfl, hloc, hat⟩ := hl q List.mem_cons_self
    unfold collectDatapoints
    rw [pathIsAttributable_congr hp h.metadata, ih fun q hq => hl q (List.mem_cons_of_mem _ hq)]
    cases hc : checkReadAccess pf.regex channel (.fromJSON l.toPath gen1) with
    | error e => rfl
    | ok granted =>
      cases granted with
      | false => rfl
      | true => rw [h.getSignal hloc (hr.leaves l gen1 hc) hat gen1 ha]

theorem processGet_congr (h : SameSeen seen db db') (hr : ReadsWithin pf seen heard channel)
    (hp : PlainPath request) :
    processGet pf ck db channel request = processGet pf ck db' channel request := by
  unfold processGet
  cases ht : text request "path" with
  | error e => rfl
  | ok path =>
    have hq := nodeQuery_fromVSS (hp path ht)
    cases hv : validateRequest pf schemaGet request with
    | error e => rfl
    | ok u =>
      have ha := attributeOf_of_valid ((validate_eq_ok_iff pf.numerics).mp hv)
        (by simp)
      simp only [performGet, getLeafPaths_congr h.metadata hq]
      cases hl : getLeafPaths pf.jsonPath db' (.fromVSS path) with
      | error e => rfl
      | ok paths =>
        have hloc := getLeafPathsWithin_located hq ((getLeafPaths_congr h.metadata hq).trans hl)
        simp only [collectDatapoints_congr h hr hq path _ ha hloc]

end Get

section Set

theorem setRefusal_congr (h : SameSeen seen db db') {path : VSSPath} (hp : NodeQuery path.jsonpath)
    (attr requestId : String) : setRefusal pf ck db channel path attr requestId =
      setRefusal pf ck db' channel path attr requestId := by
  unfold setRefusal
  rw [pathExists_congr hp h.metadata, pathIsWritable_congr hp h.metadata,
    pathIsAttributable_congr hp h.metadata]

/-- Both databases are left in the same state, as far as it is seen, with the same outcome. -/
structure SameOutcome (seen : Loc → Prop)
    (r r' : Except Exn Json × VssDatabase × List Publication) : Prop where
  answer : r.1 = r'.1
  database : SameSeen seen r.2.1 r'.2.1
  publications : r.2.2 = r'.2.2

theorem performSet_congr (h : SameSeen seen db db') {path : VSSPath} (hp : NodeQuery path.jsonpath)
    {attr : String} (ha : attr = "value" ∨ attr = "targetValue") (requestId : String)
    (value : Json) : SameOutcome seen (performSet pf ck db channel path attr requestId value)
      (performSet pf ck db' channel path attr requestId value) := by
  unfold performSet
  rw [setRefusal_congr h hp]
  cases setRefusal pf ck db' channel path attr requestId with
  | error e => exact ⟨rfl, h, rfl⟩
  | ok refusal =>
    cases refusal with
    | some answer => exact ⟨rfl, h, rfl⟩
    | none =>
      obtain ⟨hans, hdb, hpubs⟩ := h.setSignal pf.jsonPath pf.numerics ck hp ha value
      revert hans hdb hpubs
      generalize db.setSignal pf.jsonPath pf.numerics ck path attr value = r
      generalize db'.setSignal pf.jsonPath pf.numerics ck path attr value = r'
      obtain ⟨a, d, ps⟩ := r
      obtain ⟨a', d', ps'⟩ := r'
      rintro rfl hdb rfl
      cases a with
      | error e => exact ⟨rfl, hdb, rfl⟩
      | ok data => exact ⟨rfl, hdb, rfl⟩

theorem processSet_congr (h : SameSeen seen db db') (hp : PlainPath request) :
    SameOutcome seen (processSet pf ck db channel request)
      (processSet pf ck db' channel request) := by
  unfold processSet
  cases hv : validateRequest pf schemaSet request with
  | error e => exact ⟨rfl, h, rfl⟩
  | ok u =>
    have ha := attributeOf_of_valid ((validate_eq_ok_iff pf.numerics).mp hv) (by simp)
    cases ht : text request "path" with
    | error e => exact ⟨rfl, h, rfl⟩
    | ok path =>
      cases text request "requestId" with
      | error e => exact ⟨rfl, h, rfl⟩
      | ok requestId =>
        cases request.member (attributeOf request) with
        | error e => exact ⟨rfl, h, rfl⟩
        | ok value => exact performSet_congr h (nodeQuery_fromVSS (hp path ht)) ha requestId value

end Set

section Servers

theorem SameServer.refl (sv : Server) : SameServer seen connID sv sv := ⟨.refl _, rfl, rfl, rfl⟩

theorem SameServer.symm (h : SameServer seen connID sv sv') : SameServer seen connID sv' sv :=
  ⟨h.database.symm, h.tokenValidator.symm, h.subscriptions.symm, h.buffer.symm⟩

theorem SameServer.trans {sv'' : Server} (h : SameServer seen connID sv sv')
    (h' : SameServer seen connID sv' sv'') : SameServer seen connID sv sv'' :=
  ⟨h.database.trans h'.database, h.tokenValidator.trans h'.tokenValidator,
    h.subscriptions.trans h'.subscriptions, h.buffer.trans h'.buffer⟩

theorem subscriptionsFor_congr {h h' : SubscriptionHandler}
    (hs : h.subscriptions = h'.subscriptions) (key : SubscriptionKey) :
    h.subscriptionsFor key = h'.subscriptionsFor key := by
  unfold SubscriptionHandler.subscriptionsFor
  rw [hs]

/-- Publications change nothing but the buffer. -/
theorem subscriptions_publishAll (h : SubscriptionHandler) (pubs : List Publication) :
    (publishAll h pubs).subscriptions = h.subscriptions := by
  unfold publishAll
  induction pubs generalizing h with
  | nil => rfl
  | cons p ps ih => exact (ih (h.publishForVSSPath p)).trans rfl

/-- The entries that publications put in the buffer depend on the table of subscriptions. -/
theorem buffer_publishAll (h : SubscriptionHandler) (pubs : List Publication) :
    (publishAll h pubs).buffer = h.buffer ++ pubs.flatMap fun p =>
      (h.subscriptionsFor ⟨p.path.getVSSPath, p.attr⟩).map fun sub =>
        ⟨sub.1, sub.2, p.vssdatatype, p.data⟩ := by
  unfold publishAll
  induction pubs generalizing h with
  | nil => simp
  | cons p ps ih =>
    rw [List.foldl_cons, ih]
    simp [SubscriptionHandler.publishForVSSPath, SubscriptionHandler.subscriptionsFor]

theorem SameServer.set (h : SameServer seen connID sv sv') (hp : PlainPath request) :
    SameServer seen connID
      { sv with
        database := (processSet pf ck sv.database channel request).2.1,
        subHandler := publishAll sv.subHandler (processSet pf ck sv.database channel request).2.2 }
      { sv' with
        database := (processSet pf ck sv'.database channel request).2.1,
        subHandler :=
          publishAll sv'.subHandler (processSet pf ck sv'.database channel request).2.2 } := by
  have hs : SameOutcome seen (processSet pf ck sv.database channel request) _ :=
    processSet_congr h.database hp
  refine ⟨hs.database, h.tokenValidator, ?_, ?_⟩
  · rw [subscriptions_publishAll, subscriptions_publishAll]
    exact h.subscriptions
  · simp only [buffer_publishAll, List.filter_append, h.buffer, hs.publications,
      subscriptionsFor_congr h.subscriptions]

variable (pf ck channel) in
theorem SameServer.subscribe (h : SameServer seen connID sv sv') (subId : SubscriptionId)
    (hp : PlainPath request) :
    (processSubscribe pf ck sv subId channel request).1 =
        (processSubscribe pf ck sv' subId channel request).1 ∧
      SameServer seen connID
        { sv with subHandler := (processSubscribe pf ck sv subId channel request).2 }
        { sv' with subHandler := (processSubscribe pf ck sv' subId channel request).2 } := by
  unfold processSubscribe
  cases hv : validateRequest pf schemaSubscribe request with
  | error e => exact ⟨rfl, h⟩
  | ok u =>
    cases ht : text request "path" with
    | error e => exact ⟨rfl, h⟩
    | ok path =>
      cases text request "requestId" with
      | error e => exact ⟨rfl, h⟩
      | ok requestId =>
        have hq := nodeQuery_fromVSS (hp path ht)
        have hc : SubscriptionHandler.checkSubscribe pf.jsonPath pf.regex sv.database channel path =
            SubscriptionHandler.checkSubscribe pf.jsonPath pf.regex sv'.database channel path := by
          unfold SubscriptionHandler.checkSubscribe
          simp only [pathExists_congr hq h.database.metadata,
            pathIsReadable_congr hq h.database.metadata]
        simp only [SubscriptionHandler.subscribe, hc]
        cases SubscriptionHandler.checkSubscribe pf.jsonPath pf.regex sv'.database channel path with
        | error e => exact ⟨rfl, h⟩
        | ok p =>
          refine ⟨rfl, h.database, h.tokenValidator, ?_, h.buffer⟩
          simp only [SubscriptionHandler.enter, subscriptionsFor_congr h.subscriptions,
            h.subscriptions]

variable (pf ck request) in
theorem SameServer.unsubscribe (h : SameServer seen connID sv sv') :
    (processUnsubscribe pf ck sv request).1 = (processUnsubscribe pf ck sv' request).1 ∧
      SameServer seen connID
        { sv with subHandler := (processUnsubscribe pf ck sv request).2 }
        { sv' with subHandler := (processUnsubscribe pf ck sv' request).2 } := by
  unfold processUnsubscribe
  cases hv : validateRequest pf schemaUnsubscribe request with
  | error e => exact ⟨rfl, h⟩
  | ok u =>
    cases text request "requestId" with
    | error e => exact ⟨rfl, h⟩
    | ok requestId =>
      cases text request "subscriptionId" with
      | error e => exact ⟨rfl, h⟩
      | ok subscriptionId =>
        dsimp only
        cases pf.parseUuid subscriptionId with
        | error e => exact ⟨rfl, h⟩
        | ok id =>
          have hu : sv.subHandler.unsubscribe id = ((sv'.subHandler.unsubscribe id).1,
              { (sv'.subHandler.unsubscribe id).2 with buffer := sv.subHandler.buffer }) := by
            simp only [SubscriptionHandler.unsubscribe, h.subscriptions]
          simp only [hu]
          split_ifs
          · exact ⟨rfl, h.database, h.tokenValidator, rfl, h.buffer⟩
          · exact ⟨rfl, h.database, h.tokenValidator, rfl, h.buffer⟩

theorem processGetMetaData_congr (h : db.metaTree = db'.metaTree) :
    processGetMetaData pf ck db request = processGetMetaData pf ck db' request := by
  unfold processGetMetaData getMetaData
  rw [h]

variable (pf ck request db db') in
theorem processUpdateVSSTree_unauthorized (hm : channel.modifyTree = false) :
    (processUpdateVSSTree pf ck db channel request).1 =
        (processUpdateVSSTree pf ck db' channel request).1 ∧
      (processUpdateVSSTree pf ck db channel request).2 = db := by
  unfold processUpdateVSSTree
  cases validateRequest pf schemaUpdateVSSTree request with
  | error e => exact ⟨rfl, rfl⟩
  | ok u =>
    cases text request "requestId" with
    | error e => exact ⟨rfl, rfl⟩
    | ok requestId =>
      cases request.member "metadata" with
      | error e => exact ⟨rfl, rfl⟩
      | ok metadata =>
        simp [updateJsonTree, KuksaChannel.authorizedToModifyTree, hm]

variable (pf ck request db db') in
theorem processUpdateMetaData_unauthorized (hm : channel.modifyTree = false) :
    (processUpdateMetaData pf ck db channel request).1 =
        (processUpdateMetaData pf ck db' channel request).1 ∧
      (processUpdateMetaData pf ck db channel request).2 = db := by
  unfold processUpdateMetaData
  cases text request "path" with
  | error e => exact ⟨rfl, rfl⟩
  | ok path =>
    cases validateRequest pf schemaUpdateMetadata request with
    | error e => exact ⟨rfl, rfl⟩
    | ok u =>
      cases text request "requestId" with
      | error e => exact ⟨rfl, rfl⟩
      | ok requestId =>
        cases request.member "metadata" with
        | error e => exact ⟨rfl, rfl⟩
        | ok metadata =>
          simp [updateMetaData, KuksaChannel.authorizedToModifyTree, hm]

/-- Two outcomes of a request that the observer takes for one another. -/
structure SameReply (pf : Platform) (seen : Loc → Prop) (heard : String → Prop) (connID : ℕ)
    (channel : KuksaChannel) (r r' : Except Exn Json × Server × KuksaChannel) : Prop where
  answer : ReadsWithin pf seen heard channel → r.1 = r'.1
  server : SameServer seen connID r.2.1 r'.2.1
  channel : r.2.2 = r'.2.2

theorem dispatch_congr (subId : SubscriptionId) (h : SameServer seen connID sv sv')
    (hm : channel.modifyTree = false) (hp : PlainPath request) :
    SameReply pf seen heard connID channel (dispatch pf ck sv subId channel request)
      (dispatch pf ck sv' subId channel request) := by
  unfold dispatch
  cases text request "action" with
  | error e => exact ⟨fun _ => rfl, h, rfl⟩
  | ok action =>
    by_cases h1 : action = "get"
    · simp only [if_pos h1]
      exact ⟨fun hr => processGet_congr h.database hr hp, h, rfl⟩
    simp only [if_neg h1]
    by_cases h2 : action = "set"
    · simp only [if_pos h2]
      exact ⟨fun _ => (processSet_congr h.database hp).answer, h.set hp, rfl⟩
    simp only [if_neg h2]
    by_cases h3 : action = "getMetaData"
    · simp only [if_pos h3]
      exact ⟨fun _ => processGetMetaData_congr h.database.metaTree, h, rfl⟩
    simp only [if_neg h3]
    by_cases h4 : action = "updateMetaData"
    · simp only [if_pos h4]
      obtain ⟨hans, hdb⟩ := processUpdateMetaData_unauthorized pf ck sv.database
        sv'.database request hm
      obtain ⟨-, hdb'⟩ := processUpdateMetaData_unauthorized pf ck sv'.database
        sv.database request hm
      refine ⟨fun _ => hans, ?_, rfl⟩
      simp only [hdb, hdb']
      exact h
    simp only [if_neg h4]
    by_cases h5 : action = "authorize"
    · simp only [if_pos h5]
      cases text request "tokens" with
      | error e => exact ⟨fun _ => rfl, h, rfl⟩
      | ok token =>
        cases text request "requestId" with
        | error e => exact ⟨fun _ => rfl, h, rfl⟩
        | ok requestId =>
          simp only [h.tokenValidator]
          exact ⟨fun _ => rfl, h, rfl⟩
    simp only [if_neg h5]
    by_cases h6 : action = "unsubscribe"
    · simp only [if_pos h6]
      obtain ⟨hans, hsv⟩ := h.unsubscribe pf ck request
      exact ⟨fun _ => hans, hsv, rfl⟩
    simp only [if_neg h6]
    by_cases h7 : action = "subscribe"
    · simp only [if_pos h7]
      obtain ⟨hans, hsv⟩ := h.subscribe pf ck channel subId hp
      exact ⟨fun _ => hans, hsv, rfl⟩
    simp only [if_neg h7]
    by_cases h8 : action = "updateVSSTree"
    · simp only [if_pos h8]
      obtain ⟨hans, hdb⟩ := processUpdateVSSTree_unauthorized pf ck sv.database
        sv'.database request hm
      obtain ⟨-, hdb'⟩ := processUpdateVSSTree_unauthorized pf ck sv'.database
        sv.database request hm
      refine ⟨fun _ => hans, ?_, rfl⟩
      simp only [hdb, hdb']
      exact h
    · simp only [if_neg h8]
      exact ⟨fun _ => rfl, h, rfl⟩

theorem processQuery_congr {reqJson : String} (subId : SubscriptionId)
    (h : SameServer seen connID sv sv') (hm : channel.modifyTree = false)
    (hp : ∀ request, pf.parse reqJson = .ok request → PlainPath request) :
    SameReply pf seen heard connID channel (processQuery pf ck sv subId reqJson channel)
      (processQuery pf ck sv' subId reqJson channel) := by
  cases hreq : pf.parse reqJson with
  | error e =>
    rw [processQuery_not_parsed hreq, processQuery_not_parsed hreq]
    exact ⟨fun _ => rfl, h, rfl⟩
  | ok request =>
    obtain ⟨hans, hsv, hch⟩ : SameReply pf seen heard connID channel
        (dispatch pf ck sv subId channel request) (dispatch pf ck sv' subId channel request) :=
      dispatch_congr subId h hm (hp request hreq)
    rw [processQuery_parsed pf ck hreq, processQuery_parsed pf ck hreq]
    exact ⟨fun hr => congrArg (settle ck) (hans hr), hsv, hch⟩

end Servers

section Secrets

/-- The channel with the connection has subscribed to no path but what is heard. -/
def Overheard (heard : String → Prop) (connID : ℕ) (sv : Server) : Prop :=
  ∀ key, ∀ sub ∈ sv.subHandler.subscriptionsFor key, sub.2.connectionID = connID → heard key.path

/-- A signal is set that is not seen, by a path that is not heard. -/
structure SecretSet (pf : Platform) (seen : Loc → Prop) (heard : String → Prop)
    (tree request : Json) : Prop where
  action : text request "action" = .ok "set"
  unheard : ∀ path, text request "path" = .ok path → ¬ heard (VSSPath.fromVSS path).getVSSPath
  unseen : ∀ path ls, text request "path" = .ok path →
    pf.jsonPath.matches? tree (VSSPath.fromVSS path).jsonpath = .ok ls → ∀ l ∈ ls, ¬ seen l

/-- Nothing that is seen changes in a set of what is not seen. -/
theorem SameSeen.unseen {db₁ : VssDatabase} {path : VSSPath} {attr : String}
    {value node stored : Json} {l : Loc}
    (h : Stores pf.jsonPath pf.numerics ck db db₁ path attr value l node stored)
    (ha : attr = "value" ∨ attr = "targetValue") (hl : IsNodeLoc l) (hu : ¬ seen l) :
    SameSeen seen db₁ db := by
  obtain ⟨hr, hd, -, rfl⟩ := h
  have hp := prune_setAt_eq children_not_runtime hl hr.located
    (pruneNode_storedNode (fun _ h => h) ck node ha stored)
  refine ⟨rfl, hp, ?_⟩
  intro m k hm hs hk
  have hne : m ≠ l := by
    rintro rfl
    exact hu hs
  exact MetaDataUpdates.at?_set ck hl hm hr.located (isObject_of_contains hd) ha stored hk
    fun h => absurd h hne

theorem SameServer.secret (h : SameServer seen connID sv sv') (ho : Overheard heard connID sv)
    (hpl : PlainPath request) (hs : SecretSet pf seen heard sv.database.dataTree request)
    (subId : SubscriptionId) :
    SameServer seen connID (dispatch pf ck sv subId channel request).2.1 sv' := by
  have hd : (dispatch pf ck sv subId channel request).2.1 = { sv with
      database := (processSet pf ck sv.database channel request).2.1,
      subHandler := publishAll sv.subHandler
        (processSet pf ck sv.database channel request).2.2 } := by
    simp [dispatch, hs.action]
  rw [hd]
  rcases processSet_cases pf ck sv.database channel request with
    ⟨-, he⟩ | ⟨path, requestId, value, db₁, l, node, stored, hp, -, -, -, hst, -, ha, he⟩
  · rw [he]
    exact h
  · have hq := nodeQuery_fromVSS (hpl path hp)
    have hl := hq.isNodeLoc hst.resolves.unique (List.mem_singleton_self l)
    have hu := hs.unseen path _ hp hst.resolves.unique l (List.mem_singleton_self l)
    have ha' : attributeOf request = "value" ∨ attributeOf request = "targetValue" :=
      ha.symm.imp id And.left
    rw [he]
    refine ⟨(SameSeen.unseen hst ha' hl hu).trans h.database, h.tokenValidator, ?_, ?_⟩
    · simpa only [subscriptions_publishAll] using h.subscriptions
    · have hnone : ∀ sub ∈ sv.subHandler.subscriptionsFor
          ⟨(VSSPath.fromVSS path).getVSSPath, attributeOf request⟩,
          sub.2.connectionID ≠ connID := fun sub hsub hc => hs.unheard path hp (ho _ sub hsub hc)
      simp only [buffer_publishAll, List.flatMap_singleton, List.filter_append, h.buffer]
      refine List.append_right_eq_self.mpr (List.filter_eq_nil_iff.mpr ?_)
      intro n hn
      obtain ⟨sub, hsub, rfl⟩ := List.mem_map.mp hn
      simpa using hnone sub hsub

theorem Effect.connectionID {subId : SubscriptionId} {sv₁ : Server} {channel₁ : KuksaChannel}
    (h : Effect pf ck sv subId channel request sv₁ channel₁) :
    channel₁.connectionID = channel.connectionID := by
  cases h with
  | authorize ha => exact Authenticator.validate_connection.connectionID
  | _ => rfl

/-- A channel subscribes to what it may read. -/
theorem Overheard.effect (ho : Overheard heard connID sv) {subId : SubscriptionId} {sv₁ : Server}
    {channel₁ : KuksaChannel} (h : Effect pf ck sv subId channel request sv₁ channel₁)
    (hr : channel.connectionID = connID → ReadsWithin pf seen heard channel) :
    Overheard heard connID sv₁ := by
  intro key sub hm hc
  cases h with
  | none => exact ho key sub hm hc
  | authorize ha => exact ho key sub hm hc
  | update db hm' => exact ho key sub hm hc
  | set hw hs =>
    refine ho key sub ?_ hc
    rwa [subscriptionsFor_congr (subscriptions_publishAll _ _)] at hm
  | unsubscribe hu =>
    simp only [SubscriptionHandler.subscriptionsFor_unsubscribe] at hm
    exact ho key sub (List.mem_filter.mp hm).1 hc
  | @subscribe path attr hread =>
    simp only [SubscriptionHandler.subscriptionsFor_enter] at hm
    split_ifs at hm with hk
    · rcases Members.mem_assign hm with rfl | hm
      · exact hk ▸ (hr hc).paths path hread
      · exact ho key sub (hk ▸ hm) hc
    · exact ho key sub hm hc

end Secrets

end VssCommandProcessor

/-- A server, with the channel of a client that observes it. -/
structure ObservedServer where
  server : Server
  channel : KuksaChannel

/-- A request of the observer or of another client, and the end of a connection. -/
inductive ServerInput where
  | own (r : ClientRequest)
  | other (channel : KuksaChannel) (r : ClientRequest)
  | left (channel : KuksaChannel)

namespace ServerInput

def isOwn : ServerInput → Bool
  | .own _ => true
  | _ => false

/-- The requests of others that are kept from the observer. -/
def isHidden (secret : KuksaChannel → ClientRequest → Bool) : ServerInput → Bool
  | .other channel r => secret channel r
  | _ => false

end ServerInput

namespace ObservedServer
open Json VssCommandProcessor ServerInput Answering

variable (pf : Platform)

def step (s : ObservedServer) : ServerInput → Option (Except Exn Json) × ObservedServer
  | .own r =>
      match processQuery pf r.clock s.server r.subId r.reqJson s.channel with
      | (answer, server, channel) => (some answer, ⟨server, channel⟩)
  | .other channel r =>
      match processQuery pf r.clock s.server r.subId r.reqJson channel with
      | (answer, server, _) => (some answer, { s with server := server })
  | .left channel => (none, { s with server :=
      { s.server with subHandler := s.server.subHandler.unsubscribeAll channel } })

/-- What waits for delivery to the observer. -/
def notifications (s : ObservedServer) : List Notification :=
  s.server.subHandler.buffer.filter fun n =>
    decide (n.channel.connectionID = s.channel.connectionID)

/-- The channel may not change the trees, and asks for paths without quotes. -/
structure Ordinary (channel : KuksaChannel) (r : ClientRequest) : Prop where
  modifyTree : channel.modifyTree = false
  plain : ∀ request, pf.parse r.reqJson = .ok request → PlainPath request

variable (seen : Loc → Prop) (heard : String → Prop) (secret : KuksaChannel → ClientRequest → Bool)

/-- The observer reads within what is seen and heard, and what is kept from it are sets of what is
not. -/
def Admitted (s : ObservedServer) : ServerInput → Prop
  | .own r => Ordinary pf s.channel r ∧ ReadsWithin pf seen heard s.channel
  | .other channel r => Ordinary pf channel r ∧
      channel.connectionID ≠ s.channel.connectionID ∧
      (secret channel r = true → ∀ request, pf.parse r.reqJson = .ok request →
        SecretSet pf seen heard s.server.database.dataTree request)
  | .left _ => True

/-- Two states that the observer takes for one another. -/
structure SameView (s t : ObservedServer) : Prop where
  channel : s.channel = t.channel
  server : SameServer seen s.channel.connectionID s.server t.server
  overheard : Overheard heard s.channel.connectionID s.server

variable {pf seen heard secret} {s t : ObservedServer}

theorem SameView.symm (h : SameView seen heard s t) : SameView seen heard t s := by
  obtain ⟨sv, c⟩ := s
  obtain ⟨sv', c'⟩ := t
  obtain ⟨rfl, hsv, ho⟩ := h
  refine ⟨rfl, hsv.symm, ?_⟩
  intro key sub hm
  rw [← subscriptionsFor_congr hsv.subscriptions] at hm
  exact ho key sub hm

theorem SameView.trans {u : ObservedServer} (h : SameView seen heard s t)
    (h' : SameView seen heard t u) : SameView seen heard s u := by
  obtain ⟨sv, c⟩ := s
  obtain ⟨sv', c'⟩ := t
  obtain ⟨rfl, hsv, ho⟩ := h
  exact ⟨h'.channel, hsv.trans h'.server, ho⟩

/-- The servers after the same request in two states. -/
theorem SameView.request (h : SameView seen heard s t) {channel : KuksaChannel} {r : ClientRequest}
    (ho : Ordinary pf channel r)
    (hr : channel.connectionID = s.channel.connectionID → ReadsWithin pf seen heard channel) :
    SameReply pf seen heard s.channel.connectionID channel
        (processQuery pf r.clock s.server r.subId r.reqJson channel)
        (processQuery pf r.clock t.server r.subId r.reqJson channel) ∧
      (processQuery pf r.clock s.server r.subId r.reqJson channel).2.2.connectionID =
        channel.connectionID ∧
      Overheard heard s.channel.connectionID
        (processQuery pf r.clock s.server r.subId r.reqJson channel).2.1 := by
  refine ⟨processQuery_congr r.subId h.server ho.modifyTree ho.plain, ?_⟩
  cases hp : pf.parse r.reqJson with
  | error e =>
    rw [processQuery_not_parsed hp]
    exact ⟨rfl, h.overheard⟩
  | ok request =>
    have heff : Effect pf r.clock s.server r.subId channel request _ _ := processQuery_effect hp
    exact ⟨heff.connectionID, h.overheard.effect heff hr⟩

theorem unwinds (pf : Platform) (seen : Loc → Prop) (heard : String → Prop)
    (secret : KuksaChannel → ClientRequest → Bool) :
    Unwinds isOwn (isHidden secret) (Admitted pf seen heard secret) (step pf)
      (SameView seen heard) where
  own_open a ha := by
    cases a with
    | other channel r => rfl
    | _ => simp [isHidden] at ha
  answer s t a h hok hown := by
    cases a with
    | own r =>
      obtain ⟨hord, hread⟩ := hok
      obtain ⟨hrep, -⟩ := h.request hord fun _ => hread
      simp only [step, ← h.channel]
      exact congrArg some (hrep.answer hread)
    | _ => simp [isOwn] at hown
  open_step s t a h hok ha := by
    cases a with
    | own r =>
      obtain ⟨hord, hread⟩ := hok
      obtain ⟨hrep, hconn, hover⟩ := h.request hord fun _ => hread
      simp only [step, ← h.channel]
      refine ⟨hrep.channel, ?_, ?_⟩
      · simpa only [hconn] using hrep.server
      · simpa only [hconn] using hover
    | other channel r =>
      obtain ⟨hord, hne, -⟩ := hok
      obtain ⟨hrep, -, hover⟩ := h.request hord fun hc => absurd hc hne
      exact ⟨h.channel, hrep.server, hover⟩
    | left channel =>
      refine ⟨h.channel, ⟨h.server.database, h.server.tokenValidator, ?_, h.server.buffer⟩, ?_⟩
      · simp only [step, SubscriptionHandler.unsubscribeAll, h.server.subscriptions]
      · intro key sub hm
        simp only [step, SubscriptionHandler.subscriptionsFor_unsubscribeAll] at hm
        exact h.overheard key sub (List.mem_of_mem_eraseP hm)
  hidden_step s t a h hok ha := by
    cases a with
    | other channel r =>
      obtain ⟨hord, hne, hsec⟩ := hok
      obtain ⟨-, -, hover⟩ := h.request hord fun hc => absurd hc hne
      refine ⟨h.channel, ?_, hover⟩
      cases hp : pf.parse r.reqJson with
      | error e =>
        simp only [step, processQuery_not_parsed hp]
        exact h.server
      | ok request =>
        simp only [step, processQuery_parsed pf r.clock hp]
        exact h.server.secret h.overheard (hord.plain request hp) (hsec ha request hp) r.subId
    | _ => simp [isHidden] at ha

/-- Two runs that differ only in sets, by others, of signals that a client may not read, give it
the same answers and the same notifications. -/
theorem observed_eq_of_open (pf : Platform) (seen : Loc → Prop) (heard : String → Prop)
    (secret : KuksaChannel → ClientRequest → Bool) (start : ObservedServer)
    (as bs : List ServerInput) (hstart : Overheard heard start.channel.connectionID start.server)
    (has : Throughout (Admitted pf seen heard secret) (step pf) start as)
    (hbs : Throughout (Admitted pf seen heard secret) (step pf) start bs)
    (heq : as.filter (fun a => !isHidden secret a) = bs.filter fun a => !isHidden secret a) :
    observed isOwn (step pf) start as = observed isOwn (step pf) start bs ∧
      notifications (run (step pf) start as).2 = notifications (run (step pf) start bs).2 := by
  have hrefl : SameView seen heard start start := ⟨rfl, .refl _, hstart⟩
  obtain ⟨hobs, hend⟩ := (unwinds pf seen heard secret).observed_eq (fun _ _ h => h.symm)
    (fun _ _ _ h h' => h.trans h') hrefl has hbs heq
  refine ⟨hobs, ?_⟩
  unfold notifications
  rw [← hend.channel]
  exact hend.server.buffer

end ObservedServer

namespace ObservedServer
open Json VssCommandProcessor AccessChecker ServerInput Answering

section Filter

/-- The text of the query of the speeds that are not 5, as the path of a set. -/
def filterRequest : Json :=
  .obj [("action", .str "set"), ("path", .str filterPath), ("requestId", .str "1"),
    ("value", .int 5)]

def speedAt (v : ℤ) : VssDatabase :=
  ⟨speedTree.setAt (VSSPath.nodeLoc ["Vehicle", "OBD", "Speed"] ++ [.key "value"]) (.int v),
    speedTree⟩

/-- With a quote in its path, a client that may read nothing is told whether the speed is 5. -/
theorem filterRequest_discloses :
    (processSet filterPlatform midnight (speedAt 1) {} filterRequest).1 ≠
      (processSet filterPlatform midnight (speedAt 5) {} filterRequest).1 := by
  decide +kernel

end Filter

section Range

/-- Two signals, of which the observer may read the speed. -/
def carTree : Json :=
  .obj [("Vehicle", .obj [("type", .str "branch"), ("children", .obj
    [("Range", .obj [("datatype", .str "uint8"), ("type", .str "sensor"), ("value", .int 1)]),
      ("Speed", .obj [("datatype", .str "uint8"), ("type", .str "sensor"), ("value", .int 1)])])])]

def speedObserver : KuksaChannel :=
  { connectionID := 1, permissions := [("Vehicle.Speed", .str "r")] }

def rangeSetter : KuksaChannel := { connectionID := 2, permissions := [("Vehicle.*", .str "rw")] }

def carRequest : String → Except String Json
  | "set" => .ok (.obj [("action", .str "set"), ("path", .str "Vehicle.Range"),
      ("requestId", .str "1"), ("value", .int 7)])
  | "get" => .ok (.obj [("action", .str "get"), ("path", .str "Vehicle.Speed"),
      ("requestId", .str "2")])
  | "read" => .ok (.obj [("action", .str "get"), ("path", .str "Vehicle.Range"),
      ("requestId", .str "3")])
  | _ => .error "Parse error"

def carStart : ObservedServer := ⟨⟨⟨carTree, carTree⟩, ⟨[], []⟩, ⟨"key"⟩⟩, speedObserver⟩

def rangeSet : ServerInput := .other rangeSetter ⟨midnight, 0, "set"⟩

def speedGet : ServerInput := .own ⟨midnight, 0, "get"⟩

/-- Both spellings of the path of the range. -/
theorem range_spellings {path : String} (hv : (VSSPath.fromVSS path).getVSSPath = "Vehicle/Range") :
    path = "Vehicle.Range" ∨ path = "Vehicle/Range" := by
  have hmap : path.toList.map (fun c => if c = '.' then '/' else c) = "Vehicle/Range".toList := by
    have hv' := (VSSPath.fromVSS_vsspath path).symm.trans hv
    simpa [VSSPath.gen1togen2, Text.replaceChar] using congrArg String.toList hv'
  have hchar (c d : Char) (hd : d ≠ '/' ∧ d ≠ '.') :
      (if c = '.' then '/' else c) = d ↔ c = d := by grind
  have hslash (c : Char) : (if c = '.' then '/' else c) = '/' ↔ c = '.' ∨ c = '/' := by grind
  have hpath : ∃ c, path.toList = ['V', 'e', 'h', 'i', 'c', 'l', 'e', c, 'R', 'a', 'n', 'g', 'e'] ∧
      (c = '.' ∨ c = '/') := by
    simpa [List.map_eq_cons_iff, hchar, hslash] using hmap
  obtain ⟨c, hc, rfl | rfl⟩ := hpath
  · exact .inl (String.toList_inj.mp hc)
  · exact .inr (String.toList_inj.mp hc)

theorem readsWithin_speedObserver : ReadsWithin (.basic carRequest)
    (· ≠ VSSPath.nodeLoc ["Vehicle", "Range"]) (· ≠ "Vehicle/Range") speedObserver := by
  constructor
  · rintro _ gen1 hc rfl
    revert hc
    cases gen1 <;> decide +kernel
  · intro path hc hv
    revert hc
    rcases range_spellings hv with rfl | rfl
    · decide +kernel
    · decide +kernel

theorem plain_carRequest {reqJson : String} {request : Json}
    (h : (Platform.basic carRequest).parse reqJson = .ok request) : PlainPath request := by
  have hplain : VSSPath.Plain "Vehicle.Range" ∧ VSSPath.Plain "Vehicle.Speed" := by
    decide +kernel
  have hpath : text request "path" = .ok "Vehicle.Range" ∨
      text request "path" = .ok "Vehicle.Speed" := by
    simp only [Platform.basic, carRequest] at h
    split at h
    · obtain rfl := Except.ok.inj h
      exact .inl rfl
    · obtain rfl := Except.ok.inj h
      exact .inr rfl
    · obtain rfl := Except.ok.inj h
      exact .inl rfl
    · simp at h
  intro path hp
  rcases hpath with hpath | hpath
  · obtain rfl := Except.ok.inj (hpath.symm.trans hp)
    exact hplain.1
  · obtain rfl := Except.ok.inj (hpath.symm.trans hp)
    exact hplain.2

theorem matches_range :
    JsonPath.selectors.matches? carTree (VSSPath.fromVSS "Vehicle.Range").jsonpath =
      .ok [VSSPath.nodeLoc ["Vehicle", "Range"]] := by
  rw [VSSPath.fromVSS_plain (by decide +kernel), JsonPath.matches?_renderPath]
  decide +kernel

/-- The observer is answered alike whether or not the range was set. -/
theorem observed_eq_of_open_range :
    observed isOwn (step (.basic carRequest)) carStart [rangeSet, speedGet] =
      observed isOwn (step (.basic carRequest)) carStart [speedGet] := by
  refine (observed_eq_of_open (.basic carRequest) (· ≠ VSSPath.nodeLoc ["Vehicle", "Range"])
    (· ≠ "Vehicle/Range") (fun _ _ => true) carStart [rangeSet, speedGet] [speedGet]
    (by simp [Overheard, carStart, SubscriptionHandler.subscriptionsFor]) ?_ ?_ rfl).1
  · refine ⟨⟨⟨rfl, fun _ => plain_carRequest⟩, by decide, ?_⟩,
      ⟨⟨rfl, fun _ => plain_carRequest⟩, readsWithin_speedObserver⟩, trivial⟩
    rintro - request hp
    obtain rfl := Except.ok.inj hp
    refine ⟨rfl, ?_, ?_⟩
    · rintro path hp
      obtain rfl : "Vehicle.Range" = path := Except.ok.inj hp
      decide +kernel
    · rintro path ls hp hls l hl
      obtain rfl : "Vehicle.Range" = path := Except.ok.inj hp
      obtain rfl := Except.ok.inj (matches_range.symm.trans hls)
      simpa using hl
  · exact ⟨⟨⟨rfl, fun _ => plain_carRequest⟩, readsWithin_speedObserver⟩, trivial⟩

end Range

end ObservedServer
