import KuksaVal.KuksaVALServerClient
import KuksaVal.PublishedTopics

/-! The uploader beside other clients: what it fetches is what the server holds of a signal when it
is asked for it. -/
namespace KuksaVALServerClient
open Json JsonResponses VssDatabase VSSPath VssCommandProcessor AccessChecker

/-- A request of the uploader for a path, and what other clients ask for before it. -/
structure Poll where
  others : List ChannelRequest
  path : String
  own : ChannelRequest

section Run
variable (pf : Platform)

/-- The polls of one round, each with the state in which the server answers it. -/
def asked : Server → List Poll → List (Server × Poll)
  | _, [] => []
  | sv, p :: ps =>
      let sv := (Answering.run (handle pf) sv p.others).2
      (sv, p) :: asked (handle pf sv p.own).2 ps

/-- The response to a poll, beside its path. -/
def Responds (q : Server × Poll) (r : String × Json) : Prop :=
  r.1 = q.2.path ∧ (handle pf q.1 q.2.own).1 = .ok r.2

variable {pf} {sv : Server} {polls : List Poll} {responses : List (String × Json)}
  {qs : List (Server × Poll)}

theorem map_path_asked : (asked pf sv polls).map (fun q => q.2.path) = polls.map Poll.path := by
  induction polls generalizing sv with
  | nil => rfl
  | cons p ps ih => simp only [asked, List.map_cons, ih]

/-- What holds at first, and is kept by the others and by the polls, holds at each poll. -/
theorem asked_invariant {P : Server → Prop} (h : P sv)
    (hothers : ∀ p ∈ polls, ∀ a ∈ p.others, ∀ sv, P sv → P (handle pf sv a).2)
    (hown : ∀ p ∈ polls, ∀ sv, P sv → P (handle pf sv p.own).2) :
    ∀ q ∈ asked pf sv polls, q.2 ∈ polls ∧ P q.1 := by
  have hrun (as : List ChannelRequest) (has : ∀ a ∈ as, ∀ sv, P sv → P (handle pf sv a).2)
      (sv : Server) (hsv : P sv) : P (Answering.run (handle pf) sv as).2 := by
    induction as generalizing sv with
    | nil => exact hsv
    | cons a as ih =>
      exact ih (fun b hb => has b (List.mem_cons_of_mem a hb)) _ (has a List.mem_cons_self _ hsv)
  induction polls generalizing sv with
  | nil => simp [asked]
  | cons p ps ih =>
    have hp := hrun p.others (hothers p List.mem_cons_self) sv h
    intro q hq
    rcases List.mem_cons.mp hq with rfl | hq
    · exact ⟨List.mem_cons_self, hp⟩
    · obtain ⟨hmem, hP⟩ := ih (hown p List.mem_cons_self _ hp)
        (fun p' hp' => hothers p' (List.mem_cons_of_mem p hp'))
        (fun p' hp' => hown p' (List.mem_cons_of_mem p hp')) q hq
      exact ⟨List.mem_cons_of_mem p hmem, hP⟩

theorem exists_forall₂_iff {α β : Type*} {R : α → β → Prop} {as : List α} :
    (∃ bs, List.Forall₂ R as bs) ↔ ∀ a ∈ as, ∃ b, R a b := by
  induction as with
  | nil => simp
  | cons a as ih =>
    simp only [List.forall₂_cons_left_iff, List.forall_mem_cons, ← ih]
    constructor
    · rintro ⟨-, b, bs, hb, hbs, rfl⟩
      exact ⟨⟨b, hb⟩, bs, hbs⟩
    · rintro ⟨⟨b, hb⟩, bs, hbs⟩
      exact ⟨_, b, bs, hb, hbs, rfl⟩

/-- Requests that are all answered have responses. -/
theorem exists_responds
    (h : (qs.all fun q => (handle pf q.1 q.2.own).1.toOption.isSome) = true) :
    ∃ responses, List.Forall₂ (Responds pf) qs responses := by
  refine exists_forall₂_iff.mpr fun q hq => ?_
  have hq := List.all_eq_true.mp h q hq
  cases ha : (handle pf q.1 q.2.own).1 with
  | error e => simp [ha, Except.toOption] at hq
  | ok response => exact ⟨(q.2.path, response), rfl, ha⟩

theorem paths_of_responds (h : List.Forall₂ (Responds pf) qs responses) :
    responses.map Prod.fst = qs.map fun q => q.2.path := by
  induction h with
  | nil => rfl
  | cons hr _ ih => simp only [List.map_cons, hr.1, ih]

section Reads
variable {α : Type*} {read : String → Json → Except ClientError α}
  {Shows : Server × Poll → α → Prop}

theorem forall₂_reads_iff (hr : List.Forall₂ (Responds pf) qs responses)
    (hread : ∀ q ∈ qs, ∀ response, (handle pf q.1 q.2.own).1 = .ok response →
      ∀ v, read q.2.path response = .ok v ↔ Shows q v) (vs : List α) :
    List.Forall₂ (fun p v => read p.1 p.2 = .ok v) responses vs ↔ List.Forall₂ Shows qs vs := by
  induction hr generalizing vs with
  | nil => simp
  | @cons q r qs rs hq _ ih =>
    obtain ⟨hpath, hanswer⟩ := hq
    have hrest := ih fun q' hq' => hread q' (List.mem_cons_of_mem q hq')
    simp only [List.forall₂_cons_left_iff, hpath, hread q List.mem_cons_self r.2 hanswer, hrest]

/-- A loop over the responses ends where each poll shows something that can be read. -/
theorem collect_polls (hr : List.Forall₂ (Responds pf) (asked pf sv polls) responses)
    (hread : ∀ q ∈ asked pf sv polls, ∀ response, (handle pf q.1 q.2.own).1 = .ok response →
      ∀ v, read q.2.path response = .ok v ↔ Shows q v) (d : List (String × α)) :
    collect read responses [] = .ok d ↔ ∃ vs, List.Forall₂ Shows (asked pf sv polls) vs ∧
      d = Dictionary.ofItems ((polls.map Poll.path).zip vs) := by
  rw [collect_ofItems, paths_of_responds hr, map_path_asked]
  simp only [forall₂_reads_iff hr hread]

/-- What it raises is raised for one of the polls. -/
theorem collect_polls_error {e : ClientError} (hr : List.Forall₂ (Responds pf) qs responses)
    (h : collect read responses [] = .error e) :
    ∃ q ∈ qs, ∃ response, (handle pf q.1 q.2.own).1 = .ok response ∧
      read q.2.path response = .error e := by
  obtain ⟨p, hp, he⟩ := collect_eq_error h
  clear h
  induction hr with
  | nil => simp at hp
  | @cons q r qs rs hq _ ih =>
    rcases List.mem_cons.mp hp with rfl | hp
    · exact ⟨q, List.mem_cons_self, p.2, hq.2, hq.1 ▸ he⟩
    · obtain ⟨q', hq', hresponse⟩ := ih hp
      exact ⟨q', List.mem_cons_of_mem q hq', hresponse⟩

end Reads

end Run

section Values
variable {pf : Platform} {nm : Numerics} {sv : Server} {a : ChannelRequest} {request node : Json}
  {path requestId : String} {l : Loc}

/-- What a client that reads texts is told of the value of a node. -/
inductive Told (nm : Numerics) (node : Json) : Option Json → Prop
  | unavailable (hv : node.get? "value" = none) : Told nm node none
  | value {v : Json} {time : ℤ × ℤ} (hv : node.get? "value" = some v)
      (ht : storedTimeStamp nm node "value" = .ok time) : Told nm node (some (.str v.asString))

theorem Told.eq {v w : Option Json} (h : Told nm node v) (h' : Told nm node w) : v = w := by
  cases h with
  | unavailable hv =>
    cases h' with
    | unavailable => rfl
    | value hv' => simp [hv] at hv'
  | value hv =>
    cases h' with
    | unavailable hv' => simp [hv] at hv'
    | value hv' => rw [Option.some.inj (hv.symm.trans hv')]

/-- The client may read the leaf of its path. -/
def MayRead (pf : Platform) (p : Poll) (l : Loc) : Prop :=
  checkReadAccess pf.regex p.own.channel
    (.fromJSON l.toPath (VSSPath.fromVSS p.path).isGen1Origin) = .ok true

/-- In this state the client may read the leaf of its path, and this is what it is told of it. -/
def ShowsValue (pf : Platform) (q : Server × Poll) (v : Option Json) : Prop :=
  ∃ l node, Resolves pf.jsonPath q.1.database.dataTree (.fromVSS q.2.path) l node ∧
    MayRead pf q.2 l ∧ Told pf.numerics node v

/-- The path of a poll leads to one sensor, actuator or attribute of the tree. -/
def Leaf (pf : Platform) (tree : Json) (p : Poll) : Prop :=
  Plain p.path ∧ ∃ l node, Resolves pf.jsonPath tree (.fromVSS p.path) l node ∧ IsSignal node

/-- The request of a poll asks for the value of its path, and texts are what it is answered with. -/
def AsksValue (pf : Platform) (p : Poll) : Prop :=
  p.own.channel.typeOfConnection ≠ .grpc ∧ ∃ request requestId,
    pf.parse p.own.request.reqJson = .ok request ∧ Gets pf request p.path "value" requestId

theorem checkReadAccess_error {rx : StdRegex} {channel : KuksaChannel} {vssPath : VSSPath} {e : Exn}
    (h : checkReadAccess rx channel vssPath = .error e) : e.kind = .regexError := by
  have hmatch (text : String) (ps : List (String × Json)) (value : String) {e : Exn}
      (h : matchPermissions rx text ps value = .error e) : e.kind = .regexError := by
    induction ps generalizing value with
    | nil => simp [matchPermissions] at h
    | cons p ps ih =>
      obtain ⟨key, perm⟩ := p
      unfold matchPermissions pathRegex at h
      cases hc : rx.compile (pathPattern key) with
      | error m =>
        simp only [hc, Except.error.injEq] at h
        rw [← h]
      | ok r => exact ih _ (by simpa only [hc] using h)
  unfold checkReadAccess checkSignalAccess permissionValue at h
  dsimp only at h
  split_ifs at h
  · cases hm : matchPermissions rx vssPath.getVSSGen1Path channel.permissions
      (ownPermission channel.permissions vssPath.getVSSGen1Path) with
    | error e' =>
      rw [hm] at h
      obtain rfl := Except.error.inj h
      exact hmatch _ _ _ hm
    | ok value => simp [hm, Except.map] at h
  · simp [Except.map] at h

theorem asInteger_error {t : IntType} {v : Json} {e : Exn} (h : asInteger nm t v = .error e) :
    e.kind = .runtimeError ∨ e.kind = .domainError := by
  unfold asInteger at h
  split at h
  · simp at h
  · simp at h
  · simp at h
  · split at h
    · split_ifs at h
      obtain rfl := Except.error.inj h
      exact .inl rfl
    · obtain rfl := Except.error.inj h
      exact .inl rfl
  · obtain rfl := Except.error.inj h
    exact .inr rfl

theorem storedTimeStamp_error {attr : String} {e : Exn}
    (h : storedTimeStamp nm node attr = .error e) :
    e.kind = .runtimeError ∨ e.kind = .domainError := by
  unfold storedTimeStamp at h
  split at h
  · split at h
    · rename_i hs
      obtain rfl := Except.error.inj h
      exact asInteger_error hs
    · rename_i ns _ _ _ sec hs
      cases hn : asInteger nm ⟨32, false⟩ ns with
      | error e' =>
        rw [hn] at h
        obtain rfl := Except.error.inj h
        exact asInteger_error hn
      | ok nsec => simp [hn, Except.map] at h
  · simp at h

/-- The answer to a get of one leaf as texts. -/
def leafAnswer (pf : Platform) (a : ChannelRequest) (path requestId : String) (l : Loc)
    (node : Json) : Except Exn Json :=
  let vssPath := VSSPath.fromJSON l.toPath (VSSPath.fromVSS path).isGen1Origin
  match checkReadAccess pf.regex a.channel vssPath with
  | .error e => getFailure a.request.clock requestId e
  | .ok false => .ok (noAccess a.request.clock requestId "get"
      ("Insufficient read access to " ++ path))
  | .ok true =>
      match datapointOf pf.numerics a.request.clock vssPath "value" true node with
      | .error e => getFailure a.request.clock requestId e
      | .ok dp => .ok (getAnswer a.request.clock requestId
          (ofMembers [("path", .str vssPath.toString), ("dp", dp)]))

theorem handle_leaf (hp : pf.parse a.request.reqJson = .ok request)
    (hg : Gets pf request path "value" requestId)
    (hr : Resolves pf.jsonPath sv.database.dataTree (.fromVSS path) l node) (hs : IsSignal node)
    (hch : a.channel.typeOfConnection ≠ .grpc) :
    (handle pf sv a).1 = settle a.request.clock (leafAnswer pf a path requestId l node) := by
  have hval : validateRequest pf VSSRequestValidator.schemaGet request = .ok () :=
    (VSSRequestValidator.validate_eq_ok_iff pf.numerics).mpr hg.valid
  have hatt : sv.database.pathIsAttributable pf.jsonPath (.fromVSS path) "value" = .ok true := by
    simp [hr.pathIsAttributable]
  have hsignal : sv.database.getSignal pf.jsonPath pf.numerics a.request.clock
      (.fromJSON l.toPath (VSSPath.fromVSS path).isGen1Origin) "value" true =
        (datapointOf pf.numerics a.request.clock
          (.fromJSON l.toPath (VSSPath.fromVSS path).isGen1Origin) "value" true node).map fun dp =>
            ofMembers [("path", .str (VSSPath.fromJSON l.toPath
              (VSSPath.fromVSS path).isGen1Origin).toString), ("dp", dp)] := by
    simp [getSignal, VSSPath.getJSONPath, jsonQuery_toPath hr.located, elementAt]
  have hget : processGet pf a.request.clock sv.database a.channel request =
      leafAnswer pf a path requestId l node := by
    simp only [processGet, hg.path, hval, hg.requestId, hg.attr, performGet,
      getLeafPaths_leaf hr hs, collectDatapoints, leafAnswer]
    cases checkReadAccess pf.regex a.channel
      (.fromJSON l.toPath (VSSPath.fromVSS path).isGen1Origin) with
    | error e => rfl
    | ok granted =>
      cases granted with
      | false => rfl
      | true =>
        simp only [hatt, hch, ne_eq, not_false_eq_true, decide_true, hsignal]
        cases datapointOf pf.numerics a.request.clock
          (.fromJSON l.toPath (VSSPath.fromVSS path).isGen1Origin) "value" true node with
        | error e => rfl
        | ok dp => rfl
  rw [handle_parsed hp]
  simp [dispatch, hg.action, hget]

theorem settle_failure {ck : Clock} {e : Exn} {answer : Json}
    (h : settle ck (getFailure ck requestId e) = .ok answer) :
    getFailure ck requestId e = .ok answer := by
  cases hf : getFailure ck requestId e with
  | ok answer' => simpa only [hf, settle] using h
  | error e' =>
    unfold getFailure answerUnhandled at hf
    split_ifs at hf with _ hub
    obtain rfl := Except.error.inj hf
    simp [getFailure, answerUnhandled, hub, settle, isCaught] at h

theorem valueOf_error {ck : Clock} {action : Option String} {number reason message : String} {n : ℤ}
    (hn : Numerics.readNumeral number = some n) (h : n ≠ 404) :
    valueOf nm (errorAnswer ck action requestId number reason message) =
      .error (.kuksaClientError n (.str reason) (.str message)) := by
  simp [valueOf, raiseIfInvalid_errorAnswer hn, h]

/-- An exception other than that of a missing value is raised as a malformed request. -/
theorem valueOf_failure {ck : Clock} {e : Exn} {answer : Json}
    (h : getFailure ck requestId e = .ok answer) (he : e.kind ≠ .notSetException) :
    ∃ message, valueOf nm answer =
      .error (.kuksaClientError 400 (.str "Bad Request") (.str message)) := by
  unfold getFailure answerUnhandled at h
  rw [if_neg he] at h
  split_ifs at h
  obtain rfl := Except.ok.inj h
  exact ⟨_, valueOf_error (by decide +kernel) (by decide)⟩

theorem valueOf_notSet {ck : Clock} {e : Exn} {answer : Json}
    (h : getFailure ck requestId e = .ok answer) (he : e.kind = .notSetException) :
    valueOf nm answer = .ok none := by
  unfold getFailure at h
  rw [if_pos he] at h
  obtain rfl := Except.ok.inj h
  have hn : Numerics.readNumeral "404" = some 404 := by decide +kernel
  simp [valueOf, notSetResponse, raiseIfInvalid_errorAnswer hn]

theorem valueOf_getAnswer {ck : Clock} {data dp v : Json} (hdp : data.get? "dp" = some dp)
    (hv : dp.get? "value" = some v) : valueOf nm (getAnswer ck requestId data) = .ok (some v) := by
  have hdata : (getAnswer ck requestId data).get? "data" = some data := by
    simp [getAnswer, get?_ofMembers, Members.get?_cons]
  have herr : (getAnswer ck requestId data).get? "error" = none := by
    simp [getAnswer, get?_ofMembers, Members.get?_cons]
  have hok : raiseIfInvalid nm (getAnswer ck requestId data) = .ok () := raiseIfInvalid_ok rfl herr
  simp only [valueOf, hok, item_eq_ok_iff.mpr hdata, Except.bind, item_eq_ok_iff.mpr hdp,
    item_eq_ok_iff.mpr hv, Except.map]

variable (nm) in
/-- The response to a get of one leaf: its value where it may be read and has one, nothing where it
has none; or else the client raises that it was refused. -/
theorem valueOf_leaf {response : Json} (hp : pf.parse a.request.reqJson = .ok request)
    (hg : Gets pf request path "value" requestId)
    (hr : Resolves pf.jsonPath sv.database.dataTree (.fromVSS path) l node) (hs : IsSignal node)
    (hch : a.channel.typeOfConnection ≠ .grpc) (h : (handle pf sv a).1 = .ok response) :
    (∃ v, valueOf nm response = .ok v ∧ Told pf.numerics node v ∧
      checkReadAccess pf.regex a.channel
        (.fromJSON l.toPath (VSSPath.fromVSS path).isGen1Origin) = .ok true) ∨
      ∃ code reason message, valueOf nm response =
          .error (.kuksaClientError code (.str reason) (.str message)) ∧ (code = 400 ∨ code = 403) ∧
        ∀ v, ¬ (Told pf.numerics node v ∧ checkReadAccess pf.regex a.channel
          (.fromJSON l.toPath (VSSPath.fromVSS path).isGen1Origin) = .ok true) := by
  rw [handle_leaf hp hg hr hs hch] at h
  unfold leafAnswer at h
  dsimp only at h
  cases hread : checkReadAccess pf.regex a.channel
    (.fromJSON l.toPath (VSSPath.fromVSS path).isGen1Origin) with
  | error e =>
    right
    simp only [hread] at h
    obtain ⟨message, hm⟩ : ∃ message, valueOf nm response = _ :=
      valueOf_failure (settle_failure h) (by simp [checkReadAccess_error hread])
    exact ⟨400, _, message, hm, .inl rfl, by simp⟩
  | ok granted =>
    cases granted with
    | false =>
      right
      simp only [hread, settle] at h
      obtain rfl := Except.ok.inj h
      exact ⟨403, _, _, valueOf_error (by decide +kernel) (by decide), .inr rfl, by simp⟩
    | true =>
      simp only [hread] at h
      cases hv : node.get? "value" with
      | none =>
        left
        simp only [datapointOf, hv] at h
        exact ⟨none, valueOf_notSet (settle_failure h) rfl, .unavailable hv, rfl⟩
      | some v =>
        cases ht : storedTimeStamp pf.numerics node "value" with
        | error e =>
          right
          simp only [datapointOf, hv, ht] at h
          obtain ⟨message, hm⟩ : ∃ message, valueOf nm response = _ :=
            valueOf_failure (settle_failure h)
              (by rcases storedTimeStamp_error ht with hk | hk <;> simp [hk])
          refine ⟨400, _, message, hm, .inl rfl, ?_⟩
          rintro w ⟨ht' | ⟨hv', ht'⟩, -⟩
          · simp_all
          · simp_all
        | ok time =>
          left
          obtain ⟨dp, hdp, hshown⟩ : ∃ dp, datapointOf pf.numerics a.request.clock
              (.fromJSON l.toPath (VSSPath.fromVSS path).isGen1Origin) "value" true node = .ok dp ∧
              dp.get? "value" = some (.str v.asString) := datapointOf_shown (by decide) hv ht
          simp only [hdp, settle] at h
          obtain rfl := Except.ok.inj h
          refine ⟨some (.str v.asString), valueOf_getAnswer ?_ hshown, .value hv ht, rfl⟩
          simp [get?_ofMembers, Members.get?_cons]

/-- A request of a client without the right to change the trees leaves the metadata as it is. -/
theorem handle_metadata (ho : ObservedServer.Ordinary pf a.channel a.request) :
    prune isRuntime sv.database.dataTree =
      prune isRuntime (handle pf sv a).2.database.dataTree := by
  cases hp : pf.parse a.request.reqJson with
  | error e =>
    unfold handle
    rw [processQuery_not_parsed hp]
  | ok request =>
    rw [handle_parsed hp]
    rcases dispatch_database pf a.request.clock sv request a.request.subId ho.modifyTree with
      ⟨hd, -⟩ | ⟨-, -, hd, -⟩
    · rw [hd]
    · rcases processSet_cases pf a.request.clock sv.database a.channel request with
        ⟨-, he⟩ | ⟨path, requestId, value, db', m, node, stored, hpath, -, -, -, hst, -, ha, he⟩
      · rw [hd, he]
      · have hm := (nodeQuery_fromVSS (ho.plain request hp path hpath)).isNodeLoc
          hst.resolves.unique (List.mem_singleton_self m)
        rw [hd, he]
        exact metadata_of_stores hst hm (ha.symm.imp id And.left)

/-- A poll of a leaf finds it in every state that has the same metadata. -/
theorem Leaf.resolves {p : Poll} {tree tree' : Json} (h : Leaf pf tree p)
    (ht : prune isRuntime tree = prune isRuntime tree') :
    ∃ l node, Resolves pf.jsonPath tree' (.fromVSS p.path) l node ∧ IsSignal node := by
  obtain ⟨hplain, l, node, hr, hs⟩ := h
  obtain ⟨node', hr', hnode⟩ := (nodeQuery_fromVSS hplain).resolves ht hr
  have htype : node'.get? "type" = node.get? "type" :=
    (get?_of_pruneNode hnode (by decide) (by decide)).symm
  exact ⟨l, node', hr', by simpa only [IsSignal, IsSettable, htype] using hs⟩

theorem AsksValue.database {p : Poll} (h : AsksValue pf p) (sv : Server) :
    (handle pf sv p.own).2.database = sv.database := by
  obtain ⟨-, request, requestId, hp, hg⟩ := h
  rw [handle_parsed hp]
  simp [dispatch, hg.action]

/-- A round over leaves that are polled by gets, beside any requests of clients without the right to
change the trees, returns for each path the value that its leaf had when it was asked for, or
nothing where it had none; it ends with an error of the client exactly if one of the leaves may not
be read or has no time that is a number. -/
theorem getValues_reads (pf : Platform) (nm : Numerics) (sv : Server) (polls : List Poll)
    (responses : List (String × Json))
    (hleaf : ∀ p ∈ polls, Leaf pf sv.database.dataTree p) (hasks : ∀ p ∈ polls, AsksValue pf p)
    (hothers : ∀ p ∈ polls, ∀ a ∈ p.others, ObservedServer.Ordinary pf a.channel a.request)
    (hr : List.Forall₂ (Responds pf) (asked pf sv polls) responses) :
    (∀ d, getValues nm responses = .ok d ↔
      ∃ vs, List.Forall₂ (ShowsValue pf) (asked pf sv polls) vs ∧
        d = Dictionary.ofItems ((polls.map Poll.path).zip vs)) ∧
    ∀ e, getValues nm responses = .error e → ∃ code reason message,
      e = .kuksaClientError code (.str reason) (.str message) ∧ (code = 400 ∨ code = 403) ∧
        ∃ q ∈ asked pf sv polls, ∀ v, ¬ ShowsValue pf q v := by
  have hstate := asked_invariant
    (P := fun sv' => prune isRuntime sv.database.dataTree = prune isRuntime sv'.database.dataTree)
    rfl (fun p hp a ha sv' h => h.trans (handle_metadata (hothers p hp a ha)))
    (fun p hp sv' h => by rw [(hasks p hp).database]; exact h)
  -- A response is read as it should be, or raised where there is nothing to be read.
  have hread : ∀ q ∈ asked pf sv polls, ∀ response, (handle pf q.1 q.2.own).1 = .ok response →
      (∃ v, valueOf nm response = .ok v ∧ ∀ w, ShowsValue pf q w ↔ v = w) ∨
      ∃ code reason message, valueOf nm response =
        .error (.kuksaClientError code (.str reason) (.str message)) ∧ (code = 400 ∨ code = 403) ∧
          ∀ v, ¬ ShowsValue pf q v := by
    intro q hq response h
    obtain ⟨hmem, htree⟩ := hstate q hq
    obtain ⟨l, node, hres, hs⟩ := (hleaf q.2 hmem).resolves htree
    obtain ⟨hch, request, requestId, hp, hg⟩ := hasks q.2 hmem
    have hshows (v : Option Json) : ShowsValue pf q v ↔ Told pf.numerics node v ∧
        MayRead pf q.2 l := by
      constructor
      · rintro ⟨l', node', hres', hmay, htold⟩
        obtain ⟨rfl, rfl⟩ := hres.eq hres'
        exact ⟨htold, hmay⟩
      · rintro ⟨htold, hmay⟩
        exact ⟨l, node, hres, hmay, htold⟩
    rcases valueOf_leaf nm hp hg hres hs hch h with
      ⟨v, hv, htold, hmay⟩ | ⟨code, reason, message, he, hcode, hno⟩
    · refine .inl ⟨v, hv, fun w => (hshows w).trans ⟨?_, ?_⟩⟩
      · rintro ⟨htold', -⟩
        exact htold.eq htold'
      · rintro rfl
        exact ⟨htold, hmay⟩
    · exact .inr ⟨code, reason, message, he, hcode, fun v h => hno v ((hshows v).mp h)⟩
  refine ⟨collect_polls hr ?_, ?_⟩
  · intro q hq response h v
    rcases hread q hq response h with ⟨v', hv', hshows⟩ | ⟨_, _, _, he, -, hno⟩
    · rw [hv', hshows, Except.ok.injEq]
    · simp [he, hno v]
  · intro e he
    obtain ⟨q, hq, response, h, hraised⟩ := collect_polls_error hr he
    rcases hread q hq response h with ⟨v', hv', -⟩ | ⟨code, reason, message, he', hcode, hno⟩
    · simp [hv'] at hraised
    · exact ⟨code, reason, message, Except.error.inj (hraised.symm.trans he'), hcode, q, hq, hno⟩

section Range
open ObservedServer

def rangePoll (others : List ChannelRequest) : Poll :=
  ⟨others, "Vehicle.Range", ⟨rangeReader, ⟨midnight, 0, "read"⟩⟩⟩

/-- The range is polled twice, and set by another client in between. -/
def rangePolls : List Poll :=
  [rangePoll [], rangePoll [⟨rangeSetter, ⟨midnight, 0, "set"⟩⟩]]

theorem getValues_reads_range : ∃ responses, List.Forall₂ (Responds (.basic carRequest))
      (asked (.basic carRequest) carStart.server rangePolls) responses ∧
    getValues .decimal responses = .ok [("Vehicle.Range", some (.str "7"))] := by
  have hanswered : ((asked (.basic carRequest) carStart.server rangePolls).all fun q =>
      (handle (.basic carRequest) q.1 q.2.own).1.toOption.isSome) = true := by decide +kernel
  obtain ⟨responses, hr⟩ := exists_responds hanswered
  refine ⟨responses, hr, ?_⟩
  have hpolls (p : Poll) (hp : p ∈ rangePolls) : p = rangePoll [] ∨
      p = rangePoll [⟨rangeSetter, ⟨midnight, 0, "set"⟩⟩] := by
    simpa [rangePolls] using hp
  have hmay (others : List ChannelRequest) : MayRead (.basic carRequest) (rangePoll others)
      (nodeLoc ["Vehicle", "Range"]) := by
    show checkReadAccess (Platform.basic carRequest).regex rangeReader
      (.fromJSON (nodeLoc ["Vehicle", "Range"]).toPath
        (VSSPath.fromVSS "Vehicle.Range").isGen1Origin) = .ok true
    decide +kernel
  refine ((getValues_reads (.basic carRequest) .decimal carStart.server rangePolls responses
    ?_ ?_ ?_ hr).1 _).mpr ⟨[some (.str "1"), some (.str "7")], ?_, by decide +kernel⟩
  · intro p hp
    have hpath : p.path = "Vehicle.Range" := by
      rcases hpolls p hp with rfl | rfl <;> rfl
    exact ⟨hpath ▸ by decide +kernel, nodeLoc ["Vehicle", "Range"], _,
      ⟨hpath ▸ matches_range, rfl⟩, by decide +kernel⟩
  · intro p hp
    rcases hpolls p hp with rfl | rfl <;>
      exact ⟨by decide, _, "3", rfl, rfl, by decide +kernel, rfl, rfl, rfl⟩
  · intro p hp a ha
    rcases hpolls p hp with rfl | rfl
    · simp [rangePoll] at ha
    · obtain rfl := List.mem_singleton.mp ha
      exact ⟨rfl, fun _ => plain_carRequest⟩
  · refine .cons ?_ (.cons ?_ .nil)
    · exact ⟨nodeLoc ["Vehicle", "Range"], _, ⟨matches_range, rfl⟩, hmay _,
        .value (v := .int 1) rfl rfl⟩
    · refine ⟨nodeLoc ["Vehicle", "Range"], _, ⟨?_, rfl⟩, hmay _, .value (v := .int 7) rfl rfl⟩
      rw [VSSPath.fromVSS_plain (by decide +kernel), JsonPath.matches?_renderPath]
      decide +kernel

end Range

end Values

section Types
variable {pf : Platform} {nm : Numerics} {sv : Server} {tree node answer : Json}
  {names : List String}

theorem flatMap_children {n : String} (ns : List String) (h : ∀ m ∈ n :: ns, '.' ∉ m.toList) :
    ((joined '.' (n :: ns)).toList.flatMap fun c =>
      if c = '.' then ".children.".toList else [c]) =
        n.toList ++ ns.flatMap fun m => ".children.".toList ++ m.toList := by
  have hplain (m : String) (hm : '.' ∉ m.toList) :
      (m.toList.flatMap fun c => if c = '.' then ".children.".toList else [c]) = m.toList := by
    refine Eq.trans (List.flatMap_congr fun c hc => ?_) (List.flatMap_singleton' _)
    rw [if_neg]
    rintro rfl
    exact hm hc
  rw [toList_joined_cons, List.flatMap_append, hplain n (h n List.mem_cons_self),
    List.flatMap_assoc]
  congr 1
  apply List.flatMap_congr
  intro m hm
  rw [List.flatMap_cons, if_pos rfl, hplain m (h m (List.mem_cons_of_mem n hm))]

theorem flatMap_intersperse (n : String) (ns : List String) :
    ((n :: ns).intersperse "children").flatMap (fun m => '.' :: m.toList) =
      '.' :: (n.toList ++ ns.flatMap fun m => ".children.".toList ++ m.toList) := by
  induction ns generalizing n with
  | nil => simp
  | cons m ms ih =>
    rw [List.intersperse_cons_cons, List.flatMap_cons, List.flatMap_cons, ih, List.flatMap_cons]
    simp

theorem mem_of_mem_intersperse {α : Type*} {sep s : α} {l : List α} (h : s ∈ l.intersperse sep) :
    s = sep ∨ s ∈ l := by
  induction l with
  | nil => simp at h
  | cons x l ih =>
    cases l with
    | nil => exact .inr h
    | cons y l =>
      rw [List.intersperse_cons_cons] at h
      rcases List.mem_cons.mp h with rfl | h
      · exact .inr List.mem_cons_self
      · rcases List.mem_cons.mp h with rfl | h
        · exact .inl rfl
        · exact (ih h).imp id (List.mem_cons_of_mem x)

/-- The keys to the datatype of a dotted path lead through the children of its names. -/
theorem datatypeKeys_joined (hne : names ≠ []) (h : ∀ n ∈ names, '.' ∉ n.toList) :
    datatypeKeys (joined '.' names) =
      "metadata" :: (names.intersperse "children" ++ ["datatype"]) := by
  obtain ⟨n, ns, rfl⟩ := List.exists_cons_of_ne_nil hne
  have htext : "metadata.".toList ++ ((joined '.' (n :: ns)).toList.flatMap fun c =>
      if c = '.' then ".children.".toList else [c]) ++ ".datatype".toList =
        (joined '.' ("metadata" :: ((n :: ns).intersperse "children" ++ ["datatype"]))).toList := by
    rw [flatMap_children ns h, toList_joined_cons, List.flatMap_append, flatMap_intersperse]
    simp
  have hdots : ∀ s ∈ "metadata" :: ((n :: ns).intersperse "children" ++ ["datatype"]),
      '.' ∉ s.toList := by
    simp only [List.mem_cons, List.mem_append, List.not_mem_nil, or_false]
    rintro s (rfl | hs | rfl)
    · decide
    · rcases mem_of_mem_intersperse hs with rfl | hs
      · decide
      · exact h s hs
    · decide
  unfold datatypeKeys
  dsimp only
  rw [htext, splitOn_joined (by simp) hdots, List.map_map]
  simp [Function.comp_def]

theorem foldlM_item {j : Json} {ks rest : List String} (h : j.at? (ks.map .key) = some node) :
    (ks ++ rest).foldlM item j = rest.foldlM item node := by
  induction ks generalizing j with
  | nil =>
    obtain rfl := Option.some.inj h
    rfl
  | cons k ks ih =>
    rw [List.map_cons, at?_cons, child?_key] at h
    obtain ⟨v, hv, hrest⟩ := Option.bind_eq_some_iff.mp h
    rw [List.cons_append, List.foldlM_cons, item_eq_ok_iff.mpr hv]
    exact ih hrest

/-- The datatype in an answer is that of the node at the end of its spine. -/
theorem datatypeOf_metaDataAnswer {ck : Clock} {requestId : String} (hne : names ≠ [])
    (h : ∀ n ∈ names, '.' ∉ n.toList) (hat : answer.at? (nodeLoc names) = some node) :
    datatypeOf nm (joined '.' names) (metaDataAnswer ck requestId answer) =
      (item node "datatype").bind mapped := by
  have hget : (metaDataAnswer ck requestId answer).get? "metadata" = some answer := by
    simp [metaDataAnswer, get?_ofMembers, Members.get?_cons]
  have herr : (metaDataAnswer ck requestId answer).get? "error" = none := by
    simp [metaDataAnswer, get?_ofMembers, Members.get?_cons]
  have hok : raiseIfInvalid nm (metaDataAnswer ck requestId answer) = .ok () :=
    raiseIfInvalid_ok rfl herr
  have hloc : answer.at? ((names.intersperse "children").map .key) = some node := by
    rwa [Text.map_intersperse]
  simp only [datatypeOf, hok, datatypeKeys_joined hne h, List.foldlM_cons, item_eq_ok_iff.mpr hget]
  show ((names.intersperse "children" ++ ["datatype"]).foldlM item answer).bind mapped = _
  rw [foldlM_item hloc]
  simp

/-- The type of the column of a node. -/
def ColumnType (node : Json) (t : PyArrowType) : Prop :=
  ∃ datatype, node.get? "datatype" = some (.str datatype) ∧
    kuksaToPyArrowMapping datatype = some t

theorem mapped_eq_ok_iff {t : PyArrowType} :
    (item node "datatype").bind mapped = .ok t ↔ ColumnType node t := by
  unfold ColumnType
  cases hi : item node "datatype" with
  | error e =>
    have hno : node.get? "datatype" = none := by
      cases hg : node.get? "datatype" with
      | none => rfl
      | some v => simp [item_eq_ok_iff.mpr hg] at hi
    simp [Except.bind, hno]
  | ok j =>
    rw [item_eq_ok_iff.mp hi]
    cases j with
    | str datatype => cases hm : kuksaToPyArrowMapping datatype <;> simp [Except.bind, mapped, hm]
    | _ => simp [Except.bind, mapped]

/-- There are columns for single values, and not for arrays. -/
theorem kuksaToPyArrowMapping_isSome_iff (datatype : String) :
    (∃ t, kuksaToPyArrowMapping datatype = some t) ↔ datatype ∈ scalarDatatypes := by
  constructor
  · rintro ⟨t, ht⟩
    unfold kuksaToPyArrowMapping at ht
    split at ht <;> simp_all [scalarDatatypes]
  · intro h
    simp only [scalarDatatypes, List.mem_cons, List.not_mem_nil, or_false] at h
    rcases h with rfl | rfl | rfl | rfl | rfl | rfl | rfl | rfl | rfl | rfl | rfl | rfl <;>
      exact ⟨_, rfl⟩

/-- The type of the column of a path, by the tree of metadata. -/
def ShowsType (tree : Json) (p : Poll) (t : PyArrowType) : Prop :=
  ∃ names node, names ≠ [] ∧ p.path = joined '.' names ∧ tree.at? (nodeLoc names) = some node ∧
    ColumnType node t

/-- The path of a poll is the dotted path of a node of the tree. -/
def Dotted (tree : Json) (p : Poll) : Prop :=
  ∃ names node, names ≠ [] ∧ names.length ≤ maxParents ∧ p.path = joined '.' names ∧
    tree.at? (nodeLoc names) = some node

/-- The request of a poll asks for the metadata of its path. -/
def AsksMetaData (pf : Platform) (p : Poll) : Prop :=
  ∃ request requestId, pf.parse p.own.request.reqJson = .ok request ∧
    GetsMetaData pf request p.path requestId

theorem AsksMetaData.database {p : Poll} (h : AsksMetaData pf p) (sv : Server) :
    (handle pf sv p.own).2.database = sv.database := by
  obtain ⟨request, requestId, hp, hg⟩ := h
  rw [handle_parsed hp]
  simp [dispatch, hg.action]

/-- The response to a request for the metadata of a dotted path: the type of the column of its
node. -/
theorem datatypeOf_dotted {a : ChannelRequest} {request response : Json} {requestId : String}
    (ht : MetadataTree sv.database.metaTree) (hne : names ≠ []) (hdepth : names.length ≤ maxParents)
    (hat : sv.database.metaTree.at? (nodeLoc names) = some node)
    (hp : pf.parse a.request.reqJson = .ok request)
    (hg : GetsMetaData pf request (joined '.' names) requestId)
    (h : (handle pf sv a).1 = .ok response) :
    datatypeOf nm (joined '.' names) response = (item node "datatype").bind mapped := by
  have hnames := (ht.nodes.located hne hat).1
  have hquery : pf.jsonPath.matches? sv.database.metaTree
      (VSSPath.fromVSS (joined '.' names)).getJSONPath = .ok [nodeLoc names] := by
    rw [getJSONPath, fromVSS_jsonpath, fromVSS_vsspath,
      MQTTPublisher.gen1togen2_pattern fun n hn => (hnames n hn).segment,
      ← toPath_nodeLoc hne hnames, Loc.toPath, JsonPath.matches?_renderPath,
      select_loc (by simp [hat])]
  obtain ⟨answer, hget, hspine⟩ := (getMetaData_spine pf.jsonPath sv.database
    (VSSPath.fromVSS (joined '.' names)) ht).1 names [] hne hdepth hquery
  have hanswer := handle_getMetaData hp hg hget (Spine.size_ne_zero hspine)
  obtain rfl := Except.ok.inj (hanswer.symm.trans h)
  exact datatypeOf_metaDataAnswer hne (fun n hn => (hnames n hn).segment.not_mem (by decide)
    (by decide)) (hspine.at?.trans hat)

theorem map_snd_asked {polls : List Poll} : (asked pf sv polls).map Prod.snd = polls := by
  induction polls generalizing sv with
  | nil => rfl
  | cons p ps ih => simp only [asked, List.map_cons, ih]

/-- A dotted path names one node. -/
theorem showsType_iff (ht : MetadataTree tree) {p : Poll} (hne : names ≠ [])
    (hpath : p.path = joined '.' names) (hat : tree.at? (nodeLoc names) = some node)
    (t : PyArrowType) : ShowsType tree p t ↔ ColumnType node t := by
  constructor
  · rintro ⟨names', node', hne', hpath', hat', htype⟩
    have hs : ∀ s ∈ names, Segment s := fun s hs => ((ht.nodes.located hne hat).1 s hs).segment
    have hs' : ∀ s ∈ names', Segment s := fun s hs => ((ht.nodes.located hne' hat').1 s hs).segment
    have hslash : joined '/' names = joined '/' names' := by
      rw [← MQTTPublisher.gen1togen2_pattern hs, ← MQTTPublisher.gen1togen2_pattern hs', ← hpath,
        ← hpath']
    obtain rfl := joined_injOn hne hne' hs hs' hslash
    obtain rfl := Option.some.inj (hat.symm.trans hat')
    exact htype
  · intro htype
    exact ⟨names, node, hne, hpath, hat, htype⟩

/-- The types that are fetched of dotted paths by requests for metadata, beside any requests of
clients without the right to change the trees, are those of their nodes; they can be fetched exactly
if each node has the datatype of single values. -/
theorem getDatatypes_shows (pf : Platform) (nm : Numerics) (sv : Server) (polls : List Poll)
    (responses : List (String × Json)) (ht : MetadataTree sv.database.metaTree)
    (hdotted : ∀ p ∈ polls, Dotted sv.database.metaTree p) (hasks : ∀ p ∈ polls, AsksMetaData pf p)
    (hothers : ∀ p ∈ polls, ∀ a ∈ p.others, a.channel.modifyTree = false)
    (hr : List.Forall₂ (Responds pf) (asked pf sv polls) responses) :
    (∀ d, getDatatypes nm responses = .ok d ↔
      ∃ ts, List.Forall₂ (ShowsType sv.database.metaTree) polls ts ∧
        d = Dictionary.ofItems ((polls.map Poll.path).zip ts)) ∧
    ((∃ d, getDatatypes nm responses = .ok d) ↔ ∀ p ∈ polls, ∃ names datatype, names ≠ [] ∧
      p.path = joined '.' names ∧ datatype ∈ scalarDatatypes ∧
      sv.database.metaTree.at? (nodeLoc names ++ [.key "datatype"]) = some (.str datatype)) := by
  have hstate := asked_invariant (P := fun sv' => sv'.database.metaTree = sv.database.metaTree)
    rfl (fun p hp a ha sv' h => (handle_metaTree (hothers p hp a ha)).trans h)
    (fun p hp sv' h => by rw [(hasks p hp).database]; exact h)
  have hread : ∀ q ∈ asked pf sv polls, ∀ response, (handle pf q.1 q.2.own).1 = .ok response →
      ∀ t, datatypeOf nm q.2.path response = .ok t ↔ ShowsType sv.database.metaTree q.2 t := by
    intro q hq response h t
    obtain ⟨hmem, htree⟩ := hstate q hq
    obtain ⟨names, node, hne, hdepth, hpath, hat⟩ := hdotted q.2 hmem
    obtain ⟨request, requestId, hp, hg⟩ := hasks q.2 hmem
    rw [showsType_iff ht hne hpath hat, hpath,
      datatypeOf_dotted (htree ▸ ht) hne hdepth (htree ▸ hat) hp (hpath ▸ hg) h, mapped_eq_ok_iff]
  have hok (d : List (String × PyArrowType)) : getDatatypes nm responses = .ok d ↔
      ∃ ts, List.Forall₂ (ShowsType sv.database.metaTree) polls ts ∧
        d = Dictionary.ofItems ((polls.map Poll.path).zip ts) := by
    refine (collect_polls hr hread d).trans (exists_congr fun ts => and_congr_left' ?_)
    rw [← List.forall₂_map_left_iff, map_snd_asked]
  refine ⟨hok, ?_⟩
  have hall : (∃ d, getDatatypes nm responses = .ok d) ↔
      ∀ p ∈ polls, ∃ t, ShowsType sv.database.metaTree p t := by
    rw [← exists_forall₂_iff]
    simp only [hok]
    exact ⟨fun ⟨_, ts, hts, _⟩ => ⟨ts, hts⟩, fun ⟨ts, hts⟩ => ⟨_, ts, hts, rfl⟩⟩
  rw [hall]
  refine forall₂_congr fun p hp => ?_
  constructor
  · rintro ⟨t, names, node, hne, hpath, hat, datatype, hd, hm⟩
    refine ⟨names, datatype, hne, hpath, (kuksaToPyArrowMapping_isSome_iff datatype).mp ⟨t, hm⟩, ?_⟩
    rw [at?_append, hat, Option.bind_some, MetaDataUpdates.at?_key, hd]
  · rintro ⟨names, datatype, hne, hpath, hscalar, hat⟩
    obtain ⟨t, ht⟩ := (kuksaToPyArrowMapping_isSome_iff datatype).mpr hscalar
    rw [at?_append] at hat
    obtain ⟨node, hnode, hd⟩ := Option.bind_eq_some_iff.mp hat
    rw [MetaDataUpdates.at?_key] at hd
    exact ⟨t, names, node, hne, hpath, hnode, datatype, hd, ht⟩

section Unit

/-- The metadata of the speed are fetched after another client has read its value. -/
def unitPoll : Poll := ⟨[⟨{}, ⟨midnight, 0, "get"⟩⟩], "Vehicle.Speed", ⟨{}, ⟨midnight, 0, "read"⟩⟩⟩

def unitStart : Server :=
  ⟨⟨unitTree [("unit", .str "km/h")], unitTree [("unit", .str "km/h")]⟩, ⟨[], []⟩, ⟨"key"⟩⟩

theorem getDatatypes_shows_unit : ∃ responses, List.Forall₂ (Responds (.basic unitRequest))
      (asked (.basic unitRequest) unitStart [unitPoll]) responses ∧
    getDatatypes .decimal responses = .ok [("Vehicle.Speed", .uint8)] := by
  have hanswered : ((asked (.basic unitRequest) unitStart [unitPoll]).all fun q =>
      (handle (.basic unitRequest) q.1 q.2.own).1.toOption.isSome) = true := by decide +kernel
  obtain ⟨responses, hr⟩ := exists_responds hanswered
  refine ⟨responses, hr, ?_⟩
  have hpath : unitPoll.path = joined '.' ["Vehicle", "Speed"] := by decide +kernel
  refine ((getDatatypes_shows (.basic unitRequest) .decimal unitStart [unitPoll] responses
    unitTree_metadataTree ?_ ?_ (by decide +kernel) hr).1 _).mpr ⟨[.uint8], ?_, by decide +kernel⟩
  · intro p hp
    obtain rfl := List.mem_singleton.mp hp
    exact ⟨["Vehicle", "Speed"], _, by simp, by decide, hpath, rfl⟩
  · intro p hp
    obtain rfl := List.mem_singleton.mp hp
    exact ⟨_, "3", rfl, rfl, by decide +kernel, rfl, rfl⟩
  · exact .cons ⟨["Vehicle", "Speed"], _, by simp, hpath, rfl, "uint8", rfl, rfl⟩ .nil

end Unit

end Types

end KuksaVALServerClient
