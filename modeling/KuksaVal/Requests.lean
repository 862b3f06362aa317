import KuksaVal.Runs
import KuksaVal.SetRequest

/-! The requests of one channel in a row: what a single one can do to the server and to the
channel, and the runs of them. -/
namespace VssCommandProcessor
open Json JsonResponses VSSRequestValidator AccessChecker

section Effects

variable (pf : Platform) (ck : Clock)

/-- The request hands over a token. -/
def Authorizes (request : Json) (token : String) : Prop :=
  text request "action" = .ok "authorize" ∧ text request "tokens" = .ok token ∧
    ∃ requestId, text request "requestId" = .ok requestId

/-- The request gives up the subscription of a number. -/
def Unsubscribes (request : Json) (id : SubscriptionId) : Prop :=
  text request "action" = .ok "unsubscribe" ∧
    valid pf.numerics schemaUnsubscribe request = true ∧
    ∃ requestId subscriptionId, text request "requestId" = .ok requestId ∧
      text request "subscriptionId" = .ok subscriptionId ∧ pf.parseUuid subscriptionId = .ok id

/-- What a request can do, with the right that it takes. -/
inductive Effect (sv : Server) (subId : SubscriptionId) (channel : KuksaChannel)
    (request : Json) : Server → KuksaChannel → Prop
  | none : Effect sv subId channel request sv channel
  | authorize {token : String} (ha : Authorizes request token) :
      Effect sv subId channel request sv
        (sv.tokenValidator.validate pf.jwt pf.numerics channel token).2
  | set {path : VSSPath} {attr : String} {value : Json}
      (hw : checkWriteAccess pf.regex channel path = .ok true) {r : Except Exn Json}
      {db : VssDatabase} {pubs : List Publication}
      (hs : sv.database.setSignal pf.jsonPath pf.numerics ck path attr value = (r, db, pubs)) :
      Effect sv subId channel request
        { sv with database := db, subHandler := publishAll sv.subHandler pubs } channel
  | update (db : VssDatabase) (hm : channel.modifyTree = true) :
      Effect sv subId channel request { sv with database := db } channel
  | unsubscribe {id : SubscriptionId} (hu : Unsubscribes pf request id) :
      Effect sv subId channel request
        { sv with subHandler := (sv.subHandler.unsubscribe id).2 } channel
  | subscribe {path : String} (attr : String)
      (hr : checkReadAccess pf.regex channel (.fromVSS path) = .ok true) :
      Effect sv subId channel request { sv with subHandler :=
        (sv.subHandler.enter ⟨(VSSPath.fromVSS path).getVSSPath, attr⟩ subId channel) } channel

variable {pf ck} {sv : Server} {subId : SubscriptionId} {channel : KuksaChannel} {request : Json}

theorem processSet_effect : Effect pf ck sv subId channel request
    { sv with
      database := (processSet pf ck sv.database channel request).2.1,
      subHandler := publishAll sv.subHandler
        (processSet pf ck sv.database channel request).2.2 } channel := by
  unfold processSet
  split
  · exact .none
  · split
    · rename_i path requestId value _ _ _
      unfold performSet
      split
      · exact .none
      · exact .none
      · rename_i hr
        obtain ⟨hw, -⟩ := setRefusal_none hr
        split
        · rename_i hs
          exact .set hw hs
        · rename_i hs
          exact .set hw hs
    · exact .none
    · exact .none
    · exact .none

theorem updateJsonTree_unauthorized (db : VssDatabase) (metadata : Json)
    (hm : channel.modifyTree = false) : (db.updateJsonTree channel metadata).2 = db := by
  simp [VssDatabase.updateJsonTree, KuksaChannel.authorizedToModifyTree, hm]

variable (pf) in
theorem updateMetaData_unauthorized (db : VssDatabase) (path : VSSPath) (metadata : Json)
    (hm : channel.modifyTree = false) :
    (db.updateMetaData pf.jsonPath channel path metadata).2 = db := by
  simp [VssDatabase.updateMetaData, KuksaChannel.authorizedToModifyTree, hm]

theorem processUpdateVSSTree_effect : Effect pf ck sv subId channel request
    { sv with database := (processUpdateVSSTree pf ck sv.database channel request).2 } channel := by
  cases hm : channel.modifyTree with
  | true => exact .update _ hm
  | false =>
    have hdb : (processUpdateVSSTree pf ck sv.database channel request).2 = sv.database := by
      unfold processUpdateVSSTree
      split
      · rfl
      · split
        · rename_i requestId metadata _ _
          have hu := updateJsonTree_unauthorized sv.database metadata hm
          split
          · rename_i hs
            rw [hs] at hu
            exact hu
          · rename_i hs
            rw [hs] at hu
            exact hu
        · rfl
        · rfl
    rw [hdb]
    exact .none

theorem processUpdateMetaData_effect : Effect pf ck sv subId channel request
    { sv with database := (processUpdateMetaData pf ck sv.database channel request).2 } channel := by
  cases hm : channel.modifyTree with
  | true => exact .update _ hm
  | false =>
    have hdb : (processUpdateMetaData pf ck sv.database channel request).2 = sv.database := by
      unfold processUpdateMetaData
      split
      · rfl
      · rename_i path _
        split
        · rfl
        · split
          · rename_i requestId metadata _ _
            have hu := updateMetaData_unauthorized pf sv.database (.fromVSS path) metadata hm
            split
            · rename_i hs
              rw [hs] at hu
              exact hu
            · rename_i hs
              rw [hs] at hu
              exact hu
          · rfl
          · rfl
    rw [hdb]
    exact .none

theorem processUnsubscribe_effect (ha : text request "action" = .ok "unsubscribe") :
    Effect pf ck sv subId channel request
      { sv with subHandler := (processUnsubscribe pf ck sv request).2 } channel := by
  unfold processUnsubscribe
  split
  · exact .none
  · rename_i hv
    split
    · rename_i requestId subscriptionId hi hs
      split
      · exact .none
      · rename_i id hp
        have hu : Unsubscribes pf request id :=
          ⟨ha, (validate_eq_ok_iff pf.numerics).mp hv, requestId, subscriptionId, hi, hs, hp⟩
        split
        rename_i res handler hres
        have hh : handler = (sv.subHandler.unsubscribe id).2 := (congrArg Prod.snd hres).symm
        subst hh
        split_ifs
        · exact .unsubscribe hu
        · exact .unsubscribe hu
    · exact .none
    · exact .none

theorem processSubscribe_effect : Effect pf ck sv subId channel request
    { sv with subHandler := (processSubscribe pf ck sv subId channel request).2 } channel := by
  unfold processSubscribe
  split
  · exact .none
  · split
    · rename_i path requestId _ _
      unfold SubscriptionHandler.subscribe
      cases hc : SubscriptionHandler.checkSubscribe pf.jsonPath pf.regex sv.database channel path with
      | error e => exact .none
      | ok p =>
        obtain ⟨rfl, hr, -⟩ := SubscriptionHandler.checkSubscribe_eq_ok_iff.mp hc
        exact .subscribe _ hr
    · exact .none
    · exact .none

theorem processAuthorize_channel (pf : Platform) (ck : Clock) (auth : Authenticator)
    (channel : KuksaChannel) (requestId token : String) :
    (processAuthorize pf ck auth channel requestId token).2 =
      (auth.validate pf.jwt pf.numerics channel token).2 := by
  unfold processAuthorize
  split
  · rename_i h
    rw [h]
  · rename_i h
    rw [h]
    split_ifs <;> rfl

/-- Every request does one of these things, whatever its answer. -/
theorem dispatch_effect (pf : Platform) (ck : Clock) (sv : Server) (subId : SubscriptionId)
    (channel : KuksaChannel) (request : Json) :
    Effect pf ck sv subId channel request (dispatch pf ck sv subId channel request).2.1
      (dispatch pf ck sv subId channel request).2.2 := by
  unfold dispatch
  split
  · exact .none
  · rename_i action ha
    by_cases h1 : action = "get"
    · rw [if_pos h1]
      exact .none
    rw [if_neg h1]
    by_cases h2 : action = "set"
    · rw [if_pos h2]
      exact processSet_effect
    rw [if_neg h2]
    by_cases h3 : action = "getMetaData"
    · rw [if_pos h3]
      exact .none
    rw [if_neg h3]
    by_cases h4 : action = "updateMetaData"
    · rw [if_pos h4]
      exact processUpdateMetaData_effect
    rw [if_neg h4]
    by_cases h5 : action = "authorize"
    · rw [if_pos h5]
      split
      · rename_i token requestId ht hi
        subst h5
        show Effect pf ck sv subId channel request sv
          (processAuthorize pf ck sv.tokenValidator channel requestId token).2
        rw [processAuthorize_channel]
        exact .authorize ⟨ha, ht, requestId, hi⟩
      · exact .none
      · exact .none
    rw [if_neg h5]
    by_cases h6 : action = "unsubscribe"
    · rw [if_pos h6]
      subst h6
      exact processUnsubscribe_effect ha
    rw [if_neg h6]
    by_cases h7 : action = "subscribe"
    · rw [if_pos h7]
      exact processSubscribe_effect
    rw [if_neg h7]
    by_cases h8 : action = "updateVSSTree"
    · rw [if_pos h8]
      exact processUpdateVSSTree_effect
    · rw [if_neg h8]
      exact .none

theorem processQuery_effect {reqJson : String} (hp : pf.parse reqJson = .ok request) :
    Effect pf ck sv subId channel request (processQuery pf ck sv subId reqJson channel).2.1
      (processQuery pf ck sv subId reqJson channel).2.2 := by
  have he := dispatch_effect pf ck sv subId channel request
  unfold processQuery
  simp only [hp]
  split
  · rename_i hd
    rw [hd] at he
    split_ifs <;> exact he
  · rename_i hd
    rw [hd] at he
    exact he

/-- A request that gives up a subscription does so. -/
theorem processQuery_unsubscribes {reqJson : String} (hp : pf.parse reqJson = .ok request)
    {id : SubscriptionId} (hu : Unsubscribes pf request id) :
    (processQuery pf ck sv subId reqJson channel).2 =
      ({ sv with subHandler := (sv.subHandler.unsubscribe id).2 }, channel) := by
  obtain ⟨ha, hv, requestId, subscriptionId, hi, hs, hid⟩ := hu
  have hval : validateRequest pf schemaUnsubscribe request = .ok () :=
    (validate_eq_ok_iff pf.numerics).mpr hv
  have hpu : ∃ answer, processUnsubscribe pf ck sv request =
      (.ok answer, (sv.subHandler.unsubscribe id).2) := by
    simp only [processUnsubscribe, hval, hi, hs, hid]
    split_ifs
    · exact ⟨_, rfl⟩
    · exact ⟨_, rfl⟩
  obtain ⟨answer, hpu⟩ := hpu
  simp [processQuery, hp, dispatch, ha, hpu]

theorem processQuery_not_parsed {reqJson e : String} (hp : pf.parse reqJson = .error e) :
    processQuery pf ck sv subId reqJson channel =
      (.ok (malFormedMessage ck e "UNKNOWN"), sv, channel) := by
  simp [processQuery, hp]

end Effects

end VssCommandProcessor

/-- The text of a request, and what the system answers while it is handled. -/
structure ClientRequest where
  clock : Clock
  subId : SubscriptionId
  reqJson : String

/-- A server and one of its channels, with the requests that were handled on it. -/
structure Session where
  server : Server
  channel : KuksaChannel
  handled : List (ClientRequest × Except Exn Json) := []

namespace Session
open VssCommandProcessor AccessChecker

variable (pf : Platform)

/-- Nothing follows on a request for which the program has no defined behaviour. -/
def next (s : Session) (r : ClientRequest) : Option Session :=
  match processQuery pf r.clock s.server r.subId r.reqJson s.channel with
  | (answer, server, channel) =>
      match answer with
      | .error e => if e.kind = .undefinedBehaviour then none
          else some ⟨server, channel, s.handled ++ [(r, answer)]⟩
      | .ok _ => some ⟨server, channel, s.handled ++ [(r, answer)]⟩

/-- All runs of requests on a channel. -/
def system (start : Session) : TransitionSystem Session ClientRequest := .ofNext start (next pf)

variable {pf}

theorem next_eq_some {s s' : Session} {r : ClientRequest} (h : next pf s r = some s') :
    processQuery pf r.clock s.server r.subId r.reqJson s.channel =
        ((processQuery pf r.clock s.server r.subId r.reqJson s.channel).1, s'.server, s'.channel) ∧
      s'.handled = s.handled ++
        [(r, (processQuery pf r.clock s.server r.subId r.reqJson s.channel).1)] := by
  unfold next at h
  split at h
  rename_i answer server channel hq
  rw [hq]
  split at h
  · split_ifs at h
    obtain rfl := Option.some.inj h
    exact ⟨rfl, rfl⟩
  · obtain rfl := Option.some.inj h
    exact ⟨rfl, rfl⟩

/-- A step changes nothing, or has one of the effects of its request. -/
theorem step_cases {s s' : Session} {r : ClientRequest} (h : next pf s r = some s') :
    ((∃ e, pf.parse r.reqJson = .error e) ∧ s'.server = s.server ∧ s'.channel = s.channel) ∨
      ∃ request, pf.parse r.reqJson = .ok request ∧
        Effect pf r.clock s.server r.subId s.channel request s'.server s'.channel := by
  obtain ⟨hq, -⟩ := next_eq_some h
  cases hp : pf.parse r.reqJson with
  | error e =>
    rw [processQuery_not_parsed hp] at hq
    obtain ⟨hs, hc⟩ := Prod.mk.inj (Prod.mk.inj hq).2
    exact Or.inl ⟨⟨e, rfl⟩, hs.symm, hc.symm⟩
  | ok request =>
    have he : Effect pf r.clock s.server r.subId s.channel request _ _ :=
      processQuery_effect hp
    rw [hq] at he
    exact Or.inr ⟨request, rfl, he⟩

end Session
