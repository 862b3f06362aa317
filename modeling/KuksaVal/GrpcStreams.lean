import KuksaVal.GrpcSessions

/-! Subscription streams: the steps of their handlers, the publications, and the thread that
takes an entry from the buffer and writes it to its stream. -/
open Json

/-- A request that was read from a stream. -/
structure SubscribeRequest where
  path : String
  type : RequestType
  start : Bool
  deriving DecidableEq, Repr

/-- Where the handler of a stream is. -/
inductive StreamPc where
  | reading
  | registered (key : SubscriptionKey) (id : SubscriptionId)
  | confirmed (key : SubscriptionKey) (id : SubscriptionId)
  | unsubscribed (key : SubscriptionKey) (id : SubscriptionId)
  | closed
  | cleaning
  | ended
  deriving DecidableEq, Repr

/-- A call of `subscribe`, with the attribute that is left in its request object. -/
structure SubscribeCall where
  kc : KuksaChannel
  subsMap : ℕ
  stream : ℕ
  currentSubs : List (SubscriptionKey × SubscriptionId) := []
  attr : Option String := none
  pc : StreamPc := .reading
  deriving DecidableEq

/-- What the thread does with an entry. -/
inductive Forwarded where
  | written (stream : ℕ) (value : String × GrpcValue)
  | discarded
  | sent
  | gone
  | failed (e : Exn)
  deriving DecidableEq

/-- An entry that the thread took, and the stream that it was owed to. -/
structure Outcome where
  notification : Notification
  owed : Option ℕ
  result : Forwarded
  deriving DecidableEq

/-- The calls are known by the addresses of their contexts. A subscription is open, for a call
and its stream, from its 200 response until it is unsubscribed or the stream ends; what is
published then is owed to the stream. -/
structure GrpcServer where
  svc : RequestServiceImpl := {}
  handler : SubscriptionHandler := {}
  maps : ℕ → List (SubscriptionId × ℕ) := fun _ => []
  calls : ℕ → Option SubscribeCall := fun _ => none
  running : Bool := true
  entered : SubscriptionId → Option KuksaChannel := fun _ => none
  opened : SubscriptionId → Option (ℕ × ℕ) := fun _ => none
  owed : List (Option ℕ) := []
  outcomes : List Outcome := []

inductive GrpcStep where
  | authorize (ck : Clock) (uuid : SubscriptionId) (peer token : String)
  | start (context : ServerContext) (stream : ℕ)
  | request (address : ℕ) (db : VssDatabase) (subId : SubscriptionId) (request : SubscribeRequest)
  | respond (address : ℕ)
  | insert (address : ℕ)
  | erase (address : ℕ)
  | finish (address : ℕ)
  | unsubscribeAll (address : ℕ)
  | clear (address : ℕ)
  | subscribe (db : VssDatabase) (subId : SubscriptionId) (channel : KuksaChannel)
      (path attr : String)
  | unsubscribe (subscribeID : SubscriptionId)
  | publish (p : Publication)
  | forward (ck : Clock) (connectionexist : Bool)

namespace GrpcServer
open RequestServiceImpl

variable (pf : Platform) (auth : Authenticator) (st : GrpcServer)

def setCall (address : ℕ) (call : SubscribeCall) : GrpcServer :=
  { st with calls := Function.update st.calls address (some call) }

def setMap (subsMap : ℕ) (subs : List (SubscriptionId × ℕ)) : GrpcServer :=
  { st with maps := Function.update st.maps subsMap subs }

/-- The handler leaves its loop. -/
def leave (address : ℕ) (call : SubscribeCall) : GrpcServer :=
  { st.setCall address { call with pc := .closed } with
    opened := fun id => (st.opened id).filter fun o => decide (o.1 ≠ address) }

/-- The end of the loop's body: it is left when no subscription is in the map. -/
def endIteration (address : ℕ) (call : SubscribeCall) : GrpcServer :=
  if st.maps call.subsMap = [] then st.leave address call
  else st.setCall address { call with pc := .reading }

/-- No call runs at an address. -/
def idle (address : ℕ) : Bool := (st.calls address).all fun call => decide (call.pc = .ended)

/-- A call that begins. Without a session it is answered and ends at once. -/
def start (context : ServerContext) (stream : ℕ) : Option GrpcServer :=
  if st.idle context.address then
    match getKuksaChannelForSubscriptionContext pf st.svc context with
    | (none, svc) => some { st with svc := svc }
    | (some kc, svc) =>
        kc.grpcSubsMap.map fun p => { st.setCall context.address ⟨kc, p, stream, [], none, .reading⟩
          with svc := svc }
  else none

/-- The first step of a subscription. A refusal is answered, and nothing is entered. -/
def register (address : ℕ) (db : VssDatabase) (subId : SubscriptionId) (r : SubscribeRequest)
    (call : SubscribeCall) : GrpcServer :=
  let attr := r.type.attribute.orElse fun _ => call.attr
  match st.handler.subscribe pf.jsonPath pf.regex db subId call.kc r.path
    (attr.getD "value") with
  | (.error _, _) => st.endIteration address { call with attr := attr }
  | (.ok id, handler) =>
      { st.setCall address { call with
          attr := attr
          pc := .registered ⟨r.path, r.type.attribute.getD "value"⟩ id } with
        handler := handler
        entered := Function.update st.entered id (some call.kc) }

/-- The first step of giving up a subscription. -/
def unsubscribeRequest (address : ℕ) (r : SubscribeRequest) (call : SubscribeCall) : GrpcServer :=
  let key : SubscriptionKey := ⟨r.path, r.type.attribute.getD "value"⟩
  match Members.get? key call.currentSubs with
  | none => st.endIteration address call
  | some id =>
      match st.handler.unsubscribe id with
      | (res, handler) =>
          let st := { st with handler := handler, opened := Function.update st.opened id none }
          if res = 0 then st.setCall address { call with pc := .unsubscribed key id }
          else st.endIteration address call

/-- `answer` of the thread. -/
def subscriptionAnswer (ck : Clock) (n : Notification) : Except Exn Json :=
  (JsonResponses.convertJSONTimeStampToISO8601 ck pf.numerics
    ((n.data.get? "dp").getD (.obj []))).map fun dp =>
      ofMembers [("action", .str "subscription"),
        ("subscriptionId", .str (pf.printUuid n.subscriptionId)),
        ("data", n.data.insertOrAssign "dp" dp)]

/-- An entry of a stream that is not in the map is dropped. -/
def forwarded (ck : Clock) (connectionexist : Bool) (n : Notification) : Forwarded :=
  match subscriptionAnswer pf ck n with
  | .error e => .failed e
  | .ok answer =>
      if n.channel.typeOfConnection = .grpc then
        match n.channel.grpcSubsMap.bind fun p => Members.get? n.subscriptionId (st.maps p) with
        | none => .discarded
        | some stream =>
            match GrpcHandler.grpcSendObjectToStream pf.numerics n.vssdatatype answer with
            | .error e => .failed e
            | .ok value => .written stream value
      else if connectionexist then .sent else .gone

/-- What is thrown in the thread ends it. -/
def forward (ck : Clock) (connectionexist : Bool) : Option GrpcServer :=
  if st.running then
    match st.handler.buffer with
    | [] => none
    | n :: rest =>
        let result := st.forwarded pf ck connectionexist n
        let handler := { st.handler with buffer := rest }
        some { st with
          handler := if result = .gone then handler.unsubscribeAll n.channel else handler
          running := match result with | .failed _ => false | _ => true
          owed := st.owed.drop 1
          outcomes := st.outcomes ++ [⟨n, (st.owed.head?).getD none, result⟩] }
  else none

/-- The steps. Numbers of sessions and of subscriptions are drawn at random and never repeat.
The other clients are known by channels that have no map of streams. -/
def next : GrpcStep → Option GrpcServer
  | .authorize ck uuid peer token =>
      if (st.svc.grpcSessionMap ⟨peer, uuid⟩).isSome then none
      else some { st with svc := (authorizeHelper pf ck auth st.svc uuid peer token).2 }
  | .start context stream => st.start pf context stream
  | .request address db subId r => (st.calls address).bind fun call =>
      if call.pc ≠ .reading ∨ (st.entered subId).isSome then none
      else some (if r.start then st.register pf address db subId r call
        else st.unsubscribeRequest address r call)
  | .respond address => (st.calls address).bind fun call =>
      match call.pc with
      | .registered key id => some { st.setCall address { call with pc := .confirmed key id } with
          opened := Function.update st.opened id (some (address, call.stream)) }
      | _ => none
  | .insert address => (st.calls address).bind fun call =>
      match call.pc with
      | .confirmed key id => some (endIteration
          (st.setMap call.subsMap (Members.assign id call.stream (st.maps call.subsMap)))
          address { call with currentSubs := Members.assign key id call.currentSubs })
      | _ => none
  | .erase address => (st.calls address).bind fun call =>
      match call.pc with
      | .unsubscribed key id => some (endIteration
          (st.setMap call.subsMap (Members.erase id (st.maps call.subsMap)))
          address { call with currentSubs := Members.erase key call.currentSubs })
      | _ => none
  | .finish address => (st.calls address).bind fun call =>
      if call.pc = .reading then some (st.leave address call) else none
  | .unsubscribeAll address => (st.calls address).bind fun call =>
      if call.pc = .closed then some { st.setCall address { call with pc := .cleaning } with
        handler := st.handler.unsubscribeAll call.kc }
      else none
  | .clear address => (st.calls address).bind fun call =>
      if call.pc = .cleaning then
        some ((st.setMap call.subsMap []).setCall address { call with pc := .ended })
      else none
  | .subscribe db subId channel path attr =>
      if channel.typeOfConnection = .grpc ∨ channel.grpcSubsMap.isSome ∨
          (st.entered subId).isSome then none
      else match st.handler.subscribe pf.jsonPath pf.regex db subId channel path attr with
        | (.error _, _) => some st
        | (.ok id, handler) => some { st with
            handler := handler, entered := Function.update st.entered id (some channel) }
  | .unsubscribe subscribeID => some { st with
      handler := (st.handler.unsubscribe subscribeID).2,
      opened := Function.update st.opened subscribeID none }
  | .publish p => some { st with
      handler := st.handler.publishForVSSPath p
      owed := st.owed ++ (st.handler.subscriptionsFor ⟨p.path.getVSSPath, p.attr⟩).map fun sub =>
        (st.opened sub.1).map Prod.snd }
  | .forward ck connectionexist => st.forward pf ck connectionexist

/-- All runs of the service from its start. -/
def system : TransitionSystem GrpcServer GrpcStep := .ofNext {} (next pf auth)

/-- The entry can be converted for a stream. -/
def Sendable (ck : Clock) (n : Notification) : Prop :=
  ∃ value, (subscriptionAnswer pf ck n).bind
    (GrpcHandler.grpcSendObjectToStream pf.numerics n.vssdatatype) = .ok value

variable {pf}

/-- What is sent to a stream has the attribute `value`. -/
theorem get?_of_sent {nm : Numerics} {vssdatatype : String} {answer : Json}
    {sent : String × GrpcValue}
    (h : GrpcHandler.grpcSendObjectToStream nm vssdatatype answer = .ok sent) :
    ∃ data dp value, answer.get? "data" = some data ∧ data.get? "dp" = some dp ∧
      dp.get? "value" = some value := by
  have hpoint : ∃ value, GrpcHandler.dataPoint answer "value" = .ok value := by
    unfold GrpcHandler.grpcSendObjectToStream GrpcHandler.grpcFillValue at h
    cases hp : GrpcHandler.dataPoint answer "value" with
    | error e => simp [hp, Except.bind] at h
    | ok value => exact ⟨value, rfl⟩
  obtain ⟨value, hp⟩ := hpoint
  unfold GrpcHandler.dataPoint at hp
  cases hdata : answer.member "data" with
  | error e => simp [hdata, Except.bind] at hp
  | ok data =>
    cases hdp : data.member "dp" with
    | error e => simp [hdata, hdp, Except.bind] at hp
    | ok dp =>
      simp only [hdata, hdp, Except.bind] at hp
      exact ⟨data, dp, value, member_eq_ok.mp hdata, member_eq_ok.mp hdp, member_eq_ok.mp hp⟩

/-- A set of another attribute, such as `targetValue`, cannot be sent to a stream. -/
theorem not_sendable_of_attr {ck : Clock} {n : Notification} {path : VSSPath} {attr : String}
    {value resJson : Json} (hdata : n.data = VssDatabase.publishedData path attr value resJson)
    (hattr : attr ∉ ["value", "ts_s", "ts_ns"]) : ¬ Sendable pf ck n := by
  rintro ⟨sent, hsent⟩
  obtain ⟨hvalue, hs, hns⟩ : attr ≠ "value" ∧ attr ≠ "ts_s" ∧ attr ≠ "ts_ns" := by
    simpa using hattr
  unfold subscriptionAnswer at hsent
  have hdp : n.data.get? "dp" = some (ofMembers [(attr, value),
      ("ts_s", (resJson.get? ("ts_s-" ++ attr)).getD .null),
      ("ts_ns", (resJson.get? ("ts_ns-" ++ attr)).getD .null)]) := by
    rw [hdata, VssDatabase.publishedData, JsonResponses.get?_ofMembers]
    simp [Members.get?_cons]
  rw [hdp, Option.getD_some] at hsent
  cases hc : JsonResponses.convertJSONTimeStampToISO8601 ck pf.numerics (ofMembers [(attr, value),
      ("ts_s", (resJson.get? ("ts_s-" ++ attr)).getD .null),
      ("ts_ns", (resJson.get? ("ts_ns-" ++ attr)).getD .null)]) with
  | error e => simp [hc, Except.map, Except.bind] at hsent
  | ok dp =>
    simp only [hc, Except.map, Except.bind] at hsent
    obtain ⟨data, dp', v, h1, h2, h3⟩ := get?_of_sent hsent
    have hobject : n.data.isObject = true := by
      rw [hdata]
      rfl
    rw [JsonResponses.get?_ofMembers] at h1
    obtain rfl : n.data.insertOrAssign "dp" dp = data := by
      simpa [Members.get?_cons] using h1
    obtain rfl : dp = dp' := by simpa [hobject] using h2
    rw [JsonResponses.convertJSONTimeStampToISO8601_get? ck pf.numerics rfl hc (by decide),
      JsonResponses.get?_ofMembers] at h3
    simp [Members.get?_cons, Ne.symm hvalue] at h3

section Effects
open SubscriptionHandler

variable (pf) in
/-- A subscription is refused, or entered for a channel that has rights. -/
theorem subscribe_cases (handler : SubscriptionHandler) (db : VssDatabase) (subId : SubscriptionId)
    (channel : KuksaChannel) (path attr : String) :
    (∃ e, handler.subscribe pf.jsonPath pf.regex db subId channel path attr = (.error e, handler)) ∨
    channel.permissions ≠ [] ∧ (∃ p, checkSubscribe pf.jsonPath pf.regex db channel path = .ok p) ∧
      handler.subscribe pf.jsonPath pf.regex db subId channel path attr =
        (.ok subId, handler.enter ⟨(VSSPath.fromVSS path).getVSSPath, attr⟩ subId channel) := by
  unfold SubscriptionHandler.subscribe
  cases hs : checkSubscribe pf.jsonPath pf.regex db channel path with
  | error e => exact .inl ⟨e, rfl⟩
  | ok p =>
    obtain ⟨rfl, hr, -⟩ := checkSubscribe_eq_ok_iff.mp hs
    exact .inr ⟨AccessChecker.permissions_of_readAccess hr, ⟨_, rfl⟩, rfl⟩

/-- A call begins with the channel kept at its address, or without a session it ends, or it begins
with a new channel and a new map. -/
theorem start_cases {st st' : GrpcServer} {context : ServerContext} {stream : ℕ}
    (hsound : st.svc.Sound) (hs : st.start pf context stream = some st') :
    st.idle context.address = true ∧
    ((∃ kc p, st.svc.grpcSubscribeSessionMap context.address = some kc ∧
        kc.grpcSubsMap = some p ∧
        st' = st.setCall context.address ⟨kc, p, stream, [], none, .reading⟩) ∨
      (∃ svc : RequestServiceImpl, svc.Sound ∧
        svc.grpcSubscribeSessionMap = st.svc.grpcSubscribeSessionMap ∧
        svc.nextMap = st.svc.nextMap ∧ st' = { st with svc := svc }) ∨
      ∃ (kc : KuksaChannel) (svc : RequestServiceImpl), svc.Sound ∧
        st.svc.grpcSubscribeSessionMap context.address = none ∧
        kc.grpcSubsMap = some st.svc.nextMap ∧
        svc.grpcSubscribeSessionMap =
          Function.update st.svc.grpcSubscribeSessionMap context.address (some kc) ∧
        svc.nextMap = st.svc.nextMap + 1 ∧
        st' = { st.setCall context.address ⟨kc, st.svc.nextMap, stream, [], none, .reading⟩ with
          svc := svc }) := by
  unfold GrpcServer.start at hs
  split_ifs at hs with hidle
  refine ⟨hidle, ?_⟩
  obtain ⟨hmap, hnext⟩ := authChecker_subscribeMap pf st.svc context
  have hafter := hsound.getKuksaChannel pf context
  rcases getKuksaChannel_cases pf st.svc context with ⟨kc, hk, he⟩ | ⟨-, -, he⟩ |
    ⟨kc, hno, -, he⟩
  · simp only [he] at hs
    obtain ⟨p, hp, rfl⟩ := Option.map_eq_some_iff.mp hs
    exact .inl ⟨kc, p, hk, hp, rfl⟩
  · simp only [he] at hs hafter
    obtain rfl := Option.some.inj hs
    exact .inr (.inl ⟨_, hafter, hmap, hnext, rfl⟩)
  · rw [hmap, hnext] at he
    simp only [he, Option.map_some] at hs hafter
    obtain rfl := Option.some.inj hs
    exact .inr (.inr ⟨_, _, hafter, hno, rfl, rfl, rfl, rfl⟩)

variable (pf) in
/-- A request to start ends the body of the loop, or its subscription is entered. -/
theorem register_cases (st : GrpcServer) (address : ℕ) (db : VssDatabase) (subId : SubscriptionId)
    (r : SubscribeRequest) (call : SubscribeCall) : ∃ attr,
    st.register pf address db subId r call = st.endIteration address { call with attr := attr } ∨
    call.kc.permissions ≠ [] ∧
      (∃ p, checkSubscribe pf.jsonPath pf.regex db call.kc r.path = .ok p) ∧
      st.register pf address db subId r call =
        { st.setCall address { call with
            attr := attr
            pc := .registered ⟨r.path, r.type.attribute.getD "value"⟩ subId } with
          handler := st.handler.enter ⟨(VSSPath.fromVSS r.path).getVSSPath, attr.getD "value"⟩
            subId call.kc
          entered := Function.update st.entered subId (some call.kc) } := by
  refine ⟨r.type.attribute.orElse fun _ => call.attr, ?_⟩
  unfold GrpcServer.register
  rcases subscribe_cases pf st.handler db subId call.kc r.path
    ((r.type.attribute.orElse fun _ => call.attr).getD "value") with ⟨e, he⟩ | ⟨hperm, hok, he⟩
  · left
    simp only [he]
  · refine .inr ⟨hperm, hok, ?_⟩
    simp only [he]

/-- A request to stop ends the body of the loop, or its subscription is given up. -/
theorem unsubscribeRequest_cases (st : GrpcServer) (address : ℕ) (r : SubscribeRequest)
    (call : SubscribeCall) :
    st.unsubscribeRequest address r call = st.endIteration address call ∨
    ∃ id, Members.get? ⟨r.path, r.type.attribute.getD "value"⟩ call.currentSubs = some id ∧
      (st.unsubscribeRequest address r call =
          { st.setCall address { call with
              pc := .unsubscribed ⟨r.path, r.type.attribute.getD "value"⟩ id } with
            handler := (st.handler.unsubscribe id).2
            opened := Function.update st.opened id none } ∨
        st.unsubscribeRequest address r call = endIteration { st with
            handler := (st.handler.unsubscribe id).2
            opened := Function.update st.opened id none } address call) := by
  cases hg : Members.get? (⟨r.path, r.type.attribute.getD "value"⟩ : SubscriptionKey)
      call.currentSubs with
  | none => exact .inl (by simp only [GrpcServer.unsubscribeRequest, hg])
  | some id =>
    refine .inr ⟨id, rfl, ?_⟩
    simp only [GrpcServer.unsubscribeRequest, hg]
    split_ifs
    · exact .inl rfl
    · exact .inr rfl

variable (pf) in
/-- What the steps do to a service. -/
inductive Effect (auth : Authenticator) (st : GrpcServer) : GrpcStep → GrpcServer → Prop
  | authorize {ck : Clock} {uuid : SubscriptionId} {peer token : String} :
      Effect auth st (.authorize ck uuid peer token)
        { st with svc := (authorizeHelper pf ck auth st.svc uuid peer token).2 }
  | start {context : ServerContext} {stream : ℕ} {st' : GrpcServer}
      (hs : st.start pf context stream = some st') : Effect auth st (.start context stream) st'
  | register {address : ℕ} {call : SubscribeCall} {db : VssDatabase} {subId : SubscriptionId}
      {r : SubscribeRequest} (hc : st.calls address = some call) (hpc : call.pc = .reading)
      (hfresh : st.entered subId = none) (hr : r.start = true) :
      Effect auth st (.request address db subId r) (st.register pf address db subId r call)
  | unsubscribeRequest {address : ℕ} {call : SubscribeCall} {db : VssDatabase}
      {subId : SubscriptionId} {r : SubscribeRequest} (hc : st.calls address = some call)
      (hpc : call.pc = .reading) :
      Effect auth st (.request address db subId r) (st.unsubscribeRequest address r call)
  | respond {address : ℕ} {call : SubscribeCall} {key : SubscriptionKey} {id : SubscriptionId}
      (hc : st.calls address = some call) (hpc : call.pc = .registered key id) :
      Effect auth st (.respond address) {
        st.setCall address { call with pc := .confirmed key id } with
        opened := Function.update st.opened id (some (address, call.stream)) }
  | insert {address : ℕ} {call : SubscribeCall} {key : SubscriptionKey} {id : SubscriptionId}
      (hc : st.calls address = some call) (hpc : call.pc = .confirmed key id) :
      Effect auth st (.insert address) (endIteration
        (st.setMap call.subsMap (Members.assign id call.stream (st.maps call.subsMap)))
        address { call with currentSubs := Members.assign key id call.currentSubs })
  | erase {address : ℕ} {call : SubscribeCall} {key : SubscriptionKey} {id : SubscriptionId}
      (hc : st.calls address = some call) (hpc : call.pc = .unsubscribed key id) :
      Effect auth st (.erase address) (endIteration
        (st.setMap call.subsMap (Members.erase id (st.maps call.subsMap)))
        address { call with currentSubs := Members.erase key call.currentSubs })
  | finish {address : ℕ} {call : SubscribeCall} (hc : st.calls address = some call)
      (hpc : call.pc = .reading) : Effect auth st (.finish address) (st.leave address call)
  | unsubscribeAll {address : ℕ} {call : SubscribeCall} (hc : st.calls address = some call)
      (hpc : call.pc = .closed) :
      Effect auth st (.unsubscribeAll address) {
        st.setCall address { call with pc := .cleaning } with
        handler := st.handler.unsubscribeAll call.kc }
  | clear {address : ℕ} {call : SubscribeCall} (hc : st.calls address = some call)
      (hpc : call.pc = .cleaning) : Effect auth st (.clear address)
        ((st.setMap call.subsMap []).setCall address { call with pc := .ended })
  | refused {db : VssDatabase} {subId : SubscriptionId} {channel : KuksaChannel}
      {path attr : String} : Effect auth st (.subscribe db subId channel path attr) st
  | subscribe {db : VssDatabase} {subId : SubscriptionId} {channel : KuksaChannel}
      {path attr : String} (hmap : channel.grpcSubsMap = none) (hfresh : st.entered subId = none) :
      Effect auth st (.subscribe db subId channel path attr) { st with
        handler := st.handler.enter ⟨(VSSPath.fromVSS path).getVSSPath, attr⟩ subId channel
        entered := Function.update st.entered subId (some channel) }
  | unsubscribe {subscribeID : SubscriptionId} : Effect auth st (.unsubscribe subscribeID) { st with
      handler := (st.handler.unsubscribe subscribeID).2
      opened := Function.update st.opened subscribeID none }
  | publish {p : Publication} : Effect auth st (.publish p) { st with
      handler := st.handler.publishForVSSPath p
      owed := st.owed ++ (st.handler.subscriptionsFor ⟨p.path.getVSSPath, p.attr⟩).map fun sub =>
        (st.opened sub.1).map Prod.snd }
  | forward {ck : Clock} {connectionexist running : Bool} {n : Notification}
      {rest : List Notification} (hb : st.handler.buffer = n :: rest) :
      Effect auth st (.forward ck connectionexist) { st with
        handler := if st.forwarded pf ck connectionexist n = .gone then
            SubscriptionHandler.unsubscribeAll { st.handler with buffer := rest } n.channel
          else { st.handler with buffer := rest }
        running := running
        owed := st.owed.drop 1
        outcomes := st.outcomes ++
          [⟨n, (st.owed.head?).getD none, st.forwarded pf ck connectionexist n⟩] }

theorem next_effect {auth : Authenticator} {st st' : GrpcServer} {step : GrpcStep}
    (hs : next pf auth st step = some st') : Effect pf auth st step st' := by
  cases step with
  | authorize ck uuid peer token =>
    simp only [GrpcServer.next] at hs
    split_ifs at hs
    obtain rfl := Option.some.inj hs
    exact .authorize
  | start context stream => exact .start hs
  | request address db subId r =>
    obtain ⟨call, hc, hs⟩ := Option.bind_eq_some_iff.mp hs
    split_ifs at hs with hguard hstart
    · obtain ⟨hpc, hfresh⟩ := not_or.mp hguard
      obtain rfl := Option.some.inj hs
      exact .register hc (not_not.mp hpc) (by simpa using hfresh) hstart
    · obtain ⟨hpc, -⟩ := not_or.mp hguard
      obtain rfl := Option.some.inj hs
      exact .unsubscribeRequest hc (not_not.mp hpc)
  | respond address =>
    obtain ⟨call, hc, hs⟩ := Option.bind_eq_some_iff.mp hs
    split at hs
    · rename_i hpc
      obtain rfl := Option.some.inj hs
      exact .respond hc hpc
    · simp at hs
  | insert address =>
    obtain ⟨call, hc, hs⟩ := Option.bind_eq_some_iff.mp hs
    split at hs
    · rename_i hpc
      obtain rfl := Option.some.inj hs
      exact .insert hc hpc
    · simp at hs
  | erase address =>
    obtain ⟨call, hc, hs⟩ := Option.bind_eq_some_iff.mp hs
    split at hs
    · rename_i hpc
      obtain rfl := Option.some.inj hs
      exact .erase hc hpc
    · simp at hs
  | finish address =>
    obtain ⟨call, hc, hs⟩ := Option.bind_eq_some_iff.mp hs
    split_ifs at hs with hpc
    obtain rfl := Option.some.inj hs
    exact .finish hc hpc
  | unsubscribeAll address =>
    obtain ⟨call, hc, hs⟩ := Option.bind_eq_some_iff.mp hs
    split_ifs at hs with hpc
    obtain rfl := Option.some.inj hs
    exact .unsubscribeAll hc hpc
  | clear address =>
    obtain ⟨call, hc, hs⟩ := Option.bind_eq_some_iff.mp hs
    split_ifs at hs with hpc
    obtain rfl := Option.some.inj hs
    exact .clear hc hpc
  | subscribe db subId channel path attr =>
    simp only [GrpcServer.next] at hs
    split_ifs at hs with hguard
    obtain ⟨-, hmap, hfresh⟩ : _ ∧ channel.grpcSubsMap = none ∧ st.entered subId = none := by
      simpa using hguard
    rcases subscribe_cases pf st.handler db subId channel path attr with ⟨e, he⟩ | ⟨-, -, he⟩
    · simp only [he] at hs
      obtain rfl := Option.some.inj hs
      exact .refused
    · simp only [he] at hs
      obtain rfl := Option.some.inj hs
      exact .subscribe hmap hfresh
  | unsubscribe subscribeID =>
    obtain rfl := Option.some.inj hs
    exact .unsubscribe
  | publish p =>
    obtain rfl := Option.some.inj hs
    exact .publish
  | forward ck connectionexist =>
    simp only [GrpcServer.next, GrpcServer.forward] at hs
    split_ifs at hs
    split at hs
    · simp at hs
    · rename_i hb
      obtain rfl := Option.some.inj hs
      exact .forward hb

end Effects

end GrpcServer
