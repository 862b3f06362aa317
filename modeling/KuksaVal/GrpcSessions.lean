import KuksaVal.GrpcHandler
import KuksaVal.Requests

/-! Whose rights a subscription stream runs with: authorizations and streams that begin and
end, in any order. -/
namespace RequestServiceImpl
open VssCommandProcessor

variable {pf : Platform} {ck : Clock} {auth : Authenticator} {svc : RequestServiceImpl}

/-- A channel of this service, or one that has no rights. -/
def GrpcChannel (kc : KuksaChannel) : Prop := kc.typeOfConnection = .grpc ∨ kc.permissions = []

/-- The channels of the streams are of this service, each with a map of its own. -/
structure Sound (svc : RequestServiceImpl) : Prop where
  sessions : ∀ session kc, svc.grpcSessionMap session = some kc → GrpcChannel kc
  channels : ∀ address kc, svc.grpcSubscribeSessionMap address = some kc →
    GrpcChannel kc ∧ kc.connectionID = address ∧ ∃ p, kc.grpcSubsMap = some p ∧ p < svc.nextMap
  maps : ∀ a b kc kc', svc.grpcSubscribeSessionMap a = some kc →
    svc.grpcSubscribeSessionMap b = some kc' → kc.grpcSubsMap = kc'.grpcSubsMap → a = b

theorem Sound.start : Sound {} := by
  constructor <;> simp

/-- What an authorization does to the tables. -/
theorem authorizeHelper_cases (pf : Platform) (ck : Clock) (auth : Authenticator)
    (svc : RequestServiceImpl) (uuid : SubscriptionId) (peer token : String) :
    (authorizeHelper pf ck auth svc uuid peer token).2 = { svc with nextMap := svc.nextMap + 1 } ∨
    ∃ kc : KuksaChannel, kc.typeOfConnection = .grpc ∧
      (authorizeHelper pf ck auth svc uuid peer token).2 = { svc with
        nextMap := svc.nextMap + 1,
        grpcSessionMap := Function.update svc.grpcSessionMap ⟨peer, uuid⟩ (some kc) } := by
  rcases hp : processAuthorize pf ck auth
    { connectionID := 0, typeOfConnection := .grpc, grpcSubsMap := some svc.nextMap }
    (pf.printUuid uuid) token with ⟨_ | resJson, kc⟩
  · left
    simp only [authorizeHelper, hp]
  · by_cases herr : resJson.contains "error" = true
    · left
      simp only [authorizeHelper, hp, herr, ↓reduceIte]
    · right
      refine ⟨kc, ?_, by simp only [authorizeHelper, hp, herr]; rfl⟩
      have hc : kc = _ := congrArg Prod.snd hp.symm
      rw [processAuthorize_channel] at hc
      rw [hc]
      exact Authenticator.validate_connection.typeOfConnection

theorem Sound.authorizeHelper (h : svc.Sound) (uuid : SubscriptionId) (peer token : String) :
    (authorizeHelper pf ck auth svc uuid peer token).2.Sound := by
  have hchannels : ∀ address kc, svc.grpcSubscribeSessionMap address = some kc →
      GrpcChannel kc ∧ kc.connectionID = address ∧
        ∃ p, kc.grpcSubsMap = some p ∧ p < svc.nextMap + 1 := by
    intro address kc hk
    obtain ⟨hg, hid, p, hp, hlt⟩ := h.channels address kc hk
    exact ⟨hg, hid, p, hp, by omega⟩
  rcases authorizeHelper_cases pf ck auth svc uuid peer token with he | ⟨kc, htype, he⟩
  · rw [he]
    exact ⟨h.sessions, hchannels, h.maps⟩
  · rw [he]
    refine ⟨?_, hchannels, h.maps⟩
    intro session kc' hk
    by_cases hs : session = ⟨peer, uuid⟩
    · subst hs
      obtain rfl : kc = kc' := by simpa using hk
      exact .inl htype
    · exact h.sessions session kc' (by simpa [hs] using hk)

/-- What asking for the channel of a session does to the tables. -/
theorem authChecker_cases (pf : Platform) (svc : RequestServiceImpl) (context : ServerContext) :
    (sessionOf pf context = none ∧ authChecker pf svc context = (none, svc)) ∨
    (∃ session kc, sessionOf pf context = some session ∧ svc.grpcSessionMap session = some kc ∧
      authChecker pf svc context = (some kc, svc)) ∨
    ∃ session, sessionOf pf context = some session ∧ svc.grpcSessionMap session = none ∧
      authChecker pf svc context = (some {}, { svc with
        grpcSessionMap := Function.update svc.grpcSessionMap session (some {}) }) := by
  unfold authChecker
  cases hs : sessionOf pf context with
  | none => exact .inl ⟨rfl, rfl⟩
  | some session =>
    cases hm : svc.grpcSessionMap session with
    | some kc => exact .inr (.inl ⟨session, kc, rfl, hm, by simp [hm]⟩)
    | none => exact .inr (.inr ⟨session, rfl, hm, by simp [hm]⟩)

/-- A session that was entered stays as it is. -/
theorem authChecker_keeps (pf : Platform) (svc : RequestServiceImpl) (context : ServerContext)
    {session : GrpcSession} {kc : KuksaChannel} (h : svc.grpcSessionMap session = some kc) :
    (authChecker pf svc context).2.grpcSessionMap session = some kc := by
  rcases authChecker_cases pf svc context with ⟨-, he⟩ | ⟨_, _, -, -, he⟩ | ⟨other, -, hm, he⟩
  · rw [he]
    exact h
  · rw [he]
    exact h
  · have hne : session ≠ other := by
      rintro rfl
      simp [h] at hm
    rw [he]
    simp [hne, h]

variable (pf) in
theorem Sound.authChecker (h : svc.Sound) (context : ServerContext) :
    (authChecker pf svc context).2.Sound ∧
      ∀ kc, (RequestServiceImpl.authChecker pf svc context).1 = some kc → GrpcChannel kc := by
  rcases authChecker_cases pf svc context with ⟨-, he⟩ | ⟨session, kc, -, hm, he⟩ |
    ⟨session, -, hm, he⟩
  · rw [he]
    exact ⟨h, by simp⟩
  · rw [he]
    refine ⟨h, ?_⟩
    rintro kc' hk
    obtain rfl := Option.some.inj hk
    exact h.sessions session kc hm
  · rw [he]
    refine ⟨⟨?_, h.channels, h.maps⟩, ?_⟩
    · intro other kc hk
      by_cases hs : other = session
      · subst hs
        obtain rfl : ({} : KuksaChannel) = kc := by simpa using hk
        exact .inr rfl
      · exact h.sessions other kc (by simpa [hs] using hk)
    · rintro kc' hk
      obtain rfl := Option.some.inj hk
      exact .inr rfl

/-- What asking for the channel of a stream does: the channel kept at the address is found,
or one is made from that of the session, with a new map. -/
theorem getKuksaChannel_cases (pf : Platform) (svc : RequestServiceImpl)
    (context : ServerContext) :
    (∃ kc, svc.grpcSubscribeSessionMap context.address = some kc ∧
      getKuksaChannelForSubscriptionContext pf svc context = (some kc, svc)) ∨
    (svc.grpcSubscribeSessionMap context.address = none ∧
      (authChecker pf svc context).1 = none ∧
      getKuksaChannelForSubscriptionContext pf svc context =
        (none, (authChecker pf svc context).2)) ∨
    ∃ kc, svc.grpcSubscribeSessionMap context.address = none ∧
      (authChecker pf svc context).1 = some kc ∧
      getKuksaChannelForSubscriptionContext pf svc context =
        (some { kc with
          connectionID := context.address, grpcSubsMap := some (authChecker pf svc context).2.nextMap },
        { (authChecker pf svc context).2 with
          nextMap := (authChecker pf svc context).2.nextMap + 1
          grpcSubscribeSessionMap := Function.update
            (authChecker pf svc context).2.grpcSubscribeSessionMap context.address
            (some { kc with
              connectionID := context.address,
              grpcSubsMap := some (authChecker pf svc context).2.nextMap }) }) := by
  unfold getKuksaChannelForSubscriptionContext
  cases hm : svc.grpcSubscribeSessionMap context.address with
  | some kc => exact .inl ⟨kc, rfl, rfl⟩
  | none =>
    rcases ha : authChecker pf svc context with ⟨_ | kc, svc'⟩
    · exact .inr (.inl ⟨rfl, rfl, rfl⟩)
    · exact .inr (.inr ⟨kc, rfl, rfl, rfl⟩)

theorem authChecker_subscribeMap (pf : Platform) (svc : RequestServiceImpl)
    (context : ServerContext) : (authChecker pf svc context).2.grpcSubscribeSessionMap =
      svc.grpcSubscribeSessionMap ∧ (authChecker pf svc context).2.nextMap = svc.nextMap := by
  rcases authChecker_cases pf svc context with ⟨-, he⟩ | ⟨_, _, -, -, he⟩ | ⟨_, -, -, he⟩
  · rw [he]
    exact ⟨rfl, rfl⟩
  · rw [he]
    exact ⟨rfl, rfl⟩
  · rw [he]
    exact ⟨rfl, rfl⟩

variable (pf) in
theorem Sound.getKuksaChannel (h : svc.Sound) (context : ServerContext) :
    (getKuksaChannelForSubscriptionContext pf svc context).2.Sound := by
  obtain ⟨hsound, hchannel⟩ := h.authChecker pf context
  obtain ⟨hmap, hnext⟩ := authChecker_subscribeMap pf svc context
  rcases getKuksaChannel_cases pf svc context with ⟨_, -, he⟩ | ⟨-, -, he⟩ | ⟨kc, hno, hk, he⟩
  · rw [he]
    exact h
  · rw [he]
    exact hsound
  · rw [he]
    have hfresh (a : ℕ) (kc' : KuksaChannel) (hk' : svc.grpcSubscribeSessionMap a = some kc') :
        kc'.grpcSubsMap ≠ some svc.nextMap := by
      obtain ⟨-, -, p, hp, hlt⟩ := h.channels a kc' hk'
      rw [hp]
      simp only [ne_eq, Option.some.injEq]
      omega
    refine ⟨hsound.sessions, ?_, ?_⟩
    · intro a kc' hk'
      simp only [hmap, hnext, Function.update_apply] at hk' ⊢
      split_ifs at hk' with ha
      · obtain rfl := Option.some.inj hk'
        exact ⟨hchannel kc hk, ha.symm, svc.nextMap, rfl, by omega⟩
      · obtain ⟨hg, hid, p, hp, hlt⟩ := h.channels a kc' hk'
        exact ⟨hg, hid, p, hp, by omega⟩
    · intro a b ka kb hka hkb heq
      simp only [hmap, hnext, Function.update_apply] at hka hkb
      split_ifs at hka hkb with ha hb hb
      · exact ha.trans hb.symm
      · obtain rfl := Option.some.inj hka
        exact absurd heq.symm (hfresh b kb hkb)
      · obtain rfl := Option.some.inj hkb
        exact absurd heq (hfresh a ka hka)
      · exact h.maps a b ka kb hka hkb heq

end RequestServiceImpl

/-- The service, the sessions for which the kept channels were made, and the streams that run,
each with its context and its channel. -/
structure StreamSessions where
  svc : RequestServiceImpl := {}
  madeFor : ℕ → Option GrpcSession := fun _ => none
  running : ℕ → Option (ServerContext × KuksaChannel) := fun _ => none

inductive SessionStep where
  | authorize (ck : Clock) (uuid : SubscriptionId) (peer token : String)
  | call (context : ServerContext)
  | subscribe (context : ServerContext)
  | finish (address : ℕ)

namespace StreamSessions
open RequestServiceImpl

variable (pf : Platform) (auth : Authenticator)

/-- Numbers of sessions are drawn at random and are not in use. The context of a stream that
runs is not destroyed, so no other context has its address. -/
def next (st : StreamSessions) : SessionStep → Option StreamSessions
  | .authorize ck uuid peer token =>
      if (st.svc.grpcSessionMap ⟨peer, uuid⟩).isSome then none
      else some { st with svc := (authorizeHelper pf ck auth st.svc uuid peer token).2 }
  | .call context => some { st with svc := (authChecker pf st.svc context).2 }
  | .subscribe context =>
      if (st.running context.address).isSome then none
      else match getKuksaChannelForSubscriptionContext pf st.svc context with
        | (none, svc) => some { st with svc := svc }
        | (some kc, svc) => some {
            svc := svc
            madeFor := if (st.svc.grpcSubscribeSessionMap context.address).isSome then st.madeFor
              else Function.update st.madeFor context.address (sessionOf pf context)
            running := Function.update st.running context.address (some (context, kc)) }
  | .finish address => some { st with running := Function.update st.running address none }

/-- All runs of the service from its start. -/
def system : TransitionSystem StreamSessions SessionStep := .ofNext {} (next pf auth)

/-- The channel has the rights of a session. -/
def RightsOf (svc : RequestServiceImpl) (session : GrpcSession) (kc : KuksaChannel) : Prop :=
  ∃ entry, svc.grpcSessionMap session = some entry ∧ kc.permissions = entry.permissions ∧
    kc.authToken = entry.authToken

/-- A stream begins at an address that was not used for the streams of another session. -/
def KeepsAddress (st : StreamSessions) (step : SessionStep) : Prop :=
  ∀ context, step = .subscribe context → ∀ session, st.madeFor context.address = some session →
    sessionOf pf context = some session

/-- The kept channels have the rights of the sessions that they were made for. -/
structure Kept (st : StreamSessions) : Prop where
  channels : ∀ address kc, st.svc.grpcSubscribeSessionMap address = some kc →
    ∃ session, st.madeFor address = some session ∧ RightsOf st.svc session kc
  running : ∀ address context kc, st.running address = some (context, kc) →
    st.svc.grpcSubscribeSessionMap address = some kc ∧ sessionOf pf context = st.madeFor address

variable {pf auth} {st st' : StreamSessions}

theorem RightsOf.mono {svc svc' : RequestServiceImpl} {session : GrpcSession} {kc : KuksaChannel}
    (h : RightsOf svc session kc)
    (hkeep : ∀ entry, svc.grpcSessionMap session = some entry →
      svc'.grpcSessionMap session = some entry) : RightsOf svc' session kc := by
  obtain ⟨entry, he, hrights⟩ := h
  exact ⟨entry, hkeep entry he, hrights⟩

/-- Sessions are only added. -/
theorem Kept.of_sessions (h : st.Kept pf) {svc : RequestServiceImpl}
    (hmap : svc.grpcSubscribeSessionMap = st.svc.grpcSubscribeSessionMap)
    (hkeep : ∀ session entry, st.svc.grpcSessionMap session = some entry →
      svc.grpcSessionMap session = some entry) : Kept pf { st with svc := svc } := by
  constructor
  · intro address kc hk
    obtain ⟨session, hm, hr⟩ := h.channels address kc (hmap ▸ hk)
    exact ⟨session, hm, hr.mono (hkeep session)⟩
  · intro address context kc hrun
    obtain ⟨hk, hs⟩ := h.running address context kc hrun
    exact ⟨hmap ▸ hk, hs⟩

theorem Kept.authorize (h : st.Kept pf) (ck : Clock) {uuid : SubscriptionId} {peer : String}
    (token : String) (hfresh : st.svc.grpcSessionMap ⟨peer, uuid⟩ = none) :
    Kept pf { st with svc := (authorizeHelper pf ck auth st.svc uuid peer token).2 } := by
  rcases authorizeHelper_cases pf ck auth st.svc uuid peer token with he | ⟨kc, -, he⟩
  · rw [he]
    exact h.of_sessions rfl fun session entry hk => hk
  · rw [he]
    refine h.of_sessions rfl ?_
    intro session entry hk
    have hne : session ≠ ⟨peer, uuid⟩ := by
      rintro rfl
      simp [hfresh] at hk
    simp [hne, hk]

/-- The channel that is made for a stream has the rights of the session of its context. -/
theorem authChecker_rights {svc : RequestServiceImpl} {context : ServerContext}
    {kc : KuksaChannel} (h : (authChecker pf svc context).1 = some kc) :
    ∃ session, sessionOf pf context = some session ∧
      (authChecker pf svc context).2.grpcSessionMap session = some kc := by
  rcases authChecker_cases pf svc context with ⟨-, he⟩ | ⟨session, kc', hs, hm, he⟩ |
    ⟨session, hs, -, he⟩
  · simp [he] at h
  · rw [he] at h ⊢
    obtain rfl := Option.some.inj h
    exact ⟨session, hs, hm⟩
  · rw [he] at h ⊢
    obtain rfl := Option.some.inj h
    exact ⟨session, hs, by simp⟩

theorem Kept.subscribe (h : st.Kept pf) {context : ServerContext}
    (hok : KeepsAddress pf st (.subscribe context))
    (hs : next pf auth st (.subscribe context) = some st') : st'.Kept pf := by
  have hfree : ¬ (st.running context.address).isSome = true := by
    intro hr
    simp [StreamSessions.next, hr] at hs
  simp only [StreamSessions.next, if_neg hfree] at hs
  obtain ⟨hmap, -⟩ := authChecker_subscribeMap pf st.svc context
  rcases getKuksaChannel_cases pf st.svc context with ⟨kc, hk, he⟩ | ⟨hno, -, he⟩ |
    ⟨kc, hno, hk, he⟩
  · simp only [he, hk, Option.isSome_some, ↓reduceIte] at hs
    obtain rfl := Option.some.inj hs
    refine ⟨h.channels, ?_⟩
    intro address context' kc' hrun
    simp only [Function.update_apply] at hrun
    split_ifs at hrun with ha
    · obtain ⟨rfl, rfl⟩ : context = context' ∧ kc = kc' := by simpa using hrun
      subst ha
      obtain ⟨session, hm, -⟩ := h.channels context.address kc hk
      exact ⟨hk, (hok context rfl session hm).trans hm.symm⟩
    · exact h.running address context' kc' hrun
  · simp only [he] at hs
    obtain rfl := Option.some.inj hs
    exact h.of_sessions hmap fun session entry hm => authChecker_keeps pf st.svc context hm
  · simp only [he, hno, Option.isSome_none, Bool.false_eq_true, ↓reduceIte] at hs
    obtain rfl := Option.some.inj hs
    constructor
    · intro address kc' hk'
      simp only [Function.update_apply, hmap] at hk' ⊢
      split_ifs at hk' ⊢ with ha
      · obtain rfl := Option.some.inj hk'
        obtain ⟨session, hs, hm⟩ := authChecker_rights hk
        exact ⟨session, hs, kc, hm, rfl, rfl⟩
      · obtain ⟨session, hm, hr⟩ := h.channels address kc' hk'
        exact ⟨session, hm, hr.mono fun entry => authChecker_keeps pf st.svc context⟩
    · intro address context' kc' hrun
      simp only [Function.update_apply, hmap] at hrun ⊢
      split_ifs at hrun ⊢ with ha
      · obtain ⟨rfl, rfl⟩ := Prod.mk.inj (Option.some.inj hrun)
        exact ⟨rfl, rfl⟩
      · exact h.running address context' kc' hrun

theorem Kept.next (h : st.Kept pf) {step : SessionStep} (hok : KeepsAddress pf st step)
    (hs : next pf auth st step = some st') : st'.Kept pf := by
  cases step with
  | authorize ck uuid peer token =>
    simp only [StreamSessions.next] at hs
    split_ifs at hs with hfresh
    obtain rfl := Option.some.inj hs
    exact h.authorize ck token (by simpa using hfresh)
  | call context =>
    obtain rfl := Option.some.inj hs
    exact h.of_sessions (authChecker_subscribeMap pf st.svc context).1
      fun session entry hm => authChecker_keeps pf st.svc context hm
  | subscribe context => exact h.subscribe hok hs
  | finish address =>
    obtain rfl := Option.some.inj hs
    refine ⟨h.channels, ?_⟩
    intro address' context kc hrun
    simp only [Function.update_apply] at hrun
    split_ifs at hrun
    exact h.running address' context kc hrun

/-- Where no stream begins at the address of another session's streams, every stream that runs
has the rights of the session that its own context names. -/
theorem rightsOf_of_running (pf : Platform) (auth : Authenticator) (st : StreamSessions)
    (h : (system pf auth).Reachable (KeepsAddress pf) st) (address : ℕ) (context : ServerContext)
    (kc : KuksaChannel) (hrun : st.running address = some (context, kc)) :
    ∃ session, sessionOf pf context = some session ∧ RightsOf st.svc session kc := by
  have hkept : st.Kept pf := by
    refine h.invariant ?_ ?_
    · rintro _ rfl
      constructor <;> simp
    · intro st step st' hi hok hs
      exact hi.next hok hs
  obtain ⟨hk, hs⟩ := hkept.running address context kc hrun
  obtain ⟨session, hm, hr⟩ := hkept.channels address kc hk
  exact ⟨session, hs.trans hm, hr⟩

section Reuse
open VssCommandProcessor

/-- The libraries, with the tokens of a reader and of an editor. -/
def tokenPlatform : Platform :=
  { Platform.basic fun _ => .error "Parse error" with jwt := Authenticator.tokenJwt }

def readerAuthorize : SessionStep := .authorize midnight 1 "reader:1" "reader"

def readerContext : ServerContext := ⟨5, "reader:1", some "1"⟩

/-- The stream of a reader ends, and the context of an editor has its address. -/
def reuseSteps : List SessionStep :=
  [readerAuthorize, .subscribe readerContext, .finish 5,
    .authorize midnight 2 "editor:1" "editor", .subscribe ⟨5, "editor:1", some "2"⟩]

/-- The service after these steps. -/
def serviceAfter (steps : List SessionStep) : StreamSessions :=
  TransitionSystem.after {} (next tokenPlatform ⟨"key"⟩) steps

theorem rightsOf_of_running_reader : ∃ st kc,
    next tokenPlatform ⟨"key"⟩ (serviceAfter [readerAuthorize]) (.subscribe readerContext) =
        some st ∧ st.running 5 = some (readerContext, kc) ∧
      ∃ session, sessionOf tokenPlatform readerContext = some session ∧
        RightsOf st.svc session kc := by
  have hrun : (next tokenPlatform ⟨"key"⟩ (serviceAfter [readerAuthorize])
      (.subscribe readerContext)).bind (fun st => (st.running 5).map Prod.fst) =
        some readerContext := by decide +kernel
  obtain ⟨st, hst, hr⟩ := Option.bind_eq_some_iff.mp hrun
  obtain ⟨⟨context, kc⟩, hr, rfl⟩ := Option.map_eq_some_iff.mp hr
  refine ⟨st, kc, hst, hr, rightsOf_of_running tokenPlatform ⟨"key"⟩ st ?_ 5 _ kc hr⟩
  refine .step (TransitionSystem.after_reachable [readerAuthorize] ?_) ?_ hst
  · simp [readerAuthorize, KeepsAddress]
  · intro context' heq session hm
    obtain rfl := SessionStep.subscribe.inj heq
    have hnone : (serviceAfter [readerAuthorize]).madeFor 5 = none := by decide +kernel
    exact absurd (hnone.symm.trans hm) (by simp)

/-- The stream of an editor runs with the rights of a reader. -/
theorem rights_of_another : ¬ ∀ (pf : Platform) (auth : Authenticator) (st : StreamSessions),
    (system pf auth).Reachable TransitionSystem.Any st → ∀ address context kc,
      st.running address = some (context, kc) →
        ∃ session, sessionOf pf context = some session ∧ RightsOf st.svc session kc := by
  intro h
  have hrun : ((serviceAfter reuseSteps).running 5).map (fun r => (r.1, r.2.authToken)) =
      some (⟨5, "editor:1", some "2"⟩, "reader") := by decide +kernel
  obtain ⟨⟨context, kc⟩, hr, heq⟩ := Option.map_eq_some_iff.mp hrun
  obtain ⟨rfl, htoken⟩ := Prod.mk.inj heq
  obtain ⟨session, hs, entry, he, -, ht⟩ := h tokenPlatform ⟨"key"⟩ (serviceAfter reuseSteps)
    (TransitionSystem.after_reachable _ fun _ _ _ => trivial) 5 _ kc hr
  obtain rfl : ⟨"editor:1", 2⟩ = session := Option.some.inj (by rw [← hs]; decide +kernel)
  have hentry : ((serviceAfter reuseSteps).svc.grpcSessionMap ⟨"editor:1", 2⟩).map
      KuksaChannel.authToken = some "editor" := by decide +kernel
  rw [he] at hentry
  have hno : kc.authToken = "editor" := ht.trans (Option.some.inj hentry)
  exact absurd (htoken.symm.trans hno) (by decide)

end Reuse

end StreamSessions
