import KuksaVal.Confinement

/-! Tokens and time: what a channel gets while its token is in force, and what it gets later. -/

/-- A success on a channel: its time, and the expiry of the token last accepted there. -/
structure Success where
  time : ℤ
  connectionID : ℕ
  expires : Option ℤ
  deriving DecidableEq

/-- The server with all its channels, the closed ones among them, the time, and the expiry of the
token last accepted on each channel. -/
structure TimedServer where
  now : ℤ
  server : Server
  channels : ℕ → KuksaChannel := fun connID => { connectionID := connID }
  closed : ℕ → Bool := fun _ => false
  expires : ℕ → Option ℤ := fun _ => none
  successes : List Success := []

inductive TimedStep where
  | elapse (time : ℤ)
  | request (connID : ℕ) (r : ClientRequest)
  | stream (session address : ℕ)
  | deliver (reached : Bool)
  | close (connID : ℕ)

namespace TimedServer
open Json JsonResponses VssCommandProcessor AccessChecker SubscriptionHandler

variable (pf : Platform) (jwt : ℤ → Jwt)

/-- Verification of a token depends on the time. -/
def platformAt (now : ℤ) : Platform := { pf with jwt := jwt now }

/-- The expiry of the token that a request hands over, where it is accepted. -/
def accepted (sv : Server) (channel : KuksaChannel) (reqJson : String) : Option ℤ :=
  match pf.parse reqJson with
  | .error _ => none
  | .ok request =>
      match text request "action", text request "tokens", text request "requestId" with
      | .ok action, .ok token, .ok _ =>
          if action = "authorize" then
            match (sv.tokenValidator.validate pf.jwt pf.numerics channel token).1 with
            | .ok ttl => if ttl = -1 then none else some ttl
            | .error _ => none
          else none
      | _, _, _ => none

/-- A get that is answered with data, or a set with its success answer. -/
def succeeds (r : ClientRequest) : Except Exn Json → Bool
  | .error _ => false
  | .ok answer =>
      match pf.parse r.reqJson with
      | .error _ => false
      | .ok request =>
          match text request "action", text request "requestId" with
          | .ok action, .ok requestId =>
              (action = "get" && (answer.get? "data").isSome) ||
                (action = "set" && decide (answer = setAnswer r.clock requestId))
          | _, _ => false

/-- What is noted after a request on a channel. -/
def expiresAfter (st : TimedServer) (connID : ℕ) (r : ClientRequest) : ℕ → Option ℤ :=
  match accepted (platformAt pf jwt st.now) st.server (st.channels connID) r.reqJson with
  | some e => Function.update st.expires connID (some e)
  | none => st.expires

/-- A request on a channel. -/
def request (st : TimedServer) (connID : ℕ) (r : ClientRequest) : Option TimedServer :=
  (Session.next (platformAt pf jwt st.now)
      ⟨st.server, st.channels connID, []⟩ r).map fun s => { st with
    server := s.server
    channels := Function.update st.channels connID s.channel
    expires := expiresAfter pf jwt st connID r
    successes := st.successes ++
      (s.handled.filter fun entry =>
        succeeds (platformAt pf jwt st.now) entry.1 entry.2).map fun _ =>
        ⟨st.now, connID, st.expires connID⟩ }

/-- The thread takes an entry and sends it. Nothing is checked before. -/
def deliver (st : TimedServer) (reached : Bool) : Option TimedServer :=
  match st.server.subHandler.buffer with
  | [] => none
  | n :: rest =>
      let handler := { st.server.subHandler with buffer := rest }
      if reached then some { st with
        server := { st.server with subHandler := handler }
        successes := st.successes ++
          [⟨st.now, n.channel.connectionID, st.expires n.channel.connectionID⟩] }
      else some { st with server := { st.server with
        subHandler := if n.channel.typeOfConnection = .grpc then handler
          else handler.unsubscribeAll n.channel } }

/-- Time does not go back. A stream of the gRPC service begins with a copy of the channel of
its session. A channel that is closed asks for nothing more, but what it has subscribed to stays. -/
def next (st : TimedServer) : TimedStep → Option TimedServer
  | .elapse time => if st.now ≤ time then some { st with now := time } else none
  | .request connID r => if st.closed connID then none else request pf jwt st connID r
  | .stream session address =>
      if st.closed session ∨ (st.expires address).isSome then none
      else some { st with
        channels := Function.update st.channels address
          { st.channels session with connectionID := address }
        expires := Function.update st.expires address (st.expires session) }
  | .deliver reached => deliver st reached
  | .close connID => some { st with closed := Function.update st.closed connID true }

/-- All runs of a server whose channels hold no token and that has no subscriptions. -/
def system (now : ℤ) (db : VssDatabase) (auth : Authenticator) :
    TransitionSystem TimedServer TimedStep :=
  .ofNext { now := now, server := ⟨db, {}, auth⟩ } (next pf jwt)

/-- The token library verifies a token only until its claim `exp`, where it has one. -/
def VerifiesUntilExp : Prop :=
  ∀ now key token claims, (jwt now).decode token = .ok claims →
    (jwt now).verify key token = .ok () →
      ∀ exp, Members.get? "exp" claims = some exp → ∃ n, exp = .int n ∧ now ≤ n

/-- The channel has a subscription in the table or a notification in the buffer. -/
def HasSubscribed (st : TimedServer) (connID : ℕ) : Prop :=
  (∃ key, ∃ sub ∈ st.server.subHandler.subscriptionsFor key, sub.2.connectionID = connID) ∨
    ∃ n ∈ st.server.subHandler.buffer, n.channel.connectionID = connID

/-- The channel is open and was given rights, or it still has subscriptions or notifications. -/
def Live (st : TimedServer) (connID : ℕ) : Prop :=
  st.closed connID = false ∧ (st.channels connID).permissions ≠ [] ∨ st.HasSubscribed connID

/-- The clock does not go past the expiry of the token of a live channel. -/
def InForce (st : TimedServer) : TimedStep → Prop
  | .elapse time => ∀ connID, st.Live connID → ∀ e, st.expires connID = some e → time ≤ e
  | _ => True

/-- A token was accepted on the channel. -/
def HasToken (st : TimedServer) (connID : ℕ) : Prop := ∃ e, st.expires connID = some e

/-- Rights, subscriptions and notifications are those of channels with a token, the tokens of live
channels are in force, and what succeeded did so before the token expired. -/
structure Backed (st : TimedServer) : Prop where
  connection : ∀ connID, (st.channels connID).connectionID = connID
  granted : ∀ connID, (st.channels connID).permissions ≠ [] → st.HasToken connID
  subscribed : ∀ connID, st.HasSubscribed connID → st.HasToken connID
  inForce : ∀ connID, st.Live connID → ∀ e, st.expires connID = some e → st.now ≤ e
  successes : ∀ s ∈ st.successes, ∃ e, s.expires = some e ∧ s.time ≤ e

variable {pf jwt} {st st' : TimedServer}

section Requests

variable {ck : Clock} {sv : Server} {subId : SubscriptionId} {reqJson : String}
  {channel : KuksaChannel} {request answer : Json}

/-- A set succeeds only with the right to write. -/
theorem permissions_of_set (hp : pf.parse reqJson = .ok request)
    (ha : text request "action" = .ok "set") {requestId : String}
    (hq : (processQuery pf ck sv subId reqJson channel).1 = .ok (setAnswer ck requestId)) :
    channel.permissions ≠ [] := by
  have hd : (dispatch pf ck sv subId channel request).1 =
      (processSet pf ck sv.database channel request).1 := by
    simp [dispatch, ha]
  have hset : (processSet pf ck sv.database channel request).1 = .ok (setAnswer ck requestId) := by
    unfold processQuery at hq
    simp only [hp] at hq
    split at hq
    · rename_i e _ _ he
      split_ifs at hq
      have hne : malFormedMessage ck e.what "UNKNOWN" = setAnswer ck requestId :=
        Except.ok.inj hq
      exact absurd hne (ne_setAnswer (errorAnswer_contains_error ..) requestId)
    · rename_i he
      rw [← hd, he]
      exact hq
  rcases processSet_cases pf ck sv.database channel request with
    ⟨hno, -⟩ | ⟨_, _, _, _, _, _, _, -, -, -, hw, -⟩
  · exact absurd hset (hno requestId)
  · exact permissions_of_writeAccess hw

/-- What succeeds is a get or a set, on a channel with rights. -/
theorem permissions_of_succeeds {r : ClientRequest}
    (h : succeeds pf r (processQuery pf r.clock sv r.subId r.reqJson channel).1 = true) :
    channel.permissions ≠ [] := by
  cases hq : (processQuery pf r.clock sv r.subId r.reqJson channel).1 with
  | error e => simp [hq, succeeds] at h
  | ok answer =>
    cases hp : pf.parse r.reqJson with
    | error e => simp [hq, succeeds, hp] at h
    | ok request =>
      cases ha : text request "action" with
      | error e => simp [hq, succeeds, hp, ha] at h
      | ok action =>
        cases hi : text request "requestId" with
        | error e => simp [hq, succeeds, hp, ha, hi] at h
        | ok requestId =>
          simp only [hq, succeeds, hp, ha, hi, Bool.or_eq_true, Bool.and_eq_true,
            decide_eq_true_eq] at h
          rcases h with ⟨rfl, hdata⟩ | ⟨rfl, rfl⟩
          · intro hperm
            rw [Session.processQuery_withholds hperm hp ha hq] at hdata
            simp at hdata
          · exact permissions_of_set hp ha hq

variable {s s' : Session} {r : ClientRequest}

/-- A request leaves the permissions of its channel, or an accepted token gives new ones. -/
theorem session_permissions (hs : Session.next pf s r = some s') :
    s'.channel.permissions = s.channel.permissions ∨
      ∃ e, accepted pf s.server s.channel r.reqJson = some e := by
  rcases Session.step_cases hs with ⟨-, -, hc⟩ | ⟨request, hp, heff⟩
  · rw [hc]
    exact .inl rfl
  · obtain ⟨server', channel', handled'⟩ := s'
    cases heff with
    | @authorize token ha =>
      obtain ⟨haction, htoken, requestId, hid⟩ := ha
      rcases Authenticator.validate_permissions pf.jwt pf.numerics s.server.tokenValidator
        s.channel token with
        hkeep | ⟨ttl, hpos, hv⟩
      · exact .inl hkeep
      · refine .inr ⟨ttl, ?_⟩
        have hne : ttl ≠ -1 := by omega
        simp only [accepted, hp, haction, htoken, hid, hv, ↓reduceIte, hne]
    | _ => exact .inl rfl

/-- The library verified a token that is accepted, so it has not expired. -/
theorem le_of_accepted (hjwt : VerifiesUntilExp jwt) {now e : ℤ}
    (h : accepted (platformAt pf jwt now) sv channel reqJson = some e) : now ≤ e := by
  unfold accepted at h
  cases hp : (platformAt pf jwt now).parse reqJson with
  | error msg => simp [hp] at h
  | ok request =>
    simp only [hp] at h
    split at h
    · rename_i action token requestId ha ht hi
      split_ifs at h
      split at h
      · rename_i ttl hv
        split_ifs at h with hne
        obtain rfl := Option.some.inj h
        obtain ⟨claims, ⟨hd, hverify⟩, hx⟩ := Authenticator.expiry_of_validate hv hne
        obtain ⟨exp, hexp, hnum, -⟩ := Authenticator.expiry_eq_ok_iff.mp hx
        obtain ⟨n, rfl, hle⟩ := hjwt now _ token claims hd hverify exp hexp
        have hn : pf.numerics.numeral (toString n) = some ttl := hnum
        rw [pf.numerics.numeral_toString] at hn
        obtain rfl := Option.some.inj hn
        exact hle
      · simp at h
    · simp at h

/-- What a request leaves subscribed was so before, or is of its own channel, with rights. -/
theorem subscribed_request {s s' : Session} {r : ClientRequest}
    (hs : Session.next pf s r = some s') {connID : ℕ}
    (h : (∃ key, ∃ sub ∈ s'.server.subHandler.subscriptionsFor key, sub.2.connectionID = connID) ∨
      ∃ n ∈ s'.server.subHandler.buffer, n.channel.connectionID = connID) :
    ((∃ key, ∃ sub ∈ s.server.subHandler.subscriptionsFor key, sub.2.connectionID = connID) ∨
      ∃ n ∈ s.server.subHandler.buffer, n.channel.connectionID = connID) ∨
      s.channel.connectionID = connID ∧ s.channel.permissions ≠ [] := by
  rcases h with ⟨key, sub, hm, hc⟩ | ⟨n, hn, hc⟩
  · rcases Session.next_table hs hm with hm | ⟨rfl, hperm⟩
    · exact .inl (.inl ⟨key, sub, hm, hc⟩)
    · exact .inr ⟨hc, hperm⟩
  · rcases Session.next_buffer hs hn with hn | ⟨key, sub, hm, -, heq⟩
    · exact .inl (.inr ⟨n, hn, hc⟩)
    · exact .inl (.inl ⟨key, sub, hm, heq ▸ hc⟩)

end Requests

/-- A request on a channel replaces its token or keeps it. -/
theorem expiresAfter_cases (pf : Platform) (jwt : ℤ → Jwt) (st : TimedServer) (connID : ℕ)
    (r : ClientRequest) :
    (∃ e, accepted (platformAt pf jwt st.now) st.server (st.channels connID) r.reqJson = some e ∧
      expiresAfter pf jwt st connID r = Function.update st.expires connID (some e)) ∨
    accepted (platformAt pf jwt st.now) st.server (st.channels connID) r.reqJson = none ∧
      expiresAfter pf jwt st connID r = st.expires := by
  unfold expiresAfter
  cases accepted (platformAt pf jwt st.now) st.server (st.channels connID) r.reqJson with
  | none => exact .inr ⟨rfl, rfl⟩
  | some e => exact .inl ⟨e, rfl, rfl⟩

/-- A token is never forgotten. -/
theorem hasToken_after {connID : ℕ} {r : ClientRequest} {c : ℕ} (ht : st.HasToken c) :
    ∃ e, expiresAfter pf jwt st connID r c = some e := by
  rcases expiresAfter_cases pf jwt st connID r with ⟨e, -, he⟩ | ⟨-, he⟩
  · by_cases hc : c = connID
    · exact ⟨e, by simp [he, hc]⟩
    · obtain ⟨e', he'⟩ := ht
      exact ⟨e', by simp [he, hc, he']⟩
  · rw [he]
    exact ht

section Request
variable {connID c : ℕ} {r : ClientRequest} {s : Session}

/-- After a request a channel has subscribed only if it had, or with the rights it had. -/
theorem Backed.hasSubscribed_request (h : st.Backed)
    (hstep : Session.next (platformAt pf jwt st.now) ⟨st.server, st.channels connID, []⟩ r = some s)
    (hc : HasSubscribed { st with server := s.server } c) :
    st.HasSubscribed c ∨ connID = c ∧ (st.channels connID).permissions ≠ [] := by
  have hcases := subscribed_request hstep hc
  rwa [h.connection] at hcases

/-- After a request a channel is live only if it was, or if a token was accepted on it. -/
theorem Backed.live_request (h : st.Backed) (hopen : st.closed connID = false)
    (hstep : Session.next (platformAt pf jwt st.now) ⟨st.server, st.channels connID, []⟩ r = some s)
    (hlive : Live { st with
      server := s.server
      channels := Function.update st.channels connID s.channel } c) :
    st.Live c ∨ c = connID ∧
      ∃ e, accepted (platformAt pf jwt st.now) st.server (st.channels connID) r.reqJson =
        some e := by
  rcases hlive with ⟨hclosed, hperm⟩ | hsub
  · simp only [Function.update_apply] at hperm
    split_ifs at hperm with hc
    · subst hc
      rcases session_permissions hstep with hkeep | haccepted
      · exact .inl (.inl ⟨hclosed, hkeep ▸ hperm⟩)
      · exact .inr ⟨rfl, haccepted⟩
    · exact .inl (.inl ⟨hclosed, hperm⟩)
  · rcases h.hasSubscribed_request hstep hsub with hc | ⟨rfl, hperm⟩
    · exact .inl (.inr hc)
    · exact .inl (.inl ⟨hopen, hperm⟩)

theorem Backed.request (h : st.Backed) (hjwt : VerifiesUntilExp jwt)
    (hopen : st.closed connID = false) (hs : request pf jwt st connID r = some st') :
    st'.Backed := by
  obtain ⟨s, hstep, rfl⟩ := Option.map_eq_some_iff.mp hs
  refine ⟨?_, ?_, ?_, ?_, ?_⟩
  · intro c
    simp only [Function.update_apply]
    split_ifs with hc
    · rw [Session.next_connectionID hstep, hc]
      exact h.connection connID
    · exact h.connection c
  · intro c hperm
    simp only [Function.update_apply] at hperm
    split_ifs at hperm with hc
    · subst hc
      rcases session_permissions hstep with hkeep | ⟨e, he⟩
      · exact hasToken_after (h.granted c (hkeep ▸ hperm))
      · exact ⟨e, by simp [expiresAfter, he]⟩
    · exact hasToken_after (h.granted c hperm)
  · intro c hc
    rcases h.hasSubscribed_request hstep hc with hc | ⟨rfl, hperm⟩
    · exact hasToken_after (h.subscribed c hc)
    · exact hasToken_after (h.granted connID hperm)
  · intro c hlive e he
    have hcases := h.live_request hopen hstep hlive
    rcases expiresAfter_cases pf jwt st connID r with ⟨e', hacc, hupd⟩ | ⟨hacc, hupd⟩
    · have he : Function.update st.expires connID (some e') c = some e := hupd ▸ he
      by_cases hc : c = connID
      · subst hc
        rw [Function.update_self] at he
        obtain rfl := Option.some.inj he
        exact le_of_accepted hjwt hacc
      · rw [Function.update_of_ne hc] at he
        exact h.inForce c (hcases.resolve_right fun hown => hc hown.1) e he
    · have he : st.expires c = some e := hupd ▸ he
      refine h.inForce c (hcases.resolve_right ?_) e he
      rintro ⟨-, e', he'⟩
      exact absurd (hacc.symm.trans he') (by simp)
  · intro success hm
    rcases List.mem_append.mp hm with hm | hm
    · exact h.successes success hm
    · obtain ⟨entry, he, rfl⟩ := List.mem_map.mp hm
      obtain ⟨he, hsucceeds⟩ := List.mem_filter.mp he
      rw [(Session.next_eq_some hstep).2, List.nil_append, List.mem_singleton] at he
      subst he
      have hperm := permissions_of_succeeds hsucceeds
      obtain ⟨e, he⟩ := h.granted connID hperm
      exact ⟨e, he, h.inForce connID (.inl ⟨hopen, hperm⟩) e he⟩

end Request

/-- Nothing gets subscribed by a step that changes neither the channels nor the tokens. -/
theorem Backed.of_subscribed (h : st.Backed) (hchannels : st'.channels = st.channels)
    (hclosed : ∀ c, st'.closed c = false → st.closed c = false)
    (hexpires : st'.expires = st.expires) (hnow : st'.now = st.now)
    (hsub : ∀ c, st'.HasSubscribed c → st.HasSubscribed c)
    (hsuccesses : ∀ s ∈ st'.successes, ∃ e, s.expires = some e ∧ s.time ≤ e) : st'.Backed := by
  refine ⟨by rw [hchannels]; exact h.connection, ?_, ?_, ?_, hsuccesses⟩
  · intro c hc
    rw [hchannels] at hc
    rw [HasToken, hexpires]
    exact h.granted c hc
  · intro c hc
    rw [HasToken, hexpires]
    exact h.subscribed c (hsub c hc)
  · intro c hlive e he
    rw [hnow]
    rw [hexpires] at he
    refine h.inForce c (hlive.imp ?_ (hsub c)) e he
    rintro ⟨hc, hperm⟩
    rw [hchannels] at hperm
    exact ⟨hclosed c hc, hperm⟩

theorem Backed.deliver (h : st.Backed) {reached : Bool} (hs : deliver st reached = some st') :
    st'.Backed := by
  unfold TimedServer.deliver at hs
  split at hs
  · simp at hs
  · rename_i n rest hb
    have hfirst : st.HasSubscribed n.channel.connectionID :=
      .inr ⟨n, by rw [hb]; exact List.mem_cons_self, rfl⟩
    have hrest {c : ℕ} (hr : ∃ m ∈ rest, m.channel.connectionID = c) :
        ∃ m ∈ st.server.subHandler.buffer, m.channel.connectionID = c := by
      obtain ⟨m, hm, hc⟩ := hr
      exact ⟨m, by rw [hb]; exact List.mem_cons_of_mem _ hm, hc⟩
    cases reached with
    | true =>
      obtain rfl := Option.some.inj hs
      refine h.of_subscribed rfl (fun _ hc => hc) rfl rfl (fun c hc => hc.imp_right hrest) ?_
      intro success hm
      rcases List.mem_append.mp hm with hm | hm
      · exact h.successes success hm
      · obtain rfl := List.mem_singleton.mp hm
        obtain ⟨e, he⟩ := h.subscribed _ hfirst
        exact ⟨e, he, h.inForce _ (.inr hfirst) e he⟩
    | false =>
      obtain rfl := Option.some.inj hs
      refine h.of_subscribed rfl (fun _ hc => hc) rfl rfl ?_ h.successes
      by_cases hgrpc : n.channel.typeOfConnection = .grpc
      · intro c hc
        simp only [HasSubscribed, hgrpc, ↓reduceIte] at hc
        exact hc.imp_right hrest
      · rintro c (⟨key, sub, hm, hc⟩ | hr)
        · simp only [hgrpc, ↓reduceIte, subscriptionsFor_unsubscribeAll] at hm
          exact .inl ⟨key, sub, List.mem_of_mem_eraseP hm, hc⟩
        · simp only [hgrpc, ↓reduceIte] at hr
          exact .inr (hrest hr)

/-- A new stream has the rights and the token of its session. -/
theorem Backed.stream (h : st.Backed) {session address : ℕ} (hopen : st.closed session = false)
    (hnew : st.expires address = none) :
    Backed { st with
      channels := Function.update st.channels address
        { st.channels session with connectionID := address }
      expires := Function.update st.expires address (st.expires session) } := by
  have hne {c : ℕ} (hc : st.HasSubscribed c) : c ≠ address := by
    rintro rfl
    obtain ⟨e, he⟩ := h.subscribed c hc
    simp [hnew] at he
  refine ⟨?_, ?_, ?_, ?_, h.successes⟩
  · intro c
    simp only [Function.update_apply]
    split_ifs with hc
    · exact hc.symm
    · exact h.connection c
  · intro c hperm
    simp only [Function.update_apply] at hperm
    unfold HasToken
    split_ifs at hperm with hc
    · simp only [hc, Function.update_self]
      exact h.granted session hperm
    · simp only [Function.update_of_ne hc]
      exact h.granted c hperm
  · intro c hc
    unfold HasToken
    simp only [Function.update_of_ne (hne hc)]
    exact h.subscribed c hc
  · intro c hlive e he
    by_cases hc : c = address
    · subst hc
      simp only [Function.update_self] at he
      rcases hlive with ⟨-, hperm⟩ | hsub
      · simp only [Function.update_self] at hperm
        exact h.inForce session (.inl ⟨hopen, hperm⟩) e he
      · exact absurd rfl (hne hsub)
    · simp only [Function.update_of_ne hc] at he
      refine h.inForce c (hlive.imp_left ?_) e he
      rintro ⟨hclosed, hperm⟩
      simp only [Function.update_of_ne hc] at hperm
      exact ⟨hclosed, hperm⟩

theorem Backed.next (h : st.Backed) (hjwt : VerifiesUntilExp jwt) {step : TimedStep}
    (hok : InForce st step) (hs : next pf jwt st step = some st') : st'.Backed := by
  cases step with
  | elapse time =>
    simp only [TimedServer.next] at hs
    split_ifs at hs
    obtain rfl := Option.some.inj hs
    exact ⟨h.connection, h.granted, h.subscribed, hok, h.successes⟩
  | request connID r =>
    simp only [TimedServer.next] at hs
    split_ifs at hs with hclosed
    exact h.request hjwt (by simpa using hclosed) hs
  | stream session address =>
    simp only [TimedServer.next] at hs
    split_ifs at hs with hno
    obtain rfl := Option.some.inj hs
    obtain ⟨hclosed, hnew⟩ := not_or.mp hno
    exact h.stream (by simpa using hclosed) (by simpa using hnew)
  | deliver reached => exact h.deliver hs
  | close connID =>
    obtain rfl := Option.some.inj hs
    refine h.of_subscribed rfl ?_ rfl rfl (fun _ hc => hc) h.successes
    intro c hc
    simp only [Function.update_apply] at hc
    split_ifs at hc
    exact hc

section Late

/-- The tokens of `tokenJwt` are not verified after the expiry of the reader's. -/
def timedJwt (now : ℤ) : Jwt :=
  { Authenticator.tokenJwt with
    verify := fun key token =>
      if now ≤ 2000000000 then Authenticator.tokenJwt.verify key token
      else .error "token expired" }

/-- The texts of the requests of a reader. -/
def readerRequests : String → Except String Json
  | "authorize" => .ok (.obj [("action", .str "authorize"), ("requestId", .str "1"),
      ("tokens", .str "reader")])
  | "get" => .ok (.obj [("action", .str "get"), ("path", .str "Vehicle.OBD.Speed"),
      ("requestId", .str "2")])
  | _ => .error "Parse error"

def readerPlatform : Platform := .basic readerRequests

def readerAsks (text : String) : TimedStep := .request 1 ⟨midnight, 7, text⟩

def timedStart : TimedServer :=
  { now := 1700000000, server := ⟨⟨speedTree, speedTree⟩, {}, ⟨"key"⟩⟩ }

/-- The server after these steps. -/
def timedAfter (steps : List TimedStep) : TimedServer :=
  TransitionSystem.after timedStart (next readerPlatform timedJwt) steps

theorem timedJwt_verifiesUntilExp : VerifiesUntilExp timedJwt := by
  intro now key token claims hd hv exp hexp
  have hnow : now ≤ 2000000000 := by
    by_contra hlate
    simp [timedJwt, hlate] at hv
  obtain rfl : exp = .int 2000000000 := Authenticator.tokenJwt_exp hd hexp
  exact ⟨2000000000, rfl, hnow⟩

/-- The reader has handed over its token. -/
def authorizedServer : TimedServer := timedAfter [readerAsks "authorize"]

theorem authorizedServer_expires {connID : ℕ} {e : ℤ}
    (h : authorizedServer.expires connID = some e) : e = 2000000000 := by
  have hexec : TransitionSystem.exec (next readerPlatform timedJwt) timedStart
      [readerAsks "authorize"] = some authorizedServer :=
    TransitionSystem.exec_eq_some_after (by decide +kernel)
  obtain ⟨st, hst, hlast⟩ := Option.bind_eq_some_iff.mp hexec
  obtain rfl : st = authorizedServer := Option.some.inj hlast
  have hst : request readerPlatform timedJwt timedStart 1 ⟨midnight, 7, "authorize"⟩ =
      some authorizedServer := hst
  obtain ⟨s, -, hs⟩ := Option.map_eq_some_iff.mp hst
  rw [← hs] at h
  have hacc : accepted (platformAt readerPlatform timedJwt timedStart.now) timedStart.server
      (timedStart.channels 1) "authorize" = some 2000000000 := by decide +kernel
  simp only [expiresAfter, hacc, Function.update_apply] at h
  split_ifs at h
  · exact (Option.some.inj h).symm
  · cases h

/-- The clock goes on while the reader's token is in force, and a get is answered. -/
def timelyServer : TimedServer :=
  TransitionSystem.after { authorizedServer with now := 1800000000 }
    (next readerPlatform timedJwt) [readerAsks "get"]

/-- The reader's token expires, and a get is still answered. -/
def lateSteps : List TimedStep :=
  [readerAsks "authorize", .elapse 2000000001, readerAsks "get"]

end Late

end TimedServer
