import KuksaVal.Requests
import KuksaVal.TokenRights
import KuksaVal.GetRequest

/-! What the requests of one channel leave alone: the trees and the table of subscriptions
where no token was accepted, and always the subscriptions of the other channels. -/
namespace Session
open Json VssCommandProcessor AccessChecker SubscriptionHandler

/-- The table has a subscription of this number, for this channel. -/
def Subscribed (s : Session) (key : SubscriptionKey) (id : SubscriptionId)
    (channel : KuksaChannel) : Prop :=
  Members.get? id (s.server.subHandler.subscriptionsFor key) = some channel

variable {pf : Platform}

theorem subscriptionsFor_publishAll (h : SubscriptionHandler) (pubs : List Publication)
    (key : SubscriptionKey) :
    (publishAll h pubs).subscriptionsFor key = h.subscriptionsFor key := by
  unfold publishAll
  induction pubs generalizing h with
  | nil => rfl
  | cons p ps ih => rw [List.foldl_cons, ih, subscriptionsFor_publishForVSSPath]

section Unauthorized

variable (pf)

/-- A token that the request hands over is refused. -/
def RefusesToken (s : Session) (r : ClientRequest) : Prop :=
  ∀ request token, pf.parse r.reqJson = .ok request → Authorizes request token →
    (s.server.tokenValidator.validate pf.jwt pf.numerics s.channel token).1 = .ok (-1)

/-- The answers to the get requests have no data. -/
def WithholdsData (s : Session) : Prop :=
  ∀ entry ∈ s.handled, ∀ request answer, pf.parse entry.1.reqJson = .ok request →
    text request "action" = .ok "get" → entry.2 = .ok answer → answer.get? "data" = none

/-- A session whose channel has no rights, and that has done nothing since its start. -/
structure Powerless (start s : Session) : Prop where
  permissions : s.channel.permissions = []
  modifyTree : s.channel.modifyTree = false
  database : s.server.database = start.server.database
  subscribed : ∀ key id channel, s.Subscribed key id channel → start.Subscribed key id channel
  withheld : WithholdsData pf s

variable {pf}

theorem processQuery_withholds {ck : Clock} {sv : Server} {subId : SubscriptionId} {reqJson : String}
    {channel : KuksaChannel} {request answer : Json} (hperm : channel.permissions = [])
    (hp : pf.parse reqJson = .ok request) (ha : text request "action" = .ok "get")
    (hq : (processQuery pf ck sv subId reqJson channel).1 = .ok answer) :
    answer.get? "data" = none := by
  have hd : dispatch pf ck sv subId channel request =
      (processGet pf ck sv.database channel request, sv, channel) := by
    simp [dispatch, ha]
  unfold processQuery at hq
  simp only [hp, hd] at hq
  cases hg : processGet pf ck sv.database channel request with
  | error e =>
    simp only [hg] at hq
    split_ifs at hq
    obtain rfl := Except.ok.inj hq
    exact errorAnswer_data _ _ _ _ _
  | ok answer' =>
    simp only [hg] at hq
    obtain rfl := Except.ok.inj hq
    rcases processGet_cases hg with hn | ⟨path, requestId, -, -, hperf⟩
    · exact hn
    · cases hdata : answer'.get? "data" with
      | none => rfl
      | some data =>
        obtain ⟨vssPaths, dps, hne, -, -, hread, -⟩ := performGet_data hperf hdata
        obtain ⟨p, ps, rfl⟩ := List.exists_cons_of_ne_nil hne
        exact absurd hperm (permissions_of_readAccess (hread p List.mem_cons_self))

theorem Powerless.step {start s s' : Session} {r : ClientRequest} (h : Powerless pf start s)
    (hr : RefusesToken pf s r) (hs : next pf s r = some s') : Powerless pf start s' := by
  have hwithheld : WithholdsData pf s' := by
    obtain ⟨-, hh⟩ := next_eq_some hs
    intro entry he
    rw [hh, List.mem_append, List.mem_singleton] at he
    rcases he with he | rfl
    · exact h.withheld entry he
    · intro request answer hp ha hq
      exact processQuery_withholds h.permissions hp ha hq
  rcases step_cases hs with ⟨-, hsv, hch⟩ | ⟨request, hp, heff⟩
  · refine ⟨hch ▸ h.permissions, hch ▸ h.modifyTree, hsv ▸ h.database, ?_, hwithheld⟩
    unfold Subscribed
    rw [hsv]
    exact h.subscribed
  · obtain ⟨server', channel', handled'⟩ := s'
    cases heff with
    | none => exact ⟨h.permissions, h.modifyTree, h.database, h.subscribed, hwithheld⟩
    | @authorize token ha =>
      have hval : s.server.tokenValidator.validate pf.jwt pf.numerics s.channel token =
          (.ok (-1), (s.server.tokenValidator.validate pf.jwt pf.numerics s.channel token).2) :=
        Prod.ext (hr request token hp ha) rfl
      obtain ⟨hperm, hmodify⟩ := Authenticator.permissions_of_validate_failed hval
      exact ⟨hperm.trans h.permissions, hmodify.trans h.modifyTree, h.database, h.subscribed,
        hwithheld⟩
    | set hw hset => exact absurd h.permissions (permissions_of_writeAccess hw)
    | update db hm =>
      have hm' := h.modifyTree.symm.trans hm
      simp at hm'
    | @unsubscribe id hu =>
      refine ⟨h.permissions, h.modifyTree, h.database, ?_, hwithheld⟩
      intro key id' channel' hsub
      apply h.subscribed
      unfold Subscribed at hsub ⊢
      simp only [subscriptionsFor_unsubscribe, Members.get?_erase] at hsub
      split_ifs at hsub
      exact hsub
    | subscribe path hread =>
      exact absurd h.permissions (permissions_of_readAccess hread)

/-- On a channel without rights, whose tokens are all refused, no run of requests changes a
tree, enters a subscription or is answered with data. -/
theorem powerless_of_reachable (pf : Platform) (server : Server) (channel : KuksaChannel)
    (hperm : channel.permissions = []) (hmodify : channel.modifyTree = false) (s : Session)
    (h : (system pf ⟨server, channel, []⟩).Reachable (RefusesToken pf) s) :
    s.server.database = server.database ∧
      (∀ key id ch, s.Subscribed key id ch →
        Members.get? id (server.subHandler.subscriptionsFor key) = some ch) ∧
      WithholdsData pf s := by
  have hp : Powerless pf ⟨server, channel, []⟩ s := by
    refine h.invariant ?_ ?_
    · rintro _ rfl
      exact ⟨hperm, hmodify, rfl, fun _ _ _ hs => hs, by simp [WithholdsData]⟩
    · intro s r s' hi hr hs
      exact hi.step hr hs
  exact ⟨hp.database, hp.subscribed, hp.withheld⟩

end Unauthorized

section Owners

/-- The number of a new subscription is not in use. -/
def DrawsFresh (s : Session) (r : ClientRequest) : Prop :=
  ∀ key, Members.get? r.subId (s.server.subHandler.subscriptionsFor key) = none

variable (pf) in
/-- One of the requests gave up the subscription of a number. -/
def GaveUp (s : Session) (id : SubscriptionId) : Prop :=
  ∃ entry ∈ s.handled, ∃ request, pf.parse entry.1.reqJson = .ok request ∧
    Unsubscribes pf request id

/-- The connection stays the same in a step, and what another channel has in the table is
taken away exactly by giving up its number. -/
theorem subscribed_step {s s' : Session} {r : ClientRequest} (hf : DrawsFresh s r)
    (hs : next pf s r = some s') {key : SubscriptionKey} {id : SubscriptionId}
    {owner : KuksaChannel} (ho : owner.connectionID ≠ s.channel.connectionID) :
    s'.Subscribed key id owner ↔ s.Subscribed key id owner ∧
      ¬ ∃ request, pf.parse r.reqJson = .ok request ∧ Unsubscribes pf request id := by
  by_cases hu : ∃ request, pf.parse r.reqJson = .ok request ∧ Unsubscribes pf request id
  · obtain ⟨request, hp, hu'⟩ := hu
    have hq := (next_eq_some hs).1
    have heff : (processQuery pf r.clock s.server r.subId r.reqJson s.channel).2 = _ :=
      processQuery_unsubscribes hp hu'
    rw [hq] at heff
    have hsv : s'.server = { s.server with
        subHandler := (s.server.subHandler.unsubscribe id).2 } := (Prod.mk.inj heff).1
    simp only [Subscribed, hsv, subscriptionsFor_unsubscribe, Members.get?_erase, ↓reduceIte,
      reduceCtorEq, false_iff, not_and, not_not]
    exact fun _ => ⟨request, hp, hu'⟩
  · simp only [hu, not_false_eq_true, and_true]
    rcases step_cases hs with ⟨-, hsv, -⟩ | ⟨request, hp, heff⟩
    · rw [Subscribed, hsv, Subscribed]
    · obtain ⟨server', channel', handled'⟩ := s'
      cases heff with
      | none => exact Iff.rfl
      | authorize ha => exact Iff.rfl
      | set hw hset => simp only [Subscribed, subscriptionsFor_publishAll]
      | update db hm => exact Iff.rfl
      | @unsubscribe id' hu' =>
        have hne : id ≠ id' := by
          rintro rfl
          exact hu ⟨request, hp, hu'⟩
        simp [Subscribed, subscriptionsFor_unsubscribe, hne]
      | @subscribe path attr hread =>
        simp only [Subscribed, subscriptionsFor_enter]
        split_ifs with hk
        · subst hk
          rw [Members.get?_assign]
          split_ifs with hid
          · subst hid
            rw [hf]
            simp only [Option.some.injEq, reduceCtorEq, iff_false]
            rintro rfl
            exact ho rfl
          · exact Iff.rfl
        · exact Iff.rfl

theorem next_connectionID {s s' : Session} {r : ClientRequest} (hs : next pf s r = some s') :
    s'.channel.connectionID = s.channel.connectionID := by
  rcases step_cases hs with ⟨-, -, hc⟩ | ⟨request, hp, heff⟩
  · rw [hc]
  · obtain ⟨server', channel', handled'⟩ := s'
    cases heff with
    | authorize ha => exact Authenticator.validate_connection.connectionID
    | _ => rfl

theorem next_typeOfConnection {s s' : Session} {r : ClientRequest} (hs : next pf s r = some s') :
    s'.channel.typeOfConnection = s.channel.typeOfConnection := by
  rcases step_cases hs with ⟨-, -, hc⟩ | ⟨request, hp, heff⟩
  · rw [hc]
  · obtain ⟨server', channel', handled'⟩ := s'
    cases heff with
    | authorize ha => exact Authenticator.validate_connection.typeOfConnection
    | _ => rfl

/-- Of the subscriptions of another channel, a run of requests takes away those whose number
it gives up, and no others. -/
theorem subscribed_iff (pf : Platform) (server : Server) (channel : KuksaChannel) (s : Session)
    (h : (system pf ⟨server, channel, []⟩).Reachable DrawsFresh s) (key : SubscriptionKey)
    (id : SubscriptionId) (owner : KuksaChannel)
    (ho : owner.connectionID ≠ channel.connectionID) :
    s.Subscribed key id owner ↔
      Members.get? id (server.subHandler.subscriptionsFor key) = some owner ∧ ¬ GaveUp pf s id := by
  have hinv : s.channel.connectionID = channel.connectionID ∧ (s.Subscribed key id owner ↔
      Members.get? id (server.subHandler.subscriptionsFor key) = some owner ∧
        ¬ GaveUp pf s id) := by
    refine h.invariant (I := fun s => s.channel.connectionID = channel.connectionID ∧
      (s.Subscribed key id owner ↔
        Members.get? id (server.subHandler.subscriptionsFor key) = some owner ∧
          ¬ GaveUp pf s id)) ?_ ?_
    · rintro _ rfl
      refine ⟨rfl, ?_⟩
      simp [GaveUp, Subscribed]
    · rintro s r s' ⟨hc, hi⟩ hf hs
      refine ⟨(next_connectionID hs).trans hc, ?_⟩
      rw [subscribed_step hf hs (by rw [hc]; exact ho), hi, and_assoc]
      have hg : GaveUp pf s' id ↔ GaveUp pf s id ∨
          ∃ request, pf.parse r.reqJson = .ok request ∧ Unsubscribes pf request id := by
        unfold GaveUp
        rw [(next_eq_some hs).2]
        simp [or_and_right, exists_or]
      rw [hg, not_or]
  exact hinv.2

end Owners

section Entries

/-- The entries of publications are those of subscriptions in the table. -/
theorem mem_publishAll {h : SubscriptionHandler} {pubs : List Publication} {n : Notification}
    (hn : n ∈ (publishAll h pubs).buffer) : n ∈ h.buffer ∨
      ∃ key, ∃ sub ∈ h.subscriptionsFor key, n.subscriptionId = sub.1 ∧ n.channel = sub.2 := by
  unfold publishAll at hn
  induction pubs generalizing h with
  | nil => exact .inl hn
  | cons p ps ih =>
    rcases ih hn with hn | ⟨key, sub, hm, heq⟩
    · rcases List.mem_append.mp hn with hn | hn
      · exact .inl hn
      · obtain ⟨sub, hm, rfl⟩ := List.mem_map.mp hn
        exact .inr ⟨_, sub, hm, rfl, rfl⟩
    · exact .inr ⟨key, sub, hm, heq⟩

variable {s s' : Session} {r : ClientRequest}

/-- A request enters a subscription only for its own channel, and only with rights. -/
theorem next_table (hs : next pf s r = some s') {key : SubscriptionKey}
    {sub : SubscriptionId × KuksaChannel}
    (hm : sub ∈ s'.server.subHandler.subscriptionsFor key) :
    sub ∈ s.server.subHandler.subscriptionsFor key ∨
      sub = (r.subId, s.channel) ∧ s.channel.permissions ≠ [] := by
  rcases step_cases hs with ⟨-, hsv, -⟩ | ⟨request, hp, heff⟩
  · exact .inl (hsv ▸ hm)
  · obtain ⟨server', channel', handled'⟩ := s'
    cases heff with
    | none => exact .inl hm
    | authorize ha => exact .inl hm
    | set hw hset => exact .inl (by simpa only [subscriptionsFor_publishAll] using hm)
    | update db hmodify => exact .inl hm
    | unsubscribe hu =>
      simp only [subscriptionsFor_unsubscribe] at hm
      exact .inl (List.mem_filter.mp hm).1
    | @subscribe path attr hread =>
      simp only [subscriptionsFor_enter] at hm
      split_ifs at hm with hk
      · rcases Members.mem_assign hm with rfl | hm
        · exact .inr ⟨rfl, permissions_of_readAccess hread⟩
        · exact .inl (hk ▸ hm)
      · exact .inl hm

/-- A request puts entries in the buffer only for subscriptions in the table. -/
theorem next_buffer (hs : next pf s r = some s') {n : Notification}
    (hn : n ∈ s'.server.subHandler.buffer) : n ∈ s.server.subHandler.buffer ∨
      ∃ key, ∃ sub ∈ s.server.subHandler.subscriptionsFor key,
        n.subscriptionId = sub.1 ∧ n.channel = sub.2 := by
  rcases step_cases hs with ⟨-, hsv, -⟩ | ⟨request, hp, heff⟩
  · exact .inl (hsv ▸ hn)
  · obtain ⟨server', channel', handled'⟩ := s'
    cases heff with
    | set hw hset => exact mem_publishAll hn
    | _ => exact .inl hn

end Entries

section Stranger

/-- The owner of the only subscription of the server below. -/
def owner : KuksaChannel := { speedReader with connectionID := 2 }

def speedKey : SubscriptionKey := ⟨"Vehicle/OBD/Speed", "value"⟩

/-- Another channel, which no token has authorized. -/
def strangerStart : Session :=
  ⟨⟨⟨speedTree, speedTree⟩, ⟨[(speedKey, [(7, owner)])], []⟩, ⟨"key"⟩⟩, { connectionID := 1 }, []⟩

def strangerRequest : ClientRequest := ⟨midnight, 8, ""⟩

/-- The session after its one request. -/
def strangerEnd (request : Json) : Session :=
  (next (.basic fun _ => .ok request) strangerStart strangerRequest).getD strangerStart

theorem next_strangerEnd {request : Json}
    (h : (next (.basic fun _ => .ok request) strangerStart strangerRequest).isSome = true) :
    next (.basic fun _ => .ok request) strangerStart strangerRequest =
      some (strangerEnd request) := by
  obtain ⟨s, hs⟩ := Option.isSome_iff_exists.mp h
  rw [strangerEnd, hs]
  rfl

theorem strangerStart_fresh : DrawsFresh strangerStart strangerRequest := by
  intro key
  by_cases hk : key = speedKey
  · subst hk
    decide
  · simp [strangerStart, strangerRequest, SubscriptionHandler.subscriptionsFor,
      Members.get?_cons, hk]

/-- Handing over a token that is refused. -/
def refusedAuthorize : Json :=
  .obj [("action", .str "authorize"), ("requestId", .str "1"), ("tokens", .str "none")]

theorem powerless_of_reachable_authorize :
    (strangerEnd refusedAuthorize).server.database = ⟨speedTree, speedTree⟩ := by
  refine (powerless_of_reachable (.basic fun _ => .ok refusedAuthorize) strangerStart.server
    { connectionID := 1 } rfl rfl _ ?_).1
  refine .step (.init rfl) ?_ (next_strangerEnd (by decide +kernel))
  intro request token _ _
  rfl

/-- Giving up the subscription of the other channel. -/
def foreignUnsubscribe : Json :=
  .obj [("action", .str "unsubscribe"), ("requestId", .str "1"), ("subscriptionId", .str "7")]

theorem strangerEnd_reachable :
    (system (.basic fun _ => .ok foreignUnsubscribe) strangerStart).Reachable DrawsFresh
      (strangerEnd foreignUnsubscribe) :=
  .step (.init rfl) strangerStart_fresh (next_strangerEnd (by decide +kernel))

theorem subscribed_iff_unsubscribe :
    ¬ ((strangerEnd foreignUnsubscribe).Subscribed speedKey 7 owner ∧
      GaveUp (.basic fun _ => .ok foreignUnsubscribe) (strangerEnd foreignUnsubscribe) 7) := by
  rintro ⟨hs, hg⟩
  exact ((subscribed_iff (.basic fun _ => .ok foreignUnsubscribe) strangerStart.server
    { connectionID := 1 } _ strangerEnd_reachable speedKey 7 owner (by decide)).mp hs).2 hg

/-- A channel takes away the subscription of another one. -/
theorem unsubscribe_foreign :
    ¬ ∀ (pf : Platform) (server : Server) (channel : KuksaChannel) (s : Session),
      (system pf ⟨server, channel, []⟩).Reachable DrawsFresh s →
        ∀ (key : SubscriptionKey) (id : SubscriptionId) (owner : KuksaChannel),
          owner.connectionID ≠ channel.connectionID → (s.Subscribed key id owner ↔
            Members.get? id (server.subHandler.subscriptionsFor key) = some owner) := by
  intro h
  have hs := (h _ strangerStart.server { connectionID := 1 } _ strangerEnd_reachable speedKey 7
    owner (by decide)).mpr (by decide)
  have hno : Members.get? 7
      ((strangerEnd foreignUnsubscribe).server.subHandler.subscriptionsFor speedKey) ≠
        some owner := by decide +kernel
  exact hno hs

end Stranger

end Session
