import KuksaVal.Delivery
import KuksaVal.GrpcStreams
import KuksaVal.WebSocketSession

/-! The way of a notification from the set that it tells of to the client: through the buffer, the
thread that takes it, and the queue of the session that it is written to. -/
open Json

/-- A message to a client: the answer to a request, or a notification. -/
structure Outgoing where
  message : Message
  notification : Option Notification := none

/-- The server, and by address the sessions, the map that has them, and what was written to each.
It is noted which channel drew a subscription number. -/
structure Pipeline where
  delivery : Delivery
  sessions : ℕ → WebSocketSession := fun _ => {}
  connected : ℕ → Option ChannelType := fun _ => none
  outgoing : ℕ → List Outgoing := fun _ => []
  owner : SubscriptionId → Option KuksaChannel := fun _ => none

inductive PipelineStep where
  | server (step : DeliveryStep)
  | forward (ck : Clock)
  | respond (connID : ℕ) (message : Message)
  | completion (connID i : ℕ) (ec : ErrorCode) (bytesTransferred : ℕ)
  | opened (connID : ℕ) (type : ChannelType)
  | closed (connID : ℕ)

namespace Pipeline

variable (pf : Platform) (st : Pipeline)

def write (connID : ℕ) (o : Outgoing) : Pipeline :=
  { st with
    sessions := Function.update st.sessions connID ((st.sessions connID).write o.message)
    outgoing := Function.update st.outgoing connID (st.outgoing connID ++ [o]) }

/-- The text that the thread sends. -/
def textOf (answer : Json) : Message := (pf.prettyPrint answer).toUTF8.data.toList

/-- The thread sends what it took; nothing is written to HTTP sessions. -/
def forward (ck : Clock) : Option Pipeline :=
  match st.delivery.inHand with
  | none => none
  | some n =>
      match GrpcServer.subscriptionAnswer pf ck n with
      | .error _ => none
      | .ok answer =>
          let connID := n.channel.connectionID
          (Delivery.send pf.jsonPath pf.regex st.delivery (st.connected connID).isSome).map fun d =>
            if n.channel.typeOfConnection = .grpc then { st with delivery := d }
            else match st.connected connID with
              | some .websocketPlain | some .websocketSsl =>
                  write { st with delivery := d } connID ⟨textOf pf answer, some n⟩
              | _ => { st with delivery := d }

def ownerAfter (owner : SubscriptionId → Option KuksaChannel) :
    DeliveryStep → SubscriptionId → Option KuksaChannel
  | .subscribe _ subId channel _ _ => Function.update owner subId (some channel)
  | _ => owner

/-- A session whose transmission fails is removed from its map. -/
def complete (connID i : ℕ) (ec : ErrorCode) (bytesTransferred : ℕ) : Option Pipeline :=
  ((st.sessions connID).next (.completion i ec bytesTransferred)).map fun s => { st with
    sessions := Function.update st.sessions connID s
    connected := if s.clientRemoved then Function.update st.connected connID none
      else st.connected }

def next : PipelineStep → Option Pipeline
  | .server (.send _) => none
  | .server step => (Delivery.next pf.jsonPath pf.regex pf.numerics st.delivery step).map
      fun d => { st with delivery := d, owner := ownerAfter st.owner step }
  | .forward ck => forward pf st ck
  | .respond connID message => some (write st connID ⟨message, none⟩)
  | .completion connID i ec bytesTransferred => complete st connID i ec bytesTransferred
  | .opened connID type =>
      if type = .grpc ∨ (st.connected connID).isSome then none
      else some { st with
        sessions := Function.update st.sessions connID {}
        connected := Function.update st.connected connID (some type)
        outgoing := Function.update st.outgoing connID [] }
  | .closed connID => some { st with connected := Function.update st.connected connID none }

/-- All runs of a server without subscriptions and sessions. -/
def system (db : VssDatabase) : TransitionSystem Pipeline PipelineStep :=
  .ofNext { delivery := { db := db } } (next pf)

end Pipeline

namespace Delivery
open SubscriptionHandler

variable {jp : JsonPath} {rx : StdRegex} {nm : Numerics} {st st' : Delivery}

/-- The table gets entries from subscriptions alone. -/
theorem next_entries {subs subs' : Subscribers} {event : SubscriptionEvent}
    (h : subs.next jp rx event = some subs') {key : SubscriptionKey}
    {sub : SubscriptionId × KuksaChannel} (hm : sub ∈ subs'.handler.subscriptionsFor key) :
    sub ∈ subs.handler.subscriptionsFor key ∨
      ∃ db path attr, event = .subscribe db sub.1 sub.2 path attr := by
  cases event with
  | subscribe db subId channel path attr =>
    unfold Subscribers.next SubscriptionHandler.subscribe at h
    cases hc : checkSubscribe jp rx db channel path with
    | error e => simp [hc] at h
    | ok p =>
      simp only [hc, Option.ite_none_left_eq_some, Option.some.injEq] at h
      obtain ⟨-, rfl⟩ := h
      simp only [subscriptionsFor_enter] at hm
      split_ifs at hm with hk
      · rcases Members.mem_assign hm with rfl | hm
        · exact .inr ⟨db, path, attr, rfl⟩
        · exact .inl (hk ▸ hm)
      · exact .inl hm
  | unsubscribe subscribeID =>
    obtain rfl := Option.some.inj h
    simp only [subscriptionsFor_unsubscribe] at hm
    exact .inl (List.mem_filter.mp hm).1
  | unsubscribeAll channel =>
    obtain rfl := Option.some.inj h
    simp only [subscriptionsFor_unsubscribeAll] at hm
    exact .inl (List.mem_of_mem_eraseP hm)
  | publish p =>
    obtain rfl := Option.some.inj h
    exact .inl hm
  | deliver =>
    obtain rfl := Option.some.inj h
    exact .inl hm

theorem Effect.entries {step : DeliveryStep} (h : Effect jp rx nm st step st')
    {key : SubscriptionKey} {sub : SubscriptionId × KuksaChannel}
    (hm : sub ∈ st'.subs.handler.subscriptionsFor key) :
    sub ∈ st.subs.handler.subscriptionsFor key ∨
      ∃ db path attr, step = .subscribe db sub.1 sub.2 path attr := by
  cases h with
  | tree db => exact .inl hm
  | store hset => exact .inl hm
  | publish hw => exact .inl hm
  | subscribe hfresh hs =>
    refine (next_entries hs hm).imp_right ?_
    rintro ⟨db, path, attr, he⟩
    cases he
    exact ⟨_, _, _, rfl⟩
  | unsubscribe hs => exact (next_entries hs hm).imp_right (by simp)
  | unsubscribeAll hs => exact (next_entries hs hm).imp_right (by simp)
  | take hh hb hs => exact (next_entries hs hm).imp_right (by simp)
  | streamed hh htype => exact .inl hm
  | sent hh htype => exact .inl hm
  | gone hh hs => exact (next_entries hs hm).imp_right (by simp)

/-- The buffer gets entries of the table, and loses the one that is taken. -/
theorem Effect.buffer {step : DeliveryStep} (h : Effect jp rx nm st step st') {n : Notification}
    (hn : n ∈ st'.subs.handler.buffer) : n ∈ st.subs.handler.buffer ∨
      ∃ key, ∃ sub ∈ st.subs.handler.subscriptionsFor key,
        n.subscriptionId = sub.1 ∧ n.channel = sub.2 := by
  cases h with
  | tree db => exact .inl hn
  | store hset => exact .inl hn
  | publish hw =>
    rcases List.mem_append.mp hn with hn | hn
    · exact .inl hn
    · obtain ⟨sub, hm, rfl⟩ := List.mem_map.mp hn
      exact .inr ⟨_, sub, hm, rfl, rfl⟩
  | subscribe hfresh hs => exact .inl ((next_subscribe_live hs).1 ▸ hn)
  | unsubscribe hs => exact .inl ((next_unsubscribe_live hs).1 ▸ hn)
  | unsubscribeAll hs => exact .inl ((next_unsubscribeAll_live hs).1 ▸ hn)
  | take hh hb hs =>
    obtain rfl := Option.some.inj hs
    exact .inl (List.mem_of_mem_drop hn)
  | streamed hh htype => exact .inl hn
  | sent hh htype => exact .inl hn
  | gone hh hs => exact .inl ((next_unsubscribeAll_live hs).1 ▸ hn)

/-- What is held was held before, or is taken from the buffer. -/
theorem Effect.inHand {step : DeliveryStep} (h : Effect jp rx nm st step st') {n : Notification}
    (hn : st'.inHand = some n) :
    st.inHand = some n ∧ st'.dequeued = st.dequeued ∨
      n ∈ st.subs.handler.buffer ∧ st.inHand = none ∧ st'.dequeued = st.dequeued ++ [n] := by
  cases h with
  | take hh hb hs =>
    obtain rfl := Option.some.inj hn
    exact .inr ⟨hb ▸ List.mem_cons_self, hh, rfl⟩
  | streamed hh htype => simp at hn
  | sent hh htype => simp at hn
  | gone hh hs => simp at hn
  | _ => exact .inl ⟨hn, rfl⟩

theorem Effect.entered {step : DeliveryStep} (h : Effect jp rx nm st step st') :
    st'.entered = st.entered ∨ ∃ db subId channel path attr,
      step = .subscribe db subId channel path attr ∧
        subId ∉ st.entered.map Subscription.id ∧
          st'.entered = ⟨subId, path, attr⟩ :: st.entered := by
  cases h with
  | subscribe hfresh hs => exact .inr ⟨_, _, _, _, _, rfl, hfresh, rfl⟩
  | _ => exact .inl rfl

/-- The thread takes a notification, or holds what it held. -/
theorem Effect.taken {step : DeliveryStep} (h : Effect jp rx nm st step st')
    (hsend : ∀ connectionexist, step ≠ .send connectionexist) :
    st'.inHand = st.inHand ∧ st'.dequeued = st.dequeued ∨
      ∃ n, st.inHand = none ∧ st'.inHand = some n ∧ st'.dequeued = st.dequeued ++ [n] := by
  cases h with
  | @take n rest subs hh hb hs => exact .inr ⟨n, hh, rfl, rfl⟩
  | streamed hh htype => exact absurd rfl (hsend _)
  | sent hh htype => exact absurd rfl (hsend _)
  | gone hh hs => exact absurd rfl (hsend _)
  | _ => exact .inl ⟨rfl, rfl⟩

theorem Effect.dequeued {step : DeliveryStep} (h : Effect jp rx nm st step st') :
    st.dequeued <+: st'.dequeued := by
  cases h with
  | take hh hb hs => exact List.prefix_append _ _
  | _ => exact List.prefix_refl _

end Delivery

namespace Pipeline
open WebSocketSession

variable {pf : Platform} {st st' : Pipeline}

/-- Entries, and what was taken of them, are of the channel that drew their number. -/
structure Routed (st : Pipeline) : Prop where
  table : ∀ key, ∀ sub ∈ st.delivery.subs.handler.subscriptionsFor key, st.owner sub.1 = some sub.2
  buffer : ∀ n ∈ st.delivery.subs.handler.buffer, st.owner n.subscriptionId = some n.channel
  inHand : ∀ n, st.delivery.inHand = some n →
    st.owner n.subscriptionId = some n.channel ∧ n ∈ st.delivery.dequeued
  drawn : ∀ id, (st.owner id).isSome → id ∈ st.delivery.entered.map Subscription.id
  logged : ∀ connID, ∀ o ∈ st.outgoing connID, ∀ n, o.notification = some n →
    n ∈ st.delivery.dequeued
  fifo : ∀ connID, (st.sessions connID).Fifo
  written : ∀ connID, (st.sessions connID).written = (st.outgoing connID).map Outgoing.message

/-- A number that is drawn is not that of another channel. -/
theorem ownerAfter_of_some (h : st.Routed) {step : DeliveryStep} {d : Delivery}
    (hs : Delivery.next pf.jsonPath pf.regex pf.numerics st.delivery step = some d)
    {id : SubscriptionId} {channel : KuksaChannel} (ho : st.owner id = some channel) :
    ownerAfter st.owner step id = some channel := by
  cases step with
  | subscribe db subId channel' path attr =>
    have hin := h.drawn id (by simp [ho])
    simp only [Delivery.next] at hs
    split_ifs at hs with hfresh
    have hne : id ≠ subId := by
      rintro rfl
      exact hfresh hin
    simpa [ownerAfter, hne] using ho
  | _ => exact ho

theorem drawn_ownerAfter (h : st.Routed) {step : DeliveryStep} {d : Delivery}
    (hs : Delivery.next pf.jsonPath pf.regex pf.numerics st.delivery step = some d)
    {id : SubscriptionId} (ho : (ownerAfter st.owner step id).isSome) :
    id ∈ d.entered.map Subscription.id := by
  have hold (hid : (st.owner id).isSome) : id ∈ d.entered.map Subscription.id := by
    have hin := h.drawn id hid
    rcases (Delivery.next_effect hs).entered with he | ⟨_, _, _, _, _, -, -, he⟩
    · rwa [he]
    · rw [he]
      exact List.mem_cons_of_mem _ hin
  cases step with
  | subscribe db subId channel path attr =>
    by_cases hid : id = subId
    · subst hid
      simp only [Delivery.next] at hs
      split_ifs at hs
      obtain ⟨subs, -, rfl⟩ := Option.map_eq_some_iff.mp hs
      exact List.mem_cons_self
    · rw [ownerAfter, Function.update_of_ne hid] at ho
      exact hold ho
  | _ => exact hold ho

theorem Routed.delivery (h : st.Routed) {step : DeliveryStep} {d : Delivery}
    (hs : Delivery.next pf.jsonPath pf.regex pf.numerics st.delivery step = some d) :
    Routed { st with delivery := d, owner := ownerAfter st.owner step } := by
  have he := Delivery.next_effect hs
  have hsub := he.dequeued.subset
  refine ⟨?_, ?_, ?_, fun id => drawn_ownerAfter h hs, ?_, h.fifo, h.written⟩
  · intro key sub hm
    rcases he.entries hm with hm | ⟨db, path, attr, rfl⟩
    · exact ownerAfter_of_some h hs (h.table key sub hm)
    · simp [ownerAfter]
  · intro n hn
    rcases he.buffer hn with hn | ⟨key, sub, hm, hid, hch⟩
    · exact ownerAfter_of_some h hs (h.buffer n hn)
    · rw [hid, hch]
      exact ownerAfter_of_some h hs (h.table key sub hm)
  · intro n hn
    rcases he.inHand hn with ⟨hh, -⟩ | ⟨hb, -, hd⟩
    · obtain ⟨ho, hm⟩ := h.inHand n hh
      exact ⟨ownerAfter_of_some h hs ho, hsub hm⟩
    · refine ⟨ownerAfter_of_some h hs (h.buffer n hb), ?_⟩
      show n ∈ d.dequeued
      rw [hd]
      exact List.mem_append_right _ (List.mem_singleton_self n)
  · intro connID o ho n hn
    exact hsub (h.logged connID o ho n hn)

theorem Routed.write (h : st.Routed) (connID : ℕ) {o : Outgoing}
    (ho : ∀ n, o.notification = some n → n ∈ st.delivery.dequeued) :
    (st.write connID o).Routed := by
  refine ⟨h.table, h.buffer, h.inHand, h.drawn, ?_, ?_, ?_⟩
  · intro c o' ho' n hn
    by_cases hc : c = connID
    · subst hc
      simp only [Pipeline.write, Function.update_self, List.mem_append, List.mem_singleton] at ho'
      rcases ho' with ho' | rfl
      · exact h.logged c o' ho' n hn
      · exact ho n hn
    · simp only [Pipeline.write, Function.update_of_ne hc] at ho'
      exact h.logged c o' ho' n hn
  · intro c
    by_cases hc : c = connID
    · subst hc
      simpa only [Pipeline.write, Function.update_self] using (h.fifo c).write o.message
    · simpa only [Pipeline.write, Function.update_of_ne hc] using h.fifo c
  · intro c
    by_cases hc : c = connID
    · subst hc
      simp [Pipeline.write, write_written, h.written c]
    · simpa only [Pipeline.write, Function.update_of_ne hc] using h.written c

/-- What the thread does: the notification that it held is written to its session, or it is not. -/
theorem forward_cases {ck : Clock} (hs : forward pf st ck = some st') :
    ∃ n d, st.delivery.inHand = some n ∧ d.inHand = none ∧ d.dequeued = st.delivery.dequeued ∧
      Delivery.next pf.jsonPath pf.regex pf.numerics st.delivery
        (.send (st.connected n.channel.connectionID).isSome) = some d ∧
      ((n.channel.typeOfConnection = .grpc ∨
          (st.connected n.channel.connectionID ≠ some .websocketPlain ∧
            st.connected n.channel.connectionID ≠ some .websocketSsl)) ∧
        st' = { st with delivery := d } ∨
      ∃ message, st' = Pipeline.write { st with delivery := d } n.channel.connectionID
        ⟨message, some n⟩) := by
  unfold forward at hs
  cases hh : st.delivery.inHand with
  | none => simp [hh] at hs
  | some n =>
    simp only [hh] at hs
    cases ha : GrpcServer.subscriptionAnswer pf ck n with
    | error e => simp [ha] at hs
    | ok answer =>
      simp only [ha] at hs
      obtain ⟨d, hd, he⟩ := Option.map_eq_some_iff.mp hs
      have hdone : d.inHand = none ∧ d.dequeued = st.delivery.dequeued := by
        unfold Delivery.send at hd
        simp only [hh] at hd
        split_ifs at hd
        · obtain rfl := Option.some.inj hd
          exact ⟨rfl, rfl⟩
        · obtain rfl := Option.some.inj hd
          exact ⟨rfl, rfl⟩
        · obtain ⟨subs, -, rfl⟩ := Option.map_eq_some_iff.mp hd
          exact ⟨rfl, rfl⟩
      refine ⟨n, d, rfl, hdone.1, hdone.2, hd, ?_⟩
      split_ifs at he with ht
      · exact .inl ⟨.inl ht, he.symm⟩
      · split at he
        · exact .inr ⟨_, he.symm⟩
        · exact .inr ⟨_, he.symm⟩
        · rename_i h1 h2
          exact .inl ⟨.inr ⟨h1, h2⟩, he.symm⟩

theorem next_server {step : DeliveryStep} (hs : next pf st (.server step) = some st') :
    (∀ connectionexist, step ≠ .send connectionexist) ∧
      ∃ d, Delivery.next pf.jsonPath pf.regex pf.numerics st.delivery step = some d ∧
        { st with delivery := d, owner := ownerAfter st.owner step } = st' := by
  cases step with
  | send connectionexist => simp [Pipeline.next] at hs
  | _ =>
    simp only [Pipeline.next] at hs
    exact ⟨by simp, Option.map_eq_some_iff.mp hs⟩

/-- The sessions transfer all bytes, no session begins at the address of a subscription, and where
the thread holds a notification of it, its session is in a map. -/
def Keeps (id : SubscriptionId) (st : Pipeline) : PipelineStep → Prop
  | .forward _ => ∀ n, st.delivery.inHand = some n → n.subscriptionId = id →
      n.channel.typeOfConnection ≠ .grpc ∧
        (st.connected n.channel.connectionID = some .websocketPlain ∨
          st.connected n.channel.connectionID = some .websocketSsl)
  | .completion connID i ec bytesTransferred =>
      (st.sessions connID).TransfersAll (.completion i ec bytesTransferred)
  | .opened connID _ => ∀ channel, st.owner id = some channel → channel.connectionID ≠ connID
  | _ => True

theorem Routed.next {id : SubscriptionId} (h : st.Routed) {step : PipelineStep}
    (hok : st.Keeps id step) (hs : next pf st step = some st') : st'.Routed := by
  cases step with
  | server step =>
    obtain ⟨-, d, hd, rfl⟩ := next_server hs
    exact h.delivery hd
  | forward ck =>
    obtain ⟨n, d, hh, -, hdeq, hd, ⟨-, rfl⟩ | ⟨message, rfl⟩⟩ := forward_cases hs
    · exact h.delivery hd
    · refine (h.delivery hd).write _ ?_
      rintro _ ⟨⟩
      show n ∈ d.dequeued
      exact hdeq ▸ (h.inHand n hh).2
  | respond connID message =>
    obtain rfl := Option.some.inj hs
    exact h.write connID (by simp)
  | completion connID i ec bytesTransferred =>
    obtain ⟨s, hn, rfl⟩ := Option.map_eq_some_iff.mp hs
    refine ⟨h.table, h.buffer, h.inHand, h.drawn, h.logged, ?_, ?_⟩
    · have ht : (st.sessions connID).TransfersAll (.completion i ec bytesTransferred) := hok
      exact (Function.forall_update_iff _ fun _ (t : WebSocketSession) => t.Fifo).mpr
        ⟨(h.fifo connID).next ht hn, fun c _ => h.fifo c⟩
    · refine (Function.forall_update_iff _ fun c (t : WebSocketSession) =>
        t.written = (st.outgoing c).map Outgoing.message).mpr ⟨?_, fun c _ => h.written c⟩
      obtain ⟨op, -, rfl⟩ := Option.map_eq_some_iff.mp hn
      rw [onWrite_written]
      exact h.written connID
  | opened connID type =>
    simp only [Pipeline.next] at hs
    split_ifs at hs
    obtain rfl := Option.some.inj hs
    refine ⟨h.table, h.buffer, h.inHand, h.drawn, ?_, ?_, ?_⟩
    · intro c o ho n hn
      by_cases hc : c = connID
      · subst hc
        simp at ho
      · simp only [Function.update_of_ne hc] at ho
        exact h.logged c o ho n hn
    · exact (Function.forall_update_iff _ fun _ (t : WebSocketSession) => t.Fifo).mpr
        ⟨⟨rfl, .inl rfl, rfl⟩, fun c _ => h.fifo c⟩
    · intro c
      by_cases hc : c = connID
      · subst hc
        simp
      · simpa only [Function.update_of_ne hc] using h.written c
  | closed connID =>
    obtain rfl := Option.some.inj hs
    exact ⟨h.table, h.buffer, h.inHand, h.drawn, h.logged, h.fifo, h.written⟩

/-- The data of a subscription among messages. -/
def dataOf (id : SubscriptionId) (os : List Outgoing) : List Json :=
  os.filterMap fun o => o.notification.bind fun n =>
    if n.subscriptionId = id then some n.data else none

theorem dataOf_append (id : SubscriptionId) (os os' : List Outgoing) :
    dataOf id (os ++ os') = dataOf id os ++ dataOf id os' :=
  List.filterMap_append

/-- The data of a subscription among notifications. -/
def dataIn (id : SubscriptionId) (ns : List Notification) : List Json :=
  (ns.filter fun n => decide (n.subscriptionId = id)).map Notification.data

/-- What was taken for a subscription is written to its session, or held. -/
def Kept (id : SubscriptionId) (st : Pipeline) : Prop :=
  ∀ channel, st.owner id = some channel →
    dataOf id (st.outgoing channel.connectionID) ++ dataIn id st.delivery.inHand.toList =
      dataIn id st.delivery.dequeued

theorem dataIn_eq_nil {id : SubscriptionId} {ns : List Notification}
    (h : ∀ n ∈ ns, n.subscriptionId ≠ id) : dataIn id ns = [] := by
  rw [dataIn, List.map_eq_nil_iff, List.filter_eq_nil_iff]
  intro n hn
  simpa using h n hn

theorem dataOf_eq_nil {id : SubscriptionId} {os : List Outgoing}
    (h : ∀ o ∈ os, ∀ n, o.notification = some n → n.subscriptionId ≠ id) : dataOf id os = [] := by
  rw [dataOf, List.filterMap_eq_nil_iff]
  intro o ho
  cases hn : o.notification with
  | none => rfl
  | some n => simp [h o ho n hn]

theorem Kept.server {id : SubscriptionId} (hr : st.Routed) (hc : st.delivery.Consistent)
    (h : st.Kept id) {step : DeliveryStep} {d : Delivery}
    (hs : Delivery.next pf.jsonPath pf.regex pf.numerics st.delivery step = some d)
    (hsend : ∀ connectionexist, step ≠ .send connectionexist) :
    Kept id { st with delivery := d, owner := ownerAfter st.owner step } := by
  have heq (channel : KuksaChannel)
      (hk : dataOf id (st.outgoing channel.connectionID) ++ dataIn id st.delivery.inHand.toList =
        dataIn id st.delivery.dequeued) :
      dataOf id (st.outgoing channel.connectionID) ++ dataIn id d.inHand.toList =
        dataIn id d.dequeued := by
    rcases (Delivery.next_effect hs).taken hsend with ⟨hh, hd⟩ | ⟨n, hh, hn, hd⟩
    · rw [hh, hd, hk]
    · rw [hd, hn]
      rw [hh] at hk
      simp only [dataIn, Option.toList_none, Option.toList_some, List.filter_append,
        List.map_append, List.filter_nil, List.map_nil, List.append_nil] at hk ⊢
      rw [hk]
  intro channel ho
  refine heq channel ?_
  by_cases hin : (st.owner id).isSome
  · obtain ⟨channel', hold⟩ := Option.isSome_iff_exists.mp hin
    obtain rfl : channel' = channel :=
      Option.some.inj ((ownerAfter_of_some hr hs hold).symm.trans ho)
    exact h channel' hold
  · -- The number is drawn in this step, so nothing was taken for it.
    have hfresh : id ∉ st.delivery.entered.map Subscription.id := by
      cases step with
      | subscribe db subId channel' path attr =>
        have hid : id = subId := by
          by_contra hne
          simp only [ownerAfter, Function.update_of_ne hne] at ho
          simp [ho] at hin
        simp only [Delivery.next] at hs
        split_ifs at hs with hfresh
        exact hid ▸ hfresh
      | _ => exact absurd (Option.isSome_iff_exists.mpr ⟨channel, ho⟩) hin
    have hno : ∀ n ∈ st.delivery.dequeued, n.subscriptionId ≠ id := by
      rintro n hn rfl
      exact hfresh (hc.known n (List.mem_append_left _ hn))
    have hheld : ∀ n ∈ st.delivery.inHand.toList, n.subscriptionId ≠ id := fun n hn =>
      hno n (hr.inHand n (Option.mem_toList.mp hn)).2
    rw [dataIn_eq_nil hno, dataIn_eq_nil hheld,
      dataOf_eq_nil fun o ho n hn => hno n (hr.logged _ o ho n hn)]
    rfl

theorem Kept.forward {id : SubscriptionId} (hr : st.Routed) (h : st.Kept id) {ck : Clock}
    (hok : st.Keeps id (.forward ck))
    (hs : Pipeline.forward pf st ck = some st') : st'.Kept id := by
  obtain ⟨n, d, hh, hnone, hdeq, -, hcases⟩ := forward_cases hs
  intro channel ho
  have howner : st.owner id = some channel := by
    rcases hcases with ⟨-, rfl⟩ | ⟨message, rfl⟩ <;> exact ho
  have hk := h channel howner
  rw [hh] at hk
  by_cases hid : n.subscriptionId = id
  · subst hid
    obtain ⟨htype, hconn⟩ := hok n hh rfl
    rcases hcases with ⟨hskip | ⟨h1, h2⟩, -⟩ | ⟨message, rfl⟩
    · exact absurd hskip htype
    · exact absurd hconn (by simp [h1, h2])
    · obtain rfl : n.channel = channel :=
        Option.some.inj ((hr.inHand n hh).1.symm.trans howner)
      simp only [Pipeline.write, Function.update_self, hnone, hdeq, ← hk, dataOf_append]
      simp [dataOf, dataIn]
  · have hdata : dataOf id (st'.outgoing channel.connectionID) =
        dataOf id (st.outgoing channel.connectionID) := by
      rcases hcases with ⟨-, rfl⟩ | ⟨message, rfl⟩
      · rfl
      · by_cases hc : channel.connectionID = n.channel.connectionID
        · simp only [Pipeline.write, hc, Function.update_self, dataOf_append]
          simp [dataOf, hid]
        · simp only [Pipeline.write, Function.update_of_ne hc]
    have hst : st'.delivery = d := by
      rcases hcases with ⟨-, rfl⟩ | ⟨message, rfl⟩ <;> rfl
    rw [hdata, hst, hnone, hdeq, ← hk]
    simp [dataIn, hid]

theorem Kept.next {id : SubscriptionId} (hr : st.Routed) (hc : st.delivery.Consistent)
    (h : st.Kept id) {step : PipelineStep} (hok : st.Keeps id step)
    (hs : next pf st step = some st') : st'.Kept id := by
  cases step with
  | server step =>
    obtain ⟨hsend, d, hd, rfl⟩ := next_server hs
    exact h.server hr hc hd hsend
  | forward ck => exact h.forward hr hok hs
  | respond connID message =>
    obtain rfl := Option.some.inj hs
    intro channel ho
    refine Eq.trans ?_ (h channel ho)
    by_cases hconn : channel.connectionID = connID
    · simp only [write, hconn, Function.update_self, dataOf_append]
      simp [dataOf]
    · simp only [write, Function.update_of_ne hconn]
  | completion connID i ec bytesTransferred =>
    obtain ⟨s, -, rfl⟩ := Option.map_eq_some_iff.mp hs
    exact h
  | opened connID type =>
    simp only [Pipeline.next] at hs
    split_ifs at hs
    obtain rfl := Option.some.inj hs
    intro channel ho
    have hne : channel.connectionID ≠ connID := hok channel ho
    simpa only [Function.update_of_ne hne] using h channel ho
  | closed connID =>
    obtain rfl := Option.some.inj hs
    exact h

/-- The delivery takes a step that is its own or the end of a transfer, or it stays. -/
theorem delivery_next {step : PipelineStep} (hs : next pf st step = some st') :
    st'.delivery = st.delivery ∨ ∃ d,
      (step = .server d ∨ ∃ connectionexist, d = .send connectionexist) ∧
        Delivery.next pf.jsonPath pf.regex pf.numerics st.delivery d = some st'.delivery := by
  cases step with
  | server step =>
    obtain ⟨-, d, hd, rfl⟩ := next_server hs
    exact .inr ⟨step, .inl rfl, hd⟩
  | forward ck =>
    obtain ⟨n, d, -, -, -, hd, ⟨-, rfl⟩ | ⟨message, rfl⟩⟩ := forward_cases hs
    · exact .inr ⟨_, .inr ⟨_, rfl⟩, hd⟩
    · exact .inr ⟨_, .inr ⟨_, rfl⟩, hd⟩
  | respond connID message =>
    obtain rfl := Option.some.inj hs
    exact .inl rfl
  | completion connID i ec bytesTransferred =>
    obtain ⟨s, -, rfl⟩ := Option.map_eq_some_iff.mp hs
    exact .inl rfl
  | opened connID type =>
    simp only [Pipeline.next] at hs
    split_ifs at hs
    obtain rfl := Option.some.inj hs
    exact .inl rfl
  | closed connID =>
    obtain rfl := Option.some.inj hs
    exact .inl rfl

theorem consistent_next {step : PipelineStep} (h : st.delivery.Consistent)
    (hs : next pf st step = some st') : st'.delivery.Consistent := by
  rcases delivery_next hs with he | ⟨d, -, hd⟩
  · rwa [he]
  · exact h.next hd

/-- The messages whose transmission to the client has completed, and those after them. -/
def arrived (st : Pipeline) (connID : ℕ) : List Outgoing :=
  (st.outgoing connID).take (st.sessions connID).sent.length

def waiting (st : Pipeline) (connID : ℕ) : List Outgoing :=
  (st.outgoing connID).drop (st.sessions connID).sent.length

/-- A session has sent what has arrived, and its queue is what waits. -/
theorem Routed.sent_eq (h : st.Routed) (connID : ℕ) :
    (st.sessions connID).sent = (st.arrived connID).map Outgoing.message ∧
      (st.sessions connID).writeQueue = (st.waiting connID).map Outgoing.message := by
  have horder := (h.fifo connID).order
  rw [h.written connID] at horder
  unfold arrived waiting
  rw [List.map_take, List.map_drop, ← horder]
  simp

theorem sound_of_reachable {db : VssDatabase} {id : SubscriptionId}
    (h : (system pf db).Reachable (Keeps id) st) :
    st.Routed ∧ st.delivery.Consistent ∧ st.Kept id := by
  refine h.invariant (I := fun st => st.Routed ∧ st.delivery.Consistent ∧ st.Kept id) ?_ ?_
  · rintro _ rfl
    refine ⟨?_, Delivery.consistent_start db, by simp [Kept]⟩
    have hempty : Fifo {} := ⟨rfl, .inl rfl, rfl⟩
    constructor <;> simp [SubscriptionHandler.subscriptionsFor, hempty]
  · rintro st step st' ⟨hr, hc, hk⟩ hok hs
    exact ⟨hr.next hok hs, consistent_next hc hs, hk.next hr hc hok hs⟩

/-- What has arrived of a subscription, and what is still on its way, is all that is due to it. -/
theorem Kept.data_eq_dueTo {s : Subscription} {channel : KuksaChannel} (hk : st.Kept s.id)
    (hc : st.delivery.Consistent) (hs : s ∈ st.delivery.entered)
    (ho : st.owner s.id = some channel) :
    dataOf s.id (st.arrived channel.connectionID) ++
      (dataOf s.id (st.waiting channel.connectionID) ++
        (dataIn s.id st.delivery.inHand.toList ++
          dataIn s.id st.delivery.subs.handler.buffer)) = st.delivery.dueTo s := by
  rw [← hc.queued s hs, Delivery.queuedFor, List.filter_append, List.map_append,
    ← List.append_assoc, ← List.append_assoc, ← dataOf_append]
  unfold arrived waiting
  rw [List.take_append_drop]
  exact congrArg (· ++ dataIn s.id st.delivery.subs.handler.buffer) (hk channel ho)

/-- The client of a subscription has got the data of its sets from the first one on, each one once
and in the order in which they were stored; the rest waits in the queue of its session, is held by
the thread, or waits in the buffer, in this order. -/
theorem arrived_eq_dueTo (pf : Platform) (db : VssDatabase) (s : Subscription)
    (channel : KuksaChannel) (st : Pipeline) (h : (system pf db).Reachable (Keeps s.id) st)
    (hs : s ∈ st.delivery.entered) (ho : st.owner s.id = some channel) :
    (st.sessions channel.connectionID).sent =
        (st.arrived channel.connectionID).map Outgoing.message ∧
      (st.sessions channel.connectionID).writeQueue =
        (st.waiting channel.connectionID).map Outgoing.message ∧
      dataOf s.id (st.arrived channel.connectionID) ++
        (dataOf s.id (st.waiting channel.connectionID) ++
          (dataIn s.id st.delivery.inHand.toList ++
            dataIn s.id st.delivery.subs.handler.buffer)) = st.delivery.dueTo s := by
  obtain ⟨hr, hc, hk⟩ := sound_of_reachable h
  obtain ⟨hsent, hqueue⟩ := hr.sent_eq channel.connectionID
  exact ⟨hsent, hqueue, hk.data_eq_dueTo hc hs ho⟩

end Pipeline

namespace Pipeline
open VssCommandProcessor

section Speed

/-- A client connects and subscribes, the speed is set, and the thread sends the notification. -/
def speedSteps : List PipelineStep :=
  [.opened 1 .websocketPlain,
    .server (.subscribe ⟨speedTree, speedTree⟩ 7 { speedReader with connectionID := 1 }
      "Vehicle.OBD.Speed" "value"),
    .server (.store 1 midnight (.fromVSS "Vehicle.OBD.Speed") "value" (.int 5)),
    .server (.publish 1), .server .take, .forward midnight]

def speedPipeline : Pipeline :=
  TransitionSystem.after { delivery := { db := ⟨speedTree, speedTree⟩ } } (next speedPlatform)
    speedSteps

/-- A test of the conditions of a step, for a subscription of a client that stays connected. -/
def keepsCheck (st : Pipeline) : PipelineStep → Bool
  | .forward _ => st.delivery.inHand.all fun n =>
      decide (n.channel.typeOfConnection = .websocketPlain) &&
        decide (st.connected n.channel.connectionID = some .websocketPlain)
  | .completion .. => false
  | .opened connID _ => (st.owner 7).all fun channel => decide (channel.connectionID ≠ connID)
  | _ => true

theorem keeps_of_check (st : Pipeline) (step : PipelineStep) (h : keepsCheck st step = true) :
    st.Keeps 7 step := by
  cases step with
  | forward ck =>
    rintro n hn -
    simp only [keepsCheck, hn, Option.all_some, Bool.and_eq_true, decide_eq_true_eq] at h
    exact ⟨by simp [h.1], .inl h.2⟩
  | completion connID i ec n => simp [keepsCheck] at h
  | opened connID type =>
    intro channel ho
    simpa [keepsCheck, ho] using h
  | _ => trivial

theorem exec_speedSteps :
    TransitionSystem.exec (next speedPlatform) { delivery := { db := ⟨speedTree, speedTree⟩ } }
      speedSteps = some speedPipeline :=
  TransitionSystem.exec_eq_some_after (by decide +kernel)

theorem arrived_eq_dueTo_speed :
    dataOf 7 (speedPipeline.arrived 1) ++ (dataOf 7 (speedPipeline.waiting 1) ++
      (dataIn 7 speedPipeline.delivery.inHand.toList ++
        dataIn 7 speedPipeline.delivery.subs.handler.buffer)) =
          speedPipeline.delivery.dueTo ⟨7, "Vehicle.OBD.Speed", "value"⟩ :=
  (arrived_eq_dueTo speedPlatform ⟨speedTree, speedTree⟩ ⟨7, "Vehicle.OBD.Speed", "value"⟩
    { speedReader with connectionID := 1 } speedPipeline
    (TransitionSystem.reachable_of_admits keeps_of_check speedSteps (.init rfl) (by decide +kernel)
      exec_speedSteps) (by decide +kernel) (by decide +kernel)).2.2

end Speed

end Pipeline
