import KuksaVal.Notifications

/-! Delivery: clients that set, subscribe and unsubscribe, and the thread that takes the
notifications from the buffer and sends them. -/
open Json VssDatabase

/-- A set that stored a value, with the subscriptions that were live when it was published. -/
structure StoredSet where
  publication : Publication
  published : Option (List Subscription) := none

/-- A client that has stored a value, the number of its set, and what it has to publish. -/
structure PendingSet where
  client : ℕ
  index : ℕ
  publication : Publication

/-- What a client is told: that a subscription has ended, or a notification. -/
inductive ClientEvent where
  | ended (id : SubscriptionId)
  | sent (connID : ℕ) (n : Notification)

/-- The state of the server as far as notifications go. The writer holds the lock of the
database; the sets are in the order in which their values were stored. -/
structure Delivery where
  db : VssDatabase
  subs : Subscribers := {}
  writer : Option PendingSet := none
  inHand : Option Notification := none
  sets : List StoredSet := []
  entered : List Subscription := []
  dequeued : List Notification := []
  trace : List ClientEvent := []

inductive DeliveryStep where
  | store (client : ℕ) (ck : Clock) (path : VSSPath) (attr : String) (value : Json)
  | publish (client : ℕ)
  | update (db : VssDatabase)
  | subscribe (db : VssDatabase) (subId : SubscriptionId) (channel : KuksaChannel)
      (path attr : String)
  | unsubscribe (subscribeID : SubscriptionId)
  | unsubscribeAll (channel : KuksaChannel)
  | take
  | send (connectionexist : Bool)

namespace Delivery
open SubscriptionHandler

variable (jp : JsonPath) (rx : StdRegex) (nm : Numerics)

/-- The first half of a set, with the lock. A set that stores nothing gives the lock back. -/
def store (st : Delivery) (client : ℕ) (ck : Clock) (path : VSSPath) (attr : String)
    (value : Json) : Option Delivery :=
  match st.writer with
  | some _ => none
  | none =>
      match st.db.setSignal jp nm ck path attr value with
      | (_, db, []) => some { st with db := db }
      | (_, db, p :: _) => some { st with
          db := db, writer := some ⟨client, st.sets.length, p⟩, sets := st.sets ++ [⟨p, none⟩] }

/-- The second half of a set. -/
def publish (st : Delivery) (client : ℕ) : Option Delivery :=
  match st.writer with
  | none => none
  | some w =>
      if w.client = client then some { st with
        subs := { st.subs with handler := st.subs.handler.publishForVSSPath w.publication },
        writer := none, sets := st.sets.set w.index ⟨w.publication, some st.subs.live⟩ }
      else none

/-- The thread sends what it took. A notification for a stream of its own goes no further
here; where the connection is gone the subscriptions of its channel are given up. -/
def send (st : Delivery) (connectionexist : Bool) : Option Delivery :=
  match st.inHand with
  | none => none
  | some n =>
      if n.channel.typeOfConnection = .grpc then some { st with inHand := none }
      else if connectionexist then some { st with
        inHand := none, trace := st.trace ++ [.sent n.channel.connectionID n] }
      else (st.subs.next jp rx (.unsubscribeAll n.channel)).map fun subs =>
        { st with inHand := none, subs := subs }

/-- Numbers of subscriptions are drawn at random and never repeat. -/
def next (st : Delivery) : DeliveryStep → Option Delivery
  | .store client ck path attr value => store jp nm st client ck path attr value
  | .publish client => publish st client
  | .update db => if st.writer.isSome then none else some { st with db := db }
  | .subscribe db subId channel path attr =>
      if subId ∈ st.entered.map Subscription.id then none
      else (st.subs.next jp rx (.subscribe db subId channel path attr)).map fun subs =>
        { st with subs := subs, entered := ⟨subId, path, attr⟩ :: st.entered }
  | .unsubscribe subscribeID =>
      (st.subs.next jp rx (.unsubscribe subscribeID)).map fun subs => { st with
        subs := subs,
        trace := if (st.subs.handler.unsubscribe subscribeID).1 = 0 then
          st.trace ++ [.ended subscribeID] else st.trace }
  | .unsubscribeAll channel =>
      (st.subs.next jp rx (.unsubscribeAll channel)).map fun subs => { st with subs := subs }
  | .take =>
      match st.inHand, st.subs.handler.buffer with
      | none, n :: _ => (st.subs.next jp rx .deliver).map fun subs =>
          { st with subs := subs, inHand := some n, dequeued := st.dequeued ++ [n] }
      | _, _ => none
  | .send connectionexist => send jp rx st connectionexist

/-- All runs from an empty table. -/
def system (db : VssDatabase) : TransitionSystem Delivery DeliveryStep :=
  .ofNext { db := db } (next jp rx nm)

variable {jp rx nm} {st st' : Delivery}

variable (jp rx nm) in
/-- What the steps do to a state. -/
inductive Effect (st : Delivery) : DeliveryStep → Delivery → Prop
  | tree {step : DeliveryStep} (db : VssDatabase) : Effect st step { st with db := db }
  | store {client : ℕ} {ck : Clock} {path : VSSPath} {attr : String} {value : Json}
      {db : VssDatabase} {p : Publication} {answer : Except Exn Json} {ps : List Publication}
      (hset : st.db.setSignal jp nm ck path attr value = (answer, db, p :: ps)) :
      Effect st (.store client ck path attr value) { st with
        db := db, writer := some ⟨client, st.sets.length, p⟩, sets := st.sets ++ [⟨p, none⟩] }
  | publish {w : PendingSet} (hw : st.writer = some w) :
      Effect st (.publish w.client) { st with
        subs := { st.subs with handler := st.subs.handler.publishForVSSPath w.publication },
        writer := none, sets := st.sets.set w.index ⟨w.publication, some st.subs.live⟩ }
  | subscribe {db : VssDatabase} {subId : SubscriptionId} {channel : KuksaChannel}
      {path attr : String} {subs : Subscribers} (hfresh : subId ∉ st.entered.map Subscription.id)
      (hs : st.subs.next jp rx (.subscribe db subId channel path attr) = some subs) :
      Effect st (.subscribe db subId channel path attr) { st with
        subs := subs, entered := ⟨subId, path, attr⟩ :: st.entered }
  | unsubscribe {subscribeID : SubscriptionId} {subs : Subscribers}
      (hs : st.subs.next jp rx (.unsubscribe subscribeID) = some subs) :
      Effect st (.unsubscribe subscribeID) { st with
        subs := subs,
        trace := if (st.subs.handler.unsubscribe subscribeID).1 = 0 then
          st.trace ++ [.ended subscribeID] else st.trace }
  | unsubscribeAll {channel : KuksaChannel} {subs : Subscribers}
      (hs : st.subs.next jp rx (.unsubscribeAll channel) = some subs) :
      Effect st (.unsubscribeAll channel) { st with subs := subs }
  | take {n : Notification} {rest : List Notification} {subs : Subscribers}
      (hh : st.inHand = none) (hb : st.subs.handler.buffer = n :: rest)
      (hs : st.subs.next jp rx .deliver = some subs) :
      Effect st .take { st with
        subs := subs, inHand := some n, dequeued := st.dequeued ++ [n] }
  | streamed {n : Notification} {connectionexist : Bool} (hh : st.inHand = some n)
      (htype : n.channel.typeOfConnection = .grpc) :
      Effect st (.send connectionexist) { st with inHand := none }
  | sent {n : Notification} (hh : st.inHand = some n) (htype : n.channel.typeOfConnection ≠ .grpc) :
      Effect st (.send true) { st with
        inHand := none, trace := st.trace ++ [.sent n.channel.connectionID n] }
  | gone {n : Notification} {subs : Subscribers} (hh : st.inHand = some n)
      (hs : st.subs.next jp rx (.unsubscribeAll n.channel) = some subs) :
      Effect st (.send false) { st with inHand := none, subs := subs }

theorem next_effect {step : DeliveryStep} (hs : next jp rx nm st step = some st') :
    Effect jp rx nm st step st' := by
  cases step with
  | store client ck path attr value =>
    simp only [Delivery.next, store] at hs
    split at hs
    · simp at hs
    · split at hs
      · obtain rfl := Option.some.inj hs
        exact .tree _
      · rename_i hset
        obtain rfl := Option.some.inj hs
        exact .store hset
  | publish client =>
    simp only [Delivery.next, publish] at hs
    split at hs
    · simp at hs
    · rename_i w hw
      split_ifs at hs with hc
      obtain rfl := Option.some.inj hs
      exact hc ▸ .publish hw
  | update db =>
    simp only [Delivery.next] at hs
    split_ifs at hs
    obtain rfl := Option.some.inj hs
    exact .tree db
  | subscribe db subId channel path attr =>
    simp only [Delivery.next] at hs
    split_ifs at hs with hfresh
    obtain ⟨subs, hsub, rfl⟩ := Option.map_eq_some_iff.mp hs
    exact .subscribe hfresh hsub
  | unsubscribe subscribeID =>
    simp only [Delivery.next] at hs
    obtain ⟨subs, hsub, rfl⟩ := Option.map_eq_some_iff.mp hs
    exact .unsubscribe hsub
  | unsubscribeAll channel =>
    simp only [Delivery.next] at hs
    obtain ⟨subs, hsub, rfl⟩ := Option.map_eq_some_iff.mp hs
    exact .unsubscribeAll hsub
  | take =>
    simp only [Delivery.next] at hs
    split at hs
    · rename_i hh hb
      obtain ⟨subs, hsub, rfl⟩ := Option.map_eq_some_iff.mp hs
      exact .take hh hb hsub
    · simp at hs
  | send connectionexist =>
    simp only [Delivery.next, send] at hs
    split at hs
    · simp at hs
    · rename_i n hh
      split_ifs at hs with htype hexist
      · obtain rfl := Option.some.inj hs
        exact .streamed hh htype
      · obtain rfl := Option.some.inj hs
        exact hexist ▸ .sent hh htype
      · obtain ⟨subs, hsub, rfl⟩ := Option.map_eq_some_iff.mp hs
        rw [Bool.not_eq_true] at hexist
        exact hexist ▸ .gone hh hsub

/-- Each step does at most one thing to the table of subscriptions and the buffer. -/
theorem Effect.subs {step : DeliveryStep} (h : Effect jp rx nm st step st') :
    st'.subs = st.subs ∨ ∃ event, st.subs.next jp rx event = some st'.subs := by
  cases h with
  | tree db => exact .inl rfl
  | store hset => exact .inl rfl
  | @publish w hw => exact .inr ⟨.publish w.publication, rfl⟩
  | subscribe hfresh hs => exact .inr ⟨_, hs⟩
  | unsubscribe hs => exact .inr ⟨_, hs⟩
  | unsubscribeAll hs => exact .inr ⟨_, hs⟩
  | take hh hb hs => exact .inr ⟨_, hs⟩
  | streamed hh htype => exact .inl rfl
  | sent hh htype => exact .inl rfl
  | gone hh hs => exact .inr ⟨_, hs⟩

/-- The data queued for a subscription: what was taken from the buffer, and what is in it. -/
def queuedFor (st : Delivery) (s : Subscription) : List Json :=
  ((st.dequeued ++ st.subs.handler.buffer).filter fun n =>
    decide (n.subscriptionId = s.id)).map Notification.data

/-- A set of the key of the subscription that was published while it was live. -/
def reaches (s : Subscription) (c : StoredSet) : Bool :=
  decide ((⟨c.publication.path.getVSSPath, c.publication.attr⟩ : SubscriptionKey) = s.key) &&
    c.published.any fun live => decide (s ∈ live)

/-- The data of the sets that a subscription is due, in the order they were stored. -/
def dueTo (st : Delivery) (s : Subscription) : List Json :=
  (st.sets.filter (reaches s)).map fun c => c.publication.data

/-- The queue holds what is due, and only for subscriptions that were entered. -/
structure Consistent (st : Delivery) : Prop where
  tracked : st.subs.Tracked
  ids : (st.entered.map Subscription.id).Nodup
  live : ∀ s ∈ st.subs.live, s ∈ st.entered
  writer : ∀ w, st.writer = some w →
    ∃ sets, st.sets = sets ++ [⟨w.publication, none⟩] ∧ w.index = sets.length
  known : ∀ n ∈ st.dequeued ++ st.subs.handler.buffer,
    n.subscriptionId ∈ st.entered.map Subscription.id
  recorded : ∀ c ∈ st.sets, ∀ live, c.published = some live → ∀ s ∈ live, s ∈ st.entered
  queued : ∀ s ∈ st.entered, st.queuedFor s = st.dueTo s

/-- Subscriptions may end and the thread may send without any change to the queue. -/
theorem Consistent.of_subs (h : st.Consistent) {subs : Subscribers} (ht : subs.Tracked)
    (hb : subs.handler.buffer = st.subs.handler.buffer)
    (hl : ∀ s ∈ subs.live, s ∈ st.subs.live) (inHand : Option Notification)
    (trace : List ClientEvent) :
    Consistent { st with subs := subs, inHand := inHand, trace := trace } := by
  refine ⟨ht, h.ids, fun s hs => h.live s (hl s hs), h.writer, ?_, h.recorded, ?_⟩
  · show ∀ n ∈ st.dequeued ++ subs.handler.buffer, _
    rw [hb]
    exact h.known
  · intro s hs
    have hq := h.queued s hs
    unfold queuedFor at hq ⊢
    rw [hb]
    exact hq

theorem next_subscribe_live {subs subs' : Subscribers} {db : VssDatabase} {subId : SubscriptionId}
    {channel : KuksaChannel} {path attr : String}
    (h : subs.next jp rx (.subscribe db subId channel path attr) = some subs') :
    subs'.handler.buffer = subs.handler.buffer ∧ subs'.live = ⟨subId, path, attr⟩ :: subs.live := by
  unfold Subscribers.next SubscriptionHandler.subscribe at h
  cases hc : checkSubscribe jp rx db channel path with
  | error e => simp [hc] at h
  | ok p =>
    simp only [hc, Option.ite_none_left_eq_some, Option.some.injEq] at h
    obtain ⟨-, rfl⟩ := h
    exact ⟨rfl, rfl⟩

theorem next_unsubscribe_live {subs subs' : Subscribers} {id : SubscriptionId}
    (h : subs.next jp rx (.unsubscribe id) = some subs') :
    subs'.handler.buffer = subs.handler.buffer ∧
      ∀ s ∈ subs'.live, s ∈ subs.live ∧ s.id ≠ id := by
  obtain rfl := Option.some.inj h
  refine ⟨rfl, ?_⟩
  intro s hs
  simpa using hs

theorem next_unsubscribeAll_live {subs subs' : Subscribers} {channel : KuksaChannel}
    (h : subs.next jp rx (.unsubscribeAll channel) = some subs') :
    subs'.handler.buffer = subs.handler.buffer ∧ ∀ s ∈ subs'.live, s ∈ subs.live := by
  obtain rfl := Option.some.inj h
  exact ⟨rfl, fun s hs => (List.mem_filter.mp hs).1⟩

theorem Consistent.store (h : st.Consistent) (db : VssDatabase) (p : Publication) (client : ℕ) :
    Consistent { st with
      db := db, writer := some ⟨client, st.sets.length, p⟩, sets := st.sets ++ [⟨p, none⟩] } := by
  refine ⟨h.tracked, h.ids, h.live, ?_, h.known, ?_, ?_⟩
  · rintro w hw
    obtain rfl := Option.some.inj hw
    exact ⟨st.sets, rfl, rfl⟩
  · intro c hc live hp
    rcases List.mem_append.mp hc with hc | hc
    · exact h.recorded c hc live hp
    · obtain rfl := List.mem_singleton.mp hc
      simp at hp
  · intro s hs
    have hno : reaches s ⟨p, none⟩ = false := by simp [reaches]
    show st.queuedFor s = ((st.sets ++ ([⟨p, none⟩] : List StoredSet)).filter (reaches s)).map
      fun c : StoredSet => c.publication.data
    rw [h.queued s hs, dueTo, List.filter_append, List.filter_singleton, hno]
    simp

/-- The entries that a publication puts in the buffer for one subscription. -/
theorem filter_publish (ht : st.subs.Tracked) (p : Publication) {s : Subscription}
    (hs : ∀ t ∈ st.subs.live, t.id = s.id → t = s) :
    (((st.subs.handler.subscriptionsFor ⟨p.path.getVSSPath, p.attr⟩).map fun sub =>
        (⟨sub.1, sub.2, p.vssdatatype, p.data⟩ : Notification)).filter fun n =>
          decide (n.subscriptionId = s.id)).map Notification.data =
      if s ∈ st.subs.live ∧ s.key = ⟨p.path.getVSSPath, p.attr⟩ then [p.data] else [] := by
  have hin : (Members.get? s.id (st.subs.handler.subscriptionsFor
      ⟨p.path.getVSSPath, p.attr⟩)).isSome ↔
        s ∈ st.subs.live ∧ s.key = ⟨p.path.getVSSPath, p.attr⟩ := by
    rw [ht.entries]
    constructor
    · rintro ⟨t, hm, hid, hk⟩
      obtain rfl := hs t hm hid
      exact ⟨hm, hk⟩
    · rintro ⟨hm, hk⟩
      exact ⟨s, hm, rfl, hk⟩
  rw [List.filter_map]
  have hf := Members.filter_key (ht.keys ⟨p.path.getVSSPath, p.attr⟩).nodup s.id
  simp only [Function.comp_def]
  rw [hf]
  cases hg : Members.get? s.id (st.subs.handler.subscriptionsFor ⟨p.path.getVSSPath, p.attr⟩) with
  | none =>
    rw [hg] at hin
    simp [← hin]
  | some c =>
    rw [hg] at hin
    simp [← hin]

theorem Consistent.publish (h : st.Consistent) {w : PendingSet} (hw : st.writer = some w) :
    Consistent { st with
      subs := { st.subs with handler := st.subs.handler.publishForVSSPath w.publication },
      writer := none, sets := st.sets.set w.index ⟨w.publication, some st.subs.live⟩ } := by
  obtain ⟨sets, hsets, hi⟩ := h.writer w hw
  have hset : st.sets.set w.index ⟨w.publication, some st.subs.live⟩ =
      sets ++ [⟨w.publication, some st.subs.live⟩] := by
    rw [hsets, hi]
    simp
  refine ⟨⟨h.tracked.ids, h.tracked.keys, h.tracked.entries⟩, h.ids, h.live, by simp, ?_, ?_, ?_⟩
  · intro n hn
    have hn' : n ∈ (st.dequeued ++ st.subs.handler.buffer) ++ (st.subs.handler.subscriptionsFor
        ⟨w.publication.path.getVSSPath, w.publication.attr⟩).map fun sub =>
          (⟨sub.1, sub.2, w.publication.vssdatatype, w.publication.data⟩ : Notification) := by
      rw [List.append_assoc]
      exact hn
    rcases List.mem_append.mp hn' with hn' | hn'
    · exact h.known n hn'
    · obtain ⟨m, hm, rfl⟩ := List.mem_map.mp hn'
      have hg : (Members.get? m.1 (st.subs.handler.subscriptionsFor
          ⟨w.publication.path.getVSSPath, w.publication.attr⟩)).isSome :=
        Members.get?_isSome_iff.mpr (List.mem_map_of_mem hm)
      obtain ⟨t, ht, hid, -⟩ := (h.tracked.entries _ _).mp hg
      exact List.mem_map.mpr ⟨t, h.live t ht, hid⟩
  · show ∀ c ∈ st.sets.set w.index _, _
    rw [hset]
    intro c hc live hp
    rcases List.mem_append.mp hc with hc | hc
    · refine h.recorded c ?_ live hp
      rw [hsets]
      exact List.mem_append_left _ hc
    · obtain rfl := List.mem_singleton.mp hc
      obtain rfl := Option.some.inj hp
      exact h.live
  · intro s hs
    have hq := h.queued s hs
    have huniq : ∀ t ∈ st.subs.live, t.id = s.id → t = s := fun t ht hid =>
      List.inj_on_of_nodup_map h.ids (h.live t ht) hs hid
    have hnew := filter_publish h.tracked w.publication huniq
    have hreach : reaches s ⟨w.publication, some st.subs.live⟩ =
        decide (s ∈ st.subs.live ∧
          s.key = ⟨w.publication.path.getVSSPath, w.publication.attr⟩) := by
      rw [Bool.eq_iff_iff]
      simp only [reaches, Option.any_some, Bool.and_eq_true, decide_eq_true_eq]
      exact ⟨fun hr => ⟨hr.2, hr.1.symm⟩, fun hr => ⟨hr.2.symm, hr.1⟩⟩
    have hpend : reaches s ⟨w.publication, none⟩ = false := by simp [reaches]
    unfold queuedFor dueTo at hq ⊢
    show (((st.dequeued ++ (st.subs.handler.publishForVSSPath w.publication).buffer).filter
      _).map _) = ((st.sets.set w.index _).filter _).map _
    rw [hset, SubscriptionHandler.publishForVSSPath, ← List.append_assoc, List.filter_append,
      List.map_append, hq, hnew, hsets, List.filter_append, List.filter_append,
      List.filter_singleton, List.filter_singleton, hpend, hreach]
    split_ifs with hc <;> simp [hc]

theorem Consistent.subscribe (h : st.Consistent) {subs : Subscribers} {db : VssDatabase}
    {subId : SubscriptionId} {channel : KuksaChannel} {path attr : String}
    (hfresh : subId ∉ st.entered.map Subscription.id)
    (hs : st.subs.next jp rx (.subscribe db subId channel path attr) = some subs) :
    Consistent { st with subs := subs, entered := ⟨subId, path, attr⟩ :: st.entered } := by
  have ht := h.tracked.next hs
  obtain ⟨hb, hl⟩ := next_subscribe_live hs
  have hnew (t : Subscription) (hm : t ∈ st.entered) : t.id ≠ subId := by
    rintro rfl
    exact hfresh (List.mem_map_of_mem hm)
  refine ⟨ht, List.nodup_cons.mpr ⟨hfresh, h.ids⟩, ?_, h.writer, ?_, ?_, ?_⟩
  · intro s hm
    rw [hl] at hm
    exact List.mem_cons.mpr ((List.mem_cons.mp hm).imp_right (h.live s))
  · intro n hn
    rw [hb] at hn
    exact List.mem_cons_of_mem _ (h.known n hn)
  · intro c hc live hp s hm
    exact List.mem_cons_of_mem _ (h.recorded c hc live hp s hm)
  · intro s hm
    have hq : queuedFor { st with subs := subs, entered := ⟨subId, path, attr⟩ :: st.entered } s =
        st.queuedFor s := by
      unfold queuedFor
      rw [hb]
    rw [hq]
    rcases List.mem_cons.mp hm with rfl | hm
    · -- Nothing is queued for the new number, and nothing was published for it.
      have hempty : st.queuedFor ⟨subId, path, attr⟩ = [] := by
        unfold queuedFor
        rw [List.map_eq_nil_iff, List.filter_eq_nil_iff]
        intro n hn hid
        have hid' : n.subscriptionId = subId := of_decide_eq_true hid
        exact hfresh (hid' ▸ h.known n hn)
      rw [hempty, eq_comm]
      unfold dueTo
      rw [List.map_eq_nil_iff, List.filter_eq_nil_iff]
      intro c hc hr
      simp only [reaches, Bool.and_eq_true, Option.any_eq_true, decide_eq_true_eq] at hr
      obtain ⟨-, live, hp, hlive⟩ := hr
      exact hnew _ (h.recorded c hc live hp _ hlive) rfl
    · exact h.queued s hm

theorem Consistent.take (h : st.Consistent) {n : Notification} {rest : List Notification}
    (hb : st.subs.handler.buffer = n :: rest) {subs : Subscribers}
    (hs : st.subs.next jp rx .deliver = some subs) :
    Consistent { st with subs := subs, inHand := some n, dequeued := st.dequeued ++ [n] } := by
  have ht := h.tracked.next hs
  obtain rfl := Option.some.inj hs
  have hbuf : (st.dequeued ++ [n]) ++ (st.subs.handler.buffer.drop 1) =
      st.dequeued ++ st.subs.handler.buffer := by
    rw [hb]
    simp
  refine ⟨ht, h.ids, h.live, h.writer, ?_, h.recorded, ?_⟩
  · show ∀ m ∈ (st.dequeued ++ [n]) ++ (st.subs.handler.buffer.drop 1), _
    rw [hbuf]
    exact h.known
  · intro s hm
    have hq := h.queued s hm
    unfold queuedFor at hq ⊢
    show (((st.dequeued ++ [n]) ++ (st.subs.handler.buffer.drop 1)).filter _).map _ = _
    rw [hbuf]
    exact hq

theorem Consistent.next (h : st.Consistent) {step : DeliveryStep}
    (hs : next jp rx nm st step = some st') : st'.Consistent := by
  cases next_effect hs with
  | tree db => exact ⟨h.tracked, h.ids, h.live, h.writer, h.known, h.recorded, h.queued⟩
  | store hset => exact h.store _ _ _
  | publish hw => exact h.publish hw
  | subscribe hfresh hsub => exact h.subscribe hfresh hsub
  | unsubscribe hsub =>
    obtain ⟨hb, hl⟩ := next_unsubscribe_live hsub
    exact h.of_subs (h.tracked.next hsub) hb (fun s hm => (hl s hm).1) st.inHand _
  | unsubscribeAll hsub =>
    obtain ⟨hb, hl⟩ := next_unsubscribeAll_live hsub
    exact h.of_subs (h.tracked.next hsub) hb hl st.inHand st.trace
  | take hh hb hsub => exact h.take hb hsub
  | streamed hh htype => exact h.of_subs h.tracked rfl (fun s hm => hm) none st.trace
  | sent hh htype => exact h.of_subs h.tracked rfl (fun s hm => hm) none _
  | gone hh hsub =>
    obtain ⟨hb, hl⟩ := next_unsubscribeAll_live hsub
    exact h.of_subs (h.tracked.next hsub) hb hl none st.trace

theorem consistent_start (db : VssDatabase) : Consistent { db := db } := by
  refine ⟨Subscribers.tracked_start, ?_, ?_, ?_, ?_, ?_, ?_⟩ <;> simp

theorem consistent_of_reachable {db : VssDatabase} {ok : Delivery → DeliveryStep → Prop}
    (h : (system jp rx nm db).Reachable ok st) : st.Consistent := by
  refine h.invariant ?_ ?_
  · rintro _ rfl
    exact consistent_start db
  · intro st step st' hi _ hs
    exact hi.next hs

/-- What was taken from the buffer for a subscription and what is still in it is the data of
the sets of its key that were published while it was live, in the order they were stored. -/
theorem queuedFor_eq_dueTo (jp : JsonPath) (rx : StdRegex) (nm : Numerics) (db : VssDatabase)
    (st : Delivery) (h : (system jp rx nm db).Reachable TransitionSystem.Any st)
    (s : Subscription) (hs : s ∈ st.entered) : st.queuedFor s = st.dueTo s :=
  (consistent_of_reachable h).queued s hs

section Speed
open VssCommandProcessor

def speedSubscription : Subscription := ⟨7, "Vehicle.OBD.Speed", "value"⟩

/-- A subscription to the speed, and a set of it. -/
def speedSteps : List DeliveryStep :=
  [.subscribe ⟨speedTree, speedTree⟩ 7 speedReader "Vehicle.OBD.Speed" "value",
    .store 1 midnight (.fromVSS "Vehicle.OBD.Speed") "value" (.int 5), .publish 1]

/-- The server after these steps and some more. -/
def speedDelivery (steps : List DeliveryStep) : Delivery :=
  TransitionSystem.after { db := ⟨speedTree, speedTree⟩ } (next .selectors .dotted .decimal)
    (speedSteps ++ steps)

theorem speedDelivery_reachable {ok : Delivery → DeliveryStep → Prop} (steps : List DeliveryStep)
    (hok : ∀ step ∈ speedSteps ++ steps, ∀ st, ok st step) :
    (system .selectors .dotted .decimal ⟨speedTree, speedTree⟩).Reachable ok
      (speedDelivery steps) :=
  TransitionSystem.after_reachable _ hok

theorem queuedFor_eq_dueTo_speed :
    (speedDelivery [.take]).queuedFor speedSubscription =
        (speedDelivery [.take]).dueTo speedSubscription ∧
      ((speedDelivery [.take]).dueTo speedSubscription).length = 1 :=
  ⟨queuedFor_eq_dueTo .selectors .dotted .decimal ⟨speedTree, speedTree⟩ _
    (speedDelivery_reachable [.take] fun _ _ _ => trivial) speedSubscription (by decide +kernel), by decide +kernel⟩

end Speed

end Delivery
