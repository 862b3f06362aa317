import KuksaVal.Delivery

/-! What a client is sent after it was told that its subscription has ended. -/
namespace Delivery
open SubscriptionHandler

/-- No notification of a subscription comes after its end. -/
def Permits : ClientEvent → ClientEvent → Prop
  | .ended id, .sent _ n => n.subscriptionId ≠ id
  | _, _ => True

instance : DecidableRel Permits
  | .ended id, .sent _ n => inferInstanceAs (Decidable (n.subscriptionId ≠ id))
  | .ended _, .ended _ => .isTrue trivial
  | .sent _ _, .ended _ => .isTrue trivial
  | .sent _ _, .sent _ _ => .isTrue trivial

/-- The notifications that are not sent yet. -/
def waiting (st : Delivery) : List Notification := st.inHand.toList ++ st.subs.handler.buffer

/-- A notification of a subscription waits to be sent to a connection. -/
def Awaited (st : Delivery) (id : SubscriptionId) : Prop :=
  ∃ n ∈ st.waiting, n.subscriptionId = id ∧ n.channel.typeOfConnection ≠ .grpc

/-- A live subscription is only given up by its number while none of its notifications wait. -/
def EndsDrained (st : Delivery) (step : DeliveryStep) : Prop :=
  ∀ id, step = .unsubscribe id → id ∈ st.subs.live.map Subscription.id → ¬ st.Awaited id

/-- A subscription that was entered, is not live and has nothing to be sent any more. -/
structure Finished (st : Delivery) (id : SubscriptionId) : Prop where
  entered : id ∈ st.entered.map Subscription.id
  live : id ∉ st.subs.live.map Subscription.id
  sent : ¬ st.Awaited id

variable {jp : JsonPath} {rx : StdRegex} {nm : Numerics} {st st' : Delivery}

/-- Where no new subscription or publication comes in, what is finished stays finished. -/
theorem Finished.of_fewer {id : SubscriptionId} (h : st.Finished id) (he : st'.entered = st.entered)
    (hl : ∀ s ∈ st'.subs.live, s ∈ st.subs.live) (hw : ∀ n ∈ st'.waiting, n ∈ st.waiting) :
    st'.Finished id := by
  refine ⟨he ▸ h.entered, ?_, ?_⟩
  · intro hm
    obtain ⟨s, hs, hid⟩ := List.mem_map.mp hm
    exact h.live (List.mem_map.mpr ⟨s, hl s hs, hid⟩)
  · rintro ⟨n, hn, hid⟩
    exact h.sent ⟨n, hw n hn, hid⟩

/-- A publication only enters live subscriptions. -/
theorem Finished.publish {id : SubscriptionId} (h : st.Finished id) (hc : st.Consistent)
    (w : PendingSet) : Finished { st with
      subs := { st.subs with handler := st.subs.handler.publishForVSSPath w.publication },
      writer := none, sets := st.sets.set w.index ⟨w.publication, some st.subs.live⟩ } id := by
  refine ⟨h.entered, h.live, ?_⟩
  rintro ⟨n, hn, hid, htype⟩
  have hn' : n ∈ st.waiting ++ (st.subs.handler.subscriptionsFor
      ⟨w.publication.path.getVSSPath, w.publication.attr⟩).map fun sub =>
        (⟨sub.1, sub.2, w.publication.vssdatatype, w.publication.data⟩ : Notification) := by
    unfold waiting
    rw [List.append_assoc]
    exact hn
  rcases List.mem_append.mp hn' with hn' | hn'
  · exact h.sent ⟨n, hn', hid, htype⟩
  · obtain ⟨m, hm, rfl⟩ := List.mem_map.mp hn'
    obtain ⟨t, ht, htid, -⟩ := (hc.tracked.entries _ m.1).mp
      (Members.get?_isSome_iff.mpr (List.mem_map_of_mem hm))
    exact h.live (List.mem_map.mpr ⟨t, ht, htid.trans hid⟩)

theorem Finished.next {id : SubscriptionId} (h : st.Finished id) (hc : st.Consistent)
    {step : DeliveryStep} (hs : next jp rx nm st step = some st') : st'.Finished id := by
  cases next_effect hs with
  | tree db => exact h.of_fewer rfl (fun s hm => hm) fun n hn => hn
  | store hset => exact h.of_fewer rfl (fun s hm => hm) fun n hn => hn
  | @publish w hw => exact h.publish hc w
  | subscribe hfresh hsub =>
    obtain ⟨hb, hl⟩ := next_subscribe_live hsub
    refine ⟨List.mem_cons_of_mem _ h.entered, ?_, ?_⟩
    · rw [hl, List.map_cons, List.mem_cons, not_or]
      refine ⟨?_, h.live⟩
      rintro rfl
      exact hfresh h.entered
    · unfold Awaited waiting
      rw [hb]
      exact h.sent
  | unsubscribe hsub =>
    obtain ⟨hb, hl⟩ := next_unsubscribe_live hsub
    refine h.of_fewer rfl (fun s hm => (hl s hm).1) ?_
    unfold waiting
    rw [hb]
    exact fun n hn => hn
  | unsubscribeAll hsub =>
    obtain ⟨hb, hl⟩ := next_unsubscribeAll_live hsub
    refine h.of_fewer rfl hl ?_
    unfold waiting
    rw [hb]
    exact fun n hn => hn
  | take hh hb hsub =>
    obtain rfl := Option.some.inj hsub
    refine h.of_fewer rfl (fun s hm => hm) ?_
    intro m hm
    simpa [waiting, hh, hb] using hm
  | streamed hh htype =>
    exact h.of_fewer rfl (fun s hm => hm) fun m hm => List.mem_append_right _ hm
  | sent hh htype =>
    exact h.of_fewer rfl (fun s hm => hm) fun m hm => List.mem_append_right _ hm
  | gone hh hsub =>
    obtain ⟨hb, hl⟩ := next_unsubscribeAll_live hsub
    refine h.of_fewer rfl hl fun m hm => List.mem_append_right _ ?_
    simpa [waiting, hb] using hm

section Table

theorem ordered_subscribers {subs subs' : Subscribers} {event : SubscriptionEvent}
    (h : Members.Increasing subs.handler.subscriptions)
    (hs : subs.next jp rx event = some subs') : Members.Increasing subs'.handler.subscriptions := by
  have hmap (f : SubscriptionKey × List (SubscriptionId × KuksaChannel) →
      List (SubscriptionId × KuksaChannel)) :
      Members.Increasing (subs.handler.subscriptions.map fun sub => (sub.1, f sub)) := by
    unfold Members.Increasing
    rw [List.map_map]
    exact h
  cases event with
  | subscribe db subId channel path attr =>
    unfold Subscribers.next SubscriptionHandler.subscribe at hs
    cases hc : checkSubscribe jp rx db channel path with
    | error e => simp [hc] at hs
    | ok p =>
      simp only [hc, Option.ite_none_left_eq_some, Option.some.injEq] at hs
      obtain ⟨-, rfl⟩ := hs
      exact h.assign _ _
  | unsubscribe subscribeID =>
    obtain rfl := Option.some.inj hs
    exact hmap fun sub => Members.erase subscribeID sub.2
  | unsubscribeAll channel =>
    obtain rfl := Option.some.inj hs
    exact hmap fun sub => eraseFound channel sub.2
  | publish p =>
    obtain rfl := Option.some.inj hs
    exact h
  | deliver =>
    obtain rfl := Option.some.inj hs
    exact h

theorem ordered_next (h : Members.Increasing st.subs.handler.subscriptions) {step : DeliveryStep}
    (hs : next jp rx nm st step = some st') :
    Members.Increasing st'.subs.handler.subscriptions := by
  rcases (next_effect hs).subs with heq | ⟨event, hsub⟩
  · rw [heq]
    exact h
  · exact ordered_subscribers h hsub

/-- A client is told zero only for a subscription that is live. -/
theorem live_of_unsubscribe {subs : Subscribers} (ht : subs.Tracked)
    (ho : Members.Increasing subs.handler.subscriptions) {id : SubscriptionId}
    (h : (subs.handler.unsubscribe id).1 = 0) : id ∈ subs.live.map Subscription.id := by
  have hfound : (subs.handler.subscriptions.any fun sub =>
      (Members.get? id sub.2).isSome) = true := by
    by_contra hno
    simp [SubscriptionHandler.unsubscribe, hno] at h
  obtain ⟨sub, hm, hs⟩ := List.any_eq_true.mp hfound
  have hsub : subs.handler.subscriptionsFor sub.1 = sub.2 := by
    unfold subscriptionsFor
    rw [Members.get?_of_mem ho.nodup hm]
    rfl
  obtain ⟨t, hl, hid, -⟩ := (ht.entries sub.1 id).mp (hsub ▸ hs)
  exact List.mem_map.mpr ⟨t, hl, hid⟩

end Table

/-- What a step tells a client: the end of a subscription, or what the thread has in hand. -/
theorem next_trace {step : DeliveryStep} (hs : next jp rx nm st step = some st') :
    st'.trace = st.trace ∨
      (∃ id, step = .unsubscribe id ∧ (st.subs.handler.unsubscribe id).1 = 0 ∧
        st'.trace = st.trace ++ [.ended id]) ∨
      ∃ n, st.inHand = some n ∧ n.channel.typeOfConnection ≠ .grpc ∧
        st'.trace = st.trace ++ [.sent n.channel.connectionID n] := by
  cases next_effect hs with
  | @unsubscribe id subs hsub =>
    by_cases h0 : (st.subs.handler.unsubscribe id).1 = 0
    · exact .inr (.inl ⟨id, rfl, h0, by simp [h0]⟩)
    · exact .inl (by simp [h0])
  | @sent n hh htype => exact .inr (.inr ⟨n, hh, htype, rfl⟩)
  | _ => exact .inl rfl

/-- Every subscription that a client was told has ended is finished. -/
structure Settled (st : Delivery) : Prop where
  consistent : st.Consistent
  ordered : Members.Increasing st.subs.handler.subscriptions
  ended : ∀ id, .ended id ∈ st.trace → st.Finished id
  final : st.trace.Pairwise Permits

theorem finished_unsubscribe (h : st.Settled) {id : SubscriptionId}
    (hz : (st.subs.handler.unsubscribe id).1 = 0) (hok : EndsDrained st (.unsubscribe id))
    (hs : next jp rx nm st (.unsubscribe id) = some st') : st'.Finished id := by
  have hlive := live_of_unsubscribe h.consistent.tracked h.ordered hz
  have hsent := hok id rfl hlive
  simp only [Delivery.next] at hs
  obtain ⟨subs, hsub, rfl⟩ := Option.map_eq_some_iff.mp hs
  obtain ⟨hb, hl⟩ := next_unsubscribe_live hsub
  refine ⟨?_, ?_, ?_⟩
  · obtain ⟨s, hm, rfl⟩ := List.mem_map.mp hlive
    exact List.mem_map_of_mem (h.consistent.live s hm)
  · intro hm
    obtain ⟨s, hm, hid⟩ := List.mem_map.mp hm
    exact (hl s hm).2 hid
  · unfold Awaited waiting
    rw [hb]
    exact hsent

theorem Settled.next (h : st.Settled) {step : DeliveryStep} (hok : EndsDrained st step)
    (hs : next jp rx nm st step = some st') : st'.Settled := by
  have hc := h.consistent.next hs
  have ho := ordered_next h.ordered hs
  have hkeep (id : SubscriptionId) (hm : .ended id ∈ st.trace) : st'.Finished id :=
    (h.ended id hm).next h.consistent hs
  rcases next_trace hs with ht | ⟨id, rfl, hz, ht⟩ | ⟨n, hh, htype, ht⟩
  · exact ⟨hc, ho, fun id hm => hkeep id (ht ▸ hm), ht ▸ h.final⟩
  · refine ⟨hc, ho, ?_, ?_⟩
    · intro id' hm
      rw [ht, List.mem_append, List.mem_singleton] at hm
      rcases hm with hm | hm
      · exact hkeep id' hm
      · obtain rfl := ClientEvent.ended.inj hm
        exact finished_unsubscribe h hz hok hs
    · rw [ht, List.pairwise_append]
      refine ⟨h.final, List.pairwise_singleton _ _, ?_⟩
      intro e _ e' he'
      obtain rfl := List.mem_singleton.mp he'
      cases e <;> trivial
  · refine ⟨hc, ho, ?_, ?_⟩
    · intro id hm
      rw [ht, List.mem_append, List.mem_singleton] at hm
      exact hkeep id (hm.resolve_right (by simp))
    · rw [ht, List.pairwise_append]
      refine ⟨h.final, List.pairwise_singleton _ _, ?_⟩
      intro e he e' he'
      obtain rfl := List.mem_singleton.mp he'
      cases e with
      | sent _ _ => trivial
      | ended id =>
        -- What the thread has in hand is not for a finished subscription.
        show n.subscriptionId ≠ id
        intro hid
        exact (h.ended id he).sent ⟨n, by simp [waiting, hh], hid, htype⟩

/-- Where live subscriptions are given up only while none of their notifications wait, no
notification of a subscription is sent after its client was told that it has ended. -/
theorem final_of_reachable (jp : JsonPath) (rx : StdRegex) (nm : Numerics) (db : VssDatabase)
    (st : Delivery) (h : (system jp rx nm db).Reachable EndsDrained st) :
    st.trace.Pairwise Permits := by
  have hsettled : st.Settled := by
    refine h.invariant ?_ ?_
    · rintro _ rfl
      refine ⟨consistent_start db, ?_, ?_, ?_⟩ <;>
        simp [Members.Increasing]
    · intro st step st' hi hok hs
      exact hi.next hok hs
  exact hsettled.final

section Speed
open VssCommandProcessor

/-- The notification of the speed is sent before its subscription is given up. -/
theorem final_of_reachable_drained : ∃ st,
    next .selectors .dotted .decimal (speedDelivery [.take, .send true]) (.unsubscribe 7) = some st ∧
      st.trace.Pairwise Permits := by
  have hok : ∀ step ∈ speedSteps ++ [.take, .send true], ∀ st, EndsDrained st step := by
    simp [speedSteps, EndsDrained]
  have hs : (next .selectors .dotted .decimal (speedDelivery [.take, .send true])
      (.unsubscribe 7)).isSome = true := by decide +kernel
  obtain ⟨st, hst⟩ := Option.isSome_iff_exists.mp hs
  refine ⟨st, hst, final_of_reachable .selectors .dotted .decimal ⟨speedTree, speedTree⟩ st
    (.step (speedDelivery_reachable _ hok) ?_ hst)⟩
  intro id _ _
  have hempty : (speedDelivery [.take, .send true]).waiting = [] := by decide +kernel
  simp [Awaited, hempty]

/-- A notification of the speed waits when its subscription is given up, and is sent. -/
theorem sent_after_end : ¬ ∀ (jp : JsonPath) (rx : StdRegex) (nm : Numerics) (db : VssDatabase)
    (st : Delivery), (system jp rx nm db).Reachable TransitionSystem.Any st →
      st.trace.Pairwise Permits := by
  intro h
  have hp := h _ _ _ _ _ (speedDelivery_reachable [.unsubscribe 7, .take, .send true]
    fun _ _ _ => trivial)
  exact absurd hp (by decide +kernel)

end Speed

end Delivery
