import KuksaVal.Notifications

/-! What is left of the subscriptions of a channel that gives up all of them: under each key one
is removed. -/
namespace SubscriptionHandler

theorem forall_mem_eraseP_iff {α : Type*} (p : α → Bool) (l : List α) :
    (∀ a ∈ l.eraseP p, p a = false) ↔ (l.filter p).length ≤ 1 := by
  induction l with
  | nil => simp
  | cons a l ih =>
    by_cases ha : p a = true
    · simp [ha, List.filter_eq_nil_iff]
    · simp [ha, ih]

/-- The subscriptions of a channel under a key. -/
def entriesOf (h : SubscriptionHandler) (channel : KuksaChannel) (key : SubscriptionKey) :
    List (SubscriptionId × KuksaChannel) :=
  (h.subscriptionsFor key).filter fun sub => sub.2.sameAs channel

/-- No subscription of the channel is left, and those of the others still are there. -/
def GivesUpAll (h : SubscriptionHandler) (channel : KuksaChannel) : Prop :=
  ∀ key, (∀ sub ∈ (h.unsubscribeAll channel).subscriptionsFor key, sub.2.sameAs channel = false) ∧
    ∀ sub ∈ h.subscriptionsFor key, sub.2.sameAs channel = false →
      sub ∈ (h.unsubscribeAll channel).subscriptionsFor key

/-- The channel has one subscription under each key at most. -/
def OncePerKey (h : SubscriptionHandler) (channel : KuksaChannel) : Prop :=
  ∀ key, (h.entriesOf channel key).length ≤ 1

theorem mem_unsubscribeAll_of_other {h : SubscriptionHandler} {channel : KuksaChannel}
    {key : SubscriptionKey} {sub : SubscriptionId × KuksaChannel}
    (hm : sub ∈ h.subscriptionsFor key) (hs : sub.2.sameAs channel = false) :
    sub ∈ (h.unsubscribeAll channel).subscriptionsFor key := by
  rw [subscriptionsFor_unsubscribeAll, eraseFound, List.mem_eraseP_of_neg]
  · exact hm
  · simp [hs]

/-- Nothing of the channel is left under a key where it had one subscription at most. -/
theorem none_left_iff {h : SubscriptionHandler} {channel : KuksaChannel} {key : SubscriptionKey} :
    (∀ sub ∈ (h.unsubscribeAll channel).subscriptionsFor key, sub.2.sameAs channel = false) ↔
      (h.entriesOf channel key).length ≤ 1 := by
  rw [subscriptionsFor_unsubscribeAll]
  exact forall_mem_eraseP_iff (fun sub : SubscriptionId × KuksaChannel => sub.2.sameAs channel) _

/-- All subscriptions of a channel are given up, and no others, exactly where it has one under
each key at most. -/
theorem givesUpAll_iff (h : SubscriptionHandler) (channel : KuksaChannel) :
    h.GivesUpAll channel ↔ h.OncePerKey channel := by
  constructor
  · intro hall key
    exact none_left_iff.mp (hall key).1
  · intro honce key
    exact ⟨none_left_iff.mpr (honce key), fun sub hm hs => mem_unsubscribeAll_of_other hm hs⟩

end SubscriptionHandler

namespace Subscribers
open SubscriptionHandler

/-- No channel subscribes under a key where it has a subscription already. -/
def NotAgain (st : Subscribers) : SubscriptionEvent → Prop
  | .subscribe _ _ channel path attr =>
      st.handler.entriesOf channel ⟨(VSSPath.fromVSS path).getVSSPath, attr⟩ = []
  | _ => True

/-- Every channel has one subscription under each key at most. -/
def OnceEach (st : Subscribers) : Prop := ∀ channel, st.handler.OncePerKey channel

variable {jp : JsonPath} {rx : StdRegex} {st st' : Subscribers}

theorem oncePerKey_enter {h : SubscriptionHandler} {key : SubscriptionKey}
    {channel other : KuksaChannel} (honce : h.OncePerKey other)
    (hnone : h.entriesOf channel key = []) (id : SubscriptionId) :
    (h.enter key id channel).OncePerKey other := by
  intro k
  have hk := honce k
  unfold entriesOf at hk ⊢
  rw [← List.countP_eq_length_filter] at hk ⊢
  rw [subscriptionsFor_enter]
  split_ifs with he
  · subst he
    apply (Members.countP_assign_le _ id channel _).trans
    by_cases hs : channel.sameAs other = true
    · -- a key where the channel had nothing
      have hid : channel.connectionID = other.connectionID := of_decide_eq_true hs
      have hzero : (h.subscriptionsFor k).countP (fun sub => sub.2.sameAs other) = 0 := by
        rw [List.countP_eq_length_filter, List.length_eq_zero_iff, ← hnone]
        simp only [entriesOf, KuksaChannel.sameAs, hid]
      simp [hzero, hs]
    · simpa [hs] using hk
  · exact hk

/-- The subscriptions of a key that are left of those before. -/
theorem oncePerKey_of_sublist {h h' : SubscriptionHandler} {channel : KuksaChannel}
    (honce : h.OncePerKey channel)
    (hs : ∀ key, (h'.subscriptionsFor key).Sublist (h.subscriptionsFor key)) :
    h'.OncePerKey channel := by
  intro key
  exact ((hs key).filter _).length_le.trans (honce key)

theorem OnceEach.next {event : SubscriptionEvent} (ho : st.OnceEach) (hok : NotAgain st event)
    (hs : next jp rx st event = some st') : st'.OnceEach := by
  intro channel
  cases event with
  | subscribe db subId newcomer path attr =>
    unfold Subscribers.next SubscriptionHandler.subscribe at hs
    cases hc : checkSubscribe jp rx db newcomer path with
    | error e => simp [hc] at hs
    | ok p =>
      obtain ⟨rfl, -⟩ := checkSubscribe_eq_ok_iff.mp hc
      simp only [hc, Option.ite_none_left_eq_some, Option.some.injEq] at hs
      obtain ⟨-, rfl⟩ := hs
      exact oncePerKey_enter (ho channel) hok subId
  | unsubscribe subscribeID =>
    obtain rfl := Option.some.inj hs
    apply oncePerKey_of_sublist (ho channel)
    intro key
    rw [subscriptionsFor_unsubscribe]
    exact List.filter_sublist
  | unsubscribeAll leaving =>
    obtain rfl := Option.some.inj hs
    apply oncePerKey_of_sublist (ho channel)
    intro key
    rw [subscriptionsFor_unsubscribeAll]
    exact List.eraseP_sublist
  | publish p =>
    obtain rfl := Option.some.inj hs
    exact ho channel
  | deliver =>
    obtain rfl := Option.some.inj hs
    exact ho channel

theorem onceEach_of_reachable (h : (system jp rx).Reachable NotAgain st) : st.OnceEach := by
  refine h.invariant ?_ ?_
  · rintro _ rfl channel key
    simp [entriesOf, subscriptionsFor]
  · intro st event st' ho hok hs
    exact ho.next hok hs

/-- All subscriptions of a channel are given up, and no others, exactly where it has one under
each key at most, and this is so as long as no channel subscribes again under a key. -/
theorem unsubscribeAll_complete_iff (jp : JsonPath) (rx : StdRegex) :
    (∀ ok st, (system jp rx).Reachable ok st → ∀ channel,
        st.handler.GivesUpAll channel ↔ st.handler.OncePerKey channel) ∧
      ∀ st, (system jp rx).Reachable NotAgain st → ∀ channel, st.handler.GivesUpAll channel := by
  constructor
  · intro ok st _ channel
    exact givesUpAll_iff st.handler channel
  · intro st hst channel
    exact (givesUpAll_iff st.handler channel).mpr (onceEach_of_reachable hst channel)

section Twice
open VssCommandProcessor

/-- The speed subscribed to once, and once more by the same channel. -/
def speedSubscribe (subId : SubscriptionId) : SubscriptionEvent :=
  .subscribe ⟨speedTree, speedTree⟩ subId speedReader "Vehicle.OBD.Speed" "value"

def speedSubscribers (ids : List SubscriptionId) : Subscribers :=
  TransitionSystem.after {} (next .selectors .dotted) (ids.map speedSubscribe)

theorem speedSubscribers_reachable (ids : List SubscriptionId) :
    (system .selectors .dotted).Reachable TransitionSystem.Any (speedSubscribers ids) :=
  TransitionSystem.after_reachable _ fun _ _ _ => trivial

theorem unsubscribeAll_once :
    (speedSubscribers [7]).handler.GivesUpAll speedReader := by
  apply (unsubscribeAll_complete_iff .selectors .dotted).2
  apply TransitionSystem.Reachable.step (a := speedSubscribe 7) (.init rfl)
  · simp [NotAgain, speedSubscribe, entriesOf, subscriptionsFor]
  · show next .selectors .dotted {} (speedSubscribe 7) = some (speedSubscribers [7])
    decide +kernel

/-- One of two subscriptions to the speed stays. -/
theorem one_left_of_two :
    (system .selectors .dotted).Reachable TransitionSystem.Any (speedSubscribers [7, 8]) ∧
      ¬ (speedSubscribers [7, 8]).handler.GivesUpAll speedReader := by
  refine ⟨speedSubscribers_reachable [7, 8], ?_⟩
  intro hall
  have hleft := (hall ⟨"Vehicle/OBD/Speed", "value"⟩).1 (8, speedReader)
    (by decide +kernel)
  exact absurd hleft (by decide)

end Twice

end Subscribers
