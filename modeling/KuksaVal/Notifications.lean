import KuksaVal.Runs
import KuksaVal.Authorization

/-! Who is notified of a set: the table of subscriptions over whole runs, and which of the
live subscriptions to a node a publication finds in it. -/
open Json VssDatabase

/-- A subscription as its client made it. -/
structure Subscription where
  id : SubscriptionId
  path : String
  attr : String
  deriving DecidableEq, Repr

namespace Subscription

/-- The key of the table that the subscription is entered under. -/
def key (s : Subscription) : SubscriptionKey := ⟨(VSSPath.fromVSS s.path).getVSSPath, s.attr⟩

end Subscription

/-- What happens to the table of subscriptions and the buffer. -/
inductive SubscriptionEvent where
  | subscribe (db : VssDatabase) (subId : SubscriptionId) (channel : KuksaChannel)
      (path attr : String)
  | unsubscribe (subscribeID : SubscriptionId)
  | unsubscribeAll (channel : KuksaChannel)
  | publish (p : Publication)
  | deliver

/-- The handler, and the subscriptions that were accepted and not given up since. -/
structure Subscribers where
  handler : SubscriptionHandler := {}
  live : List Subscription := []
  deriving DecidableEq

namespace Subscribers
open SubscriptionHandler

/-- The subscription that giving up all those of a channel takes away under a key. -/
def givenUp (h : SubscriptionHandler) (channel : KuksaChannel) (s : Subscription) : Bool :=
  ((h.subscriptionsFor s.key).find? fun pair => pair.2.sameAs channel).any fun pair =>
    decide (pair.1 = s.id)

variable (jp : JsonPath) (rx : StdRegex)

/-- Numbers of subscriptions are drawn at random and do not repeat while they are in use. -/
def next (st : Subscribers) : SubscriptionEvent → Option Subscribers
  | .subscribe db subId channel path attr =>
      match st.handler.subscribe jp rx db subId channel path attr with
      | (.error _, _) => none
      | (.ok id, handler) =>
          if id ∈ st.live.map Subscription.id then none
          else some ⟨handler, ⟨id, path, attr⟩ :: st.live⟩
  | .unsubscribe subscribeID =>
      some ⟨(st.handler.unsubscribe subscribeID).2,
        st.live.filter fun s => decide (s.id ≠ subscribeID)⟩
  | .unsubscribeAll channel =>
      some ⟨st.handler.unsubscribeAll channel,
        st.live.filter fun s => !givenUp st.handler channel s⟩
  | .publish p => some { st with handler := st.handler.publishForVSSPath p }
  | .deliver => some { st with handler :=
      { st.handler with buffer := st.handler.buffer.drop 1 } }

/-- All runs from the empty table. -/
def system : TransitionSystem Subscribers SubscriptionEvent := .ofNext {} (next jp rx)

/-- The table holds exactly the live subscriptions, each under its own key. -/
structure Tracked (st : Subscribers) : Prop where
  ids : (st.live.map Subscription.id).Nodup
  keys : ∀ key, Members.Increasing (st.handler.subscriptionsFor key)
  entries : ∀ key id, (Members.get? id (st.handler.subscriptionsFor key)).isSome ↔
    ∃ s ∈ st.live, s.id = id ∧ s.key = key

variable {jp : JsonPath} {rx : StdRegex}

theorem Tracked.enter {st : Subscribers} (h : st.Tracked) (channel : KuksaChannel)
    {s : Subscription} (hs : s.id ∉ st.live.map Subscription.id) :
    Tracked ⟨st.handler.enter s.key s.id channel, s :: st.live⟩ := by
  constructor
  · simpa using ⟨by simpa using hs, h.ids⟩
  · intro key
    show Members.Increasing
      ((SubscriptionHandler.enter st.handler s.key s.id channel).subscriptionsFor key)
    rw [subscriptionsFor_enter]
    split_ifs
    · exact (h.keys s.key).assign s.id channel
    · exact h.keys key
  · intro key id
    show (Members.get? id ((SubscriptionHandler.enter st.handler s.key s.id channel).subscriptionsFor
      key)).isSome ↔ ∃ t ∈ s :: st.live, t.id = id ∧ t.key = key
    rw [subscriptionsFor_enter]
    simp only [List.mem_cons, exists_eq_or_imp, ← h.entries key id]
    by_cases hk : key = s.key
    · subst hk
      by_cases hid : id = s.id
      · simp [hid]
      · simp [hid, Ne.symm hid]
    · simp [hk, Ne.symm hk]

theorem Tracked.unsubscribe {st : Subscribers} (h : st.Tracked) (subscribeID : SubscriptionId) :
    Tracked ⟨(st.handler.unsubscribe subscribeID).2,
      st.live.filter fun s => decide (s.id ≠ subscribeID)⟩ := by
  constructor
  · exact h.ids.sublist (List.filter_sublist.map _)
  · intro key
    show Members.Increasing ((st.handler.unsubscribe subscribeID).2.subscriptionsFor key)
    rw [subscriptionsFor_unsubscribe]
    exact (h.keys key).filter _
  · intro key id
    show (Members.get? id ((st.handler.unsubscribe subscribeID).2.subscriptionsFor key)).isSome ↔ _
    rw [subscriptionsFor_unsubscribe, Members.get?_erase]
    have he := h.entries key id
    by_cases hid : id = subscribeID
    · subst hid
      simp only [↓reduceIte, Option.isSome_none, Bool.false_eq_true, List.mem_filter,
        decide_eq_true_eq, false_iff]
      rintro ⟨s, ⟨-, hne⟩, heq, -⟩
      exact hne heq
    · simp only [hid, ↓reduceIte, he, List.mem_filter, decide_eq_true_eq]
      constructor
      · rintro ⟨s, hs, rfl, hk⟩
        exact ⟨s, ⟨hs, hid⟩, rfl, hk⟩
      · rintro ⟨s, ⟨hs, -⟩, hids, hk⟩
        exact ⟨s, hs, hids, hk⟩

theorem Tracked.unsubscribeAll {st : Subscribers} (h : st.Tracked) (channel : KuksaChannel) :
    Tracked ⟨st.handler.unsubscribeAll channel,
      st.live.filter fun s => !givenUp st.handler channel s⟩ := by
  constructor
  · exact h.ids.sublist (List.filter_sublist.map _)
  · intro key
    show Members.Increasing ((st.handler.unsubscribeAll channel).subscriptionsFor key)
    rw [subscriptionsFor_unsubscribeAll]
    exact List.Pairwise.sublist (List.eraseP_sublist.map Prod.fst) (h.keys key)
  · intro key id
    show (Members.get? id ((st.handler.unsubscribeAll channel).subscriptionsFor key)).isSome ↔ _
    rw [subscriptionsFor_unsubscribeAll, eraseFound, Members.get?_eraseP (h.keys key).nodup]
    have he := h.entries key id
    constructor
    · intro hg
      split_ifs at hg with hf
      · simp at hg
      · obtain ⟨s, hs, rfl, rfl⟩ := he.mp hg
        exact ⟨s, by simpa [givenUp, hs] using hf, rfl, rfl⟩
    · rintro ⟨s, hs, rfl, rfl⟩
      obtain ⟨hs, hg⟩ := List.mem_filter.mp hs
      have hf : ¬ ((st.handler.subscriptionsFor s.key).find? fun pair =>
          pair.2.sameAs channel).any (fun m => decide (m.1 = s.id)) = true := by
        simpa [givenUp] using hg
      rw [if_neg hf]
      exact he.mpr ⟨s, hs, rfl, rfl⟩

theorem Tracked.next {st st' : Subscribers} (ht : st.Tracked) {event : SubscriptionEvent}
    (hs : next jp rx st event = some st') : st'.Tracked := by
  cases event with
  | subscribe db subId channel path attr =>
    unfold Subscribers.next SubscriptionHandler.subscribe at hs
    cases hc : checkSubscribe jp rx db channel path with
    | error e => simp [hc] at hs
    | ok p =>
      obtain ⟨rfl, -⟩ := checkSubscribe_eq_ok_iff.mp hc
      simp only [hc, Option.ite_none_left_eq_some, Option.some.injEq] at hs
      obtain ⟨hfresh, rfl⟩ := hs
      exact ht.enter channel (s := ⟨subId, path, attr⟩) hfresh
  | unsubscribe subscribeID =>
    obtain rfl := Option.some.inj hs
    exact ht.unsubscribe subscribeID
  | unsubscribeAll channel =>
    obtain rfl := Option.some.inj hs
    exact ht.unsubscribeAll channel
  | publish p =>
    obtain rfl := Option.some.inj hs
    exact ⟨ht.ids, ht.keys, ht.entries⟩
  | deliver =>
    obtain rfl := Option.some.inj hs
    exact ⟨ht.ids, ht.keys, ht.entries⟩

theorem tracked_start : Tracked {} := by
  constructor <;> simp [SubscriptionHandler.subscriptionsFor, Members.Increasing]

/-- The table keeps track of the live subscriptions in every reached state. -/
theorem tracked_of_reachable {ok : Subscribers → SubscriptionEvent → Prop} {st : Subscribers}
    (h : (system jp rx).Reachable ok st) : st.Tracked := by
  refine h.invariant ?_ ?_
  · rintro _ rfl
    exact tracked_start
  · intro st event st' ht _ hs
    exact ht.next hs

section Publish

/-- How often a publication is entered in the buffer for a subscription. -/
def notified (h : SubscriptionHandler) (pubs : List Publication) (id : SubscriptionId) : ℕ :=
  ((VssCommandProcessor.publishAll h pubs).buffer.drop h.buffer.length).countP fun n =>
    decide (n.subscriptionId = id)

theorem notified_nil (h : SubscriptionHandler) (id : SubscriptionId) : notified h [] id = 0 := by
  simp [notified, VssCommandProcessor.publishAll]

/-- A publication reaches the subscriptions with its own key. -/
theorem notified_singleton {st : Subscribers} (h : st.Tracked) (p : Publication)
    {s : Subscription} (hs : s ∈ st.live) :
    notified st.handler [p] s.id = if s.key = ⟨p.path.getVSSPath, p.attr⟩ then 1 else 0 := by
  have hc : notified st.handler [p] s.id =
      (st.handler.subscriptionsFor ⟨p.path.getVSSPath, p.attr⟩).countP fun m =>
        decide (m.1 = s.id) := by
    simp [notified, VssCommandProcessor.publishAll, publishForVSSPath, List.countP_map,
      Function.comp_def]
  have hmem (key : SubscriptionKey) :
      (Members.get? s.id (st.handler.subscriptionsFor key)).isSome ↔ s.key = key := by
    rw [h.entries]
    constructor
    · rintro ⟨t, ht, hid, hk⟩
      obtain rfl : t = s := List.inj_on_of_nodup_map h.ids ht hs hid
      exact hk
    · intro hk
      exact ⟨s, hs, rfl, hk⟩
  rw [hc, Members.countP_key (h.keys _).nodup]
  simp only [hmem]

variable (jp)

/-- Two paths that resolve to one node. -/
def SameNode (tree : Json) (p q : VSSPath) : Prop :=
  ∃ l node, Resolves jp tree p l node ∧ Resolves jp tree q l node

/-- Two paths that resolve to different nodes. -/
def OtherNode (tree : Json) (p q : VSSPath) : Prop :=
  ∃ l l' node node', Resolves jp tree p l node ∧ Resolves jp tree q l' node' ∧ l ≠ l'

variable {jp}

theorem OtherNode.vsspath_ne {tree : Json} {p q : VSSPath}
    (hp : p.jsonpath = VSSPath.gen2tojson p.vsspath)
    (hq : q.jsonpath = VSSPath.gen2tojson q.vsspath) (h : OtherNode jp tree p q) :
    p.vsspath ≠ q.vsspath := by
  rintro he
  obtain ⟨l, l', node, node', hl, hl', hne⟩ := h
  have hj : p.jsonpath = q.jsonpath := by rw [hp, hq, he]
  have hu := hl.unique
  rw [hj, hl'.unique] at hu
  exact hne (by simpa using hu.symm)

/-- A set notifies each live subscription to its node and attribute once, and none to another
node, exactly when all those subscriptions spell the path with slashes as the set does. -/
theorem notified_iff (jp : JsonPath) (rx : StdRegex) (nm : Numerics) (ck : Clock)
    {ok : Subscribers → SubscriptionEvent → Prop} (st : Subscribers)
    (hst : (system jp rx).Reachable ok st) (db db' : VssDatabase) (p : VSSPath)
    (hp : p.jsonpath = VSSPath.gen2tojson p.vsspath) (attr : String) (value data : Json)
    (pubs : List Publication)
    (hset : db.setSignal jp nm ck p attr value = (.ok data, db', pubs)) :
    ((∀ s ∈ st.live, s.attr = attr → SameNode jp db.dataTree p (.fromVSS s.path) →
          notified st.handler pubs s.id = 1) ∧
        ∀ s ∈ st.live, OtherNode jp db.dataTree p (.fromVSS s.path) →
          notified st.handler pubs s.id = 0) ↔
      ∀ s ∈ st.live, s.attr = attr → SameNode jp db.dataTree p (.fromVSS s.path) →
        (VSSPath.fromVSS s.path).vsspath = p.vsspath := by
  have ht := tracked_of_reachable hst
  rcases setSignal_cases jp nm ck db p attr value with
    ⟨e, he⟩ | ⟨hno, data', he⟩ | ⟨db'', l, node, stored, hs, he⟩
  · rw [hset] at he
    simp at he
  · obtain rfl : pubs = [] := by
      rw [hset] at he
      exact (Prod.mk.inj (Prod.mk.inj he).2).2
    have hn (s : Subscription) : ¬ SameNode jp db.dataTree p (.fromVSS s.path) := by
      rintro ⟨l, node, hl, -⟩
      exact hno ⟨l, node, hl⟩
    simp [hn, notified_nil]
  · obtain rfl : pubs = [publicationOf p attr stored (storedNode ck node attr stored)] := by
      rw [hset] at he
      exact (Prod.mk.inj (Prod.mk.inj he).2).2
    have hcount (s : Subscription) (hm : s ∈ st.live) : notified st.handler
        [publicationOf p attr stored (storedNode ck node attr stored)] s.id =
          if (VSSPath.fromVSS s.path).vsspath = p.vsspath ∧ s.attr = attr then 1 else 0 := by
      rw [notified_singleton ht _ hm]
      simp [Subscription.key, publicationOf, VSSPath.getVSSPath]
    constructor
    · rintro ⟨hone, -⟩ s hm ha hsame
      have h1 := hone s hm ha hsame
      rw [hcount s hm] at h1
      by_contra hne
      simp [hne] at h1
    · intro h
      refine ⟨fun s hm ha hsame => ?_, fun s hm hother => ?_⟩
      · rw [hcount s hm]
        simp [h s hm ha hsame, ha]
      · rw [hcount s hm]
        have hne := hother.vsspath_ne hp (VSSPath.fromVSS_jsonpath s.path)
        simp [Ne.symm hne]

end Publish

section Wildcard
open VssCommandProcessor

def wildcardSubscription : Subscription := ⟨7, "Vehicle.*.Speed", "value"⟩

/-- The table after one subscription by a wildcard. -/
def wildcardSubscribers : Subscribers :=
  ⟨⟨[(⟨"Vehicle/*/Speed", "value"⟩, [(7, speedReader)])], []⟩, [wildcardSubscription]⟩

theorem wildcardSubscribers_reachable :
    (system .selectors .dotted).Reachable TransitionSystem.Any wildcardSubscribers := by
  apply TransitionSystem.reachable_of_exec
    [.subscribe ⟨speedTree, speedTree⟩ 7 speedReader "Vehicle.*.Speed" "value"] (.init rfl)
    (fun _ _ _ => trivial)
  decide +kernel

/-- Setting the speed by its name. -/
def speedSet : Except Exn Json × VssDatabase × List Publication :=
  setSignal .selectors .decimal midnight ⟨speedTree, speedTree⟩ (.fromVSS "Vehicle.OBD.Speed")
    "value" (.int 5)

theorem speedSet_accepted : ∃ data, speedSet = (.ok data, speedSet.2) := by
  have h : speedSet.1.toOption.isSome = true := by decide +kernel
  cases he : speedSet.1 with
  | error e => simp [he, Except.toOption] at h
  | ok data => exact ⟨data, by rw [← he]⟩

theorem wildcard_sameNode :
    SameNode .selectors speedTree (.fromVSS "Vehicle.OBD.Speed") (.fromVSS "Vehicle.*.Speed") := by
  refine ⟨_, speedNode, ⟨?_, by decide +kernel⟩, wildcard_resolves⟩
  rw [VSSPath.fromVSS_plain (by decide +kernel), JsonPath.matches?_renderPath]
  decide +kernel

theorem notified_iff_wildcard :
    ¬ ∀ s ∈ wildcardSubscribers.live, s.attr = "value" →
      SameNode .selectors speedTree (.fromVSS "Vehicle.OBD.Speed") (.fromVSS s.path) →
        notified wildcardSubscribers.handler speedSet.2.2 s.id = 1 := by
  obtain ⟨data, he⟩ := speedSet_accepted
  intro h
  have hspell := (notified_iff .selectors .dotted .decimal midnight wildcardSubscribers
    wildcardSubscribers_reachable ⟨speedTree, speedTree⟩ _ (.fromVSS "Vehicle.OBD.Speed")
    (VSSPath.fromVSS_jsonpath _) "value" (.int 5) data speedSet.2.2 he).mp ⟨h, ?_⟩
  · exact absurd (hspell wildcardSubscription (by simp [wildcardSubscribers]) rfl
      wildcard_sameNode) (by decide)
  · rintro s hs hother
    obtain rfl : s = wildcardSubscription := by simpa [wildcardSubscribers] using hs
    obtain ⟨l, l', node, node', hl, hl', hne⟩ := hother
    obtain ⟨k, n, hk, hk'⟩ := wildcard_sameNode
    exact absurd ((hl.eq hk).1.trans (hl'.eq hk').1.symm) hne

/-- The subscription by a wildcard is accepted and live, and misses the set of its node. -/
theorem wildcard_not_notified :
    (system .selectors .dotted).Reachable TransitionSystem.Any wildcardSubscribers ∧
      wildcardSubscription ∈ wildcardSubscribers.live ∧
      (∃ data, speedSet = (.ok data, speedSet.2)) ∧
      SameNode .selectors speedTree (.fromVSS "Vehicle.OBD.Speed")
        (.fromVSS wildcardSubscription.path) ∧
      notified wildcardSubscribers.handler speedSet.2.2 wildcardSubscription.id = 0 :=
  ⟨wildcardSubscribers_reachable, by decide, speedSet_accepted, wildcard_sameNode,
    by decide +kernel⟩

end Wildcard

end Subscribers
