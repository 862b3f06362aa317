import KuksaVal.StreamWrites
import KuksaVal.UnsubscribeAll
import Mathlib.Order.BooleanAlgebra.Set

/-! The three tables in which a stream's subscriptions are kept: the local one of its handler,
the map of its channel, and the subscriptions themselves. -/
namespace SubscriptionHandler

/-- The numbers of the subscriptions of a connection. -/
def registeredFor (h : SubscriptionHandler) (connectionID : ℕ) : Set SubscriptionId :=
  {id | ∃ key kc, (id, kc) ∈ h.subscriptionsFor key ∧ kc.connectionID = connectionID}

variable {h : SubscriptionHandler} {connectionID : ℕ}

theorem registeredFor_enter {id : SubscriptionId}
    (hfresh : ∀ key, ∀ sub ∈ h.subscriptionsFor key, sub.1 ≠ id) (key : SubscriptionKey)
    (channel : KuksaChannel) : (h.enter key id channel).registeredFor connectionID =
      {i | i = id ∧ channel.connectionID = connectionID} ∪ h.registeredFor connectionID := by
  ext i
  simp only [registeredFor, subscriptionsFor_enter, Set.mem_ofPred_eq, Set.mem_union]
  constructor
  · rintro ⟨k, kc, hm, hc⟩
    split_ifs at hm
    · rcases Members.mem_assign hm with heq | hm
      · obtain ⟨rfl, rfl⟩ := Prod.mk.inj heq
        exact .inl ⟨rfl, hc⟩
      · exact .inr ⟨key, kc, hm, hc⟩
    · exact .inr ⟨k, kc, hm, hc⟩
  · rintro (⟨rfl, hc⟩ | ⟨k, kc, hm, hc⟩)
    · refine ⟨key, channel, ?_, hc⟩
      rw [if_pos rfl]
      exact Members.mem_assign_self _ _ _
    · refine ⟨k, kc, ?_, hc⟩
      split_ifs with hk
      · exact Members.mem_assign_of_ne (hk ▸ hm) (hfresh k _ hm)
      · exact hm

theorem registeredFor_unsubscribe (subscribeID : SubscriptionId) :
    (h.unsubscribe subscribeID).2.registeredFor connectionID =
      h.registeredFor connectionID \ {subscribeID} := by
  ext i
  simp only [registeredFor, subscriptionsFor_unsubscribe, Members.erase, List.mem_filter,
    Set.mem_ofPred_eq, Set.mem_sdiff, Set.mem_singleton_iff, decide_eq_true_eq]
  constructor
  · rintro ⟨key, kc, ⟨hm, hne⟩, hc⟩
    exact ⟨⟨key, kc, hm, hc⟩, hne⟩
  · rintro ⟨⟨key, kc, hm, hc⟩, hne⟩
    exact ⟨key, kc, ⟨hm, hne⟩, hc⟩

/-- The subscriptions of the other connections stay. -/
theorem registeredFor_unsubscribeAll_of_ne {channel : KuksaChannel}
    (hne : channel.connectionID ≠ connectionID) :
    (h.unsubscribeAll channel).registeredFor connectionID = h.registeredFor connectionID := by
  ext i
  constructor
  · rintro ⟨key, kc, hm, hc⟩
    rw [subscriptionsFor_unsubscribeAll] at hm
    exact ⟨key, kc, List.mem_of_mem_eraseP hm, hc⟩
  · rintro ⟨key, kc, hm, hc⟩
    refine ⟨key, kc, mem_unsubscribeAll_of_other hm ?_, hc⟩
    rw [KuksaChannel.sameAs, decide_eq_false_iff_not, hc]
    exact hne.symm

theorem registeredFor_unsubscribeAll {channel : KuksaChannel} (honce : h.OncePerKey channel) :
    (h.unsubscribeAll channel).registeredFor channel.connectionID = ∅ := by
  apply Set.eq_empty_of_forall_notMem
  rintro i ⟨key, kc, hm, hc⟩
  have hleft := none_left_iff.mpr (honce key) _ hm
  simp [KuksaChannel.sameAs, hc] at hleft

/-- A subscription that is there is found. -/
theorem unsubscribe_found {id : SubscriptionId} (hm : id ∈ h.registeredFor connectionID) :
    (h.unsubscribe id).1 = 0 := by
  obtain ⟨key, kc, hm, -⟩ := hm
  have hfound : (h.subscriptions.any fun sub => (Members.get? id sub.2).isSome) = true := by
    unfold subscriptionsFor at hm
    cases hg : Members.get? key h.subscriptions with
    | none => simp [hg] at hm
    | some subs =>
      rw [hg] at hm
      rw [List.any_eq_true]
      exact ⟨_, Members.mem_of_get? hg, Members.get?_isSome_iff.mpr (List.mem_map_of_mem hm)⟩
  simp [unsubscribe, hfound]

end SubscriptionHandler

section Tables

/-- The numbers in the local table of a handler. -/
def idsOf (currentSubs : List (SubscriptionKey × SubscriptionId)) : Set SubscriptionId :=
  {id | ∃ key, Members.get? key currentSubs = some id}

/-- The numbers in the map of a channel. -/
def keysOf (subsMap : List (SubscriptionId × ℕ)) : Set SubscriptionId :=
  {id | (Members.get? id subsMap).isSome}

/-- Each number is under one key. -/
def OneKeyEach (currentSubs : List (SubscriptionKey × SubscriptionId)) : Prop :=
  ∀ key other id, Members.get? key currentSubs = some id →
    Members.get? other currentSubs = some id → key = other

/-- What a handler has done in the subscriptions of its connection, in the map and in its own
table when it is at a point of its loop. -/
def InStep (subs subsMap : Set SubscriptionId)
    (currentSubs : List (SubscriptionKey × SubscriptionId)) : StreamPc → Prop
  | .reading | .closed => subs = subsMap ∧ subsMap = idsOf currentSubs
  | .registered key id | .confirmed key id => id ∉ subsMap ∧ subs = insert id subsMap ∧
      subsMap = idsOf currentSubs ∧ Members.get? key currentSubs = none
  | .unsubscribed key id => id ∉ subs ∧ subsMap = insert id subs ∧ subsMap = idsOf currentSubs ∧
      Members.get? key currentSubs = some id
  | .cleaning => subs = ∅
  | .ended => subs = ∅ ∧ subsMap = ∅

variable {subs subsMap : Set SubscriptionId}
  {currentSubs : List (SubscriptionKey × SubscriptionId)} {key : SubscriptionKey}
  {id : SubscriptionId}

theorem keysOf_assign (id : SubscriptionId) (stream : ℕ) (m : List (SubscriptionId × ℕ)) :
    keysOf (Members.assign id stream m) = insert id (keysOf m) := by
  ext i
  by_cases hi : i = id
  · simp [keysOf, hi]
  · simp [keysOf, hi]

theorem keysOf_erase (id : SubscriptionId) (m : List (SubscriptionId × ℕ)) :
    keysOf (Members.erase id m) = keysOf m \ {id} := by
  ext i
  by_cases hi : i = id
  · simp [keysOf, hi]
  · simp [keysOf, hi]

theorem idsOf_assign (hfree : Members.get? key currentSubs = none) :
    idsOf (Members.assign key id currentSubs) = insert id (idsOf currentSubs) := by
  ext i
  simp only [idsOf, Set.mem_ofPred_eq, Set.mem_insert_iff, Members.get?_assign]
  constructor
  · rintro ⟨k, hk⟩
    split_ifs at hk
    · exact .inl (Option.some.inj hk).symm
    · exact .inr ⟨k, hk⟩
  · rintro (rfl | ⟨k, hk⟩)
    · exact ⟨key, by simp⟩
    · have hne : k ≠ key := by
        rintro rfl
        simp [hfree] at hk
      exact ⟨k, by simp [hne, hk]⟩

theorem idsOf_erase (hone : OneKeyEach currentSubs)
    (hkey : Members.get? key currentSubs = some id) :
    idsOf (Members.erase key currentSubs) = idsOf currentSubs \ {id} := by
  ext i
  simp only [idsOf, Set.mem_ofPred_eq, Set.mem_sdiff, Set.mem_singleton_iff, Members.get?_erase]
  constructor
  · rintro ⟨k, hk⟩
    split_ifs at hk with hne
    refine ⟨⟨k, hk⟩, ?_⟩
    rintro rfl
    exact hne (hone k key i hk hkey)
  · rintro ⟨⟨k, hk⟩, hne⟩
    have hkne : k ≠ key := by
      rintro rfl
      exact hne (Option.some.inj (hk.symm.trans hkey))
    exact ⟨k, by simp [hkne, hk]⟩

theorem OneKeyEach.assign (h : OneKeyEach currentSubs) (hnew : id ∉ idsOf currentSubs) :
    OneKeyEach (Members.assign key id currentSubs) := by
  have hno (k : SubscriptionKey) : Members.get? k currentSubs ≠ some id := fun hk => hnew ⟨k, hk⟩
  intro k k' i hk hk'
  rw [Members.get?_assign] at hk hk'
  split_ifs at hk hk' with h1 h2 h2
  · rw [h1, h2]
  · exact absurd (hk'.trans hk.symm) (hno k')
  · exact absurd (hk.trans hk'.symm) (hno k)
  · exact h k k' i hk hk'

theorem OneKeyEach.erase (h : OneKeyEach currentSubs) :
    OneKeyEach (Members.erase key currentSubs) := by
  intro k k' i hk hk'
  rw [Members.get?_erase] at hk hk'
  split_ifs at hk hk'
  exact h k k' i hk hk'

theorem InStep.register (h : InStep subs subsMap currentSubs .reading) (hnew : id ∉ subsMap)
    (hfree : Members.get? key currentSubs = none) :
    InStep (insert id subs) subsMap currentSubs (.registered key id) := by
  obtain ⟨rfl, hids⟩ := h
  exact ⟨hnew, rfl, hids, hfree⟩

theorem InStep.insert (h : InStep subs subsMap currentSubs (.confirmed key id)) :
    InStep subs (insert id subsMap) (Members.assign key id currentSubs) .reading := by
  obtain ⟨-, hsubs, hids, hfree⟩ := h
  exact ⟨hsubs, by rw [idsOf_assign hfree, hids]⟩

theorem InStep.unsubscribe (h : InStep subs subsMap currentSubs .reading)
    (hkey : Members.get? key currentSubs = some id) :
    InStep (subs \ {id}) subsMap currentSubs (.unsubscribed key id) := by
  obtain ⟨rfl, hids⟩ := h
  have hm : id ∈ subs := hids ▸ ⟨key, hkey⟩
  refine ⟨by simp, ?_, hids, hkey⟩
  rw [Set.insert_sdiff_singleton, Set.insert_eq_of_mem hm]

theorem InStep.erase (h : InStep subs subsMap currentSubs (.unsubscribed key id))
    (hone : OneKeyEach currentSubs) :
    InStep subs (subsMap \ {id}) (Members.erase key currentSubs) .reading := by
  obtain ⟨hnot, hmap, hids, hkey⟩ := h
  refine ⟨?_, by rw [idsOf_erase hone hkey, hids]⟩
  rw [hmap, Set.insert_sdiff_of_mem _ (Set.mem_singleton id), Set.sdiff_singleton_eq_self hnot]

end Tables

namespace GrpcServer
open RequestServiceImpl SubscriptionHandler

/-- The number that a handler works on. -/
def Working (call : SubscribeCall) (id : SubscriptionId) : Prop :=
  ∃ key, call.pc = .registered key id ∨ call.pc = .confirmed key id

/-- The channels, the maps and the numbers belong to the calls that they were made for. -/
structure Owned (st : GrpcServer) : Prop where
  svc : st.svc.Sound
  called : ∀ address kc, st.svc.grpcSubscribeSessionMap address = some kc →
    ∃ call, st.calls address = some call
  kept : ∀ address call, st.calls address = some call →
    st.svc.grpcSubscribeSessionMap address = some call.kc ∧
      call.kc.grpcSubsMap = some call.subsMap
  current : ∀ address call, st.calls address = some call → ∀ id,
    id ∈ idsOf call.currentSubs ∨ Working call id → st.entered id = some call.kc
  table : ∀ key, ∀ sub ∈ st.handler.subscriptionsFor key, st.entered sub.1 = some sub.2
  buffer : ∀ n ∈ st.handler.buffer, st.entered n.subscriptionId = some n.channel
  maps : ∀ p, st.svc.nextMap ≤ p → st.maps p = []

variable {pf : Platform} {auth : Authenticator} {st st' : GrpcServer} {address : ℕ}
  {call : SubscribeCall}

/-- The channel of a call has its address, and a map that was made. -/
theorem Owned.channel (h : st.Owned) (hc : st.calls address = some call) :
    call.kc.connectionID = address ∧ call.subsMap < st.svc.nextMap := by
  obtain ⟨hkept, hmap⟩ := h.kept address call hc
  obtain ⟨-, hid, p, hp, hlt⟩ := h.svc.channels address call.kc hkept
  obtain rfl : p = call.subsMap := Option.some.inj (hp.symm.trans hmap)
  exact ⟨hid, hlt⟩

/-- A step of a call concerns its own map. -/
theorem Owned.of_call (h : st.Owned) (hc : st.calls address = some call) (call' : SubscribeCall)
    (hkc : call'.kc = call.kc) (hmap : call'.subsMap = call.subsMap) (handler : SubscriptionHandler)
    (maps : ℕ → List (SubscriptionId × ℕ)) (entered : SubscriptionId → Option KuksaChannel)
    (opened : SubscriptionId → Option (ℕ × ℕ))
    (hent : ∀ id kc, st.entered id = some kc → entered id = some kc)
    (hmaps : ∀ p, p ≠ call.subsMap → maps p = st.maps p)
    (hcurrent : ∀ id, id ∈ idsOf call'.currentSubs ∨ Working call' id →
      entered id = some call.kc)
    (htable : ∀ key, ∀ sub ∈ handler.subscriptionsFor key, entered sub.1 = some sub.2)
    (hbuffer : handler.buffer = st.handler.buffer) :
    Owned { st with
      handler := handler, maps := maps, entered := entered, opened := opened,
      calls := Function.update st.calls address (some call') } := by
  refine ⟨h.svc, ?_, ?_, ?_, htable, ?_, ?_⟩
  · intro a kc hk
    simp only [Function.update_apply]
    split_ifs
    · exact ⟨call', rfl⟩
    · exact h.called a kc hk
  · intro a other ha
    simp only [Function.update_apply] at ha
    split_ifs at ha with he
    · obtain rfl := Option.some.inj ha
      rw [he, hkc, hmap]
      exact h.kept address call hc
    · exact h.kept a other ha
  · intro a other ha id hid
    simp only [Function.update_apply] at ha
    split_ifs at ha with he
    · obtain rfl := Option.some.inj ha
      rw [hkc]
      exact hcurrent id hid
    · exact hent id _ (h.current a other ha id hid)
  · intro n hn
    exact hent _ _ (h.buffer n (hbuffer ▸ hn))
  · intro p hp
    have hlt := (h.channel hc).2
    rw [← h.maps p hp]
    exact hmaps p (by rintro rfl; exact absurd hlt (not_lt.mpr hp))

/-- A call that only moves on. -/
theorem Owned.move (h : st.Owned) (hc : st.calls address = some call) (call' : SubscribeCall)
    (hkc : call'.kc = call.kc) (hmap : call'.subsMap = call.subsMap)
    (opened : SubscriptionId → Option (ℕ × ℕ))
    (hcurrent : ∀ id, id ∈ idsOf call'.currentSubs ∨ Working call' id →
      id ∈ idsOf call.currentSubs ∨ Working call id) :
    Owned { st.setCall address call' with opened := opened } :=
  h.of_call hc call' hkc hmap st.handler st.maps st.entered opened (fun _ _ he => he)
    (fun _ _ => rfl) (fun id hid => h.current address call hc id (hcurrent id hid)) h.table rfl

/-- The body of the loop ends as a call that reads on, or leaves. -/
theorem Owned.endIteration (h : (st.setCall address { call with pc := .reading }).Owned) :
    (st.endIteration address call).Owned := by
  unfold GrpcServer.endIteration
  split_ifs
  · have hc : (st.setCall address { call with pc := .reading }).calls address =
        some { call with pc := .reading } := by simp [setCall]
    have hm := h.move hc { call with pc := .closed } rfl rfl
      (fun id => (st.opened id).filter fun o => decide (o.1 ≠ address)) (by simp [Working])
    unfold GrpcServer.leave
    simpa [setCall] using hm
  · exact h

/-- The numbers that a call had, and the one it works on now. -/
theorem Owned.insert_current (h : st.Owned) (hc : st.calls address = some call)
    {key : SubscriptionKey} {id : SubscriptionId} (hid : st.entered id = some call.kc)
    (i : SubscriptionId)
    (hi : i ∈ idsOf (Members.assign key id call.currentSubs)) : st.entered i = some call.kc := by
  obtain ⟨k, hk⟩ := hi
  rw [Members.get?_assign] at hk
  split_ifs at hk
  · obtain rfl := Option.some.inj hk
    exact hid
  · exact h.current address call hc i (.inl ⟨k, hk⟩)

theorem Owned.register (h : st.Owned) (hc : st.calls address = some call)
    (db : VssDatabase) {subId : SubscriptionId}
    (hfresh : st.entered subId = none) (r : SubscribeRequest) :
    (st.register pf address db subId r call).Owned := by
  obtain ⟨attr, he | ⟨-, -, he⟩⟩ := register_cases pf st address db subId r call
  · rw [he]
    apply Owned.endIteration
    exact h.move hc { call with attr := attr, pc := .reading } rfl rfl st.opened
      fun _ hi => .inl (hi.resolve_right (by simp [Working]))
  · rw [he]
    refine h.of_call hc { call with
        attr := attr
        pc := .registered ⟨r.path, r.type.attribute.getD "value"⟩ subId } rfl rfl _ st.maps _
      st.opened (entered_update hfresh call.kc)
      (fun _ _ => rfl) ?_ (table_enter h.table hfresh _ _) rfl
    rintro id (hid | ⟨key, hk | hk⟩)
    · exact entered_update hfresh call.kc id _ (h.current address call hc id (.inl hid))
    · obtain ⟨-, rfl⟩ := StreamPc.registered.inj hk
      simp
    · simp at hk

theorem Owned.unsubscribeRequest (h : st.Owned) (hc : st.calls address = some call)
    (r : SubscribeRequest) : (st.unsubscribeRequest address r call).Owned := by
  obtain he | ⟨id, -, hend⟩ := unsubscribeRequest_cases st address r call
  · rw [he]
    apply Owned.endIteration
    exact h.move hc { call with pc := .reading } rfl rfl st.opened
      fun _ hi => .inl (hi.resolve_right (by simp [Working]))
  · have hstep (pc : StreamPc) (hw : ∀ i, ¬ Working { call with pc := pc } i) :=
      h.of_call hc { call with pc := pc } rfl rfl (st.handler.unsubscribe id).2 st.maps st.entered
        (Function.update st.opened id none) (fun _ _ he => he) (fun _ _ => rfl)
        (fun i hi => h.current address call hc i (.inl (hi.resolve_right (hw i))))
        (table_unsubscribe h.table id) rfl
    rcases hend with he | he
    · rw [he]
      exact hstep _ (by simp [Working])
    · rw [he]
      exact Owned.endIteration (hstep .reading (by simp [Working]))

theorem Owned.insert (h : st.Owned) (hc : st.calls address = some call) {key : SubscriptionKey}
    {id : SubscriptionId} (hpc : call.pc = .confirmed key id) :
    (GrpcServer.endIteration
      (st.setMap call.subsMap (Members.assign id call.stream (st.maps call.subsMap)))
      address { call with currentSubs := Members.assign key id call.currentSubs }).Owned := by
  have hid := h.current address call hc id (.inr ⟨key, .inr hpc⟩)
  apply Owned.endIteration
  refine h.of_call hc { call with
      currentSubs := Members.assign key id call.currentSubs, pc := .reading } rfl rfl st.handler
    (Function.update st.maps call.subsMap _) st.entered st.opened (fun _ _ he => he)
    (fun p hp => by simp [hp]) ?_ h.table rfl
  rintro i (hi | hw)
  · exact h.insert_current hc hid i hi
  · simp [Working] at hw

theorem Owned.erase (h : st.Owned) (hc : st.calls address = some call) (key : SubscriptionKey)
    (id : SubscriptionId) :
    (GrpcServer.endIteration (st.setMap call.subsMap (Members.erase id (st.maps call.subsMap)))
      address { call with currentSubs := Members.erase key call.currentSubs }).Owned := by
  apply Owned.endIteration
  refine h.of_call hc { call with
      currentSubs := Members.erase key call.currentSubs, pc := .reading } rfl rfl st.handler
    (Function.update st.maps call.subsMap _) st.entered st.opened (fun _ _ he => he)
    (fun p hp => by simp [hp]) ?_ h.table rfl
  rintro i (⟨k, hk⟩ | hw)
  · rw [Members.get?_erase] at hk
    split_ifs at hk
    exact h.current address call hc i (.inl ⟨k, hk⟩)
  · simp [Working] at hw

theorem Owned.of_svc (h : st.Owned) {svc : RequestServiceImpl} (hsound : svc.Sound)
    (hmap : svc.grpcSubscribeSessionMap = st.svc.grpcSubscribeSessionMap)
    (hnext : st.svc.nextMap ≤ svc.nextMap) : Owned { st with svc := svc } := by
  refine ⟨hsound, ?_, ?_, h.current, h.table, h.buffer, fun p hp => h.maps p (hnext.trans hp)⟩
  · intro a kc hk
    exact h.called a kc (hmap ▸ hk)
  · intro a other ha
    exact ⟨hmap ▸ (h.kept a other ha).1, (h.kept a other ha).2⟩

theorem Owned.start (h : st.Owned) {context : ServerContext} {stream : ℕ}
    (hs : start pf st context stream = some st') : st'.Owned := by
  obtain ⟨-, ⟨kc, p, hk, hp, rfl⟩ | ⟨svc, hsound, hmap, hnext, rfl⟩ |
    ⟨kc, svc, hsound, -, hp, hsvc, hnext, rfl⟩⟩ := start_cases h.svc hs
  · obtain ⟨call, hc⟩ := h.called _ kc hk
    obtain ⟨hkept, hm⟩ := h.kept _ call hc
    obtain rfl : call.kc = kc := Option.some.inj (hkept.symm.trans hk)
    obtain rfl : call.subsMap = p := Option.some.inj (hm.symm.trans hp)
    exact h.move hc ⟨call.kc, call.subsMap, stream, [], none, .reading⟩ rfl rfl st.opened
      (by simp [Working, idsOf])
  · exact h.of_svc hsound hmap hnext.ge
  · refine ⟨hsound, ?_, ?_, ?_, h.table, h.buffer, ?_⟩
    · intro a other ha
      simp only [hsvc, setCall, Function.update_apply] at ha ⊢
      split_ifs at ha ⊢
      · exact ⟨_, rfl⟩
      · exact h.called a other ha
    · intro a other ha
      simp only [hsvc, setCall, Function.update_apply] at ha ⊢
      split_ifs at ha ⊢
      · obtain rfl := Option.some.inj ha
        exact ⟨rfl, hp⟩
      · exact h.kept a other ha
    · intro a other ha id hid
      simp only [setCall, Function.update_apply] at ha
      split_ifs at ha
      · obtain rfl := Option.some.inj ha
        simp [Working, idsOf] at hid
      · exact h.current a other ha id hid
    · intro p hle
      apply h.maps p
      exact Nat.le_of_succ_le (hnext.ge.trans hle)

/-- The steps of others leave the calls and their maps alone. -/
theorem Owned.of_other (h : st.Owned) {st' : GrpcServer} (hcalls : st'.calls = st.calls)
    (hmaps : st'.maps = st.maps) (hsvc : st'.svc = st.svc)
    (hent : ∀ id kc, st.entered id = some kc → st'.entered id = some kc)
    (htable : ∀ key, ∀ sub ∈ st'.handler.subscriptionsFor key, st'.entered sub.1 = some sub.2)
    (hbuffer : ∀ n ∈ st'.handler.buffer, st'.entered n.subscriptionId = some n.channel) :
    st'.Owned := by
  refine ⟨hsvc ▸ h.svc, ?_, ?_, ?_, htable, hbuffer, by rw [hmaps, hsvc]; exact h.maps⟩
  · rw [hsvc, hcalls]
    exact h.called
  · rw [hsvc, hcalls]
    exact h.kept
  · rw [hcalls]
    exact fun a other ha id hid => hent id _ (h.current a other ha id hid)

theorem Owned.subscribe (h : st.Owned) {subId : SubscriptionId} (hfresh : st.entered subId = none)
    (key : SubscriptionKey) (channel : KuksaChannel) :
    Owned { st with
      handler := st.handler.enter key subId channel
      entered := Function.update st.entered subId (some channel) } :=
  h.of_other rfl rfl rfl (entered_update hfresh channel) (table_enter h.table hfresh _ _)
    fun n hn => entered_update hfresh channel _ _ (h.buffer n hn)

theorem Owned.publish (h : st.Owned) (p : Publication) (owed : List (Option ℕ)) :
    Owned { st with handler := st.handler.publishForVSSPath p, owed := owed } := by
  refine h.of_other rfl rfl rfl (fun _ _ he => he) h.table ?_
  intro n hn
  rcases List.mem_append.mp hn with hn | hn
  · exact h.buffer n hn
  · obtain ⟨sub, hm, rfl⟩ := List.mem_map.mp hn
    exact h.table _ sub hm

theorem Owned.forward (h : st.Owned) {n : Notification} {rest : List Notification}
    (hb : st.handler.buffer = n :: rest) (gone : Prop) [Decidable gone] (running : Bool)
    (owed : List (Option ℕ)) (outcomes : List Outcome) :
    Owned { st with
      handler := if gone then
          SubscriptionHandler.unsubscribeAll { st.handler with buffer := rest } n.channel
        else { st.handler with buffer := rest }
      running := running, owed := owed, outcomes := outcomes } := by
  refine h.of_other rfl rfl rfl (fun _ _ he => he) ?_ ?_
  · simp only
    split_ifs
    · exact table_unsubscribeAll h.table n.channel
    · exact h.table
  · intro m hm
    apply h.buffer
    rw [hb]
    apply List.mem_cons_of_mem
    simp only at hm
    split_ifs at hm <;> exact hm

theorem Owned.next (h : st.Owned) {step : GrpcStep} (hs : next pf auth st step = some st') :
    st'.Owned := by
  cases next_effect hs with
  | @authorize ck uuid peer token =>
    rcases authorizeHelper_cases pf ck auth st.svc uuid peer token with he | ⟨_, -, he⟩
    · exact h.of_svc (h.svc.authorizeHelper uuid peer token) (by rw [he]) (by rw [he]; simp)
    · exact h.of_svc (h.svc.authorizeHelper uuid peer token) (by rw [he]) (by rw [he]; simp)
  | start hs => exact h.start hs
  | register hc _ hfresh _ => exact h.register hc _ hfresh _
  | unsubscribeRequest hc _ => exact h.unsubscribeRequest hc _
  | @respond address call key id hc hpc =>
    refine h.move hc { call with pc := .confirmed key id } rfl rfl _ ?_
    rintro i (hi | ⟨k, hk | hk⟩)
    · exact .inl hi
    · simp at hk
    · obtain ⟨rfl, rfl⟩ := StreamPc.confirmed.inj hk
      exact .inr ⟨key, .inl hpc⟩
  | insert hc hpc => exact h.insert hc hpc
  | erase hc _ => exact h.erase hc _ _
  | @finish address call hc _ =>
    exact h.move hc { call with pc := .closed } rfl rfl _
      fun _ hi => .inl (hi.resolve_right (by simp [Working]))
  | @unsubscribeAll address call hc _ =>
    exact h.of_call hc { call with pc := .cleaning } rfl rfl _ st.maps st.entered st.opened
      (fun _ _ he => he) (fun _ _ => rfl)
      (fun i hi => h.current address call hc i (.inl (hi.resolve_right (by simp [Working]))))
      (table_unsubscribeAll h.table call.kc) rfl
  | @clear address call hc _ =>
    exact h.of_call hc { call with pc := .ended } rfl rfl st.handler
      (Function.update st.maps call.subsMap []) st.entered st.opened (fun _ _ he => he)
      (fun p hp => by simp [hp])
      (fun i hi => h.current address call hc i (.inl (hi.resolve_right (by simp [Working]))))
      h.table rfl
  | refused => exact h
  | subscribe _ hfresh => exact h.subscribe hfresh _ _
  | @unsubscribe id =>
    exact h.of_other rfl rfl rfl (fun _ _ he => he) (table_unsubscribe h.table id) h.buffer
  | publish => exact h.publish _ _
  | forward hb => exact h.forward hb _ _ _ _

section Frame

/-- The call that a step is of. -/
def addressOf : GrpcStep → Option ℕ
  | .start context _ => some context.address
  | .request address .. | .respond address | .insert address | .erase address | .finish address
  | .unsubscribeAll address | .clear address => some address
  | _ => none

/-- What one call and its tables are, apart from the rest of the service. -/
structure SameAt (address : ℕ) (st st' : GrpcServer) : Prop where
  calls : st'.calls address = st.calls address
  registered : st'.handler.registeredFor address = st.handler.registeredFor address
  maps : ∀ call, st.calls address = some call → st'.maps call.subsMap = st.maps call.subsMap
  entered : ∀ id kc, st'.entered id = some kc → kc.connectionID = address →
    st.entered id = some kc

theorem SameAt.endIteration {st₀ : GrpcServer} {other : ℕ} {call' : SubscribeCall}
    (h : SameAt address st₀ st) (hne : other ≠ address) :
    SameAt address st₀ (st.endIteration other call') := by
  unfold GrpcServer.endIteration GrpcServer.leave setCall
  split_ifs
  · exact ⟨by simp [hne.symm, h.calls], h.registered, h.maps, h.entered⟩
  · exact ⟨by simp [hne.symm, h.calls], h.registered, h.maps, h.entered⟩

/-- Two calls have two maps. -/
theorem Owned.subsMap_ne (h : st.Owned) {a b : ℕ} {call call' : SubscribeCall}
    (ha : st.calls a = some call) (hb : st.calls b = some call') (hne : a ≠ b) :
    call.subsMap ≠ call'.subsMap := by
  obtain ⟨hka, hma⟩ := h.kept a call ha
  obtain ⟨hkb, hmb⟩ := h.kept b call' hb
  intro heq
  apply hne
  apply h.svc.maps a b call.kc call'.kc hka hkb
  rw [hma, hmb, heq]

/-- The numbers of the table are not free. -/
theorem Owned.fresh (h : st.Owned) {id : SubscriptionId} (hfresh : st.entered id = none) :
    ∀ key, ∀ sub ∈ st.handler.subscriptionsFor key, sub.1 ≠ id := by
  rintro key sub hm rfl
  have he := h.table key sub hm
  simp [hfresh] at he

/-- The numbers of a connection were entered for channels with its address. -/
theorem Owned.registered (h : st.Owned) {id : SubscriptionId}
    (hm : id ∈ st.handler.registeredFor address) :
    ∃ kc, st.entered id = some kc ∧ kc.connectionID = address := by
  obtain ⟨key, kc, hm, hc⟩ := hm
  exact ⟨kc, h.table key _ hm, hc⟩

theorem SameAt.register (h : st.Owned) {other : ℕ} (hne : other ≠ address)
    (hc : st.calls other = some call) (db : VssDatabase) {subId : SubscriptionId}
    (hfresh : st.entered subId = none) (r : SubscribeRequest) :
    SameAt address st (st.register pf other db subId r call) := by
  have hid := (h.channel hc).1
  obtain ⟨attr, he | ⟨-, -, he⟩⟩ := register_cases pf st other db subId r call
  · rw [he]
    exact SameAt.endIteration ⟨rfl, rfl, fun _ _ => rfl, fun _ _ he _ => he⟩ hne
  · rw [he]
    simp only [setCall]
    refine ⟨by simp [hne.symm], ?_, fun _ _ => rfl, ?_⟩
    · rw [registeredFor_enter (h.fresh hfresh)]
      simp [hid, hne]
    · intro id kc he hconn
      simp only [Function.update_apply] at he
      split_ifs at he
      · obtain rfl := Option.some.inj he
        exact absurd (hid.symm.trans hconn) hne
      · exact he

theorem SameAt.unsubscribeRequest (h : st.Owned) {other : ℕ} (hne : other ≠ address)
    (hc : st.calls other = some call) (r : SubscribeRequest) :
    SameAt address st (st.unsubscribeRequest other r call) := by
  have hconn := (h.channel hc).1
  obtain he | ⟨id, hg, hend⟩ := unsubscribeRequest_cases st other r call
  · rw [he]
    exact SameAt.endIteration ⟨rfl, rfl, fun _ _ => rfl, fun _ _ he _ => he⟩ hne
  · have hsame : (st.handler.unsubscribe id).2.registeredFor address =
        st.handler.registeredFor address := by
      rw [registeredFor_unsubscribe, Set.sdiff_singleton_eq_self]
      intro hm
      obtain ⟨kc, he, hk⟩ := h.registered hm
      have hown := h.current other call hc id (.inl ⟨_, hg⟩)
      obtain rfl : kc = call.kc := Option.some.inj (he.symm.trans hown)
      exact hne (hconn.symm.trans hk)
    rcases hend with he | he
    · rw [he]
      exact ⟨by simp [setCall, hne.symm], hsame, fun _ _ => rfl, fun _ _ he _ => he⟩
    · rw [he]
      exact SameAt.endIteration ⟨rfl, hsame, fun _ _ => rfl, fun _ _ he _ => he⟩ hne

theorem SameAt.start {context : ServerContext} {stream : ℕ}
    (hne : context.address ≠ address) (hs : start pf st context stream = some st') :
    SameAt address st st' := by
  unfold GrpcServer.start at hs
  split_ifs at hs
  rcases hk : getKuksaChannelForSubscriptionContext pf st.svc context with ⟨_ | kc, svc⟩ <;>
    rw [hk] at hs
  · obtain rfl := Option.some.inj hs
    exact ⟨rfl, rfl, fun _ _ => rfl, fun _ _ he _ => he⟩
  · obtain ⟨p, -, rfl⟩ := Option.map_eq_some_iff.mp hs
    exact ⟨by simp [setCall, hne.symm], rfl, fun _ _ => rfl, fun _ _ he _ => he⟩

/-- The steps of another call do not concern the subscriptions of this one. -/
theorem sameAt_of_elsewhere (h : st.Owned) {step : GrpcStep} {other : ℕ}
    (hother : addressOf step = some other) (hne : other ≠ address)
    (hs : next pf auth st step = some st') : SameAt address st st' := by
  cases next_effect hs with
  | authorize | refused | subscribe | unsubscribe | publish | forward =>
    simp [addressOf] at hother
  | start hs =>
    obtain rfl := Option.some.inj hother
    exact SameAt.start hne hs
  | @register a call db subId r hc _ hfresh _ =>
    obtain rfl : a = other := Option.some.inj hother
    exact SameAt.register h hne hc db hfresh r
  | @unsubscribeRequest a call db subId r hc _ =>
    obtain rfl : a = other := Option.some.inj hother
    exact SameAt.unsubscribeRequest h hne hc r
  | @respond a call key id hc _ =>
    obtain rfl : a = other := Option.some.inj hother
    exact ⟨by simp [setCall, hne.symm], rfl, fun _ _ => rfl, fun _ _ he _ => he⟩
  | @insert a call key id hc _ =>
    obtain rfl : a = other := Option.some.inj hother
    refine SameAt.endIteration ⟨rfl, rfl, ?_, fun _ _ he _ => he⟩ hne
    intro own hown
    simp [setMap, h.subsMap_ne hown hc hne.symm]
  | @erase a call key id hc _ =>
    obtain rfl : a = other := Option.some.inj hother
    refine SameAt.endIteration ⟨rfl, rfl, ?_, fun _ _ he _ => he⟩ hne
    intro own hown
    simp [setMap, h.subsMap_ne hown hc hne.symm]
  | @finish a call hc _ =>
    obtain rfl : a = other := Option.some.inj hother
    exact ⟨by simp [GrpcServer.leave, setCall, hne.symm], rfl, fun _ _ => rfl, fun _ _ he _ => he⟩
  | @unsubscribeAll a call hc _ =>
    obtain rfl : a = other := Option.some.inj hother
    refine ⟨by simp [setCall, hne.symm], ?_, fun _ _ => rfl, fun _ _ he _ => he⟩
    exact registeredFor_unsubscribeAll_of_ne (by rw [(h.channel hc).1]; exact hne)
  | @clear a call hc _ =>
    obtain rfl : a = other := Option.some.inj hother
    refine ⟨by simp [setCall, setMap, hne.symm], rfl, ?_, fun _ _ he _ => he⟩
    intro own hown
    simp [setMap, setCall, h.subsMap_ne hown hc hne.symm]

end Frame

end GrpcServer

/-- The service, with the request that each number was drawn for. -/
structure StreamBooks where
  server : GrpcServer := {}
  startedAs : SubscriptionId → Option SubscribeRequest := fun _ => none

namespace StreamBooks
open GrpcServer SubscriptionHandler

/-- The key that a handler makes of a request. -/
def keyOf (r : SubscribeRequest) : SubscriptionKey := ⟨r.path, r.type.attribute.getD "value"⟩

def noted (startedAs : SubscriptionId → Option SubscribeRequest) :
    GrpcStep → SubscriptionId → Option SubscribeRequest
  | .request _ _ subId r => if r.start then Function.update startedAs subId (some r) else startedAs
  | _ => startedAs

variable (pf : Platform) (auth : Authenticator) (books : StreamBooks) (address : ℕ)

def next (step : GrpcStep) : Option StreamBooks :=
  (GrpcServer.next pf auth books.server step).map fun server =>
    ⟨server, noted books.startedAs step⟩

/-- All runs of the service from its start. -/
def system : TransitionSystem StreamBooks GrpcStep := .ofNext {} (next pf auth)

/-- The numbers of the stream's connection in the subscriptions. -/
def subscriptions : Set SubscriptionId := books.server.handler.registeredFor address

/-- The numbers in the map of the stream's channel. -/
def grpcSubsMap (call : SubscribeCall) : Set SubscriptionId :=
  keysOf (books.server.maps call.subsMap)

/-- No request that is accepted starts a path and type that the stream has started already; when
the stream ends, there is one subscription of its channel under each key at most; and the other
clients have other connections and leave the stream's subscriptions alone. -/
def KeepsBooks : GrpcStep → Prop
  | .request a db _ r => a = address → r.start = true → ∀ call, books.server.calls a = some call →
      (∃ p, checkSubscribe pf.jsonPath pf.regex db call.kc r.path = .ok p) →
        Members.get? (keyOf r) call.currentSubs = none
  | .unsubscribeAll a => a = address → ∀ call, books.server.calls a = some call →
      books.server.handler.OncePerKey call.kc
  | .subscribe _ _ channel _ _ => channel.connectionID ≠ address
  | .unsubscribe subscribeID => subscribeID ∉ books.subscriptions address
  | _ => True

/-- A number is kept under the key of the request that it was drawn for. -/
def NotedAs (startedAs : SubscriptionId → Option SubscribeRequest) (key : SubscriptionKey)
    (id : SubscriptionId) : Prop :=
  ∃ r, startedAs id = some r ∧ keyOf r = key

/-- The tables of a call are in step. -/
structure Tracks (subs subsMap : Set SubscriptionId)
    (startedAs : SubscriptionId → Option SubscribeRequest) (call : SubscribeCall) : Prop where
  inStep : InStep subs subsMap call.currentSubs call.pc
  oneKey : OneKeyEach call.currentSubs
  current : ∀ key id, Members.get? key call.currentSubs = some id → NotedAs startedAs key id
  working : ∀ key id, call.pc = .registered key id ∨ call.pc = .confirmed key id →
    NotedAs startedAs key id

/-- The tables of the stream at an address are in step, whoever else uses the service. -/
structure Kept : Prop where
  owned : books.server.Owned
  grpc : ∀ id kc, books.server.entered id = some kc → kc.connectionID = address →
    kc.typeOfConnection = .grpc
  idle : books.server.calls address = none → books.subscriptions address = ∅
  tracks : ∀ call, books.server.calls address = some call →
    Tracks (books.subscriptions address) (books.grpcSubsMap call) books.startedAs call

variable {pf auth books address} {books' : StreamBooks} {call : SubscribeCall}

theorem noted_of_entered {startedAs : SubscriptionId → Option SubscribeRequest} {st st' : GrpcServer}
    {step : GrpcStep} (hs : GrpcServer.next pf auth st step = some st') {id : SubscriptionId}
    {kc : KuksaChannel} (he : st.entered id = some kc) :
    noted startedAs step id = startedAs id := by
  cases step with
  | request a db subId r =>
    obtain ⟨call, hc, hs⟩ := Option.bind_eq_some_iff.mp hs
    have hne : id ≠ subId := by
      rintro rfl
      simp [he] at hs
    simp only [noted]
    split_ifs
    · simp [hne]
    · rfl
  | _ => rfl

/-- The record of the requests is kept for the numbers that are in use. -/
theorem Tracks.noted {subs subsMap : Set SubscriptionId}
    {startedAs : SubscriptionId → Option SubscribeRequest}
    (h : Tracks subs subsMap startedAs call) {st st' : GrpcServer} (ho : st.Owned)
    (hc : st.calls address = some call) {step : GrpcStep}
    (hs : GrpcServer.next pf auth st step = some st') :
    Tracks subs subsMap (noted startedAs step) call := by
  have hnoted {key : SubscriptionKey} {id : SubscriptionId} (hid : st.entered id = some call.kc)
      (hn : NotedAs startedAs key id) : NotedAs (StreamBooks.noted startedAs step) key id := by
    obtain ⟨r, hr, hk⟩ := hn
    exact ⟨r, by rw [noted_of_entered hs hid, hr], hk⟩
  refine ⟨h.inStep, h.oneKey, ?_, ?_⟩
  · intro key id hk
    exact hnoted (ho.current address call hc id (.inl ⟨key, hk⟩)) (h.current key id hk)
  · intro key id hk
    exact hnoted (ho.current address call hc id (.inr ⟨key, hk⟩)) (h.working key id hk)

/-- The steps that leave the stream alone. -/
theorem Kept.of_sameAt (h : books.Kept address) {step : GrpcStep} {st' : GrpcServer}
    (hs : GrpcServer.next pf auth books.server step = some st')
    (hsame : SameAt address books.server st') :
    Kept ⟨st', noted books.startedAs step⟩ address := by
  refine ⟨h.owned.next hs, ?_, ?_, ?_⟩
  · intro id kc he hconn
    exact h.grpc id kc (hsame.entered id kc he hconn) hconn
  · intro hc
    unfold subscriptions
    rw [hsame.registered]
    exact h.idle (hsame.calls ▸ hc)
  · intro call hc
    have hc' : books.server.calls address = some call := hsame.calls ▸ hc
    unfold subscriptions grpcSubsMap
    rw [hsame.registered, hsame.maps call hc']
    exact (h.tracks call hc').noted h.owned hc' hs

/-- Before a step the tables are in step, by the record after it. -/
theorem Kept.before (h : books.Kept address) (hc : books.server.calls address = some call)
    {step : GrpcStep} {st' : GrpcServer}
    (hs : GrpcServer.next pf auth books.server step = some st') {pc : StreamPc}
    (hpc : call.pc = pc) :
    Tracks (books.subscriptions address) (books.grpcSubsMap call) (noted books.startedAs step) call ∧
      InStep (books.subscriptions address) (books.grpcSubsMap call) call.currentSubs pc := by
  have ht := (h.tracks call hc).noted h.owned hc hs
  exact ⟨ht, hpc ▸ ht.inStep⟩

section Own

/-- A step of the stream's own call. -/
theorem Kept.of_own (h : books.Kept address) {step : GrpcStep} {st' : GrpcServer}
    (hs : GrpcServer.next pf auth books.server step = some st') (call' : SubscribeCall)
    (hc : st'.calls address = some call')
    (hgrpc : ∀ id kc, st'.entered id = some kc →
      books.server.entered id = some kc ∨ kc.typeOfConnection = .grpc)
    (ht : Tracks (st'.handler.registeredFor address) (keysOf (st'.maps call'.subsMap))
      (noted books.startedAs step) call') : Kept ⟨st', noted books.startedAs step⟩ address := by
  refine ⟨h.owned.next hs, ?_, ?_, ?_⟩
  · intro id kc he hconn
    exact (hgrpc id kc he).elim (fun he => h.grpc id kc he hconn) fun ht => ht
  · intro hno
    exact absurd (hno.symm.trans hc) (by simp)
  · intro other hother
    obtain rfl : call' = other := Option.some.inj (hc.symm.trans hother)
    exact ht

variable {subs subsMap : Set SubscriptionId} {startedAs : SubscriptionId → Option SubscribeRequest}

theorem Tracks.close (h : Tracks subs subsMap startedAs { call with pc := .reading }) :
    Tracks subs subsMap startedAs { call with pc := .closed } :=
  ⟨h.inStep, h.oneKey, h.current, by simp⟩

/-- The end of the loop's body keeps the tables as they are. -/
theorem endIteration_own (st : GrpcServer) (address : ℕ) (call : SubscribeCall) :
    ∃ pc, (pc = .reading ∨ pc = .closed) ∧
      (st.endIteration address call).calls address = some { call with pc := pc } ∧
      (st.endIteration address call).handler = st.handler ∧
      (st.endIteration address call).maps = st.maps ∧
      (st.endIteration address call).entered = st.entered := by
  unfold GrpcServer.endIteration GrpcServer.leave setCall
  split_ifs
  · exact ⟨.closed, .inr rfl, by simp, rfl, rfl, rfl⟩
  · exact ⟨.reading, .inl rfl, by simp, rfl, rfl, rfl⟩

theorem Kept.endIteration (h : books.Kept address) {step : GrpcStep} {st : GrpcServer}
    (hs : GrpcServer.next pf auth books.server step = some (st.endIteration address call))
    (hent : st.entered = books.server.entered)
    (ht : Tracks (st.handler.registeredFor address) (keysOf (st.maps call.subsMap))
      (noted books.startedAs step) { call with pc := .reading }) :
    Kept ⟨st.endIteration address call, noted books.startedAs step⟩ address := by
  obtain ⟨pc, hpc, hc, hhandler, hmaps, hentered⟩ := endIteration_own st address call
  refine h.of_own hs _ hc (fun id kc he => .inl ?_) ?_
  · rw [← hent, ← hentered]
    exact he
  · rw [hhandler, hmaps]
    rcases hpc with rfl | rfl
    · exact ht
    · exact ht.close

/-- A call that begins has nothing in its tables. -/
theorem Tracks.begin (hsubs : subs = ∅) (hmap : subsMap = ∅) (kc : KuksaChannel) (p stream : ℕ) :
    Tracks subs subsMap startedAs ⟨kc, p, stream, [], none, .reading⟩ := by
  refine ⟨⟨by rw [hsubs, hmap], ?_⟩, by simp [OneKeyEach], by simp, by simp⟩
  rw [hmap]
  simp [idsOf]

theorem Kept.start (h : books.Kept address) {context : ServerContext} {stream : ℕ}
    (haddress : context.address = address) {st' : GrpcServer}
    (hs : GrpcServer.next pf auth books.server (.start context stream) = some st') :
    Kept ⟨st', noted books.startedAs (.start context stream)⟩ address := by
  subst haddress
  obtain ⟨hidle, ⟨kc, p, hk, hp, rfl⟩ | ⟨svc, -, -, -, rfl⟩ | ⟨kc, svc, -, hno, -, -, -, rfl⟩⟩ :=
    start_cases h.owned.svc hs
  · obtain ⟨call, hc⟩ := h.owned.called _ kc hk
    obtain ⟨hkept, hm⟩ := h.owned.kept _ call hc
    obtain rfl : call.kc = kc := Option.some.inj (hkept.symm.trans hk)
    obtain rfl : call.subsMap = p := Option.some.inj (hm.symm.trans hp)
    have hpc : call.pc = .ended := by simpa [GrpcServer.idle, hc] using hidle
    obtain ⟨hsubs, hsubsMap⟩ : books.subscriptions context.address = ∅ ∧
        books.grpcSubsMap call = ∅ := by
      have hin := (h.tracks call hc).inStep
      rw [hpc] at hin
      exact hin
    exact h.of_own hs ⟨call.kc, call.subsMap, stream, [], none, .reading⟩
      (by simp [setCall]) (fun _ _ he => .inl he) (.begin hsubs hsubsMap _ _ _)
  · exact h.of_sameAt hs ⟨rfl, rfl, fun _ _ => rfl, fun _ _ he _ => he⟩
  · have hnone : books.server.calls context.address = none := by
      cases hc : books.server.calls context.address with
      | none => rfl
      | some call => simp [(h.owned.kept _ call hc).1] at hno
    have hsubsMap : keysOf (books.server.maps books.server.svc.nextMap) = ∅ := by
      rw [h.owned.maps _ le_rfl]
      simp [keysOf]
    exact h.of_own hs ⟨kc, books.server.svc.nextMap, stream, [], none, .reading⟩
      (by simp [setCall]) (fun _ _ he => .inl he) (.begin (h.idle hnone) hsubsMap _ _ _)

theorem Kept.register (h : books.Kept address) (hc : books.server.calls address = some call)
    (hpc : call.pc = .reading) {db : VssDatabase} {subId : SubscriptionId}
    (hfresh : books.server.entered subId = none) {r : SubscribeRequest} (hr : r.start = true)
    (hok : KeepsBooks pf books address (.request address db subId r))
    (hs : GrpcServer.next pf auth books.server (.request address db subId r) =
      some (books.server.register pf address db subId r call)) :
    Kept ⟨books.server.register pf address db subId r call,
      noted books.startedAs (.request address db subId r)⟩ address := by
  obtain ⟨ht, hin⟩ := h.before hc hs hpc
  obtain ⟨attr, he | ⟨hperm, haccepted, he⟩⟩ :=
    register_cases pf books.server address db subId r call
  · rw [he] at hs ⊢
    exact h.endIteration hs rfl ⟨hin, ht.oneKey, ht.current, by simp⟩
  · rw [he] at hs ⊢
    have hfree := hok rfl hr call hc haccepted
    obtain ⟨hsubs, hids⟩ := hin
    have hnew : subId ∉ books.grpcSubsMap call := by
      intro hm
      have hid := h.owned.current address call hc subId (.inl (hids ▸ hm))
      simp [hfresh] at hid
    have hconn := (h.owned.channel hc).1
    have htype : call.kc.typeOfConnection = .grpc :=
      (h.owned.svc.channels address call.kc (h.owned.kept address call hc).1).1.resolve_right hperm
    refine h.of_own hs { call with
      attr := attr, pc := .registered (keyOf r) subId } (by simp [setCall]; rfl) ?_ ?_
    · intro id kc hid
      simp only [Function.update_apply] at hid
      split_ifs at hid
      · obtain rfl := Option.some.inj hid
        exact .inr htype
      · exact .inl hid
    · refine ⟨?_, ht.oneKey, ht.current, ?_⟩
      · have henter : (books.server.handler.enter
            ⟨(VSSPath.fromVSS r.path).getVSSPath, attr.getD "value"⟩ subId call.kc).registeredFor
              address = insert subId (books.subscriptions address) := by
          rw [registeredFor_enter (h.owned.fresh hfresh), hconn]
          simp [Set.insert_def, subscriptions, Set.union_def]
        rw [henter]
        exact InStep.register ⟨hsubs, hids⟩ hnew hfree
      · rintro key id (hk | hk)
        · obtain ⟨rfl, rfl⟩ := StreamPc.registered.inj hk
          exact ⟨r, by simp [noted, hr], rfl⟩
        · simp at hk

/-- A stop request for a subscription that is there gives it up. -/
theorem unsubscribeRequest_eq {st : GrpcServer} {r : SubscribeRequest} {id : SubscriptionId}
    (hg : Members.get? (keyOf r) call.currentSubs = some id)
    (hm : id ∈ st.handler.registeredFor address) :
    st.unsubscribeRequest address r call =
      { st.setCall address { call with pc := .unsubscribed (keyOf r) id } with
        handler := (st.handler.unsubscribe id).2
        opened := Function.update st.opened id none } := by
  unfold GrpcServer.unsubscribeRequest
  unfold keyOf at hg
  simp only [hg, unsubscribe_found hm, ↓reduceIte]
  rfl

theorem Kept.unsubscribeRequest (h : books.Kept address)
    (hc : books.server.calls address = some call) (hpc : call.pc = .reading) {db : VssDatabase}
    {subId : SubscriptionId} {r : SubscribeRequest}
    (hs : GrpcServer.next pf auth books.server (.request address db subId r) =
      some (books.server.unsubscribeRequest address r call)) :
    Kept ⟨books.server.unsubscribeRequest address r call,
      noted books.startedAs (.request address db subId r)⟩ address := by
  obtain ⟨ht, hin⟩ := h.before hc hs hpc
  cases hg : Members.get? (keyOf r) call.currentSubs with
  | none =>
    have heq : books.server.unsubscribeRequest address r call =
        books.server.endIteration address call := by
      unfold GrpcServer.unsubscribeRequest
      unfold keyOf at hg
      simp only [hg]
    rw [heq] at hs ⊢
    exact h.endIteration hs rfl ⟨hin, ht.oneKey, ht.current, by simp⟩
  | some id =>
    have hm : id ∈ books.subscriptions address := by
      rw [hin.1, hin.2]
      exact ⟨keyOf r, hg⟩
    rw [unsubscribeRequest_eq hg hm] at hs ⊢
    refine h.of_own hs { call with pc := .unsubscribed (keyOf r) id }
      (by simp [setCall]) (fun _ _ he => .inl he) ⟨?_, ht.oneKey, ht.current, by simp⟩
    rw [registeredFor_unsubscribe]
    exact hin.unsubscribe hg

/-- The steps of the stream's own call keep its tables in step. -/
theorem Kept.next_own (h : books.Kept address) {step : GrpcStep}
    (hown : addressOf step = some address) (hok : KeepsBooks pf books address step)
    {st' : GrpcServer} (hs : GrpcServer.next pf auth books.server step = some st') :
    Kept ⟨st', noted books.startedAs step⟩ address := by
  cases next_effect hs with
  | authorize | refused | subscribe | unsubscribe | publish | forward => simp [addressOf] at hown
  | start _ => exact h.start (Option.some.inj hown) hs
  | @register a call db subId r hc hpc hfresh hr =>
    obtain rfl : a = address := Option.some.inj hown
    exact h.register hc hpc hfresh hr hok hs
  | @unsubscribeRequest a call db subId r hc hpc =>
    obtain rfl : a = address := Option.some.inj hown
    exact h.unsubscribeRequest hc hpc hs
  | @respond a call key id hc hpc =>
    obtain rfl : a = address := Option.some.inj hown
    obtain ⟨ht, hin⟩ := h.before hc hs hpc
    refine h.of_own hs { call with pc := .confirmed key id } (by simp [setCall])
      (fun _ _ he => .inl he) ⟨hin, ht.oneKey, ht.current, ?_⟩
    rintro k i (hk | hk)
    · simp at hk
    · obtain ⟨rfl, rfl⟩ := StreamPc.confirmed.inj hk
      exact ht.working key id (.inl hpc)
  | @insert a call key id hc hpc =>
    obtain rfl : a = address := Option.some.inj hown
    obtain ⟨ht, hin⟩ := h.before hc hs hpc
    refine h.endIteration hs rfl ⟨?_, ?_, ?_, by simp⟩
    · simp only [setMap, Function.update_self, keysOf_assign]
      exact hin.insert
    · exact ht.oneKey.assign (hin.2.2.1 ▸ hin.1)
    · intro k i hk
      rw [Members.get?_assign] at hk
      split_ifs at hk with he
      · obtain rfl := Option.some.inj hk
        rw [he]
        exact ht.working key id (.inr hpc)
      · exact ht.current k i hk
  | @erase a call key id hc hpc =>
    obtain rfl : a = address := Option.some.inj hown
    obtain ⟨ht, hin⟩ := h.before hc hs hpc
    refine h.endIteration hs rfl ⟨?_, ht.oneKey.erase, ?_, by simp⟩
    · simp only [setMap, Function.update_self, keysOf_erase]
      exact hin.erase ht.oneKey
    · intro k i hk
      rw [Members.get?_erase] at hk
      split_ifs at hk
      exact ht.current k i hk
  | @finish a call hc hpc =>
    obtain rfl : a = address := Option.some.inj hown
    obtain ⟨ht, hin⟩ := h.before hc hs hpc
    exact h.of_own hs { call with pc := .closed } (by simp [GrpcServer.leave, setCall])
      (fun _ _ he => .inl he) ⟨hin, ht.oneKey, ht.current, by simp⟩
  | @unsubscribeAll a call hc hpc =>
    obtain rfl : a = address := Option.some.inj hown
    have ht := (h.tracks call hc).noted h.owned hc hs
    have honce := hok rfl call hc
    have hempty := registeredFor_unsubscribeAll honce
    rw [(h.owned.channel hc).1] at hempty
    exact h.of_own hs { call with pc := .cleaning } (by simp [setCall])
      (fun _ _ he => .inl he) ⟨hempty, ht.oneKey, ht.current, by simp⟩
  | @clear a call hc hpc =>
    obtain rfl : a = address := Option.some.inj hown
    obtain ⟨ht, hin⟩ := h.before hc hs hpc
    exact h.of_own hs { call with pc := .ended } (by simp [setCall])
      (fun _ _ he => .inl he)
      ⟨⟨hin, by simp [setMap, setCall, keysOf]⟩, ht.oneKey, ht.current, by simp⟩

end Own

section Runs

/-- An entry that finds no connection is not one of a stream. -/
theorem not_grpc_of_gone {st : GrpcServer} {ck : Clock} {connectionexist : Bool} {n : Notification}
    (h : forwarded pf st ck connectionexist n = .gone) : n.channel.typeOfConnection ≠ .grpc := by
  intro htype
  simp only [forwarded, htype, ↓reduceIte] at h
  repeat' split at h
  all_goals simp at h

theorem Kept.next (h : books.Kept address) {step : GrpcStep}
    (hok : KeepsBooks pf books address step)
    (hnext : StreamBooks.next pf auth books step = some books') :
    books'.Kept address := by
  obtain ⟨st', hs, rfl⟩ := Option.map_eq_some_iff.mp hnext
  cases hcall : addressOf step with
  | some other =>
    by_cases hne : other = address
    · exact h.next_own (hne ▸ hcall) hok hs
    · exact h.of_sameAt hs (sameAt_of_elsewhere h.owned hcall hne hs)
  | none =>
    apply h.of_sameAt hs
    cases next_effect hs with
    | start | register | unsubscribeRequest | respond | insert | erase | finish | unsubscribeAll |
      clear => simp [addressOf] at hcall
    | authorize => exact ⟨rfl, rfl, fun _ _ => rfl, fun _ _ he _ => he⟩
    | refused => exact ⟨rfl, rfl, fun _ _ => rfl, fun _ _ he _ => he⟩
    | @subscribe db subId channel path attr _ hfresh =>
      have hother : channel.connectionID ≠ address := hok
      refine ⟨rfl, ?_, fun _ _ => rfl, ?_⟩
      · rw [registeredFor_enter (h.owned.fresh hfresh)]
        simp [hother]
      · intro id kc hid hconn
        simp only [Function.update_apply] at hid
        split_ifs at hid
        · obtain rfl := Option.some.inj hid
          exact absurd hconn hother
        · exact hid
    | unsubscribe =>
      refine ⟨rfl, ?_, fun _ _ => rfl, fun _ _ he _ => he⟩
      rw [registeredFor_unsubscribe, Set.sdiff_singleton_eq_self]
      exact hok
    | publish => exact ⟨rfl, rfl, fun _ _ => rfl, fun _ _ he _ => he⟩
    | @forward ck connectionexist running n rest hb =>
      refine ⟨rfl, ?_, fun _ _ => rfl, fun _ _ he _ => he⟩
      simp only
      split_ifs with hgone
      · apply registeredFor_unsubscribeAll_of_ne
        intro hconn
        have hent := h.owned.buffer n (by rw [hb]; exact List.mem_cons_self)
        exact not_grpc_of_gone hgone (h.grpc _ _ hent hconn)
      · rfl

/-- The three tables have the same subscriptions. -/
def Agree (books : StreamBooks) (address : ℕ) (call : SubscribeCall) : Prop :=
  books.subscriptions address = books.grpcSubsMap call ∧
    books.grpcSubsMap call = idsOf call.currentSubs

variable (pf auth books address) in
/-- A stop request with the path and the type that a subscription was started with gives it up. -/
def Cancellable (id : SubscriptionId) : Prop :=
  ∃ r, books.startedAs id = some r ∧ ∀ db subId, books.server.entered subId = none →
    ∃ books', next pf auth books (.request address db subId ⟨r.path, r.type, false⟩) =
        some books' ∧ books'.subscriptions address = books.subscriptions address \ {id}

theorem Tracks.cancellable (h : books.Kept address) (hc : books.server.calls address = some call)
    (hpc : call.pc = .reading) {id : SubscriptionId} (hm : id ∈ books.subscriptions address) :
    Cancellable pf auth books address id := by
  have ht := h.tracks call hc
  obtain ⟨hsubs, hids⟩ : Agree books address call := by
    have hin := ht.inStep
    rw [hpc] at hin
    exact hin
  obtain ⟨key, hk⟩ : id ∈ idsOf call.currentSubs := by
    rw [← hids, ← hsubs]
    exact hm
  obtain ⟨r, hr, rfl⟩ := ht.current key id hk
  refine ⟨r, hr, fun db subId hfresh => ?_⟩
  have hstop := unsubscribeRequest_eq (r := ⟨r.path, r.type, false⟩) hk hm
  have hs : GrpcServer.next pf auth books.server (.request address db subId
      ⟨r.path, r.type, false⟩) =
        some (books.server.unsubscribeRequest address ⟨r.path, r.type, false⟩ call) := by
    simp [GrpcServer.next, hc, hpc, hfresh]
  refine ⟨_, by rw [StreamBooks.next, hs, Option.map_some], ?_⟩
  unfold subscriptions
  simp only [hstop, registeredFor_unsubscribe]

/-- In every run whose requests and other clients keep the books, the three tables agree after
each iteration, each subscription can be given up, and in the end none is left. -/
theorem books_kept (pf : Platform) (auth : Authenticator) (address : ℕ) (books : StreamBooks)
    (h : (system pf auth).Reachable (fun b step => KeepsBooks pf b address step) books)
    (call : SubscribeCall) (hc : books.server.calls address = some call) :
    (call.pc = .reading ∨ call.pc = .closed → Agree books address call) ∧
      (call.pc = .reading → ∀ id ∈ books.subscriptions address,
        Cancellable pf auth books address id) ∧
      (call.pc = .cleaning ∨ call.pc = .ended → books.subscriptions address = ∅) := by
  have hkept : books.Kept address := by
    refine h.invariant (I := fun b => b.Kept address) ?_ ?_
    · rintro _ rfl
      refine ⟨?_, by simp, fun _ => ?_, by simp⟩
      · constructor <;>
          simp [SubscriptionHandler.subscriptionsFor, RequestServiceImpl.Sound.start]
      · simp [subscriptions, registeredFor, SubscriptionHandler.subscriptionsFor]
    · intro books step books' hi hok hs
      exact hi.next hok hs
  have hin := (hkept.tracks call hc).inStep
  refine ⟨?_, fun hpc id hm => Tracks.cancellable hkept hc hpc hm, ?_⟩
  · rintro (hpc | hpc)
    · rw [hpc] at hin
      exact hin
    · rw [hpc] at hin
      exact hin
  · rintro (hpc | hpc)
    · rw [hpc] at hin
      exact hin
    · rw [hpc] at hin
      exact hin.1

end Runs

section Again
open VssCommandProcessor StreamSessions

/-- A request to start the speed, answered and entered in the tables. -/
def startSpeed (subId : SubscriptionId) : List GrpcStep :=
  [.request 5 ⟨speedTree, speedTree⟩ subId ⟨"Vehicle.OBD.Speed", .currentValue, true⟩,
    .respond 5, .insert 5]

/-- The stream of a reader starts the speed under each of the numbers. -/
def speedSteps (ids : List SubscriptionId) : List GrpcStep :=
  [.authorize midnight 1 "reader:1" "reader", .start readerContext 3] ++ ids.flatMap startSpeed

/-- A test for the steps of a stream that starts what it has not started. -/
def keepsHere (books : StreamBooks) : GrpcStep → Bool
  | .request a _ _ r => (books.server.calls a).all fun call =>
      (Members.get? (keyOf r) call.currentSubs).isNone
  | .authorize .. | .start .. | .respond _ | .insert _ => true
  | _ => false

theorem keepsBooks_of_here (pf : Platform) (address : ℕ) (books : StreamBooks) (step : GrpcStep)
    (h : keepsHere books step = true) : KeepsBooks pf books address step := by
  cases step with
  | request a db subId r =>
    intro _ _ call hc _
    simpa [keepsHere, hc] using h
  | authorize | start | respond | insert => trivial
  | _ => simp [keepsHere] at h

theorem books_kept_speed : ∃ books call,
    TransitionSystem.exec (next tokenPlatform ⟨"key"⟩) {} (speedSteps [7]) = some books ∧
      books.server.calls 5 = some call ∧ Agree books 5 call := by
  have hrun : (TransitionSystem.exec (next tokenPlatform ⟨"key"⟩) {} (speedSteps [7])).bind
      (fun books => (books.server.calls 5).map SubscribeCall.pc) = some .reading := by
    decide +kernel
  obtain ⟨books, hbooks, hcall⟩ := Option.bind_eq_some_iff.mp hrun
  obtain ⟨call, hc, hpc⟩ := Option.map_eq_some_iff.mp hcall
  have hreach := TransitionSystem.reachable_of_admits
    (keepsBooks_of_here tokenPlatform 5) (speedSteps [7]) (.init rfl) (by decide +kernel) hbooks
  exact ⟨books, call, hbooks, hc,
    (books_kept tokenPlatform ⟨"key"⟩ 5 books hreach call hc).1 (.inl hpc)⟩

/-- The speed is started again: its first subscription is not in the local table any more. -/
theorem started_again : ¬ ∀ (pf : Platform) (auth : Authenticator) (address : ℕ)
    (books : StreamBooks), (system pf auth).Reachable TransitionSystem.Any books → ∀ call,
      books.server.calls address = some call → call.pc = .reading → Agree books address call := by
  intro h
  have hrun : (TransitionSystem.exec (next tokenPlatform ⟨"key"⟩) {} (speedSteps [7, 8])).bind
      (fun books => (books.server.calls 5).map fun call =>
        (call.pc, call.currentSubs, books.server.maps call.subsMap)) =
          some (.reading, [(⟨"Vehicle.OBD.Speed", "value"⟩, 8)], [(7, 3), (8, 3)]) := by
    decide +kernel
  obtain ⟨books, hbooks, hcall⟩ := Option.bind_eq_some_iff.mp hrun
  obtain ⟨call, hc, hcall⟩ := Option.map_eq_some_iff.mp hcall
  simp only [Prod.mk.injEq] at hcall
  obtain ⟨hpc, hcurrent, hmap⟩ := hcall
  have hreach : (system tokenPlatform ⟨"key"⟩).Reachable TransitionSystem.Any books :=
    TransitionSystem.reachable_of_exec (speedSteps [7, 8]) (.init rfl) (fun _ _ _ => trivial) hbooks
  have hagree := h tokenPlatform ⟨"key"⟩ 5 books hreach call hc hpc
  have hseven : 7 ∈ idsOf call.currentSubs := by
    rw [← hagree.2, grpcSubsMap, hmap]
    simp [keysOf, Members.get?_cons]
  rw [hcurrent] at hseven
  obtain ⟨key, hk⟩ := hseven
  rw [Members.get?_cons] at hk
  split_ifs at hk <;> simp at hk

end Again

end StreamBooks
