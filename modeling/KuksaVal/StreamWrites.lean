import KuksaVal.GrpcStreams

/-! What is owed to a stream is written to it, where no entry is taken before the stream is in
the map and none is left when it is taken out. -/
namespace GrpcServer
open RequestServiceImpl SubscriptionHandler

/-- The entries of the buffer, each with the stream that it is owed to. -/
def queue (st : GrpcServer) : List (Notification × Option ℕ) := st.handler.buffer.zip st.owed

variable (pf : Platform)

/-- An entry that is owed to a stream is taken once the stream is in the map, and can be
converted; and a stream is taken out of the map when nothing owed to it waits. -/
def KeepsOwed (st : GrpcServer) : GrpcStep → Prop
  | .forward ck _ => ∀ n stream, st.queue.head? = some (n, some stream) →
      (∀ call key, st.calls n.channel.connectionID = some call →
        call.pc ≠ .confirmed key n.subscriptionId) ∧ Sendable pf ck n
  | .erase address => ∀ call key id, st.calls address = some call → call.pc = .unsubscribed key id →
      ∀ n stream, (n, some stream) ∈ st.queue → n.subscriptionId ≠ id
  | .clear address => ∀ call, st.calls address = some call →
      ∀ n stream, (n, some stream) ∈ st.queue → n.channel.grpcSubsMap ≠ some call.subsMap
  | _ => True

/-- The handler has not left its loop. -/
def Reads (pc : StreamPc) : Prop := pc ≠ .closed ∧ pc ≠ .cleaning ∧ pc ≠ .ended

/-- What holds of the number that a handler works on. -/
def PcSound (st : GrpcServer) (call : SubscribeCall) : StreamPc → Prop
  | .registered _ id => st.entered id = some call.kc ∧
      Members.get? id (st.maps call.subsMap) = none ∧ st.opened id = none
  | .confirmed _ id => st.entered id = some call.kc ∧
      Members.get? id (st.maps call.subsMap) = none
  | .unsubscribed _ id => st.entered id = some call.kc ∧ st.opened id = none
  | _ => True

/-- A call and its own map, its own subscriptions and what is owed through its map. -/
structure Local (st : GrpcServer) (address : ℕ) (call : SubscribeCall) : Prop where
  kept : st.svc.grpcSubscribeSessionMap address = some call.kc
  map : call.kc.grpcSubsMap = some call.subsMap
  current : ∀ key id, Members.get? key call.currentSubs = some id → st.entered id = some call.kc
  pc : PcSound st call call.pc
  opened : ∀ id o, st.opened id = some o → st.entered id = some call.kc →
    o = (address, call.stream) ∧ Reads call.pc ∧
      (Members.get? id (st.maps call.subsMap) = some call.stream ∨
        ∃ key, call.pc = .confirmed key id)
  queued : ∀ n stream, (n, some stream) ∈ st.queue → n.channel.grpcSubsMap = some call.subsMap →
    Members.get? n.subscriptionId (st.maps call.subsMap) = some stream ∨
      stream = call.stream ∧ ∃ key, call.pc = .confirmed key n.subscriptionId

/-- The calls, the tables and the queue fit together, and what was owed was written. -/
structure Served (st : GrpcServer) : Prop where
  length : st.owed.length = st.handler.buffer.length
  svc : st.svc.Sound
  called : ∀ address kc, st.svc.grpcSubscribeSessionMap address = some kc →
    ∃ call, st.calls address = some call
  calls : ∀ address call, st.calls address = some call → st.Local address call
  table : ∀ key, ∀ sub ∈ st.handler.subscriptionsFor key, st.entered sub.1 = some sub.2
  entered : ∀ id kc p, st.entered id = some kc → kc.grpcSubsMap = some p →
    kc.typeOfConnection = .grpc ∧ ∃ address, st.svc.grpcSubscribeSessionMap address = some kc
  mapped : ∀ p id stream, Members.get? id (st.maps p) = some stream →
    ∃ kc, st.entered id = some kc ∧ kc.grpcSubsMap = some p
  opened : ∀ id o, st.opened id = some o → ∃ kc p, st.entered id = some kc ∧ kc.grpcSubsMap = some p
  owed : ∀ n stream, (n, some stream) ∈ st.queue →
    st.entered n.subscriptionId = some n.channel ∧ ∃ p, n.channel.grpcSubsMap = some p
  outcomes : ∀ o ∈ st.outcomes, ∀ stream, o.owed = some stream →
    ∃ value, o.result = .written stream value

variable {pf} {auth : Authenticator} {st st' : GrpcServer}

/-- The steps of others leave a call alone. -/
theorem Local.frame {address : ℕ} {call : SubscribeCall} (h : st.Local address call)
    (hsvc : st'.svc.grpcSubscribeSessionMap address = some call.kc)
    (hent : ∀ id, st.entered id = some call.kc → st'.entered id = some call.kc)
    (hnew : ∀ id, st'.entered id = some call.kc → st.entered id = some call.kc)
    (hmaps : st'.maps call.subsMap = st.maps call.subsMap)
    (hopened : ∀ id o, st.entered id = some call.kc → st'.opened id = some o →
      st.opened id = some o)
    (hqueue : ∀ n stream, (n, some stream) ∈ st'.queue →
      n.channel.grpcSubsMap = some call.subsMap → (n, some stream) ∈ st.queue) :
    st'.Local address call := by
  have hnone (id : SubscriptionId) (he : st.entered id = some call.kc)
      (hn : st.opened id = none) : st'.opened id = none := by
    cases ho : st'.opened id with
    | none => rfl
    | some o => exact absurd (hopened id o he ho) (by simp [hn])
  refine ⟨hsvc, h.map, fun key id hg => hent id (h.current key id hg), ?_, ?_, ?_⟩
  · have hpc := h.pc
    unfold PcSound at hpc ⊢
    split at hpc
    · obtain ⟨he, hg, ho⟩ := hpc
      exact ⟨hent _ he, by rw [hmaps, hg], hnone _ he ho⟩
    · obtain ⟨he, hg⟩ := hpc
      exact ⟨hent _ he, by rw [hmaps, hg]⟩
    · obtain ⟨he, ho⟩ := hpc
      exact ⟨hent _ he, hnone _ he ho⟩
    · trivial
  · intro id o ho he
    rw [hmaps]
    exact h.opened id o (hopened id o (hnew id he) ho) (hnew id he)
  · intro n stream hn hp
    rw [hmaps]
    exact h.queued n stream (hqueue n stream hn hp) hp

/-- A channel with the map of a call is the channel of the call. -/
theorem Served.owner (h : st.Served) {address : ℕ} {call : SubscribeCall}
    (hc : st.calls address = some call) {id : SubscriptionId} {kc : KuksaChannel}
    (he : st.entered id = some kc) (hp : kc.grpcSubsMap = some call.subsMap) : kc = call.kc := by
  have hl := h.calls address call hc
  obtain ⟨-, other, hk⟩ := h.entered id kc call.subsMap he hp
  obtain rfl := h.svc.maps other address kc call.kc hk hl.kept (hp.trans hl.map.symm)
  exact Option.some.inj (hk.symm.trans hl.kept)

/-- Two calls have two maps. -/
theorem Served.separate (h : st.Served) {a b : ℕ} {call call' : SubscribeCall}
    (ha : st.calls a = some call) (hb : st.calls b = some call') (hne : a ≠ b) :
    call.subsMap ≠ call'.subsMap ∧ call.kc ≠ call'.kc := by
  have hla := h.calls a call ha
  have hlb := h.calls b call' hb
  have hmaps : call.kc.grpcSubsMap ≠ call'.kc.grpcSubsMap := fun heq =>
    hne (h.svc.maps a b call.kc call'.kc hla.kept hlb.kept heq)
  constructor
  · intro heq
    apply hmaps
    rw [hla.map, hlb.map, heq]
  · intro heq
    exact hmaps (congrArg KuksaChannel.grpcSubsMap heq)

/-- A step of a call concerns its own map and its own subscriptions. -/
theorem Served.of_call (h : st.Served) {address : ℕ} {call : SubscribeCall}
    (hc : st.calls address = some call) (call' : SubscribeCall) (handler : SubscriptionHandler)
    (maps : ℕ → List (SubscriptionId × ℕ)) (entered : SubscriptionId → Option KuksaChannel)
    (opened : SubscriptionId → Option (ℕ × ℕ)) (hbuffer : handler.buffer = st.handler.buffer)
    (hent : ∀ id kc, st.entered id = some kc → entered id = some kc)
    (hnew : ∀ id kc, entered id = some kc →
      st.entered id = some kc ∨ kc = call.kc ∧ kc.typeOfConnection = .grpc)
    (hmaps : ∀ p, p ≠ call.subsMap → maps p = st.maps p)
    (hmapped : ∀ id stream, Members.get? id (maps call.subsMap) = some stream →
      entered id = some call.kc)
    (hopened : ∀ id o, opened id = some o → st.opened id = some o ∨ entered id = some call.kc)
    (htable : ∀ key, ∀ sub ∈ handler.subscriptionsFor key, entered sub.1 = some sub.2)
    (hlocal : Local { st with
      handler := handler, maps := maps, entered := entered, opened := opened,
      calls := Function.update st.calls address (some call') } address call') :
    Served { st with
      handler := handler, maps := maps, entered := entered, opened := opened,
      calls := Function.update st.calls address (some call') } := by
  have hl := h.calls address call hc
  have hqueue : handler.buffer.zip st.owed = st.queue := by rw [hbuffer, queue]
  refine ⟨?_, h.svc, ?_, ?_, htable, ?_, ?_, ?_, ?_, h.outcomes⟩
  · rw [hbuffer]
    exact h.length
  · intro b kc hk
    simp only [Function.update_apply]
    split_ifs
    · exact ⟨call', rfl⟩
    · exact h.called b kc hk
  · intro b callb hb
    simp only [Function.update_apply] at hb
    split_ifs at hb with hba
    · obtain rfl := Option.some.inj hb
      exact hba ▸ hlocal
    · obtain ⟨hmne, hkne⟩ := h.separate hb hc hba
      refine (h.calls b callb hb).frame (h.calls b callb hb).kept (fun id => hent id _) ?_
        (hmaps _ hmne) ?_ ?_
      · intro id he
        rcases hnew id _ he with he | ⟨heq, -⟩
        · exact he
        · exact absurd heq hkne
      · intro id o he ho
        rcases hopened id o ho with ho | he'
        · exact ho
        · exact absurd (Option.some.inj ((hent id _ he).symm.trans he')) hkne
      · intro n stream hn _
        exact hqueue ▸ hn
  · intro id kc p he hp
    rcases hnew id kc he with he | ⟨rfl, htype⟩
    · exact h.entered id kc p he hp
    · exact ⟨htype, address, hl.kept⟩
  · intro p id stream hg
    by_cases hp : p = call.subsMap
    · subst hp
      exact ⟨call.kc, hmapped id stream hg, hl.map⟩
    · replace hg : Members.get? id (maps p) = some stream := hg
      rw [hmaps p hp] at hg
      obtain ⟨kc, he, hk⟩ := h.mapped p id stream hg
      exact ⟨kc, hent id kc he, hk⟩
  · intro id o ho
    rcases hopened id o ho with ho | he
    · obtain ⟨kc, p, he, hp⟩ := h.opened id o ho
      exact ⟨kc, p, hent id kc he, hp⟩
    · exact ⟨call.kc, call.subsMap, he, hl.map⟩
  · intro n stream hn
    obtain ⟨he, hp⟩ := h.owed n stream (hqueue ▸ hn)
    exact ⟨hent _ _ he, hp⟩

/-- A step of others leaves the calls and their maps alone, and nothing is owed by it. -/
theorem Served.of_other (h : st.Served) (hcalls : st'.calls = st.calls) (hmaps : st'.maps = st.maps)
    (hlength : st'.owed.length = st'.handler.buffer.length) (hsound : st'.svc.Sound)
    (hsvc : st'.svc.grpcSubscribeSessionMap = st.svc.grpcSubscribeSessionMap)
    (htable : ∀ key, ∀ sub ∈ st'.handler.subscriptionsFor key, st'.entered sub.1 = some sub.2)
    (hent : ∀ id kc, st.entered id = some kc → st'.entered id = some kc)
    (hnew : ∀ id kc, st'.entered id = some kc → st.entered id = some kc ∨ kc.grpcSubsMap = none)
    (hopened : ∀ id o, st'.opened id = some o → st.opened id = some o)
    (hqueue : ∀ n stream, (n, some stream) ∈ st'.queue → (n, some stream) ∈ st.queue)
    (houtcomes : ∀ o ∈ st'.outcomes, ∀ stream, o.owed = some stream →
      ∃ value, o.result = .written stream value) : st'.Served := by
  refine ⟨hlength, hsound, ?_, ?_, htable, ?_, ?_, ?_, ?_, houtcomes⟩
  · intro address kc hk
    rw [hcalls]
    exact h.called address kc (hsvc ▸ hk)
  · intro address call hc
    rw [hcalls] at hc
    have hl := h.calls address call hc
    refine hl.frame (hsvc ▸ hl.kept) (fun id => hent id _) ?_ (by rw [hmaps])
      (fun id o _ => hopened id o) fun n stream hn _ => hqueue n stream hn
    intro id he
    rcases hnew id _ he with he | hnone
    · exact he
    · simp [hl.map] at hnone
  · intro id kc p he hp
    rw [hsvc]
    rcases hnew id kc he with he | hnone
    · exact h.entered id kc p he hp
    · simp [hp] at hnone
  · intro p id stream hg
    rw [hmaps] at hg
    obtain ⟨kc, he, hp⟩ := h.mapped p id stream hg
    exact ⟨kc, hent id kc he, hp⟩
  · intro id o ho
    obtain ⟨kc, p, he, hp⟩ := h.opened id o (hopened id o ho)
    exact ⟨kc, p, hent id kc he, hp⟩
  · intro n stream hn
    obtain ⟨he, hp⟩ := h.owed n stream (hqueue n stream hn)
    exact ⟨hent _ _ he, hp⟩

section Calls

variable {address : ℕ} {call : SubscribeCall}

/-- Through a handler that is not about to enter the map, everything owed is in the map. -/
theorem Local.in_map (h : st.Local address call) (hpc : ∀ key id, call.pc ≠ .confirmed key id) :
    (∀ id o, st.opened id = some o → st.entered id = some call.kc →
      o = (address, call.stream) ∧ Reads call.pc ∧
        Members.get? id (st.maps call.subsMap) = some call.stream) ∧
    ∀ n stream, (n, some stream) ∈ st.queue → n.channel.grpcSubsMap = some call.subsMap →
      Members.get? n.subscriptionId (st.maps call.subsMap) = some stream := by
  constructor
  · intro id o ho he
    obtain ⟨heq, hr, hg | ⟨key, hk⟩⟩ := h.opened id o ho he
    · exact ⟨heq, hr, hg⟩
    · exact absurd hk (hpc key id)
  · intro n stream hn hp
    rcases h.queued n stream hn hp with hg | ⟨-, key, hk⟩
    · exact hg
    · exact absurd hk (hpc key _)

theorem Served.mapped_own (h : st.Served) (hc : st.calls address = some call) (id : SubscriptionId)
    (stream : ℕ) (hg : Members.get? id (st.maps call.subsMap) = some stream) :
    st.entered id = some call.kc := by
  obtain ⟨kc, he, hp⟩ := h.mapped call.subsMap id stream hg
  rw [he, h.owner hc he hp]

/-- A handler that leaves its loop closes its subscriptions. -/
theorem Served.leave (h : st.Served) (hc : st.calls address = some call)
    (hpc : call.pc = .reading) : (st.leave address call).Served := by
  have hl := h.calls address call hc
  obtain ⟨hopen, hqueue⟩ := hl.in_map (by simp [hpc])
  refine h.of_call hc { call with pc := .closed } st.handler st.maps st.entered
    (fun id => (st.opened id).filter fun o => decide (o.1 ≠ address)) rfl (fun _ _ he => he)
    (fun _ _ he => .inl he) (fun _ _ => rfl) (h.mapped_own hc)
    (fun id o ho => .inl (Option.filter_eq_some_iff.mp ho).1) h.table ?_
  refine ⟨hl.kept, hl.map, hl.current, trivial, ?_,
    fun n stream hn hp => .inl (hqueue n stream hn hp)⟩
  intro id o ho he
  obtain ⟨ho, hne⟩ := Option.filter_eq_some_iff.mp ho
  obtain ⟨rfl, -⟩ := hopen id o ho he
  simp at hne

theorem leave_setCall (st : GrpcServer) (address : ℕ) (call call' : SubscribeCall) :
    (st.setCall address call').leave address call = st.leave address call := by
  simp [GrpcServer.leave, setCall]

/-- The body of the loop ends as a call that reads on, or leaves. -/
theorem Served.endIteration (h : (st.setCall address { call with pc := .reading }).Served) :
    (st.endIteration address call).Served := by
  unfold GrpcServer.endIteration
  split_ifs
  · have hc : (st.setCall address { call with pc := .reading }).calls address =
        some { call with pc := .reading } := by simp [setCall]
    have hl := h.leave hc rfl
    rw [leave_setCall] at hl
    exact hl
  · exact h

/-- A call that goes on in its loop with nothing changed but what it has read. -/
theorem Served.read_on (h : st.Served) (hc : st.calls address = some call)
    (hpc : call.pc = .reading) (attr : Option String) :
    (st.setCall address { call with attr := attr, pc := .reading }).Served := by
  have hl := h.calls address call hc
  refine h.of_call hc { call with attr := attr, pc := .reading } st.handler st.maps st.entered
    st.opened rfl (fun _ _ he => he) (fun _ _ he => .inl he) (fun _ _ => rfl) (h.mapped_own hc)
    (fun _ _ ho => .inl ho) h.table ?_
  obtain ⟨hopen, hqueue⟩ := hl.in_map (by simp [hpc])
  refine ⟨hl.kept, hl.map, hl.current, trivial, ?_,
    fun n stream hn hp => .inl (hqueue n stream hn hp)⟩
  intro id o ho he
  obtain ⟨heq, -, hg⟩ := hopen id o ho he
  exact ⟨heq, by simp [Reads], .inl hg⟩

/-- The table after a subscription whose number is new. -/
theorem table_enter {handler : SubscriptionHandler} {entered : SubscriptionId → Option KuksaChannel}
    (h : ∀ key, ∀ sub ∈ handler.subscriptionsFor key, entered sub.1 = some sub.2)
    {id : SubscriptionId} (hfresh : entered id = none) (key : SubscriptionKey)
    (channel : KuksaChannel) : ∀ k, ∀ sub ∈ (handler.enter key id channel).subscriptionsFor k,
      Function.update entered id (some channel) sub.1 = some sub.2 := by
  have hold (k : SubscriptionKey) (sub : SubscriptionId × KuksaChannel)
      (hm : sub ∈ handler.subscriptionsFor k) :
      Function.update entered id (some channel) sub.1 = some sub.2 := by
    have he := h k sub hm
    have hne : sub.1 ≠ id := by
      rintro rfl
      simp [hfresh] at he
    simp [hne, he]
  intro k sub hm
  rw [subscriptionsFor_enter] at hm
  split_ifs at hm
  · rcases Members.mem_assign hm with rfl | hm
    · simp
    · exact hold key sub hm
  · exact hold k sub hm

theorem entered_update {entered : SubscriptionId → Option KuksaChannel} {subId : SubscriptionId}
    (hfresh : entered subId = none) (channel : KuksaChannel) (id : SubscriptionId)
    (kc : KuksaChannel) (h : entered id = some kc) :
    Function.update entered subId (some channel) id = some kc := by
  have hne : id ≠ subId := by
    rintro rfl
    simp [hfresh] at h
  simp [hne, h]

theorem Served.register (h : st.Served) (hc : st.calls address = some call)
    (hpc : call.pc = .reading) (db : VssDatabase) {subId : SubscriptionId}
    (hfresh : st.entered subId = none) (r : SubscribeRequest) :
    (st.register pf address db subId r call).Served := by
  have hl := h.calls address call hc
  obtain ⟨hopen, hqueue⟩ := hl.in_map (by simp [hpc])
  obtain ⟨attr, he | ⟨hperm, -, he⟩⟩ := register_cases pf st address db subId r call
  · rw [he]
    exact Served.endIteration (h.read_on hc hpc attr)
  · rw [he]
    have htype : call.kc.typeOfConnection = .grpc :=
      (h.svc.channels address call.kc hl.kept).1.resolve_right hperm
    have hent := entered_update hfresh call.kc
    refine h.of_call hc _ _ st.maps _ st.opened rfl hent ?_ (fun _ _ => rfl) ?_
      (fun _ _ ho => .inl ho) (table_enter h.table hfresh _ _) ?_
    · intro id kc hid
      by_cases hne : id = subId
      · subst hne
        obtain rfl : call.kc = kc := by simpa using hid
        exact .inr ⟨rfl, htype⟩
      · exact .inl (by simpa [hne] using hid)
    · exact fun id stream hg => hent id _ (h.mapped_own hc id stream hg)
    · refine ⟨hl.kept, hl.map, fun key id hg => hent id _ (hl.current key id hg), ?_, ?_,
        fun n stream hn hp => .inl (hqueue n stream hn hp)⟩
      · refine ⟨by simp, ?_, ?_⟩
        · cases hg : Members.get? subId (st.maps call.subsMap) with
          | none => rfl
          | some stream =>
            have hid := h.mapped_own hc subId stream hg
            simp [hfresh] at hid
        · cases ho : st.opened subId with
          | none => rfl
          | some o =>
            obtain ⟨_, _, hid, -⟩ := h.opened subId o ho
            simp [hfresh] at hid
      · intro id o ho hid
        have hne : id ≠ subId := by
          rintro rfl
          obtain ⟨_, _, hid, -⟩ := h.opened id o ho
          simp [hfresh] at hid
        obtain ⟨heq, -, hg⟩ := hopen id o ho (by simpa [hne] using hid)
        exact ⟨heq, by simp [Reads], .inl hg⟩

theorem table_unsubscribe {handler : SubscriptionHandler}
    {entered : SubscriptionId → Option KuksaChannel}
    (h : ∀ key, ∀ sub ∈ handler.subscriptionsFor key, entered sub.1 = some sub.2)
    (id : SubscriptionId) : ∀ key, ∀ sub ∈ (handler.unsubscribe id).2.subscriptionsFor key,
      entered sub.1 = some sub.2 := by
  intro key sub hm
  rw [subscriptionsFor_unsubscribe] at hm
  exact h key sub (List.mem_filter.mp hm).1

theorem table_unsubscribeAll {handler : SubscriptionHandler}
    {entered : SubscriptionId → Option KuksaChannel}
    (h : ∀ key, ∀ sub ∈ handler.subscriptionsFor key, entered sub.1 = some sub.2)
    (channel : KuksaChannel) : ∀ key, ∀ sub ∈ (handler.unsubscribeAll channel).subscriptionsFor key,
      entered sub.1 = some sub.2 := by
  intro key sub hm
  rw [subscriptionsFor_unsubscribeAll] at hm
  exact h key sub (List.mem_of_mem_eraseP hm)

theorem update_none_le {α : Type*} {f : SubscriptionId → Option α} {id' id : SubscriptionId} {o : α}
    (h : Function.update f id' none id = some o) : id ≠ id' ∧ f id = some o := by
  by_cases hne : id = id'
  · subst hne
    simp at h
  · exact ⟨hne, by simpa [hne] using h⟩

theorem Served.unsubscribeRequest (h : st.Served) (hc : st.calls address = some call)
    (hpc : call.pc = .reading) (r : SubscribeRequest) :
    (st.unsubscribeRequest address r call).Served := by
  have hl := h.calls address call hc
  obtain ⟨hopen, hqueue⟩ := hl.in_map (by simp [hpc])
  obtain he | ⟨id, hg, hend⟩ := unsubscribeRequest_cases st address r call
  · rw [he]
    exact Served.endIteration (h.read_on hc hpc call.attr)
  · have hstep (call' : SubscribeCall) (hlocal : Local { st with
        handler := (st.handler.unsubscribe id).2, opened := Function.update st.opened id none,
        calls := Function.update st.calls address (some call') } address call') :=
      h.of_call hc call' (st.handler.unsubscribe id).2 st.maps st.entered
        (Function.update st.opened id none) rfl (fun _ _ he => he) (fun _ _ he => .inl he)
        (fun _ _ => rfl) (h.mapped_own hc) (fun _ _ ho => .inl (update_none_le ho).2)
        (table_unsubscribe h.table id) hlocal
    have hopen' (pc : StreamPc) (hreads : Reads pc) (id' : SubscriptionId) (o : ℕ × ℕ)
        (ho : Function.update st.opened id none id' = some o) (he : st.entered id' = some call.kc) :
        o = (address, call.stream) ∧ Reads pc ∧
          (Members.get? id' (st.maps call.subsMap) = some call.stream ∨
            ∃ key, pc = .confirmed key id') := by
      obtain ⟨heq, -, hg⟩ := hopen id' o (update_none_le ho).2 he
      exact ⟨heq, hreads, .inl hg⟩
    rcases hend with he | he
    · rw [he]
      apply hstep
      exact ⟨hl.kept, hl.map, hl.current, ⟨hl.current _ id hg, by simp⟩,
        hopen' _ (by simp [Reads]), fun n stream hn hp => .inl (hqueue n stream hn hp)⟩
    · rw [he]
      apply Served.endIteration
      apply hstep
      exact ⟨hl.kept, hl.map, hl.current, trivial,
        hopen' _ (by simp [Reads]), fun n stream hn hp => .inl (hqueue n stream hn hp)⟩

/-- The 200 response opens the subscription. -/
theorem Served.respond (h : st.Served) (hc : st.calls address = some call) {key : SubscriptionKey}
    {id : SubscriptionId} (hpc : call.pc = .registered key id) :
    Served { st.setCall address { call with pc := .confirmed key id } with
      opened := Function.update st.opened id (some (address, call.stream)) } := by
  have hl := h.calls address call hc
  obtain ⟨hopen, hqueue⟩ := hl.in_map (by simp [hpc])
  obtain ⟨hid, hg, -⟩ : st.entered id = some call.kc ∧
      Members.get? id (st.maps call.subsMap) = none ∧ st.opened id = none := by
    have hs := hl.pc
    rw [hpc] at hs
    exact hs
  refine h.of_call hc { call with pc := .confirmed key id } st.handler st.maps st.entered
    (Function.update st.opened id (some (address, call.stream))) rfl (fun _ _ he => he)
    (fun _ _ he => .inl he) (fun _ _ => rfl) (h.mapped_own hc) ?_ h.table ?_
  · intro id' o ho
    by_cases hne : id' = id
    · subst hne
      exact .inr hid
    · exact .inl (by simpa [hne] using ho)
  · refine ⟨hl.kept, hl.map, hl.current, ⟨hid, hg⟩, ?_,
      fun n stream hn hp => .inl (hqueue n stream hn hp)⟩
    intro id' o ho he
    by_cases hne : id' = id
    · subst hne
      obtain rfl : (address, call.stream) = o := by simpa using ho
      exact ⟨rfl, by simp [Reads], .inr ⟨key, rfl⟩⟩
    · obtain ⟨heq, -, hg'⟩ := hopen id' o (by simpa [hne] using ho) he
      exact ⟨heq, by simp [Reads], .inl hg'⟩

/-- The stream enters the map, with all that is owed to it meanwhile. -/
theorem Served.insert (h : st.Served) (hc : st.calls address = some call) {key : SubscriptionKey}
    {id : SubscriptionId} (hpc : call.pc = .confirmed key id) :
    (GrpcServer.endIteration
      (st.setMap call.subsMap (Members.assign id call.stream (st.maps call.subsMap)))
      address { call with currentSubs := Members.assign key id call.currentSubs }).Served := by
  have hl := h.calls address call hc
  obtain ⟨hid, hnone⟩ : st.entered id = some call.kc ∧
      Members.get? id (st.maps call.subsMap) = none := by
    have hs := hl.pc
    rw [hpc] at hs
    exact hs
  -- What was in the map stays there, and what waited for this step now is.
  have hin (id' : SubscriptionId) (stream : ℕ)
      (hg : Members.get? id' (st.maps call.subsMap) = some stream ∨
        stream = call.stream ∧ ∃ key, call.pc = .confirmed key id') :
      Members.get? id' (Members.assign id call.stream (st.maps call.subsMap)) = some stream := by
    rw [Members.get?_assign]
    rcases hg with hg | ⟨rfl, key', hk⟩
    · have hne : id' ≠ id := by
        rintro rfl
        simp [hnone] at hg
      simp [hne, hg]
    · obtain ⟨-, rfl⟩ := StreamPc.confirmed.inj (hpc.symm.trans hk)
      simp
  apply Served.endIteration
  refine h.of_call hc { call with
      currentSubs := Members.assign key id call.currentSubs, pc := .reading } st.handler
    (Function.update st.maps call.subsMap
      (Members.assign id call.stream (st.maps call.subsMap))) st.entered st.opened rfl
    (fun _ _ he => he) (fun _ _ he => .inl he) (fun p hp => by simp [hp]) ?_
    (fun _ _ ho => .inl ho) h.table ?_
  · intro id' stream hg
    simp only [Function.update_self, Members.get?_assign] at hg
    split_ifs at hg with hne
    · exact hne ▸ hid
    · exact h.mapped_own hc id' stream hg
  · refine ⟨hl.kept, hl.map, ?_, trivial, ?_, ?_⟩
    · intro key' id' hg
      rw [Members.get?_assign] at hg
      split_ifs at hg
      · obtain rfl := Option.some.inj hg
        exact hid
      · exact hl.current key' id' hg
    · intro id' o ho he
      obtain ⟨heq, -, hg⟩ := hl.opened id' o ho he
      refine ⟨heq, by simp [Reads], .inl ?_⟩
      simp only [Function.update_self]
      exact hin id' call.stream (hg.imp_right fun hk => ⟨rfl, hk⟩)
    · intro n stream hn hp
      left
      simp only [Function.update_self]
      exact hin n.subscriptionId stream (hl.queued n stream hn hp)

/-- The stream is taken out of the map, when nothing is owed to it. -/
theorem Served.erase (h : st.Served) (hc : st.calls address = some call) {key : SubscriptionKey}
    {id : SubscriptionId} (hpc : call.pc = .unsubscribed key id)
    (hok : ∀ n stream, (n, some stream) ∈ st.queue → n.subscriptionId ≠ id) :
    (GrpcServer.endIteration (st.setMap call.subsMap (Members.erase id (st.maps call.subsMap)))
      address { call with currentSubs := Members.erase key call.currentSubs }).Served := by
  have hl := h.calls address call hc
  obtain ⟨hopen, hqueue⟩ := hl.in_map (by simp [hpc])
  have hclosed : st.opened id = none := by
    have hs := hl.pc
    rw [hpc] at hs
    exact hs.2
  apply Served.endIteration
  refine h.of_call hc { call with
      currentSubs := Members.erase key call.currentSubs, pc := .reading } st.handler
    (Function.update st.maps call.subsMap (Members.erase id (st.maps call.subsMap))) st.entered
    st.opened rfl (fun _ _ he => he) (fun _ _ he => .inl he) (fun p hp => by simp [hp]) ?_
    (fun _ _ ho => .inl ho) h.table ?_
  · intro id' stream hg
    simp only [Function.update_self, Members.get?_erase] at hg
    split_ifs at hg
    exact h.mapped_own hc id' stream hg
  · refine ⟨hl.kept, hl.map, ?_, trivial, ?_, ?_⟩
    · intro key' id' hg
      rw [Members.get?_erase] at hg
      split_ifs at hg
      exact hl.current key' id' hg
    · intro id' o ho he
      have hne : id' ≠ id := by
        rintro rfl
        simp [hclosed] at ho
      obtain ⟨heq, -, hg⟩ := hopen id' o ho he
      exact ⟨heq, by simp [Reads], .inl (by simp [hne, hg])⟩
    · intro n stream hn hp
      left
      simp [hok n stream hn, hqueue n stream hn hp]

/-- A handler that has left its loop has no open subscription. -/
theorem Local.closed (h : st.Local address call) (hpc : ¬ Reads call.pc) :
    ∀ id o, st.opened id = some o → st.entered id ≠ some call.kc := by
  intro id o ho he
  exact hpc (h.opened id o ho he).2.1

theorem Served.unsubscribeAll (h : st.Served) (hc : st.calls address = some call)
    (hpc : call.pc = .closed) :
    Served { st.setCall address { call with pc := .cleaning } with
      handler := st.handler.unsubscribeAll call.kc } := by
  have hl := h.calls address call hc
  obtain ⟨-, hqueue⟩ := hl.in_map (by simp [hpc])
  have hclosed := hl.closed (by simp [Reads, hpc])
  refine h.of_call hc { call with pc := .cleaning } (st.handler.unsubscribeAll call.kc) st.maps
    st.entered st.opened rfl (fun _ _ he => he) (fun _ _ he => .inl he) (fun _ _ => rfl)
    (h.mapped_own hc) (fun _ _ ho => .inl ho) (table_unsubscribeAll h.table call.kc) ?_
  exact ⟨hl.kept, hl.map, hl.current, trivial, fun id o ho he => absurd he (hclosed id o ho),
    fun n stream hn hp => .inl (hqueue n stream hn hp)⟩

theorem Served.clear (h : st.Served) (hc : st.calls address = some call)
    (hpc : call.pc = .cleaning)
    (hok : ∀ n stream, (n, some stream) ∈ st.queue → n.channel.grpcSubsMap ≠ some call.subsMap) :
    ((st.setMap call.subsMap []).setCall address { call with pc := .ended }).Served := by
  have hl := h.calls address call hc
  have hclosed := hl.closed (by simp [Reads, hpc])
  refine h.of_call hc { call with pc := .ended } st.handler
    (Function.update st.maps call.subsMap []) st.entered st.opened rfl (fun _ _ he => he)
    (fun _ _ he => .inl he) (fun p hp => by simp [hp]) (by simp) (fun _ _ ho => .inl ho) h.table ?_
  exact ⟨hl.kept, hl.map, hl.current, trivial, fun id o ho he => absurd he (hclosed id o ho),
    fun n stream hn hp => absurd hp (hok n stream hn)⟩

end Calls

section Start

theorem Served.of_svc (h : st.Served) {svc : RequestServiceImpl} (hsound : svc.Sound)
    (hmap : svc.grpcSubscribeSessionMap = st.svc.grpcSubscribeSessionMap) :
    Served { st with svc := svc } :=
  h.of_other rfl rfl h.length hsound hmap h.table (fun _ _ he => he) (fun _ _ he => .inl he)
    (fun _ _ ho => ho) (fun _ _ hn => hn) h.outcomes

/-- A call at an address that had one before, with its channel and map. -/
theorem Served.restart (h : st.Served) {address : ℕ} {call : SubscribeCall}
    (hc : st.calls address = some call) (hpc : call.pc = .ended) (stream : ℕ) :
    (st.setCall address ⟨call.kc, call.subsMap, stream, [], none, .reading⟩).Served := by
  have hl := h.calls address call hc
  obtain ⟨-, hqueue⟩ := hl.in_map (by simp [hpc])
  have hclosed := hl.closed (by simp [Reads, hpc])
  refine h.of_call hc _ st.handler st.maps st.entered st.opened rfl (fun _ _ he => he)
    (fun _ _ he => .inl he) (fun _ _ => rfl) (h.mapped_own hc) (fun _ _ ho => .inl ho) h.table ?_
  exact ⟨hl.kept, hl.map, by simp, trivial, fun id o ho he => absurd he (hclosed id o ho),
    fun n stream hn hp => .inl (hqueue n stream hn hp)⟩

/-- A call at an address that had none, with a new channel and a new map. -/
theorem Served.first (h : st.Served) {svc : RequestServiceImpl} (hsound : svc.Sound)
    {address : ℕ} (hno : st.svc.grpcSubscribeSessionMap address = none) {kc : KuksaChannel}
    (hsvc : svc.grpcSubscribeSessionMap =
      Function.update st.svc.grpcSubscribeSessionMap address (some kc))
    (hp : kc.grpcSubsMap = some st.svc.nextMap) (stream : ℕ) :
    Served { st.setCall address ⟨kc, st.svc.nextMap, stream, [], none, .reading⟩ with
      svc := svc } := by
  -- The map is new, so nothing was entered for it.
  have hfresh (id : SubscriptionId) (kc' : KuksaChannel) (he : st.entered id = some kc') :
      kc'.grpcSubsMap ≠ some st.svc.nextMap := by
    intro hk
    obtain ⟨-, other, hother⟩ := h.entered id kc' _ he hk
    obtain ⟨-, -, p, hp', hlt⟩ := h.svc.channels other kc' hother
    rw [hk] at hp'
    obtain rfl := Option.some.inj hp'
    omega
  have hkeep (b : ℕ) (kc' : KuksaChannel) (hk : st.svc.grpcSubscribeSessionMap b = some kc') :
      svc.grpcSubscribeSessionMap b = some kc' := by
    have hne : b ≠ address := by
      rintro rfl
      simp [hno] at hk
    simp [hsvc, hne, hk]
  refine ⟨h.length, hsound, ?_, ?_, h.table, ?_, h.mapped, h.opened, h.owed, h.outcomes⟩
  · intro b kc' hk
    simp only [setCall, Function.update_apply]
    split_ifs with hb
    · exact ⟨_, rfl⟩
    · replace hk : svc.grpcSubscribeSessionMap b = some kc' := hk
      exact h.called b kc' (by simpa [hsvc, hb] using hk)
  · intro b call hcall
    simp only [setCall, Function.update_apply] at hcall
    split_ifs at hcall with hb
    · obtain rfl := Option.some.inj hcall
      subst hb
      refine ⟨by simp [hsvc], hp, by simp, trivial, ?_, ?_⟩
      · intro id o _ he
        exact absurd hp (hfresh id kc he)
      · intro n stream' hn hk
        exact absurd hk (hfresh _ _ (h.owed n stream' hn).1)
    · have hl := h.calls b call hcall
      exact hl.frame (hkeep b _ hl.kept) (fun _ he => he) (fun _ he => he) rfl
        (fun _ _ _ ho => ho) fun _ _ hn _ => hn
  · intro id kc' p he hk
    obtain ⟨htype, other, hother⟩ := h.entered id kc' p he hk
    exact ⟨htype, other, hkeep other kc' hother⟩

theorem Served.start (h : st.Served) {context : ServerContext} {stream : ℕ}
    (hs : start pf st context stream = some st') : st'.Served := by
  obtain ⟨hidle, ⟨kc, p, hk, hp, rfl⟩ | ⟨svc, hsound, hmap, -, rfl⟩ |
    ⟨kc, svc, hsound, hno, hp, hsvc, -, rfl⟩⟩ := start_cases h.svc hs
  · obtain ⟨call, hc⟩ := h.called _ kc hk
    have hl := h.calls _ call hc
    obtain rfl : call.kc = kc := Option.some.inj (hl.kept.symm.trans hk)
    obtain rfl : call.subsMap = p := Option.some.inj (hl.map.symm.trans hp)
    have hpc : call.pc = .ended := by simpa [idle, hc] using hidle
    exact h.restart hc hpc stream
  · exact h.of_svc hsound hmap
  · exact h.first hsound hno hsvc hp stream

end Start

section Others

theorem Served.subscribe (h : st.Served) {subId : SubscriptionId} {channel : KuksaChannel}
    (hmap : channel.grpcSubsMap = none) (hfresh : st.entered subId = none) (key : SubscriptionKey) :
    Served { st with
      handler := st.handler.enter key subId channel
      entered := Function.update st.entered subId (some channel) } := by
  refine h.of_other rfl rfl h.length h.svc rfl (table_enter h.table hfresh _ _)
    (entered_update hfresh channel) ?_ (fun _ _ ho => ho) (fun _ _ hn => hn) h.outcomes
  intro id kc hid
  simp only [Function.update_apply] at hid
  split_ifs at hid
  · obtain rfl := Option.some.inj hid
    exact .inr hmap
  · exact .inl hid

/-- What a publication enters for an open subscription is owed to its stream. -/
theorem Served.publish (h : st.Served) (p : Publication) :
    Served { st with
      handler := st.handler.publishForVSSPath p
      owed := st.owed ++ (st.handler.subscriptionsFor ⟨p.path.getVSSPath, p.attr⟩).map fun sub =>
        (st.opened sub.1).map Prod.snd } := by
  set subs := st.handler.subscriptionsFor ⟨p.path.getVSSPath, p.attr⟩ with hsubs
  have hqueue : (st.handler.publishForVSSPath p).buffer.zip (st.owed ++ subs.map fun sub =>
      (st.opened sub.1).map Prod.snd) = st.queue ++ subs.map fun sub =>
        ((⟨sub.1, sub.2, p.vssdatatype, p.data⟩ : Notification), (st.opened sub.1).map Prod.snd) := by
    unfold SubscriptionHandler.publishForVSSPath queue
    rw [List.zip_append h.length.symm, List.zip_map']
  have hnew (n : Notification) (stream : ℕ) (hn : (n, some stream) ∈ subs.map fun sub =>
      ((⟨sub.1, sub.2, p.vssdatatype, p.data⟩ : Notification), (st.opened sub.1).map Prod.snd)) :
      st.entered n.subscriptionId = some n.channel ∧
        ∃ o, st.opened n.subscriptionId = some o ∧ o.2 = stream := by
    obtain ⟨sub, hm, heq⟩ := List.mem_map.mp hn
    obtain ⟨rfl, ho⟩ := Prod.mk.inj heq
    exact ⟨h.table _ sub hm, Option.map_eq_some_iff.mp ho⟩
  have hmem (n : Notification) (stream : ℕ) (hn : (n, some stream) ∈
      (st.handler.publishForVSSPath p).buffer.zip (st.owed ++ subs.map fun sub =>
        (st.opened sub.1).map Prod.snd)) : (n, some stream) ∈ st.queue ∨
      st.entered n.subscriptionId = some n.channel ∧
        ∃ o, st.opened n.subscriptionId = some o ∧ o.2 = stream := by
    rw [hqueue] at hn
    exact (List.mem_append.mp hn).imp_right (hnew n stream)
  refine ⟨?_, h.svc, h.called, ?_, h.table, h.entered, h.mapped, h.opened, ?_, h.outcomes⟩
  · simp [SubscriptionHandler.publishForVSSPath, h.length, ← hsubs]
  · intro address call hc
    have hl := h.calls address call hc
    refine ⟨hl.kept, hl.map, hl.current, hl.pc, hl.opened, ?_⟩
    intro n stream hn hp
    rcases hmem n stream hn with hn | ⟨he, o, ho, rfl⟩
    · exact hl.queued n stream hn hp
    · obtain ⟨rfl, -, hg⟩ := hl.opened _ o ho (by rw [he, h.owner hc he hp])
      exact hg.imp_right fun hk => ⟨rfl, hk⟩
  · intro n stream hn
    rcases hmem n stream hn with hn | ⟨he, o, ho, -⟩
    · exact h.owed n stream hn
    · obtain ⟨kc, q, hk, hq⟩ := h.opened _ o ho
      obtain rfl : kc = n.channel := Option.some.inj (hk.symm.trans he)
      exact ⟨he, q, hq⟩

/-- An entry that is owed to a stream in the map is written to it. -/
theorem Served.forwarded (h : st.Served) {ck : Clock} {n : Notification} {stream : ℕ}
    (hn : (n, some stream) ∈ st.queue)
    (hpc : ∀ call key, st.calls n.channel.connectionID = some call →
      call.pc ≠ .confirmed key n.subscriptionId)
    (hsend : Sendable pf ck n) (connectionexist : Bool) :
    ∃ value, forwarded pf st ck connectionexist n = .written stream value := by
  obtain ⟨he, p, hp⟩ := h.owed n stream hn
  obtain ⟨htype, address, hk⟩ := h.entered _ _ p he hp
  obtain rfl := (h.svc.channels address _ hk).2.1
  obtain ⟨call, hc⟩ := h.called _ _ hk
  have hl := h.calls _ call hc
  obtain rfl : p = call.subsMap := by
    have hkc : n.channel = call.kc := Option.some.inj (hk.symm.trans hl.kept)
    rw [hkc, hl.map] at hp
    exact (Option.some.inj hp).symm
  obtain ⟨value, hvalue⟩ := hsend
  have hg : Members.get? n.subscriptionId (st.maps call.subsMap) = some stream := by
    rcases hl.queued n stream hn hp with hg | ⟨-, key, hk⟩
    · exact hg
    · exact absurd hk (hpc call key hc)
  refine ⟨value, ?_⟩
  cases hanswer : subscriptionAnswer pf ck n with
  | error e => simp [hanswer, Except.bind] at hvalue
  | ok answer =>
    simp only [hanswer, Except.bind] at hvalue
    simp only [GrpcServer.forwarded, hanswer, htype, ↓reduceIte, hp, Option.bind_some, hg, hvalue]

theorem Served.forward (h : st.Served) {ck : Clock} {connectionexist : Bool} {n : Notification}
    {rest : List Notification} (hb : st.handler.buffer = n :: rest)
    (hok : KeepsOwed pf st (.forward ck connectionexist)) (running : Bool) :
    Served { st with
      handler := if GrpcServer.forwarded pf st ck connectionexist n = .gone then
          SubscriptionHandler.unsubscribeAll { st.handler with buffer := rest } n.channel
        else { st.handler with buffer := rest }
      running := running
      owed := st.owed.drop 1
      outcomes := st.outcomes ++
        [⟨n, (st.owed.head?).getD none, GrpcServer.forwarded pf st ck connectionexist n⟩] } := by
  cases ho : st.owed with
  | nil =>
    have hlen := h.length
    simp [ho, hb] at hlen
  | cons o os =>
    have hq : st.queue = (n, o) :: rest.zip os := by simp [queue, hb, ho]
    have hlen : os.length = rest.length := by
      have hlen := h.length
      simpa [ho, hb] using hlen
    have hbuffer (handler : SubscriptionHandler) (c : Prop) [Decidable c] :
        (if c then handler.unsubscribeAll n.channel else handler).buffer = handler.buffer := by
      split_ifs <;> rfl
    refine h.of_other rfl rfl ?_ h.svc rfl ?_ (fun _ _ he => he) (fun _ _ he => .inl he)
      (fun _ _ ho => ho) ?_ ?_
    · simp [hbuffer, hlen]
    · simp only
      split_ifs
      · exact table_unsubscribeAll h.table n.channel
      · exact h.table
    · intro m stream hm
      simp only [queue, hbuffer, List.drop_succ_cons, List.drop_zero] at hm
      rw [hq]
      exact List.mem_cons_of_mem _ hm
    · intro out hout stream howed
      rcases List.mem_append.mp hout with hout | hout
      · exact h.outcomes out hout stream howed
      · obtain rfl := List.mem_singleton.mp hout
        obtain rfl : o = some stream := by simpa using howed
        obtain ⟨hpc, hsend⟩ := hok n stream (by simp [hq])
        exact h.forwarded (by simp [hq]) hpc hsend connectionexist

end Others

theorem Served.next (h : st.Served) {step : GrpcStep} (hok : KeepsOwed pf st step)
    (hs : next pf auth st step = some st') : st'.Served := by
  cases next_effect hs with
  | @authorize ck uuid peer token =>
    refine h.of_svc (h.svc.authorizeHelper uuid peer token) ?_
    rcases authorizeHelper_cases pf ck auth st.svc uuid peer token with he | ⟨_, -, he⟩ <;> rw [he]
  | start hs => exact h.start hs
  | register hc hpc hfresh _ => exact h.register hc hpc _ hfresh _
  | unsubscribeRequest hc hpc => exact h.unsubscribeRequest hc hpc _
  | respond hc hpc => exact h.respond hc hpc
  | insert hc hpc => exact h.insert hc hpc
  | erase hc hpc => exact h.erase hc hpc (hok _ _ _ hc hpc)
  | finish hc hpc => exact h.leave hc hpc
  | unsubscribeAll hc hpc => exact h.unsubscribeAll hc hpc
  | clear hc hpc => exact h.clear hc hpc (hok _ hc)
  | refused => exact h
  | subscribe hmap hfresh => exact h.subscribe hmap hfresh _
  | @unsubscribe id =>
    exact h.of_other rfl rfl h.length h.svc rfl (table_unsubscribe h.table id) (fun _ _ he => he)
      (fun _ _ he => .inl he) (fun _ _ ho => (update_none_le ho).2) (fun _ _ hn => hn) h.outcomes
  | publish => exact h.publish _
  | forward hb => exact h.forward hb hok _

/-- Where entries are taken only of streams that are in the map, and streams leave it only when
nothing is owed to them, every entry that is owed to a stream is written to it. -/
theorem written_of_owed (pf : Platform) (auth : Authenticator) (st : GrpcServer)
    (h : (system pf auth).Reachable (KeepsOwed pf) st) (o : Outcome) (ho : o ∈ st.outcomes)
    (stream : ℕ) (howed : o.owed = some stream) : ∃ value, o.result = .written stream value := by
  have hserved : st.Served := by
    refine h.invariant ?_ ?_
    · rintro _ rfl
      constructor <;> simp [queue, SubscriptionHandler.subscriptionsFor, Sound.start]
    · intro st step st' hi hok hs
      exact hi.next hok hs
  exact hserved.outcomes o ho stream howed

section Speed
open VssCommandProcessor StreamSessions Json

def speedData : Json :=
  ofMembers [("path", .str "Vehicle.OBD.Speed"),
    ("dp", ofMembers [("value", .int 5), ("ts_s", .int 0), ("ts_ns", .int 0)])]

def speedPublication : Publication := ⟨.fromVSS "Vehicle.OBD.Speed", "uint8", "value", speedData⟩

/-- A reader has authorized, and its stream is told that the speed is subscribed. -/
def confirmedSteps : List GrpcStep :=
  [.authorize midnight 1 "reader:1" "reader", .start readerContext 3,
    .request 5 ⟨speedTree, speedTree⟩ 7 ⟨"Vehicle.OBD.Speed", .currentValue, true⟩, .respond 5]

/-- The service after these steps and some more. -/
def speedService (steps : List GrpcStep) : GrpcServer :=
  TransitionSystem.after {} (next tokenPlatform ⟨"key"⟩) (confirmedSteps ++ steps)

def speedNotification : Notification where
  subscriptionId := 7
  channel := {
    connectionID := 5
    authorized := true
    authToken := "reader"
    permissions := [("Vehicle.*", .str "r")]
    typeOfConnection := .grpc
    grpcSubsMap := some 1 }
  vssdatatype := "uint8"
  data := speedData

theorem written_of_owed_speed : ∃ st,
    next tokenPlatform ⟨"key"⟩ (speedService [.insert 5, .publish speedPublication])
      (.forward midnight true) = some st ∧
    ∃ o ∈ st.outcomes, o.owed = some 3 ∧ ∃ value, o.result = .written 3 value := by
  have hrun : (next tokenPlatform ⟨"key"⟩ (speedService [.insert 5, .publish speedPublication])
      (.forward midnight true)).bind (fun st => st.outcomes.find? fun o => o.owed = some 3) =
        some ⟨speedNotification, some 3, .written 3 ("Vehicle.OBD.Speed", .uint32 5)⟩ := by
    decide +kernel
  obtain ⟨st, hst, ho⟩ := Option.bind_eq_some_iff.mp hrun
  have hm := List.mem_of_find?_eq_some ho
  refine ⟨st, hst, _, hm, rfl, written_of_owed tokenPlatform ⟨"key"⟩ st ?_ _ hm 3 rfl⟩
  refine .step (TransitionSystem.after_reachable _ ?_) ?_ hst
  · simp [confirmedSteps, KeepsOwed]
  · intro n stream hhead
    have hq : (speedService [.insert 5, .publish speedPublication]).queue.head? =
        some (speedNotification, some 3) := by decide +kernel
    obtain ⟨rfl, -⟩ := Prod.mk.inj (Option.some.inj (hq.symm.trans hhead))
    refine ⟨?_, ("Vehicle.OBD.Speed", .uint32 5), by decide +kernel⟩
    intro call key hc hpc
    have hreads : ((speedService [.insert 5, .publish speedPublication]).calls 5).map
        SubscribeCall.pc = some .reading := by decide +kernel
    have hc' : (speedService [.insert 5, .publish speedPublication]).calls 5 = some call := hc
    rw [hc', Option.map_some, hpc] at hreads
    simp at hreads

/-- The thread takes the entry of the speed before its stream is in the map. -/
theorem discarded_owed : ¬ ∀ (pf : Platform) (auth : Authenticator) (st : GrpcServer),
    (system pf auth).Reachable TransitionSystem.Any st → ∀ o ∈ st.outcomes, ∀ stream,
      o.owed = some stream → ∃ value, o.result = .written stream value := by
  intro h
  have ho : (⟨speedNotification, some 3, .discarded⟩ : Outcome) ∈
      (speedService [.publish speedPublication, .forward midnight true]).outcomes := by
    decide +kernel
  obtain ⟨value, hv⟩ := h tokenPlatform ⟨"key"⟩ _
    (TransitionSystem.after_reachable _ fun _ _ _ => trivial) _ ho 3 rfl
  simp at hv

end Speed

end GrpcServer
