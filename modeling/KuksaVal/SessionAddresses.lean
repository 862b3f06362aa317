import KuksaVal.Confinement

/-! Sessions and their addresses: connections are known by the addresses of session objects, and
the address of an object can be used again when nothing holds the object any more. -/

/-- A session object: the how many-th it is, its channel, and its waits for the timer that have
not completed. Each of them holds the object. -/
structure SessionObject where
  number : ℕ
  channel : KuksaChannel
  waits : ℕ := 0

namespace SessionObject

variable (s : SessionObject)

def asyncWait : SessionObject := { s with waits := s.waits + 1 }

/-- A wait completes because the deadline was moved, and the timer is waited for again. The
deadline itself, 2^32 - 1 seconds after the last activity, does not come. -/
def onTimer : SessionObject := asyncWait { s with waits := s.waits - 1 }

/-- A new session of a type, with a channel of its address. The timer is operated continuously,
but not on a secure HTTP session. -/
def run (number : ℕ) (type : ChannelType) (address : ℕ) : SessionObject :=
  let s : SessionObject := ⟨number, (({} : KuksaChannel).setConnID address).setType type, 0⟩
  if type = .httpSsl then s else s.asyncWait

end SessionObject

/-- The sessions that requests are read from and notifications are written to. -/
def ChannelType.IsWebSocket (type : ChannelType) : Prop :=
  type = .websocketPlain ∨ type = .websocketSsl

instance (type : ChannelType) : Decidable type.IsWebSocket :=
  inferInstanceAs (Decidable (_ ∨ _))

/-- A notification that was written to a session. -/
structure SessionWrite where
  session : ℕ
  notification : Notification

/-- What the thread is doing: it holds an entry that it took, or found its connection gone. -/
inductive SubThreadWork where
  | idle
  | sending (n : Notification)
  | unsubscribing (channel : KuksaChannel)

/-- The server, the session objects by address, and the addresses in the maps of connections. It
is noted on which session each subscription number was drawn. -/
structure SocketServer where
  server : Server
  objects : ℕ → Option SessionObject := fun _ => none
  connections : ChannelType → ℕ → Bool := fun _ _ => false
  work : SubThreadWork := .idle
  opened : ℕ := 0
  drawnOn : SubscriptionId → Option ℕ := fun _ => none
  writes : List SessionWrite := []

inductive SocketStep where
  | addClient (type : ChannelType) (address : ℕ)
  | removeClient (type : ChannelType) (address : ℕ)
  | timer (address : ℕ)
  | destroy (address : ℕ)
  | request (address : ℕ) (r : ClientRequest)
  | publish (db : VssDatabase) (p : Publication)
  | pop
  | send
  | unsubscribeAll

namespace SocketServer
open Json VssCommandProcessor SubscriptionHandler

variable (pf : Platform) (st : SocketServer)

def setConnection (type : ChannelType) (address : ℕ) (present : Bool) : ChannelType → ℕ → Bool :=
  Function.update st.connections type (Function.update (st.connections type) address present)

def setObject (address : ℕ) (s : Option SessionObject) : SocketServer :=
  { st with objects := Function.update st.objects address s }

/-- A session is made at a free address, and is added to the map of its type. -/
def addClient (type : ChannelType) (address : ℕ) : SocketServer :=
  { st.setObject address (some (.run st.opened type address)) with
    connections := st.setConnection type address true
    opened := st.opened + 1 }

def removeClient (type : ChannelType) (address : ℕ) : SocketServer :=
  { st with connections := st.setConnection type address false }

/-- A request on a WebSocket session; a number that is drawn for a subscription is new. -/
def request (address : ℕ) (r : ClientRequest) : Option SocketServer :=
  match st.objects address with
  | none => none
  | some s =>
      if ¬ s.channel.typeOfConnection.IsWebSocket ∨ (st.drawnOn r.subId).isSome then none
      else (Session.next pf ⟨st.server, s.channel, []⟩ r).map fun session =>
        { st.setObject address (some { s with channel := session.channel }) with
          server := session.server
          drawnOn := Function.update st.drawnOn r.subId (some s.number) }

def setHandler (handler : SubscriptionHandler) : SocketServer :=
  { st with server := { st.server with subHandler := handler } }

/-- The first map that has the address. -/
def findConnection (connID : ℕ) : Option ChannelType :=
  [.websocketPlain, .websocketSsl, .httpPlain, .httpSsl].find? fun type =>
    st.connections type connID

/-- The message is written to the object at the address; nothing is written to HTTP sessions. -/
def sendToConnection (n : Notification) : Option (Bool × List SessionWrite) :=
  match st.findConnection n.channel.connectionID with
  | none => some (false, [])
  | some .httpPlain | some .httpSsl | some .grpc => some (true, [])
  | some .websocketPlain | some .websocketSsl =>
      (st.objects n.channel.connectionID).map fun s => (true, [⟨s.number, n⟩])

/-- The thread takes an entry; entries of streams do not go to sessions. -/
def pop : Option SocketServer :=
  match st.work, st.server.subHandler.buffer with
  | .idle, n :: rest =>
      let popped := st.setHandler { st.server.subHandler with buffer := rest }
      if n.channel.typeOfConnection = .grpc then some popped
      else some { popped with work := .sending n }
  | _, _ => none

def send : Option SocketServer :=
  match st.work with
  | .sending n =>
      match st.sendToConnection n with
      | none => none
      | some (true, ws) => some { st with work := .idle, writes := st.writes ++ ws }
      | some (false, _) => some { st with work := .unsubscribing n.channel }
  | _ => none

/-- Two objects are not at one address. An object is destroyed when no wait holds it, whether or
not it was removed from its map. -/
def next : SocketStep → Option SocketServer
  | .addClient type address =>
      if type = .grpc ∨ (st.objects address).isSome then none else some (addClient st type address)
  | .removeClient type address => some (removeClient st type address)
  | .timer address =>
      ((st.objects address).filter fun s => 0 < s.waits).map fun s =>
        st.setObject address (some s.onTimer)
  | .destroy address =>
      ((st.objects address).filter fun s => s.waits = 0).map fun _ => st.setObject address none
  | .request address r => request pf st address r
  | .publish db p => some { st with server := { st.server with
      database := db, subHandler := st.server.subHandler.publishForVSSPath p } }
  | .pop => pop st
  | .send => send st
  | .unsubscribeAll =>
      match st.work with
      | .unsubscribing channel =>
          some { st.setHandler (st.server.subHandler.unsubscribeAll channel) with work := .idle }
      | _ => none

/-- All runs of a server without subscriptions and sessions. -/
def system (db : VssDatabase) (auth : Authenticator) : TransitionSystem SocketServer SocketStep :=
  .ofNext { server := ⟨db, {}, auth⟩ } (next pf)

/-- A WebSocket session with this number is at the address. -/
def SocketAt (address number : ℕ) : Prop :=
  ∃ s, st.objects address = some s ∧ s.channel.typeOfConnection.IsWebSocket ∧ s.number = number

/-- The number was drawn on the WebSocket session that is at the address of the channel. -/
def OwnedBy (id : SubscriptionId) (channel : KuksaChannel) : Prop :=
  ∃ number, st.SocketAt channel.connectionID number ∧ st.drawnOn id = some number

/-- Sessions are where their channels say, and those of WebSockets are held by their timers. -/
structure Placed (address : ℕ) (s : SessionObject) : Prop where
  address : s.channel.connectionID = address
  held : s.channel.typeOfConnection.IsWebSocket → 0 < s.waits

/-- What is to be sent is of sessions that are still there. -/
structure Owned (st : SocketServer) : Prop where
  placed : ∀ a s, st.objects a = some s → Placed a s
  mapped : ∀ type a, type.IsWebSocket → st.connections type a = true → ∃ number, st.SocketAt a number
  table : ∀ key, ∀ sub ∈ st.server.subHandler.subscriptionsFor key, st.OwnedBy sub.1 sub.2
  buffer : ∀ n ∈ st.server.subHandler.buffer, st.OwnedBy n.subscriptionId n.channel
  work : ∀ n, st.work = .sending n → st.OwnedBy n.subscriptionId n.channel
  writes : ∀ w ∈ st.writes, st.drawnOn w.notification.subscriptionId = some w.session

/-- WebSocket sessions stay at their addresses, and numbers with the sessions they were drawn
on. -/
structure Extends (st st' : SocketServer) : Prop where
  socket : ∀ a number, st.SocketAt a number → st'.SocketAt a number
  drawnOn : ∀ id number, st.drawnOn id = some number → st'.drawnOn id = some number

variable {pf st} {st' : SocketServer}

theorem OwnedBy.mono (h : Extends st st') {id : SubscriptionId} {channel : KuksaChannel}
    (ho : st.OwnedBy id channel) : st'.OwnedBy id channel := by
  obtain ⟨number, hs, hd⟩ := ho
  exact ⟨number, h.socket _ _ hs, h.drawnOn _ _ hd⟩

theorem SocketAt.setObject_of_ne {address a number : ℕ} {o : Option SessionObject}
    (h : st.SocketAt a number) (hne : a ≠ address) : (st.setObject address o).SocketAt a number := by
  obtain ⟨s, hs, hrest⟩ := h
  exact ⟨s, (Function.update_of_ne hne _ _).trans hs, hrest⟩

/-- What comes to an address in the place of an object, unless that was a WebSocket session, which
only an object with its number and of its kind replaces. -/
theorem socketAt_setObject {address : ℕ} {o : Option SessionObject}
    (h : ∀ s, st.objects address = some s → s.channel.typeOfConnection.IsWebSocket →
      ∃ t, o = some t ∧ t.channel.typeOfConnection.IsWebSocket ∧ t.number = s.number)
    (a number : ℕ) (hs : st.SocketAt a number) : (st.setObject address o).SocketAt a number := by
  by_cases ha : a = address
  · subst ha
    obtain ⟨s, hs, htype, rfl⟩ := hs
    obtain ⟨t, rfl, ht, hn⟩ := h s hs htype
    exact ⟨t, Function.update_self .., ht, hn⟩
  · exact hs.setObject_of_ne ha

theorem placed_setObject {address : ℕ} {o : Option SessionObject}
    (h : ∀ a s, st.objects a = some s → Placed a s) (ho : ∀ t, o = some t → Placed address t)
    (a : ℕ) (s : SessionObject) (hs : (st.setObject address o).objects a = some s) :
    Placed a s := by
  simp only [setObject, Function.update_apply] at hs
  split_ifs at hs with ha
  · exact ha ▸ ho s hs
  · exact h a s hs

/-- A step that leaves what is to be sent. -/
theorem Owned.of_extends (h : st.Owned) (hext : Extends st st')
    (hplaced : ∀ a s, st'.objects a = some s → Placed a s)
    (hmapped : ∀ type a, type.IsWebSocket → st'.connections type a = true →
      st.connections type a = true ∨ ∃ number, st'.SocketAt a number)
    (hserver : st'.server = st.server) (hwork : st'.work = st.work)
    (hwrites : st'.writes = st.writes) : st'.Owned := by
  refine ⟨hplaced, ?_, ?_, ?_, ?_, ?_⟩
  · intro type a htype hc
    rcases hmapped type a htype hc with hc | hs
    · obtain ⟨number, hs⟩ := h.mapped type a htype hc
      exact ⟨number, hext.socket a number hs⟩
    · exact hs
  · rw [hserver]
    exact fun key sub hm => (h.table key sub hm).mono hext
  · rw [hserver]
    exact fun n hn => (h.buffer n hn).mono hext
  · rw [hwork]
    exact fun n hn => (h.work n hn).mono hext
  · rw [hwrites]
    exact fun w hw => hext.drawnOn _ _ (h.writes w hw)

theorem placed_run (number : ℕ) (type : ChannelType) (address : ℕ) :
    Placed address (.run number type address) := by
  unfold SessionObject.run
  refine ⟨?_, ?_⟩
  · dsimp only
    split_ifs <;> rfl
  · dsimp only
    split_ifs with ht
    · subst ht
      exact fun hw => absurd hw (by rintro (hw | hw) <;> cases hw)
    · exact fun _ => Nat.zero_lt_succ _

theorem typeOfConnection_run (number : ℕ) (type : ChannelType) (address : ℕ) :
    (SessionObject.run number type address).channel.typeOfConnection = type := by
  unfold SessionObject.run
  dsimp only
  split_ifs <;> rfl

theorem setConnection_cases {type type' : ChannelType} {address a : ℕ} {present : Bool}
    (h : st.setConnection type address present type' a = true) :
    st.connections type' a = true ∨ present = true ∧ type' = type ∧ a = address := by
  unfold setConnection at h
  by_cases ht : type' = type
  · subst ht
    rw [Function.update_self] at h
    by_cases ha : a = address
    · subst ha
      rw [Function.update_self] at h
      exact .inr ⟨h, rfl, rfl⟩
    · rw [Function.update_of_ne ha] at h
      exact .inl h
  · rw [Function.update_of_ne ht] at h
    exact .inl h

theorem Owned.addClient (h : st.Owned) {type : ChannelType} {address : ℕ}
    (hfree : st.objects address = none) : (st.addClient type address).Owned := by
  have hsocket : ∀ a number, st.SocketAt a number →
      (st.setObject address (some (.run st.opened type address))).SocketAt a number :=
    socketAt_setObject fun s hs => by simp [hfree] at hs
  refine h.of_extends ⟨hsocket, fun _ _ hd => hd⟩ ?_ ?_ rfl rfl rfl
  · refine placed_setObject h.placed ?_
    intro t ht
    obtain rfl := Option.some.inj ht
    exact placed_run _ _ _
  · intro type' a htype hc
    rcases setConnection_cases hc with hc | ⟨-, rfl, rfl⟩
    · exact .inl hc
    · refine .inr ⟨_, _, Function.update_self .., ?_, rfl⟩
      rwa [typeOfConnection_run]

theorem Owned.removeClient (h : st.Owned) (type : ChannelType) (address : ℕ) :
    (st.removeClient type address).Owned := by
  refine h.of_extends ⟨fun _ _ hs => hs, fun _ _ hd => hd⟩ h.placed ?_ rfl rfl rfl
  intro type' a htype hc
  rcases setConnection_cases hc with hc | ⟨hp, -⟩
  · exact .inl hc
  · cases hp

theorem Owned.timer (h : st.Owned) {address : ℕ} {s : SessionObject}
    (hs : st.objects address = some s) : (st.setObject address (some s.onTimer)).Owned := by
  have hsocket : ∀ a number, st.SocketAt a number →
      (st.setObject address (some s.onTimer)).SocketAt a number :=
    socketAt_setObject fun t ht htype => by
      obtain rfl := Option.some.inj (hs.symm.trans ht)
      exact ⟨s.onTimer, rfl, htype, rfl⟩
  refine h.of_extends ⟨hsocket, fun _ _ hd => hd⟩ ?_ (fun _ _ _ hc => .inl hc) rfl rfl rfl
  refine placed_setObject h.placed ?_
  intro t ht
  obtain rfl := Option.some.inj ht
  exact ⟨(h.placed address s hs).address, fun _ => Nat.zero_lt_succ _⟩

/-- A WebSocket session waits for its timer, so what is destroyed is none. -/
theorem Owned.destroy (h : st.Owned) {address : ℕ} {s : SessionObject}
    (hs : st.objects address = some s) (hwaits : s.waits = 0) :
    (st.setObject address none).Owned := by
  have hsocket : ∀ a number, st.SocketAt a number → (st.setObject address none).SocketAt a number :=
    socketAt_setObject fun t ht htype => by
      obtain rfl := Option.some.inj (hs.symm.trans ht)
      have hheld := (h.placed address s hs).held htype
      omega
  exact h.of_extends ⟨hsocket, fun _ _ hd => hd⟩
    (placed_setObject h.placed fun t ht => by simp at ht) (fun _ _ _ hc => .inl hc) rfl rfl rfl

theorem Owned.request (h : st.Owned) {address : ℕ} {r : ClientRequest}
    (hs : request pf st address r = some st') : st'.Owned := by
  unfold SocketServer.request at hs
  cases ho : st.objects address with
  | none => simp [ho] at hs
  | some s =>
    simp only [ho] at hs
    split_ifs at hs with hdrawn
    obtain ⟨session, hstep, rfl⟩ := Option.map_eq_some_iff.mp hs
    obtain ⟨htype, hnone⟩ := not_or.mp hdrawn
    have htype : s.channel.typeOfConnection.IsWebSocket := not_not.mp htype
    have hnone : st.drawnOn r.subId = none := by simpa using hnone
    obtain ⟨hc, hheld⟩ := h.placed address s ho
    have hkind := Session.next_typeOfConnection hstep
    -- The object at the address keeps its number, and a number that was drawn its session.
    have hext : Extends st { st.setObject address (some { s with channel := session.channel }) with
        server := session.server
        drawnOn := Function.update st.drawnOn r.subId (some s.number) } := by
      refine ⟨socketAt_setObject ?_, ?_⟩
      · intro t ht hw
        obtain rfl := Option.some.inj (ho.symm.trans ht)
        exact ⟨_, rfl, by rwa [hkind], rfl⟩
      · intro id number hd
        have hne : id ≠ r.subId := by
          rintro rfl
          simp [hnone] at hd
        exact (Function.update_of_ne hne _ _).trans hd
    refine ⟨?_, ?_, ?_, ?_, fun n hw => (h.work n hw).mono hext,
      fun w hw => hext.drawnOn _ _ (h.writes w hw)⟩
    · refine placed_setObject h.placed ?_
      intro t ht
      obtain rfl := Option.some.inj ht
      exact ⟨(Session.next_connectionID hstep).trans hc, fun _ => hheld htype⟩
    · intro type a hw hm
      obtain ⟨number, hs⟩ := h.mapped type a hw hm
      exact ⟨number, hext.socket a number hs⟩
    · intro key sub hm
      rcases Session.next_table hstep hm with hm | ⟨rfl, -⟩
      · exact (h.table key sub hm).mono hext
      · have hat : st.SocketAt s.channel.connectionID s.number := ⟨s, by rw [hc, ho], htype, rfl⟩
        exact ⟨s.number, hext.socket _ _ hat, Function.update_self ..⟩
    · intro n hn
      rcases Session.next_buffer hstep hn with hn | ⟨key, sub, hm, hid, hch⟩
      · exact (h.buffer n hn).mono hext
      · rw [hid, hch]
        exact (h.table key sub hm).mono hext

theorem Owned.pop (h : st.Owned) (hs : pop st = some st') : st'.Owned := by
  unfold SocketServer.pop at hs
  split at hs
  · rename_i n rest _ hb
    have hrest (m : Notification) (hm : m ∈ rest) : st.OwnedBy m.subscriptionId m.channel :=
      h.buffer m (by rw [hb]; exact List.mem_cons_of_mem _ hm)
    have hhead : st.OwnedBy n.subscriptionId n.channel :=
      h.buffer n (by rw [hb]; exact List.mem_cons_self)
    split_ifs at hs
    · obtain rfl := Option.some.inj hs
      exact ⟨h.placed, h.mapped, h.table, hrest, h.work, h.writes⟩
    · obtain rfl := Option.some.inj hs
      refine ⟨h.placed, h.mapped, h.table, hrest, ?_, h.writes⟩
      intro m hw
      obtain rfl := SubThreadWork.sending.inj hw
      exact hhead
  · simp at hs

theorem sendToConnection_cases {n : Notification} {found : Bool} {ws : List SessionWrite}
    (h : st.sendToConnection n = some (found, ws)) :
    ws = [] ∨ ∃ s, st.objects n.channel.connectionID = some s ∧ ws = [⟨s.number, n⟩] := by
  unfold sendToConnection at h
  split at h
  · obtain ⟨-, rfl⟩ := Prod.mk.inj (Option.some.inj h)
    exact .inl rfl
  · obtain ⟨-, rfl⟩ := Prod.mk.inj (Option.some.inj h)
    exact .inl rfl
  · obtain ⟨-, rfl⟩ := Prod.mk.inj (Option.some.inj h)
    exact .inl rfl
  · obtain ⟨-, rfl⟩ := Prod.mk.inj (Option.some.inj h)
    exact .inl rfl
  · obtain ⟨s, hs, he⟩ := Option.map_eq_some_iff.mp h
    obtain ⟨-, rfl⟩ := Prod.mk.inj he
    exact .inr ⟨s, hs, rfl⟩
  · obtain ⟨s, hs, he⟩ := Option.map_eq_some_iff.mp h
    obtain ⟨-, rfl⟩ := Prod.mk.inj he
    exact .inr ⟨s, hs, rfl⟩

theorem findConnection_mapped {connID : ℕ} {type : ChannelType}
    (h : st.findConnection connID = some type) : st.connections type connID = true := by
  have hfound := List.find?_some h
  exact hfound

/-- The thread always finds an object to write to. -/
theorem Owned.sendToConnection_isSome (h : st.Owned) (n : Notification) :
    (st.sendToConnection n).isSome := by
  have hobject {type : ChannelType} (htype : type.IsWebSocket)
      (hf : st.findConnection n.channel.connectionID = some type) :
      ∃ s, st.objects n.channel.connectionID = some s := by
    obtain ⟨number, s, hs, -⟩ := h.mapped type _ htype (findConnection_mapped hf)
    exact ⟨s, hs⟩
  unfold sendToConnection
  split
  · rfl
  · rfl
  · rfl
  · rfl
  · rename_i hf
    obtain ⟨s, hs⟩ := hobject (.inl rfl) hf
    simp [hs]
  · rename_i hf
    obtain ⟨s, hs⟩ := hobject (.inr rfl) hf
    simp [hs]

theorem Owned.send (h : st.Owned) (hs : send st = some st') : st'.Owned := by
  unfold SocketServer.send at hs
  cases hw : st.work with
  | idle => simp [hw] at hs
  | unsubscribing channel => simp [hw] at hs
  | sending n =>
    simp only [hw] at hs
    split at hs
    · simp at hs
    · rename_i ws hsend
      obtain rfl := Option.some.inj hs
      refine ⟨h.placed, h.mapped, h.table, h.buffer, by simp, ?_⟩
      intro w hm
      rcases List.mem_append.mp hm with hm | hm
      · exact h.writes w hm
      · rcases sendToConnection_cases hsend with rfl | ⟨s, ho, rfl⟩
        · simp at hm
        · obtain rfl := List.mem_singleton.mp hm
          obtain ⟨number, ⟨t, ht, -, rfl⟩, hd⟩ := h.work n hw
          obtain rfl := Option.some.inj (ho.symm.trans ht)
          exact hd
    · obtain rfl := Option.some.inj hs
      exact ⟨h.placed, h.mapped, h.table, h.buffer, by simp, h.writes⟩

theorem Owned.next (h : st.Owned) {step : SocketStep} (hs : next pf st step = some st') :
    st'.Owned := by
  cases step with
  | addClient type address =>
    simp only [SocketServer.next] at hs
    split_ifs at hs with hfree
    obtain rfl := Option.some.inj hs
    exact h.addClient (by simpa using (not_or.mp hfree).2)
  | removeClient type address =>
    obtain rfl := Option.some.inj hs
    exact h.removeClient type address
  | timer address =>
    obtain ⟨s, ho, rfl⟩ := Option.map_eq_some_iff.mp hs
    exact h.timer (Option.filter_eq_some_iff.mp ho).1
  | destroy address =>
    obtain ⟨s, ho, rfl⟩ := Option.map_eq_some_iff.mp hs
    obtain ⟨ho, hwaits⟩ := Option.filter_eq_some_iff.mp ho
    exact h.destroy ho (by simpa using hwaits)
  | request address r => exact h.request hs
  | publish db p =>
    obtain rfl := Option.some.inj hs
    refine ⟨h.placed, h.mapped, h.table, ?_, h.work, h.writes⟩
    intro n hn
    rcases List.mem_append.mp hn with hn | hn
    · exact h.buffer n hn
    · obtain ⟨sub, hm, rfl⟩ := List.mem_map.mp hn
      exact h.table _ sub hm
  | pop => exact h.pop hs
  | send => exact h.send hs
  | unsubscribeAll =>
    simp only [SocketServer.next] at hs
    split at hs
    · rename_i channel hw
      obtain rfl := Option.some.inj hs
      refine ⟨h.placed, h.mapped, ?_, h.buffer, by simp, h.writes⟩
      intro key sub hm
      simp only [setHandler, subscriptionsFor_unsubscribeAll] at hm
      exact h.table key sub (List.mem_of_mem_eraseP hm)
    · simp at hs

/-- In every run, every notification is written to the session on which its subscription was
made: as long as anything of a WebSocket session is to be sent its address is taken. -/
theorem drawnOn_of_written (pf : Platform) (db : VssDatabase) (auth : Authenticator)
    (st : SocketServer) (h : (system pf db auth).Reachable TransitionSystem.Any st)
    (w : SessionWrite) (hw : w ∈ st.writes) :
    st.drawnOn w.notification.subscriptionId = some w.session := by
  have howned : st.Owned := by
    refine h.invariant ?_ ?_
    · rintro _ rfl
      constructor <;> simp [SubscriptionHandler.subscriptionsFor]
    · intro st step st' hi _ hs
      exact hi.next hs
  exact howned.writes w hw

section Reuse

def readerRequest : String → Except String Json
  | "authorize" => .ok (.obj [("action", .str "authorize"), ("requestId", .str "1"),
      ("tokens", .str "reader")])
  | "subscribe" => .ok (.obj [("action", .str "subscribe"), ("path", .str "Vehicle.OBD.Speed"),
      ("requestId", .str "2")])
  | _ => .error "Parse error"

def socketPlatform : Platform :=
  { Platform.basic readerRequest with jwt := Authenticator.tokenJwt }

/-- A session is made at an address and subscribes. -/
def subscribeSteps (address subId : ℕ) : List SocketStep :=
  [.addClient .websocketPlain address, .request address ⟨midnight, subId, "authorize"⟩,
    .request address ⟨midnight, subId + 1, "subscribe"⟩]

/-- The speed is set by another client. -/
def publishStep : SocketStep :=
  .publish ⟨speedTree, speedTree⟩ ⟨.fromVSS "Vehicle.OBD.Speed", "uint8", "value",
    .obj [("dp", .obj [("value", .int 5)])]⟩

/-- The first session is closed, the address of a secure HTTP session is used for the next one,
and what is published then goes to the one that is left. -/
def reuseSteps : List SocketStep :=
  subscribeSteps 5 7 ++ [publishStep, .pop, .send, .removeClient .websocketPlain 5, .timer 5,
    .addClient .httpSsl 6, .destroy 6] ++ subscribeSteps 6 9 ++
  [publishStep, .pop, .send, .unsubscribeAll, .pop, .send]

def reused : SocketServer :=
  TransitionSystem.after { server := ⟨⟨speedTree, speedTree⟩, {}, ⟨"key"⟩⟩ } (next socketPlatform)
    reuseSteps

/-- What was written: the session, and the number of the subscription. -/
def written (st : SocketServer) : List (ℕ × SubscriptionId) :=
  st.writes.map fun w => (w.session, w.notification.subscriptionId)

theorem drawnOn_of_written_reader : written reused = [(0, 8), (2, 10)] ∧
    ∀ w ∈ reused.writes, reused.drawnOn w.notification.subscriptionId = some w.session :=
  ⟨by decide +kernel, fun w hw => drawnOn_of_written socketPlatform ⟨speedTree, speedTree⟩ ⟨"key"⟩
    reused (TransitionSystem.after_reachable reuseSteps fun _ _ _ => trivial) w hw⟩

/-- The object of a closed WebSocket session is not destroyed. -/
example : (next socketPlatform reused (.destroy 5)).isNone := by decide +kernel

end Reuse

end SocketServer
