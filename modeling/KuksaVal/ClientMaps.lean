import KuksaVal.Connections

/-! The maps of clients: the address of a session is entered when the session starts, and removed
by what the session completes with. Addresses of sessions that were freed are used again. -/

/-- A session of the type was started on the connection, at the address. -/
def Connection.HasAt (c : Connection) (type : ChannelType) (address : ℕ) : Prop :=
  (∃ s, c.http = some s ∧ s.channel.typeOfConnection = type ∧ s.channel.connectionID = address) ∨
    ∃ s, c.socket = some s ∧ s.channel.typeOfConnection = type ∧ s.channel.connectionID = address

namespace ConnectionServer
open VssCommandProcessor

variable {pf : Platform} {st st' : ConnectionServer} {k : ℕ} {c d : Connection}

/-- A secure HTTP session is not timed, and reads until its shutdown. -/
structure Untimed (s : HttpSession) : Prop where
  secure : s.channel.typeOfConnection = .httpSsl
  waits : s.waits = 0
  eof : 0 < s.shutdowns → s.eof = true
  reading : 0 < s.handshakes + s.reads → s.eof = false

theorem HttpStep.channel {s t : HttpSession} {removed : Bool} (h : HttpStep s t removed) :
    t.channel = s.channel := by
  cases h with
  | handshake hp ec => exact HttpSession.onHandshake_channel ec
  | read hp rc isUpgrade => exact HttpSession.onRead_channel rc isUpgrade
  | timer hp ec expired =>
    obtain ⟨n, hn⟩ := s.onTimer_fst ec expired
    rw [hn]
  | shutdown hp ec => rfl

theorem HttpStep.pending {s t : HttpSession} {removed : Bool} (h : HttpStep s t removed) :
    0 < s.pending := by
  unfold HttpSession.pending
  cases h <;> omega

theorem Untimed.step {s t : HttpSession} (h : Untimed s) (hsingle : s.Single) {removed : Bool}
    (hstep : HttpStep s t removed) :
    Untimed t ∧ (removed = true → t.eof = true) ∧ (t.eof = false → s.eof = false) := by
  obtain ⟨htype, hwaits, heof, hreading⟩ := h
  obtain ⟨hchain, -⟩ := hsingle
  cases hstep with
  | handshake hp ec =>
    have he : s.eof = false := hreading (by omega)
    unfold HttpSession.onHandshake HttpSession.doRead
    split_ifs
    · exact ⟨⟨htype, hwaits, heof, fun _ => he⟩, by simp, id⟩
    · exact ⟨⟨htype, hwaits, heof, fun _ => he⟩, by simp, id⟩
  | read hp rc isUpgrade =>
    have he : s.eof = false := hreading (by omega)
    have hnext : Untimed (s.onRead .success isUpgrade).1 ∧
        (s.onRead .success isUpgrade).1.eof = s.eof := by
      cases isUpgrade <;> exact ⟨⟨htype, hwaits, heof, fun _ => he⟩, rfl⟩
    cases rc with
    | operationAborted => exact ⟨⟨htype, hwaits, heof, fun _ => he⟩, by simp, id⟩
    | closed =>
      have hdone : (s.onRead .closed isUpgrade).1 = { s with
          reads := s.reads - 1
          eof := true
          shutdowns := s.shutdowns + 1 } := by
        simp [HttpSession.onRead, HttpSession.doEof, htype]
      rw [hdone]
      exact ⟨⟨htype, hwaits, fun _ => rfl, fun hr => absurd hr (by simp only; omega)⟩, by simp,
        by simp⟩
    | success => exact ⟨hnext.1, by simp, fun h => hnext.2 ▸ h⟩
    | other => exact ⟨hnext.1, by simp, fun h => hnext.2 ▸ h⟩
  | timer hp ec expired => omega
  | shutdown hp ec =>
    have he := heof hp
    refine ⟨⟨htype, hwaits, fun _ => he, fun hr => absurd hr ?_⟩, fun _ => he, ?_⟩
    · simp only [HttpSession.onShutdown]
      omega
    · exact fun h => absurd (he.symm.trans h) (by simp)

section Clients
variable {type type' : ChannelType} {address address' : ℕ} {present removed : Bool}
  {channel : KuksaChannel}

theorem setClient_clients : (st.setClient type address present).clients type' address' =
    if type' = type ∧ address' = address then present else st.clients type' address' := by
  unfold setClient
  simp only [Function.update_apply]
  by_cases ht : type' = type
  · subst ht
    by_cases ha : address' = address <;> simp [ha]
  · simp [ht]

theorem removeIf_clients (hne : type ≠ channel.typeOfConnection ∨ address ≠ channel.connectionID) :
    (st.removeIf removed channel).clients type address = st.clients type address := by
  cases removed with
  | false => rfl
  | true =>
    refine setClient_clients.trans (if_neg ?_)
    rintro ⟨ht, ha⟩
    exact hne.elim (fun h => h ht) fun h => h ha

/-- Nothing is entered by a removal. -/
theorem of_removeIf_clients (h : (st.removeIf removed channel).clients type address = true) :
    st.clients type address = true := by
  cases removed with
  | false => exact h
  | true =>
    rw [show st.removeIf true channel = st.setClient _ _ false from rfl, setClient_clients] at h
    split_ifs at h
    exact h

end Clients

/-- Of a secure HTTP session: if it lives, it was the last at its address; and as long as it is the
last there, it is in the map until its shutdown. -/
structure KeptClient (st : ConnectionServer) (k : ℕ) (c : Connection) (s : HttpSession) :
    Prop where
  untimed : Untimed s
  socket : c.socket.isSome → s.eof = false
  last : ∃ j, st.lastAt s.channel.connectionID = some j ∧ (0 < s.pending → j = k) ∧
    (j = k → s.eof = false → st.clients .httpSsl s.channel.connectionID = true)

def Kept (st : ConnectionServer) : Prop :=
  ∀ k c s, st.connections k = some c → c.http = some s →
    s.channel.typeOfConnection = .httpSsl → st.KeptClient k c s

theorem KeptClient.congr {s : HttpSession} (h : st.KeptClient k c s)
    (hlast : st'.lastAt = st.lastAt)
    (hclients : st'.clients .httpSsl s.channel.connectionID =
      st.clients .httpSsl s.channel.connectionID) : st'.KeptClient k c s := by
  obtain ⟨hu, hsocket, hj⟩ := h
  refine ⟨hu, hsocket, ?_⟩
  rw [hlast, hclients]
  exact hj

/-- One connection changes, and the secure HTTP sessions of the others are kept. -/
theorem Kept.changes (h : st.Kept)
    (hafter : st'.connections = Function.update st.connections k (some d))
    (hothers : ∀ j c s, j ≠ k → st.connections j = some c → c.http = some s →
      st.KeptClient j c s → st'.KeptClient j c s)
    (hs : ∀ s, d.http = some s → s.channel.typeOfConnection = .httpSsl →
      st'.KeptClient k d s) : st'.Kept := by
  intro j c s hc hhttp ht
  rw [hafter, Function.update_apply] at hc
  split_ifs at hc with hj
  · obtain rfl := Option.some.inj hc
    exact hj ▸ hs s hhttp ht
  · exact hothers j c s hj hc hhttp (h j c s hc hhttp ht)

/-- What a WebSocket session does leaves the map of HTTP clients alone. -/
theorem Kept.socket (h : st.Kept) (hc : st.connections k = some c) {s t : SocketSession}
    (hs : c.socket = some s)
    (hafter : st'.connections = Function.update st.connections k (some { c with socket := some t }))
    (hlast : st'.lastAt = st.lastAt)
    (hclients : ∀ a, st'.clients .httpSsl a = st.clients .httpSsl a) : st'.Kept := by
  refine h.changes hafter (fun j c s _ _ _ hkept => hkept.congr hlast (hclients _)) ?_
  intro s₀ ht htype
  obtain ⟨hu, hsocket, hj⟩ := (h k c s₀ hc ht htype).congr hlast (hclients _)
  exact ⟨hu, fun _ => hsocket (by simp [hs]), hj⟩

/-- No session lives at a free address. -/
theorem pending_of_free (hl : st.Lawful) (hc : st.connections k = some c) {s : HttpSession}
    (hs : c.http = some s) (hfree : st.occupied s.channel.connectionID = false) :
    s.pending = 0 := by
  by_contra hp
  have hk : k < st.opened := by
    by_contra hk
    simp [hl.fresh k (Nat.le_of_not_lt hk)] at hc
  have hholds : c.holds s.channel.connectionID = true := by
    simp [Connection.holds, hs, Nat.pos_of_ne_zero hp]
  have hocc : st.occupied s.channel.connectionID = true :=
    List.any_eq_true.mpr ⟨k, List.mem_range.mpr hk, by simp [hc, hholds]⟩
  simp [hfree] at hocc

/-- A new secure session takes its address over from one that has been freed. -/
theorem Kept.detect (h : st.Kept) (hl : st.Lawful) (hc : st.connections k = some c)
    (hd : c.detecting = true) {address : ℕ} (hfree : st.occupied address = false) (ec : ErrorCode)
    (result : Bool) : (st.onDetect k c ec result address).Kept := by
  obtain ⟨hhttp, hnone⟩ := (hl.ordered _ _ hc).undetected hd
  unfold onDetect
  dsimp only
  split_ifs
  · exact h.changes rfl (fun j c s _ _ _ hkept => hkept.congr rfl rfl) (by simp [hhttp])
  · refine h.changes rfl ?_ ?_
    · intro j c' s hj hc' hs hkept
      by_cases ha : s.channel.connectionID = address
      · have hp := pending_of_free hl hc' hs (ha ▸ hfree)
        refine ⟨hkept.untimed, hkept.socket, k, ?_, ?_, fun hjk => absurd hjk (Ne.symm hj)⟩
        · exact ha ▸ Function.update_self ..
        · omega
      · obtain ⟨i, hi, hpending, hclient⟩ := hkept.last
        refine ⟨hkept.untimed, hkept.socket, i, ?_, hpending, fun hij he => ?_⟩
        · exact (Function.update_of_ne ha _ _).trans hi
        · exact (setClient_clients.trans (if_neg fun hne => ha hne.2)).trans (hclient hij he)
    · intro s hs ht
      obtain rfl := Option.some.inj hs
      refine ⟨⟨rfl, rfl, ?_, ?_⟩, by simp [hnone], k, ?_, fun _ => rfl, fun _ _ => ?_⟩
      · simp [HttpSession.runSsl]
      · simp [HttpSession.runSsl]
      · exact Function.update_self ..
      · exact setClient_clients.trans (if_pos ⟨rfl, rfl⟩)
  · refine h.changes rfl ?_ ?_
    · intro j c' s hj hc' hs hkept
      exact hkept.congr rfl (setClient_clients.trans (if_neg (by simp)))
    · intro s hs ht
      obtain rfl := Option.some.inj hs
      exact absurd ht (by simp [HttpSession.runPlain, HttpSession.doRead, channelOf,
        KuksaChannel.setType])
  · exact h.changes rfl (fun j c s _ _ _ hkept => hkept.congr rfl rfl) (by simp [hhttp])

/-- A session that is removed lives, and so is the last at its address. -/
theorem Kept.http (h : st.Kept) (hl : st.Lawful) (hc : st.connections k = some c)
    {s t : HttpSession} (hs : c.http = some s) (hd : d.http = some t) (hsock : d.socket = c.socket)
    {removed : Bool} (hstep : HttpStep s t removed) :
    ((st.setConnection k d).removeIf removed s.channel).Kept := by
  refine h.changes (k := k) (d := d) (by simp [ConnectionServer.setConnection]) ?_ ?_
  · intro j c' s' hj hc' hs' hkept
    obtain ⟨i, hi, hpending, hclient⟩ := hkept.last
    refine ⟨hkept.untimed, hkept.socket, i, by simpa [ConnectionServer.setConnection] using hi,
      hpending, fun hij he => ?_⟩
    refine (removeIf_clients ?_).trans (hclient hij he)
    by_contra hsame
    rw [not_or, not_not, not_not] at hsame
    obtain ⟨i', hi', hpending', -⟩ := (h k c s hc hs hsame.1.symm).last
    rw [hsame.2, hi'] at hi
    have hik := hpending' hstep.pending
    exact hj (hij.symm.trans ((Option.some.inj hi).symm.trans hik))
  · intro t' ht htype
    obtain rfl := Option.some.inj (hd.symm.trans ht)
    rw [hstep.channel] at htype
    obtain ⟨hu, hsocket, i, hi, hpending, hclient⟩ := h k c s hc hs htype
    obtain ⟨hu', hremoved, heof⟩ := hu.step ((hl.ordered k c hc).http s hs).1 hstep
    have hik := hpending hstep.pending
    refine ⟨hu', ?_, i, ?_, fun _ => hik, fun _ he => ?_⟩
    · -- Of the HTTP session of an upgraded connection nothing is outstanding.
      intro hi
      obtain ⟨s', hs'⟩ := Option.isSome_iff_exists.mp (hsock ▸ hi)
      obtain ⟨-, -, s₀, hs₀, hz⟩ := (hl.ordered k c hc).socket s' hs'
      obtain rfl := Option.some.inj (hs.symm.trans hs₀)
      have hp := hstep.pending
      have hwaits := hu.waits
      unfold HttpSession.pending at hp
      omega
    · rw [hstep.channel]
      simpa [ConnectionServer.setConnection] using hi
    · cases removed with
      | true => simp [hremoved rfl] at he
      | false =>
        rw [hstep.channel]
        exact hclient hik (heof he)

theorem Kept.upgrade (h : st.Kept) (hl : st.Lawful) (hc : st.connections k = some c)
    {s : HttpSession} (hs : c.http = some s) (hp : 0 < s.reads) {rc : ReadCode} {isUpgrade : Bool}
    (hu : (s.onRead rc isUpgrade).2 = true) (hd : d.http = some (s.onRead rc isUpgrade).1)
    (address : ℕ) : (st.makeWebsocketSession k d (upgradeType s.channel) address).Kept := by
  have htype : upgradeType s.channel ≠ .httpSsl := by
    unfold upgradeType
    split_ifs <;> simp
  have hclients (a : ℕ) : (st.makeWebsocketSession k d (upgradeType s.channel) address).clients
      .httpSsl a = st.clients .httpSsl a :=
    setClient_clients.trans (if_neg fun hne => htype hne.1.symm)
  refine h.changes rfl (fun j c s _ _ _ hkept => hkept.congr rfl (hclients _)) ?_
  intro t ht htype
  obtain rfl := Option.some.inj (hd.symm.trans ht)
  rw [HttpSession.onRead_channel] at htype
  obtain ⟨hun, -, i, hi, hpending, hclient⟩ := h k c s hc hs htype
  have he : s.eof = false := hun.reading (by omega)
  have hsame : (s.onRead rc isUpgrade).1.eof = s.eof := by
    cases rc <;> cases isUpgrade <;> simp_all [HttpSession.onRead]
  have hik : i = k := hpending (by unfold HttpSession.pending; omega)
  refine ⟨(hun.step ((hl.ordered k c hc).http s hs).1 (.read hp rc isUpgrade)).1,
    fun _ => hsame.trans he, i, ?_, fun _ => hik, fun _ _ => ?_⟩
  · rw [HttpSession.onRead_channel]
    exact hi
  · rw [HttpSession.onRead_channel, hclients]
    exact hclient hik he

theorem Kept.next (h : st.Kept) (hl : st.Lawful) {e : ConnectionEvent}
    (hnext : ConnectionServer.next pf st e = some st') : st'.Kept := by
  have hsocket {k : ℕ} {c : Connection} {s : SocketSession} (hc : st.connections k = some c)
      (hs : c.socket = some s) : ChannelType.httpSsl ≠ s.channel.typeOfConnection := by
    rcases ((hl.ordered k c hc).socket s hs).2.1 with ⟨ht, -⟩ | ⟨ht, -⟩ <;> simp [ht]
  have hcore {s t : SocketSession} (ht : t.core = s.core) : t.channel = s.channel :=
    congrArg Prod.fst ht
  cases next_effect hnext with
  | accept => exact h.changes rfl (fun j c s _ _ _ hkept => hkept.congr rfl rfl) (by simp)
  | detect hc hd hfree ec result => exact h.detect hl hc hd hfree ec result
  | http hc hs hd hsock hstep => exact h.http hl hc hs hd hsock hstep
  | upgrade hc hs hp hu hd address => exact h.upgrade hl hc hs hp hu hd address
  | @socket k c s t hc hs ht removed =>
    have htype : ChannelType.httpSsl ≠ t.channel.typeOfConnection := by
      rw [hcore ht]
      exact hsocket hc hs
    exact h.socket hc hs (t := t)
      (by simp [ConnectionServer.setSocket, ConnectionServer.setConnection])
      (removeIf_lastAt ..) fun a => removeIf_clients (.inl htype)
  | @answer k c s t hc hs ht removed r st' ha =>
    obtain ⟨answer, server, channel, -, rfl⟩ := answer_eq_some ha
    exact h.socket hc hs (t := t.respond channel answer)
      (by simp [ConnectionServer.setConnection]) (removeIf_lastAt ..)
      fun a => removeIf_clients (.inl (hsocket hc hs))
  | @written k i c s ec n stream hc hs he hw =>
    have htype := hsocket hc hs
    exact h.socket hc hs (t := { s with stream := stream })
      (by simp [ConnectionServer.setSocket, ConnectionServer.setConnection])
      (removeIf_lastAt ..) fun a => removeIf_clients (.inl htype)
  | @send k c s hc hs message => exact h.socket hc hs rfl rfl fun _ => rfl
  | others server => exact fun k c s hc hs ht => (h k c s hc hs ht).congr rfl rfl
  | nothing => exact h

/-- A client in a map is that of a session, and so is the last at an address. -/
structure Known (st : ConnectionServer) : Prop where
  clients : ∀ type address, st.clients type address = true →
    ∃ k c, st.connections k = some c ∧ c.HasAt type address
  last : ∀ address k, st.lastAt address = some k →
    ∃ c, st.connections k = some c ∧ c.HasAt .httpSsl address

theorem Known.changes (h : st.Known)
    (hafter : st'.connections = Function.update st.connections k (some d))
    (hclients : ∀ type a, st'.clients type a = true → st.clients type a = true ∨ d.HasAt type a)
    (hlast : ∀ a j, st'.lastAt a = some j → st.lastAt a = some j ∨ j = k ∧ d.HasAt .httpSsl a)
    (hd : ∀ c, st.connections k = some c → ∀ type a, c.HasAt type a → d.HasAt type a) :
    st'.Known := by
  have hat {j : ℕ} {c : Connection} {type : ChannelType} {a : ℕ} (hc : st.connections j = some c)
      (hhas : c.HasAt type a) : ∃ c', st'.connections j = some c' ∧ c'.HasAt type a := by
    rw [hafter, Function.update_apply]
    split_ifs with hj
    · exact ⟨d, rfl, hd c (hj ▸ hc) type a hhas⟩
    · exact ⟨c, hc, hhas⟩
  have hself : st'.connections k = some d := by
    rw [hafter, Function.update_self]
  refine ⟨?_, ?_⟩
  · intro type a ha
    rcases hclients type a ha with ha | hhas
    · obtain ⟨j, c, hc, hhas⟩ := h.clients type a ha
      exact ⟨j, hat hc hhas⟩
    · exact ⟨k, d, hself, hhas⟩
  · intro a j hj
    rcases hlast a j hj with hj | ⟨rfl, hhas⟩
    · obtain ⟨c, hc, hhas⟩ := h.last a j hj
      exact hat hc hhas
    · exact ⟨d, hself, hhas⟩

/-- A session takes the place of one of the same type and address. -/
theorem Known.replaces (h : st.Known) (hc : st.connections k = some c)
    (hafter : st'.connections = Function.update st.connections k (some d))
    (hclients : ∀ type a, st'.clients type a = true → st.clients type a = true)
    (hlast : st'.lastAt = st.lastAt)
    (hhttp : ∀ s, c.http = some s → ∃ t, d.http = some t ∧ t.channel = s.channel)
    (hsocket : ∀ s, c.socket = some s → ∃ t, d.socket = some t ∧
      SameConnection t.channel s.channel) : st'.Known := by
  refine h.changes hafter (fun type a ha => .inl (hclients type a ha))
    (fun a j hj => .inl (hlast ▸ hj)) ?_
  intro c' hc' type a ha
  obtain rfl := Option.some.inj (hc.symm.trans hc')
  rcases ha with ⟨s, hs, ht, ha⟩ | ⟨s, hs, ht, ha⟩
  · obtain ⟨t, htt, hsame⟩ := hhttp s hs
    exact .inl ⟨t, htt, by rw [hsame, ht], by rw [hsame, ha]⟩
  · obtain ⟨t, htt, hsame⟩ := hsocket s hs
    exact .inr ⟨t, htt, hsame.typeOfConnection.trans ht, hsame.connectionID.trans ha⟩

theorem Known.setSocket (h : st.Known) (hc : st.connections k = some c) {s t : SocketSession}
    (hs : c.socket = some s) (ht : t.channel = s.channel) (removed : Bool) :
    (st.setSocket k c (t, removed)).Known := by
  refine h.replaces (d := { c with socket := some t }) hc ?_ (fun _ _ => of_removeIf_clients)
    (removeIf_lastAt ..) (fun s hs => ⟨s, hs, rfl⟩) ?_
  · simp [ConnectionServer.setSocket, setConnection]
  · intro s' hs'
    obtain rfl := Option.some.inj (hs.symm.trans hs')
    exact ⟨t, rfl, by rw [ht]; exact ⟨rfl, rfl, rfl⟩⟩

/-- What is entered is the new session's. -/
theorem of_setClient {type type' : ChannelType} {a address : ℕ}
    (ha : (st.setClient type address true).clients type' a = true)
    (hd : d.HasAt type address) : st.clients type' a = true ∨ d.HasAt type' a := by
  rw [setClient_clients] at ha
  split_ifs at ha with hnew
  · obtain ⟨rfl, rfl⟩ := hnew
    exact .inr hd
  · exact .inl ha

theorem Known.detect (h : st.Known) (hl : st.Lawful) (hc : st.connections k = some c)
    (hd : c.detecting = true) (ec : ErrorCode) (result : Bool) (address : ℕ) :
    (st.onDetect k c ec result address).Known := by
  obtain ⟨hhttp, hsocket⟩ := (hl.ordered k c hc).undetected hd
  have hnone (c' : Connection) (hc' : st.connections k = some c') (type : ChannelType) (a : ℕ)
      (d : Connection) : c'.HasAt type a → d.HasAt type a := by
    obtain rfl := Option.some.inj (hc.symm.trans hc')
    simp [Connection.HasAt, hhttp, hsocket]
  unfold onDetect
  dsimp only
  split_ifs
  · exact h.changes rfl (fun _ _ => .inl) (fun _ _ => .inl)
      fun c' hc' type a => hnone c' hc' type a _
  · refine h.changes rfl ?_ ?_ fun c' hc' type a => hnone c' hc' type a _
    · exact fun type a ha => of_setClient ha (.inl ⟨_, rfl, rfl, rfl⟩)
    · intro a j (hj : Function.update st.lastAt address (some k) a = some j)
      rw [Function.update_apply] at hj
      split_ifs at hj with ha
      · exact .inr ⟨(Option.some.inj hj).symm, .inl ⟨_, rfl, rfl, ha.symm⟩⟩
      · exact .inl hj
  · refine h.changes rfl ?_ (fun _ _ => .inl) fun c' hc' type a => hnone c' hc' type a _
    exact fun type a ha => of_setClient ha (.inl ⟨_, rfl, rfl, rfl⟩)
  · exact h.changes rfl (fun _ _ => .inl) (fun _ _ => .inl)
      fun c' hc' type a => hnone c' hc' type a _

theorem Known.next (h : st.Known) (hl : st.Lawful) {e : ConnectionEvent}
    (hnext : ConnectionServer.next pf st e = some st') : st'.Known := by
  have hcore {s t : SocketSession} (ht : t.core = s.core) : t.channel = s.channel :=
    congrArg Prod.fst ht
  cases next_effect hnext with
  | accept =>
    refine h.changes rfl (fun _ _ => .inl) (fun _ _ => .inl) ?_
    intro c hc
    simp [hl.fresh st.opened le_rfl] at hc
  | detect hc hd hfree ec result => exact h.detect hl hc hd ec result _
  | @http k c d s t removed hc hs hd hsock hstep =>
    refine h.replaces (d := d) hc (by simp [setConnection]) (fun _ _ => of_removeIf_clients)
      (removeIf_lastAt ..) ?_ (fun s hs => ⟨s, hsock ▸ hs, ⟨rfl, rfl, rfl⟩⟩)
    intro s' hs'
    obtain rfl := Option.some.inj (hs.symm.trans hs')
    exact ⟨t, hd, hstep.channel⟩
  | @upgrade k c d s rc isUpgrade hc hs hp hu hd address =>
    have hnone := (hl.ordered k c hc).socket_none hs (by omega)
    refine h.changes rfl ?_ (fun _ _ => .inl) ?_
    · exact fun type a ha => of_setClient ha (.inr ⟨_, rfl, rfl, rfl⟩)
    · intro c' hc' type a ha
      obtain rfl := Option.some.inj (hc.symm.trans hc')
      rcases ha with ⟨s', hs', ht, ha⟩ | ⟨s', hs', -⟩
      · obtain rfl := Option.some.inj (hs.symm.trans hs')
        refine .inl ⟨_, hd, ?_, ?_⟩ <;> rw [HttpSession.onRead_channel]
        · exact ht
        · exact ha
      · simp [hnone] at hs'
  | socket hc hs ht removed => exact h.setSocket hc hs (hcore ht) removed
  | @answer k c s t hc hs ht removed r st' ha =>
    obtain ⟨answer, server, channel, hq, rfl⟩ := answer_eq_some ha
    have hsame := sameConnection_processQuery pf r.clock (st.removeIf removed s.channel).server
      r.subId r.reqJson t.channel
    rw [hq, hcore ht] at hsame
    refine h.replaces (d := { c with socket := some (t.respond channel answer) }) hc
      (by simp [setConnection]) (fun _ _ => of_removeIf_clients) (removeIf_lastAt ..)
      (fun s hs => ⟨s, hs, rfl⟩) ?_
    intro s' hs'
    obtain rfl := Option.some.inj (hs.symm.trans hs')
    exact ⟨_, rfl, hsame⟩
  | @written k i c s ec n stream hc hs he hw =>
    exact h.setSocket (t := { s with stream := stream }) hc hs rfl _
  | @send k c s hc hs message =>
    have hset := h.setSocket (t := s.write (.notification message)) hc hs rfl false
    exact ⟨hset.clients, hset.last⟩
  | others server => exact ⟨h.clients, h.last⟩
  | nothing => exact h

/-- Whatever completes, and in whatever order: the maps hold only addresses at which sessions of
their type were started; a secure HTTP session that lives is in the map until its shutdown; and the
one of an upgraded connection, of which nothing is left, stays in the map unless the secure HTTP
session of another connection was started at its address since. -/
theorem upgraded_keeps_client (pf : Platform) (server : Server) (allowInsecure : Bool)
    (st : ConnectionServer)
    (h : (system pf server allowInsecure).Reachable TransitionSystem.Any st) :
    (∀ type address, st.clients type address = true →
      ∃ k c, st.connections k = some c ∧ c.HasAt type address) ∧
    (∀ k c s, st.connections k = some c → c.http = some s →
      s.channel.typeOfConnection = .httpSsl → 0 < s.pending → s.eof = false →
      st.clients .httpSsl s.channel.connectionID = true) ∧
    ∀ k c w, st.connections k = some c → c.socket = some w →
      w.channel.typeOfConnection = .websocketSsl → ∃ s, c.http = some s ∧ s.pending = 0 ∧
        (st.clients .httpSsl s.channel.connectionID = true ∨
          ∃ j d, j ≠ k ∧ st.lastAt s.channel.connectionID = some j ∧
            st.connections j = some d ∧ d.HasAt .httpSsl s.channel.connectionID) := by
  have hinv : st.Lawful ∧ st.Known ∧ st.Kept := by
    apply h.invariant (I := fun st => st.Lawful ∧ st.Known ∧ st.Kept)
    · rintro _ rfl
      exact ⟨lawful_start server allowInsecure, ⟨by simp, by simp⟩, by simp [Kept]⟩
    · rintro st e st' ⟨hl, hknown, hkept⟩ - hnext
      exact ⟨hl.next hnext, hknown.next hl hnext, hkept.next hl hnext⟩
  obtain ⟨hl, hknown, hkept⟩ := hinv
  refine ⟨hknown.clients, ?_, ?_⟩
  · intro k c s hc hs ht hp he
    obtain ⟨j, -, hpending, hclient⟩ := (hkept k c s hc hs ht).last
    exact hclient (hpending hp) he
  intro k c w hc hw ht
  have ho := hl.ordered k c hc
  obtain ⟨-, hsecures, s, hs, hz⟩ := ho.socket w hw
  have hssl : c.ssl = some true := by
    rcases hsecures with ⟨-, hssl, -⟩ | ⟨hplain, -⟩
    · exact hssl
    · simp [ht] at hplain
  have htype : s.channel.typeOfConnection = .httpSsl := by
    rcases (ho.http s hs).2 with ⟨htype, -⟩ | ⟨-, hplain, -⟩
    · exact htype
    · simp [hssl] at hplain
  obtain ⟨hu, hopen, j, hj, -, hclient⟩ := hkept k c s hc hs htype
  refine ⟨s, hs, ?_, ?_⟩
  · have hwaits := hu.waits
    unfold HttpSession.pending
    omega
  · by_cases hjk : j = k
    · exact .inl (hclient hjk (hopen (by simp [hw])))
    · obtain ⟨d, hd, hhas⟩ := hknown.last _ j hj
      exact .inr ⟨j, d, hjk, hj, hd, hhas⟩

/-- A secure connection is upgraded and closed. -/
def greetingClosed : List ConnectionEvent :=
  greeting ++ [.read 0 .closed ⟨midnight, 0, ""⟩]

/-- Another one then gets the address of its HTTP session, and is closed before any upgrade. -/
def addressReused : List ConnectionEvent :=
  greetingClosed ++ [.accept, .detect 1 .success true 16, .handshake 1 .success,
    .httpRead 1 .closed false 48, .httpShutdown 1 .success]

/-- The HTTP client of the closed connection is left in the map, from which the other's shutdown
removes it. -/
theorem upgraded_keeps_client_greeting :
    (greeted greetingClosed).clients .websocketSsl 32 = false ∧
      (greeted greetingClosed).clients .httpSsl 16 = true ∧
      (greeted addressReused).clients .httpSsl 16 = false := by
  refine ⟨by decide +kernel, ?_, by decide +kernel⟩
  have hsocket : (((greeted greetingClosed).connections 0).bind Connection.socket).map
      (fun s => s.channel.typeOfConnection) = some .websocketSsl := by decide +kernel
  have haddress : (((greeted greetingClosed).connections 0).bind Connection.http).map
      (fun s => s.channel.connectionID) = some 16 := by decide +kernel
  simp only [Option.map_eq_some_iff, Option.bind_eq_some_iff] at hsocket haddress
  obtain ⟨w, ⟨c, hc, hw⟩, ht⟩ := hsocket
  obtain ⟨s, ⟨c', hc', hs⟩, ha⟩ := haddress
  obtain rfl := Option.some.inj (hc.symm.trans hc')
  obtain ⟨s', hs', -, hclient⟩ := (upgraded_keeps_client deafPlatform emptyServer false _
    (TransitionSystem.after_reachable greetingClosed fun _ _ _ => trivial)).2.2 0 c w hc hw ht
  obtain rfl := Option.some.inj (hs.symm.trans hs')
  rw [ha] at hclient
  refine hclient.resolve_right ?_
  rintro ⟨j, d, hj, hlast, -⟩
  have h0 : (greeted greetingClosed).lastAt 16 = some 0 := by decide +kernel
  exact hj (Option.some.inj (hlast.symm.trans h0))

end ConnectionServer
