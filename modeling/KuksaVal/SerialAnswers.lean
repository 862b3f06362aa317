import KuksaVal.Connections

/-! What the clients are answered is what a command processor answers that serves one request after
the other: each client gets the answers to what was read from it, in that order. -/

namespace Answering

variable {σ α ο : Type*} {step : σ → α → ο × σ}

theorem run_concat (s : σ) (as : List α) (a : α) : run step s (as ++ [a]) =
    ((run step s as).1 ++ [(step (run step s as).2 a).1], (step (run step s as).2 a).2) := by
  induction as generalizing s with
  | nil => rfl
  | cons b as ih =>
    simp only [List.cons_append, run]
    rw [ih]

end Answering

/-- The command processor, with one channel for each connection. -/
structure SerialServer where
  server : Server
  channels : ℕ → KuksaChannel := fun _ => {}

namespace SerialServer

/-- A request is served at once, on the channel of its connection. -/
def serve (pf : Platform) (s : SerialServer) :
    Served → Option (ℕ × Except Exn Json) × SerialServer
  | .opened k channel => (none, { s with channels := Function.update s.channels k channel })
  | .request k r =>
      match VssCommandProcessor.processQuery pf r.clock s.server r.subId r.reqJson
        (s.channels k) with
      | (answer, server, channel) =>
          (some (k, answer), ⟨server, Function.update s.channels k channel⟩)
  | .others server => (none, { s with server := server })

end SerialServer

namespace ConnectionServer
open SerialServer

variable (pf : Platform) (sv : Server) (st : ConnectionServer)

/-- What was served, served one after the other. -/
def serial : List (Option (ℕ × Except Exn Json)) × SerialServer :=
  Answering.run (serve pf) ⟨sv, fun _ => {}⟩ st.served

/-- The answers to a connection. -/
def answersTo (k : ℕ) : List Message :=
  (st.handled.filter fun e => e.connection = k).map fun e =>
    SocketSession.messageOf e.answer.asString

/-- The notifications that were sent to a connection. -/
def notificationsTo (k : ℕ) : List Message :=
  (st.notified.filter fun n => n.1 = k).map Prod.snd

/-- A session has the channel of its connection, and was written the answers to it in order, and
the notifications. -/
structure AnswersServed (k : ℕ) (s : SocketSession) : Prop where
  channel : s.channel = (st.serial pf sv).2.channels k
  fifo : s.stream.Fifo
  written : s.outgoing.map Written.message = s.stream.written
  answers : s.outgoing.filterMap Written.answer? = st.answersTo k
  notifications : s.outgoing.filterMap Written.notification? = st.notificationsTo k

/-- The server is where the serial one is, which answers the same. -/
structure Serial : Prop where
  server : (st.serial pf sv).2.server = st.server
  answers : (st.serial pf sv).1.filterMap id =
    st.handled.map fun e => (e.connection, .ok e.answer)
  sessions : ∀ k c s, st.connections k = some c → c.socket = some s →
    st.AnswersServed pf sv k s

/-- A write that completes without an error has transferred all bytes. -/
def TransfersAll (st : ConnectionServer) : ConnectionEvent → Prop
  | .written k i ec n => ∀ c s, st.connections k = some c → c.socket = some s →
      s.stream.TransfersAll (.completion i ec n)
  | _ => True

variable {pf sv st} {st' : ConnectionServer} {k : ℕ} {c d : Connection}

theorem answersTo_congr (hh : st'.handled = st.handled) (k : ℕ) :
    st'.answersTo k = st.answersTo k := by
  unfold answersTo
  rw [hh]

theorem notificationsTo_congr (hn : st'.notified = st.notified) (k : ℕ) :
    st'.notificationsTo k = st.notificationsTo k := by
  unfold notificationsTo
  rw [hn]

/-- Nothing is served, and the sessions have been written what is theirs. -/
theorem Serial.of_served (h : st.Serial pf sv) (hserved : st'.served = st.served)
    (hhandled : st'.handled = st.handled) (hserver : st'.server = st.server)
    (hs : ∀ j d s, st'.connections j = some d → d.socket = some s →
      st'.AnswersServed pf sv j s) : st'.Serial pf sv := by
  have hserial : st'.serial pf sv = st.serial pf sv := by
    unfold serial
    rw [hserved]
  refine ⟨?_, ?_, hs⟩
  · rw [hserial, hserver]
    exact h.server
  · rw [hserial, hhandled]
    exact h.answers

/-- No notification is sent either. -/
theorem Serial.keeps (h : st.Serial pf sv) (hserved : st'.served = st.served)
    (hhandled : st'.handled = st.handled) (hserver : st'.server = st.server)
    (hnotified : st'.notified = st.notified)
    (hs : ∀ j d s, st'.connections j = some d → d.socket = some s → st.AnswersServed pf sv j s) :
    st'.Serial pf sv := by
  refine h.of_served hserved hhandled hserver ?_
  intro j d s hd hsock
  obtain ⟨hchannel, hfifo, hwritten, hanswers, hnotes⟩ := hs j d s hd hsock
  refine ⟨?_, hfifo, hwritten, ?_, ?_⟩
  · unfold serial
    rw [hserved]
    exact hchannel
  · exact hanswers.trans (answersTo_congr hhandled j).symm
  · exact hnotes.trans (notificationsTo_congr hnotified j).symm

/-- One connection changes, and its session has been written what is its own. -/
theorem Serial.setConnection (h : st.Serial pf sv)
    (hserved : st'.served = st.served) (hhandled : st'.handled = st.handled)
    (hserver : st'.server = st.server) (hnotified : st'.notified = st.notified)
    (hafter : st'.connections = Function.update st.connections k (some d))
    (hs : ∀ s, d.socket = some s → st.AnswersServed pf sv k s) : st'.Serial pf sv := by
  refine h.keeps hserved hhandled hserver hnotified ?_
  intro j d' s hd hsock
  rw [hafter, Function.update_apply] at hd
  split_ifs at hd with hj
  · obtain rfl := Option.some.inj hd
    exact hj ▸ hs s hsock
  · exact h.sessions j d' s hd hsock

theorem AnswersServed.of_core {s t : SocketSession} (h : st.AnswersServed pf sv k s)
    (hcore : t.core = s.core) : st.AnswersServed pf sv k t := by
  simp only [SocketSession.core, Prod.mk.injEq] at hcore
  obtain ⟨hchannel, hstream, hout⟩ := hcore
  obtain ⟨h1, h2, h3, h4, h5⟩ := h
  exact ⟨hchannel.trans h1, hstream ▸ h2, by rw [hout, hstream, h3], by rw [hout, h4],
    by rw [hout, h5]⟩

theorem AnswersServed.completion {s : SocketSession} (h : st.AnswersServed pf sv k s) {i n : ℕ}
    {ec : ErrorCode} {stream : WebSocketSession}
    (ht : s.stream.TransfersAll (.completion i ec n))
    (hs : s.stream.next (.completion i ec n) = some stream) :
    st.AnswersServed pf sv k { s with stream := stream } := by
  obtain ⟨h1, h2, h3, h4, h5⟩ := h
  refine ⟨h1, h2.next ht hs, h3.trans ?_, h4, h5⟩
  obtain ⟨op, -, rfl⟩ := Option.map_eq_some_iff.mp hs
  rw [WebSocketSession.onWrite_written]
  rfl

/-- The serial server answers a request as the server does. -/
theorem Serial.serve_request (h : st.Serial pf sv) {s : SocketSession}
    (hs : s.channel = (st.serial pf sv).2.channels k) {r : ClientRequest} {answer : Json}
    {server : Server} {channel : KuksaChannel}
    (hq : VssCommandProcessor.processQuery pf r.clock st.server r.subId r.reqJson s.channel =
      (.ok answer, server, channel)) :
    serve pf (st.serial pf sv).2 (.request k r) = (some (k, .ok answer),
      ⟨server, Function.update (st.serial pf sv).2.channels k channel⟩) := by
  simp only [serve, h.server, ← hs, hq]

theorem answersTo_concat {e : HandledRequest} (hh : st'.handled = st.handled ++ [e]) (j : ℕ) :
    st'.answersTo j = st.answersTo j ++
      if e.connection = j then [SocketSession.messageOf e.answer.asString] else [] := by
  unfold answersTo
  rw [hh]
  by_cases he : e.connection = j <;> simp [List.filter_append, he]

theorem notificationsTo_concat {n : ℕ × Message} (hn : st'.notified = st.notified ++ [n]) (j : ℕ) :
    st'.notificationsTo j = st.notificationsTo j ++ if n.1 = j then [n.2] else [] := by
  unfold notificationsTo
  rw [hn]
  by_cases hj : n.1 = j <;> simp [List.filter_append, hj]

/-- A notification is written behind all that was written before, and the other sessions are not
told. -/
theorem Serial.notify (h : st.Serial pf sv) (hc : st.connections k = some c) {s : SocketSession}
    (hs : c.socket = some s) (message : Message) : (st.notify k c s message).Serial pf sv := by
  refine h.of_served rfl rfl rfl ?_
  intro j d t hd ht
  have hd : Function.update st.connections k _ j = some d := hd
  rw [Function.update_apply] at hd
  split_ifs at hd with hj
  · obtain rfl := Option.some.inj hd
    obtain rfl := Option.some.inj ht
    obtain ⟨h1, h2, h3, h4, h5⟩ := h.sessions k c s hc hs
    subst hj
    refine ⟨h1, h2.write message, ?_, ?_, ?_⟩
    · simp only [SocketSession.write, List.map_append, h3, WebSocketSession.write_written]
      rfl
    · show (s.outgoing ++ [Written.notification message]).filterMap Written.answer? = _
      rw [List.filterMap_append, h4]
      exact List.append_nil _
    · rw [notificationsTo_concat rfl, if_pos rfl, ← h5]
      exact List.filterMap_append
  · obtain ⟨h1, h2, h3, h4, h5⟩ := h.sessions j d t hd ht
    refine ⟨h1, h2, h3, h4, ?_⟩
    rw [notificationsTo_concat rfl, if_neg (Ne.symm hj), List.append_nil, h5]

/-- The answer is written behind all that was written before. -/
theorem AnswersServed.respond {s : SocketSession} (h : st.AnswersServed pf sv k s)
    {channel : KuksaChannel} {answer : Json} {e : HandledRequest} (he : e.connection = k)
    (hanswer : e.answer = answer) (hh : st'.handled = st.handled ++ [e])
    (hn : st'.notified = st.notified) (hchannel : channel = (st'.serial pf sv).2.channels k) :
    st'.AnswersServed pf sv k (s.respond channel answer) := by
  obtain ⟨-, hfifo, hwritten, hanswers, hnotes⟩ := h
  refine ⟨hchannel, hfifo.write _, ?_, ?_, ?_⟩
  · simp only [SocketSession.respond, SocketSession.write, SocketSession.doRead,
      SocketSession.activity, List.map_append, hwritten, WebSocketSession.write_written]
    rfl
  · rw [answersTo_concat hh, if_pos he, hanswer, ← hanswers]
    exact List.filterMap_append
  · rw [notificationsTo_congr hn, ← hnotes]
    refine List.filterMap_append.trans ?_
    exact List.append_nil _

/-- The other sessions are not told. -/
theorem AnswersServed.other {s : SocketSession} (h : st.AnswersServed pf sv k s)
    {e : HandledRequest} (he : e.connection ≠ k) (hh : st'.handled = st.handled ++ [e])
    (hn : st'.notified = st.notified)
    (hchannel : (st'.serial pf sv).2.channels k = (st.serial pf sv).2.channels k) :
    st'.AnswersServed pf sv k s := by
  obtain ⟨h1, h2, h3, h4, h5⟩ := h
  refine ⟨h1.trans hchannel.symm, h2, h3, ?_, h5.trans (notificationsTo_congr hn k).symm⟩
  rw [answersTo_concat hh, if_neg he, List.append_nil, h4]

theorem Serial.answer (h : st.Serial pf sv) (hc : st.connections k = some c)
    {s t : SocketSession} (hs : c.socket = some s) (hcore : t.core = s.core) {r : ClientRequest}
    (ha : st.answer pf k c t r = some st') : st'.Serial pf sv := by
  obtain ⟨answer, server, channel, hq, rfl⟩ := answer_eq_some ha
  have hsession := (h.sessions k c s hc hs).of_core hcore
  have hserve := h.serve_request hsession.channel hq
  have hserial : serial pf sv
      { st.setConnection k { c with socket := some (t.respond channel answer) } with
        server := server
        served := st.served ++ [.request k r]
        handled := st.handled ++ [⟨k, t.channel, answer⟩] } =
      ((st.serial pf sv).1 ++ [some (k, .ok answer)],
        ⟨server, Function.update (st.serial pf sv).2.channels k channel⟩) := by
    refine (Answering.run_concat _ _ _).trans ?_
    exact congrArg (fun result => ((st.serial pf sv).1 ++ [result.1], result.2)) hserve
  refine ⟨?_, ?_, ?_⟩
  · rw [hserial]
  · rw [hserial, List.filterMap_append, h.answers]
    simp
  · intro j d s' hd hs'
    have hd : Function.update st.connections k _ j = some d := hd
    rw [Function.update_apply] at hd
    split_ifs at hd with hj
    · obtain rfl := Option.some.inj hd
      obtain rfl := Option.some.inj hs'
      subst hj
      exact hsession.respond rfl rfl rfl rfl (by simp only [hserial, Function.update_self])
    · exact (h.sessions j d s' hd hs').other (fun he => hj he.symm) rfl rfl
        (by simp only [hserial, Function.update_of_ne hj])

theorem Serial.upgrade (h : st.Serial pf sv) (hl : st.Lawful) (hc : st.connections k = some c)
    {s : HttpSession} (hs : c.http = some s) (hp : 0 < s.reads) (type : ChannelType)
    (address : ℕ) : (st.makeWebsocketSession k d type address).Serial pf sv := by
  have hserial : (st.makeWebsocketSession k d type address).serial pf sv =
      ((st.serial pf sv).1 ++ [none], ⟨(st.serial pf sv).2.server,
        Function.update (st.serial pf sv).2.channels k (channelOf type address)⟩) :=
    Answering.run_concat _ _ _
  -- Nothing was handled or sent on the connection, whose HTTP session was reading.
  have hsocket {c' : Connection} {s' : SocketSession} (hc' : st.connections k = some c') :
      c'.socket ≠ some s' := by
    obtain rfl := Option.some.inj (hc.symm.trans hc')
    simp [(hl.ordered k c hc).socket_none hs (by omega)]
  have hnone : st.answersTo k = [] := by
    unfold answersTo
    rw [List.map_eq_nil_iff, List.filter_eq_nil_iff]
    intro e he hk
    obtain ⟨c', s', hc', hs', -⟩ := hl.handled e he
    exact hsocket (of_decide_eq_true hk ▸ hc') hs'
  have hquiet : st.notificationsTo k = [] := by
    unfold notificationsTo
    rw [List.map_eq_nil_iff, List.filter_eq_nil_iff]
    intro n hn hk
    obtain ⟨c', s', hc', hs'⟩ := hl.notified n hn
    exact hsocket (of_decide_eq_true hk ▸ hc') hs'
  refine ⟨?_, ?_, ?_⟩
  · rw [hserial]
    exact h.server
  · rw [hserial, List.filterMap_append, h.answers]
    exact List.append_nil _
  · intro j d' s' hd hs'
    have hd : Function.update st.connections k _ j = some d' := hd
    rw [Function.update_apply] at hd
    split_ifs at hd with hj
    · obtain rfl := Option.some.inj hd
      obtain rfl := Option.some.inj hs'
      subst hj
      refine ⟨?_, ⟨rfl, .inl rfl, rfl⟩, rfl, hnone.symm, hquiet.symm⟩
      simp only [hserial, Function.update_self]
      rfl
    · obtain ⟨h1, h2, h3, h4, h5⟩ := h.sessions j d' s' hd hs'
      refine ⟨?_, h2, h3, h4, h5⟩
      simp only [hserial, Function.update_of_ne hj, h1]

theorem Serial.removeIf (h : st.Serial pf sv) (removed : Bool) (channel : KuksaChannel) :
    (st.removeIf removed channel).Serial pf sv :=
  h.keeps (removeIf_served ..) (removeIf_handled ..) (removeIf_server ..) (removeIf_notified ..)
    (by simpa only [removeIf_connections] using h.sessions)

theorem Serial.setSocket (h : st.Serial pf sv) {s : SocketSession}
    (hs : st.AnswersServed pf sv k s) (removed : Bool) :
    (st.setSocket k c (s, removed)).Serial pf sv := by
  have hset : (st.setConnection k { c with socket := some s }).Serial pf sv := by
    refine h.setConnection rfl rfl rfl rfl rfl ?_
    rintro t ht
    exact Option.some.inj ht ▸ hs
  exact hset.removeIf removed s.channel

theorem Serial.next (h : st.Serial pf sv) (hl : st.Lawful) {e : ConnectionEvent}
    (ht : st.TransfersAll e) (hstep : ConnectionServer.next pf st e = some st') :
    st'.Serial pf sv := by
  cases next_effect hstep with
  | accept => exact h.setConnection rfl rfl rfl rfl rfl (by simp)
  | detect hc hd hfree ec result =>
    have hnone := ((hl.ordered _ _ hc).undetected hd).2
    unfold onDetect
    dsimp only
    split_ifs <;> exact h.setConnection rfl rfl rfl rfl rfl (by simp [hnone])
  | @http k c d s t removed hc hs hd hsocket hstep =>
    have hset : (st.setConnection k d).Serial pf sv :=
      h.setConnection rfl rfl rfl rfl rfl fun s' hs' => h.sessions k c s' hc (hsocket ▸ hs')
    exact hset.removeIf removed s.channel
  | upgrade hc hs hp hu hd address => exact h.upgrade hl hc hs hp _ address
  | @socket k c s t hc hs hcore removed =>
    exact h.setSocket ((h.sessions k c s hc hs).of_core hcore) removed
  | @answer k c s t hc hs hcore removed r st' ha =>
    exact (h.removeIf removed s.channel).answer (by simpa using hc) hs hcore ha
  | @written k i c s ec n stream hc hs he hw =>
    subst he
    exact h.setSocket ((h.sessions k c s hc hs).completion (ht c s hc hs) hw) _
  | send hc hs message => exact h.notify hc hs message
  | others server =>
    have hserial : serial pf sv
        { st with server := server, served := st.served ++ [.others server] } =
        ((st.serial pf sv).1 ++ [none], ⟨server, (st.serial pf sv).2.channels⟩) :=
      Answering.run_concat _ _ _
    refine ⟨by rw [hserial], ?_, ?_⟩
    · rw [hserial, List.filterMap_append, h.answers]
      exact List.append_nil _
    · intro j d s hd hs
      obtain ⟨h1, h2, h3, h4, h5⟩ := h.sessions j d s hd hs
      exact ⟨by rw [hserial]; exact h1, h2, h3, h4, h5⟩
  | nothing => exact h

/-- In every run, with any interleaving of what completes on the connections, the command
processor does what it does when it serves one request after the other. What a client has been
sent and what waits in its queue are the answers to its own requests in their order, the
notifications that were sent to it in theirs, and nothing else. -/
theorem answered_serially (pf : Platform) (sv : Server) (allowInsecure : Bool)
    (st : ConnectionServer)
    (h : (system pf sv allowInsecure).Reachable TransfersAll st) :
    (st.serial pf sv).2.server = st.server ∧
      (st.serial pf sv).1.filterMap id = (st.handled.map fun e => (e.connection, .ok e.answer)) ∧
      ∀ k c s, st.connections k = some c → c.socket = some s →
        s.channel = (st.serial pf sv).2.channels k ∧
        s.stream.sent ++ s.stream.writeQueue = s.outgoing.map Written.message ∧
        s.outgoing.filterMap Written.answer? = st.answersTo k ∧
        s.outgoing.filterMap Written.notification? = st.notificationsTo k := by
  have hinv : st.Lawful ∧ st.Serial pf sv := by
    apply h.invariant (I := fun st => st.Lawful ∧ st.Serial pf sv)
    · rintro _ rfl
      exact ⟨lawful_start sv allowInsecure, ⟨rfl, rfl, by simp⟩⟩
    · rintro st e st' ⟨hl, hs⟩ ht hstep
      exact ⟨hl.next hstep, hs.next hl ht hstep⟩
  obtain ⟨-, hserver, hanswers, hsessions⟩ := hinv
  refine ⟨hserver, hanswers, ?_⟩
  intro k c s hc hs
  obtain ⟨hchannel, hfifo, hwritten, hout, hnotes⟩ := hsessions k c s hc hs
  exact ⟨hchannel, hfifo.order.trans hwritten.symm, hout, hnotes⟩

section Greeting

/-- A notification is written behind the answer, of which all 125 bytes are sent. -/
def greetingSent : List ConnectionEvent :=
  greeting ++ [.send 32 [1], .written 0 0 .success 125]

def transfersCheck (st : ConnectionServer) : ConnectionEvent → Bool
  | .written k i _ n => ((st.connections k).bind Connection.socket).all fun s =>
      (s.stream.outstanding[i]?).all fun op => n == op.length
  | _ => true

theorem transfersAll_of_transfersCheck (st : ConnectionServer) (e : ConnectionEvent)
    (h : transfersCheck st e = true) : st.TransfersAll e := by
  cases e with
  | written k i ec n =>
    intro c s hc hs _ op hop
    simpa [transfersCheck, hc, hs, hop] using h
  | _ => trivial

theorem answered_serially_greeting : ∃ c s, (greeted greetingSent).connections 0 = some c ∧
    c.socket = some s ∧ s.stream.sent ++ s.stream.writeQueue = s.outgoing.map Written.message ∧
      s.outgoing.filterMap Written.answer? = (greeted greetingSent).answersTo 0 ∧
      ((greeted greetingSent).answersTo 0).map List.length = [125] ∧
      s.outgoing.filterMap Written.notification? = [[1]] := by
  have hsocket : (((greeted greetingSent).connections 0).bind Connection.socket).isSome = true := by
    decide +kernel
  obtain ⟨s, hs⟩ := Option.isSome_iff_exists.mp hsocket
  obtain ⟨c, hc, hs⟩ := Option.bind_eq_some_iff.mp hs
  have hexec : TransitionSystem.exec (next deafPlatform)
      { server := emptyServer, allowInsecureConns := false } greetingSent =
        some (greeted greetingSent) := TransitionSystem.exec_eq_some_after (by decide +kernel)
  obtain ⟨-, hsent, hout, hnotes⟩ := (answered_serially deafPlatform emptyServer false
    (greeted greetingSent) (TransitionSystem.reachable_of_admits transfersAll_of_transfersCheck
      greetingSent (.init rfl) (by decide +kernel) hexec)).2.2 0 c s hc hs
  have hnotified : (greeted greetingSent).notificationsTo 0 = [[1]] := by decide +kernel
  exact ⟨c, s, hc, hs, hsent, hout, by decide +kernel, hnotes.trans hnotified⟩

end Greeting

end ConnectionServer
