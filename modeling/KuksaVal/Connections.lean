import KuksaVal.Requests
import KuksaVal.TokenRights
import KuksaVal.WebSocketSession

/-! Connections from their acceptance on: the transport is detected, an HTTP session reads requests
until one of them asks for an upgrade, and a WebSocket session answers what it reads. The
operations of a session complete in any order. -/

/-- What a read completes with; `closed` is the regular end of the stream. -/
inductive ReadCode where
  | success
  | operationAborted
  | closed
  | other
  deriving DecidableEq

/-- An HTTP session, with the numbers of its operations that have not completed. -/
structure HttpSession where
  channel : KuksaChannel
  handshakes : ℕ := 0
  reads : ℕ := 0
  waits : ℕ := 0
  shutdowns : ℕ := 0
  eof : Bool := false

namespace HttpSession

variable (s : HttpSession)

/-- What holds the session, which is freed when nothing does. -/
def pending : ℕ := s.handshakes + s.reads + s.waits + s.shutdowns

def doRead : HttpSession := { s with reads := s.reads + 1 }

/-- Of a plain connection; the timer is operated continuously. -/
def runPlain (channel : KuksaChannel) : HttpSession := doRead { channel := channel, waits := 1 }

/-- Of a secure one; the timer is not waited for. -/
def runSsl (channel : KuksaChannel) : HttpSession := { channel := channel, handshakes := 1 }

def onHandshake (ec : ErrorCode) : HttpSession :=
  let s := { s with handshakes := s.handshakes - 1 }
  if ec = .success then s.doRead else s

/-- A plain socket is shut down at once. -/
def doEof : HttpSession :=
  if s.channel.typeOfConnection = .httpSsl then
    { s with eof := true, shutdowns := s.shutdowns + 1 }
  else s

/-- The session, and whether its stream goes to a new WebSocket session. Other requests are
ignored, and errors are only logged. -/
def onRead (rc : ReadCode) (isUpgrade : Bool) : HttpSession × Bool :=
  let s := { s with reads := s.reads - 1 }
  match rc with
  | .operationAborted => (s, false)
  | .closed => (s.doEof, false)
  | .success | .other => if isUpgrade then (s, true) else (s.doRead, false)

/-- The session, and whether it failed. A timeout closes the socket. -/
def onTimer (ec : ErrorCode) (expired : Bool) : HttpSession × Bool :=
  let s := { s with waits := s.waits - 1 }
  match ec with
  | .other => (s, true)
  | .success | .operationAborted =>
      if expired then (s, false) else ({ s with waits := s.waits + 1 }, false)

def onShutdown : HttpSession := { s with shutdowns := s.shutdowns - 1 }

end HttpSession

/-- A message that was written to a client. -/
inductive Written where
  | answer (message : Message)
  | notification (message : Message)

namespace Written

def message : Written → Message
  | answer message => message
  | notification message => message

def answer? : Written → Option Message
  | answer message => some message
  | notification _ => none

def notification? : Written → Option Message
  | answer _ => none
  | notification message => some message

end Written

/-- A WebSocket session, with its output queue and the numbers of its other operations that have
not completed; `closes` are those that close the connection. -/
structure SocketSession where
  channel : KuksaChannel
  stream : WebSocketSession := {}
  outgoing : List Written := []
  accepts : ℕ := 0
  reads : ℕ := 0
  waits : ℕ := 0
  pings : ℕ := 0
  closes : ℕ := 0
  pingState : ℕ := 0
  ended : Bool := false

namespace SocketSession

variable (s : SocketSession)

/-- What holds the session, which is freed when nothing does. -/
def pending : ℕ :=
  s.accepts + s.reads + s.waits + s.pings + s.closes + s.stream.outstanding.length

/-- The timer is waited for, and the handshake is accepted. -/
def run (channel : KuksaChannel) : SocketSession :=
  { channel := channel, waits := 1, accepts := 1 }

def doRead : SocketSession := { s with reads := s.reads + 1 }

def write (w : Written) : SocketSession :=
  { s with stream := s.stream.write w.message, outgoing := s.outgoing ++ [w] }

/-- The session, and whether it failed. -/
def onAccept (ec : ErrorCode) : SocketSession × Bool :=
  let s := { s with accepts := s.accepts - 1 }
  match ec with
  | .operationAborted => (s, false)
  | .other => (s, true)
  | .success => (s.doRead, false)

def asyncWait : SocketSession := { s with waits := s.waits + 1 }

/-- A secure session goes on waiting for the timer, which does not expire. -/
def doTimeout : SocketSession :=
  if s.ended then s
  else if s.channel.typeOfConnection = .websocketSsl then
    { s.asyncWait with ended := true, closes := s.closes + 1 }
  else { s with ended := true, closes := s.closes + 1 }

/-- The session, and whether it failed. The first time that the timer expires a ping is sent. -/
def onTimer (ec : ErrorCode) (expired isOpen : Bool) : SocketSession × Bool :=
  let s := { s with waits := s.waits - 1 }
  match ec with
  | .other => (s, true)
  | .success | .operationAborted =>
      if expired then
        if isOpen ∧ s.pingState = 0 then
          ({ s with pingState := 1, pings := s.pings + 1 }.asyncWait, false)
        else (s.doTimeout, false)
      else (s.asyncWait, false)

def activity : SocketSession := { s with pingState := 0 }

/-- The bytes of a text. -/
def messageOf (text : String) : Message := text.toUTF8.data.toList

/-- A request has been answered, and the next one is read. -/
def respond (channel : KuksaChannel) (answer : Json) : SocketSession :=
  ({ s.activity with channel := channel }.write (.answer (messageOf answer.asString))).doRead

/-- The session, and whether it failed. What is not a first ping has seen activity since. -/
def onPing (ec : ErrorCode) : SocketSession × Bool :=
  let s := { s with pings := s.pings - 1 }
  match ec with
  | .operationAborted => (s, false)
  | .other => (s, true)
  | .success => (if s.pingState = 1 then { s with pingState := 2 } else s, false)

/-- The session, and whether it is removed: a plain one when closing failed, a secure one when its
shutdown succeeded or failed. -/
def onClose (ec : ErrorCode) : SocketSession × Bool :=
  let s := { s with closes := s.closes - 1 }
  match ec with
  | .operationAborted => (s, false)
  | .other => (s, true)
  | .success => (s, s.channel.typeOfConnection = .websocketSsl)

end SocketSession

/-- A connection: what was detected of it, whether the handshake of a secure one has succeeded, and
its sessions. -/
structure Connection where
  detecting : Bool := true
  ssl : Option Bool := none
  secured : Bool := false
  http : Option HttpSession := none
  socket : Option SocketSession := none

/-- One of its sessions is at the address. -/
def Connection.holds (c : Connection) (address : ℕ) : Bool :=
  c.http.any (fun s => 0 < s.pending ∧ s.channel.connectionID = address) ||
    c.socket.any fun s => 0 < s.pending ∧ s.channel.connectionID = address

/-- What the command processor has been given to do. -/
inductive Served where
  | opened (k : ℕ) (channel : KuksaChannel)
  | request (k : ℕ) (r : ClientRequest)
  | others (server : Server)

/-- A request that was handled, with the channel it came on. -/
structure HandledRequest where
  connection : ℕ
  channel : KuksaChannel
  answer : Json

/-- The server, the connections by number, and by type the addresses in the maps of clients. What
was served and answered is noted, what was sent as a notification, and the connection whose secure
HTTP session was the last at an address. -/
structure ConnectionServer where
  server : Server
  allowInsecureConns : Bool
  opened : ℕ := 0
  connections : ℕ → Option Connection := fun _ => none
  clients : ChannelType → ℕ → Bool := fun _ _ => false
  served : List Served := []
  handled : List HandledRequest := []
  notified : List (ℕ × Message) := []
  lastAt : ℕ → Option ℕ := fun _ => none

/-- What completes, with the address of a session that is made on it; a notification is sent to an
address. -/
inductive ConnectionEvent where
  | accept
  | detect (k : ℕ) (ec : ErrorCode) (result : Bool) (address : ℕ)
  | handshake (k : ℕ) (ec : ErrorCode)
  | httpRead (k : ℕ) (rc : ReadCode) (isUpgrade : Bool) (address : ℕ)
  | httpTimer (k : ℕ) (ec : ErrorCode) (expired : Bool)
  | httpShutdown (k : ℕ) (ec : ErrorCode)
  | upgrade (k : ℕ) (ec : ErrorCode)
  | timer (k : ℕ) (ec : ErrorCode) (expired isOpen : Bool)
  | ping (k : ℕ) (ec : ErrorCode)
  | control (k : ℕ)
  | read (k : ℕ) (rc : ReadCode) (r : ClientRequest)
  | written (k i : ℕ) (ec : ErrorCode) (bytesTransferred : ℕ)
  | close (k : ℕ) (ec : ErrorCode)
  | send (connID : ℕ) (message : Message)
  | others (server : Server)

namespace ConnectionServer
open VssCommandProcessor

variable (pf : Platform) (st : ConnectionServer)

def setConnection (k : ℕ) (c : Connection) : ConnectionServer :=
  { st with connections := Function.update st.connections k (some c) }

def setClient (type : ChannelType) (address : ℕ) (present : Bool) : ConnectionServer :=
  { st with
    clients := Function.update st.clients type (Function.update (st.clients type) address present) }

/-- The channel of a new session, which is entered in the map of its type. -/
def channelOf (type : ChannelType) (address : ℕ) : KuksaChannel :=
  (({} : KuksaChannel).setConnID address).setType type

/-- The session is removed from its map, where its handler says so. -/
def removeIf (removed : Bool) (channel : KuksaChannel) : ConnectionServer :=
  if removed then st.setClient channel.typeOfConnection channel.connectionID false else st

def occupied (address : ℕ) : Bool :=
  (List.range st.opened).any fun k => (st.connections k).any fun c => c.holds address

/-- A step that may make a session, which comes to an address at which there is none. -/
def atFree (address : ℕ) (st' : ConnectionServer) : Option ConnectionServer :=
  if st.occupied address then none else some st'

/-- The HTTP session of a connection with an operation that has not completed. -/
def http? (k : ℕ) (pending : HttpSession → ℕ) : Option (Connection × HttpSession) :=
  (st.connections k).bind fun c =>
    (c.http.filter fun s => 0 < pending s).map fun s => (c, s)

def socket? (k : ℕ) (pending : SocketSession → ℕ) : Option (Connection × SocketSession) :=
  (st.connections k).bind fun c =>
    (c.socket.filter fun s => 0 < pending s).map fun s => (c, s)

/-- A secure session is launched, or a plain one if that is allowed. -/
def onDetect (k : ℕ) (c : Connection) (ec : ErrorCode) (result : Bool) (address : ℕ) :
    ConnectionServer :=
  let c := { c with detecting := false }
  if ec ≠ .success then st.setConnection k c
  else if result then
    let st := { st with lastAt := Function.update st.lastAt address (some k) }
    (st.setConnection k { c with
      ssl := some true
      http := some (.runSsl (channelOf .httpSsl address)) }).setClient .httpSsl address true
  else if st.allowInsecureConns then
    (st.setConnection k { c with
      ssl := some false
      http := some (.runPlain (channelOf .httpPlain address)) }).setClient .httpPlain address true
  else st.setConnection k { c with ssl := some false }

/-- The WebSocket session of a stream that an HTTP session has released. -/
def makeWebsocketSession (k : ℕ) (c : Connection) (type : ChannelType) (address : ℕ) :
    ConnectionServer :=
  let channel := channelOf type address
  let st := { st with served := st.served ++ [Served.opened k channel] }
  (st.setConnection k { c with socket := some (.run channel) }).setClient type address true

/-- The type of the WebSocket sessions that an HTTP session makes. -/
def upgradeType (channel : KuksaChannel) : ChannelType :=
  if channel.typeOfConnection = .httpSsl then .websocketSsl else .websocketPlain

def onHttpRead (k : ℕ) (c : Connection) (s : HttpSession) (rc : ReadCode) (isUpgrade : Bool)
    (address : ℕ) : ConnectionServer :=
  let c := { c with http := some (s.onRead rc isUpgrade).1 }
  if (s.onRead rc isUpgrade).2 then st.makeWebsocketSession k c (upgradeType s.channel) address
  else st.setConnection k c

/-- The request is answered, and the next one is read. Exceptions that are not caught end the
process. -/
def answer (k : ℕ) (c : Connection) (s : SocketSession) (r : ClientRequest) :
    Option ConnectionServer :=
  match processQuery pf r.clock st.server r.subId r.reqJson s.channel with
  | (.error _, _) => none
  | (.ok answer, server, channel) =>
      some { st.setConnection k { c with socket := some (s.respond channel answer) } with
        server := server
        served := st.served ++ [.request k r]
        handled := st.handled ++ [⟨k, s.channel, answer⟩] }

/-- After an error the session is removed, but what was read is still handled. -/
def onRead (k : ℕ) (c : Connection) (s : SocketSession) (rc : ReadCode) (r : ClientRequest) :
    Option ConnectionServer :=
  let s := { s with reads := s.reads - 1 }
  match rc with
  | .operationAborted => some (st.setConnection k { c with socket := some s })
  | .closed => some ((st.setConnection k { c with socket := some s }).removeIf true s.channel)
  | .other => (st.removeIf true s.channel).answer pf k c s r
  | .success => st.answer pf k c s r

def notify (k : ℕ) (c : Connection) (s : SocketSession) (message : Message) : ConnectionServer :=
  { st.setConnection k { c with socket := some (s.write (.notification message)) } with
    notified := st.notified ++ [(k, message)] }

/-- The address of a session of the map is written to. The map can outlive the session: what a
write does then is undefined, and no step of the model. -/
def writeTo (type : ChannelType) (connID : ℕ) (message : Message) : Option ConnectionServer :=
  (List.range st.opened).findSome? fun k =>
    ((st.socket? k SocketSession.pending).filter fun (_, s) =>
      s.channel.typeOfConnection = type ∧ s.channel.connectionID = connID).map fun (c, s) =>
        st.notify k c s message

/-- The maps of plain and of secure WebSocket sessions are searched in this order; to an HTTP
session, or to one that is in no map, nothing is written. -/
def sendToConnection (connID : ℕ) (message : Message) : Option ConnectionServer :=
  if st.clients .websocketPlain connID then st.writeTo .websocketPlain connID message
  else if st.clients .websocketSsl connID then st.writeTo .websocketSsl connID message
  else some st

def setSocket (k : ℕ) (c : Connection) (outcome : SocketSession × Bool) : ConnectionServer :=
  (st.setConnection k { c with socket := some outcome.1 }).removeIf outcome.2 outcome.1.channel

def next : ConnectionEvent → Option ConnectionServer
  | .accept => some { st.setConnection st.opened {} with opened := st.opened + 1 }
  | .detect k ec result address =>
      ((st.connections k).filter Connection.detecting).bind fun c =>
        st.atFree address (st.onDetect k c ec result address)
  | .handshake k ec =>
      (st.http? k HttpSession.handshakes).map fun (c, s) => st.setConnection k { c with
        secured := c.secured || ec = .success
        http := some (s.onHandshake ec) }
  | .httpRead k rc isUpgrade address =>
      (st.http? k HttpSession.reads).bind fun (c, s) =>
        st.atFree address (st.onHttpRead k c s rc isUpgrade address)
  | .httpTimer k ec expired =>
      (st.http? k HttpSession.waits).map fun (c, s) =>
        (st.setConnection k { c with http := some (s.onTimer ec expired).1 }).removeIf
          (s.onTimer ec expired).2 s.channel
  | .httpShutdown k ec =>
      (st.http? k HttpSession.shutdowns).map fun (c, s) =>
        (st.setConnection k { c with http := some s.onShutdown }).removeIf (ec = .success)
          s.channel
  | .upgrade k ec =>
      (st.socket? k SocketSession.accepts).map fun (c, s) => st.setSocket k c (s.onAccept ec)
  | .timer k ec expired isOpen =>
      (st.socket? k SocketSession.waits).map fun (c, s) =>
        st.setSocket k c (s.onTimer ec expired isOpen)
  | .ping k ec =>
      (st.socket? k SocketSession.pings).map fun (c, s) => st.setSocket k c (s.onPing ec)
  | .control k =>
      (st.socket? k SocketSession.reads).map fun (c, s) =>
        st.setSocket k c (s.activity, false)
  | .read k rc r => (st.socket? k SocketSession.reads).bind fun (c, s) => st.onRead pf k c s rc r
  | .written k i ec bytesTransferred =>
      (st.socket? k fun s => s.stream.outstanding.length).bind fun (c, s) =>
        (s.stream.next (.completion i ec bytesTransferred)).map fun stream =>
          st.setSocket k c ({ s with stream := stream }, ec = .other)
  | .close k ec =>
      (st.socket? k SocketSession.closes).map fun (c, s) => st.setSocket k c (s.onClose ec)
  | .send connID message => st.sendToConnection connID message
  | .others server => some { st with server := server, served := st.served ++ [.others server] }

/-- All runs of a server without connections. -/
def system (server : Server) (allowInsecureConns : Bool) :
    TransitionSystem ConnectionServer ConnectionEvent :=
  .ofNext { server := server, allowInsecureConns := allowInsecureConns } (next pf)

variable {pf st} {st' : ConnectionServer} {k : ℕ} {c : Connection}

section Fields
variable (type : ChannelType) (present removed : Bool) (channel : KuksaChannel)

@[simp] theorem setClient_connections :
    (st.setClient type k present).connections = st.connections := rfl

@[simp] theorem removeIf_connections :
    (st.removeIf removed channel).connections = st.connections := by
  cases removed <;> rfl

@[simp] theorem removeIf_allowInsecureConns :
    (st.removeIf removed channel).allowInsecureConns = st.allowInsecureConns := by
  cases removed <;> rfl

@[simp] theorem removeIf_served : (st.removeIf removed channel).served = st.served := by
  cases removed <;> rfl

@[simp] theorem removeIf_handled : (st.removeIf removed channel).handled = st.handled := by
  cases removed <;> rfl

@[simp] theorem removeIf_server : (st.removeIf removed channel).server = st.server := by
  cases removed <;> rfl

@[simp] theorem removeIf_opened : (st.removeIf removed channel).opened = st.opened := by
  cases removed <;> rfl

@[simp] theorem removeIf_notified : (st.removeIf removed channel).notified = st.notified := by
  cases removed <;> rfl

@[simp] theorem removeIf_lastAt : (st.removeIf removed channel).lastAt = st.lastAt := by
  cases removed <;> rfl

end Fields

theorem http?_eq_some {pending : HttpSession → ℕ} {s : HttpSession} :
    st.http? k pending = some (c, s) ↔
      st.connections k = some c ∧ c.http = some s ∧ 0 < pending s := by
  simp [http?, Option.bind_eq_some_iff, Option.filter_eq_some_iff]

theorem socket?_eq_some {pending : SocketSession → ℕ} {s : SocketSession} :
    st.socket? k pending = some (c, s) ↔
      st.connections k = some c ∧ c.socket = some s ∧ 0 < pending s := by
  simp [socket?, Option.bind_eq_some_iff, Option.filter_eq_some_iff]

theorem atFree_eq_some {address : ℕ} {d : ConnectionServer} :
    st.atFree address d = some st' ↔ st.occupied address = false ∧ d = st' := by
  simp [atFree]

/-- A notification is written to the session at its address, if to any. -/
theorem sendToConnection_cases {connID : ℕ} {message : Message}
    (h : st.sendToConnection connID message = some st') :
    st' = st ∨ ∃ k c s, st.connections k = some c ∧ c.socket = some s ∧
      st' = st.notify k c s message := by
  have hwrite {type : ChannelType} (hw : st.writeTo type connID message = some st') :
      ∃ k c s, st.connections k = some c ∧ c.socket = some s ∧ st' = st.notify k c s message := by
    obtain ⟨k, -, hk⟩ := List.exists_of_findSome?_eq_some hw
    obtain ⟨⟨c, s⟩, hcs, rfl⟩ := Option.map_eq_some_iff.mp hk
    obtain ⟨hc, hs, -⟩ := socket?_eq_some.mp (Option.filter_eq_some_iff.mp hcs).1
    exact ⟨k, c, s, hc, hs, rfl⟩
  unfold sendToConnection at h
  split_ifs at h
  · exact .inr (hwrite h)
  · exact .inr (hwrite h)
  · exact .inl (Option.some.inj h).symm

end ConnectionServer

/-! What one session does. Of the operations that follow on one another it has one outstanding. -/

/-- A read follows on a handshake or a read, and a shutdown ends the reading. -/
structure HttpSession.Single (s : HttpSession) : Prop where
  chain : s.handshakes + s.reads + s.shutdowns ≤ 1
  waits : s.waits ≤ 1

namespace HttpSession
variable {s : HttpSession}

theorem Single.onHandshake (h : s.Single) (hp : 0 < s.handshakes) (ec : ErrorCode) :
    (s.onHandshake ec).Single := by
  obtain ⟨hchain, hwaits⟩ := h
  unfold HttpSession.onHandshake doRead
  split_ifs <;> exact ⟨by simp only; omega, hwaits⟩

theorem Single.onRead (h : s.Single) (hp : 0 < s.reads) (rc : ReadCode) (isUpgrade : Bool) :
    (s.onRead rc isUpgrade).1.Single := by
  obtain ⟨hchain, hwaits⟩ := h
  have hdone : ({ s with reads := s.reads - 1 } : HttpSession).Single :=
    ⟨by simp only; omega, hwaits⟩
  have hnext : (if isUpgrade then ({ s with reads := s.reads - 1 }, true)
      else ({ s with reads := s.reads - 1 }.doRead, false) : HttpSession × Bool).1.Single := by
    split_ifs
    · exact hdone
    · exact ⟨by simp only [doRead]; omega, hwaits⟩
  cases rc with
  | operationAborted => exact hdone
  | closed =>
    unfold HttpSession.onRead doEof
    dsimp only
    split_ifs
    · exact ⟨by simp only; omega, hwaits⟩
    · exact hdone
  | success => exact hnext
  | other => exact hnext

theorem Single.onTimer (h : s.Single) (hp : 0 < s.waits) (ec : ErrorCode) (expired : Bool) :
    (s.onTimer ec expired).1.Single := by
  obtain ⟨hchain, hwaits⟩ := h
  have hdone : ({ s with waits := s.waits - 1 } : HttpSession).Single :=
    ⟨hchain, by simp only; omega⟩
  unfold HttpSession.onTimer
  cases ec with
  | other => exact hdone
  | _ =>
    dsimp only
    split_ifs
    · exact hdone
    · exact ⟨hchain, by simp only; omega⟩

theorem Single.onShutdown (h : s.Single) : s.onShutdown.Single := by
  obtain ⟨hchain, hwaits⟩ := h
  exact ⟨by unfold HttpSession.onShutdown; simp only; omega, hwaits⟩

theorem onHandshake_channel (ec : ErrorCode) : (s.onHandshake ec).channel = s.channel := by
  unfold HttpSession.onHandshake
  split_ifs <;> rfl

theorem onRead_channel (rc : ReadCode) (isUpgrade : Bool) :
    (s.onRead rc isUpgrade).1.channel = s.channel := by
  unfold HttpSession.onRead doEof
  cases rc <;> cases isUpgrade <;> dsimp only [doRead] <;> (try split_ifs) <;> rfl

/-- The timer leaves all but the waiting for it. -/
theorem onTimer_fst (ec : ErrorCode) (expired : Bool) :
    ∃ n, (s.onTimer ec expired).1 = { s with waits := n } := by
  unfold HttpSession.onTimer
  cases ec <;> cases expired <;> exact ⟨_, rfl⟩

end HttpSession

/-- A read follows on the handshake or a read; the timer is waited for once, and the connection
closed once. -/
structure SocketSession.Single (s : SocketSession) : Prop where
  chain : s.accepts + s.reads ≤ 1
  waits : s.waits ≤ 1
  closes : s.closes ≤ 1
  ended : 0 < s.closes → s.ended = true

namespace SocketSession
variable {s : SocketSession}

theorem single_run (channel : KuksaChannel) : (run channel).Single :=
  ⟨le_rfl, le_rfl, Nat.zero_le 1, fun h => absurd h (Nat.lt_irrefl 0)⟩

theorem Single.onAccept (h : s.Single) (hp : 0 < s.accepts) (ec : ErrorCode) :
    (s.onAccept ec).1.Single := by
  have hchain := h.chain
  unfold SocketSession.onAccept doRead
  cases ec <;> exact ⟨by simp only; omega, h.waits, h.closes, h.ended⟩

theorem Single.doTimeout (h : s.Single) (hw : s.waits = 0) : s.doTimeout.Single := by
  have hcloses : s.ended = false → s.closes = 0 := by
    intro he
    by_contra hc
    simp [h.ended (Nat.pos_of_ne_zero hc)] at he
  unfold SocketSession.doTimeout asyncWait
  split_ifs with he ht
  · exact h
  · have hc := hcloses (by simpa using he)
    exact ⟨h.chain, by simp [hw], by simp [hc], fun _ => rfl⟩
  · have hc := hcloses (by simpa using he)
    exact ⟨h.chain, h.waits, by simp [hc], fun _ => rfl⟩

theorem Single.onTimer (h : s.Single) (hp : 0 < s.waits) (ec : ErrorCode) (expired isOpen : Bool) :
    (s.onTimer ec expired isOpen).1.Single := by
  have hwaits := h.waits
  have hdone : ({ s with waits := s.waits - 1 } : SocketSession).Single :=
    ⟨h.chain, by simp only; omega, h.closes, h.ended⟩
  unfold SocketSession.onTimer
  cases ec with
  | other => exact hdone
  | _ =>
    dsimp only
    split_ifs
    · exact ⟨h.chain, by simp only [asyncWait]; omega, h.closes, h.ended⟩
    · exact hdone.doTimeout (by simp only; omega)
    · exact ⟨h.chain, by simp only [asyncWait]; omega, h.closes, h.ended⟩

theorem Single.onPing (h : s.Single) (ec : ErrorCode) : (s.onPing ec).1.Single := by
  unfold SocketSession.onPing
  cases ec <;> dsimp only <;> (try split_ifs) <;> exact ⟨h.chain, h.waits, h.closes, h.ended⟩

theorem Single.onClose (h : s.Single) (hp : 0 < s.closes) (ec : ErrorCode) :
    (s.onClose ec).1.Single := by
  have hcloses := h.closes
  have hdone : ({ s with closes := s.closes - 1 } : SocketSession).Single :=
    ⟨h.chain, h.waits, by simp only; omega, fun hc => absurd hc (by simp only; omega)⟩
  unfold SocketSession.onClose
  cases ec <;> exact hdone

theorem Single.respond (h : s.Single) (hr : s.accepts + s.reads = 0) (channel : KuksaChannel)
    (answer : Json) : (s.respond channel answer).Single :=
  ⟨by simp only [SocketSession.respond, doRead, write, activity]; omega, h.waits, h.closes, h.ended⟩

/-- What is said on a session, and to whom. -/
def core (s : SocketSession) : KuksaChannel × WebSocketSession × List Written :=
  (s.channel, s.stream, s.outgoing)

theorem onAccept_core (ec : ErrorCode) : (s.onAccept ec).1.core = s.core := by
  cases ec <;> rfl

theorem doTimeout_core : s.doTimeout.core = s.core := by
  unfold SocketSession.doTimeout
  split_ifs <;> rfl

theorem onTimer_core (ec : ErrorCode) (expired isOpen : Bool) :
    (s.onTimer ec expired isOpen).1.core = s.core := by
  unfold SocketSession.onTimer
  cases ec with
  | other => rfl
  | _ =>
    dsimp only
    split_ifs
    · rfl
    · exact doTimeout_core
    · rfl

theorem onPing_core (ec : ErrorCode) : (s.onPing ec).1.core = s.core := by
  unfold SocketSession.onPing
  cases ec <;> dsimp only <;> (try split_ifs) <;> rfl

theorem onClose_core (ec : ErrorCode) : (s.onClose ec).1.core = s.core := by
  cases ec <;> rfl

end SocketSession

/-! Requests come over what was detected and allowed. -/

namespace Connection

/-- The transport of an HTTP session, which reads when the handshake has succeeded. -/
def Carries (c : Connection) (allowInsecure : Bool) (s : HttpSession) : Prop :=
  s.channel.typeOfConnection = .httpSsl ∧ c.ssl = some true ∧ (0 < s.reads → c.secured = true) ∨
    s.channel.typeOfConnection = .httpPlain ∧ c.ssl = some false ∧ allowInsecure = true

/-- The transport of a WebSocket session. -/
def Secures (c : Connection) (allowInsecure : Bool) (channel : KuksaChannel) : Prop :=
  channel.typeOfConnection = .websocketSsl ∧ c.ssl = some true ∧ c.secured = true ∨
    channel.typeOfConnection = .websocketPlain ∧ c.ssl = some false ∧ allowInsecure = true

/-- The sessions come one after the other. -/
structure Ordered (allowInsecure : Bool) (c : Connection) : Prop where
  undetected : c.detecting = true → c.http = none ∧ c.socket = none
  http : ∀ s, c.http = some s → s.Single ∧ c.Carries allowInsecure s
  socket : ∀ s, c.socket = some s → s.Single ∧ c.Secures allowInsecure s.channel ∧
    ∃ h, c.http = some h ∧ h.handshakes + h.reads + h.shutdowns = 0

variable {allowInsecure : Bool} {c : Connection}

theorem Ordered.socket_none (h : c.Ordered allowInsecure) {s : HttpSession} (hs : c.http = some s)
    (hp : 0 < s.handshakes + s.reads + s.shutdowns) : c.socket = none := by
  cases hc : c.socket with
  | none => rfl
  | some t =>
    obtain ⟨-, -, h', hh, hz⟩ := h.socket t hc
    obtain rfl := Option.some.inj (hs.symm.trans hh)
    omega

theorem Ordered.not_detecting (h : c.Ordered allowInsecure) {s : HttpSession}
    (hs : c.http = some s) : c.detecting = false := by
  cases hd : c.detecting with
  | false => rfl
  | true => simp [(h.undetected hd).1] at hs

theorem Ordered.handshake (h : c.Ordered allowInsecure) {s : HttpSession} (hs : c.http = some s)
    (hp : 0 < s.handshakes) (ec : ErrorCode) :
    ({ c with secured := c.secured || ec = .success, http := some (s.onHandshake ec) } :
      Connection).Ordered allowInsecure := by
  obtain ⟨hsingle, hc⟩ := h.http s hs
  have hnone := h.socket_none hs (by omega)
  have hd := h.not_detecting hs
  refine ⟨fun hd' => by simp [hd] at hd', ?_, fun t ht => by simp [hnone] at ht⟩
  rintro t ht
  obtain rfl := Option.some.inj ht
  refine ⟨hsingle.onHandshake hp ec, ?_⟩
  unfold Carries
  rw [HttpSession.onHandshake_channel]
  refine hc.imp (fun ⟨ht, hssl, hsec⟩ => ⟨ht, hssl, ?_⟩) id
  intro hr
  by_cases he : ec = .success
  · simp [he]
  · have hreads : 0 < s.reads := by simpa [HttpSession.onHandshake, he] using hr
    simp [hsec hreads]

theorem Ordered.httpRead (h : c.Ordered allowInsecure) {s : HttpSession} (hs : c.http = some s)
    (hp : 0 < s.reads) (rc : ReadCode) (isUpgrade : Bool) :
    ({ c with http := some (s.onRead rc isUpgrade).1 } : Connection).Ordered allowInsecure := by
  obtain ⟨hsingle, hc⟩ := h.http s hs
  have hnone := h.socket_none hs (by omega)
  have hd := h.not_detecting hs
  refine ⟨fun hd' => by simp [hd] at hd', ?_, fun t ht => by simp [hnone] at ht⟩
  rintro t ht
  obtain rfl := Option.some.inj ht
  refine ⟨hsingle.onRead hp rc isUpgrade, ?_⟩
  unfold Carries
  rw [HttpSession.onRead_channel]
  exact hc.imp (fun ⟨ht, hssl, hsec⟩ => ⟨ht, hssl, fun _ => hsec hp⟩) id

/-- A session that is upgraded has nothing outstanding. -/
theorem onRead_upgrade {s : HttpSession} (hsingle : s.Single) (hp : 0 < s.reads) {rc : ReadCode}
    {isUpgrade : Bool} (hu : (s.onRead rc isUpgrade).2 = true) :
    (s.onRead rc isUpgrade).1.handshakes + (s.onRead rc isUpgrade).1.reads +
      (s.onRead rc isUpgrade).1.shutdowns = 0 := by
  have hchain := hsingle.chain
  cases rc <;> cases isUpgrade <;> simp_all [HttpSession.onRead] <;> omega

theorem Ordered.upgrade (h : c.Ordered allowInsecure) {s : HttpSession} (hs : c.http = some s)
    (hp : 0 < s.reads) {rc : ReadCode} {isUpgrade : Bool}
    (hu : (s.onRead rc isUpgrade).2 = true) (address : ℕ) :
    ({ c with
        http := some (s.onRead rc isUpgrade).1
        socket := some (.run (ConnectionServer.channelOf
          (ConnectionServer.upgradeType s.channel) address)) } :
      Connection).Ordered allowInsecure := by
  obtain ⟨hsingle, hc⟩ := h.http s hs
  obtain ⟨hund, hhttp, -⟩ := h.httpRead hs hp rc isUpgrade
  have hd := h.not_detecting hs
  refine ⟨fun hd' => by simp [hd] at hd', hhttp, ?_⟩
  rintro t ht
  obtain rfl := Option.some.inj ht
  refine ⟨SocketSession.single_run _, ?_, _, rfl, onRead_upgrade hsingle hp hu⟩
  rcases hc with ⟨ht, hssl, hsec⟩ | ⟨ht, hssl, hallow⟩
  · exact .inl ⟨by simp [ConnectionServer.upgradeType, ht, ConnectionServer.channelOf,
      SocketSession.run, KuksaChannel.setType], hssl, hsec hp⟩
  · exact .inr ⟨by simp [ConnectionServer.upgradeType, ht, ConnectionServer.channelOf,
      SocketSession.run, KuksaChannel.setType], hssl, hallow⟩

theorem Ordered.httpTimer (h : c.Ordered allowInsecure) {s : HttpSession} (hs : c.http = some s)
    (hp : 0 < s.waits) (ec : ErrorCode) (expired : Bool) :
    ({ c with http := some (s.onTimer ec expired).1 } : Connection).Ordered allowInsecure := by
  obtain ⟨hsingle, hc⟩ := h.http s hs
  have hsingle' := hsingle.onTimer hp ec expired
  obtain ⟨n, hn⟩ := s.onTimer_fst ec expired
  rw [hn] at hsingle' ⊢
  have hd := h.not_detecting hs
  refine ⟨fun hd' => by simp [hd] at hd', ?_, ?_⟩
  · rintro t ht
    obtain rfl := Option.some.inj ht
    exact ⟨hsingle', hc⟩
  · intro t ht
    obtain ⟨ht, hsec, h', hh, hz⟩ := h.socket t ht
    obtain rfl := Option.some.inj (hs.symm.trans hh)
    exact ⟨ht, hsec, _, rfl, hz⟩

theorem Ordered.httpShutdown (h : c.Ordered allowInsecure) {s : HttpSession}
    (hs : c.http = some s) (hp : 0 < s.shutdowns) :
    ({ c with http := some s.onShutdown } : Connection).Ordered allowInsecure := by
  obtain ⟨hsingle, hc⟩ := h.http s hs
  have hnone := h.socket_none hs (by omega)
  have hd := h.not_detecting hs
  refine ⟨fun hd' => by simp [hd] at hd', ?_, fun t ht => by simp [hnone] at ht⟩
  rintro t ht
  obtain rfl := Option.some.inj ht
  exact ⟨hsingle.onShutdown, hc⟩

/-- What a WebSocket session does leaves the HTTP session. -/
theorem Ordered.setSocket (h : c.Ordered allowInsecure) {s s' : SocketSession}
    (hs : c.socket = some s) (hsingle : s'.Single)
    (htype : s'.channel.typeOfConnection = s.channel.typeOfConnection) :
    ({ c with socket := some s' } : Connection).Ordered allowInsecure := by
  have hd : c.detecting = false := by
    cases hd : c.detecting with
    | false => rfl
    | true => simp [(h.undetected hd).2] at hs
  refine ⟨fun hd' => by simp [hd] at hd', h.http, ?_⟩
  rintro t ht
  obtain rfl := Option.some.inj ht
  obtain ⟨-, hsec, hhttp⟩ := h.socket s hs
  refine ⟨hsingle, ?_, hhttp⟩
  unfold Secures
  rw [htype]
  exact hsec

end Connection

namespace ConnectionServer
open VssCommandProcessor

/-- The connections are in order, and requests were handled, and notifications sent, on sessions
that are still known. -/
structure Lawful (st : ConnectionServer) : Prop where
  fresh : ∀ k, st.opened ≤ k → st.connections k = none
  ordered : ∀ k c, st.connections k = some c → c.Ordered st.allowInsecureConns
  handled : ∀ h ∈ st.handled, ∃ c s, st.connections h.connection = some c ∧ c.socket = some s ∧
    h.channel.typeOfConnection = s.channel.typeOfConnection
  notified : ∀ n ∈ st.notified, ∃ c s, st.connections n.1 = some c ∧ c.socket = some s

variable {pf : Platform} {st st' : ConnectionServer} {k : ℕ} {c c' : Connection}

/-- One connection changes, and keeps its WebSocket session. -/
structure Changes (st st' : ConnectionServer) (k : ℕ) (c c' : Connection) : Prop where
  before : st.connections k = some c
  after : st'.connections = Function.update st.connections k (some c')
  opened : st'.opened = st.opened
  allowInsecureConns : st'.allowInsecureConns = st.allowInsecureConns
  socket : ∀ s, c.socket = some s →
    ∃ s', c'.socket = some s' ∧ s'.channel.typeOfConnection = s.channel.typeOfConnection

theorem Lawful.changes (h : st.Lawful) (hc : st.Changes st' k c c')
    (ho : c'.Ordered st.allowInsecureConns)
    (hh : ∀ e ∈ st'.handled, e ∈ st.handled ∨ e.connection = k ∧ ∃ s, c'.socket = some s ∧
      e.channel.typeOfConnection = s.channel.typeOfConnection)
    (hn : ∀ n ∈ st'.notified, n ∈ st.notified ∨ n.1 = k ∧ ∃ s, c'.socket = some s) :
    st'.Lawful := by
  have hat (j : ℕ) : st'.connections j = if j = k then some c' else st.connections j := by
    rw [hc.after, Function.update_apply]
  refine ⟨?_, ?_, ?_, ?_⟩
  · intro j hj
    rw [hc.opened] at hj
    have hne : j ≠ k := by
      rintro rfl
      simpa [h.fresh j hj] using hc.before
    rw [hat, if_neg hne]
    exact h.fresh j hj
  · intro j d hd
    rw [hat] at hd
    rw [hc.allowInsecureConns]
    split_ifs at hd with hj
    · obtain rfl := Option.some.inj hd
      exact ho
    · exact h.ordered j d hd
  · intro e he
    rcases hh e he with he | ⟨rfl, s, hs, ht⟩
    · obtain ⟨d, s, hd, hs, ht⟩ := h.handled e he
      by_cases hj : e.connection = k
      · rw [hj, hc.before] at hd
        obtain rfl := Option.some.inj hd
        obtain ⟨s', hs', ht'⟩ := hc.socket s hs
        exact ⟨c', s', by rw [hat, if_pos hj], hs', ht.trans ht'.symm⟩
      · exact ⟨d, s, by rw [hat, if_neg hj, hd], hs, ht⟩
    · exact ⟨c', s, by rw [hat, if_pos rfl], hs, ht⟩
  · intro n hm
    rcases hn n hm with hm | ⟨hj, s, hs⟩
    · obtain ⟨d, s, hd, hs⟩ := h.notified n hm
      by_cases hj : n.1 = k
      · rw [hj, hc.before] at hd
        obtain rfl := Option.some.inj hd
        obtain ⟨s', hs', -⟩ := hc.socket s hs
        exact ⟨c', s', by rw [hat, if_pos hj], hs'⟩
      · exact ⟨d, s, by rw [hat, if_neg hj, hd], hs⟩
    · exact ⟨c', s, by rw [hat, if_pos hj], hs⟩

variable (pf) in
theorem sameConnection_processQuery (ck : Clock) (sv : Server) (subId : SubscriptionId)
    (reqJson : String) (channel : KuksaChannel) :
    SameConnection (processQuery pf ck sv subId reqJson channel).2.2 channel := by
  cases hp : pf.parse reqJson with
  | error e =>
    rw [processQuery_not_parsed hp]
    exact ⟨rfl, rfl, rfl⟩
  | ok request =>
    have he : Effect pf ck sv subId channel request
        (processQuery pf ck sv subId reqJson channel).2.1
        (processQuery pf ck sv subId reqJson channel).2.2 := processQuery_effect hp
    generalize (processQuery pf ck sv subId reqJson channel).2.1 = server at he
    generalize (processQuery pf ck sv subId reqJson channel).2.2 = channel' at he ⊢
    cases he with
    | authorize ha => exact Authenticator.validate_connection
    | _ => exact ⟨rfl, rfl, rfl⟩

theorem Lawful.removeIf (h : st.Lawful) (removed : Bool) (channel : KuksaChannel) :
    (st.removeIf removed channel).Lawful := by
  refine ⟨?_, ?_, ?_, ?_⟩ <;> simp only [removeIf_connections, removeIf_opened, removeIf_handled,
    removeIf_notified, removeIf_allowInsecureConns]
  · exact h.fresh
  · exact h.ordered
  · exact h.handled
  · exact h.notified

/-- A session's handler keeps the session's place, and its channel. -/
theorem Lawful.setSocket (h : st.Lawful) (hc : st.connections k = some c) {s : SocketSession}
    (hs : c.socket = some s) {o : SocketSession × Bool} (hsingle : o.1.Single)
    (ht : o.1.channel.typeOfConnection = s.channel.typeOfConnection) :
    (st.setSocket k c o).Lawful := by
  have hset : (st.setConnection k { c with socket := some o.1 }).Lawful := by
    refine h.changes ⟨hc, rfl, rfl, rfl, ?_⟩ ((h.ordered k c hc).setSocket hs hsingle ht)
      (fun e => .inl) fun n => .inl
    intro t ht'
    obtain rfl := Option.some.inj (hs.symm.trans ht')
    exact ⟨_, rfl, ht⟩
  exact hset.removeIf o.2 o.1.channel

/-- A read is answered on the connection that it came from. -/
theorem answer_eq_some {s : SocketSession} {r : ClientRequest}
    (h : st.answer pf k c s r = some st') : ∃ answer server channel,
      processQuery pf r.clock st.server r.subId r.reqJson s.channel =
        (.ok answer, server, channel) ∧
      st' = { st.setConnection k { c with socket := some (s.respond channel answer) } with
        server := server
        served := st.served ++ [.request k r]
        handled := st.handled ++ [⟨k, s.channel, answer⟩] } := by
  unfold ConnectionServer.answer at h
  split at h
  · simp at h
  · rename_i answer server channel hq
    exact ⟨answer, server, channel, hq, (Option.some.inj h).symm⟩

/-- A request is handled on a session whose read has completed. -/
theorem Lawful.answer (h : st.Lawful) (hc : st.connections k = some c) {s₀ s : SocketSession}
    (hs : c.socket = some s₀) (ht : s.channel = s₀.channel) (hsingle : s.Single)
    (hr : s.accepts + s.reads = 0) {r : ClientRequest} (ha : st.answer pf k c s r = some st') :
    st'.Lawful := by
  obtain ⟨answer, server, channel, hq, rfl⟩ := answer_eq_some ha
  have htype : channel.typeOfConnection = s₀.channel.typeOfConnection := by
    have hp := sameConnection_processQuery pf r.clock st.server r.subId r.reqJson s.channel
    rw [hq, ht] at hp
    exact hp.typeOfConnection
  refine h.changes ⟨hc, rfl, rfl, rfl, ?_⟩
    ((h.ordered k c hc).setSocket hs (hsingle.respond hr channel answer) htype) ?_
    fun n => .inl
  · intro t ht'
    obtain rfl := Option.some.inj (hs.symm.trans ht')
    exact ⟨_, rfl, htype⟩
  · intro e he
    rcases List.mem_append.mp he with he | he
    · exact .inl he
    · obtain rfl := List.mem_singleton.mp he
      exact .inr ⟨rfl, _, rfl, by rw [ht]; exact htype.symm⟩

theorem Lawful.onRead (h : st.Lawful) (hc : st.connections k = some c) {s : SocketSession}
    (hs : c.socket = some s) (hp : 0 < s.reads) {rc : ReadCode} {r : ClientRequest}
    (ha : st.onRead pf k c s rc r = some st') : st'.Lawful := by
  have hsingle := ((h.ordered k c hc).socket s hs).1
  have hchain := hsingle.chain
  have hdone : ({ s with reads := s.reads - 1 } : SocketSession).Single :=
    ⟨by simp only; omega, hsingle.waits, hsingle.closes, hsingle.ended⟩
  cases rc with
  | operationAborted =>
    obtain rfl := Option.some.inj ha
    exact h.setSocket hc hs (o := (_, false)) hdone rfl
  | closed =>
    obtain rfl := Option.some.inj ha
    exact h.setSocket hc hs (o := (_, true)) hdone rfl
  | other =>
    exact (h.removeIf true s.channel).answer (s := { s with reads := s.reads - 1 })
      (by simpa using hc) hs rfl hdone (by simp only; omega) ha
  | success =>
    exact h.answer (s := { s with reads := s.reads - 1 }) hc hs rfl hdone (by simp only; omega) ha

theorem Lawful.onDetect (h : st.Lawful) (hc : st.connections k = some c)
    (hd : c.detecting = true) (ec : ErrorCode) (result : Bool) (address : ℕ) :
    (st.onDetect k c ec result address).Lawful := by
  obtain ⟨hhttp, hsocket⟩ := (h.ordered k c hc).undetected hd
  have hplaced {c' : Connection} (ho : c'.Ordered st.allowInsecureConns) {st' : ConnectionServer}
      (hafter : st'.connections = Function.update st.connections k (some c'))
      (hopened : st'.opened = st.opened)
      (hallow : st'.allowInsecureConns = st.allowInsecureConns)
      (hhandled : st'.handled = st.handled) (hnotified : st'.notified = st.notified) :
      st'.Lawful :=
    h.changes ⟨hc, hafter, hopened, hallow, fun s hs => by simp [hsocket] at hs⟩ ho
      (fun e he => .inl (hhandled ▸ he)) fun n hm => .inl (hnotified ▸ hm)
  unfold ConnectionServer.onDetect
  dsimp only
  split_ifs with he hr hi
  · refine hplaced ⟨by simp, ?_, ?_⟩ rfl rfl rfl rfl rfl
    · simp [hhttp]
    · simp [hsocket]
  · refine hplaced ⟨by simp, ?_, ?_⟩ rfl rfl rfl rfl rfl
    · rintro s hs
      obtain rfl := Option.some.inj hs
      exact ⟨⟨le_rfl, Nat.zero_le 1⟩, .inl ⟨rfl, rfl, fun hp => absurd hp (Nat.lt_irrefl 0)⟩⟩
    · simp [hsocket]
  · refine hplaced ⟨by simp, ?_, ?_⟩ rfl rfl rfl rfl rfl
    · rintro s hs
      obtain rfl := Option.some.inj hs
      exact ⟨⟨le_rfl, le_rfl⟩, .inr ⟨rfl, rfl, hi⟩⟩
    · simp [hsocket]
  · refine hplaced ⟨by simp, ?_, ?_⟩ rfl rfl rfl rfl rfl
    · simp [hhttp]
    · simp [hsocket]

theorem Lawful.onHttpRead (h : st.Lawful) (hc : st.connections k = some c) {s : HttpSession}
    (hs : c.http = some s) (hp : 0 < s.reads) (rc : ReadCode) (isUpgrade : Bool) (address : ℕ) :
    (st.onHttpRead k c s rc isUpgrade address).Lawful := by
  have ho := h.ordered k c hc
  have hnone := ho.socket_none hs (by omega)
  unfold ConnectionServer.onHttpRead
  dsimp only
  split_ifs with hu
  · exact h.changes ⟨hc, rfl, rfl, rfl, fun t ht => by simp [hnone] at ht⟩
      (ho.upgrade hs hp hu address) (fun e => .inl) fun n => .inl
  · exact h.changes ⟨hc, rfl, rfl, rfl, fun t ht => by simp [hnone] at ht⟩
      (ho.httpRead hs hp rc isUpgrade) (fun e => .inl) fun n => .inl

theorem Lawful.setHttp (h : st.Lawful) (hc : st.connections k = some c)
    (ho : c'.Ordered st.allowInsecureConns) (hs : c'.socket = c.socket) (removed : Bool)
    (channel : KuksaChannel) : ((st.setConnection k c').removeIf removed channel).Lawful := by
  have hset : (st.setConnection k c').Lawful :=
    h.changes ⟨hc, rfl, rfl, rfl, fun s ht => ⟨s, hs ▸ ht, rfl⟩⟩ ho (fun e => .inl) fun n => .inl
  exact hset.removeIf removed channel

theorem Lawful.accept (h : st.Lawful) :
    ({ st.setConnection st.opened {} with opened := st.opened + 1 } : ConnectionServer).Lawful := by
  have hat (j : ℕ) : (st.setConnection st.opened {}).connections j =
      if j = st.opened then some {} else st.connections j := Function.update_apply ..
  have hkeeps {j : ℕ} {d : Connection} (hd : st.connections j = some d) :
      (st.setConnection st.opened {}).connections j = some d := by
    have hne : j ≠ st.opened := by
      rintro rfl
      simp [h.fresh st.opened le_rfl] at hd
    exact (hat j).trans ((if_neg hne).trans hd)
  refine ⟨?_, ?_, ?_, ?_⟩
  · intro j hj
    have hlt : st.opened + 1 ≤ j := hj
    exact (hat j).trans ((if_neg (by omega)).trans (h.fresh j (by omega)))
  · intro j d hd
    rw [show _ = _ from hat j] at hd
    split_ifs at hd
    · obtain rfl := Option.some.inj hd
      exact ⟨fun _ => ⟨rfl, rfl⟩, by simp, by simp⟩
    · exact h.ordered j d hd
  · intro e he
    obtain ⟨d, s, hd, hs, ht⟩ := h.handled e he
    exact ⟨d, s, hkeeps hd, hs, ht⟩
  · intro n hm
    obtain ⟨d, s, hd, hs⟩ := h.notified n hm
    exact ⟨d, s, hkeeps hd, hs⟩

theorem Lawful.notify (h : st.Lawful) (hc : st.connections k = some c) {s : SocketSession}
    (hs : c.socket = some s) (message : Message) : (st.notify k c s message).Lawful := by
  have hsingle := ((h.ordered k c hc).socket s hs).1
  have ho : ({ c with socket := some (s.write (.notification message)) } :
      Connection).Ordered st.allowInsecureConns :=
    (h.ordered k c hc).setSocket hs
      ⟨hsingle.chain, hsingle.waits, hsingle.closes, hsingle.ended⟩ rfl
  refine h.changes ⟨hc, rfl, rfl, rfl, ?_⟩ ho (fun e => .inl) ?_
  · intro t ht
    obtain rfl := Option.some.inj (hs.symm.trans ht)
    exact ⟨_, rfl, rfl⟩
  · intro n hm
    rcases List.mem_append.mp hm with hm | hm
    · exact .inl hm
    · obtain rfl := List.mem_singleton.mp hm
      exact .inr ⟨rfl, _, rfl⟩

theorem Lawful.next (h : st.Lawful) {e : ConnectionEvent} (hs : next pf st e = some st') :
    st'.Lawful := by
  have hcore {s s' : SocketSession} (hc : s'.core = s.core) :
      s'.channel.typeOfConnection = s.channel.typeOfConnection :=
    congrArg (fun core => core.1.typeOfConnection) hc
  cases e with
  | accept =>
    obtain rfl := Option.some.inj hs
    exact h.accept
  | detect k ec result address =>
    obtain ⟨c, hc, hs⟩ := Option.bind_eq_some_iff.mp hs
    obtain ⟨hc, hd⟩ := Option.filter_eq_some_iff.mp hc
    obtain ⟨-, rfl⟩ := atFree_eq_some.mp hs
    exact h.onDetect hc hd ec result address
  | handshake k ec =>
    obtain ⟨⟨c, s⟩, hc, rfl⟩ := Option.map_eq_some_iff.mp hs
    obtain ⟨hc, hs, hp⟩ := http?_eq_some.mp hc
    exact h.setHttp hc ((h.ordered k c hc).handshake hs hp ec) rfl false s.channel
  | httpRead k rc isUpgrade address =>
    obtain ⟨⟨c, s⟩, hc, ha⟩ := Option.bind_eq_some_iff.mp hs
    obtain ⟨hc, hhttp, hp⟩ := http?_eq_some.mp hc
    obtain ⟨-, rfl⟩ := atFree_eq_some.mp ha
    exact h.onHttpRead hc hhttp hp rc isUpgrade address
  | httpTimer k ec expired =>
    obtain ⟨⟨c, s⟩, hc, rfl⟩ := Option.map_eq_some_iff.mp hs
    obtain ⟨hc, hs, hp⟩ := http?_eq_some.mp hc
    exact h.setHttp hc ((h.ordered k c hc).httpTimer hs hp ec expired) rfl _ s.channel
  | httpShutdown k ec =>
    obtain ⟨⟨c, s⟩, hc, rfl⟩ := Option.map_eq_some_iff.mp hs
    obtain ⟨hc, hs, hp⟩ := http?_eq_some.mp hc
    exact h.setHttp hc ((h.ordered k c hc).httpShutdown hs hp) rfl _ s.channel
  | upgrade k ec =>
    obtain ⟨⟨c, s⟩, hc, rfl⟩ := Option.map_eq_some_iff.mp hs
    obtain ⟨hc, hs, hp⟩ := socket?_eq_some.mp hc
    have hsingle := ((h.ordered k c hc).socket s hs).1
    exact h.setSocket hc hs (hsingle.onAccept hp ec) (hcore (SocketSession.onAccept_core ec))
  | timer k ec expired isOpen =>
    obtain ⟨⟨c, s⟩, hc, rfl⟩ := Option.map_eq_some_iff.mp hs
    obtain ⟨hc, hs, hp⟩ := socket?_eq_some.mp hc
    have hsingle := ((h.ordered k c hc).socket s hs).1
    exact h.setSocket hc hs (hsingle.onTimer hp ec expired isOpen)
      (hcore (SocketSession.onTimer_core ec expired isOpen))
  | ping k ec =>
    obtain ⟨⟨c, s⟩, hc, rfl⟩ := Option.map_eq_some_iff.mp hs
    obtain ⟨hc, hs, hp⟩ := socket?_eq_some.mp hc
    have hsingle := ((h.ordered k c hc).socket s hs).1
    exact h.setSocket hc hs (hsingle.onPing ec) (hcore (SocketSession.onPing_core ec))
  | control k =>
    obtain ⟨⟨c, s⟩, hc, rfl⟩ := Option.map_eq_some_iff.mp hs
    obtain ⟨hc, hs, hp⟩ := socket?_eq_some.mp hc
    have hsingle := ((h.ordered k c hc).socket s hs).1
    exact h.setSocket hc hs (o := (s.activity, false))
      ⟨hsingle.chain, hsingle.waits, hsingle.closes, hsingle.ended⟩ rfl
  | read k rc r =>
    obtain ⟨⟨c, s⟩, hc, hs⟩ := Option.bind_eq_some_iff.mp hs
    obtain ⟨hc, hsock, hp⟩ := socket?_eq_some.mp hc
    exact h.onRead hc hsock hp hs
  | written k i ec n =>
    obtain ⟨⟨c, s⟩, hc, hs⟩ := Option.bind_eq_some_iff.mp hs
    obtain ⟨stream, -, rfl⟩ := Option.map_eq_some_iff.mp hs
    obtain ⟨hc, hs, hp⟩ := socket?_eq_some.mp hc
    have hsingle := ((h.ordered k c hc).socket s hs).1
    exact h.setSocket hc hs (o := ({ s with stream := stream }, ec = .other))
      ⟨hsingle.chain, hsingle.waits, hsingle.closes, hsingle.ended⟩ rfl
  | close k ec =>
    obtain ⟨⟨c, s⟩, hc, rfl⟩ := Option.map_eq_some_iff.mp hs
    obtain ⟨hc, hs, hp⟩ := socket?_eq_some.mp hc
    have hsingle := ((h.ordered k c hc).socket s hs).1
    exact h.setSocket hc hs (hsingle.onClose hp ec) (hcore (SocketSession.onClose_core ec))
  | send connID message =>
    rcases sendToConnection_cases hs with rfl | ⟨k, c, s, hc, hsock, rfl⟩
    · exact h
    · exact h.notify hc hsock message
  | others server =>
    obtain rfl := Option.some.inj hs
    exact ⟨h.fresh, h.ordered, h.handled, h.notified⟩

/-- What a completed operation makes of an HTTP session, and whether the session is removed. -/
inductive HttpStep (s : HttpSession) : HttpSession → Bool → Prop
  | handshake (hp : 0 < s.handshakes) (ec : ErrorCode) : HttpStep s (s.onHandshake ec) false
  | read (hp : 0 < s.reads) (rc : ReadCode) (isUpgrade : Bool) :
      HttpStep s (s.onRead rc isUpgrade).1 false
  | timer (hp : 0 < s.waits) (ec : ErrorCode) (expired : Bool) :
      HttpStep s (s.onTimer ec expired).1 (s.onTimer ec expired).2
  | shutdown (hp : 0 < s.shutdowns) (ec : ErrorCode) : HttpStep s s.onShutdown (ec = .success)

variable (pf st) in
/-- What an event does, as far as the clients and the command processor can tell. -/
inductive Effect (e : ConnectionEvent) : ConnectionServer → Prop
  | accept : Effect e { st.setConnection st.opened {} with opened := st.opened + 1 }
  | detect {k : ℕ} {c : Connection} (hc : st.connections k = some c) (hd : c.detecting = true)
      {address : ℕ} (hfree : st.occupied address = false) (ec : ErrorCode) (result : Bool) :
      Effect e (st.onDetect k c ec result address)
  | http {k : ℕ} {c d : Connection} {s t : HttpSession} {removed : Bool}
      (hc : st.connections k = some c) (hs : c.http = some s) (hd : d.http = some t)
      (hsocket : d.socket = c.socket) (hstep : HttpStep s t removed) :
      Effect e ((st.setConnection k d).removeIf removed s.channel)
  | upgrade {k : ℕ} {c d : Connection} {s : HttpSession} {rc : ReadCode} {isUpgrade : Bool}
      (hc : st.connections k = some c) (hs : c.http = some s) (hp : 0 < s.reads)
      (hu : (s.onRead rc isUpgrade).2 = true) (hd : d.http = some (s.onRead rc isUpgrade).1)
      (address : ℕ) : Effect e (st.makeWebsocketSession k d (upgradeType s.channel) address)
  | socket {k : ℕ} {c : Connection} {s t : SocketSession} (hc : st.connections k = some c)
      (hs : c.socket = some s) (hcore : t.core = s.core) (removed : Bool) :
      Effect e (st.setSocket k c (t, removed))
  | answer {k : ℕ} {c : Connection} {s t : SocketSession} (hc : st.connections k = some c)
      (hs : c.socket = some s) (hcore : t.core = s.core) (removed : Bool) {r : ClientRequest}
      {st' : ConnectionServer}
      (ha : (st.removeIf removed s.channel).answer pf k c t r = some st') : Effect e st'
  | written {k i : ℕ} {c : Connection} {s : SocketSession} {ec : ErrorCode} {n : ℕ}
      {stream : WebSocketSession} (hc : st.connections k = some c) (hs : c.socket = some s)
      (he : e = .written k i ec n) (hw : s.stream.next (.completion i ec n) = some stream) :
      Effect e (st.setSocket k c ({ s with stream := stream }, ec = .other))
  | send {k : ℕ} {c : Connection} {s : SocketSession} (hc : st.connections k = some c)
      (hs : c.socket = some s) (message : Message) : Effect e (st.notify k c s message)
  | others (server : Server) :
      Effect e { st with server := server, served := st.served ++ [.others server] }
  | nothing : Effect e st

theorem next_effect {e : ConnectionEvent} (hs : next pf st e = some st') : Effect pf st e st' := by
  cases e with
  | accept =>
    obtain rfl := Option.some.inj hs
    exact .accept
  | detect k ec result address =>
    obtain ⟨c, hc, hs⟩ := Option.bind_eq_some_iff.mp hs
    obtain ⟨hc, hd⟩ := Option.filter_eq_some_iff.mp hc
    obtain ⟨hfree, rfl⟩ := atFree_eq_some.mp hs
    exact .detect hc hd hfree ec result
  | handshake k ec =>
    obtain ⟨⟨c, s⟩, hc, rfl⟩ := Option.map_eq_some_iff.mp hs
    obtain ⟨hc, hs, hp⟩ := http?_eq_some.mp hc
    exact .http (d := { c with
      secured := c.secured || ec = .success
      http := some (s.onHandshake ec) }) hc hs rfl rfl (.handshake hp ec)
  | httpRead k rc isUpgrade address =>
    obtain ⟨⟨c, s⟩, hc, ha⟩ := Option.bind_eq_some_iff.mp hs
    obtain ⟨hc, hhttp, hp⟩ := http?_eq_some.mp hc
    obtain ⟨-, rfl⟩ := atFree_eq_some.mp ha
    unfold onHttpRead
    dsimp only
    split_ifs with hu
    · exact .upgrade hc hhttp hp hu rfl address
    · exact .http (d := { c with http := some (s.onRead rc isUpgrade).1 }) hc hhttp rfl rfl
        (.read hp rc isUpgrade)
  | httpTimer k ec expired =>
    obtain ⟨⟨c, s⟩, hc, rfl⟩ := Option.map_eq_some_iff.mp hs
    obtain ⟨hc, hs, hp⟩ := http?_eq_some.mp hc
    exact .http (d := { c with http := some (s.onTimer ec expired).1 }) hc hs rfl rfl
      (.timer hp ec expired)
  | httpShutdown k ec =>
    obtain ⟨⟨c, s⟩, hc, rfl⟩ := Option.map_eq_some_iff.mp hs
    obtain ⟨hc, hs, hp⟩ := http?_eq_some.mp hc
    exact .http (d := { c with http := some s.onShutdown }) hc hs rfl rfl (.shutdown hp ec)
  | upgrade k ec =>
    obtain ⟨⟨c, s⟩, hc, rfl⟩ := Option.map_eq_some_iff.mp hs
    obtain ⟨hc, hs, -⟩ := socket?_eq_some.mp hc
    exact .socket hc hs (SocketSession.onAccept_core ec) _
  | timer k ec expired isOpen =>
    obtain ⟨⟨c, s⟩, hc, rfl⟩ := Option.map_eq_some_iff.mp hs
    obtain ⟨hc, hs, -⟩ := socket?_eq_some.mp hc
    exact .socket hc hs (SocketSession.onTimer_core ec expired isOpen) _
  | ping k ec =>
    obtain ⟨⟨c, s⟩, hc, rfl⟩ := Option.map_eq_some_iff.mp hs
    obtain ⟨hc, hs, -⟩ := socket?_eq_some.mp hc
    exact .socket hc hs (SocketSession.onPing_core ec) _
  | control k =>
    obtain ⟨⟨c, s⟩, hc, rfl⟩ := Option.map_eq_some_iff.mp hs
    obtain ⟨hc, hs, -⟩ := socket?_eq_some.mp hc
    exact .socket (t := s.activity) hc hs rfl false
  | read k rc r =>
    obtain ⟨⟨c, s⟩, hc, ha⟩ := Option.bind_eq_some_iff.mp hs
    obtain ⟨hc, hsock, -⟩ := socket?_eq_some.mp hc
    cases rc with
    | operationAborted =>
      obtain rfl := Option.some.inj ha
      exact .socket (t := { s with reads := s.reads - 1 }) hc hsock rfl false
    | closed =>
      obtain rfl := Option.some.inj ha
      exact .socket (t := { s with reads := s.reads - 1 }) hc hsock rfl true
    | other => exact .answer (t := { s with reads := s.reads - 1 }) hc hsock rfl true ha
    | success => exact .answer (t := { s with reads := s.reads - 1 }) hc hsock rfl false ha
  | written k i ec n =>
    obtain ⟨⟨c, s⟩, hc, hw⟩ := Option.bind_eq_some_iff.mp hs
    obtain ⟨stream, hnext, rfl⟩ := Option.map_eq_some_iff.mp hw
    obtain ⟨hc, hs, -⟩ := socket?_eq_some.mp hc
    exact .written hc hs rfl hnext
  | close k ec =>
    obtain ⟨⟨c, s⟩, hc, rfl⟩ := Option.map_eq_some_iff.mp hs
    obtain ⟨hc, hs, -⟩ := socket?_eq_some.mp hc
    exact .socket hc hs (SocketSession.onClose_core ec) _
  | send connID message =>
    rcases sendToConnection_cases hs with rfl | ⟨k, c, s, hc, hsock, rfl⟩
    · exact .nothing
    · exact .send hc hsock message
  | others server =>
    obtain rfl := Option.some.inj hs
    exact .others server

theorem Effect.allowInsecureConns {e : ConnectionEvent} (h : Effect pf st e st') :
    st'.allowInsecureConns = st.allowInsecureConns := by
  cases h with
  | detect hc hd hfree ec result =>
    unfold onDetect
    dsimp only
    split_ifs <;> rfl
  | http hc hs hd hsocket hstep => simp [setConnection]
  | socket hc hs hcore removed => simp [setSocket, setConnection]
  | answer hc hs hcore removed ha =>
    obtain ⟨answer, server, channel, -, rfl⟩ := answer_eq_some ha
    simp [setConnection]
  | written hc hs he hw => simp [setSocket, setConnection]
  | _ => rfl

theorem lawful_start (server : Server) (allowInsecure : Bool) :
    ({ server := server, allowInsecureConns := allowInsecure } : ConnectionServer).Lawful :=
  ⟨fun _ _ => rfl, by simp, by simp, by simp⟩

theorem lawful_of_reachable {server : Server} {allowInsecure : Bool}
    (h : (system pf server allowInsecure).Reachable TransitionSystem.Any st) :
    st.Lawful ∧ st.allowInsecureConns = allowInsecure := by
  apply h.invariant (I := fun st => st.Lawful ∧ st.allowInsecureConns = allowInsecure)
  · rintro _ rfl
    exact ⟨lawful_start server allowInsecure, rfl⟩
  · rintro st e st' ⟨hl, ha⟩ - hs
    exact ⟨hl.next hs, (next_effect hs).allowInsecureConns.trans ha⟩

/-- Whatever completes, and in whatever order, requests are handled on secure connections whose
handshake has succeeded, and on plain ones only where they are allowed. An HTTP session has at most
one of a handshake, a read and a shutdown outstanding, and one wait for its timer; a WebSocket
session at most one of an accept and a read, one such wait and one closing. -/
theorem handled_securely (pf : Platform) (server : Server) (allowInsecure : Bool)
    (st : ConnectionServer)
    (h : (system pf server allowInsecure).Reachable TransitionSystem.Any st) :
    (∀ e ∈ st.handled, ∃ c, st.connections e.connection = some c ∧
      c.Secures allowInsecure e.channel) ∧
    ∀ k c, st.connections k = some c → (∀ s, c.http = some s → s.Single) ∧
      ∀ s, c.socket = some s → s.Single ∧ c.Secures allowInsecure s.channel := by
  obtain ⟨hl, rfl⟩ := lawful_of_reachable h
  refine ⟨?_, ?_⟩
  · intro e he
    obtain ⟨c, s, hc, hs, ht⟩ := hl.handled e he
    refine ⟨c, hc, ?_⟩
    unfold Connection.Secures
    rw [ht]
    exact ((hl.ordered _ c hc).socket s hs).2.1
  · intro k c hc
    refine ⟨fun s hs => ((hl.ordered k c hc).http s hs).1, fun s hs => ?_⟩
    exact ⟨((hl.ordered k c hc).socket s hs).1, ((hl.ordered k c hc).socket s hs).2.1⟩

section Greeting

/-- A server that reads no request. -/
def deafPlatform : Platform := .basic fun _ => .error "Parse error"

def emptyServer : Server := ⟨⟨.obj [], .obj []⟩, {}, ⟨"key"⟩⟩

/-- A secure connection is upgraded, and a request is read and answered. -/
def greeting : List ConnectionEvent :=
  [.accept, .detect 0 .success true 16, .handshake 0 .success, .httpRead 0 .success true 32,
    .upgrade 0 .success, .read 0 .success ⟨midnight, 0, "hello"⟩]

def greeted (es : List ConnectionEvent) : ConnectionServer :=
  TransitionSystem.after { server := emptyServer, allowInsecureConns := false }
    (next deafPlatform) es

theorem handled_securely_greeting : (greeted greeting).handled.length = 1 ∧
    ∀ e ∈ (greeted greeting).handled, e.channel.typeOfConnection = .websocketSsl := by
  refine ⟨by decide +kernel, ?_⟩
  intro e he
  obtain ⟨c, -, hc⟩ := (handled_securely deafPlatform emptyServer false (greeted greeting)
    (TransitionSystem.after_reachable greeting fun _ _ _ => trivial)).1 e he
  rcases hc with ⟨ht, -⟩ | ⟨-, -, hallow⟩
  · exact ht
  · simp at hallow

end Greeting

end ConnectionServer
