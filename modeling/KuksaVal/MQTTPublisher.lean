import KuksaVal.PermissionPatterns
import KuksaVal.Resolution

/-! The client that publishes values to a broker, for the paths that it was configured with. -/
open Json

structure MQTTPublisher where
  paths : List String := []
  keepalive : ℤ := 60
  qos : ℤ := 0
  connectionRetry : ℤ := 3
  prefix_ : String := "vss"
  host : String := "localhost"
  port : ℤ := 1883
  isConnected : Bool := false
  deriving DecidableEq, Repr

/-- What is handed to `mosquitto_publish`. -/
structure MqttMessage where
  topic : String
  payload : String
  qos : ℤ
  retain : Bool
  deriving DecidableEq, Repr

/-- `mosquitto_connect_async` with host, port and keepalive: whether the attempt with a number
succeeds. -/
abbrev ConnectAsync := String → ℤ → ℤ → ℕ → Bool

namespace MQTTPublisher

section Sending
variable (connect : ConnectAsync) (rx : StdRegex) (pub : MQTTPublisher)

/-- The first attempt that succeeds is the last one. -/
def start : Bool × MQTTPublisher :=
  if pub.isConnected || pub.paths.isEmpty then (pub.isConnected, pub)
  else
    let isConnected := (List.range pub.connectionRetry.toNat).any
      (connect pub.host pub.port pub.keepalive)
    (isConnected, { pub with isConnected := isConnected })

def addPublishPath (path : String) : MQTTPublisher := { pub with paths := pub.paths ++ [path] }

/-- The name of a topic on the broker. -/
def topicName (topicPath : String) : String :=
  if pub.prefix_ = "" then VSSPath.gen1togen2 topicPath
  else pub.prefix_ ++ "/" ++ VSSPath.gen1togen2 topicPath

/-- Whether a value was published, the messages to the broker, and the client afterwards. -/
def sendPathValue (topicPath : String) (value : Json) :
    (Except Exn Bool × List MqttMessage) × MQTTPublisher :=
  send pub.paths
where
  send : List String → (Except Exn Bool × List MqttMessage) × MQTTPublisher
  | [] => ((.ok false, []), pub)
  | path :: paths =>
      match AccessChecker.pathRegex rx path with
      | .error e => ((.error e, []), pub)
      | .ok topicRegex =>
          if topicRegex topicPath then
            match pub.start connect with
            | (false, pub) => ((.ok false, []), pub)
            | (true, pub) =>
                ((.ok true, [⟨pub.topicName topicPath, value.asString, pub.qos, false⟩]), pub)
          else send paths

/-- What `publishForVSSPath` sends to a publisher. -/
def publish (p : Publication) : (Except Exn Bool × List MqttMessage) × MQTTPublisher :=
  match (p.data.member "dp").bind fun dp => dp.member p.attr with
  | .error e => ((.error e, []), pub)
  | .ok value => pub.sendPathValue connect rx p.path.getVSSPath value

end Sending

section Configuration
variable (jp : JsonPath) (db : VssDatabase)

/-- What `\s` matches. -/
def isSpace (c : Char) : Bool := c ∈ [' ', '\t', '\n', '\x0b', '\x0c', '\r']

/-- The option without white space and quotation marks. -/
def pathToPublish (option : String) : String :=
  String.ofList (option.toList.filter fun c => !isSpace c && c ≠ '\x22')

/-- `std::getline` until the end: nothing is read behind the last separator. -/
def readLines (sep : Char) (text : List Char) : List String :=
  let tokens := text.splitOn sep
  (if tokens.getLast? = some [] then tokens.dropLast else tokens).map String.ofList

/-- Only paths that lead to leaves are added. -/
def addTokens : List String → MQTTPublisher → Except Exn MQTTPublisher
  | [], pub => .ok pub
  | token :: tokens, pub =>
      match db.checkPathValid jp (.fromVSSGen1 token) with
      | .error e => .error e
      | .ok true => addTokens tokens (pub.addPublishPath token)
      | .ok false => addTokens tokens pub

/-- The client as `main` configures it with the option `mqtt.publish`. -/
def configure (option : String) (pub : MQTTPublisher) : Except Exn MQTTPublisher :=
  addTokens jp db (readLines ';' (pathToPublish option).toList) pub

variable {jp db}

/-- Characters of a pattern are neither white space nor separators. -/
theorem patternKey_chars {p : String} (h : AccessChecker.PatternKey p) {c : Char}
    (hc : c ∈ p.toList) : isSpace c = false ∧ c ≠ '\x22' ∧ c ≠ ';' := by
  have hno (d : Char) (hd : isIdentChar d = false) (hdot : d ≠ '.') (hstar : d ≠ '*') : c ≠ d := by
    rintro rfl
    rcases h c hc with hi | rfl | rfl
    · simp [hi] at hd
    · exact hdot rfl
    · exact hstar rfl
  refine ⟨?_, hno _ (by decide) (by decide) (by decide), hno _ (by decide) (by decide) (by decide)⟩
  simp only [isSpace, List.mem_cons, List.not_mem_nil, or_false, decide_eq_false_iff_not, not_or]
  refine ⟨?_, ?_, ?_, ?_, ?_, ?_⟩
  all_goals exact hno _ (by decide) (by decide) (by decide)

/-- A pattern as the only path in the option is configured if it is valid. -/
theorem configure_pattern {p : String} (hp : AccessChecker.PatternKey p) (hne : p ≠ "")
    (hvalid : db.checkPathValid jp (.fromVSSGen1 p) = .ok true) (pub : MQTTPublisher) :
    configure jp db p pub = .ok (pub.addPublishPath p) := by
  have hclean : pathToPublish p = p := by
    have hfilter : p.toList.filter (fun c => !isSpace c && c ≠ '\x22') = p.toList := by
      rw [List.filter_eq_self]
      intro c hc
      obtain ⟨hspace, hquote, -⟩ := patternKey_chars hp hc
      simp [hspace, hquote]
    rw [pathToPublish, hfilter, String.ofList_toList]
  have hsplit : p.toList.splitOn ';' = [p.toList] :=
    List.splitOn_eq_singleton fun hmem => (patternKey_chars hp hmem).2.2 rfl
  have hlist : p.toList ≠ [] := by simpa using hne
  simp [configure, hclean, readLines, hsplit, hlist, addTokens, hvalid]

end Configuration

section Broker
variable {connect : ConnectAsync} {rx : StdRegex} {pub : MQTTPublisher}

/-- The client is connected, or one of its attempts to connect will succeed. -/
def Reaches (connect : ConnectAsync) (pub : MQTTPublisher) : Prop :=
  pub.isConnected = true ∨
    ∃ retry < pub.connectionRetry.toNat, connect pub.host pub.port pub.keepalive retry = true

/-- A value is published under a topic. -/
def Publishes (connect : ConnectAsync) (rx : StdRegex) (pub : MQTTPublisher) (topicPath : String)
    (value : Json) : Prop :=
  (pub.sendPathValue connect rx topicPath value).1.2 ≠ []

theorem start_of_reaches (h : Reaches connect pub) (hne : pub.paths ≠ []) :
    (pub.start connect).1 = true := by
  unfold start
  rcases h with h | ⟨retry, hlt, h⟩
  · simp [h]
  · split_ifs with hif
    · simpa [hne] using hif
    · exact List.any_eq_true.mpr ⟨retry, List.mem_range.mpr hlt, h⟩

/-- With one path a value is published exactly if the path matches. -/
theorem publishes_single_iff {path topicPath : String} {value : Json} {r : String → Bool}
    (hb : Reaches connect pub) (hpaths : pub.paths = [path])
    (hr : AccessChecker.pathRegex rx path = .ok r) :
    Publishes connect rx pub topicPath value ↔ r topicPath = true := by
  have hstart := start_of_reaches hb (by simp [hpaths])
  simp only [Publishes, sendPathValue, hpaths, sendPathValue.send, hr]
  cases hm : r topicPath with
  | false => simp
  | true =>
    rcases hs : pub.start connect with ⟨started, pub'⟩
    obtain rfl : started = true := by simpa [hs] using hstart
    simp

/-- A value that a set has stored is sent under its slash path. -/
theorem publish_publicationOf {attr : String} (ha : attr ≠ "ts_s" ∧ attr ≠ "ts_ns")
    (path : VSSPath) (value stored : Json) :
    pub.publish connect rx (VssDatabase.publicationOf path attr value stored) =
      pub.sendPathValue connect rx path.getVSSPath value := by
  have hdp : ((VssDatabase.publicationOf path attr value stored).data.member "dp").bind
      (fun dp => dp.member attr) = .ok value := by
    simp [VssDatabase.publicationOf, VssDatabase.publishedData, member, ofMembers, Except.bind,
      ha]
  simp only [publish]
  rw [show (VssDatabase.publicationOf path attr value stored).attr = attr from rfl, hdp]
  rfl

end Broker

end MQTTPublisher
