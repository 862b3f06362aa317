import KuksaVal.Runs
import KuksaVal.GetRequest

/-! The database that records what is set and read, and the processor on it beside the processor
on the plain database. -/
open Json

/-- The methods of the database that a class may override, and the trees below them. -/
structure DatabaseClass (δ : Type*) where
  trees : δ → VssDatabase
  withTrees : δ → VssDatabase → δ
  setSignal : Platform → Clock → δ → VSSPath → String → Json →
    Except Exn Json × δ × List Publication
  getSignal : Platform → Clock → δ → VSSPath → String → Bool → Except Exn Json × δ

/-- The server with a database of some class. -/
structure ServerOn (δ : Type*) where
  database : δ
  subHandler : SubscriptionHandler
  tokenValidator : Authenticator

namespace DatabaseClass
open VssCommandProcessor JsonResponses VSSRequestValidator

variable {δ : Type*} (cls : DatabaseClass δ) (pf : Platform) (ck : Clock)

def performSet (d : δ) (channel : KuksaChannel) (path : VSSPath) (attr requestId : String)
    (value : Json) : Except Exn Json × δ × List Publication :=
  match setRefusal pf ck (cls.trees d) channel path attr requestId with
  | .error e => (.error e, d, [])
  | .ok (some answer) => (.ok answer, d, [])
  | .ok none =>
      match cls.setSignal pf ck d path attr value with
      | (.error e, d, pubs) => (setFailure pf ck path requestId e, d, pubs)
      | (.ok _, d, pubs) => (.ok (setAnswer ck requestId), d, pubs)

def processSet (d : δ) (channel : KuksaChannel) (request : Json) :
    Except Exn Json × δ × List Publication :=
  match validateRequest pf schemaSet request with
  | .error e => (refuseRequest ck "set" "set" request e, d, [])
  | .ok () =>
      match text request "path", text request "requestId", request.member (attributeOf request) with
      | .ok path, .ok requestId, .ok value =>
          cls.performSet pf ck d channel (.fromVSS path) (attributeOf request) requestId value
      | .error e, _, _ => (.error e, d, [])
      | _, .error e, _ => (.error e, d, [])
      | _, _, .error e => (.error e, d, [])

def collectDatapoints (channel : KuksaChannel) (path : VSSPath) (pathStr attr requestId : String) :
    List VSSPath → δ → Except Exn (Json ⊕ List Json) × δ
  | [], d => (.ok (.inr []), d)
  | vssPath :: vssPaths, d =>
      match AccessChecker.checkReadAccess pf.regex channel vssPath with
      | .error e => (.error e, d)
      | .ok false => (.ok (.inl (noAccess ck requestId "get"
          ("Insufficient read access to " ++ pathStr))), d)
      | .ok true =>
          match (cls.trees d).pathIsAttributable pf.jsonPath path attr with
          | .error e => (.error e, d)
          | .ok false => (.ok (.inl (noAccess ck requestId "set"
              ("Can not get " ++ path.toString ++ " with attribute " ++ attr ++ "."))), d)
          | .ok true =>
              match cls.getSignal pf ck d vssPath attr (channel.typeOfConnection ≠ .grpc) with
              | (.error e, d) => (.error e, d)
              | (.ok dp, d) =>
                  match collectDatapoints channel path pathStr attr requestId vssPaths d with
                  | (.ok (.inr dps), d) => (.ok (.inr (dp :: dps)), d)
                  | other => other

def performGet (d : δ) (channel : KuksaChannel) (path : VSSPath)
    (pathStr attr requestId : String) : Except Exn Json × δ :=
  match (cls.trees d).getLeafPaths pf.jsonPath path with
  | .error e => (.error e, d)
  | .ok vssPaths =>
      match cls.collectDatapoints pf ck channel path pathStr attr requestId vssPaths d with
      | (.error e, d) => (.error e, d)
      | (.ok (.inl answer), d) => (.ok answer, d)
      | (.ok (.inr dps), d) =>
          if vssPaths = [] then (.ok (pathNotFound ck requestId "get" pathStr), d)
          else (.ok (getAnswer ck requestId (dataOf dps)), d)

def processGet (d : δ) (channel : KuksaChannel) (request : Json) : Except Exn Json × δ :=
  match text request "path" with
  | .error e => (.error e, d)
  | .ok pathStr =>
      match validateRequest pf schemaGet request with
      | .error e => (refuseRequest ck "get" "get" request e, d)
      | .ok () =>
          match text request "requestId" with
          | .error e => (.error e, d)
          | .ok requestId =>
              match cls.performGet pf ck d channel (.fromVSS pathStr) pathStr (attributeOf request)
                requestId with
              | (.error e, d) => (getFailure ck requestId e, d)
              | (.ok answer, d) => (.ok answer, d)

/-- The actions other than reading and setting do not call an overridden method. -/
def dispatch (sv : ServerOn δ) (subId : SubscriptionId) (channel : KuksaChannel) (root : Json) :
    Except Exn Json × ServerOn δ × KuksaChannel :=
  match text root "action" with
  | .error e => (.error e, sv, channel)
  | .ok action =>
      if action = "get" then
        match cls.processGet pf ck sv.database channel root with
        | (r, d) => (r, { sv with database := d }, channel)
      else if action = "set" then
        match cls.processSet pf ck sv.database channel root with
        | (r, d, pubs) => (r, { sv with
            database := d, subHandler := publishAll sv.subHandler pubs }, channel)
      else
        match VssCommandProcessor.dispatch pf ck
          ⟨cls.trees sv.database, sv.subHandler, sv.tokenValidator⟩ subId channel root with
        | (r, sv', channel) => (r, ⟨cls.withTrees sv.database sv'.database, sv'.subHandler,
            sv'.tokenValidator⟩, channel)

def processQuery (sv : ServerOn δ) (subId : SubscriptionId) (reqJson : String)
    (channel : KuksaChannel) : Except Exn Json × ServerOn δ × KuksaChannel :=
  match pf.parse reqJson with
  | .error e => (.ok (malFormedMessage ck e "UNKNOWN"), sv, channel)
  | .ok root =>
      match cls.dispatch pf ck sv subId channel root with
      | (.error e, sv, channel) =>
          if isCaught e then (.ok (malFormedMessage ck e.what "UNKNOWN"), sv, channel)
          else (.error e, sv, channel)
      | (.ok answer, sv, channel) => (.ok answer, sv, channel)

end DatabaseClass

/-- The plain database. -/
def VssDatabase.plain : DatabaseClass VssDatabase where
  trees db := db
  withTrees _ db := db
  setSignal pf ck db path attr value := db.setSignal pf.jsonPath pf.numerics ck path attr value
  getSignal pf ck db path attr asString :=
    (db.getSignal pf.jsonPath pf.numerics ck path attr asString, db)

/-- The database with its mode and the lines of its record. -/
structure VssDatabaseRecord where
  trees : VssDatabase
  logMode : String
  record : List String := []

namespace VssDatabaseRecord

def setSignal (pf : Platform) (ck : Clock) (db : VssDatabaseRecord) (path : VSSPath) (attr : String)
    (value : Json) : Except Exn Json × VssDatabaseRecord × List Publication :=
  let line := "set;" ++ attr ++ ";" ++ path.toString ++ ";" ++ pf.prettyPrint value
  match db.trees.setSignal pf.jsonPath pf.numerics ck path attr value with
  | (r, trees, pubs) => (r, { db with trees := trees, record := db.record ++ [line] }, pubs)

/-- The last argument is not passed on: its default takes its place. -/
def getSignal (pf : Platform) (ck : Clock) (db : VssDatabaseRecord) (path : VSSPath) (attr : String)
    (_asString : Bool) : Except Exn Json × VssDatabaseRecord :=
  let line := "get;" ++ attr ++ ";" ++ path.toString
  (db.trees.getSignal pf.jsonPath pf.numerics ck path attr false,
    if db.logMode = "recordSetAndGet" then { db with record := db.record ++ [line] } else db)

def recording : DatabaseClass VssDatabaseRecord where
  trees := trees
  withTrees db trees := { db with trees := trees }
  setSignal := setSignal
  getSignal := getSignal

end VssDatabaseRecord

namespace DatabaseClass
open VssCommandProcessor

variable {δ : Type*}

/-- The overridden methods work on the trees below, and a read is shown as on a connection of
another type. -/
structure Forwards (cls : DatabaseClass δ) (shownTo : ChannelType → ChannelType) : Prop where
  trees_withTrees (d : δ) (db : VssDatabase) : cls.trees (cls.withTrees d db) = db
  setSignal (pf : Platform) (ck : Clock) (d : δ) (path : VSSPath) (attr : String) (value : Json) :
    ((cls.setSignal pf ck d path attr value).1, cls.trees (cls.setSignal pf ck d path attr value).2.1,
      (cls.setSignal pf ck d path attr value).2.2) =
        (cls.trees d).setSignal pf.jsonPath pf.numerics ck path attr value
  getSignal (pf : Platform) (ck : Clock) (d : δ) (path : VSSPath) (attr : String)
    (type : ChannelType) : (cls.getSignal pf ck d path attr (type ≠ .grpc)).1 =
      (cls.trees d).getSignal pf.jsonPath pf.numerics ck path attr (shownTo type ≠ .grpc)
  getSignal_trees (pf : Platform) (ck : Clock) (d : δ) (path : VSSPath) (attr : String)
    (asString : Bool) : cls.trees (cls.getSignal pf ck d path attr asString).2 = cls.trees d

/-- The channel as its reads are shown. -/
def shownOn (shownTo : ChannelType → ChannelType) (channel : KuksaChannel) : KuksaChannel :=
  channel.setType (shownTo channel.typeOfConnection)

namespace Forwards

variable {cls : DatabaseClass δ} {shownTo : ChannelType → ChannelType} (h : cls.Forwards shownTo)
  (pf : Platform) (ck : Clock) (d : δ) (channel : KuksaChannel)
include h

theorem collectDatapoints (path : VSSPath) (pathStr attr requestId : String)
    (vssPaths : List VSSPath) :
    (cls.collectDatapoints pf ck channel path pathStr attr requestId vssPaths d).1 =
        VssCommandProcessor.collectDatapoints pf ck (cls.trees d) (shownOn shownTo channel) path
          pathStr attr requestId vssPaths ∧
      cls.trees (cls.collectDatapoints pf ck channel path pathStr attr requestId vssPaths d).2 =
        cls.trees d := by
  induction vssPaths generalizing d with
  | nil => exact ⟨rfl, rfl⟩
  | cons p ps ih =>
    have haccess : AccessChecker.checkReadAccess pf.regex (shownOn shownTo channel) p =
        AccessChecker.checkReadAccess pf.regex channel p := rfl
    have hget := h.getSignal pf ck d p attr channel.typeOfConnection
    have htrees := h.getSignal_trees pf ck d p attr (channel.typeOfConnection ≠ .grpc)
    have hshown : (shownOn shownTo channel).typeOfConnection = shownTo channel.typeOfConnection :=
      rfl
    simp only [DatabaseClass.collectDatapoints, VssCommandProcessor.collectDatapoints, haccess,
      hshown, ← hget]
    cases AccessChecker.checkReadAccess pf.regex channel p with
    | error e => exact ⟨rfl, rfl⟩
    | ok readable =>
      cases readable with
      | false => exact ⟨rfl, rfl⟩
      | true =>
        cases (cls.trees d).pathIsAttributable pf.jsonPath path attr with
        | error e => exact ⟨rfl, rfl⟩
        | ok attributable =>
          cases attributable with
          | false => exact ⟨rfl, rfl⟩
          | true =>
            rcases hd : cls.getSignal pf ck d p attr (channel.typeOfConnection ≠ .grpc) with ⟨r, d'⟩
            rw [hd] at htrees
            cases r with
            | error e => exact ⟨rfl, htrees⟩
            | ok dp =>
              have hrest := ih d'
              simp only at htrees ⊢
              rw [htrees] at hrest
              rw [← hrest.1]
              rcases hps : cls.collectDatapoints pf ck channel path pathStr attr requestId ps d' with
                ⟨e | ⟨answer | dps⟩, d''⟩ <;> rw [hps] at hrest
              · exact ⟨rfl, hrest.2⟩
              · exact ⟨rfl, hrest.2⟩
              · exact ⟨rfl, hrest.2⟩

theorem performGet (path : VSSPath) (pathStr attr requestId : String) :
    (cls.performGet pf ck d channel path pathStr attr requestId).1 =
        VssCommandProcessor.performGet pf ck (cls.trees d) (shownOn shownTo channel) path pathStr
          attr requestId ∧
      cls.trees (cls.performGet pf ck d channel path pathStr attr requestId).2 = cls.trees d := by
  unfold DatabaseClass.performGet VssCommandProcessor.performGet
  cases (cls.trees d).getLeafPaths pf.jsonPath path with
  | error e => exact ⟨rfl, rfl⟩
  | ok vssPaths =>
    have hall := h.collectDatapoints pf ck d channel path pathStr attr requestId vssPaths
    simp only
    rw [← hall.1]
    rcases hc : cls.collectDatapoints pf ck channel path pathStr attr requestId vssPaths d with
      ⟨e | ⟨answer | dps⟩, d'⟩ <;> rw [hc] at hall
    · exact ⟨rfl, hall.2⟩
    · exact ⟨rfl, hall.2⟩
    · simp only
      split_ifs
      · exact ⟨rfl, hall.2⟩
      · exact ⟨rfl, hall.2⟩

theorem processGet (request : Json) :
    (cls.processGet pf ck d channel request).1 =
        VssCommandProcessor.processGet pf ck (cls.trees d) (shownOn shownTo channel) request ∧
      cls.trees (cls.processGet pf ck d channel request).2 = cls.trees d := by
  unfold DatabaseClass.processGet VssCommandProcessor.processGet
  cases text request "path" with
  | error e => exact ⟨rfl, rfl⟩
  | ok pathStr =>
    cases validateRequest pf VSSRequestValidator.schemaGet request with
    | error e => exact ⟨rfl, rfl⟩
    | ok u =>
      cases text request "requestId" with
      | error e => exact ⟨rfl, rfl⟩
      | ok requestId =>
        have hget := h.performGet pf ck d channel (.fromVSS pathStr) pathStr (attributeOf request)
          requestId
        simp only
        rw [← hget.1]
        rcases hp : cls.performGet pf ck d channel (.fromVSS pathStr) pathStr (attributeOf request)
          requestId with ⟨e | answer, d'⟩ <;> rw [hp] at hget
        · exact ⟨rfl, hget.2⟩
        · exact ⟨rfl, hget.2⟩

theorem performSet (path : VSSPath) (attr requestId : String) (value : Json) :
    ((cls.performSet pf ck d channel path attr requestId value).1,
        cls.trees (cls.performSet pf ck d channel path attr requestId value).2.1,
        (cls.performSet pf ck d channel path attr requestId value).2.2) =
      VssCommandProcessor.performSet pf ck (cls.trees d) channel path attr requestId value := by
  unfold DatabaseClass.performSet VssCommandProcessor.performSet
  cases setRefusal pf ck (cls.trees d) channel path attr requestId with
  | error e => rfl
  | ok refusal =>
    cases refusal with
    | some answer => rfl
    | none =>
      have hset := h.setSignal pf ck d path attr value
      simp only
      rw [← hset]
      obtain ⟨r, d', pubs⟩ := cls.setSignal pf ck d path attr value
      cases r with
      | error e => rfl
      | ok data => rfl

theorem processSet (request : Json) :
    ((cls.processSet pf ck d channel request).1,
        cls.trees (cls.processSet pf ck d channel request).2.1,
        (cls.processSet pf ck d channel request).2.2) =
      VssCommandProcessor.processSet pf ck (cls.trees d) channel request := by
  unfold DatabaseClass.processSet VssCommandProcessor.processSet
  cases validateRequest pf VSSRequestValidator.schemaSet request with
  | error e => rfl
  | ok u =>
    cases text request "path" with
    | error e => rfl
    | ok path =>
      cases text request "requestId" with
      | error e => rfl
      | ok requestId =>
        cases request.member (attributeOf request) with
        | error e => rfl
        | ok value => exact h.performSet pf ck d channel _ _ _ _

end Forwards

end DatabaseClass

theorem VssDatabase.plain_forwards : VssDatabase.plain.Forwards id :=
  ⟨fun _ _ => rfl, fun _ _ _ _ _ _ => rfl, fun _ _ _ _ _ _ => rfl, fun _ _ _ _ _ _ => rfl⟩

/-- The record keeps no text for a reader that asks for it. -/
theorem VssDatabaseRecord.recording_forwards :
    VssDatabaseRecord.recording.Forwards fun _ => .grpc := by
  constructor
  · intro d db
    rfl
  · intro pf ck d path attr value
    rfl
  · intro pf ck d path attr type
    rfl
  · intro pf ck d path attr asString
    simp only [recording, getSignal]
    split_ifs <;> rfl

namespace VssDatabase

variable {pf : Platform} {ck : Clock} {db : VssDatabase} {path : VSSPath} {attr : String}

/-- Some node matches, and it has the attribute with a timestamp that can be read. -/
def HasDatapoint (pf : Platform) (db : VssDatabase) (path : VSSPath) (attr : String) : Prop :=
  ∃ result rest ts, jsonQuery pf.jsonPath db.dataTree path.getJSONPath = .ok (result :: rest) ∧
    result.contains attr = true ∧ storedTimeStamp pf.numerics result attr = .ok ts

/-- A timestamp in ISO form has no nanoseconds by themselves. -/
theorem datapointOf_text_ne (ck : Clock) (path : VSSPath) {result value : Json} {ts : ℤ × ℤ}
    (hv : result.get? attr = some value)
    (hts : storedTimeStamp pf.numerics result attr = .ok ts) :
    ∃ text raw, datapointOf pf.numerics ck path attr true result = .ok text ∧
      datapointOf pf.numerics ck path attr false result = .ok raw ∧ text ≠ raw := by
  have hget (shown : Json) (k : String) :
      (Json.ofMembers [(attr, shown), ("ts_s", .int ts.1), ("ts_ns", .int ts.2)]).get? k =
        if k = "ts_ns" then some (.int ts.2) else if k = "ts_s" then some (.int ts.1)
        else if k = attr then some shown else none := by
    simp [JsonResponses.get?_ofMembers, Members.get?_cons]
  have ho (shown : Json) : (Json.ofMembers [(attr, shown), ("ts_s", .int ts.1),
      ("ts_ns", .int ts.2)]).isObject = true := rfl
  have htext : ∃ text, datapointOf pf.numerics ck path attr true result = .ok text ∧
      text.get? "ts_ns" = none := by
    simp only [datapointOf, hv, hts, ↓reduceIte, JsonResponses.convertJSONTimeStampToISO8601, hget,
      asInteger]
    refine ⟨_, rfl, ?_⟩
    simp [ho]
  have hraw : ∃ raw, datapointOf pf.numerics ck path attr false result = .ok raw ∧
      raw.get? "ts_ns" = some (.int ts.2) := by
    simp only [datapointOf, hv, hts, Bool.false_eq_true, ↓reduceIte]
    refine ⟨_, rfl, ?_⟩
    simp [hget]
  obtain ⟨text, ht, hnone⟩ := htext
  obtain ⟨raw, hr, hsome⟩ := hraw
  refine ⟨text, raw, ht, hr, ?_⟩
  rintro rfl
  simp [hnone] at hsome

/-- As text and as stored, a read fails alike or answers differently. -/
theorem getSignal_text_cases (pf : Platform) (ck : Clock) (db : VssDatabase) (path : VSSPath)
    (attr : String) :
    (¬ HasDatapoint pf db path attr ∧ ∃ e, ∀ asString,
        getSignal pf.jsonPath pf.numerics ck db path attr asString = .error e) ∨
      (HasDatapoint pf db path attr ∧ ∃ text raw,
        getSignal pf.jsonPath pf.numerics ck db path attr true = .ok text ∧
        getSignal pf.jsonPath pf.numerics ck db path attr false = .ok raw ∧ text ≠ raw) := by
  unfold HasDatapoint getSignal
  cases hq : jsonQuery pf.jsonPath db.dataTree path.getJSONPath with
  | error e => exact Or.inl ⟨by simp, e, fun _ => rfl⟩
  | ok results =>
    cases results with
    | nil => exact Or.inl ⟨by simp, _, fun _ => rfl⟩
    | cons result rest =>
      simp only [Except.ok.injEq, List.cons.injEq, elementAt, List.getElem?_cons_zero]
      cases hv : result.get? attr with
      | none =>
        refine Or.inl ⟨?_, .notSetException
          ("Attribute " ++ attr ++ " on " ++ path.getVSSPath ++ " has not been set yet."),
          fun _ => by simp only [datapointOf, hv, Except.map]⟩
        rintro ⟨_, _, _, ⟨rfl, rfl⟩, hc, -⟩
        simp [Json.contains, hv] at hc
      | some value =>
        cases hts : storedTimeStamp pf.numerics result attr with
        | error e =>
          refine Or.inl ⟨?_, e, fun _ => by simp only [datapointOf, hv, hts, Except.map]⟩
          rintro ⟨_, _, _, ⟨rfl, rfl⟩, -, h⟩
          simp [hts] at h
        | ok ts =>
          obtain ⟨text, raw, ht, hr, hne⟩ := datapointOf_text_ne ck path hv hts
          refine Or.inr ⟨⟨result, rest, ts, ⟨rfl, rfl⟩, by simp [Json.contains, hv], hts⟩, ?_⟩
          simp only [ht, hr, Except.map]
          refine ⟨_, _, rfl, rfl, ?_⟩
          intro he
          have hdp := congrArg (Json.get? "dp") he
          simp [JsonResponses.get?_ofMembers, Members.get?_cons, hne] at hdp

end VssDatabase

namespace VssCommandProcessor
open VssDatabase AccessChecker JsonResponses

variable (pf : Platform) (ck : Clock) (db : VssDatabase)

/-- Every leaf may be read and has a datapoint. -/
def Shown (channel : KuksaChannel) (attr : String) (vssPaths : List VSSPath) : Prop :=
  ∀ p ∈ vssPaths, checkReadAccess pf.regex channel p = .ok true ∧ HasDatapoint pf db p attr

/-- Over the leaves of a path, as text and as stored: the loop is refused alike, or the
datapoints of both loops all differ. -/
theorem collectDatapoints_text {channel : KuksaChannel} (ht : channel.typeOfConnection ≠ .grpc)
    {path : VSSPath} {attr : String} (ha : db.pathIsAttributable pf.jsonPath path attr = .ok true)
    (pathStr requestId : String) (vssPaths : List VSSPath) :
    (¬ Shown pf db channel attr vssPaths ∧
        collectDatapoints pf ck db (channel.setType .grpc) path pathStr attr requestId vssPaths =
          collectDatapoints pf ck db channel path pathStr attr requestId vssPaths ∧
        ∀ dps, collectDatapoints pf ck db channel path pathStr attr requestId vssPaths ≠
          .ok (.inr dps)) ∨
      (Shown pf db channel attr vssPaths ∧ ∃ dps texts,
        collectDatapoints pf ck db (channel.setType .grpc) path pathStr attr requestId vssPaths =
          .ok (.inr dps) ∧
        collectDatapoints pf ck db channel path pathStr attr requestId vssPaths =
          .ok (.inr texts) ∧
        dps.length = vssPaths.length ∧ List.Forall₂ (· ≠ ·) dps texts) := by
  induction vssPaths with
  | nil => exact Or.inr ⟨by simp [Shown], [], [], rfl, rfl, rfl, .nil⟩
  | cons p ps ih =>
    have hraw : checkReadAccess pf.regex (channel.setType .grpc) p =
        checkReadAccess pf.regex channel p := rfl
    have htype : (channel.setType .grpc).typeOfConnection = .grpc := rfl
    simp only [collectDatapoints, hraw, htype, ha, ht, ne_eq, not_true_eq_false, not_false_eq_true,
      decide_true, decide_false, Shown, List.forall_mem_cons]
    cases haccess : checkReadAccess pf.regex channel p with
    | error e => exact Or.inl ⟨by simp, rfl, by simp⟩
    | ok readable =>
      cases readable with
      | false => exact Or.inl ⟨by simp, rfl, by simp⟩
      | true =>
        simp only [true_and]
        rcases getSignal_text_cases pf ck db p attr with ⟨hno, e, he⟩ | ⟨hdp, text, raw, ht, hr, hne⟩
        · exact Or.inl ⟨fun h => hno h.1, by simp only [he], by simp [he]⟩
        · simp only [ht, hr, hdp, true_and]
          rcases ih with ⟨hno, heq, hrest⟩ | ⟨hall, dps, texts, hd, ht, hlen, hf⟩
          · rw [heq]
            refine Or.inl ⟨hno, ?_⟩
            rcases hc : collectDatapoints pf ck db channel path pathStr attr requestId ps with
              e | ⟨answer | dps⟩
            · exact ⟨rfl, by simp⟩
            · exact ⟨rfl, by simp⟩
            · exact absurd hc (hrest dps)
          · exact Or.inr ⟨hall, raw :: dps, text :: texts, by rw [hd], by rw [ht],
              by simp [hlen], .cons hne.symm hf⟩

/-- Data of as many datapoints differ where all of these do. -/
theorem dataOf_ne {dps texts : List Json} (hne : dps ≠ []) (hf : List.Forall₂ (· ≠ ·) dps texts) :
    dataOf dps ≠ dataOf texts := by
  cases hf with
  | nil => simp at hne
  | cons h hf =>
    cases hf with
    | nil => simpa [dataOf] using h
    | cons h' hf' => simp [dataOf, h]

/-- There are leaves, and all of them are shown. -/
def HasData (channel : KuksaChannel) (path : VSSPath) (attr : String) : Prop :=
  ∃ vssPaths, db.getLeafPaths pf.jsonPath path = .ok vssPaths ∧ vssPaths ≠ [] ∧
    db.pathIsAttributable pf.jsonPath path attr = .ok true ∧ Shown pf db channel attr vssPaths

/-- As text and as stored, a get is refused alike or answered with other data. -/
theorem performGet_text {channel : KuksaChannel} (ht : channel.typeOfConnection ≠ .grpc)
    (path : VSSPath) (pathStr attr requestId : String) :
    (¬ HasData pf db channel path attr ∧
        performGet pf ck db (channel.setType .grpc) path pathStr attr requestId =
          performGet pf ck db channel path pathStr attr requestId) ∨
      (HasData pf db channel path attr ∧ ∃ stored text,
        performGet pf ck db (channel.setType .grpc) path pathStr attr requestId = .ok stored ∧
        performGet pf ck db channel path pathStr attr requestId = .ok text ∧ stored ≠ text) := by
  unfold HasData performGet
  cases hl : db.getLeafPaths pf.jsonPath path with
  | error e => exact Or.inl ⟨by simp, rfl⟩
  | ok vssPaths =>
    cases vssPaths with
    | nil => exact Or.inl ⟨by simp, rfl⟩
    | cons p ps =>
      simp only [Except.ok.injEq, exists_eq_left', ne_eq, reduceCtorEq, not_false_eq_true, true_and,
        ↓reduceIte]
      by_cases ha : db.pathIsAttributable pf.jsonPath path attr = .ok true
      · simp only [ha, true_and]
        rcases collectDatapoints_text pf ck db ht ha pathStr requestId (p :: ps) with
          ⟨hno, heq, -⟩ | ⟨hall, dps, texts, hd, htext, hlen, hf⟩
        · exact Or.inl ⟨hno, by rw [heq]⟩
        · refine Or.inr ⟨hall, getAnswer ck requestId (dataOf dps),
            getAnswer ck requestId (dataOf texts), by rw [hd], by rw [htext], ?_⟩
          have hne : dps ≠ [] := by
            rintro rfl
            simp at hlen
          intro he
          have hdata := congrArg (Json.get? "data") he
          rw [getAnswer_data, getAnswer_data] at hdata
          exact dataOf_ne hne hf (Option.some.inj hdata)
      · refine Or.inl ⟨fun h => ha h.1, ?_⟩
        -- The loop ends at the first leaf, before anything is read.
        have hraw : checkReadAccess pf.regex (channel.setType .grpc) p =
            checkReadAccess pf.regex channel p := rfl
        simp only [collectDatapoints, hraw]
        rcases checkReadAccess pf.regex channel p with e | ⟨_ | _⟩
        · rfl
        · rfl
        · rcases hp : db.pathIsAttributable pf.jsonPath path attr with e | ⟨_ | _⟩
          · rfl
          · rfl
          · exact absurd hp ha

/-- A get that is well formed and has data. -/
def GetHasData (channel : KuksaChannel) (request : Json) : Prop :=
  ∃ path requestId, text request "path" = .ok path ∧
    validateRequest pf VSSRequestValidator.schemaGet request = .ok () ∧
    text request "requestId" = .ok requestId ∧
    HasData pf db channel (.fromVSS path) (attributeOf request)

theorem processGet_text {channel : KuksaChannel} (ht : channel.typeOfConnection ≠ .grpc)
    (request : Json) :
    (¬ GetHasData pf db channel request ∧
        processGet pf ck db (channel.setType .grpc) request =
          processGet pf ck db channel request) ∨
      (GetHasData pf db channel request ∧ ∃ stored text,
        processGet pf ck db (channel.setType .grpc) request = .ok stored ∧
        processGet pf ck db channel request = .ok text ∧ stored ≠ text) := by
  unfold GetHasData processGet
  cases text request "path" with
  | error e => exact Or.inl ⟨by simp, rfl⟩
  | ok path =>
    cases validateRequest pf VSSRequestValidator.schemaGet request with
    | error e => exact Or.inl ⟨by simp, rfl⟩
    | ok u =>
      cases text request "requestId" with
      | error e => exact Or.inl ⟨by simp, rfl⟩
      | ok requestId =>
        simp only [Except.ok.injEq, true_and]
        rcases performGet_text pf ck db ht (.fromVSS path) path (attributeOf request) requestId with
          ⟨hno, heq⟩ | ⟨hdata, stored, text, hs, htext, hne⟩
        · exact Or.inl ⟨by simpa using hno, by rw [heq]⟩
        · exact Or.inr ⟨by simpa using hdata, stored, text, by rw [hs], by rw [htext], hne⟩

/-- On another connection than that of the streams, a get that is well formed and has data. -/
def AnswersAsText (channel : KuksaChannel) (reqJson : String) : Prop :=
  ∃ root, pf.parse reqJson = .ok root ∧ text root "action" = .ok "get" ∧
    channel.typeOfConnection ≠ .grpc ∧ GetHasData pf db channel root

/-- What the dispatch answers, once its exceptions are caught. -/
def settle (r : Except Exn Json) : Except Exn Json :=
  match r with
  | .error e => if isCaught e then .ok (malFormedMessage ck e.what "UNKNOWN") else .error e
  | .ok answer => .ok answer

theorem processQuery_parsed {sv : Server} {subId : SubscriptionId} {reqJson : String}
    {channel : KuksaChannel} {root : Json} (hp : pf.parse reqJson = .ok root) :
    processQuery pf ck sv subId reqJson channel =
      (settle ck (dispatch pf ck sv subId channel root).1,
        (dispatch pf ck sv subId channel root).2) := by
  simp only [processQuery, hp, settle]
  rcases dispatch pf ck sv subId channel root with ⟨e | answer, sv', channel'⟩
  · simp only
    split_ifs <;> rfl
  · rfl

end VssCommandProcessor

namespace DatabaseClass
open VssCommandProcessor

variable {δ : Type*} {cls : DatabaseClass δ} {shownTo : ChannelType → ChannelType}

/-- The server on the trees below. -/
def below (cls : DatabaseClass δ) (sv : ServerOn δ) : Server :=
  ⟨cls.trees sv.database, sv.subHandler, sv.tokenValidator⟩

theorem processQuery_parsed {pf : Platform} (ck : Clock) {sv : ServerOn δ} {subId : SubscriptionId}
    {reqJson : String} {channel : KuksaChannel} {root : Json} (hp : pf.parse reqJson = .ok root) :
    cls.processQuery pf ck sv subId reqJson channel =
      (settle ck (cls.dispatch pf ck sv subId channel root).1,
        (cls.dispatch pf ck sv subId channel root).2) := by
  simp only [processQuery, hp, settle]
  rcases cls.dispatch pf ck sv subId channel root with ⟨e | answer, sv', channel'⟩
  · simp only
    split_ifs <;> rfl
  · rfl

/-- Only the answer of a get depends on the class. -/
theorem Forwards.dispatch (h : cls.Forwards shownTo) (pf : Platform) (ck : Clock)
    (sv : ServerOn δ) (subId : SubscriptionId) (channel : KuksaChannel) (root : Json) :
    (cls.dispatch pf ck sv subId channel root).1 =
        (if text root "action" = .ok "get" then
          VssCommandProcessor.processGet pf ck (cls.trees sv.database) (shownOn shownTo channel) root
        else (VssCommandProcessor.dispatch pf ck (cls.below sv) subId channel root).1) ∧
      (cls.below (cls.dispatch pf ck sv subId channel root).2.1,
          (cls.dispatch pf ck sv subId channel root).2.2) =
        (VssCommandProcessor.dispatch pf ck (cls.below sv) subId channel root).2 := by
  unfold DatabaseClass.dispatch
  cases hact : text root "action" with
  | error e =>
    simp [VssCommandProcessor.dispatch, hact, below]
  | ok action =>
    by_cases hget : action = "get"
    · obtain ⟨hanswer, htrees⟩ := h.processGet pf ck sv.database channel root
      simp only [VssCommandProcessor.dispatch, hact, hget, ↓reduceIte, hanswer, below, htrees,
        and_self]
    · by_cases hset : action = "set"
      · have hall := h.processSet pf ck sv.database channel root
        unfold VssCommandProcessor.dispatch
        simp only [hact, Except.ok.injEq, if_neg hget, if_pos hset, below, ← hall, and_self]
      · simp [hget, hset, below, h.trees_withTrees]

theorem Forwards.processQuery_server (h : cls.Forwards shownTo) (pf : Platform) (ck : Clock)
    (sv : ServerOn δ) (subId : SubscriptionId) (reqJson : String) (channel : KuksaChannel) :
    (cls.below (cls.processQuery pf ck sv subId reqJson channel).2.1,
        (cls.processQuery pf ck sv subId reqJson channel).2.2) =
      (VssCommandProcessor.processQuery pf ck (cls.below sv) subId reqJson channel).2 := by
  cases hp : pf.parse reqJson with
  | error e => simp only [processQuery, VssCommandProcessor.processQuery, hp]
  | ok root =>
    rw [processQuery_parsed ck hp, VssCommandProcessor.processQuery_parsed pf ck hp]
    exact (h.dispatch pf ck sv subId channel root).2

end DatabaseClass

/-- A query: the clock while it is answered, the identifier it may give out, its text and its
channel. -/
structure Query where
  ck : Clock
  subId : SubscriptionId
  reqJson : String
  channel : KuksaChannel

/-- The answer to a query, with the channel after it. -/
def DatabaseClass.answer {δ : Type*} (cls : DatabaseClass δ) (pf : Platform) (sv : ServerOn δ)
    (q : Query) : (Except Exn Json × KuksaChannel) × ServerOn δ :=
  match cls.processQuery pf q.ck sv q.subId q.reqJson q.channel with
  | (r, sv, channel) => ((r, channel), sv)

/-- The server without its record. -/
def ServerOn.plain (sv : ServerOn VssDatabaseRecord) : ServerOn VssDatabase :=
  ⟨sv.database.trees, sv.subHandler, sv.tokenValidator⟩

namespace VssDatabase
open VssCommandProcessor

variable (pf : Platform) (ck : Clock)

/-- On the plain database the processor is the one that is modelled without classes. -/
theorem plain_processQuery (sv : ServerOn VssDatabase) (subId : SubscriptionId) (reqJson : String)
    (channel : KuksaChannel) : (plain.processQuery pf ck sv subId reqJson channel).1 =
      (processQuery pf ck (plain.below sv) subId reqJson channel).1 := by
  cases hp : pf.parse reqJson with
  | error e => simp only [DatabaseClass.processQuery, processQuery, hp]
  | ok root =>
    rw [DatabaseClass.processQuery_parsed ck hp, VssCommandProcessor.processQuery_parsed pf ck hp]
    simp only [(plain_forwards.dispatch pf ck sv subId channel root).1]
    split_ifs with hact
    · simp only [dispatch, hact, ↓reduceIte]
      rfl
    · rfl

end VssDatabase

namespace VssDatabaseRecord
open VssCommandProcessor

variable (pf : Platform) (ck : Clock)

theorem recording_processQuery_iff (sv : ServerOn VssDatabaseRecord) (subId : SubscriptionId)
    (reqJson : String) (channel : KuksaChannel) :
    (recording.processQuery pf ck sv subId reqJson channel).1 =
        (processQuery pf ck (recording.below sv) subId reqJson channel).1 ↔
      ¬ AnswersAsText pf sv.database.trees channel reqJson := by
  unfold AnswersAsText
  cases hp : pf.parse reqJson with
  | error e => simp [DatabaseClass.processQuery, processQuery, hp]
  | ok root =>
    rw [DatabaseClass.processQuery_parsed ck hp, VssCommandProcessor.processQuery_parsed pf ck hp]
    simp only [(recording_forwards.dispatch pf ck sv subId channel root).1, Except.ok.injEq,
      exists_eq_left']
    by_cases hact : text root "action" = .ok "get"
    · have hget : (dispatch pf ck (recording.below sv) subId channel root).1 =
          processGet pf ck sv.database.trees channel root := by
        simp only [dispatch, hact, ↓reduceIte]
        rfl
      have hshown : DatabaseClass.shownOn (fun _ => .grpc) channel = channel.setType .grpc := rfl
      simp only [hact, ↓reduceIte, hget, hshown, true_and]
      by_cases ht : channel.typeOfConnection = .grpc
      · have hsame : channel.setType .grpc = channel := by
          simp [KuksaChannel.setType, ← ht]
        simp [hsame, ht, recording]
      · rcases processGet_text pf ck sv.database.trees ht root with
          ⟨hno, heq⟩ | ⟨hdata, stored, text, hs, htext, hne⟩
        · simp [hno, recording, heq]
        · simp [hdata, recording, hs, htext, settle, hne, ht]
    · simp [hact]

theorem answer_server {δ : Type*} {cls : DatabaseClass δ} {shownTo : ChannelType → ChannelType}
    (h : cls.Forwards shownTo) (sv : ServerOn δ) (q : Query) :
    (cls.below (cls.answer pf sv q).2, (cls.answer pf sv q).1.2) =
      (processQuery pf q.ck (cls.below sv) q.subId q.reqJson q.channel).2 :=
  h.processQuery_server pf q.ck sv q.subId q.reqJson q.channel

/-- The record goes along: without it the server takes the steps of the plain one. -/
theorem recording_answer_server (sv : ServerOn VssDatabaseRecord) (q : Query) :
    (recording.answer pf sv q).2.plain = (VssDatabase.plain.answer pf sv.plain q).2 ∧
      (recording.answer pf sv q).1.2 = (VssDatabase.plain.answer pf sv.plain q).1.2 := by
  have hrecord := answer_server pf recording_forwards sv q
  have hplain := answer_server pf VssDatabase.plain_forwards sv.plain q
  have h := hrecord.trans hplain.symm
  simp only [Prod.mk.injEq, DatabaseClass.below, Server.mk.injEq] at h
  obtain ⟨⟨htrees, hsubs, htoken⟩, hchannel⟩ := h
  refine ⟨?_, hchannel⟩
  unfold ServerOn.plain
  rw [ServerOn.mk.injEq]
  exact ⟨htrees, hsubs, htoken⟩

theorem recording_answer_iff (sv : ServerOn VssDatabaseRecord) (q : Query) :
    (recording.answer pf sv q).1 = (VssDatabase.plain.answer pf sv.plain q).1 ↔
      ¬ AnswersAsText pf sv.plain.database q.channel q.reqJson := by
  rw [Prod.ext_iff, and_iff_left (recording_answer_server pf sv q).2]
  have hplain := VssDatabase.plain_processQuery pf q.ck sv.plain q.subId q.reqJson q.channel
  have hiff := recording_processQuery_iff pf q.ck sv q.subId q.reqJson q.channel
  exact (Eq.congr_right hplain).trans hiff

/-- The answers to queries and the trees after them are those of the plain database. -/
def Transparent (sv : ServerOn VssDatabaseRecord) (queries : List Query) : Prop :=
  (Answering.run (recording.answer pf) sv queries).1 =
      (Answering.run (VssDatabase.plain.answer pf) sv.plain queries).1 ∧
    (Answering.run (recording.answer pf) sv queries).2.database.trees =
      (Answering.run (VssDatabase.plain.answer pf) sv.plain queries).2.database

/-- In any mode the record shows exactly if data is read over another connection than that of the
streams. -/
theorem transparent_iff (sv : ServerOn VssDatabaseRecord) (queries : List Query) :
    Transparent pf sv queries ↔ Answering.Throughout
      (fun sv q => ¬ AnswersAsText pf sv.database q.channel q.reqJson)
      (VssDatabase.plain.answer pf) sv.plain queries := by
  have hstate (sv : ServerOn VssDatabaseRecord) (q : Query) := (recording_answer_server pf sv q).1
  have htrees := congrArg ServerOn.database (Answering.run_state hstate sv queries)
  have hanswers := Answering.run_answers_iff
    (P := fun sv q => ¬ AnswersAsText pf sv.database q.channel q.reqJson) hstate
    (recording_answer_iff pf) sv queries
  exact (and_iff_left htrees).trans hanswers

/-- A get of the speed over a socket, by a client that may read everything. -/
def speedQuery : Query :=
  ⟨midnight, 1, "", { permissions := [("Vehicle*", .str "rw")] }⟩

def getSpeed : Json :=
  .obj [("action", .str "get"), ("path", .str "Vehicle.OBD.Speed"), ("requestId", .str "1")]

/-- The plain database answers in text, the recording one with the number. -/
theorem speed_not_transparent : ¬ Transparent (.basic fun _ => .ok getSpeed)
    ⟨⟨⟨speedTree, speedTree⟩, "recordSet", []⟩, {}, ⟨"key"⟩⟩ [speedQuery] := by
  intro h
  have hne : ((Answering.run (recording.answer (.basic fun _ => .ok getSpeed))
      ⟨⟨⟨speedTree, speedTree⟩, "recordSet", []⟩, {}, ⟨"key"⟩⟩ [speedQuery]).1.map fun r =>
        r.1.toOption.bind (Json.get? "data")) ≠
      ((Answering.run (VssDatabase.plain.answer (.basic fun _ => .ok getSpeed))
        ⟨⟨speedTree, speedTree⟩, {}, ⟨"key"⟩⟩ [speedQuery]).1.map fun r =>
          r.1.toOption.bind (Json.get? "data")) := by
    decide +kernel
  exact hne (congrArg _ h.1)

end VssDatabaseRecord
