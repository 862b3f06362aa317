import KuksaVal.SignalRegister

/-! The record of the sets. It has a line for each set that came past the checks, and these sets,
made again, give the trees. -/
open Json

/-- A call of `setSignal`. -/
structure RecordedSet where
  clock : Clock
  path : VSSPath
  attr : String
  value : Json

namespace VssDatabaseRecord
open VssCommandProcessor AccessChecker

variable (pf : Platform)

/-- The line that a set leaves. -/
def lineOf (s : RecordedSet) : String :=
  "set;" ++ s.attr ++ ";" ++ s.path.toString ++ ";" ++ pf.prettyPrint s.value

def isSetLine (line : String) : Bool := "set;".toList.isPrefixOf line.toList

/-- The set that a valid set request makes when it comes past the checks. -/
def setOfRequest (ck : Clock) (trees : VssDatabase) (channel : KuksaChannel) (request : Json) :
    Option RecordedSet :=
  match validateRequest pf VSSRequestValidator.schemaSet request, text request "path",
    text request "requestId", request.member (attributeOf request) with
  | .ok (), .ok path, .ok requestId, .ok value =>
      match setRefusal pf ck trees channel (.fromVSS path) (attributeOf request) requestId with
      | .ok none => some ⟨ck, .fromVSS path, attributeOf request, value⟩
      | _ => none
  | _, _, _, _ => none

def setOf (trees : VssDatabase) (q : Query) : Option RecordedSet :=
  match pf.parse q.reqJson with
  | .error _ => none
  | .ok root =>
      match text root "action" with
      | .error _ => none
      | .ok action => if action = "set" then setOfRequest pf q.ck trees q.channel root else none

/-- The sets that the requests of a run make, each checked on the trees that it finds. -/
def setsOf : ServerOn VssDatabaseRecord → List Query → List RecordedSet
  | _, [] => []
  | sv, q :: qs =>
      (setOf pf sv.database.trees q).toList ++ setsOf (recording.answer pf sv q).2 qs

/-- Sets are made again, at their times. -/
def replay (db : VssDatabase) (sets : List RecordedSet) : VssDatabase :=
  sets.foldl (fun db s =>
    (db.setSignal pf.jsonPath pf.numerics s.clock s.path s.attr s.value).2.1) db

/-- Between two states sets were made and recorded, and the other lines are of reads. -/
structure Recorded (d d' : VssDatabaseRecord) (sets : List RecordedSet) : Prop where
  logMode : d'.logMode = d.logMode
  trees : d'.trees = replay pf d.trees sets
  lines : d'.record.filter isSetLine = d.record.filter isSetLine ++ sets.map (lineOf pf)
  setsOnly : d.logMode ≠ "recordSetAndGet" → d'.record = d.record ++ sets.map (lineOf pf)

variable {pf} {ck : Clock} {d d' d'' : VssDatabaseRecord} {sets sets' : List RecordedSet}
  {channel : KuksaChannel} {request : Json}

theorem isSetLine_lineOf (s : RecordedSet) : isSetLine (lineOf pf s) = true := by
  simp [isSetLine, lineOf, String.toList_append]

theorem filter_lineOf (sets : List RecordedSet) :
    (sets.map (lineOf pf)).filter isSetLine = sets.map (lineOf pf) := by
  rw [List.filter_eq_self]
  intro line hline
  obtain ⟨s, -, rfl⟩ := List.mem_map.mp hline
  exact isSetLine_lineOf s

theorem Recorded.refl (d : VssDatabaseRecord) : Recorded pf d d [] := by
  constructor <;> simp [replay]

theorem Recorded.trans (h : Recorded pf d d' sets) (h' : Recorded pf d' d'' sets') :
    Recorded pf d d'' (sets ++ sets') := by
  refine ⟨h'.logMode.trans h.logMode, ?_, ?_, ?_⟩
  · rw [h'.trees, h.trees, replay, replay, replay, List.foldl_append]
  · rw [h'.lines, h.lines, List.map_append, List.append_assoc]
  · intro hm
    rw [h'.setsOnly (h.logMode ▸ hm), h.setsOnly hm, List.map_append, List.append_assoc]

/-- A read leaves a line, or none. -/
theorem recorded_getSignal (path : VSSPath) (attr : String) (asString : Bool) :
    Recorded pf d (getSignal pf ck d path attr asString).2 [] := by
  unfold VssDatabaseRecord.getSignal
  dsimp only
  split_ifs with hm
  · have hline : isSetLine ("get;" ++ attr ++ ";" ++ path.toString) = false := by
      simp [isSetLine, String.toList_append, List.isPrefixOf]
    refine ⟨rfl, rfl, ?_, fun h => absurd hm h⟩
    simp [List.filter_append, hline]
  · exact .refl d

theorem recorded_setSignal (path : VSSPath) (attr : String) (value : Json) :
    Recorded pf d (setSignal pf ck d path attr value).2.1 [⟨ck, path, attr, value⟩] := by
  refine ⟨rfl, rfl, ?_, fun _ => rfl⟩
  show (d.record ++ [lineOf pf ⟨ck, path, attr, value⟩]).filter isSetLine = _
  rw [List.filter_append]
  exact congrArg _ (filter_lineOf [⟨ck, path, attr, value⟩])

theorem recorded_collectDatapoints (path : VSSPath) (pathStr attr requestId : String)
    (vssPaths : List VSSPath) : Recorded pf d
      (recording.collectDatapoints pf ck channel path pathStr attr requestId vssPaths d).2 [] := by
  induction vssPaths generalizing d with
  | nil => exact .refl d
  | cons p ps ih =>
    unfold DatabaseClass.collectDatapoints
    rcases checkReadAccess pf.regex channel p with e | ⟨_ | _⟩
    · exact .refl d
    · exact .refl d
    · dsimp only
      rcases (recording.trees d).pathIsAttributable pf.jsonPath path attr with e | ⟨_ | _⟩
      · exact .refl d
      · exact .refl d
      · dsimp only
        have hread : Recorded pf d (recording.getSignal pf ck d p attr
            (channel.typeOfConnection ≠ .grpc)).2 [] :=
          recorded_getSignal p attr (channel.typeOfConnection ≠ .grpc)
        generalize recording.getSignal pf ck d p attr (channel.typeOfConnection ≠ .grpc) = r
          at hread ⊢
        obtain ⟨e | dp, d₁⟩ := r
        · exact hread
        · have hrest : Recorded pf d (recording.collectDatapoints pf ck channel path pathStr attr
            requestId ps d₁).2 [] := hread.trans ih
          dsimp only
          generalize recording.collectDatapoints pf ck channel path pathStr attr requestId ps d₁ =
            r at hrest ⊢
          obtain ⟨e | ⟨answer | dps⟩, d₂⟩ := r
          · exact hrest
          · exact hrest
          · exact hrest

theorem recorded_performGet (path : VSSPath) (pathStr attr requestId : String) :
    Recorded pf d
      (recording.performGet pf ck d channel path pathStr attr requestId).2 [] := by
  unfold DatabaseClass.performGet
  cases (recording.trees d).getLeafPaths pf.jsonPath path with
  | error e => exact .refl d
  | ok vssPaths =>
    have hread : Recorded pf d (recording.collectDatapoints pf ck channel path pathStr attr
        requestId vssPaths d).2 [] := recorded_collectDatapoints ..
    dsimp only
    generalize recording.collectDatapoints pf ck channel path pathStr attr requestId vssPaths d = r
      at hread ⊢
    obtain ⟨e | ⟨answer | dps⟩, d₁⟩ := r
    · exact hread
    · exact hread
    · dsimp only
      split_ifs
      · exact hread
      · exact hread

theorem recorded_processGet :
    Recorded pf d (recording.processGet pf ck d channel request).2 [] := by
  unfold DatabaseClass.processGet
  cases text request "path" with
  | error e => exact .refl d
  | ok pathStr =>
    cases validateRequest pf VSSRequestValidator.schemaGet request with
    | error e => exact .refl d
    | ok _ =>
      cases text request "requestId" with
      | error e => exact .refl d
      | ok requestId =>
        have hget : Recorded pf d (recording.performGet pf ck d channel (.fromVSS pathStr) pathStr
            (attributeOf request) requestId).2 [] := recorded_performGet ..
        dsimp only
        generalize recording.performGet pf ck d channel (.fromVSS pathStr) pathStr
          (attributeOf request) requestId = r at hget ⊢
        obtain ⟨e | answer, d₁⟩ := r
        · exact hget
        · exact hget

/-- A set that comes past the checks is recorded, whether a value is stored or not. -/
theorem recorded_performSet {path : VSSPath} {attr requestId : String} (value : Json)
    (h : setRefusal pf ck (recording.trees d) channel path attr requestId = .ok none) :
    Recorded pf d (recording.performSet pf ck d channel path attr requestId value).2.1
      [⟨ck, path, attr, value⟩] := by
  unfold DatabaseClass.performSet
  rw [h]
  have hset : Recorded pf d (recording.setSignal pf ck d path attr value).2.1
      [⟨ck, path, attr, value⟩] := recorded_setSignal ..
  dsimp only
  generalize recording.setSignal pf ck d path attr value = r at hset ⊢
  obtain ⟨e | data, d₁, pubs⟩ := r
  · exact hset
  · exact hset

theorem recorded_processSet :
    Recorded pf d (recording.processSet pf ck d channel request).2.1
      (setOfRequest pf ck (recording.trees d) channel request).toList := by
  unfold DatabaseClass.processSet setOfRequest
  cases validateRequest pf VSSRequestValidator.schemaSet request with
  | error e => exact .refl d
  | ok _ =>
    cases text request "path" with
    | error e => exact .refl d
    | ok path =>
      cases text request "requestId" with
      | error e => exact .refl d
      | ok requestId =>
        cases request.member (attributeOf request) with
        | error e => exact .refl d
        | ok value =>
          dsimp only
          cases hr : setRefusal pf ck (recording.trees d) channel (.fromVSS path)
            (attributeOf request) requestId with
          | error e =>
            unfold DatabaseClass.performSet
            rw [hr]
            exact .refl d
          | ok refusal =>
            cases refusal with
            | some answer =>
              unfold DatabaseClass.performSet
              rw [hr]
              exact .refl d
            | none => exact recorded_performSet value hr

variable {sv : ServerOn VssDatabaseRecord} {q : Query}

variable (pf sv) in
/-- A request of a client without the right to change the trees makes its set, or none. -/
theorem recorded_answer (hq : q.channel.modifyTree = false) :
    Recorded pf sv.database (recording.answer pf sv q).2.database
      (setOf pf sv.database.trees q).toList := by
  have hanswer : (recording.answer pf sv q).2 =
      (recording.processQuery pf q.ck sv q.subId q.reqJson q.channel).2.1 := rfl
  rw [hanswer]
  unfold setOf
  cases hp : pf.parse q.reqJson with
  | error e =>
    simp only [DatabaseClass.processQuery, hp]
    exact .refl _
  | ok root =>
    rw [DatabaseClass.processQuery_parsed q.ck hp]
    unfold DatabaseClass.dispatch
    dsimp only
    cases hact : text root "action" with
    | error e => exact .refl _
    | ok action =>
      dsimp only
      by_cases hset : action = "set"
      · subst hset
        exact recorded_processSet
      · rw [if_neg hset]
        split_ifs with hget
        · exact recorded_processGet
        · have hdb := dispatch_database pf q.ck (recording.below sv) root q.subId hq
          rw [hact, Except.ok.injEq] at hdb
          obtain ⟨hdb, -⟩ := hdb.resolve_right fun h => hset h.1
          show Recorded pf sv.database { sv.database with trees := (VssCommandProcessor.dispatch pf
            q.ck (recording.below sv) q.subId q.channel root).2.1.database } []
          rw [hdb]
          exact .refl _

variable (pf sv) in
theorem recorded_run (queries : List Query) (hq : ∀ q ∈ queries, q.channel.modifyTree = false) :
    Recorded pf sv.database (Answering.run (recording.answer pf) sv queries).2.database
      (setsOf pf sv queries) := by
  induction queries generalizing sv with
  | nil => exact .refl _
  | cons q qs ih =>
    obtain ⟨hq, hqs⟩ := List.forall_mem_cons.mp hq
    exact (recorded_answer pf sv hq).trans (ih (recording.answer pf sv q).2 hqs)

/-- In every run of requests of clients without the right to change the trees, the record gets a
line for each set that comes past the checks, in order, and these sets, made again on the trees at
the start, give the trees at the end; where reads are not recorded it gets no other line. -/
theorem record_replays (pf : Platform) (sv : ServerOn VssDatabaseRecord) (queries : List Query)
    (hq : ∀ q ∈ queries, q.channel.modifyTree = false) :
    (Answering.run (recording.answer pf) sv queries).2.database.trees =
        replay pf sv.database.trees (setsOf pf sv queries) ∧
      (Answering.run (recording.answer pf) sv queries).2.database.record.filter isSetLine =
        sv.database.record.filter isSetLine ++ (setsOf pf sv queries).map (lineOf pf) ∧
      (sv.database.logMode ≠ "recordSetAndGet" →
        (Answering.run (recording.answer pf) sv queries).2.database.record =
          sv.database.record ++ (setsOf pf sv queries).map (lineOf pf)) := by
  have h := recorded_run pf sv queries hq
  exact ⟨h.trees, h.lines, h.setsOnly⟩

section Speed

def speedRequest : String → Except String Json
  | "set" => .ok (setRequest "Vehicle.OBD.Speed" (.int 5))
  | "get" => .ok getSpeed
  | _ => .error "Parse error"

def speedQueries : List Query :=
  [⟨midnight, 1, "set", { permissions := [("Vehicle*", .str "rw")] }⟩,
    ⟨midnight, 2, "set", {}⟩, ⟨midnight, 3, "get", { permissions := [("Vehicle*", .str "r")] }⟩]

def speedRecorder : ServerOn VssDatabaseRecord :=
  ⟨⟨⟨speedTree, speedTree⟩, "recordSet", []⟩, {}, ⟨"key"⟩⟩

/-- A set that is refused and a get are not recorded. -/
theorem record_replays_speed :
    (setsOf (.basic speedRequest) speedRecorder speedQueries).length = 1 ∧
      (Answering.run (recording.answer (.basic speedRequest)) speedRecorder
          speedQueries).2.database.trees =
        replay (.basic speedRequest) ⟨speedTree, speedTree⟩
          (setsOf (.basic speedRequest) speedRecorder speedQueries) :=
  ⟨by decide +kernel,
    (record_replays (.basic speedRequest) speedRecorder speedQueries (by decide)).1⟩

end Speed

end VssDatabaseRecord
