import KuksaVal.VssTree
import KuksaVal.Authorization
import Mathlib.Data.List.Perm.Basic

/-! A get request as a whole: the datapoints of its answer, and the access they were given
for. -/
namespace VssCommandProcessor
open Json JsonResponses VssDatabase VSSRequestValidator AccessChecker

variable {pf : Platform} {ck : Clock} {db : VssDatabase} {channel : KuksaChannel}

theorem attributeOf_of_valid {nm : Numerics} {request : Json} {enum required : List String}
    {properties : List (String × Schema)} {types : List SchemaType}
    (h : valid nm (.mk types enum required properties) request = true)
    (ha : ("attribute", attributeSchema) ∈ properties) :
    attributeOf request = "value" ∨ attributeOf request = "targetValue" := by
  unfold attributeOf
  cases hg : request.get? "attribute" with
  | none => exact Or.inl rfl
  | some v =>
    have hv := property_of_valid nm h ha hg
    have he : v = .str "targetValue" ∨ v = .str "value" := by
      simpa [attributeSchema, valid, validProperties] using hv
    rcases he with rfl | rfl
    · exact Or.inr rfl
    · exact Or.inl rfl

theorem errorAnswer_data (action : Option String) (requestId number reason message : String) :
    (errorAnswer ck action requestId number reason message).get? "data" = none :=
  errorAnswer_get? ck action requestId number reason message (by decide)

theorem getAnswer_data (requestId : String) (data : Json) :
    (getAnswer ck requestId data).get? "data" = some data := by
  unfold getAnswer
  rw [get?_ofMembers]
  simp [Members.get?_cons]

/-- The loop ends with a datapoint for each path, or refuses with no data at all. -/
theorem collectDatapoints_ok {path : VSSPath} {pathStr attr requestId : String}
    {vssPaths : List VSSPath} {r : Json ⊕ List Json}
    (h : collectDatapoints pf ck db channel path pathStr attr requestId vssPaths = .ok r) :
    (∃ answer, r = .inl answer ∧ answer.get? "data" = none) ∨
      ∃ dps, r = .inr dps ∧ (∀ p ∈ vssPaths, checkReadAccess pf.regex channel p = .ok true) ∧
        List.Forall₂ (fun p dp => db.getSignal pf.jsonPath pf.numerics ck p attr
          (channel.typeOfConnection ≠ .grpc) = .ok dp) vssPaths dps := by
  induction vssPaths generalizing r with
  | nil =>
    obtain rfl := Except.ok.inj h
    exact Or.inr ⟨[], rfl, by simp, .nil⟩
  | cons p ps ih =>
    unfold collectDatapoints at h
    split at h
    · simp at h
    · obtain rfl := Except.ok.inj h
      exact Or.inl ⟨_, rfl, errorAnswer_data _ _ _ _ _⟩
    · rename_i ha
      split at h
      · simp at h
      · obtain rfl := Except.ok.inj h
        exact Or.inl ⟨_, rfl, errorAnswer_data _ _ _ _ _⟩
      · split at h
        · simp at h
        · rename_i dp hg
          cases hc : collectDatapoints pf ck db channel path pathStr attr requestId ps with
          | error e => simp [hc] at h
          | ok r' =>
            rcases ih hc with ⟨answer, rfl, hn⟩ | ⟨dps, rfl, hr, hf⟩
            · rw [hc] at h
              obtain rfl := Except.ok.inj h
              exact Or.inl ⟨answer, rfl, hn⟩
            · rw [hc] at h
              obtain rfl := Except.ok.inj h
              exact Or.inr ⟨dp :: dps, rfl, List.forall_mem_cons.mpr ⟨ha, hr⟩, .cons hg hf⟩

/-- A get answers without data, or with what the loop over the leaves made. -/
theorem processGet_cases {request answer : Json}
    (h : processGet pf ck db channel request = .ok answer) :
    answer.get? "data" = none ∨ ∃ path requestId, text request "path" = .ok path ∧
      valid pf.numerics schemaGet request = true ∧
      performGet pf ck db channel (.fromVSS path) path (attributeOf request) requestId =
        .ok answer := by
  unfold processGet at h
  split at h
  · simp at h
  · rename_i path hp
    cases hv : validateRequest pf schemaGet request with
    | error e =>
      simp only [hv, refuseRequest, tryExtractRequestId] at h
      split_ifs at h <;> split at h <;> simp only [Except.map, Except.ok.injEq, reduceCtorEq] at h
      all_goals
        rw [← h]
        simp [malFormedRequest, errorAnswer_data]
    | ok u =>
      simp only [hv] at h
      split at h
      · simp at h
      · rename_i requestId _
        cases hg : performGet pf ck db channel (.fromVSS path) path (attributeOf request)
          requestId with
        | error e =>
          simp only [hg, getFailure, answerUnhandled] at h
          split_ifs at h
          all_goals
            obtain rfl := Except.ok.inj h
            simp [notSetResponse, malFormedRequest, errorAnswer_data]
        | ok answer' =>
          simp only [hg] at h
          obtain rfl := Except.ok.inj h
          exact Or.inr ⟨path, requestId, hp, (validate_eq_ok_iff pf.numerics).mp hv, hg⟩

/-- What the loop made is a datapoint for each of at least one leaf. -/
theorem performGet_data {path : VSSPath} {pathStr attr requestId : String} {answer data : Json}
    (h : performGet pf ck db channel path pathStr attr requestId = .ok answer)
    (hd : answer.get? "data" = some data) :
    ∃ vssPaths dps, vssPaths ≠ [] ∧ db.getLeafPaths pf.jsonPath path = .ok vssPaths ∧
      data = dataOf dps ∧ (∀ p ∈ vssPaths, checkReadAccess pf.regex channel p = .ok true) ∧
      List.Forall₂ (fun p dp => db.getSignal pf.jsonPath pf.numerics ck p attr
        (channel.typeOfConnection ≠ .grpc) = .ok dp) vssPaths dps := by
  unfold performGet at h
  split at h
  · simp at h
  · rename_i vssPaths hl
    split at h
    · simp at h
    · rename_i answer' hc
      obtain rfl := Except.ok.inj h
      rcases collectDatapoints_ok hc with ⟨a, he, hn⟩ | ⟨dps, he, -⟩
      · obtain rfl := Sum.inl.inj he
        simp [hn] at hd
      · simp at he
    · rename_i dps hc
      rcases collectDatapoints_ok hc with ⟨a, he, hn⟩ | ⟨dps', he, hf⟩
      · simp at he
      · obtain rfl := Sum.inr.inj he
        split_ifs at h with hnil
        · obtain rfl := Except.ok.inj h
          simp [pathNotFound, errorAnswer_data] at hd
        · obtain rfl := Except.ok.inj h
          rw [getAnswer_data] at hd
          exact ⟨vssPaths, dps, hnil, hl, (Option.some.inj hd).symm, hf⟩

/-- Only a get that reads every leaf answers with data. -/
theorem processGet_data {request answer data : Json}
    (h : processGet pf ck db channel request = .ok answer) (hd : answer.get? "data" = some data) :
    ∃ path vssPaths dps, text request "path" = .ok path ∧
      valid pf.numerics schemaGet request = true ∧
      db.getLeafPaths pf.jsonPath (.fromVSS path) = .ok vssPaths ∧ data = dataOf dps ∧
      (∀ p ∈ vssPaths, checkReadAccess pf.regex channel p = .ok true) ∧
      List.Forall₂ (fun p dp => db.getSignal pf.jsonPath pf.numerics ck p (attributeOf request)
        (channel.typeOfConnection ≠ .grpc) = .ok dp) vssPaths dps := by
  rcases processGet_cases h with hn | ⟨path, requestId, hp, hv, hg⟩
  · simp [hn] at hd
  · obtain ⟨vssPaths, dps, -, hl, hdata, hf⟩ := performGet_data hg hd
    exact ⟨path, vssPaths, dps, hp, hv, hl, hdata, hf⟩

/-- The canonical path of a node in the spelling of a request. -/
def shownPath (path : String) (names : List String) : String :=
  if (VSSPath.fromVSS path).isGen1Origin then VSSPath.canonicalGen1 names
  else VSSPath.canonicalGen2 names

/-- A datapoint shows the attribute that is stored at a node. -/
def Shows (db : VssDatabase) (channel : KuksaChannel) (path attr : String) (names : List String)
    (dp : Json) : Prop :=
  dp.get? "path" = some (.str (shownPath path names)) ∧
    ∃ node v, db.dataTree.at? (VSSPath.nodeLoc names) = some node ∧ node.get? attr = some v ∧
      shownValue dp attr =
        some (if channel.typeOfConnection ≠ .grpc then .str v.asString else v)

/-- What the loop reads at the path of a node is the node. -/
theorem shows_of_getSignal {path attr : String} (ha : attr = "value" ∨ attr = "targetValue")
    {names : List String} (hne : names ≠ []) (hn : ∀ n ∈ names, VSSPath.NodeName n) {node : Json}
    (hl : db.dataTree.at? (VSSPath.nodeLoc names) = some node) {dp : Json}
    (hg : db.getSignal pf.jsonPath pf.numerics ck
      (.fromJSON (Loc.toPath (VSSPath.nodeLoc names)) (VSSPath.fromVSS path).isGen1Origin) attr
      (channel.typeOfConnection ≠ .grpc) = .ok dp) : Shows db channel path attr names dp := by
  have hts : attr ≠ "ts_s" ∧ attr ≠ "ts_ns" ∧ attr ≠ "ts" := by
    rcases ha with rfl | rfl <;> decide
  have hr : Resolves pf.jsonPath db.dataTree
      (.fromJSON (Loc.toPath (VSSPath.nodeLoc names)) (VSSPath.fromVSS path).isGen1Origin)
      (VSSPath.nodeLoc names) node := by
    constructor
    · rw [VSSPath.fromJSON_jsonpath, Loc.toPath, JsonPath.matches?_renderPath,
        select_loc (by simp [hl])]
    · exact hl
  obtain ⟨hp, v, hv, hs⟩ := hr.getSignal_ok hts hg
  refine ⟨?_, node, v, hl, hv, by simpa using hs⟩
  obtain ⟨n, ns, rfl⟩ := List.exists_cons_of_ne_nil hne
  rw [hp]
  unfold VSSPath.toString shownPath
  rw [VSSPath.fromJSON_gen1]
  split_ifs
  · rw [← VSSPath.gen2togen1_canonical hn, ← VSSPath.jsontogen2_toPath hn]
    rfl
  · rw [← VSSPath.jsontogen2_toPath hn]
    rfl

theorem checkReadAccess_fromJSON {names : List String} (hne : names ≠ [])
    (hn : ∀ n ∈ names, VSSPath.NodeName n) (gen1 : Bool) :
    checkReadAccess pf.regex channel (.fromJSON (Loc.toPath (VSSPath.nodeLoc names)) gen1) =
      checkReadAccess pf.regex channel (nodePath names) := by
  obtain ⟨n, ns, rfl⟩ := List.exists_cons_of_ne_nil hne
  have he : (VSSPath.fromJSON (Loc.toPath (VSSPath.nodeLoc (n :: ns))) gen1).getVSSGen1Path =
      VSSPath.canonicalGen1 (n :: ns) := by
    rw [← VSSPath.gen2togen1_canonical hn, ← VSSPath.jsontogen2_toPath hn]
    rfl
  unfold checkReadAccess
  rw [he]
  rfl

theorem exists_map_of_perm {α β : Type*} {f : α → β} {l : List α} {r : List β}
    (h : r.Perm (l.map f)) : ∃ l' : List α, l'.Perm l ∧ r = l'.map f := by
  have hcomp := congrFun (congrFun (List.eq_map_comp_perm f) r) l
  obtain ⟨l', he, hp⟩ := hcomp.mpr h
  exact ⟨l', hp, he⟩

/-- In a well-formed tree an answer with data shows each leaf at or below the path once, and
only where every one of them may be read. -/
theorem processGet_discloses (pf : Platform) (ck : Clock) (db : VssDatabase)
    (channel : KuksaChannel) (request : Json) (path : String) (ls : List Loc)
    (ht : VssTree db.dataTree) (ho : db.dataTree.ordered = true)
    (hp : text request "path" = .ok path) (hplain : VSSPath.Plain path)
    (hm : pf.jsonPath.matches? db.dataTree (VSSPath.fromVSS path).jsonpath = .ok ls) :
    (∀ answer data, processGet pf ck db channel request = .ok answer →
      answer.get? "data" = some data → ∃ (leaves : List (List String)) (dps : List Json),
        leaves.Nodup ∧ (∀ names, names ∈ leaves ↔ LeafOf db.dataTree ls names) ∧
        data = dataOf dps ∧
        List.Forall₂ (Shows db channel path (attributeOf request)) leaves dps ∧
        ∀ names ∈ leaves, checkReadAccess pf.regex channel (nodePath names) = .ok true) ∧
    ((∃ names, LeafOf db.dataTree ls names ∧
        checkReadAccess pf.regex channel (nodePath names) ≠ .ok true) →
      ∀ answer, processGet pf ck db channel request = .ok answer → answer.get? "data" = none) := by
  have hdata : ∀ answer data, processGet pf ck db channel request = .ok answer →
      answer.get? "data" = some data → ∃ (leaves : List (List String)) (dps : List Json),
        leaves.Nodup ∧ (∀ names, names ∈ leaves ↔ LeafOf db.dataTree ls names) ∧
        data = dataOf dps ∧
        List.Forall₂ (Shows db channel path (attributeOf request)) leaves dps ∧
        ∀ names ∈ leaves, checkReadAccess pf.regex channel (nodePath names) = .ok true := by
    intro answer data hg hd
    obtain ⟨path', vssPaths, dps, hp', hv, hl, rfl, haccess, hf⟩ := processGet_data hg hd
    obtain rfl : path = path' := Except.ok.inj (hp.symm.trans hp')
    have hattr := attributeOf_of_valid hv (by simp)
    have hsel : ls = Json.select (VSSPath.selectors (VSSPath.gen1togen2 path)) db.dataTree := by
      rw [VSSPath.fromVSS_plain hplain, JsonPath.matches?_renderPath] at hm
      exact (Except.ok.inj hm).symm
    obtain ⟨leaves, hleaves, hnodup, hmem⟩ := ht.leavesAt ho ls hsel
    obtain ⟨result, hres, hperm⟩ := getLeafPaths_spec hm
    obtain rfl : vssPaths = result := Except.ok.inj (hl.symm.trans hres)
    -- The enumeration is sorted by path, so it is the leaves in some other order.
    obtain ⟨leaves', hperm', rfl⟩ : ∃ leaves' : List (List String), leaves'.Perm leaves ∧ vssPaths =
        leaves'.map fun names => VSSPath.fromJSON (Loc.toPath (VSSPath.nodeLoc names))
          (VSSPath.fromVSS path).isGen1Origin := by
      rw [hleaves, pathsOf, List.map_map] at hperm
      exact exists_map_of_perm hperm
    have hmem' (names : List String) : names ∈ leaves' ↔ LeafOf db.dataTree ls names :=
      hperm'.mem_iff.trans (hmem names)
    have hnode (names : List String) (hn : names ∈ leaves') : names ≠ [] ∧
        (∀ n ∈ names, VSSPath.NodeName n) ∧
        ∃ node, db.dataTree.at? (VSSPath.nodeLoc names) = some node := by
      obtain ⟨above, habove, hpre, node, hat, -⟩ := (hmem' names).mp hn
      have hne : names ≠ [] := by
        rintro rfl
        obtain rfl : above = [] := List.prefix_nil.mp hpre
        have hlen := select_length (hsel ▸ habove : _ ∈ Json.select _ db.dataTree)
        have hpos := VSSPath.selectors_length_pos (VSSPath.gen1togen2 path)
        simp only [VSSPath.nodeLoc, List.map_nil, List.intersperse_nil, List.length_nil] at hlen
        omega
      exact ⟨hne, (ht.located hne hat).1, node, hat⟩
    rw [List.forall₂_map_left_iff] at hf
    refine ⟨leaves', dps, hperm'.nodup_iff.mpr hnodup, hmem', rfl, ?_, ?_⟩
    · have hboth := (List.forall₂_and_left _ _).mpr ⟨hnode, hf⟩
      apply List.Forall₂.imp _ hboth
      rintro names dp ⟨⟨hne, hn, node, hat⟩, hg⟩
      exact shows_of_getSignal hattr hne hn hat hg
    · intro names hn
      obtain ⟨hne, hnames, -⟩ := hnode names hn
      rw [← checkReadAccess_fromJSON hne hnames]
      exact haccess _ (List.mem_map_of_mem hn)
  refine ⟨hdata, ?_⟩
  rintro ⟨names, hleaf, hno⟩ answer hg
  cases hd : answer.get? "data" with
  | none => rfl
  | some data =>
    obtain ⟨leaves, dps, -, hmem, -, -, hread⟩ := hdata answer data hg hd
    exact absurd (hread names ((hmem names).mpr hleaf)) hno

section Vehicle

theorem speedTree_vssTree : VssTree speedTree := by
  have hspeed : VssNode speedNode := by
    unfold speedNode
    exact .leaf rfl (by decide) rfl
  have hobd := (vssTree_singleton (n := "Speed") (by decide +kernel) hspeed).branch
  have hvehicle := (vssTree_singleton (n := "OBD") (by decide +kernel) hobd).branch
  exact vssTree_singleton (by decide +kernel) hvehicle

def vehicleGet (path : String) : Json :=
  .obj [("action", .str "get"), ("path", .str path), ("requestId", .str "1")]

theorem vehicle_matches :
    speedPlatform.jsonPath.matches? speedTree (VSSPath.fromVSS "Vehicle").jsonpath =
      .ok [VSSPath.nodeLoc ["Vehicle"]] := by
  rw [VSSPath.fromVSS_plain (by decide +kernel), JsonPath.matches?_renderPath]
  decide +kernel

theorem wildcard_matches :
    speedPlatform.jsonPath.matches? speedTree (VSSPath.fromVSS "Vehicle.OBD.*").jsonpath =
      .ok [VSSPath.nodeLoc ["Vehicle", "OBD", "Speed"]] := by
  rw [VSSPath.fromVSS_plain (by decide +kernel), JsonPath.matches?_renderPath]
  decide +kernel

/-- The speed is shown to a channel that may read it, and a channel without permissions gets no
data of the vehicle. -/
theorem processGet_discloses_vehicle :
    (∃ answer data leaves dps,
      processGet speedPlatform midnight ⟨speedTree, speedTree⟩ speedReader
          (vehicleGet "Vehicle.OBD.*") = .ok answer ∧
        answer.get? "data" = some data ∧ data = dataOf dps ∧
        ["Vehicle", "OBD", "Speed"] ∈ leaves ∧
        List.Forall₂ (Shows ⟨speedTree, speedTree⟩ speedReader "Vehicle.OBD.*" "value")
          leaves dps) ∧
    ¬ ∃ answer data,
      processGet speedPlatform midnight ⟨speedTree, speedTree⟩ {} (vehicleGet "Vehicle") =
        .ok answer ∧ answer.get? "data" = some data := by
  constructor
  · have hshown : ((processGet speedPlatform midnight ⟨speedTree, speedTree⟩ speedReader
        (vehicleGet "Vehicle.OBD.*")).toOption.bind fun answer => answer.get? "data").isSome =
          true := by decide +kernel
    cases hg : processGet speedPlatform midnight ⟨speedTree, speedTree⟩ speedReader
      (vehicleGet "Vehicle.OBD.*") with
    | error e => simp [hg, Except.toOption] at hshown
    | ok answer =>
      obtain ⟨data, hd⟩ := Option.isSome_iff_exists.mp
        (show (answer.get? "data").isSome = true by simpa [hg, Except.toOption] using hshown)
      obtain ⟨leaves, dps, -, hmem, hdata, hshows, -⟩ :=
        (processGet_discloses speedPlatform midnight ⟨speedTree, speedTree⟩ speedReader
          (vehicleGet "Vehicle.OBD.*") "Vehicle.OBD.*" _ speedTree_vssTree (by decide +kernel)
          (by decide +kernel) (by decide +kernel) wildcard_matches).1 answer data hg hd
      have hspeed : ["Vehicle", "OBD", "Speed"] ∈ leaves :=
        (hmem _).mpr ⟨["Vehicle", "OBD", "Speed"], by simp, by simp, speedNode,
          by decide +kernel, by decide⟩
      exact ⟨answer, data, leaves, dps, rfl, hd, hdata, hspeed, hshows⟩
  · have hleaf : LeafOf speedTree [VSSPath.nodeLoc ["Vehicle"]] ["Vehicle", "OBD", "Speed"] :=
      ⟨["Vehicle"], by simp, by simp, speedNode, by decide +kernel, by decide⟩
    have hno : checkReadAccess speedPlatform.regex {} (nodePath ["Vehicle", "OBD", "Speed"]) ≠
        .ok true := by decide +kernel
    have h := (processGet_discloses speedPlatform midnight ⟨speedTree, speedTree⟩ {}
      (vehicleGet "Vehicle") "Vehicle" _ speedTree_vssTree (by decide +kernel) (by decide +kernel)
      (by decide +kernel) vehicle_matches).2 ⟨_, hleaf, hno⟩
    rintro ⟨answer, data, hg, hd⟩
    simp [h answer hg] at hd

end Vehicle

end VssCommandProcessor
