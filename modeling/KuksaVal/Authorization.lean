import KuksaVal.SetRequest

/-! Access is decided on the text of a request and values are kept at the nodes of a tree: for
which texts the decision is one about the node. -/
namespace VssCommandProcessor
open Json VssDatabase AccessChecker

/-- The canonical path of a node, from its names. -/
def nodePath (names : List String) : VSSPath := .fromVSSGen1 (VSSPath.canonicalGen1 names)

/-- Whatever a set of this path changes, the channel may write to the node itself. -/
def SetCovered (pf : Platform) (ck : Clock) (db : VssDatabase) (channel : KuksaChannel)
    (path : String) (names : List String) : Prop :=
  ∀ request, text request "path" = .ok path →
    (processSet pf ck db channel request).2 ≠ (db, []) →
      checkWriteAccess pf.regex channel (nodePath names) = .ok true

/-- Whoever may subscribe to this path may read the node itself. -/
def SubscribeCovered (pf : Platform) (db : VssDatabase) (channel : KuksaChannel) (path : String)
    (names : List String) : Prop :=
  ∀ (h : SubscriptionHandler) subId attr,
    (h.subscribe pf.jsonPath pf.regex db subId channel path attr).1 = .ok subId →
      checkReadAccess pf.regex channel (nodePath names) = .ok true

/-- A node in which some value can be set. -/
def TakesValues (nm : Numerics) (node : Json) : Prop :=
  IsSettable node ∧ node.contains "datatype" = true ∧
    ∃ value stored, checkAndSanitizeType nm node value = .ok stored

variable {pf : Platform} {ck : Clock} {db : VssDatabase} {channel : KuksaChannel}

variable (ck) in
/-- Nothing stands against setting a node that the channel may write. -/
theorem setRefusal_eq_none {path : VSSPath} {attr : String} (requestId : String) {l : Loc}
    {node : Json}
    (hr : Resolves pf.jsonPath db.dataTree path l node)
    (hw : checkWriteAccess pf.regex channel path = .ok true) (hs : IsSettable node)
    (ha : attr = "targetValue" ∧ node.get? "type" = some (.str "actuator") ∨ attr = "value") :
    setRefusal pf ck db channel path attr requestId = .ok none := by
  have hat := hr.pathIsAttributable attr
  rw [decide_eq_true ha] at hat
  exact setRefusal_eq_none_iff.mpr ⟨l, node, hr, hw, hs, hat⟩

/-- A set request of a path and a value. -/
def setRequest (path : String) (value : Json) : Json :=
  .obj [("action", .str "set"), ("path", .str path), ("requestId", .str "1"), ("value", value)]

theorem valid_setRequest (nm : Numerics) (path : String) (value : Json) :
    VSSRequestValidator.valid nm VSSRequestValidator.schemaSet (setRequest path value) = true := by
  simp [VSSRequestValidator.schemaSet, VSSRequestValidator.valid,
    VSSRequestValidator.validProperties, VSSRequestValidator.hasType, setRequest, isObject,
    VSSRequestValidator.action, VSSRequestValidator.path, VSSRequestValidator.requestId,
    contains, get?, Members.get?_cons]

variable (ck) in
theorem processSet_setRequest {path : String} {value node stored : Json} {l : Loc}
    (hr : Resolves pf.jsonPath db.dataTree (.fromVSS path) l node)
    (hw : checkWriteAccess pf.regex channel (.fromVSS path) = .ok true) (hs : IsSettable node)
    (hd : node.contains "datatype" = true)
    (hv : checkAndSanitizeType pf.numerics node value = .ok stored) :
    (processSet pf ck db channel (setRequest path value)).2 ≠ (db, []) := by
  have hvalid : validateRequest pf VSSRequestValidator.schemaSet (setRequest path value) = .ok () :=
    (VSSRequestValidator.validate_eq_ok_iff pf.numerics).mpr (valid_setRequest _ path value)
  have hp : text (setRequest path value) "path" = .ok path := by
    simp [text, setRequest, member, Members.get?_cons, Except.map]
  have hi : text (setRequest path value) "requestId" = .ok "1" := by
    simp [text, setRequest, member, Members.get?_cons, Except.map]
  have ha : attributeOf (setRequest path value) = "value" := by
    simp [attributeOf, setRequest, get?, Members.get?_cons]
  have hm : (setRequest path value).member "value" = .ok value := by
    simp [setRequest, member, Members.get?_cons]
  have hn := setRefusal_eq_none ck "1" hr hw hs (Or.inr rfl)
  have hst : Stores pf.jsonPath pf.numerics ck db _ (.fromVSS path) "value" value l node stored :=
    ⟨hr, hd, hv, rfl⟩
  have hset := setSignal_of_stores hst
  unfold processSet
  simp only [hvalid, hp, hi, ha, hm, performSet, hn, hset]
  intro h
  simp at h

section Distinct

/-- Two permissions that tell a text from another path: the one for the text grants what the
one for the path does not. -/
def permissionsFor (path canonical : String) (granted withheld : String) : KuksaChannel :=
  { permissions := Members.assign canonical (.str withheld) [(path, .str granted)] }

theorem permissionsFor_increasing (path canonical granted withheld : String) :
    Members.Increasing (permissionsFor path canonical granted withheld).permissions :=
  Members.Increasing.assign (by simp [Members.Increasing]) _ _

theorem checkSignalAccess_text (rx : StdRegex) {path canonical : String} (h : path ≠ canonical)
    (w : String) {granted : String} (hg : granted ≠ "") :
    checkSignalAccess rx (permissionsFor path canonical granted w) path granted = .ok true := by
  have hp : Members.get? path (permissionsFor path canonical granted w).permissions =
      some (.str granted) := by
    simp [permissionsFor, h, Members.get?_cons]
  rw [checkSignalAccess_exact rx hp (by simpa using hg)]
  simp

theorem checkSignalAccess_canonical (rx : StdRegex) (path canonical granted : String)
    {w : String} (hw : w ≠ "") (hr : ¬ granted.toList <:+: w.toList) :
    checkSignalAccess rx (permissionsFor path canonical granted w) canonical granted =
      .ok false := by
  have hp : Members.get? canonical (permissionsFor path canonical granted w).permissions =
      some (.str w) := by
    simp [permissionsFor]
  rw [checkSignalAccess_exact rx hp (by simpa using hw)]
  exact congrArg Except.ok (decide_eq_false hr)

end Distinct

/-- Sets of a path are covered by every set of permissions exactly when its dotted text is the
canonical path of the node, or the node takes no values. -/
theorem setCovered_iff {path : String} {names : List String} {node : Json}
    (hr : Resolves pf.jsonPath db.dataTree (.fromVSS path) (VSSPath.nodeLoc names) node) :
    (∀ channel, Members.Increasing channel.permissions →
        SetCovered pf ck db channel path names) ↔
      (VSSPath.fromVSS path).vssgen1path = VSSPath.canonicalGen1 names ∨
        ¬ TakesValues pf.numerics node := by
  constructor
  · intro h
    by_contra hc
    obtain ⟨hne, hs, hd, value, stored, hv⟩ : _ ∧ TakesValues pf.numerics node := by
      simpa only [not_or, not_not] using hc
    have hw : checkWriteAccess pf.regex (permissionsFor (VSSPath.fromVSS path).vssgen1path
        (VSSPath.canonicalGen1 names) "w" "r") (.fromVSS path) = .ok true :=
      checkSignalAccess_text pf.regex hne "r" (by decide)
    have hset := processSet_setRequest ck hr hw hs hd hv
    have hcov := h _ (permissionsFor_increasing _ _ _ _) _
      (by simp [text, setRequest, member, Members.get?_cons, Except.map]) hset
    have hno := checkSignalAccess_canonical pf.regex (VSSPath.fromVSS path).vssgen1path
      (VSSPath.canonicalGen1 names) "w" (w := "r") (by decide) (by decide)
    rw [show checkWriteAccess pf.regex _ (nodePath names) = _ from hno] at hcov
    simp at hcov
  · intro h channel _ request hp hne
    rcases processSet_cases pf ck db channel request with
      ⟨_, hs⟩ | ⟨path', _, value, _, l, node', stored, hp', _, _, hw, hst, ht, _, _⟩
    · exact absurd hs hne
    · obtain rfl : path = path' := Except.ok.inj (hp.symm.trans hp')
      obtain ⟨-, rfl⟩ := hr.eq hst.resolves
      rcases h with h | h
      · show checkSignalAccess pf.regex channel (VSSPath.canonicalGen1 names) "w" = .ok true
        rw [← h]
        exact hw
      · exact absurd ⟨ht, hst.datatype, value, stored, hst.sanitized⟩ h

theorem subscribeCovered_iff {path : String} {names : List String} {node : Json}
    (hr : Resolves pf.jsonPath db.dataTree (.fromVSS path) (VSSPath.nodeLoc names) node) :
    (∀ channel, Members.Increasing channel.permissions →
        SubscribeCovered pf db channel path names) ↔
      (VSSPath.fromVSS path).vssgen1path = VSSPath.canonicalGen1 names ∨ ¬ IsSignal node := by
  constructor
  · intro h
    by_contra hc
    obtain ⟨hne, hs⟩ : _ ∧ IsSignal node := by simpa only [not_or, not_not] using hc
    have ha : checkReadAccess pf.regex (permissionsFor (VSSPath.fromVSS path).vssgen1path
        (VSSPath.canonicalGen1 names) "r" "w") (.fromVSS path) = .ok true :=
      checkSignalAccess_text pf.regex hne "w" (by decide)
    have hcov := h _ (permissionsFor_increasing _ _ _ _) {} 0 "value"
      (SubscriptionHandler.subscribe_eq_ok_iff.mpr ⟨rfl, ha, _, node, hr, hs⟩)
    have hno := checkSignalAccess_canonical pf.regex (VSSPath.fromVSS path).vssgen1path
      (VSSPath.canonicalGen1 names) "r" (w := "w") (by decide) (by decide)
    rw [show checkReadAccess pf.regex _ (nodePath names) = _ from hno] at hcov
    simp at hcov
  · intro h channel _ handler subId attr hsub
    obtain ⟨-, ha, l, node', hr', hs⟩ := SubscriptionHandler.subscribe_eq_ok_iff.mp hsub
    obtain ⟨-, rfl⟩ := hr.eq hr'
    rcases h with h | h
    · show checkSignalAccess pf.regex channel (VSSPath.canonicalGen1 names) "r" = .ok true
      rw [← h]
      exact ha
    · exact absurd hs h

/-- Permissions decide on the node, whatever they are, exactly when the dotted text of the path
is the canonical path of the node, or there is nothing to write or to read at the node. -/
theorem access_on_node_iff (pf : Platform) (ck : Clock) (db : VssDatabase) (path : String)
    (names : List String) (node : Json)
    (hr : Resolves pf.jsonPath db.dataTree (.fromVSS path) (VSSPath.nodeLoc names) node) :
    ((∀ channel, Members.Increasing channel.permissions →
          SetCovered pf ck db channel path names) ↔
        (VSSPath.fromVSS path).vssgen1path = VSSPath.canonicalGen1 names ∨
          ¬ TakesValues pf.numerics node) ∧
      ((∀ channel, Members.Increasing channel.permissions →
          SubscribeCovered pf db channel path names) ↔
        (VSSPath.fromVSS path).vssgen1path = VSSPath.canonicalGen1 names ∨ ¬ IsSignal node) :=
  ⟨setCovered_iff hr, subscribeCovered_iff hr⟩

section Wildcard

def speedNode : Json :=
  .obj [("datatype", .str "uint8"), ("type", .str "sensor"), ("value", .int 1)]

def speedPlatform : Platform := .basic fun _ => .error "Parse error"

/-- Everything may be set but the speed, which may only be read. -/
def speedReader : KuksaChannel :=
  { permissions := [("Vehicle.*", .str "rw"), ("Vehicle.OBD.Speed", .str "r")] }

theorem wildcard_resolves : Resolves speedPlatform.jsonPath speedTree
    (.fromVSS "Vehicle.*.Speed") (VSSPath.nodeLoc ["Vehicle", "OBD", "Speed"]) speedNode := by
  constructor
  · rw [VSSPath.fromVSS_plain (by decide +kernel), JsonPath.matches?_renderPath]
    decide +kernel
  · decide +kernel

theorem access_on_node_wildcard :
    ¬ ∀ channel, Members.Increasing channel.permissions →
      SubscribeCovered speedPlatform ⟨speedTree, speedTree⟩ channel "Vehicle.*.Speed"
        ["Vehicle", "OBD", "Speed"] := by
  rw [(access_on_node_iff speedPlatform midnight ⟨speedTree, speedTree⟩ "Vehicle.*.Speed"
    ["Vehicle", "OBD", "Speed"] speedNode wildcard_resolves).2]
  decide +kernel

/-- The wildcard sets the speed that the channel may only read. -/
theorem wildcard_not_setCovered :
    Resolves speedPlatform.jsonPath speedTree (.fromVSS "Vehicle.*.Speed")
        (VSSPath.nodeLoc ["Vehicle", "OBD", "Speed"]) speedNode ∧
      Members.Increasing speedReader.permissions ∧
      ¬ SetCovered speedPlatform midnight ⟨speedTree, speedTree⟩ speedReader "Vehicle.*.Speed"
        ["Vehicle", "OBD", "Speed"] := by
  refine ⟨wildcard_resolves, by decide +kernel, fun h => ?_⟩
  have hw := h (setRequest "Vehicle.*.Speed" (.int 5)) (by decide +kernel) (by decide +kernel)
  have hno : checkWriteAccess speedPlatform.regex speedReader
      (nodePath ["Vehicle", "OBD", "Speed"]) = .ok false := by decide +kernel
  simp [hno] at hw

end Wildcard

end VssCommandProcessor
