import KuksaVal.GetReplies
import KuksaVal.SignalRegister
import KuksaVal.StreamedAttributes

/-! What a get over the service returns is what a set over it has stored before, whatever other
clients have asked for in between. -/
open Json

namespace RequestServiceImpl
open VssCommandProcessor VssDatabase JsonResponses VSSPath GrpcHandler
open MetaDataUpdates (isRuntime_of_written)

section Values
variable {nm : Numerics} {dt : String} {val : Option GrpcValue} {field : GrpcValue}
  {node stored : Json}

/-- What the value of a message comes back as: an integer in the width of the datatype, a float as
the value library keeps it, any other value as it is. A value of another kind than the datatype's is
the default of that kind. -/
inductive ComesBack (nm : Numerics) : String → Option GrpcValue → GrpcValue → Prop
  | integer {dt : String} {t : IntType} {val : Option GrpcValue} {n : ℤ} {field : GrpcValue}
      (ht : (dt, t) ∈ integerTypes) (hv : settingOf dt val = .int n)
      (hc : Carries dt (.int (t.wrap n)) field) : ComesBack nm dt val field
  | float {val : Option GrpcValue} {d d' : Double} (hv : settingOf "float" val = .double d)
      (hd : nm.asFloat (.double d) = .ok d') : ComesBack nm "float" val (.float d')
  | same {dt : String} {val : Option GrpcValue} {field : GrpcValue}
      (hdt : dt ∈ ["double", "boolean", "string"]) (hc : Carries dt (settingOf dt val) field) :
      ComesBack nm dt val field

theorem settingOf_integer {t : IntType} (h : (dt, t) ∈ integerTypes) (val : Option GrpcValue) :
    ∃ n, settingOf dt val = .int n := by
  simp only [integerTypes, List.mem_cons, Prod.mk.injEq, List.not_mem_nil, or_false] at h
  rcases h with ⟨rfl, rfl⟩ | ⟨rfl, rfl⟩ | ⟨rfl, rfl⟩ | ⟨rfl, rfl⟩ | ⟨rfl, rfl⟩ | ⟨rfl, rfl⟩ |
    ⟨rfl, rfl⟩ | ⟨rfl, rfl⟩ <;> exact ⟨_, rfl⟩

theorem mapError_eq_ok {r : Except String Double} {d : Double}
    (h : r.mapError conversionError = .ok d) : r = .ok d := by
  cases r with
  | error e => simp [Except.mapError] at h
  | ok d' => exact congrArg Except.ok (Except.ok.inj h)

/-- A text is stored as it is. -/
theorem string_stored {datatype w : Json} (hd : node.get? "datatype" = some datatype)
    (ht : datatype.asString = "string") (hs : checkAndSanitizeType nm node w = .ok stored) :
    stored = w := by
  have hn : numTypeOf nm "string" = none := numTypeOf_eq_none_iff.mpr (by decide)
  have hdispatch : checkStringType node w = .ok stored := by
    cases w <;>
    · unfold checkAndSanitizeType at hs
      simpa [dispatchType, member_of_get? hd, ht, hn] using hs
  unfold checkStringType at hdispatch
  cases ha : checkEnumMember node "allowed" w with
  | error e => simp [ha] at hdispatch
  | ok _ =>
    cases he : checkEnumMember node "enum" w with
    | error e => simp [ha, he] at hdispatch
    | ok _ => simpa [ha, he, eq_comm] using hdispatch

/-- A value that a set has stored is read in the field of its datatype. -/
theorem valueOf_setting {datatype : Json} (hnm : KeepsFloats nm)
    (hd : node.get? "datatype" = some datatype) (hdt : datatype.asString ∈ scalarDatatypes)
    (hs : checkAndSanitizeType nm node (settingOf datatype.asString val) = .ok stored) :
    ∃ field, valueOf nm datatype.asString stored = .ok field ∧
      ComesBack nm datatype.asString val field := by
  obtain ⟨field, hfield, hc⟩ := valueOf_stored hnm hd hdt hs
  have hall : ∀ name ∈ scalarDatatypes, (∃ m ∈ integerTypes, m.1 = name) ∨
      name = "float" ∨ name = "double" ∨ name = "boolean" ∨ name = "string" := by decide
  rcases hall _ hdt with ⟨⟨dt, t⟩, hmem, ht⟩ | ht | ht | ht | ht
  · obtain rfl : dt = datatype.asString := ht
    obtain ⟨n, hn⟩ := settingOf_integer hmem val
    rw [checkAndSanitizeType_number hd (numTypeOf_integer hmem), hn] at hs
    obtain ⟨c, hasn, -, -, -, rfl⟩ := checkNumTypes_eq_ok_iff.mp hs
    obtain rfl := Except.ok.inj hasn
    exact ⟨field, hfield, .integer hmem hn hc⟩
  · have hfloat : numTypeOf nm "float" = some (.floating nm nm.asFloat) := rfl
    rw [checkAndSanitizeType_number hd (by rw [ht, hfloat]), ht] at hs
    obtain ⟨d', has, -, -, -, rfl⟩ := checkNumTypes_eq_ok_iff.mp hs
    obtain ⟨d, hset⟩ : ∃ d, settingOf "float" val = .double d := ⟨_, rfl⟩
    have hd' : nm.asFloat (.double d) = .ok d' := mapError_eq_ok (hset ▸ has)
    have hagain := hnm.asFloat_float _ _ hd'
    rw [ht]
    exact ⟨.float d', by simp [valueOf, NumType.floating, hagain, Except.mapError, Except.map],
      .float hset hd'⟩
  · have hdouble : numTypeOf nm "double" = some (.floating nm nm.asDouble) := rfl
    rw [checkAndSanitizeType_number hd (by rw [ht, hdouble]), ht] at hs
    obtain ⟨d', has, -, -, -, rfl⟩ := checkNumTypes_eq_ok_iff.mp hs
    obtain ⟨d, hset⟩ : ∃ d, settingOf "double" val = .double d := ⟨_, rfl⟩
    have hd' : nm.asDouble (.double d) = .ok d' := mapError_eq_ok (hset ▸ has)
    obtain rfl := Except.ok.inj ((hnm.asDouble_double d).symm.trans hd')
    rw [ht] at hfield hc ⊢
    exact ⟨field, hfield, .same (by simp) (hset ▸ hc)⟩
  · rw [checkAndSanitizeType_boolean hd ht, ht] at hs
    obtain ⟨b, hset⟩ : ∃ b, settingOf "boolean" val = .bool b := ⟨_, rfl⟩
    have hsame : checkBoolType (.bool b) = .ok (.bool b) := by cases b <;> decide +kernel
    rw [hset, hsame] at hs
    obtain rfl := Except.ok.inj hs
    rw [ht] at hfield hc ⊢
    exact ⟨field, hfield, .same (by simp) (hset ▸ hc)⟩
  · obtain rfl := string_stored hd ht hs
    rw [ht] at hfield hc ⊢
    exact ⟨field, hfield, .same (by simp) hc⟩

/-- A value has one field. -/
theorem carries_eq {j : Json} {field' : GrpcValue} (h : Carries dt j field)
    (h' : Carries dt j field') : field = field' := by
  have hkinds : ∀ name ∈ ["uint8", "uint16", "uint32"], name ∉ ["int8", "int16", "int32"] := by
    decide
  generalize hdt : dt = dt' at h'
  generalize hj : j = j' at h'
  cases h <;> cases h'
  case uint32.int32 h _ h' => exact absurd h' (hkinds _ (hdt ▸ h))
  case int32.uint32 h _ h' => exact absurd h (hkinds _ (hdt ▸ h'))
  all_goals first | (subst hdt; simp_all) | simp_all

/-- A value of the kind of its datatype comes back as it is, where an integer is in its range and a
float is one that the value library keeps. -/
theorem ComesBack.eq {v : GrpcValue} (h : ComesBack nm dt (some v) field)
    (hv : Carries dt (settingOf dt (some v)) v)
    (hint : ∀ t n, (dt, t) ∈ integerTypes → settingOf dt (some v) = .int n → t.Range n)
    (hfloat : ∀ d, v = .float d → nm.asFloat (.double d) = .ok d) : field = v := by
  cases h with
  | integer ht hset hc =>
    rw [hset] at hv
    rw [IntType.wrap_of_range (integerTypes_bits ht) (hint _ _ ht hset)] at hc
    exact carries_eq hc hv
  | @float _ d d' hset hd =>
    have hv' : v = .float d := carries_eq (hset ▸ hv) .float
    rw [hfloat d hv'] at hd
    rw [hv', Except.ok.inj hd]
  | same hdt hc => exact carries_eq hc hv

/-- An integer comes back in the width of its datatype. -/
theorem ComesBack.integer_field {t : IntType} {n : ℤ} (h : ComesBack nm dt val field)
    (ht : (dt, t) ∈ integerTypes) (hv : settingOf dt val = .int n) :
    Carries dt (.int (t.wrap n)) field := by
  cases h with
  | @integer _ t' _ n' _ ht' hv' hc =>
    have hunique : ∀ m ∈ integerTypes, ∀ m' ∈ integerTypes, m.1 = m'.1 → m = m' := by decide
    obtain rfl := (Prod.mk.inj (hunique _ ht _ ht' rfl)).2
    rw [hv] at hv'
    obtain rfl := Json.int.inj hv'
    exact hc
  | float => exact absurd ht (by simp [integerTypes])
  | same hdt _ =>
    have hother : ∀ m ∈ integerTypes, m.1 ∉ ["double", "boolean", "string"] := by decide
    exact absurd hdt (hother _ ht)

end Values

section Sets
variable {pf : Platform} {kc : KuksaChannel} {attr : String} {draws : ℕ → Clock × SubscriptionId}
  {db db' : VssDatabase} {tree tree' : Json} {path dt : String} {l : Loc}

/-- A path of a tree that leads to one node, with the datatype of single values. -/
structure Addresses (pf : Platform) (tree : Json) (path : String) (l : Loc) (dt : String) :
    Prop where
  plain : Plain path
  unique : pf.jsonPath.matches? tree (VSSPath.fromVSS path).jsonpath = .ok [l]
  datatype : ∃ node v, tree.at? l = some node ∧ node.get? "datatype" = some v ∧ v.asString = dt
  scalar : dt ∈ scalarDatatypes

theorem Addresses.isNodeLoc (h : Addresses pf tree path l dt) : IsNodeLoc l :=
  (nodeQuery_fromVSS h.plain).isNodeLoc h.unique (List.mem_singleton_self l)

theorem Addresses.congr (h : Addresses pf tree path l dt)
    (ht : prune isRuntime tree = prune isRuntime tree') : Addresses pf tree' path l dt := by
  obtain ⟨node, v, hat, hd, hv⟩ := h.datatype
  obtain ⟨node', hr', hnode⟩ := (nodeQuery_fromVSS h.plain).resolves ht ⟨h.unique, hat⟩
  have hd' : node'.get? "datatype" = some v :=
    (get?_of_pruneNode hnode (by decide) (by decide)).symm.trans hd
  exact ⟨h.plain, hr'.unique, ⟨node', v, hr'.located, hd', hv⟩, h.scalar⟩

/-- In the trees the node at the location shows what a set of this message has stored. -/
def Kept (pf : Platform) (attr : String) (ck : Clock) (val : GrpcMessage) (l : Loc) (dt : String)
    (db : VssDatabase) : Prop :=
  ∃ before after node v stored,
    Stores pf.jsonPath pf.numerics ck before after (.fromVSS val.path) attr
      (settingOf dt val.val) l node stored ∧
    node.get? "datatype" = some v ∧ v.asString = dt ∧ IsSettable node ∧
    (attr = "targetValue" ∧ node.get? "type" = some (.str "actuator") ∨ attr = "value") ∧
    SameSignal l attr after db

theorem Kept.sameSignal {ck : Clock} {val : GrpcMessage} (h : Kept pf attr ck val l dt db)
    (hs : SameSignal l attr db db') : Kept pf attr ck val l dt db' := by
  obtain ⟨before, after, node, v, stored, hst, hd, hv, hset, hatt, hsame⟩ := h
  exact ⟨before, after, node, v, stored, hst, hd, hv, hset, hatt, hsame.trans hs⟩

theorem supported_of_scalar {nm : Numerics} (h : dt ∈ scalarDatatypes) :
    SupportedDatatype nm dt := by
  simp only [scalarDatatypes, List.mem_cons, List.not_mem_nil, or_false] at h
  rcases h with rfl | rfl | rfl | rfl | rfl | rfl | rfl | rfl | rfl | rfl | rfl | rfl
  case inr.inr.inr.inr.inr.inr.inr.inr.inr.inr.inl => exact .inr (.inl rfl)
  case inr.inr.inr.inr.inr.inr.inr.inr.inr.inr.inr => exact .inr (.inr (.inl rfl))
  all_goals exact .inl rfl

/-- A single value that is set and does not count as a failure is kept. -/
theorem kept_of_value {val : GrpcMessage × ℕ} {status : Option GrpcStatus}
    {step : Option GrpcStatus × Bool} (hadd : Addresses pf db.dataTree val.1.path l dt)
    (h : ValueFate pf kc attr draws db val status step) (hok : step.2 = false) :
    Kept pf attr (draws val.2).1 val.1 l dt (treesAfter pf kc attr draws db val) ∧
      prune isRuntime db.dataTree =
        prune isRuntime (treesAfter pf kc attr draws db val).dataTree ∧
      ∀ m, IsNodeLoc m → m ≠ l → SameSignal m attr db (treesAfter pf kc attr draws db val) := by
  obtain ⟨node, v, hat, hd, hv⟩ := hadd.datatype
  have hr : Resolves pf.jsonPath db.dataTree (.fromVSS val.1.path) l node := ⟨hadd.unique, hat⟩
  have hdatatype {datatype : String} (hreach : Reaches pf kc attr db val.1.path datatype) :
      datatype = dt := by
    obtain ⟨l', node', v', hr', hd', rfl⟩ := hreach.node
    obtain ⟨rfl, rfl⟩ := hr.eq hr'
    rw [← hv, Option.some.inj (hd.symm.trans hd')]
  cases h with
  | thrown => simp at hok
  | refused => simp at hok
  | text hun hst =>
    obtain ⟨datatype, hreach, hno⟩ := hun
    exact absurd (supported_of_scalar (hdatatype hreach ▸ hadd.scalar)) hno
  | stored hadm hst =>
    obtain ⟨datatype, -, -, -, hreach, -⟩ := hadm
    obtain ⟨datatype', l', node', stored, db', hdt, hstores, hcall⟩ := hst
    obtain rfl : datatype' = datatype := Except.ok.inj (hdt.symm.trans hreach.1)
    obtain rfl := hdatatype hreach
    obtain ⟨rfl, rfl⟩ := hr.eq hstores.resolves
    have hafter : treesAfter pf kc attr draws db val = db' := by
      simp only [treesAfter, hdt, hcall]
    have hset : IsSettable node := by
      obtain ⟨l', node', hr', hset⟩ := pathIsWritable_eq_true_iff.mp hreach.2.2.1
      obtain ⟨rfl, rfl⟩ := hr.eq hr'
      exact hset
    have hatt := hreach.2.2.2
    rw [hr.pathIsAttributable, Except.ok.injEq, decide_eq_true_eq] at hatt
    have ha : attr = "value" ∨ attr = "targetValue" := hatt.symm.imp id And.left
    rw [hafter]
    refine ⟨⟨db, db', node, v, stored, hstores, hd, hv, hset, hatt, .refl _⟩,
      metadata_of_stores hstores hadd.isNodeLoc ha, fun m hm hne => ?_⟩
    exact sameSignal_of_stores hstores hadd.isNodeLoc ha hm ha fun h => hne h.1.symm

/-- Values for different nodes, none of which counts as a failure, are all kept; no other signal
changes. -/
theorem kept_of_values (ha : attr ∈ ["value", "targetValue"]) (vals : List (GrpcMessage × ℕ))
    (targets : List (Loc × String)) (eff eff' : SetEffect) (status status' : Option GrpcStatus)
    (hadd : List.Forall₂ (fun val t => Addresses pf eff.db.dataTree val.1.path t.1 t.2) vals
      targets)
    (hnodup : (targets.map Prod.fst).Nodup)
    (h : setValues pf draws attr kc vals eff status false = (.ok (status', false), eff')) :
    List.Forall₂ (fun val t => Kept pf attr (draws val.2).1 val.1 t.1 t.2 eff'.db) vals targets ∧
      prune isRuntime eff.db.dataTree = prune isRuntime eff'.db.dataTree ∧
      ∀ m, IsNodeLoc m → m ∉ targets.map Prod.fst → SameSignal m attr eff.db eff'.db := by
  induction vals generalizing targets eff status with
  | nil =>
    obtain rfl := List.forall₂_nil_left_iff.mp hadd
    obtain rfl : eff = eff' := congrArg Prod.snd h
    exact ⟨.nil, rfl, fun m _ _ => .refl _⟩
  | cons val vals ih =>
    obtain ⟨⟨l, dt⟩, targets, hl, hrest, rfl⟩ := List.forall₂_cons_left_iff.mp hadd
    rw [List.map_cons, List.nodup_cons] at hnodup
    obtain ⟨eff₁, step, hdb, hfate, heq⟩ := setValues_cons pf kc draws ha val vals eff status false
    rw [heq] at h
    -- A failure is never taken back, so there was none.
    have hok : step.2 = false := by
      obtain ⟨_, failed, _, heq', hfailed, -⟩ := setValues_taken pf kc draws ha vals eff₁ step.1
        (false || step.2)
      obtain rfl : failed = false := by
        rw [h] at heq'
        exact (Prod.mk.inj (Except.ok.inj (Prod.mk.inj heq').1)).2.symm
      by_contra hno
      simp [hno] at hfailed
    obtain ⟨hkept, hmeta, hsame⟩ := kept_of_value hl hfate hok
    rw [← hdb] at hkept hmeta hsame
    rw [hok] at h
    obtain ⟨hall, hmeta', hsame'⟩ := ih targets eff₁ step.1
      (hrest.imp fun _ _ hadd' => hadd'.congr hmeta) hnodup.2 h
    refine ⟨.cons (hkept.sameSignal (hsame' l hl.isNodeLoc hnodup.1)) hall, hmeta.trans hmeta', ?_⟩
    intro m hm hno
    rw [List.map_cons, List.mem_cons, not_or] at hno
    exact (hsame m hm hno.1).trans (hsame' m hm hno.2)

end Sets

section Gets
variable {pf : Platform} {kc : KuksaChannel} {type : RequestType} {db : VssDatabase}
  {val : GrpcMessage} {dt : String} {l : Loc} {ck : Clock}

/-- The leaf that a message is about, as it is enumerated for its path. -/
def leafOf (val : GrpcMessage) (l : Loc) : VSSPath :=
  .fromJSON l.toPath (VSSPath.fromVSS val.path).isGen1Origin

theorem datatypeFor_resolves {path : String} {node v : Json}
    (hr : Resolves pf.jsonPath db.dataTree (.fromVSS path) l node) (hs : IsSignal node)
    (hd : node.get? "datatype" = some v) : datatypeFor pf db path = v.asString := by
  have hre : pathIsReadable pf.jsonPath db (.fromVSS path) = .ok true :=
    pathIsReadable_eq_true_iff.mpr ⟨l, node, hr, hs⟩
  have hget : db.getDatatypeForPath pf.jsonPath (.fromVSS path) = .ok v.asString := by
    simp [getDatatypeForPath, hr.pathExists, hre, VSSPath.getJSONPath, hr.query, elementAt, hd,
      bind, Except.bind, pure, Except.pure]
  simp only [datatypeFor, hget]

/-- What is kept can be read, by a channel that may, and fits into a message. -/
theorem Kept.readable (hnm : KeepsFloats pf.numerics)
    (hk : Kept pf (type.attribute.getD "value") ck val l dt db)
    (hadd : Addresses pf db.dataTree val.path l dt)
    (hread : AccessChecker.checkReadAccess pf.regex kc (leafOf val l) = .ok true) :
    ∃ stored time field, Readable pf kc (type.attribute.getD "value") db val.path [leafOf val l] ∧
      Holds pf (type.attribute.getD "value") db (leafOf val l) stored time ∧
      valueOf pf.numerics (datatypeFor pf db val.path) stored = .ok field ∧
      ComesBack pf.numerics dt val.val field := by
  generalize type.attribute.getD "value" = attr at *
  obtain ⟨before, after, node, v, stored, hst, hd, rfl, hset, hatt, hsame⟩ := hk
  have ha : attr = "value" ∨ attr = "targetValue" := hatt.symm.imp id And.left
  have hmeta := (metadata_of_stores hst hadd.isNodeLoc ha).trans hsame.metadata
  obtain ⟨node', hr', hnode⟩ := (nodeQuery_fromVSS hadd.plain).resolves hmeta hst.resolves
  have htype : node'.get? "type" = node.get? "type" :=
    (get?_of_pruneNode hnode (by decide) (by decide)).symm
  have hd' : node'.get? "datatype" = some v :=
    (get?_of_pruneNode hnode (by decide) (by decide)).symm.trans hd
  have hsignal : IsSignal node' := .inl (by simpa only [IsSettable, htype] using hset)
  obtain ⟨dp, hdp, hshown⟩ := getSignal_sameSignal hst ha hsame hr'.located ck
    (VSSPath.fromVSS val.path).isGen1Origin false
  obtain ⟨value, time, hholds, rfl⟩ := getSignal_eq_ok_iff.mp hdp
  obtain rfl : value = stored := by
    have hts : attr ≠ "ts_s" ∧ attr ≠ "ts_ns" := by rcases ha with rfl | rfl <;> decide
    simpa [shownValue, signalOf, get?_ofMembers, Members.get?_cons, hts.1, hts.2] using hshown
  obtain ⟨field, hfield, hback⟩ := valueOf_setting hnm hd hadd.scalar hst.sanitized
  refine ⟨value, time, field, ?_, hholds, ?_, hback⟩
  · refine ⟨getLeafPaths_leaf hr' hsignal, by simp, ?_, ?_, ?_⟩
    · simpa using hread
    · rw [hr'.pathIsAttributable, htype, decide_eq_true hatt]
    · intro leaf hleaf
      obtain rfl := List.mem_singleton.mp hleaf
      exact ⟨value, time, hholds⟩
  · rwa [datatypeFor_resolves hr' hsignal hd']

/-- A message that shows what was set: the path of the leaf, and the value that comes back. -/
def Returns (pf : Platform) (val : GrpcMessage) (t : Loc × String) (message : GrpcMessage) : Prop :=
  message.path = (leafOf val t.1).toString ∧
    ∃ field, message.val = some field ∧ ComesBack pf.numerics t.2 val.val field

/-- One turn of the loop over the paths of a get. -/
theorem Kept.getPath (hnm : KeepsFloats pf.numerics) (hkc : GrpcChannel kc)
    (htype : type ≠ .metadata) (hk : Kept pf (type.attribute.getD "value") ck val l dt db)
    (hadd : Addresses pf db.dataTree val.path l dt)
    (hread : AccessChecker.checkReadAccess pf.regex kc (leafOf val l) = .ok true) (ck' : Clock)
    (uuid : SubscriptionId) (reply : GetResponse) :
    ∃ message, Returns pf val (l, dt) message ∧
      RequestServiceImpl.getPath pf db type
        (processGet pf ck' db kc (getJson pf type uuid val.path)) val.path reply =
          .ok ({ reply with values := reply.values ++ [message] }, false) := by
  have ha : type.attribute.getD "value" ∈ ["value", "targetValue"] := by
    cases type <;> simp [RequestType.attribute]
  obtain ⟨stored, time, field, hreadable, hholds, hfield, hback⟩ := hk.readable hnm hadd hread
  rcases processGet_fate pf hkc htype ck' db uuid val.path with
    ⟨leaves, dps, hreadable', hf, he⟩ | ⟨hno, -⟩
  · obtain rfl := hreadable'.eq hreadable
    obtain ⟨dp, rest, hdp, hnil, rfl⟩ := List.forall₂_cons_left_iff.mp hf
    obtain rfl := List.forall₂_nil_left_iff.mp hnil
    obtain ⟨stored', time', hholds', rfl⟩ := getSignal_eq_ok_iff.mp hdp
    obtain ⟨rfl, rfl⟩ := hholds.eq hholds'
    rcases fillMessage_signal pf.numerics ck' (datatypeFor pf db val.path) (pf.printUuid uuid) ha
      (leafOf val l) stored time with ⟨e, herr, -⟩ | ⟨field', timestamp, hfield', hfill⟩
    · cases herr.symm.trans hfield
    · obtain rfl := Except.ok.inj (hfield'.symm.trans hfield)
      refine ⟨⟨(leafOf val l).toString, some field', some timestamp⟩, ⟨rfl, field', rfl, hback⟩, ?_⟩
      rw [he, getPath_getAnswer htype, getPath.fill, dataOf, hfill]
  · exact absurd hreadable (hno _)

/-- The loop over the paths of a get fills a message for each. -/
theorem getPaths_kept (hnm : KeepsFloats pf.numerics) (hkc : GrpcChannel kc)
    (htype : type ≠ .metadata) (draws : ℕ → Clock × SubscriptionId)
    (items : List (GrpcMessage × Loc × String)) (start : ℕ) (reply : GetResponse)
    (hkept : ∀ i ∈ items, ∃ ck, Kept pf (type.attribute.getD "value") ck i.1 i.2.1 i.2.2 db)
    (hadd : ∀ i ∈ items, Addresses pf db.dataTree i.1.path i.2.1 i.2.2)
    (hread : ∀ i ∈ items, AccessChecker.checkReadAccess pf.regex kc (leafOf i.1 i.2.1) = .ok true) :
    ∃ messages calls, getPaths pf db draws type (fun ck reqJson =>
        (.processGet kc reqJson, processGet pf ck db kc reqJson))
          ((items.map fun i => i.1.path).zipIdx start) reply false =
        (.ok ({ reply with values := reply.values ++ messages }, false), calls) ∧
      List.Forall₂ (fun i message => Returns pf i.1 i.2 message) items messages := by
  induction items generalizing start reply with
  | nil => exact ⟨[], [], by simp [getPaths], .nil⟩
  | cons i items ih =>
    rw [List.forall_mem_cons] at hkept hadd hread
    obtain ⟨ck, hk⟩ := hkept.1
    obtain ⟨message, hmessage, hpath⟩ := hk.getPath hnm hkc htype hadd.1 hread.1 (draws start).1
      (draws start).2 reply
    obtain ⟨messages, calls, he, hf⟩ := ih (start + 1)
      { reply with values := reply.values ++ [message] } hkept.2 hadd.2 hread.2
    refine ⟨message :: messages,
      .processGet kc (getJson pf type (draws start).2 i.1.path) :: calls, ?_, .cons hmessage hf⟩
    simp only [List.map_cons, List.zipIdx_cons, getPaths, hpath, Bool.false_or, he,
      List.append_assoc, List.singleton_append]

end Gets

section RoundTrip
variable {pf : Platform} {kc : KuksaChannel} {attr : String} {draws : ℕ → Clock × SubscriptionId}
  {db : VssDatabase}

/-- A failure of a value by itself leaves another status than that of success. -/
theorem failure_ne_ok {vals : List GrpcMessage} {status : Option GrpcStatus} {eff eff' : SetEffect}
    (ha : attr ∈ ["value", "targetValue"]) (hlen : ¬ 1 < vals.length)
    (h : setValues pf draws attr kc vals.zipIdx eff none false = (.ok (status, true), eff')) :
    codeOf status ≠ 200 := by
  match vals with
  | [] => simp [setValues] at h
  | [val] =>
    obtain ⟨eff₁, step, -, hfate, heq⟩ := setValues_cons pf kc draws ha (val, 0) [] eff none false
    obtain rfl : step = (status, true) := by
      have hstep : setValues pf draws attr kc [(val, 0)] eff none false =
          (.ok (status, true), eff') := h
      rw [heq] at hstep
      simpa [setValues, Prod.ext_iff] using (Prod.mk.inj hstep).1
    cases hfate with
    | thrown => decide
    | refused hcode =>
      rw [codeOf_some]
      omega
  | _ :: _ :: _ => simp at hlen

/-- A set that is answered with success has gone through all its values without a failure. -/
theorem set_succeeded {svc svc' : RequestServiceImpl} {context : ServerContext}
    {type : RequestType} {vals : List GrpcMessage} {reply : SetResponse} {eff : SetEffect}
    (htype : type ≠ .metadata)
    (h : set pf db svc draws context ⟨type, vals⟩ = ((.ok reply, eff), svc'))
    (hok : codeOf reply.status = 200) :
    ∃ kc status, setValues pf draws (type.attribute.getD "value") kc vals.zipIdx { db := db } none
      false = (.ok (status, false), eff) := by
  have ha : type.attribute.getD "value" ∈ ["value", "targetValue"] := by
    cases type <;> simp [RequestType.attribute]
  unfold set at h
  cases hkc : authChecker pf svc context with
  | mk found svc₁ =>
    cases found with
    | none =>
      simp only [hkc, Prod.mk.injEq, Except.ok.injEq] at h
      obtain ⟨⟨rfl, -⟩, -⟩ := h
      exact absurd hok (by decide)
    | some kc =>
      simp only [hkc, if_neg htype] at h
      obtain ⟨status, failed, eff₁, heq, -⟩ := setValues_taken pf kc draws ha vals.zipIdx
        { db := db } none false
      simp only [heq] at h
      cases failed with
      | false =>
        simp only [Bool.false_and, Bool.false_eq_true, if_false, Prod.mk.injEq] at h
        obtain ⟨⟨-, rfl⟩, -⟩ := h
        exact ⟨kc, status, heq⟩
      | true =>
        by_cases hlen : 1 < vals.length
        · simp only [Bool.true_and, decide_eq_true hlen, if_true, Prod.mk.injEq,
            Except.ok.injEq] at h
          obtain ⟨⟨rfl, -⟩, -⟩ := h
          exact absurd hok (by simp [codeOf])
        · simp only [Bool.true_and, hlen, decide_false, Bool.false_eq_true, if_false, if_true,
            Prod.mk.injEq, Except.ok.injEq] at h
          obtain ⟨⟨rfl, -⟩, -⟩ := h
          exact absurd hok (failure_ne_ok ha hlen heq)

theorem forall₂_zipIdx {α β : Type*} {R : α → β → Prop} {as : List α} {bs : List β} :
    List.Forall₂ (fun a b => R a.1 b) as.zipIdx bs ↔ List.Forall₂ R as bs := by
  conv_rhs => rw [← List.zipIdx_map_fst 0 as, List.forall₂_map_left_iff]

/-- After a set over the service of values for different leaves that is answered with success, and
any requests of clients that do not set these leaves with success, a get of the same paths by a
client that may read them is answered with success, and with a message for each, in order: the path
of its leaf, and the value as it comes back. -/
theorem get_set (pf : Platform) (db : VssDatabase) (svc svc' : RequestServiceImpl)
    (draws : ℕ → Clock × SubscriptionId) (context : ServerContext) (type : RequestType)
    (items : List (GrpcMessage × Loc × String)) (reply : SetResponse) (eff : SetEffect)
    (hnm : KeepsFloats pf.numerics) (htype : type ≠ .metadata) (hne : items ≠ [])
    (hadd : ∀ i ∈ items, Addresses pf db.dataTree i.1.path i.2.1 i.2.2)
    (hnodup : (items.map fun i => i.2.1).Nodup)
    (hset : set pf db svc draws context ⟨type, items.map Prod.fst⟩ = ((.ok reply, eff), svc'))
    (hok : codeOf reply.status = 200)
    (sv : Server) (hdb : sv.database = eff.db) (as : List ChannelRequest)
    (has : ∀ i ∈ items, Answering.Throughout (fun sv a =>
      ObservedServer.Ordinary pf a.channel a.request ∧
        ¬ SetsAt pf sv a i.2.1 (type.attribute.getD "value")) (handle pf) sv as)
    (reader reader' : RequestServiceImpl) (draws' : ℕ → Clock × SubscriptionId)
    (context' : ServerContext) (kc : KuksaChannel) (hreader : reader.Sound)
    (hkc : authChecker pf reader context' = (some kc, reader'))
    (hread : ∀ i ∈ items, AccessChecker.checkReadAccess pf.regex kc (leafOf i.1 i.2.1) = .ok true) :
    ∃ messages calls, get pf (Answering.run (handle pf) sv as).2.database reader draws' context'
        ⟨type, items.map fun i => i.1.path⟩ =
          ((.ok ⟨messages, some ⟨200, "Get request successfully processed"⟩⟩, calls), reader') ∧
      List.Forall₂ (fun i message => Returns pf i.1 i.2 message) items messages := by
  have ha : type.attribute.getD "value" ∈ ["value", "targetValue"] := by
    cases type <;> simp [RequestType.attribute]
  have ha' : type.attribute.getD "value" = "value" ∨
      type.attribute.getD "value" = "targetValue" := by simpa using ha
  have hgrpc : GrpcChannel kc := (hreader.authChecker pf context').2 kc (by rw [hkc])
  obtain ⟨setter, status, hvals⟩ := set_succeeded htype hset hok
  have hadd₂ : List.Forall₂ (fun val t => Addresses pf db.dataTree val.path t.1 t.2)
      (items.map Prod.fst) (items.map Prod.snd) := by
    rw [List.forall₂_map_left_iff, List.forall₂_map_right_iff, List.forall₂_same]
    exact hadd
  obtain ⟨hkept, hmeta, -⟩ := kept_of_values ha (items.map Prod.fst).zipIdx (items.map Prod.snd)
    { db := db } eff none status (forall₂_zipIdx.mpr hadd₂)
    (by rw [List.map_map]; exact hnodup) hvals
  have hrun : ∀ i ∈ items, SameSignal i.2.1 (type.attribute.getD "value") eff.db
      (Answering.run (handle pf) sv as).2.database := by
    intro i hi
    rw [← hdb]
    exact run_sameSignal (hadd i hi).isNodeLoc ha' as (has i hi)
  -- The set keeps every value, and the run after it every signal.
  have hset' : ∀ i ∈ items, ∃ ck, Kept pf (type.attribute.getD "value") ck i.1 i.2.1 i.2.2
      eff.db := by
    have hsome : List.Forall₂ (fun (val : GrpcMessage) (t : Loc × String) =>
        ∃ ck, Kept pf (type.attribute.getD "value") ck val t.1 t.2 eff.db)
        (items.map Prod.fst) (items.map Prod.snd) :=
      forall₂_zipIdx.mp (hkept.imp fun _ _ hk => ⟨_, hk⟩)
    rwa [List.forall₂_map_left_iff, List.forall₂_map_right_iff, List.forall₂_same] at hsome
  obtain ⟨messages, calls, hloop, hf⟩ := getPaths_kept hnm hgrpc htype draws' items 0 {}
    (fun i hi => (hset' i hi).imp fun _ hk => hk.sameSignal (hrun i hi))
    (fun i hi => (hadd i hi).congr (hmeta.trans (hrun i hi).metadata)) hread
  refine ⟨messages, calls, ?_, hf⟩
  have hpaths : (items.map fun i => i.1.path) ≠ [] := by simpa using hne
  simp only [get, hkc, if_neg htype, getAll, if_neg hpaths, hloop]
  simp

section Car
open ObservedServer

def carDriver : KuksaChannel :=
  { permissions := [("Vehicle.Range", .str "rw"), ("Vehicle.Speed", .str "rw")]
    typeOfConnection := .grpc }

def carService : RequestServiceImpl := { grpcSessionMap := fun _ => some carDriver }

theorem carService_sound : carService.Sound := by
  constructor
  · rintro session kc hk
    obtain rfl := Option.some.inj hk
    exact Or.inl rfl
  · simp [carService]
  · simp [carService]

def carContext : ServerContext := ⟨5, "car:1", some "1"⟩

def carDraws (i : ℕ) : Clock × SubscriptionId := (midnight, i)

/-- A range of 300 does not fit into its 8 bits. -/
def carItems : List (GrpcMessage × Loc × String) :=
  [({ path := "Vehicle.Range", val := some (.uint32 300) }, nodeLoc ["Vehicle", "Range"], "uint8"),
    ({ path := "Vehicle.Speed", val := some (.uint32 7) }, nodeLoc ["Vehicle", "Speed"], "uint8")]

def carSet : (Except Exn SetResponse × SetEffect) × RequestServiceImpl :=
  set (.basic carRequest) ⟨carTree, carTree⟩ carService carDraws carContext
    ⟨.currentValue, carItems.map Prod.fst⟩

def carAfter : Server := ⟨carSet.1.2.db, ⟨[], []⟩, ⟨"key"⟩⟩

/-- Both signals are set, another client reads one of them, and both are read. -/
theorem get_set_car : ∃ messages calls,
    get (.basic carRequest) (Answering.run (handle (.basic carRequest)) carAfter
      [⟨rangeReader, ⟨midnight, 0, "read"⟩⟩]).2.database carService carDraws carContext
        ⟨.currentValue, ["Vehicle.Range", "Vehicle.Speed"]⟩ =
      ((.ok ⟨messages, some ⟨200, "Get request successfully processed"⟩⟩, calls), carService) ∧
    messages.map GrpcMessage.val = [some (.uint32 44), some (.uint32 7)] := by
  have hrun : carSet.1.1 = .ok ⟨some ⟨200, "Set request successfully processed."⟩⟩ := by
    decide +kernel
  have hnot (sv : Server) (l : Loc) : ¬ SetsAt (.basic carRequest) sv
      ⟨rangeReader, ⟨midnight, 0, "read"⟩⟩ l "value" := by
    rintro ⟨request, path, id, hp, hact, -⟩
    obtain rfl := Except.ok.inj hp
    exact absurd (Except.ok.inj hact) (by decide)
  have hnm : KeepsFloats (Platform.basic carRequest).numerics :=
    ⟨fun _ => rfl, fun _ _ _ => rfl, ⟨_, rfl⟩, ⟨_, rfl⟩⟩
  have hadd : ∀ i ∈ carItems, Addresses (.basic carRequest) carTree i.1.path i.2.1 i.2.2 := by
    have hspeed : JsonPath.selectors.matches? carTree (VSSPath.fromVSS "Vehicle.Speed").jsonpath =
        .ok [nodeLoc ["Vehicle", "Speed"]] := by
      rw [VSSPath.fromVSS_plain (by decide +kernel), JsonPath.matches?_renderPath]
      decide +kernel
    simp only [carItems, List.forall_mem_cons, List.not_mem_nil, false_implies, implies_true,
      and_true]
    exact ⟨⟨by decide +kernel, matches_range, ⟨_, _, rfl, rfl, rfl⟩, by decide⟩,
      by decide +kernel, hspeed, ⟨_, _, rfl, rfl, rfl⟩, by decide⟩
  have hread : ∀ i ∈ carItems, AccessChecker.checkReadAccess (Platform.basic carRequest).regex
      carDriver (leafOf i.1 i.2.1) = .ok true := by decide +kernel
  obtain ⟨messages, calls, hget, hf⟩ := get_set (.basic carRequest) ⟨carTree, carTree⟩ carService
    carService carDraws carContext .currentValue carItems
    ⟨some ⟨200, "Set request successfully processed."⟩⟩ carSet.1.2 hnm (by decide) (by decide) hadd
    (by decide) (Prod.ext (Prod.ext hrun rfl) rfl) rfl carAfter rfl
    [⟨rangeReader, ⟨midnight, 0, "read"⟩⟩]
    (fun i _ => ⟨⟨⟨rfl, fun _ => plain_carRequest⟩, hnot _ _⟩, trivial⟩) carService carService
    carDraws carContext carDriver carService_sound rfl hread
  refine ⟨messages, calls, hget, ?_⟩
  obtain ⟨range, rest, ⟨-, field, hfield, hback⟩, hrest, rfl⟩ := List.forall₂_cons_left_iff.mp hf
  obtain ⟨speed, rest, ⟨-, field', hfield', hback'⟩, hnil, rfl⟩ :=
    List.forall₂_cons_left_iff.mp hrest
  obtain rfl := List.forall₂_nil_left_iff.mp hnil
  have hrange : field = .uint32 44 :=
    carries_eq (hback.integer_field (t := ⟨8, false⟩) (by decide) rfl) (.uint32 (by decide))
  have hspeed : field' = .uint32 7 := by
    refine hback'.eq (.uint32 (by decide)) (fun t n ht hn => ?_) (by simp)
    obtain rfl : t = ⟨8, false⟩ := by simpa [integerTypes] using ht
    obtain rfl := Json.int.inj hn
    exact ⟨by decide, by decide⟩
  simp [hfield, hfield', hrange, hspeed]

end Car

end RoundTrip

end RequestServiceImpl
