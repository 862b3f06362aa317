import KuksaVal.SignalRegister
import KuksaVal.StreamedAttributes

/-! The values of the signals stay what their datatype, their bounds and their allowed values
admit, in every run of clients that may not change the trees. -/
namespace VssDatabase
open Json JsonResponses
open MetaDataUpdates (at?_key writtenKeys)
open VssCommandProcessor (sameSignal_of_stores)
open GrpcHandler (asInteger_range)

/-- The floating-point datatypes. -/
def floatTypes (nm : Numerics) : List (String × (Json → Except String Double)) :=
  [("float", nm.asFloat), ("double", nm.asDouble)]

/-- Not beyond the limit, when there is one. -/
def WithinLimit (as : Json → Except String Double) (limit : Option Json)
    (beyond : Double → Bool) : Prop :=
  ∀ j ∈ limit, ∃ d, as j = .ok d ∧ beyond d = false

/-- A value is what the metadata of its node admit. -/
structure Fits (nm : Numerics) (node v : Json) : Prop where
  integer : ∀ t min max, IntegerSignal node t min max →
    ∃ n, v = .int n ∧ t.Range n ∧ Between (min.map t.wrap) (max.map t.wrap) n
  floating : ∀ dt as, (dt, as) ∈ floatTypes nm → node.get? "datatype" = some (.str dt) →
    ∃ d, v = .double d ∧ (∀ b, d ≠ .infinity b) ∧
      WithinLimit as (node.get? "min") (fun m => nm.less d m) ∧
      WithinLimit as (node.get? "max") (fun m => nm.less m d)
  boolean : node.get? "datatype" = some (.str "boolean") → ∃ b, v = .bool b
  string : node.get? "datatype" = some (.str "string") → ∀ key ∈ ["allowed", "enum"],
    ∀ items, node.get? key = some (.arr items) → ∃ item ∈ items, v = .str item.asString
  array : ∀ dt t, numTypeOf nm dt = some t → node.get? "datatype" = some (.str (dt ++ "[]")) →
    ∃ vs, v = .arr vs ∧ ∀ e ∈ vs, Converts t e

variable {nm : Numerics} {node node' v w : Json}

section Sanitized

theorem checkBound_eq_ok {key bound : String} {t : NumType}
    {violates : t.Carrier → t.Carrier → Bool} {c : t.Carrier}
    (h : checkBound nm key bound t violates c node = .ok ()) :
    ∀ j ∈ node.get? key, ∃ l, t.as j = .ok l ∧ violates c l = false := by
  intro j hj
  unfold checkBound at h
  rw [Option.mem_def.mp hj] at h
  cases hl : t.as j with
  | error e => simp [hl] at h
  | ok l =>
    refine ⟨l, rfl, ?_⟩
    simp only [hl] at h
    cases hv : violates c l with
    | false => rfl
    | true =>
      rw [hv, if_pos rfl] at h
      exact (outOfBound_ne_ok _ _ _ _ h).elim

theorem floating_sanitized {dt : String} {as : Json → Except String Double}
    (hm : (dt, as) ∈ floatTypes nm) (hd : node.get? "datatype" = some (.str dt))
    (hs : checkAndSanitizeType nm node w = .ok v) :
    ∃ d, v = .double d ∧ (∀ b, d ≠ .infinity b) ∧
      WithinLimit as (node.get? "min") (fun m => nm.less d m) ∧
      WithinLimit as (node.get? "max") (fun m => nm.less m d) := by
  have ht : numTypeOf nm dt = some (.floating nm as) := by
    simp only [floatTypes, List.mem_cons, Prod.mk.injEq, List.not_mem_nil, or_false] at hm
    rcases hm with ⟨rfl, rfl⟩ | ⟨rfl, rfl⟩ <;> rfl
  rw [checkAndSanitizeType_number hd ht, checkNumTypes_eq_ok_iff] at hs
  obtain ⟨d, -, hfin, hmin, hmax, rfl⟩ := hs
  have hlimit {j : Json} {l : Double} (hl : (NumType.floating nm as).as j = .ok l) :
      as j = .ok l := by
    cases ha : as j with
    | error e => simp [NumType.floating, ha, Except.mapError] at hl
    | ok l' => simpa [NumType.floating, ha, Except.mapError] using hl
  refine ⟨d, rfl, ?_, ?_, ?_⟩
  · rintro b rfl
    exact absurd hfin (by simp [NumType.floating])
  · intro j hj
    obtain ⟨l, hl, hle⟩ := checkBound_eq_ok hmin j hj
    exact ⟨l, hlimit hl, hle⟩
  · intro j hj
    obtain ⟨l, hl, hle⟩ := checkBound_eq_ok hmax j hj
    exact ⟨l, hlimit hl, hle⟩

theorem checkEnumMember_eq_ok {key : String} {items : List Json}
    (hk : node.get? key = some (.arr items)) (h : checkEnumMember node key v = .ok ()) :
    ∃ item ∈ items, v = .str item.asString := by
  simp only [checkEnumMember, hk, checkEnumType, arrayRange] at h
  split_ifs at h with ha
  obtain ⟨item, hm, hv⟩ := List.any_eq_true.mp ha
  exact ⟨item, hm, (of_decide_eq_true hv).symm⟩

theorem string_sanitized (hd : node.get? "datatype" = some (.str "string"))
    (hs : checkAndSanitizeType nm node w = .ok v) :
    checkEnumMember node "allowed" v = .ok () ∧ checkEnumMember node "enum" v = .ok () := by
  have hn : numTypeOf nm "string" = none := numTypeOf_eq_none_iff.mpr (by decide)
  have hdispatch : checkStringType node w = .ok v := by
    cases w <;>
    · unfold checkAndSanitizeType at hs
      simpa [dispatchType, member_of_get? hd, hn] using hs
  unfold checkStringType at hdispatch
  cases ha : checkEnumMember node "allowed" w with
  | error e => simp [ha] at hdispatch
  | ok _ =>
    cases he : checkEnumMember node "enum" w with
    | error e => simp [ha, he] at hdispatch
    | ok _ =>
      simp only [ha, he] at hdispatch
      obtain rfl := Except.ok.inj hdispatch
      exact ⟨ha, he⟩

theorem array_sanitized {dt : String} {t : NumType} (ht : numTypeOf nm dt = some t)
    (hd : node.get? "datatype" = some (.str (dt ++ "[]")))
    (hs : checkAndSanitizeType nm node w = .ok v) :
    ∃ vs, v = .arr vs ∧ ∀ e ∈ vs, Converts t e := by
  have hdt : Representable (dt ++ "[]") := by
    have hall : ∀ name ∈ ["uint8", "int8", "uint16", "int16", "uint32", "int32", "uint64", "int64",
        "float", "double"], Representable (name ++ "[]") := by decide
    refine hall dt (by_contra fun hno => ?_)
    rw [numTypeOf_eq_none_iff.mpr hno] at ht
    exact absurd ht (by simp)
  cases w with
  | arr vs =>
    obtain ⟨hall, rfl⟩ := (array_eq_ok_iff hdt hd).mp hs
    refine ⟨vs, rfl, ?_⟩
    intro e he
    obtain ⟨w, hw⟩ := hall e he
    obtain ⟨c, hc, hi, -⟩ := (datatypeOnly_number ht).mp hw
    exact ⟨c, hc, hi⟩
  | _ =>
    have hboolean : dt ++ "[]" ≠ "boolean" := arrayOf_ne (by decide)
    have hstring : dt ++ "[]" ≠ "string" := arrayOf_ne (by decide)
    unfold checkAndSanitizeType at hs
    simp [dispatchType, member_of_get? hd, numTypeOf_arrayOf, hboolean, hstring,
      isArrayType_arrayOf hdt] at hs

/-- What the sanitizer leaves of a value is what the metadata admit. -/
theorem fits_of_sanitized (hs : checkAndSanitizeType nm node w = .ok v) : Fits nm node v where
  integer t min max h := by
    obtain ⟨c, hc, hb, rfl⟩ := h.accepted_iff.mp hs
    obtain ⟨dt, hm, -⟩ := h.datatype
    exact ⟨c, rfl, asInteger_range hm hc, hb⟩
  floating dt as hm hd := floating_sanitized hm hd hs
  boolean hd := by
    rw [checkAndSanitizeType_boolean hd rfl] at hs
    exact checkBoolType_eq_ok hs
  string hd key hk items hi := by
    obtain ⟨ha, he⟩ := string_sanitized hd hs
    simp only [List.mem_cons, List.not_mem_nil, or_false] at hk
    rcases hk with rfl | rfl
    · exact checkEnumMember_eq_ok hi ha
    · exact checkEnumMember_eq_ok hi he
  array dt t ht hd := array_sanitized ht hd hs

end Sanitized

/-- Nodes with the same metadata admit the same values. -/
theorem Fits.congr (h : Fits nm node v)
    (he : pruneNode isRuntime node = pruneNode isRuntime node') : Fits nm node' v := by
  have hk (k : String) (hr : isRuntime k = false) (hc : k ≠ "children") :
      node'.get? k = node.get? k := (get?_of_pruneNode he hr hc).symm
  have hd := hk "datatype" (by decide) (by decide)
  have hmin := hk "min" (by decide) (by decide)
  have hmax := hk "max" (by decide) (by decide)
  refine ⟨?_, ?_, ?_, ?_, ?_⟩
  · intro t min max hs
    refine h.integer t min max ⟨?_, hmin ▸ hs.minimum, hmax ▸ hs.maximum⟩
    rw [← hd]
    exact hs.datatype
  · intro dt as hm hdt
    rw [hmin, hmax]
    exact h.floating dt as hm (hd ▸ hdt)
  · exact fun hdt => h.boolean (hd ▸ hdt)
  · intro hdt key hmem items hi
    have hkey : isRuntime key = false ∧ key ≠ "children" := by
      simp only [List.mem_cons, List.not_mem_nil, or_false] at hmem
      rcases hmem with rfl | rfl <;> decide
    exact h.string (hd ▸ hdt) key hmem items (hk key hkey.1 hkey.2 ▸ hi)
  · exact fun dt t ht hdt => h.array dt t ht (hd ▸ hdt)

/-- The values of all signals are what their metadata admit. -/
def WellTyped (nm : Numerics) (db : VssDatabase) : Prop :=
  ∀ l node attr v, IsNodeLoc l → db.dataTree.at? l = some node →
    (attr = "value" ∨ attr = "targetValue") → node.get? attr = some v → Fits nm node v

variable {jp : JsonPath} {ck : Clock} {db db' : VssDatabase} {path : VSSPath} {attr : String}
  {value stored : Json} {m : Loc}

/-- A set keeps the values what the metadata admit. -/
theorem WellTyped.stores (h : WellTyped nm db)
    (hst : Stores jp nm ck db db' path attr value m node stored) (hm : IsNodeLoc m)
    (ha : attr = "value" ∨ attr = "targetValue") : WellTyped nm db' := by
  intro l node' attr' v hl hn' ha' hv
  have hmeta : prune isRuntime db'.dataTree = prune isRuntime db.dataTree := by
    rw [hst.replaced]
    exact prune_setAt_eq children_not_runtime hm hst.resolves.located
      (pruneNode_storedNode (fun _ h => h) ck node ha stored)
  have hat := map_at?_of_prune children_not_runtime hl hmeta
  rw [hn', Option.map_some] at hat
  obtain ⟨node₀, hn₀, he⟩ := Option.map_eq_some_iff.mp hat.symm
  suffices hfit : Fits nm node₀ v from hfit.congr he
  by_cases hsame : m = l ∧ attr = attr'
  · -- The value is the one just stored.
    obtain ⟨rfl, rfl⟩ := hsame
    obtain rfl := Option.some.inj (hst.resolves.located.symm.trans hn₀)
    rw [hst.replaced, at?_setAt_self (by simp [hn₀])] at hn'
    obtain rfl := Option.some.inj hn'
    rw [get?_storedNode (isObject_of_contains hst.datatype),
      if_neg (prefix_append_ne (by decide) _), if_neg (prefix_append_ne (by decide) _),
      if_pos rfl] at hv
    obtain rfl := Option.some.inj hv
    exact fits_of_sanitized hst.sanitized
  · have hs := (sameSignal_of_stores hst hm ha hl ha' hsame).values attr' (by simp [writtenKeys])
    rw [at?_append, at?_append, hn', hn₀, Option.bind_some, Option.bind_some, at?_key,
      at?_key, hv] at hs
    exact h l node₀ attr' v hl hn₀ ha' hs

end VssDatabase

namespace VssCommandProcessor
open Json JsonResponses VssDatabase
open ObservedServer (Ordinary)

/-- An entry of the buffer tells a value of a signal that its metadata admit. -/
def TellsFitting (jp : JsonPath) (nm : Numerics) (db : VssDatabase) (n : Notification) : Prop :=
  ∃ path attr l node v, NodeQuery (VSSPath.jsonpath path) ∧
    n.data.get? "path" = some (.str path.toString) ∧ Resolves jp db.dataTree path l node ∧
    (attr = "value" ∨ attr = "targetValue") ∧ shownValue n.data attr = some v ∧ Fits nm node v

/-- The stored values are what the metadata admit, and so are the ones in new entries of the
buffer. -/
structure SignalsFit (pf : Platform) (old : List Notification) (sv : Server) : Prop where
  stored : WellTyped pf.numerics sv.database
  told : ∀ n ∈ sv.subHandler.buffer, n ∈ old ∨ TellsFitting pf.jsonPath pf.numerics sv.database n

variable {pf : Platform} {sv : Server} {old : List Notification}

theorem TellsFitting.congr {jp : JsonPath} {nm : Numerics} {db db' : VssDatabase}
    {n : Notification} (h : TellsFitting jp nm db n)
    (hmeta : prune isRuntime db.dataTree = prune isRuntime db'.dataTree) :
    TellsFitting jp nm db' n := by
  obtain ⟨path, attr, l, node, v, hp, hpath, hr, ha, hv, hf⟩ := h
  obtain ⟨node', hr', he⟩ := hp.resolves hmeta hr
  exact ⟨path, attr, l, node', v, hp, hpath, hr', ha, hv, hf.congr he⟩

theorem shownValue_publishedData (path : VSSPath) {attr : String}
    (ha : attr = "value" ∨ attr = "targetValue") (v resJson : Json) :
    shownValue (publishedData path attr v resJson) attr = some v := by
  rcases ha with rfl | rfl <;>
    simp [shownValue, publishedData, get?_ofMembers, Members.get?_cons]

/-- A request keeps the values what the metadata admit. -/
theorem SignalsFit.handle (h : SignalsFit pf old sv) {a : ChannelRequest}
    (ho : Ordinary pf a.channel a.request) : SignalsFit pf old (handle pf sv a).2 := by
  cases hp : pf.parse a.request.reqJson with
  | error e =>
    unfold VssCommandProcessor.handle
    rw [processQuery_not_parsed hp]
    exact h
  | ok request =>
    rw [handle_parsed hp]
    rcases dispatch_database pf a.request.clock sv request a.request.subId ho.modifyTree with
      ⟨hd, hb⟩ | ⟨-, -, hd, hb⟩
    · refine ⟨?_, ?_⟩
      · simpa only [hd] using h.stored
      · simpa only [hd, hb] using h.told
    · rcases processSet_cases pf a.request.clock sv.database a.channel request with
        ⟨-, he⟩ | ⟨path, requestId, value, db', l, node, stored, hpath, -, -, -, hst, -, ha, he⟩
      · rw [he] at hd hb
        refine ⟨?_, ?_⟩
        · simpa only [hd] using h.stored
        · simpa only [hd, hb, publishAll, List.foldl_nil] using h.told
      · rw [he] at hd hb
        have hq := nodeQuery_fromVSS (ho.plain request hp path hpath)
        have hl := hq.isNodeLoc hst.resolves.unique (List.mem_singleton_self l)
        have hattr := ha.symm.imp id And.left
        have hmeta : prune isRuntime sv.database.dataTree = prune isRuntime db'.dataTree := by
          rw [hst.replaced]
          exact (prune_setAt_eq children_not_runtime hl hst.resolves.located
            (pruneNode_storedNode (fun _ h => h) a.request.clock node hattr stored)).symm
        refine ⟨?_, ?_⟩
        · simpa only [hd] using h.stored.stores hst hl hattr
        · simp only [hd, hb]
          intro n hn
          rcases List.mem_append.mp hn with hn | hn
          · exact (h.told n hn).imp id fun ht => ht.congr hmeta
          · obtain ⟨sub, -, rfl⟩ := List.mem_map.mp hn
            obtain ⟨node', hr', hnode⟩ := hq.resolves hmeta hst.resolves
            have hdata : get? "path" (publicationOf (.fromVSS path) (attributeOf request) stored
                (storedNode a.request.clock node (attributeOf request) stored)).data =
                  some (.str (VSSPath.fromVSS path).toString) := by
              simp [publicationOf, publishedData, get?_ofMembers, Members.get?_cons]
            exact .inr ⟨.fromVSS path, _, l, node', stored, hq, hdata, hr', hattr,
              shownValue_publishedData _ hattr _ _,
              (fits_of_sanitized hst.sanitized).congr hnode⟩

theorem SignalsFit.run (as : List ChannelRequest)
    (has : ∀ a ∈ as, Ordinary pf a.channel a.request) (h : SignalsFit pf old sv) :
    SignalsFit pf old (Answering.run (VssCommandProcessor.handle pf) sv as).2 := by
  induction as generalizing sv with
  | nil => exact h
  | cons a as ih =>
    exact ih (fun b hb => has b (List.mem_cons_of_mem a hb)) (h.handle (has a List.mem_cons_self))

section Range
open ObservedServer

def signalLeaf : Json :=
  .obj [("datatype", .str "uint8"), ("type", .str "sensor"), ("value", .int 1)]

theorem at?_signals {l : Loc} {node : Json} (hl : IsNodeLoc l)
    (hn : (Json.obj [("Range", signalLeaf), ("Speed", signalLeaf)]).at? l = some node) :
    node = signalLeaf := by
  have hchild (s : Step) (c : Json) (hc : (Json.obj [("Range", signalLeaf),
      ("Speed", signalLeaf)]).child? s = some c) : c = signalLeaf := by
    cases s with
    | key k =>
      rw [child?_key] at hc
      simp only [get?, Members.get?_cons, Members.get?_nil] at hc
      split_ifs at hc <;> exact (Option.some.inj hc).symm
    | index i => simp [child?] at hc
  cases hl with
  | top s =>
    obtain ⟨c, hc, hat⟩ := Option.bind_eq_some_iff.mp (at?_cons .. ▸ hn)
    obtain rfl := Option.some.inj hat
    exact hchild s _ hc
  | down s h =>
    obtain ⟨c, hc, hat⟩ := Option.bind_eq_some_iff.mp (at?_cons .. ▸ hn)
    obtain rfl := hchild s c hc
    simp [at?_cons, child?_key, signalLeaf, get?, Members.get?_cons] at hat

theorem wellTyped_carStart : WellTyped .decimal carStart.server.database := by
  intro l node attr v hl hn ha hv
  have hleaf : node = signalLeaf → Fits .decimal node v := by
    rintro rfl
    rcases ha with rfl | rfl
    · obtain rfl := Option.some.inj hv
      exact fits_of_sanitized (w := .int 1) (by decide +kernel)
    · simp [signalLeaf, get?, Members.get?_cons] at hv
  have htop (s : Step) (c : Json) (hc : carTree.child? s = some c) :
      c = .obj [("type", .str "branch"),
        ("children", .obj [("Range", signalLeaf), ("Speed", signalLeaf)])] := by
    cases s with
    | key k =>
      rw [child?_key] at hc
      simp only [carTree, get?, Members.get?_cons, Members.get?_nil] at hc
      split_ifs at hc
      exact (Option.some.inj hc).symm
    | index i => simp [child?, carTree] at hc
  cases hl with
  | top s =>
    obtain ⟨c, hc, hat⟩ := Option.bind_eq_some_iff.mp (at?_cons .. ▸ hn)
    obtain rfl := Option.some.inj hat
    obtain rfl := htop s _ hc
    rcases ha with rfl | rfl <;> simp [get?, Members.get?_cons] at hv
  | @down s l h =>
    obtain ⟨c, hc, hat⟩ := Option.bind_eq_some_iff.mp (at?_cons .. ▸ hn)
    obtain rfl := htop s c hc
    exact hleaf (at?_signals h hat)

end Range

end VssCommandProcessor
