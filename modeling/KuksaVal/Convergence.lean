import KuksaVal.NotificationPipeline
import KuksaVal.SanitizedValues
import KuksaVal.SignalRegister

/-! The client of a subscription is told in the end what the database says: the last data that are
due to it are those that a read of its leaf returns. -/
open Json VssDatabase

namespace Delivery
open VssCommandProcessor
open MetaDataUpdates (at?_key writtenKeys)

variable {jp : JsonPath} {rx : StdRegex} {nm : Numerics} {ck : Clock} {tree tree' : Json} {l : Loc}
  {attr : String} {data : Json} {st st' : Delivery}

/-- Numbers that `uint64_t` and `uint32_t` hold. -/
def Counts (seconds nanoseconds : ℤ) : Prop :=
  IntType.Range ⟨64, false⟩ seconds ∧ IntType.Range ⟨32, false⟩ nanoseconds

instance (seconds nanoseconds : ℤ) : Decidable (Counts seconds nanoseconds) :=
  inferInstanceAs (Decidable (_ ∧ _))

/-- Data that tell what a leaf has stored for an attribute, and when. -/
def Tells (tree : Json) (l : Loc) (attr : String) (data : Json) : Prop :=
  ∃ node value seconds nanoseconds, tree.at? l = some node ∧ Counts seconds nanoseconds ∧
    node.get? attr = some value ∧ node.get? ("ts_s-" ++ attr) = some (.int seconds) ∧
    node.get? ("ts_ns-" ++ attr) = some (.int nanoseconds) ∧
    data.get? "dp" = some (ofMembers [(attr, value), ("ts_s", .int seconds),
      ("ts_ns", .int nanoseconds)])

theorem Tells.congr (h : Tells tree l attr data)
    (hk : ∀ k ∈ writtenKeys attr, tree.at? (l ++ [.key k]) = tree'.at? (l ++ [.key k])) :
    Tells tree' l attr data := by
  obtain ⟨node, value, seconds, nanoseconds, hat, hcount, hv, hs, hns, hdp⟩ := h
  have hmember : ∀ k ∈ writtenKeys attr, ((tree'.at? l).bind fun node' => node'.get? k) =
      node.get? k := by
    intro k hmem
    have h := hk k hmem
    rw [at?_append, at?_append, hat, Option.bind_some, at?_key] at h
    simpa only [at?_key] using h.symm
  have hv' := hmember attr (by simp [writtenKeys])
  have hs' := hmember ("ts_s-" ++ attr) (by simp [writtenKeys])
  have hns' := hmember ("ts_ns-" ++ attr) (by simp [writtenKeys])
  rw [hv] at hv'
  obtain ⟨node', hat', hv'⟩ := Option.bind_eq_some_iff.mp hv'
  rw [hat', Option.bind_some] at hs' hns'
  exact ⟨node', value, seconds, nanoseconds, hat', hcount, hv', hs'.trans hs, hns'.trans hns, hdp⟩

/-- What a set publishes tells what it has stored. -/
theorem tells_of_stores {db db' : VssDatabase} {path : VSSPath} {value node stored : Json}
    (hst : Stores jp nm ck db db' path attr value l node stored)
    (ha : attr = "value" ∨ attr = "targetValue") (hck : Counts ck.seconds ck.nanoseconds) :
    Tells db'.dataTree l attr
      (publishedData path attr stored (storedNode ck node attr stored)) := by
  obtain ⟨hr, hd, -, rfl⟩ := hst
  have ho := isObject_of_contains hd
  have hk : attr ≠ "ts_s-" ++ attr ∧ attr ≠ "ts_ns-" ++ attr ∧
      "ts_s-" ++ attr ≠ "ts_ns-" ++ attr := by
    rcases ha with rfl | rfl <;> decide
  refine ⟨storedNode ck node attr stored, stored, ck.seconds, ck.nanoseconds,
    at?_setAt_self (by simp [hr.located]) _, hck, ?_, ?_, ?_, ?_⟩
  · simp [get?_storedNode ho, hk.1, hk.2.1]
  · simp [get?_storedNode ho, hk.2.2]
  · simp [get?_storedNode ho]
  · simp [publishedData, JsonResponses.get?_ofMembers, Members.get?_cons, get?_storedNode ho,
      hk.2.2]

/-- A read that is not shown as text returns what the leaf has stored. -/
theorem Tells.getSignal {db : VssDatabase} (h : Tells db.dataTree l attr data) (gen1 : Bool) :
    ∃ answer, db.getSignal jp nm ck (.fromJSON l.toPath gen1) attr false = .ok answer ∧
      answer.get? "dp" = data.get? "dp" := by
  obtain ⟨node, value, seconds, nanoseconds, hat, ⟨hsec, hnsec⟩, hv, hs, hns, hdp⟩ := h
  have hts : storedTimeStamp nm node attr = .ok (seconds, nanoseconds) := by
    simp [storedTimeStamp, hs, hns, asInteger, IntType.wrap_of_range (by decide) hsec,
      IntType.wrap_of_range (by decide) hnsec, Except.map]
  refine ⟨_, by simp [VssDatabase.getSignal, VSSPath.getJSONPath, jsonQuery_toPath hat, elementAt,
    datapointOf, hv, hts, Except.map]; rfl, ?_⟩
  simp [hdp, JsonResponses.get?_ofMembers, Members.get?_cons]

/-- The condition on a step for a subscription to a leaf: sets are of plain paths, and once it is
entered it is live, its attribute of the leaf is set under its path alone, and other changes of the
trees leave it. -/
def Follows (jp : JsonPath) (s : Subscription) (l : Loc) (st : Delivery) : DeliveryStep → Prop
  | .store _ ck path attr _ => Counts ck.seconds ck.nanoseconds ∧
      (attr = "value" ∨ attr = "targetValue") ∧ (∃ p, VSSPath.Plain p ∧ path = .fromVSS p) ∧
      (s ∈ st.entered → attr = s.attr → jp.matches? st.db.dataTree path.jsonpath = .ok [l] →
        path.getVSSPath = (VSSPath.fromVSS s.path).getVSSPath)
  | .publish _ => s ∈ st.entered → s ∈ st.subs.live
  | .update db => jp.matches? db.dataTree (VSSPath.fromVSS s.path).jsonpath = .ok [l] ∧
      ∀ k ∈ writtenKeys s.attr,
        st.db.dataTree.at? (l ++ [.key k]) = db.dataTree.at? (l ++ [.key k])
  | _ => True

/-- A publication that the subscription is for. -/
def Concerns (s : Subscription) (p : Publication) : Prop :=
  (⟨p.path.getVSSPath, p.attr⟩ : SubscriptionKey) = s.key

/-- The leaf is found under the path of the subscription. What is about to be published of it tells
what is stored, and when nothing is, the last data that are due do. -/
structure Followed (jp : JsonPath) (s : Subscription) (l : Loc) (st : Delivery) : Prop where
  found : jp.matches? st.db.dataTree (VSSPath.fromVSS s.path).jsonpath = .ok [l]
  pending : ∀ w, st.writer = some w → Concerns s w.publication →
    Tells st.db.dataTree l s.attr w.publication.data
  told : s ∈ st.entered → (∀ w, st.writer = some w → ¬ Concerns s w.publication) →
    ∀ d, (st.dueTo s).getLast? = some d → Tells st.db.dataTree l s.attr d

variable {s : Subscription}

/-- Nothing is due to a subscription that is not entered. -/
theorem Consistent.dueTo_eq_nil (h : st.Consistent) (hs : s ∉ st.entered) : st.dueTo s = [] := by
  unfold dueTo
  rw [List.map_eq_nil_iff, List.filter_eq_nil_iff]
  intro c hc hr
  simp only [reaches, Bool.and_eq_true, Option.any_eq_true, decide_eq_true_eq] at hr
  obtain ⟨-, live, hp, hlive⟩ := hr
  exact hs (h.recorded c hc live hp s hlive)

/-- A set that is not yet published is not due. -/
theorem dueTo_store (db : VssDatabase) (writer : Option PendingSet) (p : Publication) :
    dueTo { st with db := db, writer := writer, sets := st.sets ++ [⟨p, none⟩] } s =
      st.dueTo s := by
  simp [dueTo, reaches]

/-- A publication adds its data to what is due to a live subscription of its key. -/
theorem Consistent.dueTo_publish (h : st.Consistent) {w : PendingSet} (hw : st.writer = some w) :
    dueTo { st with
        subs := { st.subs with handler := st.subs.handler.publishForVSSPath w.publication },
        writer := none, sets := st.sets.set w.index ⟨w.publication, some st.subs.live⟩ } s =
      st.dueTo s ++ if reaches s ⟨w.publication, some st.subs.live⟩ then [w.publication.data]
        else [] := by
  obtain ⟨sets, hsets, hi⟩ := h.writer w hw
  have hpend : reaches s ⟨w.publication, none⟩ = false := by simp [reaches]
  have hset : st.sets.set w.index ⟨w.publication, some st.subs.live⟩ =
      sets ++ [⟨w.publication, some st.subs.live⟩] := by
    rw [hsets, hi]
    simp
  unfold dueTo
  rw [hset, hsets, List.filter_append, List.filter_append, List.filter_singleton,
    List.filter_singleton, hpend]
  cases reaches s ⟨w.publication, some st.subs.live⟩ <;> simp

theorem Followed.store (h : st.Followed jp s l) (hplain : VSSPath.Plain s.path)
    (ha : s.attr = "value" ∨ s.attr = "targetValue") {client : ℕ} {path : VSSPath} {attr : String}
    {value : Json} (hok : st.Follows jp s l (.store client ck path attr value))
    (hfree : st.writer = none) {answer : Except Exn Json} {db : VssDatabase} {p : Publication}
    {ps : List Publication}
    (hset : st.db.setSignal jp nm ck path attr value = (answer, db, p :: ps)) :
    Followed jp s l { st with
      db := db, writer := some ⟨client, st.sets.length, p⟩, sets := st.sets ++ [⟨p, none⟩] } := by
  obtain ⟨hck, hattr, ⟨q, hq, rfl⟩, hkey⟩ := hok
  obtain ⟨m, node, stored, hst, rfl⟩ : ∃ m node stored,
      Stores jp nm ck st.db db (.fromVSS q) attr value m node stored ∧
        p = publicationOf (.fromVSS q) attr stored (storedNode ck node attr stored) := by
    rcases setSignal_cases jp nm ck st.db (.fromVSS q) attr value with
      ⟨e, he⟩ | ⟨-, data, he⟩ | ⟨db', m, node, stored, hst, he⟩
    · simp [he] at hset
    · simp [he] at hset
    · rw [he] at hset
      obtain ⟨-, rfl, hp, -⟩ : _ ∧ db' = db ∧ _ = p ∧ _ := by simpa using hset
      exact ⟨m, node, stored, hst, hp.symm⟩
  have hm := (nodeQuery_fromVSS hq).isNodeLoc hst.resolves.unique (List.mem_singleton_self m)
  have hs := nodeQuery_fromVSS hplain
  have hl := hs.isNodeLoc h.found (List.mem_singleton_self l)
  have hmeta := metadata_of_stores hst hm hattr
  refine ⟨(hs.matches? jp hmeta).symm.trans h.found, ?_, ?_⟩
  · rintro w hw hconcerns
    obtain rfl := Option.some.inj hw
    obtain ⟨hpath, rfl⟩ : (VSSPath.fromVSS q).getVSSPath = (VSSPath.fromVSS s.path).getVSSPath ∧
        attr = s.attr := by
      simpa [Concerns, publicationOf, Subscription.key] using hconcerns
    have hjson : (VSSPath.fromVSS q).jsonpath = (VSSPath.fromVSS s.path).jsonpath := by
      rw [VSSPath.fromVSS_jsonpath, VSSPath.fromVSS_jsonpath]
      exact congrArg VSSPath.gen2tojson hpath
    obtain rfl : m = l := by simpa [hjson, h.found] using hst.resolves.unique.symm
    exact tells_of_stores hst ha hck
  · intro hin hno d hd
    rw [dueTo_store] at hd
    refine (h.told hin (by simp [hfree]) d hd).congr ?_
    refine (sameSignal_of_stores hst hm hattr hl ha ?_).values
    rintro ⟨rfl, rfl⟩
    refine hno _ rfl ?_
    simp [Concerns, publicationOf, Subscription.key, hkey hin rfl hst.resolves.unique]

theorem Followed.publish (h : st.Followed jp s l) (hc : st.Consistent) {w : PendingSet}
    (hw : st.writer = some w) (hlive : s ∈ st.entered → s ∈ st.subs.live) :
    Followed jp s l { st with
      subs := { st.subs with handler := st.subs.handler.publishForVSSPath w.publication },
      writer := none, sets := st.sets.set w.index ⟨w.publication, some st.subs.live⟩ } := by
  refine ⟨h.found, by simp, ?_⟩
  rintro hin - d hd
  rw [hc.dueTo_publish hw] at hd
  by_cases hconcerns : Concerns s w.publication
  · have hreach : reaches s ⟨w.publication, some st.subs.live⟩ = true := by
      have hkey : (⟨w.publication.path.getVSSPath, w.publication.attr⟩ : SubscriptionKey) =
        s.key := hconcerns
      simp [reaches, hkey, hlive hin]
    rw [if_pos hreach, List.getLast?_concat, Option.some.injEq] at hd
    exact hd ▸ h.pending w hw hconcerns
  · have hreach : reaches s ⟨w.publication, some st.subs.live⟩ = false := by
      have hkey : ¬ (⟨w.publication.path.getVSSPath, w.publication.attr⟩ : SubscriptionKey) =
        s.key := hconcerns
      simp [reaches, hkey]
    rw [hreach, if_neg Bool.false_ne_true, List.append_nil] at hd
    refine h.told hin ?_ d hd
    intro w' hw'
    obtain rfl := Option.some.inj (hw.symm.trans hw')
    exact hconcerns

/-- A subscription that is entered while its number is new is due nothing yet. -/
theorem Followed.subscribe (h : st.Followed jp s l) (hc : st.Consistent) {subs : Subscribers}
    {subId : SubscriptionId} {path attr : String}
    (hfresh : subId ∉ st.entered.map Subscription.id) :
    Followed jp s l { st with subs := subs, entered := ⟨subId, path, attr⟩ :: st.entered } := by
  refine ⟨h.found, h.pending, ?_⟩
  intro hin hno d hd
  rcases List.mem_cons.mp hin with rfl | hin
  · have hnew : (⟨subId, path, attr⟩ : Subscription) ∉ st.entered := fun hm =>
      hfresh (List.mem_map_of_mem hm)
    have hnone : dueTo { st with
        subs := subs, entered := ⟨subId, path, attr⟩ :: st.entered } ⟨subId, path, attr⟩ = [] :=
      hc.dueTo_eq_nil hnew
    simp [hnone] at hd
  · exact h.told hin hno d hd

theorem Followed.next (h : st.Followed jp s l) (hplain : VSSPath.Plain s.path)
    (ha : s.attr = "value" ∨ s.attr = "targetValue") (hc : st.Consistent) {step : DeliveryStep}
    (hok : st.Follows jp s l step) (hs : next jp rx nm st step = some st') :
    st'.Followed jp s l := by
  cases step with
  | store client ck path attr value =>
    simp only [Delivery.next, Delivery.store] at hs
    split at hs
    · simp at hs
    · rename_i hfree
      split at hs
      · rename_i answer db hset
        obtain rfl := Option.some.inj hs
        have hsame : db = st.db := by
          rcases setSignal_cases jp nm ck st.db path attr value with
            ⟨e, he⟩ | ⟨-, data, he⟩ | ⟨db', m, node, stored, -, he⟩ <;> simp_all
        subst hsame
        exact h
      · rename_i hset
        obtain rfl := Option.some.inj hs
        exact h.store hplain ha hok hfree hset
  | publish client =>
    simp only [Delivery.next, Delivery.publish] at hs
    split at hs
    · simp at hs
    · rename_i w hw
      split_ifs at hs
      obtain rfl := Option.some.inj hs
      exact h.publish hc hw hok
  | update db =>
    simp only [Delivery.next] at hs
    split_ifs at hs with hfree
    obtain rfl := Option.some.inj hs
    obtain ⟨hfound, hk⟩ := hok
    refine ⟨hfound, ?_, ?_⟩
    · intro w hw
      exact absurd (Option.isSome_of_mem hw) hfree
    · intro hin hno d hd
      exact (h.told hin hno d hd).congr hk
  | subscribe db subId channel path attr =>
    simp only [Delivery.next] at hs
    split_ifs at hs with hfresh
    obtain ⟨subs, -, rfl⟩ := Option.map_eq_some_iff.mp hs
    exact h.subscribe hc hfresh
  | unsubscribe subscribeID =>
    simp only [Delivery.next] at hs
    obtain ⟨subs, -, rfl⟩ := Option.map_eq_some_iff.mp hs
    exact ⟨h.found, h.pending, h.told⟩
  | unsubscribeAll channel =>
    simp only [Delivery.next] at hs
    obtain ⟨subs, -, rfl⟩ := Option.map_eq_some_iff.mp hs
    exact ⟨h.found, h.pending, h.told⟩
  | take =>
    simp only [Delivery.next] at hs
    split at hs
    · obtain ⟨subs, -, rfl⟩ := Option.map_eq_some_iff.mp hs
      exact ⟨h.found, h.pending, h.told⟩
    · simp at hs
  | send connectionexist =>
    simp only [Delivery.next, Delivery.send] at hs
    split at hs
    · simp at hs
    · split_ifs at hs
      · obtain rfl := Option.some.inj hs
        exact ⟨h.found, h.pending, h.told⟩
      · obtain rfl := Option.some.inj hs
        exact ⟨h.found, h.pending, h.told⟩
      · obtain ⟨subs, -, rfl⟩ := Option.map_eq_some_iff.mp hs
        exact ⟨h.found, h.pending, h.told⟩

end Delivery

namespace Pipeline
open Delivery VssCommandProcessor

variable {pf : Platform} {st st' : Pipeline}

/-- The client of a subscription to a leaf stays connected, and the steps of the server are such
that it can follow the leaf. -/
def Watches (jp : JsonPath) (s : Subscription) (l : Loc) (st : Pipeline) (step : PipelineStep) :
    Prop :=
  st.Keeps s.id step ∧ ∀ d, step = .server d → st.delivery.Follows jp s l d

theorem followed_next {s : Subscription} {l : Loc} (hplain : VSSPath.Plain s.path)
    (ha : s.attr = "value" ∨ s.attr = "targetValue") (hc : st.delivery.Consistent)
    (hf : st.delivery.Followed pf.jsonPath s l) {step : PipelineStep}
    (hok : st.Watches pf.jsonPath s l step) (hs : next pf st step = some st') :
    st'.delivery.Followed pf.jsonPath s l := by
  rcases delivery_next hs with he | ⟨d, hstep, hd⟩
  · rwa [he]
  · refine hf.next hplain ha hc ?_ hd
    rcases hstep with rfl | ⟨connectionexist, rfl⟩
    · exact hok.2 d rfl
    · trivial

theorem followed_of_reachable {db : VssDatabase} {s : Subscription} {l : Loc}
    (hplain : VSSPath.Plain s.path) (ha : s.attr = "value" ∨ s.attr = "targetValue")
    (hfound : pf.jsonPath.matches? db.dataTree (VSSPath.fromVSS s.path).jsonpath = .ok [l])
    (h : (system pf db).Reachable (Watches pf.jsonPath s l) st) :
    st.delivery.Followed pf.jsonPath s l := by
  have hinv : st.delivery.Consistent ∧ st.delivery.Followed pf.jsonPath s l := by
    refine h.invariant
      (I := fun st => st.delivery.Consistent ∧ st.delivery.Followed pf.jsonPath s l) ?_ ?_
    · rintro _ rfl
      exact ⟨consistent_start db, hfound, by simp, by simp⟩
    · rintro st step st' ⟨hc, hf⟩ hok hs
      exact ⟨consistent_next hc hs, followed_next hplain ha hc hf hok hs⟩
  exact hinv.2

/-- While no set is in progress, the last data of a subscription, whether they have arrived or are
on their way, are the datapoint that a read of its leaf returns; so a client that has got all its
data knows what the database says. -/
theorem last_data_eq_getSignal (pf : Platform) (db : VssDatabase) (s : Subscription) (l : Loc)
    (channel : KuksaChannel) (st : Pipeline) (hplain : VSSPath.Plain s.path)
    (ha : s.attr = "value" ∨ s.attr = "targetValue")
    (hfound : pf.jsonPath.matches? db.dataTree (VSSPath.fromVSS s.path).jsonpath = .ok [l])
    (h : (system pf db).Reachable (Watches pf.jsonPath s l) st)
    (hs : s ∈ st.delivery.entered) (ho : st.owner s.id = some channel)
    (hidle : st.delivery.writer = none) (data : Json)
    (hlast : (dataOf s.id (st.arrived channel.connectionID) ++
      (dataOf s.id (st.waiting channel.connectionID) ++
        (dataIn s.id st.delivery.inHand.toList ++
          dataIn s.id st.delivery.subs.handler.buffer))).getLast? = some data)
    (ck : Clock) (gen1 : Bool) :
    ∃ answer, st.delivery.db.getSignal pf.jsonPath pf.numerics ck (.fromJSON l.toPath gen1) s.attr
        false = .ok answer ∧ answer.get? "dp" = data.get? "dp" := by
  obtain ⟨-, hc, hk⟩ := sound_of_reachable (h.mono fun _ _ hok => hok.1)
  rw [hk.data_eq_dueTo hc hs ho] at hlast
  have hf := followed_of_reachable hplain ha hfound h
  exact (hf.told hs (by simp [hidle]) data hlast).getSignal gen1

section Speed

def watchesCheck (st : Pipeline) (step : PipelineStep) : Bool :=
  keepsCheck st step && match step with
    | .server (.store _ ck path attr _) => decide (Counts ck.seconds ck.nanoseconds ∧
        attr = "value" ∧ path = .fromVSS "Vehicle.OBD.Speed")
    | .server (.publish _) => decide (speedSubscription ∈ st.delivery.subs.live)
    | .server (.update _) => false
    | _ => true

theorem watches_of_check (st : Pipeline) (step : PipelineStep) (h : watchesCheck st step = true) :
    st.Watches .selectors speedSubscription (VSSPath.nodeLoc ["Vehicle", "OBD", "Speed"]) step := by
  obtain ⟨hkeeps, h⟩ := Bool.and_eq_true_iff.mp h
  refine ⟨keeps_of_check st step hkeeps, ?_⟩
  rintro d rfl
  cases d with
  | store client ck path attr value =>
    obtain ⟨hck, rfl, rfl⟩ := of_decide_eq_true h
    exact ⟨hck, .inl rfl, ⟨_, by decide +kernel, rfl⟩, fun _ _ _ => rfl⟩
  | publish client => exact fun _ => of_decide_eq_true h
  | update db => simp at h
  | _ => trivial

/-- The client has got nothing yet, but what waits for it tells the speed. -/
theorem last_data_eq_getSignal_speed : ∃ data answer,
    (dataOf 7 (speedPipeline.waiting 1)).getLast? = some data ∧
      speedPipeline.delivery.db.getSignal .selectors .decimal midnight
        (.fromJSON (VSSPath.nodeLoc ["Vehicle", "OBD", "Speed"]).toPath true) "value" false =
          .ok answer ∧ answer.get? "dp" = data.get? "dp" := by
  have hsome : (dataOf 7 (speedPipeline.waiting 1)).getLast?.isSome = true := by decide +kernel
  obtain ⟨data, hdata⟩ := Option.isSome_iff_exists.mp hsome
  have hfound : speedPlatform.jsonPath.matches? speedTree
      (VSSPath.fromVSS speedSubscription.path).jsonpath =
        .ok [VSSPath.nodeLoc ["Vehicle", "OBD", "Speed"]] := by
    rw [VSSPath.fromVSS_plain (by decide +kernel), JsonPath.matches?_renderPath]
    decide +kernel
  have hrest : dataOf 7 (speedPipeline.arrived 1) = [] ∧
      dataIn 7 speedPipeline.delivery.inHand.toList = [] ∧
        dataIn 7 speedPipeline.delivery.subs.handler.buffer = [] := by decide +kernel
  obtain ⟨answer, hanswer, hdp⟩ := last_data_eq_getSignal speedPlatform ⟨speedTree, speedTree⟩
    speedSubscription (VSSPath.nodeLoc ["Vehicle", "OBD", "Speed"])
    { speedReader with connectionID := 1 } speedPipeline (by decide +kernel) (.inl rfl) hfound
    (TransitionSystem.reachable_of_admits watches_of_check speedSteps (.init rfl)
      (by decide +kernel) exec_speedSteps) (by decide +kernel) (by decide +kernel) rfl data
    (by rw [speedSubscription, hrest.1, hrest.2.1, hrest.2.2]; simpa using hdata) midnight true
  exact ⟨data, answer, hdata, hanswer, hdp⟩

end Speed

end Pipeline
