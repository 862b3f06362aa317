import KuksaVal.LeafOrder
import KuksaVal.MQTTPublisher
import KuksaVal.PathSpellings

/-! Which leaves a configured pattern publishes. The tree reads the pattern level by level, the
client reads it as a regular expression on the slash path. -/
namespace MQTTPublisher
open Json VSSPath VssDatabase AccessChecker StdRegex Wildcard

section Splits

/-- What a character of a pattern allows in a text without line breaks. -/
def allowsChar (k c : Char) : Bool := k = '*' ∨ k = '.' ∨ c = k

/-- A wildcard takes any text, a name takes itself. -/
def Takes (s : String) (t : List Char) : Prop := s = "*" ∨ t = s.toList

/-- A text is split by the segments of a pattern, with a character for each dot. The split is
stray if a dot takes another character than a slash, or a segment before the last one a text
with a slash. -/
inductive Split : List String → List Char → Bool → Prop
  | last {s : String} {t : List Char} (takes : Takes s t) : Split [s] t false
  | cons {s : String} {segs : List String} {t w : List Char} {c : Char} {stray : Bool}
      (takes : Takes s t) (rest : Split segs w stray) :
      Split (s :: segs) (t ++ c :: w) (decide (c ≠ '/' ∨ '/' ∈ t) || stray)

variable {s : String} {segs names : List String} {w : List Char}

theorem matchPattern_segment (hs : Segment s) :
    matchPattern '*' allowsChar s.toList w = true ↔ Takes s w := by
  rcases hs with rfl | hs
  · have hall : ∃ u v, w = u ++ v ∧ (∀ c ∈ u, allowsChar '*' c = true) ∧
        matchPattern '*' allowsChar [] v = true := ⟨w, [], by simp, by simp [allowsChar], rfl⟩
    exact iff_of_true (matchPattern_star_iff.mpr hall) (Or.inl rfl)
  · have hstar : s ≠ "*" := by
      rintro rfl
      exact absurd (hs.2 '*' (by decide)) (by decide)
    rw [matchPattern_letters_iff, Takes, or_iff_right hstar]
    intro k hk
    have hne (c : Char) (hc : isIdentChar c = false) : k ≠ c := by
      rintro rfl
      simp [hs.2 k hk] at hc
    refine ⟨hne '*' (by decide), fun c => ?_⟩
    simp [allowsChar, hne '*' (by decide), hne '.' (by decide)]

/-- A pattern matches a text exactly if it splits it. -/
theorem matchPattern_joined_iff (hne : segs ≠ []) (hs : ∀ s ∈ segs, Segment s) :
    matchPattern '*' allowsChar (joined '.' segs).toList w = true ↔
      ∃ stray, Split segs w stray := by
  induction segs generalizing w with
  | nil => exact absurd rfl hne
  | cons s segs ih =>
    rw [List.forall_mem_cons] at hs
    rw [toList_joined_cons, matchPattern_append]
    cases segs with
    | nil =>
      simp only [List.flatMap_nil, matchPattern_nil, List.isEmpty_iff, matchPattern_segment hs.1]
      constructor
      · rintro ⟨u, _, rfl, hu, rfl⟩
        rw [List.append_nil]
        exact ⟨false, .last hu⟩
      · rintro ⟨stray, h⟩
        cases h with
        | last takes => exact ⟨w, [], (List.append_nil w).symm, takes, rfl⟩
        | cons takes rest => cases rest
    | cons s' segs =>
      have htail : ((s' :: segs).flatMap fun m => '.' :: m.toList) =
          '.' :: (joined '.' (s' :: segs)).toList := by
        rw [toList_joined_cons]
        rfl
      simp only [htail, matchPattern_letter_iff (show '.' ≠ '*' by decide),
        matchPattern_segment hs.1, ih (List.cons_ne_nil s' segs) hs.2]
      constructor
      · rintro ⟨t, _, rfl, ht, c, v, rfl, -, stray, hv⟩
        exact ⟨_, .cons ht hv⟩
      · rintro ⟨stray, h⟩
        cases h with
        | cons takes rest => exact ⟨_, _, rfl, takes, _, _, rfl, by simp [allowsChar], _, rest⟩

end Splits

section Levels

/-- The segments match the names level by level; a wildcard at the end takes the levels below as
well. -/
def LevelByLevel (segs names : List String) : Prop :=
  ∃ above, above <+: names ∧ List.Forall₂ SegmentMatches segs above ∧
    (above = names ∨ segs.getLast? = some "*")

/-- The segments end with a name at a branch above the names. -/
def EndsAbove (segs names : List String) : Prop :=
  segs.getLast? ≠ some "*" ∧
    ∃ above, above <+: names ∧ above ≠ names ∧ List.Forall₂ SegmentMatches segs above

variable {s s' n n' : String} {segs names : List String} {w : List Char}

theorem takes_toList : Takes s n.toList ↔ SegmentMatches s n := by
  rw [Takes, SegmentMatches, String.toList_inj]
  exact or_congr_right eq_comm

theorem split_single {stray : Bool} : Split [s] w stray ↔ Takes s w ∧ stray = false := by
  constructor
  · intro h
    cases h with
    | last takes => exact ⟨takes, rfl⟩
    | cons takes rest => cases rest
  · rintro ⟨takes, rfl⟩
    exact .last takes

theorem split_cons {stray : Bool} : Split (s :: s' :: segs) w stray ↔
    ∃ t c v stray', w = t ++ c :: v ∧ Takes s t ∧ Split (s' :: segs) v stray' ∧
      stray = (decide (c ≠ '/' ∨ '/' ∈ t) || stray') := by
  constructor
  · intro h
    cases h with
    | cons takes rest => exact ⟨_, _, _, _, rfl, takes, rest, rfl⟩
  · rintro ⟨t, c, v, stray', rfl, takes, rest, rfl⟩
    exact .cons takes rest

/-- A split that is not stray goes from slash to slash. -/
theorem split_cons_false : Split (s :: s' :: segs) w false ↔
    ∃ t v, w = t ++ '/' :: v ∧ Takes s t ∧ '/' ∉ t ∧ Split (s' :: segs) v false := by
  rw [split_cons]
  constructor
  · rintro ⟨t, c, v, stray, rfl, takes, rest, hflag⟩
    obtain ⟨hhere, rfl⟩ := Bool.or_eq_false_iff.mp hflag.symm
    rw [decide_eq_false_iff_not, not_or, not_not] at hhere
    obtain ⟨rfl, ht⟩ := hhere
    exact ⟨t, v, rfl, takes, ht, rest⟩
  · rintro ⟨t, v, rfl, takes, ht, rest⟩
    exact ⟨t, '/', v, false, rfl, takes, rest, by simp [ht]⟩

theorem levelByLevel_single : LevelByLevel [s] (n :: names) ↔ s = "*" ∨ names = [] ∧ s = n := by
  constructor
  · rintro ⟨above, hpre, hf, hend⟩
    rw [List.forall₂_cons_left_iff] at hf
    obtain ⟨k, ks, hk, hks, rfl⟩ := hf
    obtain rfl := List.forall₂_nil_left_iff.mp hks
    rcases hend with he | he
    · obtain ⟨rfl, rfl⟩ := List.cons.inj he
      rcases hk with hk | rfl
      · exact Or.inl hk
      · exact Or.inr ⟨rfl, rfl⟩
    · exact Or.inl (by simpa using he)
  · rintro (rfl | ⟨rfl, rfl⟩)
    · exact ⟨[n], ⟨names, rfl⟩, .cons (Or.inl rfl) .nil, Or.inr rfl⟩
    · exact ⟨[s], List.prefix_rfl, .cons (Or.inr rfl) .nil, Or.inl rfl⟩

theorem levelByLevel_cons : LevelByLevel (s :: s' :: segs) (n :: names) ↔
    SegmentMatches s n ∧ LevelByLevel (s' :: segs) names := by
  constructor
  · rintro ⟨above, hpre, hf, hend⟩
    rw [List.forall₂_cons_left_iff] at hf
    obtain ⟨k, ks, hk, hks, rfl⟩ := hf
    obtain ⟨rfl, hbelow⟩ := List.cons_prefix_cons.mp hpre
    refine ⟨hk, ks, hbelow, hks, ?_⟩
    simpa [List.getLast?_cons_cons] using hend
  · rintro ⟨hk, above, hpre, hf, hend⟩
    refine ⟨n :: above, List.cons_prefix_cons.mpr ⟨rfl, hpre⟩, .cons hk hf, ?_⟩
    simpa [List.getLast?_cons_cons] using hend

theorem not_levelByLevel_nil : ¬ LevelByLevel (s :: segs) [] := by
  rintro ⟨above, hpre, hf, -⟩
  obtain rfl := List.prefix_nil.mp hpre
  cases hf

/-- A split that is not stray goes level by level. -/
theorem split_false_iff (hne : segs ≠ []) (hs : ∀ s ∈ segs, Segment s)
    (hn : ∀ m ∈ n :: names, '/' ∉ m.toList) :
    Split segs (joined '/' (n :: names)).toList false ↔ LevelByLevel segs (n :: names) := by
  induction segs generalizing n names with
  | nil => exact absurd rfl hne
  | cons s segs ih =>
    rw [List.forall_mem_cons] at hs
    have hn' := List.forall_mem_cons.mp hn
    rw [toList_joined_cons]
    cases segs with
    | nil =>
      rw [split_single, levelByLevel_single, Takes]
      simp only [and_true]
      refine or_congr_right ⟨fun h => ?_, ?_⟩
      · cases names with
        | nil =>
          rw [List.flatMap_nil, List.append_nil] at h
          exact ⟨rfl, (String.toList_inj.mp h).symm⟩
        | cons m names => exact absurd (h ▸ by simp) hs.1.no_slash
      · rintro ⟨rfl, rfl⟩
        exact List.append_nil _
    | cons s' segs =>
      rw [split_cons_false, levelByLevel_cons]
      cases names with
      | nil =>
        simp only [List.flatMap_nil, List.append_nil, not_levelByLevel_nil, and_false, iff_false]
        rintro ⟨t, v, he, -⟩
        exact hn'.1 (he ▸ by simp)
      | cons m names =>
        have htail : ((m :: names).flatMap fun m => '/' :: m.toList) =
            '/' :: (joined '/' (m :: names)).toList := by
          rw [toList_joined_cons]
          rfl
        rw [htail, ← takes_toList, ← ih (List.cons_ne_nil s' segs) hs.2 hn'.2]
        constructor
        · rintro ⟨t, v, he, ht, hslash, hv⟩
          have hsplit := congrArg (List.splitOn '/') he
          rw [List.splitOn_append_cons_self_of_not_mem hn'.1,
            List.splitOn_append_cons_self_of_not_mem hslash] at hsplit
          obtain rfl := (List.cons.inj hsplit).1
          obtain rfl := List.cons.inj (List.append_cancel_left he) |>.2
          exact ⟨ht, hv⟩
        · rintro ⟨ht, hv⟩
          exact ⟨_, _, rfl, ht, hn'.1, hv⟩

end Levels

section Topics

variable {segs names : List String} {key path : String}

/-- In a path of identifier characters and slashes each byte is a character. -/
theorem bytes_eq_map (h : ∀ c ∈ path.toList, isIdentChar c = true ∨ c = '/') :
    bytes path = path.toList.map Char.toUInt8 := by
  have hone : ∀ c ∈ path.toList, String.utf8EncodeChar c = [c.toUInt8] := by
    intro c hc
    apply String.utf8EncodeChar_eq_singleton
    have hlt : c.toNat < 123 := by
      rcases h c hc with hi | rfl
      · exact (identChar_range hi).2
      · decide
    have hle : c.val ≤ 127 := by
      rw [UInt32.le_iff_toNat_le]
      change c.toNat ≤ 127
      omega
    exact if_pos hle
  rw [bytes, ← List.flatMap_singleton' (path.toList.map _), List.flatMap_map]
  exact List.flatMap_congr hone

/-- There the key matches character by character. -/
theorem dotMatches_iff (h : ∀ c ∈ path.toList, isIdentChar c = true ∨ c = '/') :
    DotMatches key path ↔ matchPattern '*' allowsChar key.toList path.toList = true := by
  rw [DotMatches, bytes_eq_map h, matchPattern_map]
  intro k c hc
  have hrange : 46 < c.toNat ∧ c.toNat < 123 := by
    rcases h c hc with hi | rfl
    · have := identChar_range hi
      omega
    · decide
  have hnat : c.toUInt8.toNat = c.toNat := by
    rw [Char.toUInt8, UInt32.toNat_toUInt8]
    change c.toNat % 2 ^ 8 = c.toNat
    omega
  have hbreak : c.toUInt8 ∉ lineBreaks := by
    intro hmem
    simp only [lineBreaks, List.mem_cons, List.not_mem_nil, or_false] at hmem
    rcases hmem with he | he
    · rw [he] at hnat
      change 10 = c.toNat at hnat
      omega
    · rw [he] at hnat
      change 13 = c.toNat at hnat
      omega
  have hsame : c.toNat = k.toNat ↔ c = k := Char.toNat_inj
  unfold allowsByte allowsChar
  split_ifs with hk
  · simp [hbreak, ← or_assoc, hk]
  · simp [hnat, hsame, ← or_assoc, hk]

theorem prefix_iff : (∃ above, above <+: names ∧ List.Forall₂ SegmentMatches segs above) ↔
    LevelByLevel segs names ∨ EndsAbove segs names := by
  constructor
  · rintro ⟨above, hpre, hf⟩
    by_cases hend : above = names ∨ segs.getLast? = some "*"
    · exact Or.inl ⟨above, hpre, hf, hend⟩
    · rw [not_or] at hend
      exact Or.inr ⟨hend.2, above, hpre, hend.1, hf⟩
  · rintro (⟨above, hpre, hf, -⟩ | ⟨-, above, hpre, -, hf⟩)
    · exact ⟨above, hpre, hf⟩
    · exact ⟨above, hpre, hf⟩

theorem gen1togen2_pattern (hs : ∀ s ∈ segs, Segment s) :
    gen1togen2 (joined '.' segs) = joined '/' segs := by
  have hdot : ∀ l ∈ segs.map String.toList, '.' ∉ l := by
    intro l hl
    obtain ⟨s, hmem, rfl⟩ := List.mem_map.mp hl
    exact (hs s hmem).not_mem (by decide) (by decide)
  rw [gen1togen2, joined, String.toList_ofList, Text.replaceChar_intercalate hdot, joined]

theorem fromVSSGen1_query (hs : ∀ s ∈ segs, Segment s) :
    (fromVSSGen1 (joined '.' segs)).getJSONPath = gen2tojson (joined '/' segs) := by
  rw [← gen1togen2_pattern hs]
  rfl

theorem patternKey_joined (hs : ∀ s ∈ segs, Segment s) : PatternKey (joined '.' segs) := by
  intro c hc
  rcases mem_joined hc with rfl | ⟨s, hmem, hc⟩
  · exact Or.inr (Or.inl rfl)
  · rcases hs s hmem with rfl | hident
    · exact Or.inr (Or.inr (List.mem_singleton.mp hc))
    · exact Or.inl (hident.2 c hc)

end Topics

section Publishing

/-- A node of the tree that is no branch. -/
def IsLeaf (tree : Json) (names : List String) : Prop :=
  names ≠ [] ∧ ∃ node, tree.at? (nodeLoc names) = some node ∧
    node.get? "type" ≠ some (.str "branch")

/-- The leaf is one of those to which the configured path leads. -/
def Configured (jp : JsonPath) (db : VssDatabase) (path : String) (names : List String) : Prop :=
  ∃ paths, db.getLeafPaths jp (.fromVSSGen1 path) = .ok paths ∧
    canonicalGen2 names ∈ paths.map getVSSPath

variable {rx : StdRegex} {connect : ConnectAsync} {jp : JsonPath} {db : VssDatabase}
  {pub : MQTTPublisher} {segs names : List String} {value : Json}

theorem configured_iff (ht : VssTree db.dataTree) (ho : db.dataTree.ordered = true)
    (hne : segs ≠ []) (hs : ∀ s ∈ segs, Segment s) (hleaf : IsLeaf db.dataTree names) :
    Configured jp db (joined '.' segs) names ↔
      LevelByLevel segs names ∨ EndsAbove segs names := by
  obtain ⟨paths, leaves, hpaths, henum⟩ := getLeafPaths_exact jp db
    (.fromVSSGen1 (joined '.' segs)) segs hne hs (fromVSSGen1_query hs) ht ho
  have hmem : canonicalGen2 names ∈ paths.map getVSSPath ↔ names ∈ leaves := by
    rw [henum.names, List.mem_map]
    constructor
    · rintro ⟨names', hleaf', he⟩
      obtain ⟨hne', hnames', -⟩ := ((henum.exact names').mp hleaf').located hne ht
      obtain ⟨node, hat, -⟩ := hleaf.2
      rwa [← joined_injOn hne' hleaf.1 (fun n hn => (hnames' n hn).segment)
        (fun n hn => ((ht.located hleaf.1 hat).1 n hn).segment) he]
    · intro h
      exact ⟨names, h, rfl⟩
  rw [← prefix_iff]
  constructor
  · rintro ⟨paths', hpaths', h⟩
    obtain rfl : paths = paths' := Except.ok.inj (hpaths.symm.trans hpaths')
    exact ((henum.exact names).mp (hmem.mp h)).1
  · intro h
    exact ⟨paths, hpaths, hmem.mpr ((henum.exact names).mpr ⟨h, hleaf.2⟩)⟩

theorem publishes_pattern_iff (hrx : rx.Ecma) (hne : segs ≠ []) (hs : ∀ s ∈ segs, Segment s)
    (hnames : names ≠ []) (hn : ∀ n ∈ names, NodeName n) (hb : Reaches connect pub)
    (hpaths : pub.paths = [joined '.' segs]) :
    Publishes connect rx pub (canonicalGen2 names) value ↔
      LevelByLevel segs names ∨ Split segs (canonicalGen2 names).toList true := by
  obtain ⟨r, hr, hmatch⟩ := pathRegex_ecma hrx (patternKey_joined hs)
  have hregex : pathRegex rx (joined '.' segs) = .ok r := by simp only [pathRegex, hr]
  have hchars : ∀ c ∈ (canonicalGen2 names).toList, isIdentChar c = true ∨ c = '/' := by
    intro c hc
    rcases mem_joined hc with rfl | ⟨n, hmem, hc⟩
    · exact Or.inr rfl
    · exact Or.inl ((hn n hmem).1.2 c hc)
  rw [publishes_single_iff hb hpaths hregex, hmatch, dotMatches_iff hchars,
    matchPattern_joined_iff hne hs, Bool.exists_bool]
  obtain ⟨n, names, rfl⟩ := List.exists_cons_of_ne_nil hnames
  rw [canonicalGen2, split_false_iff hne hs fun m hm => (hn m hm).segment.no_slash]

/-- A pattern is accepted exactly if it leads to a leaf. -/
theorem checkPathValid_iff (ht : VssTree db.dataTree) (ho : db.dataTree.ordered = true)
    (hne : segs ≠ []) (hs : ∀ s ∈ segs, Segment s) :
    db.checkPathValid jp (.fromVSSGen1 (joined '.' segs)) = .ok true ↔
      ∃ names, LeafBelow db.dataTree segs names := by
  obtain ⟨paths, leaves, hpaths, henum⟩ := getLeafPaths_exact jp db
    (.fromVSSGen1 (joined '.' segs)) segs hne hs (fromVSSGen1_query hs) ht ho
  have hempty := henum.empty
  simp only [checkPathValid, hpaths, Except.map, Except.ok.injEq, Bool.not_eq_true',
    List.isEmpty_eq_false_iff]
  rw [ne_eq, hempty, not_not]

/-- For a pattern as the only configured path, with the broker in reach, a leaf is published if
and only if the pattern leads to it, exactly where the pattern matches the leaf level by level, or
where it ends at a branch above the leaf if and only if it splits the path in a stray way. -/
theorem publishes_iff_configured (rx : StdRegex) (connect : ConnectAsync) (jp : JsonPath)
    (db : VssDatabase) (pub : MQTTPublisher) (segs names : List String) (value : Json)
    (hrx : rx.Ecma) (ht : VssTree db.dataTree) (ho : db.dataTree.ordered = true)
    (hne : segs ≠ []) (hs : ∀ s ∈ segs, Segment s)
    (hvalid : db.checkPathValid jp (.fromVSSGen1 (joined '.' segs)) = .ok true)
    (hleaf : IsLeaf db.dataTree names) (hpaths : pub.paths = []) (hb : Reaches connect pub) :
    ∃ pub', configure jp db (joined '.' segs) pub = .ok pub' ∧
      ((Publishes connect rx pub' (canonicalGen2 names) value ↔
          Configured jp db (joined '.' segs) names) ↔
        LevelByLevel segs names ∨
          (EndsAbove segs names ↔ Split segs (canonicalGen2 names).toList true)) := by
  have hempty : joined '.' segs ≠ "" := by
    obtain ⟨s, segs, rfl⟩ := List.exists_cons_of_ne_nil hne
    have hseg : s.toList ≠ [] := by
      rcases hs s List.mem_cons_self with rfl | hident
      · decide
      · exact hident.1
    intro he
    have hlist := congrArg String.toList he
    rw [toList_joined_cons] at hlist
    exact hseg (List.append_eq_nil_iff.mp hlist).1
  obtain ⟨node, hat, -⟩ := hleaf.2
  have hn := (ht.located hleaf.1 hat).1
  refine ⟨_, configure_pattern (patternKey_joined hs) hempty hvalid pub, ?_⟩
  have hb' : Reaches connect (pub.addPublishPath (joined '.' segs)) := hb
  rw [publishes_pattern_iff hrx hne hs hleaf.1 hn hb' (by simp [addPublishPath, hpaths]),
    configured_iff ht ho hne hs hleaf]
  by_cases hlevel : LevelByLevel segs names
  · simp [hlevel]
  · simp only [hlevel, false_or]
    exact Iff.comm

section Doors

/-- A broker that accepts every connection. -/
def localBroker : ConnectAsync := fun _ _ _ _ => true

theorem localBroker_reached : Reaches localBroker {} := Or.inr ⟨0, by decide, rfl⟩

theorem door_isLeaf : IsLeaf doorTree ["Door", "Left"] :=
  ⟨by decide, .obj [("type", .str "sensor")], by decide +kernel, by decide⟩

theorem door_leafBelow {segs above : List String} (hpre : above <+: ["Door", "Left"])
    (hf : List.Forall₂ SegmentMatches segs above) : LeafBelow doorTree segs ["Door", "Left"] :=
  ⟨⟨above, hpre, hf⟩, door_isLeaf.2⟩

/-- With a wildcard below the door its side is published. -/
theorem publishes_iff_configured_side :
    ∃ pub', configure .selectors ⟨doorTree, doorTree⟩ (joined '.' ["Door", "*"]) {} = .ok pub' ∧
      (Publishes localBroker .ecmaScript pub' (canonicalGen2 ["Door", "Left"]) (.bool true) ↔
        Configured .selectors ⟨doorTree, doorTree⟩ (joined '.' ["Door", "*"])
          ["Door", "Left"]) := by
  have hf : List.Forall₂ SegmentMatches ["Door", "*"] ["Door", "Left"] :=
    .cons (Or.inr rfl) (.cons (Or.inl rfl) .nil)
  have hs : ∀ s ∈ ["Door", "*"], Segment s := by decide +kernel
  have hvalid : VssDatabase.checkPathValid .selectors ⟨doorTree, doorTree⟩
      (.fromVSSGen1 (joined '.' ["Door", "*"])) = .ok true :=
    (checkPathValid_iff doorTree_vssTree (by decide +kernel) (by decide) hs).mpr
      ⟨_, door_leafBelow List.prefix_rfl hf⟩
  obtain ⟨pub', hpub', h⟩ := publishes_iff_configured .ecmaScript localBroker .selectors
    ⟨doorTree, doorTree⟩ {} ["Door", "*"] ["Door", "Left"] (.bool true) ecmaScript_ecma
    doorTree_vssTree (by decide +kernel) (by decide) hs hvalid door_isLeaf rfl localBroker_reached
  exact ⟨pub', hpub', h.mpr (Or.inl ⟨_, List.prefix_rfl, hf, Or.inl rfl⟩)⟩

/-- The door itself is accepted as a path to publish, and its side is never published. -/
theorem not_publishes_iff_configured :
    ¬ ∀ (rx : StdRegex) (connect : ConnectAsync) (jp : JsonPath) (db : VssDatabase)
      (pub : MQTTPublisher) (segs names : List String) (value : Json), rx.Ecma →
      VssTree db.dataTree → db.dataTree.ordered = true → segs ≠ [] → (∀ s ∈ segs, Segment s) →
      db.checkPathValid jp (.fromVSSGen1 (joined '.' segs)) = .ok true →
      IsLeaf db.dataTree names → pub.paths = [] → Reaches connect pub →
      ∃ pub', configure jp db (joined '.' segs) pub = .ok pub' ∧
        (Publishes connect rx pub' (canonicalGen2 names) value ↔
          Configured jp db (joined '.' segs) names) := by
  intro h
  have hf : List.Forall₂ SegmentMatches ["Door"] ["Door"] := .cons (Or.inr rfl) .nil
  have hpre : ["Door"] <+: ["Door", "Left"] := ⟨["Left"], rfl⟩
  have hs : ∀ s ∈ ["Door"], Segment s := by decide +kernel
  have hvalid : VssDatabase.checkPathValid .selectors ⟨doorTree, doorTree⟩
      (.fromVSSGen1 (joined '.' ["Door"])) = .ok true :=
    (checkPathValid_iff doorTree_vssTree (by decide +kernel) (by decide) hs).mpr
      ⟨_, door_leafBelow hpre hf⟩
  obtain ⟨pub', hpub', hiff⟩ := h .ecmaScript localBroker .selectors ⟨doorTree, doorTree⟩ {}
    ["Door"] ["Door", "Left"] (.bool true) ecmaScript_ecma doorTree_vssTree (by decide +kernel)
    (by decide) hs hvalid door_isLeaf rfl localBroker_reached
  have hconf : Configured .selectors ⟨doorTree, doorTree⟩ (joined '.' ["Door"])
      ["Door", "Left"] :=
    (configured_iff doorTree_vssTree (by decide +kernel) (by decide) hs door_isLeaf).mpr
      (Or.inr ⟨by decide, ["Door"], hpre, by decide, hf⟩)
  have hpub : configure .selectors ⟨doorTree, doorTree⟩ (joined '.' ["Door"]) {} =
      .ok ({ paths := ["Door"] } : MQTTPublisher) :=
    configure_pattern (patternKey_joined hs) (by decide) hvalid {}
  obtain rfl : ({ paths := ["Door"] } : MQTTPublisher) = pub' :=
    Except.ok.inj (hpub.symm.trans hpub')
  exact hiff.mpr hconf (by decide +kernel)

end Doors

end Publishing

end MQTTPublisher
