import KuksaVal.VSSPath

/-! Whether the three spellings of a path agree, and what is lost by decoding a query. -/
namespace VSSPath
open Json Text

section Agreement

/-- The query of these segments. -/
def queryOf (segs : List String) : String :=
  String.ofList ('$' :: childrenText.intercalate (segs.map fun s => elementText s.toList))

/-- The three spellings are those of one list of segments. -/
def Agree (p : VSSPath) : Prop :=
  ∃ segs : List String, p.getVSSPath = joined '/' segs ∧ p.getVSSGen1Path = joined '.' segs ∧
    p.getJSONPath = queryOf segs

/-- Both separators occur. -/
def Mixed (input : String) : Prop := '.' ∈ input.toList ∧ '/' ∈ input.toList

instance (input : String) : Decidable (Mixed input) := inferInstanceAs (Decidable (_ ∧ _))

theorem replaceChar_not_mem {a b : Char} (h : a ≠ b) (cs : List Char) : a ∉ replaceChar a b cs := by
  intro hm
  obtain ⟨c, -, hc⟩ := List.mem_map.mp hm
  split_ifs at hc with ha
  · exact h hc.symm
  · exact ha hc

theorem replaceChar_back {a b : Char} {cs : List Char} (h : b ∉ cs) :
    replaceChar b a (replaceChar a b cs) = cs := by
  unfold replaceChar
  rw [List.map_map]
  conv_rhs => rw [← cs.map_id]
  apply List.map_congr_left
  intro c hc
  have hcb : c ≠ b := fun e => h (e ▸ hc)
  by_cases hca : c = a <;> simp [hca, hcb]

/-- The dotted spelling is the slash spelling with dots, unless the input mixes both. -/
theorem fromVSS_gen1_iff (input : String) :
    (fromVSS input).vssgen1path = gen2togen1 (fromVSS input).vsspath ↔ ¬ Mixed input := by
  unfold fromVSS Mixed
  split_ifs with hdot
  · simp only [hdot, true_and]
    constructor
    · intro h hslash
      rw [h, gen2togen1, String.toList_ofList] at hslash
      exact replaceChar_not_mem (by decide) _ hslash
    · intro hslash
      rw [← String.toList_inj]
      simp only [gen2togen1, gen1togen2, String.toList_ofList, replaceChar_back hslash]
  · simp [hdot]

theorem fromVSS_gen1_of_mixed {input : String} (h : Mixed input) :
    (fromVSS input).vssgen1path = input := by
  rw [fromVSS, if_pos h.1]

theorem slash_mem_gen1_iff (input : String) :
    '/' ∈ (fromVSS input).vssgen1path.toList ↔ Mixed input := by
  constructor
  · intro h
    by_contra hm
    rw [(fromVSS_gen1_iff input).mpr hm, gen2togen1, String.toList_ofList] at h
    exact replaceChar_not_mem (by decide) _ h
  · intro hm
    rw [fromVSS_gen1_of_mixed hm]
    exact hm.2

/-- Segments at the slashes of a text. -/
def segmentsOf (input : String) : List String := (input.toList.splitOn '/').map String.ofList

theorem segmentsOf_no_slash {input s : String} (h : s ∈ segmentsOf input) : '/' ∉ s.toList := by
  obtain ⟨e, he, rfl⟩ := List.mem_map.mp h
  rw [String.toList_ofList]
  exact not_mem_of_mem_splitOn he

theorem joined_segmentsOf (input : String) : joined '/' (segmentsOf input) = input := by
  rw [joined, segmentsOf, List.map_map]
  simp [Function.comp_def, List.intercalate_splitOn]

theorem gen2tojson_eq_queryOf (input : String) : gen2tojson input = queryOf (segmentsOf input) := by
  simp [gen2tojson, queryOf, segmentsOf, Function.comp_def]

/-- A slash in a segment stays visible in the query. -/
theorem slash_mem_queryOf_iff (segs : List String) :
    '/' ∈ (queryOf segs).toList ↔ ∃ s ∈ segs, '/' ∈ s.toList := by
  have helem (s : String) : '/' ∈ elementText s.toList ↔ '/' ∈ s.toList := by
    unfold elementText
    split_ifs with hs
    · simp [hs]
    · simp
  cases segs with
  | nil => simp [queryOf, List.intercalate]
  | cons n ns =>
    have hchildren : '/' ∉ childrenText := by decide
    simp only [queryOf, String.toList_ofList, List.map_cons, intercalate_cons, List.mem_cons,
      List.mem_append, List.mem_flatMap, List.mem_map, helem]
    constructor
    · rintro (h | h | ⟨_, ⟨s, hs, rfl⟩, h⟩)
      · simp at h
      · exact ⟨n, .inl rfl, h⟩
      · exact ⟨s, .inr hs, (helem s).mp (h.resolve_left hchildren)⟩
    · rintro ⟨s, rfl | hs, h⟩
      · exact .inr (.inl h)
      · exact .inr (.inr ⟨_, ⟨s, hs, rfl⟩, .inr ((helem s).mpr h)⟩)

/-- The spellings agree when the dotted one is the slash spelling with dots. -/
theorem agree_fromVSS_iff (input : String) :
    Agree (fromVSS input) ↔ (fromVSS input).vssgen1path = gen2togen1 (fromVSS input).vsspath := by
  constructor
  · rintro ⟨segs, hvss, hgen1, hjson⟩
    have hslash : ∀ s ∈ segs, '/' ∉ s.toList := by
      intro s hs hm
      have hmem := (slash_mem_queryOf_iff segs).mpr ⟨s, hs, hm⟩
      rw [← hjson, getJSONPath, fromVSS_jsonpath, gen2tojson_eq_queryOf,
        slash_mem_queryOf_iff] at hmem
      obtain ⟨t, ht, hmt⟩ := hmem
      exact segmentsOf_no_slash ht hmt
    rw [getVSSPath] at hvss
    rw [getVSSGen1Path] at hgen1
    rw [hvss, hgen1, gen2togen1_joined hslash]
  · intro h
    refine ⟨segmentsOf (fromVSS input).vsspath, (joined_segmentsOf _).symm, ?_, ?_⟩
    · rw [getVSSGen1Path, h, ← gen2togen1_joined fun _ => segmentsOf_no_slash, joined_segmentsOf]
    · rw [getJSONPath, fromVSS_jsonpath, gen2tojson_eq_queryOf]

theorem elementSelector_injective : Function.Injective elementSelector := by
  intro e f h
  unfold elementSelector at h
  split_ifs at h with he hf
  · rw [he, hf]
  · exact String.ofList_injective (Selector.name.inj h)

/-- Without quotes a query determines the slash spelling. -/
theorem gen2tojson_injOn {a b : String} (ha : Plain a) (hb : Plain b)
    (h : gen2tojson a = gen2tojson b) : a = b := by
  rw [gen2tojson_eq_renderPath ha, gen2tojson_eq_renderPath hb] at h
  have hsel : selectors a = selectors b := by
    have hp := congrArg JsonPath.parse h
    simpa using hp
  have hsplit := List.map_injective_iff.mpr elementSelector_injective
    (intersperse_injective _ hsel)
  have hjoin := congrArg (List.intercalate ['/']) hsplit
  rwa [List.intercalate_splitOn, List.intercalate_splitOn, String.toList_inj] at hjoin

/-- The spellings agree exactly where the input does not mix the separators, and only there a
query determines the dotted spelling. -/
theorem fromVSS_agree_iff (input : String) (h : Plain input) :
    (Agree (fromVSS input) ↔ ¬ Mixed input) ∧
      ∀ other, Plain other → (fromVSS input).getJSONPath = (fromVSS other).getJSONPath →
        ((fromVSS input).getVSSGen1Path = (fromVSS other).getVSSGen1Path ↔
          input = other ∨ ¬ Mixed input ∧ ¬ Mixed other) := by
  refine ⟨(agree_fromVSS_iff input).trans (fromVSS_gen1_iff input), ?_⟩
  intro other ho hjson
  have hvss : (fromVSS input).vsspath = (fromVSS other).vsspath := by
    rw [getJSONPath, getJSONPath, fromVSS_jsonpath, fromVSS_jsonpath, fromVSS_vsspath,
      fromVSS_vsspath] at hjson
    rw [fromVSS_vsspath, fromVSS_vsspath]
    exact gen2tojson_injOn h.gen1togen2 ho.gen1togen2 hjson
  unfold getVSSGen1Path
  constructor
  · intro hgen
    have hmixed : Mixed input ↔ Mixed other := by
      rw [← slash_mem_gen1_iff, ← slash_mem_gen1_iff, hgen]
    by_cases hm : Mixed input
    · rw [fromVSS_gen1_of_mixed hm, fromVSS_gen1_of_mixed (hmixed.mp hm)] at hgen
      exact .inl hgen
    · exact .inr ⟨hm, fun ho => hm (hmixed.mpr ho)⟩
  · rintro (rfl | ⟨hi, ho⟩)
    · rfl
    · rw [(fromVSS_gen1_iff input).mpr hi, (fromVSS_gen1_iff other).mpr ho, hvss]

theorem fromVSS_agree_dotted : Agree (fromVSS "Vehicle.OBD.Speed") :=
  (fromVSS_agree_iff "Vehicle.OBD.Speed" (by decide)).1.mpr (by decide)

/-- The same signal with two dotted spellings. -/
theorem fromVSS_agree_mixed :
    (fromVSS "Vehicle.OBD/Speed").getJSONPath = (fromVSS "Vehicle.OBD.Speed").getJSONPath ∧
      (fromVSS "Vehicle.OBD/Speed").getVSSGen1Path = "Vehicle.OBD/Speed" ∧
      ¬ Agree (fromVSS "Vehicle.OBD/Speed") := by
  refine ⟨by decide +kernel, by decide +kernel, ?_⟩
  rw [agree_fromVSS_iff, fromVSS_gen1_iff, not_not]
  decide

end Agreement

section Decoded

/-- Decoding the query of a path gives the path back. -/
def DecodesBack (segs : List String) (gen1 : Bool) : Prop :=
  (fromJSON (fromVSSGen2 (joined '/' segs)).getJSONPath gen1).getVSSPath = joined '/' segs ∧
    (fromJSON (fromVSSGen2 (joined '/' segs)).getJSONPath gen1).getVSSGen1Path = joined '.' segs

theorem dollar_not_mem_joined {segs : List String} (h : ∀ s ∈ segs, Segment s) :
    '$' ∉ (joined '/' segs).toList := by
  intro hm
  rcases mem_joined hm with hc | ⟨s, hs, hc⟩
  · exact absurd hc (by decide)
  · exact (h s hs).not_mem (by decide) (by decide) hc

theorem joined_injOn {segs segs' : List String} (hne : segs ≠ []) (hne' : segs' ≠ [])
    (h : ∀ s ∈ segs, Segment s) (h' : ∀ s ∈ segs', Segment s)
    (he : joined '/' segs = joined '/' segs') : segs = segs' := by
  have hs := congrArg (fun p : String => p.toList.splitOn '/') he
  simp only [splitOn_joined hne fun s hs => (h s hs).no_slash,
    splitOn_joined hne' fun s hs => (h' s hs).no_slash] at hs
  exact List.map_injective_iff.mpr (fun _ _ => String.toList_injective) hs

/-- Decoding undoes encoding exactly where no segment is the key of children. -/
theorem decodesBack_iff (segs : List String) (gen1 : Bool) (hne : segs ≠ [])
    (h : ∀ s ∈ segs, Segment s) : DecodesBack segs gen1 ↔ "children" ∉ segs := by
  have hvss : (fromJSON (fromVSSGen2 (joined '/' segs)).getJSONPath gen1).getVSSPath =
      if segs.filter (· ≠ "children") = [] then "$"
      else joined '/' (segs.filter (· ≠ "children")) := jsontogen2_gen2tojson hne h
  have hgen1 : (fromJSON (fromVSSGen2 (joined '/' segs)).getJSONPath gen1).getVSSGen1Path =
      gen2togen1 (fromJSON (fromVSSGen2 (joined '/' segs)).getJSONPath gen1).getVSSPath := rfl
  unfold DecodesBack
  rw [hgen1, hvss]
  constructor
  · rintro ⟨hback, -⟩ hmem
    split_ifs at hback with hk
    · exact dollar_not_mem_joined h (hback ▸ by decide)
    · have hkept : ∀ s ∈ segs.filter (· ≠ "children"), Segment s := fun s hs =>
        h s (List.mem_of_mem_filter hs)
      have hsame := joined_injOn hk hne hkept h hback
      have hall := List.filter_eq_self.mp hsame "children" hmem
      simp at hall
  · intro hmem
    have hsame : segs.filter (· ≠ "children") = segs := by
      rw [List.filter_eq_self]
      intro s hs
      simpa using fun e : s = "children" => hmem (e ▸ hs)
    rw [hsame, if_neg hne]
    exact ⟨rfl, gen2togen1_joined fun s hs => (h s hs).no_slash⟩

theorem decodesBack_wildcard : DecodesBack ["Vehicle", "*", "Speed"] true :=
  (decodesBack_iff ["Vehicle", "*", "Speed"] true (by decide) (by decide +kernel)).mpr (by decide)

end Decoded

end VSSPath
