import KuksaVal.Resolution

/-! What the sanitizer leaves of a value: integers against the range and the bounds of their
signal, and arrays against the elements that they hold. -/
namespace IntType

/-- The numbers of the type. -/
def Range (t : IntType) (n : ℤ) : Prop := t.lower ≤ n ∧ n ≤ t.upper

instance (t : IntType) (n : ℤ) : Decidable (t.Range n) :=
  inferInstanceAs (Decidable (_ ∧ _))

theorem upper_eq {t : IntType} (ht : 0 < t.bits) : t.upper = t.lower + 2 ^ t.bits - 1 := by
  obtain ⟨b, hb⟩ : ∃ b, t.bits = b + 1 := ⟨t.bits - 1, by omega⟩
  have hpow : (2 : ℤ) ^ (b + 1) = 2 ^ b + 2 ^ b := by rw [pow_succ]; omega
  unfold upper lower
  rw [hb]
  split_ifs
  · simp only [Nat.add_sub_cancel, hpow]
    omega
  · omega

/-- A conversion leaves the numbers of the type as they are. -/
theorem wrap_of_range {t : IntType} (ht : 0 < t.bits) {n : ℤ} (h : t.Range n) : t.wrap n = n := by
  obtain ⟨hl, hu⟩ := h
  rw [upper_eq ht] at hu
  unfold wrap
  rw [Int.emod_eq_of_lt (by omega) (by omega)]
  omega

/-- What a conversion gives is a number of the type. -/
theorem range_wrap {t : IntType} (ht : 0 < t.bits) (n : ℤ) : t.Range (t.wrap n) := by
  have hpos : (0 : ℤ) < 2 ^ t.bits := Int.pow_pos (by decide)
  have hl := Int.emod_nonneg (n - t.lower) hpos.ne'
  have hu := Int.emod_lt_of_pos (n - t.lower) hpos
  unfold Range wrap
  rw [upper_eq ht]
  constructor <;> omega

end IntType

namespace VssDatabase
open Json

/-- The integer datatypes. -/
def integerTypes : List (String × IntType) :=
  [("uint8", ⟨8, false⟩), ("int8", ⟨8, true⟩), ("uint16", ⟨16, false⟩), ("int16", ⟨16, true⟩),
   ("uint32", ⟨32, false⟩), ("int32", ⟨32, true⟩), ("uint64", ⟨64, false⟩),
   ("int64", ⟨64, true⟩)]

theorem integerTypes_bits {dt : String} {t : IntType} (h : (dt, t) ∈ integerTypes) :
    0 < t.bits := by
  have hall : ∀ m ∈ integerTypes, 0 < m.2.bits := by decide
  exact hall _ h

/-- Metadata of a signal of an integer datatype, with the bounds that it has. -/
structure IntegerSignal (node : Json) (t : IntType) (min max : Option ℤ) : Prop where
  datatype : ∃ dt, (dt, t) ∈ integerTypes ∧ node.get? "datatype" = some (.str dt)
  minimum : node.get? "min" = min.map .int
  maximum : node.get? "max" = max.map .int

/-- Not below the minimum and not above the maximum, as far as there are any. -/
def Between (min max : Option ℤ) (n : ℤ) : Prop := (∀ m ∈ min, m ≤ n) ∧ ∀ m ∈ max, n ≤ m

instance (min max : Option ℤ) (n : ℤ) : Decidable (Between min max n) :=
  inferInstanceAs (Decidable (_ ∧ _))

/-- An integer, or the numeral of one. -/
def Denotes (nm : Numerics) (v : Json) (n : ℤ) : Prop :=
  v = .int n ∨ ∃ s, v = .str s ∧ nm.numeral s = some n

variable {nm : Numerics} {node v w : Json} {t : IntType} {min max : Option ℤ} {n : ℤ}

section Conversion

theorem outOfBound_ne_ok (bound : String) (t : NumType) (cval : t.Carrier) (limit : Json) :
    outOfBound nm bound t cval limit ≠ .ok () := by
  unfold outOfBound
  split <;> simp

theorem checkNumTypes_eq_ok_iff {t : NumType} : checkNumTypes nm t node v = .ok w ↔
    ∃ c, t.as v = .ok c ∧ t.isInfinite c = false ∧ checkMin nm t c node = .ok () ∧
      checkMax nm t c node = .ok () ∧ w = t.toJson c := by
  unfold checkNumTypes
  cases ha : t.as v with
  | error e => simp
  | ok c =>
    cases hi : t.isInfinite c with
    | true => simp [hi]
    | false =>
      cases hmin : checkMin nm t c node with
      | error e => simp [hi, hmin]
      | ok _ =>
        cases hmax : checkMax nm t c node with
        | error e => simp [hi, hmin, hmax]
        | ok _ =>
          simp only [hi, Bool.false_eq_true, ↓reduceIte, hmin, hmax]
          constructor
          · intro h
            exact ⟨c, rfl, hi, hmin, hmax, (Except.ok.inj h).symm⟩
          · rintro ⟨d, hd, -, -, -, rfl⟩
            rw [Except.ok.inj hd]

theorem checkMin_integer_iff (hmin : node.get? "min" = min.map .int) (c : ℤ) :
    checkMin nm (.integer nm t) c node = .ok () ↔ ∀ m ∈ min, t.wrap m ≤ c := by
  unfold checkMin checkBound
  rw [hmin]
  cases min with
  | none => simp
  | some m =>
    by_cases hc : c < t.wrap m
    · simp [NumType.integer, asInteger, hc, outOfBound_ne_ok]
    · simp [NumType.integer, asInteger, not_lt.mp hc]

theorem checkMax_integer_iff (hmax : node.get? "max" = max.map .int) (c : ℤ) :
    checkMax nm (.integer nm t) c node = .ok () ↔ ∀ m ∈ max, c ≤ t.wrap m := by
  unfold checkMax checkBound
  rw [hmax]
  cases max with
  | none => simp
  | some m =>
    by_cases hc : t.wrap m < c
    · simp [NumType.integer, asInteger, hc, outOfBound_ne_ok]
    · simp [NumType.integer, asInteger, not_lt.mp hc]

/-- An integer is accepted between the converted bounds, and left converted. -/
theorem checkNumTypes_integer_iff (hmin : node.get? "min" = min.map .int)
    (hmax : node.get? "max" = max.map .int) :
    checkNumTypes nm (.integer nm t) node v = .ok w ↔
      ∃ c, asInteger nm t v = .ok c ∧ Between (min.map t.wrap) (max.map t.wrap) c ∧
        w = .int c := by
  rw [checkNumTypes_eq_ok_iff]
  show (∃ c : ℤ, asInteger nm t v = .ok c ∧ false = false ∧ _ ∧ _ ∧ w = .int c) ↔ _
  simp [checkMin_integer_iff hmin, checkMax_integer_iff hmax, Between, and_assoc]

theorem numTypes_names : (numTypes nm).map Prod.fst = ["uint8", "int8", "uint16", "int16",
    "uint32", "int32", "uint64", "int64", "float", "double"] := rfl

theorem numTypeOf_eq_none_iff {dt : String} : numTypeOf nm dt = none ↔
    dt ∉ ["uint8", "int8", "uint16", "int16", "uint32", "int32", "uint64", "int64", "float",
      "double"] := by
  rw [numTypeOf, Members.get?_eq_none_iff, numTypes_names]

/-- A datatype of numbers decides on every value, arrays included. -/
theorem checkAndSanitizeType_number {datatype : Json} {t : NumType}
    (hd : node.get? "datatype" = some datatype) (ht : numTypeOf nm datatype.asString = some t) :
    checkAndSanitizeType nm node v = checkNumTypes nm t node v := by
  have hdispatch (checkArray : String → Except Exn Json) :
      dispatchType nm checkArray node v = checkNumTypes nm t node v := by
    simp only [dispatchType, member_of_get? hd, ht]
  cases v <;>
  · unfold checkAndSanitizeType
    exact hdispatch _

/-- So does the datatype of booleans. -/
theorem checkAndSanitizeType_boolean {datatype : Json}
    (hd : node.get? "datatype" = some datatype) (hb : datatype.asString = "boolean") :
    checkAndSanitizeType nm node v = checkBoolType v := by
  have hn : numTypeOf nm "boolean" = none := numTypeOf_eq_none_iff.mpr (by decide)
  have hdispatch (checkArray : String → Except Exn Json) :
      dispatchType nm checkArray node v = checkBoolType v := by
    simp only [dispatchType, member_of_get? hd, hb, hn, ↓reduceIte]
  cases v <;>
  · unfold checkAndSanitizeType
    exact hdispatch _

theorem numTypeOf_integer {dt : String} (h : (dt, t) ∈ integerTypes) :
    numTypeOf nm dt = some (.integer nm t) := by
  apply Members.get?_of_mem
  · rw [numTypes_names]
    decide
  · simp only [integerTypes, List.mem_cons, Prod.mk.injEq, List.not_mem_nil, or_false] at h
    rcases h with ⟨rfl, rfl⟩ | ⟨rfl, rfl⟩ | ⟨rfl, rfl⟩ | ⟨rfl, rfl⟩ | ⟨rfl, rfl⟩ | ⟨rfl, rfl⟩ |
      ⟨rfl, rfl⟩ | ⟨rfl, rfl⟩ <;> simp [numTypes]

/-- What is accepted of a value, and what is left of it. -/
theorem IntegerSignal.accepted_iff (h : IntegerSignal node t min max) :
    checkAndSanitizeType nm node v = .ok w ↔
      ∃ c, asInteger nm t v = .ok c ∧ Between (min.map t.wrap) (max.map t.wrap) c ∧
        w = .int c := by
  obtain ⟨dt, hmem, hd⟩ := h.datatype
  rw [checkAndSanitizeType_number hd (numTypeOf_integer hmem)]
  exact checkNumTypes_integer_iff h.minimum h.maximum

end Conversion

section Storing
variable {jp : JsonPath} {ck : Clock} {db db' : VssDatabase} {path : VSSPath} {attr : String}
  {l : Loc} {data : Json} {pubs : List Publication}

theorem prefix_append_ne {p : String} (hp : 0 < p.length) (s : String) : s ≠ p ++ s := by
  intro h
  have hl := congrArg String.length h
  rw [String.length_append] at hl
  omega

/-- A set stores what the sanitizer leaves of the value. -/
theorem Resolves.stored (hr : Resolves jp db.dataTree path l node)
    (hs : setSignal jp nm ck db path attr v = (.ok data, db', pubs)) :
    ∃ w, checkAndSanitizeType nm node v = .ok w ∧
      (db'.dataTree.at? l).bind (get? attr) = some w := by
  rcases setSignal_cases jp nm ck db path attr v with
    ⟨e, he⟩ | ⟨hno, -⟩ | ⟨db'', l', node', w, hst, he⟩
  · simp [he] at hs
  · exact absurd ⟨l, node, hr⟩ hno
  · obtain ⟨rfl, rfl⟩ := hr.eq hst.resolves
    obtain rfl : db'' = db' := (Prod.mk.inj (Prod.mk.inj (he.symm.trans hs)).2).1
    refine ⟨w, hst.sanitized, ?_⟩
    have hat : (db.dataTree.at? l).isSome := Option.isSome_iff_exists.mpr ⟨node, hr.located⟩
    rw [hst.replaced, at?_setAt_self hat, Option.bind_some,
      get?_storedNode (isObject_of_contains hst.datatype),
      if_neg (prefix_append_ne (by decide) attr), if_neg (prefix_append_ne (by decide) attr),
      if_pos rfl]

/-- A set of a value that the sanitizer refuses stores nothing. -/
theorem Resolves.refused (hr : Resolves jp db.dataTree path l node)
    (hs : ∀ w, checkAndSanitizeType nm node v ≠ .ok w) :
    ∃ e, setSignal jp nm ck db path attr v = (.error e, db, []) := by
  rcases setSignal_cases jp nm ck db path attr v with
    he | ⟨hno, -⟩ | ⟨db', l', node', w, hst, -⟩
  · exact he
  · exact absurd ⟨l, node, hr⟩ hno
  · obtain ⟨rfl, rfl⟩ := hr.eq hst.resolves
    exact absurd hst.sanitized (hs w)

end Storing

section Integers

/-- The bounds after their conversion to the type. -/
def ConvertedBetween (t : IntType) (min max : Option ℤ) (n : ℤ) : Prop :=
  Between (min.map t.wrap) (max.map t.wrap) n

instance (t : IntType) (min max : Option ℤ) (n : ℤ) : Decidable (ConvertedBetween t min max n) :=
  inferInstanceAs (Decidable (Between _ _ _))

theorem asInteger_of_denotes (ht : 0 < t.bits) (hv : Denotes nm v n) (c : ℤ) :
    asInteger nm t v = .ok c ↔ t.Range n ∧ c = n ∨ ¬ t.Range n ∧ v = .int n ∧ c = t.wrap n := by
  rcases hv with rfl | ⟨s, rfl, hs⟩
  · by_cases hr : t.Range n
    · simp [asInteger, hr, IntType.wrap_of_range ht hr, eq_comm]
    · simp [asInteger, hr, eq_comm]
  · by_cases hr : t.Range n
    · have hrange : t.lower ≤ n ∧ n ≤ t.upper := hr
      simp [asInteger, hs, hrange, hr, eq_comm]
    · have hrange : ¬ (t.lower ≤ n ∧ n ≤ t.upper) := hr
      simp [asInteger, hs, hrange, hr]

/-- A number of the type is compared with the converted bounds; any other one is refused as
a numeral, and converted as an integer. -/
theorem IntegerSignal.accepted_of_denotes (h : IntegerSignal node t min max)
    (hv : Denotes nm v n) : checkAndSanitizeType nm node v = .ok w ↔
      t.Range n ∧ ConvertedBetween t min max n ∧ w = .int n ∨
        ¬ t.Range n ∧ v = .int n ∧ ConvertedBetween t min max (t.wrap n) ∧ w = .int (t.wrap n) := by
  obtain ⟨dt, hmem, -⟩ := h.datatype
  rw [h.accepted_iff]
  simp only [asInteger_of_denotes (integerTypes_bits hmem) hv, ConvertedBetween]
  constructor
  · rintro ⟨c, ⟨hr, rfl⟩ | ⟨hr, hvn, rfl⟩, hb, rfl⟩
    · exact .inl ⟨hr, hb, rfl⟩
    · exact .inr ⟨hr, hvn, hb, rfl⟩
  · rintro (⟨hr, hb, rfl⟩ | ⟨hr, hvn, hb, rfl⟩)
    · exact ⟨n, .inl ⟨hr, rfl⟩, hb, rfl⟩
    · exact ⟨t.wrap n, .inr ⟨hr, hvn, rfl⟩, hb, rfl⟩

/-- A value that denotes a number is accepted if the number is one of the type and between the
bounds, and the number is stored; it is refused otherwise, and nothing is stored. -/
structure KeepsNumber (nm : Numerics) (node v : Json) (t : IntType) (min max : Option ℤ) (n : ℤ) :
    Prop where
  accepted : (∃ w, checkAndSanitizeType nm node v = .ok w) ↔ t.Range n ∧ Between min max n
  denotes : ∀ w, checkAndSanitizeType nm node v = .ok w → Denotes nm w n
  stored : ∀ jp ck db db' path attr l data pubs, Resolves jp db.dataTree path l node →
    setSignal jp nm ck db path attr v = (.ok data, db', pubs) →
      ∃ w, Denotes nm w n ∧ (db'.dataTree.at? l).bind (get? attr) = some w
  refused : ¬ (t.Range n ∧ Between min max n) → ∀ jp ck db path attr l,
    Resolves jp db.dataTree path l node →
      ∃ e, setSignal jp nm ck db path attr v = (.error e, db, [])

/-- The converted bounds decide on a number of the type as the bounds do, and they refuse the
conversion of an integer that is none. -/
def DecidedAlike (v : Json) (t : IntType) (min max : Option ℤ) (n : ℤ) : Prop :=
  (t.Range n → (ConvertedBetween t min max n ↔ Between min max n)) ∧
    (¬ t.Range n → v = .int n → ¬ ConvertedBetween t min max (t.wrap n))

instance (v : Json) (t : IntType) (min max : Option ℤ) (n : ℤ) :
    Decidable (DecidedAlike v t min max n) :=
  inferInstanceAs (Decidable (_ ∧ _))

/-- Bounds of the type, and a number of the type or a numeral. -/
theorem decidedAlike_of_range (ht : 0 < t.bits) (hmin : ∀ m ∈ min, t.Range m)
    (hmax : ∀ m ∈ max, t.Range m) (hv : v = .int n → t.Range n) :
    DecidedAlike v t min max n := by
  have hmap (o : Option ℤ) (ho : ∀ m ∈ o, t.Range m) : o.map t.wrap = o := by
    cases o with
    | none => rfl
    | some m => simp [IntType.wrap_of_range ht (ho m rfl)]
  refine ⟨fun _ => ?_, fun hr hvn => absurd (hv hvn) hr⟩
  rw [ConvertedBetween, hmap min hmin, hmap max hmax]

/-- Integer signals keep the numbers that they are set to exactly where the conversion to their
type does not change the answer. -/
theorem keepsNumber_iff (nm : Numerics) (node v : Json) (t : IntType) (min max : Option ℤ) (n : ℤ)
    (h : IntegerSignal node t min max) (hv : Denotes nm v n) :
    KeepsNumber nm node v t min max n ↔ DecidedAlike v t min max n := by
  have hiff (w : Json) := h.accepted_of_denotes (w := w) hv
  constructor
  · intro hk
    constructor
    · intro hr
      constructor
      · intro hb
        exact (hk.accepted.mp ⟨_, (hiff _).mpr (.inl ⟨hr, hb, rfl⟩)⟩).2
      · intro hb
        obtain ⟨w, hw⟩ := hk.accepted.mpr ⟨hr, hb⟩
        rcases (hiff w).mp hw with ⟨-, hc, -⟩ | ⟨hno, -⟩
        · exact hc
        · exact absurd hr hno
    · intro hr hvn hb
      exact hr (hk.accepted.mp ⟨_, (hiff _).mpr (.inr ⟨hr, hvn, hb, rfl⟩)⟩).1
  · rintro ⟨hin, hout⟩
    have hok (w : Json) (hw : checkAndSanitizeType nm node v = .ok w) :
        t.Range n ∧ Between min max n ∧ w = .int n := by
      rcases (hiff w).mp hw with ⟨hr, hb, rfl⟩ | ⟨hr, hvn, hb, -⟩
      · exact ⟨hr, (hin hr).mp hb, rfl⟩
      · exact absurd hb (hout hr hvn)
    have hacc : (∃ w, checkAndSanitizeType nm node v = .ok w) ↔ t.Range n ∧ Between min max n := by
      constructor
      · rintro ⟨w, hw⟩
        exact ⟨(hok w hw).1, (hok w hw).2.1⟩
      · rintro ⟨hr, hb⟩
        exact ⟨_, (hiff _).mpr (.inl ⟨hr, (hin hr).mpr hb, rfl⟩)⟩
    refine ⟨hacc, fun w hw => .inl (hok w hw).2.2, ?_, ?_⟩
    · intro jp ck db db' path attr l data pubs hr hs
      obtain ⟨w, hw, hat⟩ := hr.stored hs
      exact ⟨w, .inl (hok w hw).2.2, hat⟩
    · intro hno jp ck db path attr l hr
      exact hr.refused fun w hw => hno (hacc.mp ⟨w, hw⟩)

/-- A speed of one byte, with the maximum of it. -/
def byteNode (max : ℤ) : Json := .obj [("datatype", .str "uint8"), ("max", .int max)]

theorem byteNode_signal (max : ℤ) : IntegerSignal (byteNode max) ⟨8, false⟩ none (some max) :=
  ⟨⟨"uint8", by decide, rfl⟩, rfl, rfl⟩

theorem keepsNumber_hundred :
    KeepsNumber .decimal (byteNode 120) (.int 100) ⟨8, false⟩ none (some 120) 100 :=
  (keepsNumber_iff .decimal (byteNode 120) (.int 100) ⟨8, false⟩ none (some 120) 100
    (byteNode_signal 120) (.inl rfl)).mpr (by decide)

/-- The first number above the type is stored as zero. -/
theorem keepsNumber_overflow :
    IntegerSignal (byteNode 120) ⟨8, false⟩ none (some 120) ∧ Denotes .decimal (.int 256) 256 ∧
      checkAndSanitizeType .decimal (byteNode 120) (.int 256) = .ok (.int 0) ∧
      ¬ KeepsNumber .decimal (byteNode 120) (.int 256) ⟨8, false⟩ none (some 120) 256 := by
  have hzero : checkAndSanitizeType .decimal (byteNode 120) (.int 256) = .ok (.int 0) := by
    decide +kernel
  refine ⟨byteNode_signal 120, .inl rfl, hzero, ?_⟩
  intro hk
  have hin := (hk.accepted.mp ⟨_, hzero⟩).1
  exact absurd hin (by decide)

end Integers

section Arrays

theorem beforeLast_append (pre : List Char) :
    beforeLast ['[', ']'] (pre ++ ['[', ']']) = some pre := by
  induction pre with
  | nil => rfl
  | cons c cs ih => simp [beforeLast, ih]

theorem utf8Length_append (cs ds : List Char) :
    utf8Length (cs ++ ds) = utf8Length cs + utf8Length ds := by
  simp [utf8Length]

theorem takeBytes_append (cs ds : List Char) : takeBytes (utf8Length cs) (cs ++ ds) = cs := by
  induction cs with
  | nil =>
    cases ds with
    | nil => rfl
    | cons d ds =>
      have hd := Char.utf8Size_pos d
      rw [List.nil_append, takeBytes, if_neg]
      simp only [utf8Length, List.map_nil, List.sum_nil]
      omega
  | cons c cs ih =>
    have hc : utf8Length (c :: cs) = c.utf8Size + utf8Length cs := by simp [utf8Length]
    rw [List.cons_append, takeBytes, if_pos (by omega), hc, Nat.add_sub_cancel_left, ih]

/-- The texts that are not too long for a string of the source. -/
def Representable (s : String) : Prop := utf8Length s.toList < npos

instance (s : String) : Decidable (Representable s) :=
  inferInstanceAs (Decidable (utf8Length s.toList < npos))

variable {dt : String} {vs : List Json}

theorem toList_arrayOf (dt : String) : (dt ++ "[]").toList = dt.toList ++ ['[', ']'] := by
  simp

theorem sizeMinusTwo_arrayOf (h : Representable (dt ++ "[]")) :
    sizeMinusTwo (dt ++ "[]") = utf8Length dt.toList := by
  have h2 : utf8Length ['[', ']'] = 2 := by decide
  unfold Representable npos at h
  rw [toList_arrayOf, utf8Length_append, h2] at h
  unfold sizeMinusTwo
  rw [toList_arrayOf, utf8Length_append, h2]
  omega

theorem isArrayType_arrayOf (h : Representable (dt ++ "[]")) : isArrayType (dt ++ "[]") = true := by
  simp [isArrayType, sizeMinusTwo_arrayOf h, rfind, beforeLast_append]

theorem subDatatype_arrayOf (h : Representable (dt ++ "[]")) : subDatatype (dt ++ "[]") = dt := by
  rw [subDatatype, sizeMinusTwo_arrayOf h, toList_arrayOf, takeBytes_append, String.ofList_toList]

/-- No other datatype ends in a bracket. -/
theorem arrayOf_ne {name : String} (h : name.toList.getLast? ≠ some ']') : dt ++ "[]" ≠ name := by
  rintro rfl
  exact h (by simp)

theorem numTypeOf_arrayOf : numTypeOf nm (dt ++ "[]") = none := by
  rw [numTypeOf_eq_none_iff]
  intro hmem
  have hall : ∀ name ∈ ["uint8", "int8", "uint16", "int16", "uint32", "int32", "uint64", "int64",
      "float", "double"], name.toList.getLast? ≠ some ']' := by decide
  exact arrayOf_ne (hall _ hmem) rfl

/-- An array is left as it is when its elements pass. -/
theorem checkAndSanitizeType_array (hdt : Representable (dt ++ "[]"))
    (hd : node.get? "datatype" = some (.str (dt ++ "[]"))) :
    checkAndSanitizeType nm node (.arr vs) = ((checkElements nm dt vs).mapError fun e =>
      arrayConversionError dt (.arr vs) e.what).map fun _ => .arr vs := by
  unfold checkAndSanitizeType dispatchType
  have hboolean : dt ++ "[]" ≠ "boolean" := arrayOf_ne (by decide)
  have hstring : dt ++ "[]" ≠ "string" := arrayOf_ne (by decide)
  simp only [member_of_get? hd, asString_str, numTypeOf_arrayOf, if_neg hboolean, if_neg hstring,
    isArrayType_arrayOf hdt, subDatatype_arrayOf hdt, ↓reduceIte]
  cases checkElements nm dt vs <;> rfl

/-- Metadata with a datatype and nothing else. -/
def datatypeOnly (dt : String) : Json := .obj [("datatype", .str dt)]

theorem checkElements_eq_ok_iff : checkElements nm dt vs = .ok () ↔
    ∀ v ∈ vs, ∃ w, checkAndSanitizeType nm (datatypeOnly dt) v = .ok w := by
  induction vs with
  | nil => simp [checkElements]
  | cons v vs ih =>
    unfold checkElements
    rw [List.forall_mem_cons, ← ih]
    unfold datatypeOnly
    cases checkAndSanitizeType nm (.obj [("datatype", .str dt)]) v <;> simp

theorem array_eq_ok_iff (hdt : Representable (dt ++ "[]"))
    (hd : node.get? "datatype" = some (.str (dt ++ "[]"))) :
    checkAndSanitizeType nm node (.arr vs) = .ok w ↔
      (∀ v ∈ vs, ∃ w, checkAndSanitizeType nm (datatypeOnly dt) v = .ok w) ∧ w = .arr vs := by
  rw [checkAndSanitizeType_array hdt hd, ← checkElements_eq_ok_iff]
  cases checkElements nm dt vs <;> simp [Except.map, Except.mapError, eq_comm]

/-- A conversion to a finite number. -/
def Converts (t : NumType) (v : Json) : Prop := ∃ c, t.as v = .ok c ∧ t.isInfinite c = false

/-- A value that is its own conversion. -/
def IsConverted (t : NumType) (v : Json) : Prop := ∃ c, t.as v = .ok c ∧ t.toJson c = v

/-- A text of a boolean, with quotes or without. -/
def ReadsBool (v : Json) : Prop :=
  String.ofList (Text.eraseAll ['"'] v.asString.toList) ∈ ["true", "false"]

theorem checkBoolType_isOk_iff : (∃ w, checkBoolType v = .ok w) ↔ ReadsBool v := by
  unfold checkBoolType ReadsBool
  simp only [List.mem_cons, List.not_mem_nil, or_false]
  split_ifs with h1 h2 <;> simp [*]

theorem checkBoolType_bool (b : Bool) : checkBoolType (.bool b) = .ok (.bool b) := by
  cases b <;> decide +kernel

theorem checkBoolType_eq_ok (h : checkBoolType v = .ok w) : ∃ b, w = .bool b := by
  unfold checkBoolType at h
  simp only at h
  split_ifs at h
  · exact ⟨true, (Except.ok.inj h).symm⟩
  · exact ⟨false, (Except.ok.inj h).symm⟩

theorem datatypeOnly_number {t : NumType} (ht : numTypeOf nm dt = some t) :
    checkAndSanitizeType nm (datatypeOnly dt) v = .ok w ↔
      ∃ c, t.as v = .ok c ∧ t.isInfinite c = false ∧ w = t.toJson c := by
  have hmin (c : t.Carrier) : checkMin nm t c (datatypeOnly dt) = .ok () := rfl
  have hmax (c : t.Carrier) : checkMax nm t c (datatypeOnly dt) = .ok () := rfl
  have hd : (datatypeOnly dt).get? "datatype" = some (.str dt) := rfl
  rw [checkAndSanitizeType_number hd ht, checkNumTypes_eq_ok_iff]
  simp only [hmin, hmax, true_and]

/-- Datatypes that are no numbers, without any other metadata. -/
theorem dispatchType_datatypeOnly (hn : numTypeOf nm dt = none)
    (checkArray : String → Except Exn Json) : dispatchType nm checkArray (datatypeOnly dt) v =
      if dt = "boolean" then checkBoolType v
      else if dt = "string" then .ok v
      else if isArrayType dt then checkArray (subDatatype dt)
      else .error (.genException ("The datatype " ++ dt ++ " is not supported ")) := by
  have hd : (datatypeOnly dt).member "datatype" = .ok (.str dt) := rfl
  have hstring : checkStringType (datatypeOnly dt) v = .ok v := rfl
  simp only [dispatchType, hd, asString_str, hn, hstring]
  rfl

theorem datatypeOnly_boolean :
    checkAndSanitizeType nm (datatypeOnly "boolean") v = checkBoolType v :=
  checkAndSanitizeType_boolean rfl rfl

theorem dispatchType_other {checkArray : String → Except Exn Json}
    (ha : ∀ sub w, checkArray sub = .ok w → w = v) (hn : numTypeOf nm dt = none)
    (hb : dt ≠ "boolean") (h : dispatchType nm checkArray (datatypeOnly dt) v = .ok w) : w = v := by
  rw [dispatchType_datatypeOnly hn, if_neg hb] at h
  split_ifs at h
  · exact (Except.ok.inj h).symm
  · exact ha _ w h

/-- Numbers and booleans are converted, other values are left as they are. -/
theorem datatypeOnly_other (hn : numTypeOf nm dt = none) (hb : dt ≠ "boolean")
    (h : checkAndSanitizeType nm (datatypeOnly dt) v = .ok w) : w = v := by
  cases v with
  | arr vs =>
    unfold checkAndSanitizeType at h
    refine dispatchType_other (fun sub w hw => ?_) hn hb h
    cases hc : checkElements nm sub vs with
    | error e => simp [hc] at hw
    | ok _ =>
      simp only [hc] at hw
      exact (Except.ok.inj hw).symm
  | _ =>
    unfold checkAndSanitizeType at h
    exact dispatchType_other (fun _ _ hw => by simp at hw) hn hb h

/-- An array is accepted if its elements are, and stored as the array of what the sanitizer
leaves of them. -/
structure ElementWise (nm : Numerics) (node : Json) (dt : String) (vs : List Json) : Prop where
  accepted : (∃ w, checkAndSanitizeType nm node (.arr vs) = .ok w) ↔
    ∀ v ∈ vs, ∃ w, checkAndSanitizeType nm (datatypeOnly dt) v = .ok w
  sanitized : ∀ w, checkAndSanitizeType nm node (.arr vs) = .ok w → ∃ ws, w = .arr ws ∧
    List.Forall₂ (fun v w => checkAndSanitizeType nm (datatypeOnly dt) v = .ok w) vs ws
  stored : ∀ jp ck db db' path attr l data pubs, Resolves jp db.dataTree path l node →
    setSignal jp nm ck db path attr (.arr vs) = (.ok data, db', pubs) →
      ∃ ws, (db'.dataTree.at? l).bind (get? attr) = some (.arr ws) ∧
        List.Forall₂ (fun v w => checkAndSanitizeType nm (datatypeOnly dt) v = .ok w) vs ws

/-- Where all elements are numbers, or booleans, of the datatype, there is nothing to convert. -/
def NothingToConvert (nm : Numerics) (dt : String) (vs : List Json) : Prop :=
  (∀ t, numTypeOf nm dt = some t → (∀ v ∈ vs, Converts t v) → ∀ v ∈ vs, IsConverted t v) ∧
    (dt = "boolean" → (∀ v ∈ vs, ReadsBool v) → ∀ v ∈ vs, ∃ b, v = .bool b)

theorem NothingToConvert.self (h : NothingToConvert nm dt vs)
    (hok : ∀ v ∈ vs, ∃ w, checkAndSanitizeType nm (datatypeOnly dt) v = .ok w) :
    ∀ v ∈ vs, checkAndSanitizeType nm (datatypeOnly dt) v = .ok v := by
  intro v hv
  obtain ⟨w, hw⟩ := hok v hv
  cases ht : numTypeOf nm dt with
  | some t =>
    have hconv : ∀ u ∈ vs, Converts t u := by
      intro u hu
      obtain ⟨z, hz⟩ := hok u hu
      obtain ⟨c, hc, hi, -⟩ := (datatypeOnly_number ht).mp hz
      exact ⟨c, hc, hi⟩
    obtain ⟨c, hc, hcv⟩ := h.1 t ht hconv v hv
    obtain ⟨c', hc', hi⟩ := hconv v hv
    obtain rfl : c = c' := Except.ok.inj (hc.symm.trans hc')
    exact (datatypeOnly_number ht).mpr ⟨c, hc, hi, hcv.symm⟩
  | none =>
    by_cases hb : dt = "boolean"
    · subst hb
      have hreads : ∀ u ∈ vs, ReadsBool u := by
        intro u hu
        exact checkBoolType_isOk_iff.mp (by simpa only [datatypeOnly_boolean] using hok u hu)
      obtain ⟨b, rfl⟩ := h.2 rfl hreads v hv
      rw [datatypeOnly_boolean, checkBoolType_bool]
    · obtain rfl := datatypeOnly_other ht hb hw
      exact hw

/-- Arrays are sanitized element by element exactly where there is nothing to convert. -/
theorem elementWise_iff (nm : Numerics) (node : Json) (dt : String) (vs : List Json)
    (hdt : Representable (dt ++ "[]")) (hd : node.get? "datatype" = some (.str (dt ++ "[]"))) :
    ElementWise nm node dt vs ↔ NothingToConvert nm dt vs := by
  have hiff (w : Json) : checkAndSanitizeType nm node (.arr vs) = .ok w ↔
      (∀ v ∈ vs, ∃ w, checkAndSanitizeType nm (datatypeOnly dt) v = .ok w) ∧ w = .arr vs :=
    array_eq_ok_iff hdt hd
  constructor
  · intro he
    have hself (hok : ∀ v ∈ vs, ∃ w, checkAndSanitizeType nm (datatypeOnly dt) v = .ok w) :
        ∀ v ∈ vs, checkAndSanitizeType nm (datatypeOnly dt) v = .ok v := by
      obtain ⟨ws, hw, hall⟩ := he.sanitized _ ((hiff _).mpr ⟨hok, rfl⟩)
      obtain rfl := Json.arr.inj hw
      exact List.forall₂_same.mp hall
    constructor
    · intro t ht hconv v hv
      have hok := hself fun u hu => by
        obtain ⟨c, hc, hi⟩ := hconv u hu
        exact ⟨_, (datatypeOnly_number ht).mpr ⟨c, hc, hi, rfl⟩⟩
      obtain ⟨c, hc, -, hcv⟩ := (datatypeOnly_number ht).mp (hok v hv)
      exact ⟨c, hc, hcv.symm⟩
    · rintro rfl hreads v hv
      have hok := hself fun u hu => by
        rw [datatypeOnly_boolean]
        exact checkBoolType_isOk_iff.mpr (hreads u hu)
      have hv' := hok v hv
      rw [datatypeOnly_boolean] at hv'
      exact checkBoolType_eq_ok hv'
  · intro h
    have hsan (w : Json) (hw : checkAndSanitizeType nm node (.arr vs) = .ok w) : w = .arr vs ∧
        List.Forall₂ (fun v w => checkAndSanitizeType nm (datatypeOnly dt) v = .ok w) vs vs := by
      obtain ⟨hok, rfl⟩ := (hiff w).mp hw
      exact ⟨rfl, List.forall₂_same.mpr (h.self hok)⟩
    constructor
    · simp only [hiff, exists_and_left, exists_eq, and_true]
    · intro w hw
      exact ⟨vs, hsan w hw⟩
    · intro jp ck db db' path attr l data pubs hr hs
      obtain ⟨w, hw, hat⟩ := hr.stored hs
      obtain ⟨rfl, hall⟩ := hsan w hw
      exact ⟨vs, hat, hall⟩

def bytesNode : Json := datatypeOnly "uint8[]"

theorem elementWise_numbers : ElementWise .decimal bytesNode "uint8" [.int 1, .int 2] := by
  apply (elementWise_iff .decimal bytesNode "uint8" [.int 1, .int 2] (by decide) rfl).mpr
  constructor
  · intro t ht _ v hv
    obtain rfl : NumType.integer .decimal ⟨8, false⟩ = t :=
      Option.some.inj ((numTypeOf_integer (by decide)).symm.trans ht)
    rcases List.mem_cons.mp hv with rfl | hv
    · exact ⟨(1 : ℤ), rfl, rfl⟩
    · obtain rfl := List.mem_singleton.mp hv
      exact ⟨(2 : ℤ), rfl, rfl⟩
  · intro hb
    exact absurd hb (by decide)

/-- A numeral in an array is stored as the text that it is. -/
theorem elementWise_numeral :
    checkAndSanitizeType .decimal (datatypeOnly "uint8") (.str "1") = .ok (.int 1) ∧
      checkAndSanitizeType .decimal bytesNode (.arr [.str "1"]) = .ok (.arr [.str "1"]) ∧
      ¬ ElementWise .decimal bytesNode "uint8" [.str "1"] := by
  have hone : checkAndSanitizeType .decimal (datatypeOnly "uint8") (.str "1") = .ok (.int 1) := by
    decide +kernel
  have harr : checkAndSanitizeType .decimal bytesNode (.arr [.str "1"]) =
      .ok (.arr [.str "1"]) := by
    decide +kernel
  refine ⟨hone, harr, ?_⟩
  intro he
  obtain ⟨ws, hw, hall⟩ := he.sanitized _ harr
  obtain rfl := Json.arr.inj hw
  have hsame := List.forall₂_same.mp hall (.str "1") (by simp)
  rw [hone] at hsame
  exact absurd hsame (by decide)

end Arrays

end VssDatabase
