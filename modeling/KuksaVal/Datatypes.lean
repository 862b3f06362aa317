import KuksaVal.SanitizedValues

/-! Which datatypes get past the sanitizer: those of VSS, and with values made of nothing but
arrays some others. -/
namespace VssDatabase
open Json

/-- The datatypes of single values. -/
def scalarDatatypes : List String :=
  ["uint8", "int8", "uint16", "int16", "uint32", "int32", "uint64", "int64", "float", "double",
   "boolean", "string"]

/-- The datatypes of VSS: of single values, and of arrays of them. -/
inductive VssDatatype : String → Prop
  | scalar {dt : String} (h : dt ∈ scalarDatatypes) : VssDatatype dt
  | array {dt : String} (h : VssDatatype dt) : VssDatatype (dt ++ "[]")

/-- A reversed text without the brackets it starts with, and how many pairs these are. -/
def splitBrackets : List Char → List Char × ℕ
  | ']' :: '[' :: cs => ((splitBrackets cs).1, (splitBrackets cs).2 + 1)
  | cs => (cs, 0)

/-- What precedes the `[]` a datatype ends in. -/
def baseOf (dt : String) : String := String.ofList (splitBrackets dt.toList.reverse).1.reverse

/-- The number of `[]` a datatype ends in. -/
def brackets (dt : String) : ℕ := (splitBrackets dt.toList.reverse).2

/-- Nothing but arrays, nested at most this deep. -/
def arraysWithin : ℕ → Json → Bool
  | depth + 1, .arr vs => vs.all (arraysWithin depth)
  | _, _ => false

/-- Values whose elements are never held against the base of the datatype: arrays that end in
empty arrays before the brackets do, or anywhere when the base is a single byte. -/
def SlipsThrough (dt : String) (v : Json) : Prop :=
  if utf8Length (baseOf dt).toList = 1 then ∃ depth, arraysWithin depth v = true
  else arraysWithin (brackets dt) v = true

section Brackets
variable {dt : String}

theorem brackets_arrayOf (dt : String) : brackets (dt ++ "[]") = brackets dt + 1 := by
  simp [brackets, splitBrackets]

theorem baseOf_arrayOf (dt : String) : baseOf (dt ++ "[]") = baseOf dt := by
  simp [baseOf, splitBrackets]

/-- The text that a datatype without brackets at its end is split into. -/
theorem splitBrackets_of_not_prefix {cs : List Char} (h : ¬ [']', '['] <+: cs) :
    splitBrackets cs = (cs, 0) := by
  unfold splitBrackets
  split
  · exact absurd (by simp) h
  · rfl

theorem not_prefix_reverse (h : ¬ ['[', ']'] <:+ dt.toList) :
    ¬ [']', '['] <+: dt.toList.reverse := by
  intro hp
  exact h (List.reverse_prefix.mp (by simpa using hp))

theorem brackets_base (h : ¬ ['[', ']'] <:+ dt.toList) : brackets dt = 0 := by
  rw [brackets, splitBrackets_of_not_prefix (not_prefix_reverse h)]

theorem baseOf_base (h : ¬ ['[', ']'] <:+ dt.toList) : baseOf dt = dt := by
  rw [baseOf, splitBrackets_of_not_prefix (not_prefix_reverse h)]
  simp

/-- A datatype is an array of another one, or has no brackets at its end. -/
theorem arrayOf_cases (dt : String) :
    (∃ sub, dt = sub ++ "[]") ∨ ¬ ['[', ']'] <:+ dt.toList := by
  by_cases h : ['[', ']'] <:+ dt.toList
  · obtain ⟨cs, hcs⟩ := h
    left
    refine ⟨String.ofList cs, ?_⟩
    rw [← String.toList_inj]
    simp [hcs]
  · exact .inr h

/-- An induction over the brackets a datatype ends in. -/
theorem bracketsInduction {P : String → Prop} (base : ∀ dt, ¬ ['[', ']'] <:+ dt.toList → P dt)
    (array : ∀ dt, P dt → P (dt ++ "[]")) (dt : String) : P dt := by
  induction hn : brackets dt generalizing dt with
  | zero =>
    rcases arrayOf_cases dt with ⟨sub, rfl⟩ | h
    · simp [brackets_arrayOf] at hn
    · exact base dt h
  | succ n ih =>
    rcases arrayOf_cases dt with ⟨sub, rfl⟩ | h
    · rw [brackets_arrayOf] at hn
      exact array sub (ih sub (by omega))
    · exact base dt h

theorem scalar_not_suffix (h : dt ∈ scalarDatatypes) : ¬ ['[', ']'] <:+ dt.toList := by
  have hall : ∀ name ∈ scalarDatatypes, ¬ ['[', ']'] <:+ name.toList := by decide
  exact hall dt h

/-- A datatype of VSS is one with a scalar base. -/
theorem vssDatatype_iff (dt : String) : VssDatatype dt ↔ baseOf dt ∈ scalarDatatypes := by
  constructor
  · intro h
    induction h with
    | scalar h => rwa [baseOf_base (scalar_not_suffix h)]
    | array _ ih => rwa [baseOf_arrayOf]
  · induction dt using bracketsInduction with
    | base dt h =>
      intro hb
      exact .scalar (baseOf_base h ▸ hb)
    | array dt ih =>
      intro hb
      exact .array (ih (baseOf_arrayOf dt ▸ hb))

instance : DecidablePred VssDatatype := fun dt => decidable_of_iff _ (vssDatatype_iff dt).symm

end Brackets

section Suffixes
variable {dt : String}

theorem beforeLast_eq_some {pat cs pre : List Char} (h : beforeLast pat cs = some pre) :
    ∃ post, cs = pre ++ pat ++ post := by
  induction cs generalizing pre with
  | nil => simp [beforeLast] at h
  | cons c cs ih =>
    unfold beforeLast at h
    cases hb : beforeLast pat cs with
    | some ds =>
      obtain ⟨post, rfl⟩ := ih hb
      simp only [hb, Option.some.injEq] at h
      exact ⟨post, by simp [← h]⟩
    | none =>
      simp only [hb] at h
      split_ifs at h with hp
      obtain ⟨post, hpost⟩ := List.isPrefixOf_iff_prefix.mp hp
      obtain rfl := Option.some.inj h
      exact ⟨post, hpost.symm⟩

theorem utf8Length_pos {cs : List Char} (h : cs ≠ []) : 0 < utf8Length cs := by
  obtain ⟨c, ds, rfl⟩ := List.exists_cons_of_ne_nil h
  have hc := Char.utf8Size_pos c
  simp only [utf8Length, List.map_cons, List.sum_cons]
  omega

/-- Without brackets at its end a datatype passes for an array exactly where `size() - 2` wraps
around to `npos`. -/
theorem isArrayType_base (hdt : Representable dt) (h : ¬ ['[', ']'] <:+ dt.toList) :
    isArrayType dt = true ↔ utf8Length dt.toList = 1 := by
  unfold Representable npos at hdt
  have hrfind : rfind ['[', ']'] dt.toList = npos ∨
      rfind ['[', ']'] dt.toList + 2 < utf8Length dt.toList := by
    unfold rfind
    cases hb : beforeLast ['[', ']'] dt.toList with
    | none => exact .inl rfl
    | some pre =>
      obtain ⟨post, hpost⟩ := beforeLast_eq_some hb
      have hne : post ≠ [] := by
        rintro rfl
        exact h ⟨pre, by simp [hpost]⟩
      have hpos := utf8Length_pos hne
      have htwo : utf8Length ['[', ']'] = 2 := by decide
      right
      simp only [Option.map_some, Option.getD_some]
      rw [hpost, utf8Length_append, utf8Length_append, htwo]
      omega
  unfold npos at hrfind
  unfold isArrayType sizeMinusTwo
  rw [decide_eq_true_iff]
  omega

/-- The rest of a single byte is the byte itself. -/
theorem subDatatype_oneByte (h : utf8Length dt.toList = 1) : subDatatype dt = dt := by
  have htake (n : ℕ) (cs : List Char) (hn : utf8Length cs ≤ n) : takeBytes n cs = cs := by
    induction cs generalizing n with
    | nil => simp [takeBytes]
    | cons c cs ih =>
      have hc : utf8Length (c :: cs) = c.utf8Size + utf8Length cs := by simp [utf8Length]
      rw [takeBytes, if_pos (by omega), ih _ (by omega)]
  rw [subDatatype, sizeMinusTwo, htake _ _ (by omega), String.ofList_toList]

theorem representable_of_arrayOf (h : Representable (dt ++ "[]")) : Representable dt := by
  unfold Representable at *
  rw [toList_arrayOf, utf8Length_append] at h
  omega

end Suffixes

section NothingButArrays
variable {v : Json}

theorem arraysWithin_succ_iff {depth : ℕ} : arraysWithin (depth + 1) v = true ↔
    ∃ vs, v = .arr vs ∧ ∀ u ∈ vs, arraysWithin depth u = true := by
  cases v <;> simp [arraysWithin]

theorem arraysWithin_mono {m n : ℕ} (h : m ≤ n) (hv : arraysWithin m v = true) :
    arraysWithin n v = true := by
  induction m generalizing n v with
  | zero => simp [arraysWithin] at hv
  | succ m ih =>
    obtain ⟨k, rfl⟩ : ∃ k, n = k + 1 := ⟨n - 1, by omega⟩
    obtain ⟨vs, rfl, hvs⟩ := arraysWithin_succ_iff.mp hv
    exact arraysWithin_succ_iff.mpr ⟨vs, rfl, fun u hu => ih (by omega) (hvs u hu)⟩

/-- Elements that are nothing but arrays have a common bound on their depth. -/
theorem exists_depth_forall {vs : List Json} (h : ∀ u ∈ vs, ∃ depth, arraysWithin depth u = true) :
    ∃ depth, ∀ u ∈ vs, arraysWithin depth u = true := by
  induction vs with
  | nil => exact ⟨0, by simp⟩
  | cons u vs ih =>
    rw [List.forall_mem_cons] at h
    obtain ⟨m, hm⟩ := h.1
    obtain ⟨n, hn⟩ := ih h.2
    refine ⟨max m n, ?_⟩
    intro x hx
    rcases List.mem_cons.mp hx with rfl | hx
    · exact arraysWithin_mono (le_max_left m n) hm
    · exact arraysWithin_mono (le_max_right m n) (hn x hx)

theorem exists_arraysWithin_iff : (∃ depth, arraysWithin depth v = true) ↔
    ∃ vs, v = .arr vs ∧ ∀ u ∈ vs, ∃ depth, arraysWithin depth u = true := by
  constructor
  · rintro ⟨depth, h⟩
    cases depth with
    | zero => simp [arraysWithin] at h
    | succ depth =>
      obtain ⟨vs, rfl, hvs⟩ := arraysWithin_succ_iff.mp h
      exact ⟨vs, rfl, fun u hu => ⟨depth, hvs u hu⟩⟩
  · rintro ⟨vs, rfl, hvs⟩
    obtain ⟨depth, hdepth⟩ := exists_depth_forall hvs
    exact ⟨depth + 1, arraysWithin_succ_iff.mpr ⟨vs, rfl, hdepth⟩⟩

/-- Brackets let through one more level of arrays. -/
theorem slipsThrough_arrayOf (dt : String) : SlipsThrough (dt ++ "[]") v ↔
    ∃ vs, v = .arr vs ∧ ∀ u ∈ vs, SlipsThrough dt u := by
  unfold SlipsThrough
  rw [baseOf_arrayOf, brackets_arrayOf]
  split_ifs
  · exact exists_arraysWithin_iff
  · exact arraysWithin_succ_iff

end NothingButArrays

section Accepted
variable {nm : Numerics} {node v : Json} {dt : String}

variable (nm) in
/-- The sanitizer returns. -/
def Accepted (node v : Json) : Prop := ∃ w, checkAndSanitizeType nm node v = .ok w

theorem numTypeOf_of_not_scalar (h : dt ∉ scalarDatatypes) : numTypeOf nm dt = none := by
  rw [numTypeOf_eq_none_iff]
  intro hm
  have hsub : ∀ name ∈ ["uint8", "int8", "uint16", "int16", "uint32", "int32", "uint64", "int64",
      "float", "double"], name ∈ scalarDatatypes := by decide
  exact h (hsub dt hm)

theorem dispatchType_of_not_scalar (h : dt ∉ scalarDatatypes)
    (hd : node.get? "datatype" = some (.str dt)) (checkArray : String → Except Exn Json) :
    dispatchType nm checkArray node v = if isArrayType dt then checkArray (subDatatype dt)
      else .error (.genException ("The datatype " ++ dt ++ " is not supported ")) := by
  have hb : dt ≠ "boolean" := by
    rintro rfl
    exact h (by decide)
  have hs : dt ≠ "string" := by
    rintro rfl
    exact h (by decide)
  simp only [dispatchType, member_of_get? hd, asString_str, numTypeOf_of_not_scalar h, hb, hs,
    ↓reduceIte]
  rfl

/-- Where the datatype passes for an array, the elements are held against what precedes its last
two bytes. -/
theorem accepted_iff_elements (h : dt ∉ scalarDatatypes)
    (hd : node.get? "datatype" = some (.str dt)) (ha : isArrayType dt = true) :
    Accepted nm node v ↔
      ∃ vs, v = .arr vs ∧ ∀ u ∈ vs, Accepted nm (datatypeOnly (subDatatype dt)) u := by
  unfold Accepted
  cases v with
  | arr vs =>
    simp only [Json.arr.injEq, exists_eq_left', ← checkElements_eq_ok_iff]
    unfold checkAndSanitizeType
    rw [dispatchType_of_not_scalar h hd, if_pos ha]
    cases checkElements nm (subDatatype dt) vs <;> simp
  | _ =>
    unfold checkAndSanitizeType
    rw [dispatchType_of_not_scalar h hd, if_pos ha]
    simp

theorem not_accepted (h : dt ∉ scalarDatatypes) (hd : node.get? "datatype" = some (.str dt))
    (ha : isArrayType dt = false) : ¬ Accepted nm node v := by
  unfold Accepted
  cases v <;>
  · unfold checkAndSanitizeType
    rw [dispatchType_of_not_scalar h hd, if_neg (by simp [ha])]
    simp

/-- A single byte accepts whatever is made of nothing but arrays. -/
theorem accepted_oneByte_iff (h : dt ∉ scalarDatatypes) (hdt : isArrayType dt = true)
    (hone : utf8Length dt.toList = 1) (hd : node.get? "datatype" = some (.str dt)) :
    Accepted nm node v ↔ ∃ depth, arraysWithin depth v = true := by
  induction hn : sizeOf v using Nat.strong_induction_on generalizing node v with
  | _ n ih =>
    rw [accepted_iff_elements h hd hdt, exists_arraysWithin_iff, subDatatype_oneByte hone]
    refine exists_congr fun vs => and_congr_right ?_
    rintro rfl
    refine forall₂_congr fun u hu => ih (sizeOf u) ?_ rfl rfl
    have hlt := List.sizeOf_lt_of_mem hu
    rw [← hn, Json.arr.sizeOf_spec]
    omega

/-- What the sanitizer accepts for a datatype that is not of VSS. -/
theorem accepted_iff_slipsThrough (hdt : Representable dt) (hvss : ¬ VssDatatype dt)
    (hd : node.get? "datatype" = some (.str dt)) :
    Accepted nm node v ↔ SlipsThrough dt v := by
  induction dt using bracketsInduction generalizing node v with
  | base dt hend =>
    have hscalar : dt ∉ scalarDatatypes := fun h => hvss (.scalar h)
    have ha := isArrayType_base hdt hend
    unfold SlipsThrough
    rw [baseOf_base hend, brackets_base hend]
    split_ifs with hone
    · exact accepted_oneByte_iff hscalar (ha.mpr hone) hone hd
    · have hna : isArrayType dt = false := by
        rw [Bool.eq_false_iff]
        exact fun h => hone (ha.mp h)
      simp [not_accepted hscalar hd hna, arraysWithin]
  | array dt ih =>
    have hscalar : dt ++ "[]" ∉ scalarDatatypes := fun h =>
      scalar_not_suffix h ⟨dt.toList, by simp⟩
    rw [accepted_iff_elements hscalar hd (isArrayType_arrayOf hdt), subDatatype_arrayOf hdt,
      slipsThrough_arrayOf]
    refine exists_congr fun vs => and_congr_right fun _ => forall₂_congr fun u _ => ?_
    exact ih (representable_of_arrayOf hdt) (fun h => hvss (.array h)) rfl

/-- Only datatypes of VSS are accepted, except for values that slip through. -/
theorem onlyVssDatatypes_iff (nm : Numerics) (node v : Json) (dt : String) (hdt : Representable dt)
    (hd : node.get? "datatype" = some (.str dt)) :
    (Accepted nm node v → VssDatatype dt) ↔ VssDatatype dt ∨ ¬ SlipsThrough dt v := by
  by_cases hvss : VssDatatype dt
  · simp [hvss]
  · simp [hvss, accepted_iff_slipsThrough hdt hvss hd]

theorem onlyVssDatatypes_number :
    ¬ Accepted .decimal (datatypeOnly "bogus[]") (.arr [.int 1]) := by
  have hslips : ¬ SlipsThrough "bogus[]" (.arr [.int 1]) := by
    unfold SlipsThrough
    rw [if_neg (by decide)]
    decide
  have honly := (onlyVssDatatypes_iff .decimal (datatypeOnly "bogus[]") (.arr [.int 1]) "bogus[]"
    (by decide) rfl).mpr (.inr hslips)
  exact fun h => absurd (honly h) (by decide)

/-- An empty array is accepted for a datatype that does not exist, and for a single letter. -/
theorem onlyVssDatatypes_empty :
    (Accepted .decimal (datatypeOnly "bogus[]") (.arr []) ∧ ¬ VssDatatype "bogus[]") ∧
      Accepted .decimal (datatypeOnly "x") (.arr []) ∧ ¬ VssDatatype "x" := by
  refine ⟨⟨⟨.arr [], ?_⟩, by decide⟩, ⟨.arr [], ?_⟩, by decide⟩ <;> decide +kernel

end Accepted

end VssDatabase
