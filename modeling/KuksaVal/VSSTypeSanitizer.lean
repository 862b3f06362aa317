import KuksaVal.Text
import KuksaVal.Exception
import Mathlib.Algebra.Ring.Int.Defs
import Mathlib.Algebra.Ring.Nat
import Mathlib.Tactic.SplitIfs

/-! Checking a value against the datatype and the bounds of a signal, and converting it. -/

/-- The number side of the value library: floating-point conversion and comparison, the
truncation of a floating-point number, and the integer or the truth value a text denotes. -/
structure Numerics where
  asDouble : Json → Except String Double
  asFloat : Json → Except String Double
  truncate : Double → ℤ
  less : Double → Double → Bool
  print : Double → String
  isIntegral : Double → Bool
  numeral : String → Option ℤ
  numeral_toString : ∀ n : ℤ, numeral (toString n) = some n
  truth : String → Option Bool
  truth_toString : ∀ b : Bool, truth (toString b) = some b

namespace Numerics

/-- A decimal numeral, with an optional minus sign. -/
def readDigits (ds : List Char) : Option ℕ :=
  if ds ≠ [] ∧ ds.all Char.isDigit then some (Nat.ofDigitChars 10 ds 0) else none

def readNumeral (s : String) : Option ℤ :=
  match s.toList with
  | '-' :: ds => (readDigits ds).map fun n => -(n : ℤ)
  | ds => (readDigits ds).map fun n => (n : ℤ)

theorem readDigits_toDigits (n : ℕ) : readDigits (Nat.toDigits 10 n) = some n := by
  have hd : ∀ c ∈ Nat.toDigits 10 n, c.isDigit = true := fun c hc =>
    Nat.isDigit_of_mem_toDigits (by decide) (by decide) hc
  simp [readDigits, Nat.toDigits_ne_nil, List.all_eq_true.mpr hd, Nat.ofDigitChars_ten_toDigits]

theorem readNumeral_toString (n : ℤ) : readNumeral (toString n) = some n := by
  unfold readNumeral
  rw [Int.toString_eq_repr, Int.repr_eq_if]
  split_ifs with hn
  · have hr : n.toNat.repr.toList = Nat.toDigits 10 n.toNat := by
      rw [Nat.repr_eq_ofList_toDigits, String.toList_ofList]
    have hv : ((n.toNat : ℕ) : ℤ) = n := Int.toNat_of_nonneg hn
    rw [hr]
    split
    · rename_i ds hds
      have hc : '-' ∈ Nat.toDigits 10 n.toNat := hds ▸ List.mem_cons_self
      have := Nat.isDigit_of_mem_toDigits (by decide) (by decide) hc
      simp at this
    · simp [readDigits_toDigits, hv]
  · have hr : ("-" ++ (-n).toNat.repr).toList = '-' :: Nat.toDigits 10 (-n).toNat := by
      simp [Nat.repr_eq_ofList_toDigits]
    have hv : (((-n).toNat : ℕ) : ℤ) = -n := Int.toNat_of_nonneg (by omega)
    rw [hr]
    simp [readDigits_toDigits, hv]

/-- Decimal numerals, the names of the truth values, and no conversion to floating point other than
the identity. -/
def decimal : Numerics where
  asDouble
    | .double d => .ok d
    | _ => .error "Not a double"
  asFloat
    | .double d => .ok d
    | _ => .error "Not a float"
  truncate _ := 0
  less _ _ := false
  print _ := ""
  isIntegral _ := false
  numeral := readNumeral
  numeral_toString := readNumeral_toString
  truth
    | "true" => some true
    | "false" => some false
    | _ => none
  truth_toString := by decide

end Numerics

structure IntType where
  bits : ℕ
  signed : Bool
  deriving DecidableEq, Repr

namespace IntType

def lower (t : IntType) : ℤ := if t.signed then -2 ^ (t.bits - 1) else 0

def upper (t : IntType) : ℤ := if t.signed then 2 ^ (t.bits - 1) - 1 else 2 ^ t.bits - 1

/-- The C++ conversion: reduction modulo `2 ^ bits`. -/
def wrap (t : IntType) (n : ℤ) : ℤ := (n - t.lower) % 2 ^ t.bits + t.lower

/-- Streams print the one-byte types as characters. -/
def print (t : IntType) (n : ℤ) : String :=
  if t.bits = 8 then String.singleton (Char.ofNat (n % 256).toNat) else toString n

end IntType

variable (nm : Numerics)

/-- `as<T>` for an integer type. -/
def asInteger (t : IntType) : Json → Except Exn ℤ
  | .int n => .ok (t.wrap n)
  | .bool b => .ok (if b then 1 else 0)
  | .double d => .ok (t.wrap (nm.truncate d))
  | .str s =>
      match nm.numeral s with
      | some n => if t.lower ≤ n ∧ n ≤ t.upper then .ok n
          else .error ⟨.runtimeError, "Unable to convert string to number: overflow"⟩
      | none => .error ⟨.runtimeError, "Unable to convert string to number"⟩
  | _ => .error ⟨.domainError, "Not an integer"⟩

/-- `as<bool>`; a text is read as a value first. -/
def asBool : Json → Except Exn Bool
  | .bool b => .ok b
  | .int n => .ok (n ≠ 0)
  | .str s =>
      match nm.truth s with
      | some b => .ok b
      | none => .error ⟨.domainError, "Not a bool"⟩
  | .double d => .ok (nm.less d (.finite ⟨"0", by decide⟩) || nm.less (.finite ⟨"0", by decide⟩) d)
  | _ => .error ⟨.domainError, "Not a bool"⟩

theorem asBool_toString (b : Bool) : asBool nm (.str (toString b)) = .ok b := by
  simp only [asBool, nm.truth_toString]

variable {nm} in
theorem asBool_eq_error {j : Json} {e : Exn} (h : asBool nm j = .error e) :
    e = ⟨.domainError, "Not a bool"⟩ := by
  cases j with
  | bool b => simp [asBool] at h
  | int n => simp [asBool] at h
  | double d => simp [asBool] at h
  | str s =>
    simp only [asBool] at h
    split at h
    · simp at h
    · exact (Except.error.inj h).symm
  | _ => exact (Except.error.inj h).symm

/-- What the template over number types uses of its type. -/
structure NumType where
  Carrier : Type
  as : Json → Except Exn Carrier
  less : Carrier → Carrier → Bool
  isInfinite : Carrier → Bool
  print : Carrier → String
  toJson : Carrier → Json

def NumType.integer (t : IntType) : NumType where
  Carrier := ℤ
  as := asInteger nm t
  less a b := decide (a < b)
  isInfinite _ := false
  print := t.print
  toJson := .int

/-- An exception with a message of the value library. -/
def conversionError (msg : String) : Exn := ⟨.runtimeError, msg⟩

def NumType.floating (as : Json → Except String Double) : NumType where
  Carrier := Double
  as j := (as j).mapError conversionError
  less := nm.less
  isInfinite d := match d with
    | .infinity _ => true
    | _ => false
  print := nm.print
  toJson := .double

def outOfBound (bound : String) (t : NumType) (cval : t.Carrier) (limit : Json) :
    Except Exn Unit :=
  match nm.asDouble limit with
  | .error e => .error (conversionError e)
  | .ok d => .error (.outOfBoundException
      ("Value " ++ t.print cval ++ " is out of bounds. Allowed " ++ bound ++ " is " ++
        nm.print d))

/-- A bound of the signal, when it has one. -/
def checkBound (key bound : String) (t : NumType) (violates : t.Carrier → t.Carrier → Bool)
    (cval : t.Carrier) (meta_ : Json) : Except Exn Unit :=
  match meta_.get? key with
  | none => .ok ()
  | some limit =>
      match t.as limit with
      | .error e => .error e
      | .ok l => if violates cval l then outOfBound nm bound t cval limit else .ok ()

def checkMin (t : NumType) (cval : t.Carrier) (meta_ : Json) : Except Exn Unit :=
  checkBound nm "min" "minimum" t t.less cval meta_

def checkMax (t : NumType) (cval : t.Carrier) (meta_ : Json) : Except Exn Unit :=
  checkBound nm "max" "maximum" t (fun c l => t.less l c) cval meta_

/-- The value left in `val`, or the exception. -/
def checkNumTypes (t : NumType) (meta_ val : Json) : Except Exn Json :=
  match t.as val with
  | .error e => .error (.outOfBoundException
      ("Value " ++ val.dump ++ " can not be converted to defined type " ++
        ((meta_.get? "datatype").map Json.asString).getD "" ++ ". Reason: " ++ e.what))
  | .ok cval =>
      if t.isInfinite cval then
        .error (.outOfBoundException "Value out of bounds. Reason: Infinity")
      else
        match checkMin nm t cval meta_ with
        | .error e => .error e
        | .ok () =>
            match checkMax nm t cval meta_ with
            | .error e => .error e
            | .ok () => .ok (t.toJson cval)

def checkBoolType (val : Json) : Except Exn Json :=
  let v := String.ofList (Text.eraseAll ['"'] val.asString.toList)
  if v = "true" then .ok (.bool true)
  else if v = "false" then .ok (.bool false)
  else .error (.outOfBoundException
    (val.asString ++ " is not a bool. Valid values are true and false "))

def checkEnumType (enumDefinition val : Json) : Except Exn Unit :=
  match enumDefinition.arrayRange with
  | .error e => .error e
  | .ok items =>
      if items.any fun item => decide (Json.str item.asString = val) then .ok ()
      else .error (.outOfBoundException
        (val.asString ++ " is a defined enum value. Valid values are " ++ enumDefinition.dump))

def checkEnumMember (meta_ : Json) (key : String) (val : Json) : Except Exn Unit :=
  match meta_.get? key with
  | none => .ok ()
  | some enumDefinition => checkEnumType enumDefinition val

/-- In VSS 3.0 the keyword `allowed` replaced `enum`; both are honoured. -/
def checkStringType (meta_ val : Json) : Except Exn Json :=
  match checkEnumMember meta_ "allowed" val with
  | .error e => .error e
  | .ok () =>
      match checkEnumMember meta_ "enum" val with
      | .error e => .error e
      | .ok () => .ok val

/-- The byte length of a text. -/
def utf8Length (cs : List Char) : ℕ := (cs.map Char.utf8Size).sum

/-- The characters before the last occurrence of the pattern. -/
def beforeLast (pat : List Char) : List Char → Option (List Char)
  | [] => none
  | c :: cs =>
      match beforeLast pat cs with
      | some ds => some (c :: ds)
      | none => if pat.isPrefixOf (c :: cs) then some [] else none

def npos : ℕ := 2 ^ 64 - 1

/-- `rfind`, with `npos` where there is no occurrence. -/
def rfind (pat cs : List Char) : ℕ := ((beforeLast pat cs).map utf8Length).getD npos

/-- The first `n` bytes of a text. -/
def takeBytes : ℕ → List Char → List Char
  | _, [] => []
  | n, c :: cs => if c.utf8Size ≤ n then c :: takeBytes (n - c.utf8Size) cs else []

/-- `dt.size() - 2` on unsigned 64-bit numbers. -/
def sizeMinusTwo (dt : String) : ℕ := (utf8Length dt.toList + (2 ^ 64 - 2)) % 2 ^ 64

def isArrayType (dt : String) : Bool := rfind ['[', ']'] dt.toList = sizeMinusTwo dt

def subDatatype (dt : String) : String := String.ofList (takeBytes (sizeMinusTwo dt) dt.toList)

/-- The number datatypes with their types, in the order they are tried. -/
def numTypes : List (String × NumType) :=
  [("uint8", .integer nm ⟨8, false⟩), ("int8", .integer nm ⟨8, true⟩),
   ("uint16", .integer nm ⟨16, false⟩), ("int16", .integer nm ⟨16, true⟩),
   ("uint32", .integer nm ⟨32, false⟩), ("int32", .integer nm ⟨32, true⟩),
   ("uint64", .integer nm ⟨64, false⟩), ("int64", .integer nm ⟨64, true⟩),
   ("float", .floating nm nm.asFloat), ("double", .floating nm nm.asDouble)]

def numTypeOf (dt : String) : Option NumType := Members.get? dt (numTypes nm)

/-- The dispatch on the datatype; the array check is the recursive part. -/
def dispatchType (checkArray : String → Except Exn Json) (meta_ val : Json) :
    Except Exn Json :=
  match meta_.member "datatype" with
  | .error e => .error e
  | .ok datatype =>
      let dt := datatype.asString
      match numTypeOf nm dt with
      | some t => checkNumTypes nm t meta_ val
      | none =>
          if dt = "boolean" then checkBoolType val
          else if dt = "string" then checkStringType meta_ val
          else if isArrayType dt then checkArray (subDatatype dt)
          else .error (.genException ("The datatype " ++ dt ++ " is not supported "))

def arrayConversionError (subdatatype : String) (val : Json) (reason : String) : Exn :=
  .outOfBoundException ("Value " ++ val.dump ++ " can not be converted to defined type " ++
    subdatatype ++ "[]. Reason: " ++ reason)

/- The elements of an array are checked on copies: what is left in `val` is `val`. -/
mutual
def checkAndSanitizeType (meta_ : Json) : Json → Except Exn Json
  | .arr vs => dispatchType nm (fun subdatatype =>
      match checkElements subdatatype vs with
      | .error e => .error (arrayConversionError subdatatype (.arr vs) e.what)
      | .ok () => .ok (.arr vs)) meta_ (.arr vs)
  | val => dispatchType nm (fun subdatatype =>
      .error (arrayConversionError subdatatype val "Not an array")) meta_ val

def checkElements (subdatatype : String) : List Json → Except Exn Unit
  | [] => .ok ()
  | v :: vs =>
      match checkAndSanitizeType (.obj [("datatype", .str subdatatype)]) v with
      | .error e => .error e
      | .ok _ => checkElements subdatatype vs
end

section Exceptions
variable {nm : Numerics}

/-- What the conversion of a value to a supported type throws. -/
def conversionKinds : List ExnKind := [.runtimeError, .domainError, .outOfBoundException]

theorem asInteger_throwsOnly (t : IntType) (j : Json) :
    ThrowsOnly conversionKinds (asInteger nm t j) := by
  unfold asInteger
  repeat' split
  all_goals simp [conversionKinds]

theorem defined_asInteger (t : IntType) (j : Json) : Defined (asInteger nm t j) :=
  (asInteger_throwsOnly t j).defined (by decide)

theorem outOfBound_throwsOnly (bound : String) (t : NumType) (cval : t.Carrier) (limit : Json) :
    ThrowsOnly conversionKinds (outOfBound nm bound t cval limit) := by
  unfold outOfBound
  split <;> simp [conversionError, Exn.outOfBoundException, conversionKinds]

theorem numTypeOf_throwsOnly {dt : String} {t : NumType} (h : numTypeOf nm dt = some t) (j : Json) :
    ThrowsOnly conversionKinds (t.as j) := by
  have hint (k : IntType) : ThrowsOnly conversionKinds ((NumType.integer nm k).as j) :=
    asInteger_throwsOnly k j
  have hfloat (as : Json → Except String Double) :
      ThrowsOnly conversionKinds ((NumType.floating nm as).as j) := by
    cases ha : as j <;>
      simp [NumType.floating, ha, Except.mapError, conversionError, conversionKinds]
  have hmem := Members.mem_of_get? h
  simp only [numTypes, List.mem_cons, Prod.mk.injEq, List.not_mem_nil, or_false] at hmem
  rcases hmem with ⟨-, rfl⟩ | ⟨-, rfl⟩ | ⟨-, rfl⟩ | ⟨-, rfl⟩ | ⟨-, rfl⟩ | ⟨-, rfl⟩ | ⟨-, rfl⟩ |
    ⟨-, rfl⟩ | ⟨-, rfl⟩ | ⟨-, rfl⟩ <;> first | exact hint _ | exact hfloat _

theorem checkBound_throwsOnly (key bound : String) {t : NumType}
    (ht : ∀ j, ThrowsOnly conversionKinds (t.as j)) (violates : t.Carrier → t.Carrier → Bool)
    (cval : t.Carrier) (meta_ : Json) :
    ThrowsOnly conversionKinds (checkBound nm key bound t violates cval meta_) := by
  unfold checkBound
  split
  · simp
  · rename_i limit _
    split
    · rename_i e he
      exact (ht limit).of_error he
    · split_ifs
      · exact outOfBound_throwsOnly bound t cval limit
      · simp

theorem checkNumTypes_throwsOnly {t : NumType} (ht : ∀ j, ThrowsOnly conversionKinds (t.as j))
    (meta_ val : Json) : ThrowsOnly conversionKinds (checkNumTypes nm t meta_ val) := by
  unfold checkNumTypes
  split
  · simp [Exn.outOfBoundException, conversionKinds]
  · rename_i cval _
    split_ifs
    · simp [Exn.outOfBoundException, conversionKinds]
    · split
      · rename_i e he
        exact (checkBound_throwsOnly _ _ ht _ cval meta_).of_error he
      · split
        · rename_i e he
          exact (checkBound_throwsOnly _ _ ht _ cval meta_).of_error he
        · simp

theorem checkBoolType_throwsOnly (val : Json) : ThrowsOnly conversionKinds (checkBoolType val) := by
  simp only [checkBoolType]
  split_ifs <;> simp [Exn.outOfBoundException, conversionKinds]

theorem checkEnumMember_throwsOnly (meta_ : Json) (key : String) (val : Json) :
    ThrowsOnly conversionKinds (checkEnumMember meta_ key val) := by
  unfold checkEnumMember
  split
  · simp
  · rename_i enumDefinition _
    cases enumDefinition with
    | arr items =>
      simp only [checkEnumType, Json.arrayRange]
      split_ifs <;> simp [Exn.outOfBoundException, conversionKinds]
    | _ => simp [checkEnumType, Json.arrayRange, conversionKinds]

theorem checkStringType_throwsOnly (meta_ val : Json) :
    ThrowsOnly conversionKinds (checkStringType meta_ val) := by
  unfold checkStringType
  split
  · rename_i e he
    exact (checkEnumMember_throwsOnly meta_ "allowed" val).of_error he
  · split
    · rename_i e he
      exact (checkEnumMember_throwsOnly meta_ "enum" val).of_error he
    · simp

variable (nm) in
/-- The datatypes that a value can be converted to. -/
def SupportedDatatype (dt : String) : Prop :=
  (numTypeOf nm dt).isSome ∨ dt = "boolean" ∨ dt = "string" ∨ isArrayType dt = true

/-- A supported datatype throws conversion errors, any other one is reported as generic. -/
theorem dispatchType_throws {checkArray : String → Except Exn Json}
    (ha : ∀ dt, ThrowsOnly conversionKinds (checkArray dt)) {meta_ datatype : Json}
    (hd : meta_.get? "datatype" = some datatype) (val : Json) :
    (SupportedDatatype nm datatype.asString →
        ThrowsOnly conversionKinds (dispatchType nm checkArray meta_ val)) ∧
      (¬ SupportedDatatype nm datatype.asString →
        ∃ msg, dispatchType nm checkArray meta_ val = .error (.genException msg)) := by
  unfold dispatchType SupportedDatatype
  simp only [Json.member_of_get? hd]
  cases ht : numTypeOf nm datatype.asString with
  | some t =>
    simp only [Option.isSome_some, true_or, forall_const, not_true_eq_false, false_implies,
      and_true]
    exact checkNumTypes_throwsOnly (numTypeOf_throwsOnly ht) meta_ val
  | none =>
    simp only [Option.isSome_none, Bool.false_eq_true, false_or]
    split_ifs with h1 h2 h3
    · simpa [h1] using checkBoolType_throwsOnly val
    · simpa [h2] using checkStringType_throwsOnly meta_ val
    · simpa [h3] using ha _
    · simp [h1, h2, h3]

theorem arrayConversionError_throwsOnly (dt : String) (v : Json) (reason : String) {α : Type*} :
    ThrowsOnly conversionKinds (.error (arrayConversionError dt v reason) : Except Exn α) := by
  simp [arrayConversionError, Exn.outOfBoundException, conversionKinds]

theorem checkElements_throwsOnly (vs : List Json) (dt : String) :
    ThrowsOnly conversionKinds (match checkElements nm dt vs with
      | .error e => .error (arrayConversionError dt (.arr vs) e.what)
      | .ok () => .ok (Json.arr vs)) := by
  split
  · exact arrayConversionError_throwsOnly _ _ _
  · simp

variable (nm) in
theorem checkAndSanitizeType_throws {meta_ datatype : Json}
    (hd : meta_.get? "datatype" = some datatype) (val : Json) :
    (SupportedDatatype nm datatype.asString →
        ThrowsOnly conversionKinds (checkAndSanitizeType nm meta_ val)) ∧
      (¬ SupportedDatatype nm datatype.asString →
        ∃ msg, checkAndSanitizeType nm meta_ val = .error (.genException msg)) := by
  cases val with
  | arr vs =>
    unfold checkAndSanitizeType
    exact dispatchType_throws (checkElements_throwsOnly vs) hd _
  | _ =>
    unfold checkAndSanitizeType
    exact dispatchType_throws (fun _ => arrayConversionError_throwsOnly _ _ _) hd _

/-- The sanitizer throws nothing that a last `catch` misses. -/
theorem defined_checkAndSanitizeType (meta_ val : Json) :
    Defined (checkAndSanitizeType nm meta_ val) := by
  cases hd : meta_.get? "datatype" with
  | none =>
    have hm (checkArray : String → Except Exn Json) :
        Defined (dispatchType nm checkArray meta_ val) := by
      unfold dispatchType
      cases hm : meta_.member "datatype" with
      | error e => rcases Json.member_error_kind hm with h | h <;> simp [h]
      | ok datatype => simp [Json.member_eq_ok.mp hm] at hd
    cases val <;>
    · unfold checkAndSanitizeType
      exact hm _
  | some datatype =>
    obtain ⟨hs, hn⟩ := checkAndSanitizeType_throws nm hd val
    by_cases h : SupportedDatatype nm datatype.asString
    · exact (hs h).defined (by decide)
    · obtain ⟨msg, he⟩ := hn h
      simp [he, Exn.genException]

end Exceptions
