import KuksaVal.Json.Members

/-! JSON values. Integers are exact; a finite binary floating-point number is carried by its
shortest decimal text, which determines it. Objects list their members. -/

/-- Decimal text of a number: it starts with a digit or a minus sign. -/
structure Decimal where
  text : String
  numeral : (text.toList.head?.any fun c => c.isDigit || c = '-') = true
  deriving DecidableEq, Repr

inductive Double where
  | finite (d : Decimal)
  | infinity (negative : Bool)
  | nan
  deriving DecidableEq, Repr

inductive Json where
  | null
  | bool (b : Bool)
  | int (i : ℤ)
  | double (d : Double)
  | str (s : String)
  | arr (elems : List Json)
  | obj (members : List (String × Json))
  deriving Repr, Inhabited

namespace Json

/-- Induction over values, with the members of containers as premises. -/
@[elab_as_elim, induction_eliminator]
theorem induct {P : Json → Prop} (null : P .null) (bool : ∀ b, P (.bool b))
    (int : ∀ i, P (.int i)) (double : ∀ d, P (.double d)) (str : ∀ s, P (.str s))
    (arr : ∀ xs, (∀ x ∈ xs, P x) → P (.arr xs))
    (obj : ∀ ms, (∀ m ∈ ms, P m.2) → P (.obj ms)) (j : Json) : P j :=
  @Json.rec P (fun xs => ∀ x ∈ xs, P x) (fun ms => ∀ m ∈ ms, P m.2) (fun m => P m.2)
    null bool int double str arr obj (by simp)
    (fun x xs hx hxs => by simpa using ⟨hx, hxs⟩) (by simp)
    (fun m ms hm hms => by
      rintro n hn
      rcases List.mem_cons.mp hn with rfl | hn
      · exact hm
      · exact hms n hn)
    (fun _ _ h => h) j

mutual
def decEq : (a b : Json) → Decidable (a = b)
  | .null, b => match b with
    | .null => isTrue rfl
    | .bool _ | .int _ | .double _ | .str _ | .arr _ | .obj _ => isFalse (by simp)
  | .bool a, b => match b with
    | .bool b => decidable_of_iff (a = b) (by simp)
    | .null | .int _ | .double _ | .str _ | .arr _ | .obj _ => isFalse (by simp)
  | .int a, b => match b with
    | .int b => decidable_of_iff (a = b) (by simp)
    | .null | .bool _ | .double _ | .str _ | .arr _ | .obj _ => isFalse (by simp)
  | .double a, b => match b with
    | .double b => decidable_of_iff (a = b) (by simp)
    | .null | .bool _ | .int _ | .str _ | .arr _ | .obj _ => isFalse (by simp)
  | .str a, b => match b with
    | .str b => decidable_of_iff (a = b) (by simp)
    | .null | .bool _ | .int _ | .double _ | .arr _ | .obj _ => isFalse (by simp)
  | .arr a, b => match b with
    | .arr b => @decidable_of_iff _ (a = b) (by simp) (decEqElems a b)
    | .null | .bool _ | .int _ | .double _ | .str _ | .obj _ => isFalse (by simp)
  | .obj a, b => match b with
    | .obj b => @decidable_of_iff _ (a = b) (by simp) (decEqMembers a b)
    | .null | .bool _ | .int _ | .double _ | .str _ | .arr _ => isFalse (by simp)

def decEqElems : (a b : List Json) → Decidable (a = b)
  | [], [] => isTrue rfl
  | [], _ :: _ => isFalse (by simp)
  | _ :: _, [] => isFalse (by simp)
  | x :: xs, y :: ys =>
    match decEq x y, decEqElems xs ys with
    | isTrue h, isTrue h' => isTrue (by rw [h, h'])
    | isFalse h, _ => isFalse (by simp [h])
    | _, isFalse h => isFalse (by simp [h])

def decEqMembers : (a b : List (String × Json)) → Decidable (a = b)
  | [], [] => isTrue rfl
  | [], _ :: _ => isFalse (by simp)
  | _ :: _, [] => isFalse (by simp)
  | (k, x) :: xs, (l, y) :: ys =>
    match decEq x y, decEqMembers xs ys with
    | isTrue h, isTrue h' => decidable_of_iff (k = l) (by simp [h, h'])
    | isFalse h, _ => isFalse (by simp [h])
    | _, isFalse h => isFalse (by simp [h])
end

instance : DecidableEq Json := decEq

/-- The member of an object; nothing on other values. -/
def get? (k : String) : Json → Option Json
  | .obj ms => Members.get? k ms
  | _ => none

def contains (k : String) (j : Json) : Bool := (j.get? k).isSome

def isObject : Json → Bool
  | .obj _ => true
  | _ => false

/-- Number of elements of a container; zero on other values. -/
def size : Json → ℕ
  | .arr xs => xs.length
  | .obj ms => ms.length
  | _ => 0

/-- `insert_or_assign` on an object. Other values are left alone here; callers that
would raise an error on them check first. -/
def insertOrAssign (j : Json) (k : String) (v : Json) : Json :=
  match j with
  | .obj ms => .obj (Members.assign k v ms)
  | j => j

@[simp] theorem get?_insertOrAssign (k l : String) (v : Json) {j : Json}
    (h : j.isObject = true) :
    (j.insertOrAssign k v).get? l = if l = k then some v else j.get? l := by
  cases j <;> simp_all [isObject, insertOrAssign, get?]

@[simp] theorem isObject_insertOrAssign (k : String) (v j : Json) :
    (j.insertOrAssign k v).isObject = j.isObject := by
  cases j <;> rfl

theorem isObject_of_get? {k : String} {j v : Json} (h : j.get? k = some v) :
    j.isObject = true := by
  cases j <;> simp_all [get?, isObject]

theorem isObject_of_contains {k : String} {j : Json} (h : j.contains k = true) :
    j.isObject = true := by
  obtain ⟨v, hv⟩ := Option.isSome_iff_exists.mp h
  exact isObject_of_get? hv

def escapeChar (c : Char) : List Char :=
  if c = '"' then ['\\', '"']
  else if c = '\\' then ['\\', '\\']
  else if c = '\n' then ['\\', 'n']
  else if c = '\r' then ['\\', 'r']
  else if c = '\t' then ['\\', 't']
  else [c]

def quoted (s : String) : String := "\"" ++ String.ofList (s.toList.flatMap escapeChar) ++ "\""

/- Compact serialization. -/
mutual
def dump : Json → String
  | .null => "null"
  | .bool true => "true"
  | .bool false => "false"
  | .int i => toString i
  | .double (.finite d) => d.text
  | .double _ => "null"
  | .str s => quoted s
  | .arr xs => "[" ++ String.intercalate "," (dumpElems xs) ++ "]"
  | .obj ms => "\x7b" ++ String.intercalate "," (dumpMembers ms) ++ "\x7d"

def dumpElems : List Json → List String
  | [] => []
  | x :: xs => dump x :: dumpElems xs

def dumpMembers : List (String × Json) → List String
  | [] => []
  | (k, v) :: ms => (quoted k ++ ":" ++ dump v) :: dumpMembers ms
end

/-- `as<std::string>`: a string as it is, every other value serialized. -/
def asString : Json → String
  | .str s => s
  | j => j.dump

@[simp] theorem asString_str (s : String) : (str s).asString = s := rfl

/-- First character of every serialization other than a string's. -/
def startsDump (c : Char) : Bool := c.isDigit || c ∈ ['-', 'n', 't', 'f', '[', '\x7b']

theorem dump_start (j : Json) (h : ∀ s, j ≠ .str s) :
    (j.dump.toList.head?.any startsDump) = true := by
  cases j with
  | null => decide
  | bool b => cases b <;> decide
  | int i =>
    simp only [dump, Int.toString_eq_repr, Int.repr_eq_if]
    split_ifs
    · have hn : i.toNat.repr.toList = Nat.toDigits 10 i.toNat := by
        rw [Nat.repr_eq_ofList_toDigits, String.toList_ofList]
      cases hd : Nat.toDigits 10 i.toNat with
      | nil => exact absurd hd Nat.toDigits_ne_nil
      | cons c cs =>
        have hc : c.isDigit = true :=
          Nat.isDigit_of_mem_toDigits (by decide) (by decide) (hd ▸ List.mem_cons_self)
        simp [hn, hd, startsDump, hc]
    · simp [startsDump]
  | double d =>
    cases d with
    | finite d =>
      have hd := d.numeral
      cases ht : d.text.toList with
      | nil => simp [ht] at hd
      | cons c cs =>
        simp only [ht, List.head?_cons, Option.any_some, Bool.or_eq_true] at hd
        simp only [dump, ht, List.head?_cons, Option.any_some, startsDump]
        rcases hd with hd | hd
        · simp [hd]
        · simp_all
    | infinity b => simp [dump, startsDump]
    | nan => simp [dump, startsDump]
  | str s => exact absurd rfl (h s)
  | arr xs => simp [dump, startsDump]
  | obj ms => simp [dump, startsDump]

theorem asString_eq_iff {s : String} (h : (s.toList.head?.any startsDump) = false) (j : Json) :
    j.asString = s ↔ j = .str s := by
  cases j with
  | str t => simp
  | _ =>
    simp only [asString, reduceCtorEq, iff_false]
    rintro rfl
    rw [dump_start _ (by simp)] at h
    exact Bool.noConfusion h

/- Every object below has increasing keys. -/
mutual
def ordered : Json → Bool
  | .arr xs => orderedElems xs
  | .obj ms => decide (Members.Increasing ms) && orderedMembers ms
  | _ => true

def orderedElems : List Json → Bool
  | [] => true
  | x :: xs => ordered x && orderedElems xs

def orderedMembers : List (String × Json) → Bool
  | [] => true
  | (_, v) :: ms => ordered v && orderedMembers ms
end

@[simp] theorem ordered_arr (xs : List Json) :
    (arr xs).ordered = true ↔ ∀ x ∈ xs, x.ordered = true := by
  have h : orderedElems xs = true ↔ ∀ x ∈ xs, x.ordered = true := by
    induction xs with
    | nil => simp [orderedElems]
    | cons x xs ih => simp [orderedElems, ih]
  simpa [ordered] using h

@[simp] theorem ordered_obj (ms : List (String × Json)) :
    (obj ms).ordered = true ↔ Members.Increasing ms ∧ ∀ m ∈ ms, m.2.ordered = true := by
  have h : orderedMembers ms = true ↔ ∀ m ∈ ms, m.2.ordered = true := by
    induction ms with
    | nil => simp [orderedMembers]
    | cons m ms ih => obtain ⟨k, v⟩ := m; simp [orderedMembers, ih]
  simp [ordered, h]

theorem ordered_get? {k : String} {j v : Json} (hj : j.ordered = true)
    (h : j.get? k = some v) : v.ordered = true := by
  cases j with
  | obj ms => exact ((ordered_obj ms).mp hj).2 (k, v) (Members.mem_of_get? h)
  | _ => simp [get?] at h

theorem ordered_insertOrAssign {k : String} {j v : Json} (hj : j.ordered = true)
    (hv : v.ordered = true) : (j.insertOrAssign k v).ordered = true := by
  cases j with
  | obj ms =>
    obtain ⟨hi, hm⟩ := (ordered_obj ms).mp hj
    refine (ordered_obj _).mpr ⟨hi.assign k v, ?_⟩
    rintro ⟨l, w⟩ hl
    have hg := Members.get?_of_mem (hi.assign k v).nodup hl
    rw [Members.get?_assign] at hg
    split_ifs at hg with he
    · exact Option.some.inj hg ▸ hv
    · exact hm _ (Members.mem_of_get? hg)
  | _ => exact hj

/-- A value as the parser builds it. -/
abbrev Document := { j : Json // j.ordered = true }

end Json
