import KuksaVal.Json.Value

/-! Exceptions of the server and of its libraries, and the accesses to a value that throw. -/

inductive ExnKind where
  | serError
  | keyNotFound
  | notAnObject
  | jsonpathError
  | regexError
  | schemaError
  | domainError
  | outOfRange
  | runtimeError
  | noPathFoundonTree
  | genException
  | noPermissionException
  | outOfBoundException
  | notValidException
  | notSetException
  /-- The base class: what is left of an exception that was caught as one and thrown by value. -/
  | stdException
  /-- No C++ exception: the program has no defined behaviour from here on. -/
  | undefinedBehaviour
  deriving DecidableEq, Repr

structure Exn where
  kind : ExnKind
  what : String
  deriving DecidableEq, Repr

namespace Exn

def noPathFoundonTree (path : String) : Exn :=
  ⟨.noPathFoundonTree, "Path " ++ path ++ " not found on the VSS Tree"⟩

def genException (msg : String) : Exn := ⟨.genException, msg⟩

def noPermissionException (msg : String) : Exn := ⟨.noPermissionException, msg⟩

def outOfBoundException (msg : String) : Exn := ⟨.outOfBoundException, msg⟩

def notValidException (msg : String) : Exn := ⟨.notValidException, msg⟩

def notSetException (msg : String) : Exn := ⟨.notSetException, msg⟩

def jsonpathError (msg : String) : Exn := ⟨.jsonpathError, msg⟩

end Exn

/-- Whatever is thrown is an exception, so that a last `catch` can answer it. -/
def Defined {α : Type*} (r : Except Exn α) : Prop :=
  ∀ e, r = .error e → e.kind ≠ .undefinedBehaviour

section Defined
variable {α β : Type*}

@[simp] theorem defined_ok (a : α) : Defined (.ok a : Except Exn α) := by simp [Defined]

@[simp] theorem defined_error (e : Exn) :
    Defined (.error e : Except Exn α) ↔ e.kind ≠ .undefinedBehaviour := by simp [Defined]

@[simp] theorem defined_map (f : α → β) (r : Except Exn α) : Defined (r.map f) ↔ Defined r := by
  cases r <;> simp [Except.map]

theorem Defined.of_error {r : Except Exn α} (h : Defined r) {e : Exn} (he : r = .error e) :
    Defined (.error e : Except Exn β) := by simpa using h e he

end Defined

/-- Whatever is thrown is of one of these kinds. -/
def ThrowsOnly (kinds : List ExnKind) {α : Type*} (r : Except Exn α) : Prop :=
  ∀ e, r = .error e → e.kind ∈ kinds

section ThrowsOnly
variable {α β : Type*} {kinds : List ExnKind}

@[simp] theorem throwsOnly_ok (a : α) : ThrowsOnly kinds (.ok a : Except Exn α) := by
  simp [ThrowsOnly]

@[simp] theorem throwsOnly_error (e : Exn) :
    ThrowsOnly kinds (.error e : Except Exn α) ↔ e.kind ∈ kinds := by simp [ThrowsOnly]

@[simp] theorem throwsOnly_map (f : α → β) (r : Except Exn α) :
    ThrowsOnly kinds (r.map f) ↔ ThrowsOnly kinds r := by
  cases r <;> simp [Except.map]

theorem ThrowsOnly.of_error {r : Except Exn α} (h : ThrowsOnly kinds r) {e : Exn}
    (he : r = .error e) : ThrowsOnly kinds (.error e : Except Exn β) := by simpa using h e he

theorem ThrowsOnly.mono {kinds' : List ExnKind} {r : Except Exn α} (h : ThrowsOnly kinds r)
    (hk : kinds ⊆ kinds') : ThrowsOnly kinds' r := fun e he => hk (h e he)

theorem ThrowsOnly.defined {r : Except Exn α} (h : ThrowsOnly kinds r)
    (hk : .undefinedBehaviour ∉ kinds) : Defined r := by
  intro e he hu
  exact hk (hu ▸ h e he)

end ThrowsOnly

namespace Json

/-- `j[key]` for reading. -/
def member (j : Json) (k : String) : Except Exn Json :=
  match j with
  | .obj ms =>
      match Members.get? k ms with
      | some v => .ok v
      | none => .error ⟨.keyNotFound, "Key '" ++ k ++ "' not found"⟩
  | _ => .error ⟨.notAnObject,
      "Attempting to access a member '" ++ k ++ "' on a value that is not an object"⟩

/-- `j[i]` on an array. -/
def elementAt (xs : List Json) (i : ℕ) : Except Exn Json :=
  match xs[i]? with
  | some v => .ok v
  | none => .error ⟨.outOfRange, "Invalid array subscript"⟩

def objectRange : Json → Except Exn (List (String × Json))
  | .obj ms => .ok ms
  | _ => .error ⟨.domainError, "Not an object"⟩

def arrayRange : Json → Except Exn (List Json)
  | .arr xs => .ok xs
  | _ => .error ⟨.domainError, "Not an array"⟩

/-- `insert_or_assign` as the library has it, with its error on other values. -/
def tryInsertOrAssign (j : Json) (k : String) (v : Json) : Except Exn Json :=
  if j.isObject then .ok (j.insertOrAssign k v)
  else .error ⟨.notAnObject,
    "Attempting to set a member '" ++ k ++ "' on a value that is not an object"⟩

/-- Shallow member-wise insert or assign. -/
def mergeOrUpdate : Json → Json → Except Exn Json
  | .obj ms, .obj ns => .ok (.obj (ns.foldl (fun d m => Members.assign m.1 m.2 d) ms))
  | _, _ => .error ⟨.domainError, "Attempting to merge or update a value that is not an object"⟩

theorem mergeOrUpdate_throwsOnly (j source : Json) :
    ThrowsOnly [.domainError] (j.mergeOrUpdate source) := by
  unfold mergeOrUpdate
  split <;> simp

theorem mergeOrUpdate_isOk_iff {j source : Json} :
    (∃ r, j.mergeOrUpdate source = .ok r) ↔ j.isObject = true ∧ source.isObject = true := by
  cases j <;> cases source <;> simp [mergeOrUpdate, isObject]

/-- An object built by assigning members to an empty one. -/
def ofMembers (ms : List (String × Json)) : Json :=
  .obj (ms.foldl (fun d m => Members.assign m.1 m.2 d) [])

theorem member_of_get? {j v : Json} {k : String} (h : j.get? k = some v) :
    j.member k = .ok v := by
  cases j <;> simp_all [get?, member]

theorem member_eq_ok {j v : Json} {k : String} : j.member k = .ok v ↔ j.get? k = some v := by
  cases j with
  | obj ms => cases h : Members.get? k ms <;> simp [member, get?, h]
  | _ => simp [member, get?]

/-- A member can be taken where it is contained, and only there. -/
theorem contains_of_member {j v : Json} {k : String} (h : j.member k = .ok v) :
    j.contains k = true := by
  simp [contains, member_eq_ok.mp h]

theorem contains_of_member_error {j : Json} {k : String} {e : Exn} (h : j.member k = .error e) :
    j.contains k = false := by
  cases hg : j.get? k with
  | none => simp [contains, hg]
  | some v => simp [member_of_get? hg] at h

theorem member_error_kind {j : Json} {k : String} {e : Exn} (h : j.member k = .error e) :
    e.kind = .keyNotFound ∨ e.kind = .notAnObject := by
  cases j with
  | obj ms =>
    cases hg : Members.get? k ms with
    | some v => simp [member, hg] at h
    | none =>
      simp only [member, hg, Except.error.injEq] at h
      simp [← h]
  | _ =>
    simp only [member, Except.error.injEq] at h
    simp [← h]

end Json
