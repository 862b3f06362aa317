import KuksaVal.Datatypes
import KuksaVal.Dictionary
import KuksaVal.MetadataRegister

/-! The client of the uploader: what it makes of the responses of the server. -/

/-- What the client raises. -/
inductive ClientError where
  | kuksaClientError (code : ℤ) (reason message : Json)
  | keyError (key : Json)
  | typeError
  | attributeError
  | valueError

/-- The types of columns. -/
inductive PyArrowType where
  | int8 | int16 | int32 | int64 | uint8 | uint16 | uint32 | uint64 | bool | float64 | float32
  | string
  deriving DecidableEq

namespace KuksaVALServerClient
open Json

def kuksaToPyArrowMapping : String → Option PyArrowType
  | "int8" => some .int8
  | "int16" => some .int16
  | "int32" => some .int32
  | "int64" => some .int64
  | "uint8" => some .uint8
  | "uint16" => some .uint16
  | "uint32" => some .uint32
  | "uint64" => some .uint64
  | "boolean" => some .bool
  | "double" => some .float64
  | "float" => some .float32
  | "string" => some .string
  | _ => none

/-- A member of a decoded response. -/
def item (j : Json) (key : String) : Except ClientError Json :=
  match j with
  | .obj ms =>
      match Members.get? key ms with
      | some v => .ok v
      | none => .error (.keyError (.str key))
  | _ => .error .typeError

variable (nm : Numerics)

/-- A number, or the number that a text is. -/
def int : Json → Except ClientError ℤ
  | .int n => .ok n
  | .bool b => .ok (if b then 1 else 0)
  | .double d => .ok (nm.truncate d)
  | .str s =>
      match Numerics.readNumeral s with
      | some n => .ok n
      | none => .error .valueError
  | _ => .error .typeError

def fromViss (vissError : Json) : Except ClientError ClientError :=
  match (item vissError "number").bind (int nm) with
  | .error e => .error e
  | .ok code =>
      match item vissError "reason" with
      | .error e => .error e
      | .ok reason => (item vissError "message").map (.kuksaClientError code reason)

def raiseIfInvalid (response : Json) : Except ClientError Unit :=
  match response with
  | .obj ms =>
      match Members.get? "error" ms with
      | none | some .null => .ok ()
      | some error =>
          match fromViss nm error with
          | .error e => .error e
          | .ok e => .error e
  | _ => .error .attributeError

/-- The value in a response to a get; there is none where it is not available. -/
def valueOf (response : Json) : Except ClientError (Option Json) :=
  match raiseIfInvalid nm response with
  | .error (.kuksaClientError code reason message) =>
      if code = 404 ∧ reason = .str "unavailable_data" then .ok none
      else .error (.kuksaClientError code reason message)
  | .error e => .error e
  | .ok () =>
      (((item response "data").bind (item · "dp")).bind (item · "value")).map some

/-- The keys on the way to a datatype. -/
def datatypeKeys (path : String) : List String :=
  let children := path.toList.flatMap fun c => if c = '.' then ".children.".toList else [c]
  (("metadata.".toList ++ children ++ ".datatype".toList).splitOn '.').map String.ofList

/-- The type of a column, by its datatype. -/
def mapped : Json → Except ClientError PyArrowType
  | .str datatype =>
      match kuksaToPyArrowMapping datatype with
      | some t => .ok t
      | none => .error (.keyError (.str datatype))
  | .obj _ | .arr _ => .error .typeError
  | j => .error (.keyError j)

/-- The type of a column, from a response to a request for metadata. -/
def datatypeOf (path : String) (response : Json) : Except ClientError PyArrowType :=
  match raiseIfInvalid nm response with
  | .error e => .error e
  | .ok () => ((datatypeKeys path).foldlM item response).bind mapped

/-- The loop over the paths, each with the response to it. -/
def collect {α : Type*} (read : String → Json → Except ClientError α) :
    List (String × Json) → List (String × α) → Except ClientError (List (String × α))
  | [], d => .ok d
  | (path, response) :: rest, d =>
      match read path response with
      | .error e => .error e
      | .ok v => collect read rest (Dictionary.setItem path v d)

def getDatatypes (responses : List (String × Json)) :
    Except ClientError (List (String × PyArrowType)) := collect (datatypeOf nm) responses []

def getValues (responses : List (String × Json)) :
    Except ClientError (List (String × Option Json)) :=
  collect (fun _ => valueOf nm) responses []

section Loop
variable {α : Type*} {read : String → Json → Except ClientError α}
  {responses : List (String × Json)} {d d' : List (String × α)}

/-- The loop ends where every response can be read, with what was read of the last one to a path. -/
theorem collect_eq_ok_iff : collect read responses d = .ok d' ↔
    ∃ vs, List.Forall₂ (fun p v => read p.1 p.2 = .ok v) responses vs ∧
      d' = ((responses.map Prod.fst).zip vs).foldl (fun d i => Dictionary.setItem i.1 i.2 d) d := by
  induction responses generalizing d with
  | nil =>
    simp only [collect, Except.ok.injEq, List.forall₂_nil_left_iff, List.map_nil, List.zip_nil_left,
      List.foldl_nil, exists_eq_left]
    exact eq_comm
  | cons p rest ih =>
    obtain ⟨path, response⟩ := p
    cases hr : read path response with
    | error e => simp [collect, hr, List.forall₂_cons_left_iff]
    | ok v =>
      simp only [collect, hr, ih, List.forall₂_cons_left_iff, Except.ok.injEq]
      constructor
      · rintro ⟨vs, hvs, rfl⟩
        exact ⟨v :: vs, ⟨v, vs, rfl, hvs, rfl⟩, rfl⟩
      · rintro ⟨-, ⟨-, vs, rfl, hvs, rfl⟩, rfl⟩
        exact ⟨vs, hvs, rfl⟩

theorem collect_ofItems : collect read responses [] = .ok d' ↔
    ∃ vs, List.Forall₂ (fun p v => read p.1 p.2 = .ok v) responses vs ∧
      d' = Dictionary.ofItems ((responses.map Prod.fst).zip vs) := collect_eq_ok_iff

/-- What the loop raises is raised by one of the responses. -/
theorem collect_eq_error {e : ClientError} (h : collect read responses d = .error e) :
    ∃ p ∈ responses, read p.1 p.2 = .error e := by
  induction responses generalizing d with
  | nil => simp [collect] at h
  | cons p rest ih =>
    obtain ⟨path, response⟩ := p
    cases hr : read path response with
    | error e' =>
      obtain rfl : e' = e := by simpa [collect, hr] using h
      exact ⟨_, List.mem_cons_self, hr⟩
    | ok v =>
      obtain ⟨p, hp, he⟩ := ih (by simpa only [collect, hr] using h)
      exact ⟨p, List.mem_cons_of_mem _ hp, he⟩

/-- The keys of what the loop returns are the paths, whatever is read. -/
theorem keys_collect (h : collect read responses [] = .ok d) :
    d.map Prod.fst = (responses.map Prod.fst).eraseDups := by
  obtain ⟨vs, hvs, rfl⟩ := collect_ofItems.mp h
  have hlen := hvs.length_eq
  rw [Dictionary.keys_ofItems, List.map_fst_zip (by simp [hlen])]

/-- The columns of a table are those of the schema, in one order. -/
theorem columns_eq {nm' : Numerics} {responses' : List (String × Json)}
    {datatypes : List (String × PyArrowType)} {values : List (String × Option Json)}
    (hd : getDatatypes nm responses = .ok datatypes) (hv : getValues nm' responses' = .ok values)
    (h : responses.map Prod.fst = responses'.map Prod.fst) :
    values.map Prod.fst = datatypes.map Prod.fst := by
  rw [keys_collect hv, keys_collect hd, h]

end Loop

section Responses
variable {nm} {response j : Json}

theorem item_eq_ok_iff {key : String} {v : Json} : item j key = .ok v ↔ j.get? key = some v := by
  cases j with
  | obj ms => cases h : Members.get? key ms <;> simp [item, get?, h]
  | _ => simp [item, get?]

theorem fromViss_errorObject {number reason message : String} {n : ℤ}
    (hn : Numerics.readNumeral number = some n) :
    fromViss nm (JsonResponses.errorObject number reason message) =
      .ok (.kuksaClientError n (.str reason) (.str message)) := by
  have hitem (key : String) (v : Json)
      (h : Members.get? key ([("number", .str number), ("reason", .str reason),
        ("message", .str message)] : List (String × Json)).reverse = some v) :
      item (JsonResponses.errorObject number reason message) key = .ok v :=
    item_eq_ok_iff.mpr ((JsonResponses.get?_ofMembers key _).trans h)
  have hnumber := hitem "number" (.str number) rfl
  have hreason := hitem "reason" (.str reason) rfl
  have hmessage := hitem "message" (.str message) rfl
  simp [fromViss, hnumber, hreason, hmessage, Except.bind, int, hn, Except.map]

/-- An answer with an error is raised with its number. -/
theorem raiseIfInvalid_errorAnswer {ck : Clock} {action : Option String}
    {requestId number reason message : String} {n : ℤ}
    (hn : Numerics.readNumeral number = some n) :
    raiseIfInvalid nm (JsonResponses.errorAnswer ck action requestId number reason message) =
      .error (.kuksaClientError n (.str reason) (.str message)) := by
  have hget : (JsonResponses.errorAnswer ck action requestId number reason message).get? "error" =
      some (JsonResponses.errorObject number reason message) := by
    unfold JsonResponses.errorAnswer
    rw [JsonResponses.get?_ofMembers]
    cases action <;> simp [Members.get?_cons]
  obtain ⟨ms, hms⟩ : ∃ ms, JsonResponses.errorAnswer ck action requestId number reason message =
      .obj ms := ⟨_, rfl⟩
  rw [hms] at hget ⊢
  have hraised : fromViss nm (JsonResponses.errorObject number reason message) =
      .ok (.kuksaClientError n (.str reason) (.str message)) := fromViss_errorObject hn
  obtain ⟨es, hes⟩ : ∃ es, JsonResponses.errorObject number reason message = .obj es := ⟨_, rfl⟩
  rw [hes] at hget hraised
  simp only [get?] at hget
  simp only [raiseIfInvalid, hget, hraised]

theorem raiseIfInvalid_ok (ho : response.isObject = true) (hn : response.get? "error" = none) :
    raiseIfInvalid nm response = .ok () := by
  cases response with
  | obj ms =>
    simp only [get?] at hn
    simp [raiseIfInvalid, hn]
  | _ => simp [isObject] at ho

end Responses

end KuksaVALServerClient
