import KuksaVal.VSSTypeSanitizer

/-! Schemas of the requests and their validation. -/

inductive SchemaType where
  | object
  | string
  | integer
  | null
  deriving DecidableEq, Repr

/-- The part of the schema language that the requests use. No types and no enumeration
leave a value free; required members and properties bind objects. -/
inductive Schema where
  | mk (types : List SchemaType) (enum : List String) (required : List String)
      (properties : List (String × Schema))

namespace VSSRequestValidator

def action (actions : List String) : Schema := .mk [] actions [] []

def attributeSchema : Schema := .mk [] ["targetValue", "value"] [] []

def path : Schema := .mk [.string] [] [] []

def requestId : Schema := .mk [.string] [] [] []

def subscriptionId : Schema := .mk [.string] [] [] []

def metadata : Schema := .mk [.object] [] [] []

def integer : Schema := .mk [.integer] [] [] []

def filters : Schema := .mk [.object, .null] [] []
  [("interval", integer),
   ("range", .mk [.object] [] [] [("below", integer), ("above", integer)]),
   ("minChange", integer)]

def schemaGet : Schema := .mk [.object] [] ["action", "path", "requestId"]
  [("action", action ["get", "getMetaData"]), ("attribute", attributeSchema), ("path", path),
   ("requestId", requestId)]

def schemaSet : Schema := .mk [.object] [] ["action", "path", "requestId"]
  [("action", action ["set"]), ("attribute", attributeSchema), ("path", path),
   ("requestId", requestId)]

def schemaSubscribe : Schema := .mk [.object] [] ["action", "path", "requestId"]
  [("action", action ["subscribe"]), ("path", path), ("attribute", attributeSchema),
   ("filters", filters), ("requestId", requestId)]

def schemaUnsubscribe : Schema := .mk [.object] [] ["action", "subscriptionId", "requestId"]
  [("action", action ["unsubscribe"]), ("subscriptionId", subscriptionId),
   ("requestId", requestId)]

def schemaUpdateVSSTree : Schema := .mk [.object] [] ["action", "metadata", "requestId"]
  [("action", action ["updateVSSTree"]), ("metadata", metadata), ("requestId", requestId)]

def schemaUpdateMetadata : Schema := .mk [.object] [] ["action", "path", "metadata", "requestId"]
  [("action", action ["updateMetaData"]), ("path", path), ("metadata", metadata),
   ("requestId", requestId)]

variable (nm : Numerics)

def hasType : SchemaType → Json → Bool
  | .object, j => j.isObject
  | .string, .str _ => true
  | .integer, .int _ => true
  | .integer, .double d => nm.isIntegral d
  | .null, .null => true
  | _, _ => false

mutual
def valid : Schema → Json → Bool
  | .mk types enum required properties, j =>
      (types.isEmpty || types.any fun t => hasType nm t j) &&
      (enum.isEmpty || enum.any fun v => decide (j = .str v)) &&
      (!j.isObject || (required.all (j.contains ·) && validProperties properties j))

def validProperties : List (String × Schema) → Json → Bool
  | [], _ => true
  | (k, s) :: ps, j =>
      (match j.get? k with
        | some v => valid s v
        | none => true) && validProperties ps j
end

/-- Report every violation in one exception. -/
def validate (report : Schema → Json → String) (schema : Schema) (request : Json) :
    Except Exn Unit :=
  if valid nm schema request then .ok ()
  else .error ⟨.schemaError, report schema request⟩

/-- A valid object has the members that its schema requires. -/
theorem get?_of_valid {enum required : List String} {properties : List (String × Schema)}
    {j : Json} (h : valid nm (.mk [.object] enum required properties) j = true) {k : String}
    (hk : k ∈ required) : ∃ v, j.get? k = some v := by
  simp only [valid, hasType, List.any_cons, List.any_nil, Bool.or_false, List.isEmpty_cons,
    Bool.false_or, Bool.and_eq_true, Bool.or_eq_true, Bool.not_eq_true', List.all_eq_true] at h
  obtain ⟨⟨ho, -⟩, hm⟩ := h
  rw [ho] at hm
  have hc := (hm.resolve_left (by simp)).1 k hk
  exact Option.isSome_iff_exists.mp hc

theorem valid_of_validProperties {properties : List (String × Schema)} {j v : Json} {k : String}
    {s : Schema} (h : validProperties nm properties j = true) (hs : (k, s) ∈ properties)
    (hv : j.get? k = some v) : valid nm s v = true := by
  induction properties with
  | nil => simp at hs
  | cons p ps ih =>
    obtain ⟨l, t⟩ := p
    obtain ⟨hp, hps⟩ : _ ∧ validProperties nm ps j = true := by
      simpa only [validProperties, Bool.and_eq_true] using h
    rcases List.mem_cons.mp hs with he | hs
    · obtain ⟨rfl, rfl⟩ := Prod.mk.inj he
      simpa [hv] using hp
    · exact ih hps hs

/-- A member of a valid object meets the schema of its property. -/
theorem property_of_valid {types : List SchemaType} {enum required : List String}
    {properties : List (String × Schema)} {j v : Json} {k : String} {s : Schema}
    (h : valid nm (.mk types enum required properties) j = true) (hs : (k, s) ∈ properties)
    (hv : j.get? k = some v) : valid nm s v = true := by
  simp only [valid, Bool.and_eq_true, Bool.or_eq_true, Bool.not_eq_true'] at h
  have ho : ¬ j.isObject = false := by simp [Json.isObject_of_get? hv]
  exact valid_of_validProperties nm (h.2.resolve_left ho).2 hs hv

theorem validate_eq_ok_iff {report : Schema → Json → String} {schema : Schema} {request : Json}
    {u : Unit} : validate nm report schema request = .ok u ↔ valid nm schema request = true := by
  unfold validate
  split_ifs with h <;> simp [h]

theorem not_valid_of_error {report : Schema → Json → String} {schema : Schema} {request : Json}
    {e : Exn} (h : validate nm report schema request = .error e) :
    valid nm schema request = false := by
  unfold validate at h
  split_ifs at h with hv
  simpa using hv

def tryExtractRequestId (request : Json) : Except Exn String :=
  match request with
  | .obj ms => .ok (((Members.get? "requestId" ms).map Json.asString).getD "UNKNOWN")
  | _ => .error ⟨.notAnObject,
      "Attempting to access a member 'requestId' on a value that is not an object"⟩

end VSSRequestValidator
