import KuksaVal.VSSTypeSanitizer

/-! Responses and timestamps. -/

/-- What the clock and the calendar of the system answer during one request. -/
structure Clock where
  timeStamp : String
  seconds : ℤ
  nanoseconds : ℤ
  /-- `strftime` of a number of seconds, up to and with the decimal point. -/
  calendar : ℤ → String

namespace JsonResponses
open Json

/-- Of the members an object is built from, the last one of a name counts. -/
theorem get?_ofMembers (k : String) (ms : List (String × Json)) :
    (ofMembers ms).get? k = Members.get? k ms.reverse := by
  simp [ofMembers, get?, Members.get?_foldl_assign]

/-- The member `error` of an answer. -/
def errorObject (number reason message : String) : Json :=
  ofMembers [("number", .str number), ("reason", .str reason), ("message", .str message)]

/-- An answer that reports an error. -/
def errorAnswer (ck : Clock) (action : Option String) (requestId number reason message : String) :
    Json :=
  ofMembers ((action.map fun a => [("action", Json.str a)]).getD [] ++
    [("requestId", .str requestId), ("error", errorObject number reason message),
      ("ts", .str ck.timeStamp)])

theorem errorAnswer_contains_error (ck : Clock) (action : Option String)
    (requestId number reason message : String) :
    (errorAnswer ck action requestId number reason message).contains "error" = true := by
  unfold errorAnswer contains
  rw [get?_ofMembers]
  cases action <;> simp [Members.get?_cons]

/-- An answer that reports an error has no other content. -/
theorem errorAnswer_get? (ck : Clock) (action : Option String)
    (requestId number reason message : String) {k : String}
    (hk : k ∉ ["action", "requestId", "error", "ts"]) :
    (errorAnswer ck action requestId number reason message).get? k = none := by
  unfold errorAnswer
  rw [get?_ofMembers]
  cases action <;> simp_all [Members.get?_cons]

variable (ck : Clock)

def malFormedRequest (requestId action message : String) : Json :=
  errorAnswer ck (some action) requestId "400" "Bad Request" message

/-- The answer to a request that could not be taken apart. -/
def malFormedMessage (message requestId : String) : Json :=
  errorAnswer ck none requestId "400" "Bad Request" message

def notSetResponse (requestId message : String) : Json :=
  errorAnswer ck (some "get") requestId "404" "unavailable_data" message

def pathNotFound (requestId action path : String) : Json :=
  errorAnswer ck (some action) requestId "404" "Path not found"
    ("I can not find " ++ path ++ " in my db")

def noAccess (requestId action message : String) : Json :=
  errorAnswer ck (some action) requestId "403" "Forbidden" message

def valueOutOfBounds (requestId action message : String) : Json :=
  errorAnswer ck (some action) requestId "400" "Value passed is out of bounds" message

def getTimeStampZero : String := "1970-01-01T00:00:00.0Z"

def addTimeStampToJSON (target : Json) (suffix : String) : Json :=
  (target.insertOrAssign ("ts_s" ++ suffix) (.int ck.seconds)).insertOrAssign
    ("ts_ns" ++ suffix) (.int ck.nanoseconds)

def eraseMember (j : Json) (k : String) : Json :=
  match j with
  | .obj ms => .obj (Members.erase k ms)
  | j => j

@[simp] theorem get?_eraseMember (j : Json) (k l : String) :
    (eraseMember j k).get? l = if l = k then none else j.get? l := by
  cases j <;> simp [eraseMember, get?]

@[simp] theorem isObject_eraseMember (j : Json) (k : String) :
    (eraseMember j k).isObject = j.isObject := by
  cases j <;> rfl

variable (nm : Numerics)

/-- Replace the two numbers of a timestamp by its text. -/
def convertJSONTimeStampToISO8601 (target : Json) : Except Exn Json :=
  match target.get? "ts_s", target.get? "ts_ns" with
  | some s, some ns =>
      match asInteger nm ⟨64, false⟩ s with
      | .error e => .error e
      | .ok sec =>
          match asInteger nm ⟨32, false⟩ ns with
          | .error e => .error e
          | .ok nsec => .ok ((eraseMember (eraseMember target "ts_s") "ts_ns").insertOrAssign "ts"
              (.str (ck.calendar sec ++ toString nsec ++ "Z")))
  | _, _ =>
      let target := target.insertOrAssign "ts" (.str getTimeStampZero)
      .ok (eraseMember (eraseMember target "ts_s") "ts_ns")

/-- Whole numbers are converted, and no member other than the timestamp changes. -/
theorem convertJSONTimeStampToISO8601_int {target : Json} {s ns : ℤ}
    (ho : target.isObject = true) (hs : target.get? "ts_s" = some (.int s))
    (hns : target.get? "ts_ns" = some (.int ns)) :
    ∃ d, convertJSONTimeStampToISO8601 ck nm target = .ok d ∧
      ∀ k, k ≠ "ts_s" → k ≠ "ts_ns" → k ≠ "ts" → d.get? k = target.get? k := by
  refine ⟨_, by simp only [convertJSONTimeStampToISO8601, hs, hns, asInteger]; rfl, ?_⟩
  intro k h1 h2 h3
  simp [ho, h1, h2, h3]

/-- Members other than those of the timestamp stay as they are. -/
theorem convertJSONTimeStampToISO8601_get? {target d : Json} (ho : target.isObject = true)
    (h : convertJSONTimeStampToISO8601 ck nm target = .ok d) {k : String}
    (hk : k ∉ ["ts_s", "ts_ns", "ts"]) : d.get? k = target.get? k := by
  simp only [List.mem_cons, List.not_mem_nil, or_false, not_or] at hk
  obtain ⟨h1, h2, h3⟩ := hk
  unfold convertJSONTimeStampToISO8601 at h
  split at h
  · split at h
    · simp at h
    · split at h
      · simp at h
      · obtain rfl := Except.ok.inj h
        simp [ho, h1, h2, h3]
  · obtain rfl := Except.ok.inj h
    simp [ho, h1, h2, h3]

end JsonResponses
