import KuksaVal.Text
import KuksaVal.VSSPath
import KuksaVal.Exception
import KuksaVal.KuksaChannel
import Mathlib.Data.List.Infix

/-! Access to a path by the permissions of a channel: its own entry, or else the last entry
whose pattern matches. -/

/-- `std::regex`: a pattern is malformed or decides which texts match as a whole. -/
structure StdRegex where
  compile : String → Except String (String → Bool)

namespace StdRegex

/-- A character, any character, or any text. -/
inductive Item where
  | char (c : Char)
  | any
  | anyText
  deriving DecidableEq, Repr

def items : List Char → Option (List Item)
  | [] => some []
  | '.' :: '*' :: cs => (items cs).map (.anyText :: ·)
  | '.' :: cs => (items cs).map (.any :: ·)
  | c :: cs => if Json.isIdentChar c then (items cs).map (.char c :: ·) else none

def matchesText : List Item → List Char → Bool
  | [], cs => cs.isEmpty
  | .char c :: is, d :: cs => d = c && matchesText is cs
  | .any :: is, _ :: cs => matchesText is cs
  | .anyText :: is, cs => cs.tails.any (matchesText is)
  | _ :: _, [] => false

/-- Patterns of identifier characters, `.` and `.*`; any other pattern is refused. -/
def dotted : StdRegex where
  compile p := match items p.toList with
    | some is => .ok fun s => matchesText is s.toList
    | none => .error "regex_error"

end StdRegex

namespace AccessChecker
open Text

variable (rx : StdRegex)

/-- The pattern of a permission key: `*` stands for any text. -/
def pathPattern (key : String) : String :=
  String.ofList (replaceAll ['*'] ['.', '*'] key.toList)

def pathRegex (key : String) : Except Exn (String → Bool) :=
  match rx.compile (pathPattern key) with
  | .ok r => .ok r
  | .error e => .error ⟨.regexError, e⟩

/-- The value of the last entry whose pattern matches the path. -/
def matchPermissions (path : String) : List (String × Json) → String → Except Exn String
  | [], value => .ok value
  | (key, perm) :: ps, value =>
      match pathRegex rx key with
      | .error e => .error e
      | .ok r => matchPermissions path ps (if r path then perm.asString else value)

/-- The entry whose key is the path itself, nothing where there is none. -/
def ownPermission (permissions : List (String × Json)) (path : String) : String :=
  ((Members.get? path permissions).map Json.asString).getD ""

def permissionValue (permissions : List (String × Json)) (path : String) :
    Except Exn String :=
  let value := ownPermission permissions path
  if value = "" then matchPermissions rx path permissions value else .ok value

def checkSignalAccess (channel : KuksaChannel) (path requiredPermission : String) :
    Except Exn Bool :=
  (permissionValue rx channel.permissions path).map fun value =>
    decide (requiredPermission.toList <:+: value.toList)

def checkReadAccess (channel : KuksaChannel) (path : VSSPath) : Except Exn Bool :=
  checkSignalAccess rx channel path.getVSSGen1Path "r"

def checkWriteAccess (channel : KuksaChannel) (path : VSSPath) : Except Exn Bool :=
  checkSignalAccess rx channel path.getVSSGen1Path "w"

theorem checkSignalAccess_exact {channel : KuksaChannel} {path : String} {v : Json}
    (h : Members.get? path channel.permissions = some v) (hv : v.asString ≠ "")
    (required : String) :
    checkSignalAccess rx channel path required =
      .ok (decide (required.toList <:+: v.asString.toList)) := by
  simp [checkSignalAccess, permissionValue, ownPermission, h, hv, Except.map]

/-- A channel without permissions is refused whatever it asks for. -/
theorem checkSignalAccess_nil {channel : KuksaChannel} (h : channel.permissions = [])
    (path : String) {required : String} (hr : required ≠ "") :
    checkSignalAccess rx channel path required = .ok false := by
  simp [checkSignalAccess, permissionValue, ownPermission, matchPermissions, h, Except.map, hr]

variable {rx} in
theorem permissions_of_access {channel : KuksaChannel} {path required : String} (hr : required ≠ "")
    (h : checkSignalAccess rx channel path required = .ok true) : channel.permissions ≠ [] := by
  intro hperm
  rw [checkSignalAccess_nil rx hperm path hr] at h
  simp at h

variable {rx} in
/-- Reading asks for permissions. -/
theorem permissions_of_readAccess {channel : KuksaChannel} {path : VSSPath}
    (h : checkReadAccess rx channel path = .ok true) : channel.permissions ≠ [] :=
  permissions_of_access (show "r" ≠ "" by decide) h

variable {rx} in
/-- Writing asks for permissions. -/
theorem permissions_of_writeAccess {channel : KuksaChannel} {path : VSSPath}
    (h : checkWriteAccess rx channel path = .ok true) : channel.permissions ≠ [] :=
  permissions_of_access (show "w" ≠ "" by decide) h

/-- Every pattern that can be reached is well formed. -/
def PatternsCompile (permissions : List (String × Json)) : Prop :=
  ∀ p ∈ permissions, ∃ r, rx.compile (pathPattern p.1) = .ok r

theorem matchPermissions_isOk (path : String) (ps : List (String × Json)) (value : String) :
    (∃ v, matchPermissions rx path ps value = .ok v) ↔ PatternsCompile rx ps := by
  induction ps generalizing value with
  | nil => simp [matchPermissions, PatternsCompile]
  | cons p ps ih =>
    obtain ⟨key, perm⟩ := p
    cases hc : rx.compile (pathPattern key) with
    | error e => simp [matchPermissions, pathRegex, PatternsCompile, hc]
    | ok r =>
      simp only [matchPermissions, pathRegex, hc, ih]
      simp [PatternsCompile, hc]

theorem matchPermissions_error {path : String} {ps : List (String × Json)} {value : String}
    {e : Exn} (h : matchPermissions rx path ps value = .error e) : e.kind = .regexError := by
  induction ps generalizing value with
  | nil => simp [matchPermissions] at h
  | cons p ps ih =>
    obtain ⟨key, perm⟩ := p
    unfold matchPermissions pathRegex at h
    split at h
    · rename_i e' hr
      split at hr
      · simp at hr
      · simp only [Except.error.injEq] at hr h
        rw [← h, ← hr]
    · exact ih h

/-- A check is decided when the path has an entry of its own or every pattern can be built. -/
theorem checkSignalAccess_isOk_iff (channel : KuksaChannel) (path required : String) :
    (∃ b, checkSignalAccess rx channel path required = .ok b) ↔
      ownPermission channel.permissions path ≠ "" ∨ PatternsCompile rx channel.permissions := by
  rw [← matchPermissions_isOk rx path channel.permissions ""]
  unfold checkSignalAccess permissionValue
  by_cases hv : ownPermission channel.permissions path = ""
  · simp only [hv, ↓reduceIte]
    cases matchPermissions rx path channel.permissions "" <;> simp [Except.map]
  · simp [hv, Except.map]

/-- A check throws only what the construction of a pattern throws. -/
theorem checkSignalAccess_error {channel : KuksaChannel} {path required : String} {e : Exn}
    (h : checkSignalAccess rx channel path required = .error e) : e.kind = .regexError := by
  unfold checkSignalAccess permissionValue at h
  simp only at h
  split_ifs at h with hv
  · cases hm : matchPermissions rx path channel.permissions
      (ownPermission channel.permissions path) with
    | error e' =>
      simp only [hm, Except.map, Except.error.injEq] at h
      exact h ▸ matchPermissions_error rx hm
    | ok v => simp [hm, Except.map] at h
  · simp [Except.map] at h

end AccessChecker
