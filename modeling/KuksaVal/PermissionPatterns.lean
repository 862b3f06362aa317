import KuksaVal.AccessChecker
import KuksaVal.Wildcard

/-! What the patterns of a permission object grant: the last key that matches decides, and a dot
in a key matches any character. -/
namespace StdRegex

/-- What a dot of a regular expression does not match: a line feed and a carriage return. -/
def lineBreaks : List UInt8 := [10, 13]

/-- The bytes of a text. -/
def bytes (s : String) : List UInt8 := s.toList.flatMap String.utf8EncodeChar

/-- ECMAScript on the bytes of a text: a dot is any byte that does not break the line. -/
def matchesBytes : List Item → List UInt8 → Bool
  | [], bs => bs.isEmpty
  | .char c :: is, b :: bs => b.toNat = c.toNat && matchesBytes is bs
  | .any :: is, b :: bs => b ∉ lineBreaks && matchesBytes is bs
  | .anyText :: is, bs => (List.range (bs.length + 1)).any fun n =>
      (bs.take n).all (fun b => b ∉ lineBreaks) && matchesBytes is (bs.drop n)
  | _ :: _, [] => false

/-- Patterns of identifier characters, `.` and `.*` are compiled as in ECMAScript. -/
def Ecma (rx : StdRegex) : Prop :=
  ∀ (p : String) (is : List Item), items p.toList = some is →
    ∃ r, rx.compile p = .ok r ∧ ∀ s, r s = matchesBytes is (bytes s)

/-- ECMAScript for these patterns; any other pattern is refused. -/
def ecmaScript : StdRegex where
  compile p := match items p.toList with
    | some is => .ok fun s => matchesBytes is (bytes s)
    | none => .error "regex_error"

theorem ecmaScript_ecma : ecmaScript.Ecma := by
  intro p is h
  refine ⟨fun s => matchesBytes is (bytes s), ?_, fun _ => rfl⟩
  simp only [ecmaScript, h]

end StdRegex

namespace AccessChecker
open Text StdRegex Wildcard

/-- A key of identifier characters, dots and `*`. -/
def PatternKey (key : String) : Prop :=
  ∀ c ∈ key.toList, Json.isIdentChar c = true ∨ c = '.' ∨ c = '*'

instance (key : String) : Decidable (PatternKey key) :=
  decidable_of_iff (key.toList.all fun c => Json.isIdentChar c || c = '.' || c = '*')
    (by simp [PatternKey, or_assoc])

/-- A key as a glob: `*` stands for any text, another character for itself. -/
def GlobMatches (key path : String) : Prop :=
  matchPattern '*' (fun k c => decide (k = '*' ∨ c = k)) key.toList path.toList = true

/-- What the characters of a key stand for in its pattern, byte by byte. -/
def allowsByte (k : Char) (b : UInt8) : Bool :=
  if k = '*' ∨ k = '.' then b ∉ lineBreaks else b.toNat = k.toNat

/-- A key whose dots stand for any byte, and whose `*` for any bytes, that do not break the line. -/
def DotMatches (key path : String) : Prop :=
  matchPattern '*' allowsByte key.toList (bytes path) = true

instance (key path : String) : Decidable (GlobMatches key path) :=
  inferInstanceAs (Decidable (_ = true))

instance (key path : String) : Decidable (DotMatches key path) :=
  inferInstanceAs (Decidable (_ = true))

/-- The value of an entry contains the permission. -/
def Holds (required : String) (entry : String × Json) : Prop :=
  required.toList <:+: entry.2.asString.toList

instance (required : String) (entry : String × Json) : Decidable (Holds required entry) :=
  inferInstanceAs (Decidable (_ <:+: _))

variable {rx : StdRegex} {key path required : String} {channel : KuksaChannel}

theorem globMatches_self (path : String) : GlobMatches path path :=
  matchPattern_self (by simp) path.toList

section Patterns

/-- The item of a regular expression that a character of a key becomes. -/
def itemOf (c : Char) : Item :=
  if c = '*' then .anyText else if c = '.' then .any else .char c

theorem replaceAll_star (cs : List Char) :
    replaceAll ['*'] ['.', '*'] ('*' :: cs) = '.' :: '*' :: replaceAll ['*'] ['.', '*'] cs :=
  replaceAll_match '*' [] ['.', '*'] cs

theorem items_dot {cs : List Char} (h : cs.head? ≠ some '*') :
    items ('.' :: cs) = (items cs).map (.any :: ·) := by
  cases cs with
  | nil => rfl
  | cons c cs =>
    have hc : c ≠ '*' := fun e => h (by simp [e])
    simp [items, hc]

theorem items_char {c : Char} (h : Json.isIdentChar c = true) (cs : List Char) :
    items (c :: cs) = (items cs).map (.char c :: ·) := by
  have hc : c ≠ '.' := by
    rintro rfl
    exact absurd h (by decide)
  simp [items, hc, h]

theorem head?_replaceAll_ne (cs : List Char) :
    (replaceAll ['*'] ['.', '*'] cs).head? ≠ some '*' := by
  cases cs with
  | nil => simp
  | cons c cs =>
    by_cases hc : c = '*'
    · simp [hc, replaceAll_star]
    · simp [replaceAll_cons_of_ne hc, hc]

/-- Each character of a key is one item of its pattern. -/
theorem items_pathPattern {cs : List Char}
    (h : ∀ c ∈ cs, Json.isIdentChar c = true ∨ c = '.' ∨ c = '*') :
    items (replaceAll ['*'] ['.', '*'] cs) = some (cs.map itemOf) := by
  induction cs with
  | nil => rfl
  | cons c cs ih =>
    rw [List.forall_mem_cons] at h
    have ih := ih h.2
    rcases h.1 with hc | rfl | rfl
    · have hstar : c ≠ '*' := by
        rintro rfl
        exact absurd hc (by decide)
      have hdot : c ≠ '.' := by
        rintro rfl
        exact absurd hc (by decide)
      rw [replaceAll_cons_of_ne hstar, items_char hc, ih]
      simp [itemOf, hstar, hdot]
    · rw [replaceAll_cons_of_ne (by decide), items_dot (head?_replaceAll_ne cs), ih]
      rfl
    · rw [replaceAll_star]
      simp [items, ih, itemOf]

/-- The items of a key match what its characters stand for. -/
theorem matchesBytes_items (ks : List Char) (w : List UInt8) :
    matchesBytes (ks.map itemOf) w = matchPattern '*' allowsByte ks w := by
  induction ks generalizing w with
  | nil => cases w <;> rfl
  | cons k ks ih =>
    rw [List.map_cons]
    by_cases hstar : k = '*'
    · subst hstar
      rw [matchPattern_star]
      simp only [itemOf, ↓reduceIte, matchesBytes, ih]
      rfl
    · cases w with
      | nil =>
        rw [matchPattern_letter_nil hstar]
        by_cases hdot : k = '.' <;> simp [itemOf, hstar, hdot, matchesBytes]
      | cons b bs =>
        rw [matchPattern_letter hstar]
        by_cases hdot : k = '.' <;> simp [itemOf, hstar, hdot, matchesBytes, allowsByte, ih]

variable (rx) in
/-- The pattern of the key can be built and matches the path. -/
def KeyMatches (path key : String) : Prop := ∃ r, pathRegex rx key = .ok r ∧ r path = true

theorem pathRegex_ecma (hrx : rx.Ecma) (hkey : PatternKey key) :
    ∃ r, rx.compile (pathPattern key) = .ok r ∧
      ∀ path, r path = true ↔ DotMatches key path := by
  have hitems : items (pathPattern key).toList = some (key.toList.map itemOf) := by
    rw [pathPattern, String.toList_ofList, items_pathPattern hkey]
  obtain ⟨r, hr, hmatch⟩ := hrx _ _ hitems
  refine ⟨r, hr, ?_⟩
  intro path
  rw [hmatch path, matchesBytes_items, DotMatches]

theorem keyMatches_iff (hrx : rx.Ecma) (hkey : PatternKey key) :
    KeyMatches rx path key ↔ DotMatches key path := by
  obtain ⟨r, hr, hmatch⟩ := pathRegex_ecma hrx hkey
  simp [KeyMatches, pathRegex, hr, hmatch path]

end Patterns

section Decision

/-- The last entry that matches decides, if there is one, and else the initial value. -/
theorem matchPermissions_holds_iff (ps : List (String × Json)) (value : String) :
    (∃ v, matchPermissions rx path ps value = .ok v ∧ required.toList <:+: v.toList) ↔
      PatternsCompile rx ps ∧
        (LastHas (fun m => KeyMatches rx path m.1) (Holds required) ps ∨
          (required.toList <:+: value.toList ∧ ∀ m ∈ ps, ¬ KeyMatches rx path m.1)) := by
  induction ps generalizing value with
  | nil => simp [matchPermissions, PatternsCompile, not_lastHas_nil]
  | cons p ps ih =>
    obtain ⟨key, perm⟩ := p
    cases hc : rx.compile (pathPattern key) with
    | error e => simp [matchPermissions, pathRegex, PatternsCompile, hc]
    | ok r =>
      have hm : KeyMatches rx path key ↔ r path = true := by simp [KeyMatches, pathRegex, hc]
      have hcomp : PatternsCompile rx ((key, perm) :: ps) ↔ PatternsCompile rx ps := by
        simp [PatternsCompile, hc]
      simp only [matchPermissions, pathRegex, hc, ih, lastHas_cons, List.forall_mem_cons, hm, hcomp]
      by_cases hr : r path = true
      · simp [hr, Holds]
      · simp [hr]

/-- The entry of the path itself decides where it says something. -/
theorem checkSignalAccess_own (h : ownPermission channel.permissions path ≠ "") :
    checkSignalAccess rx channel path required =
      .ok (decide (required.toList <:+: (ownPermission channel.permissions path).toList)) := by
  simp [checkSignalAccess, permissionValue, h, Except.map]

/-- Elsewhere the last entry that matches decides. -/
theorem checkSignalAccess_patterns_iff (hr : required ≠ "")
    (h : ownPermission channel.permissions path = "") :
    checkSignalAccess rx channel path required = .ok true ↔
      PatternsCompile rx channel.permissions ∧
        LastHas (fun m => KeyMatches rx path m.1) (Holds required) channel.permissions := by
  have hempty : ¬ required.toList <:+: ("" : String).toList := by
    simpa using hr
  have hiff : (∃ v, matchPermissions rx path channel.permissions "" = .ok v ∧
      required.toList <:+: v.toList) ↔ _ := matchPermissions_holds_iff channel.permissions ""
  simp only [hempty, false_and, or_false] at hiff
  rw [← hiff]
  simp only [checkSignalAccess, permissionValue, h, ↓reduceIte]
  cases matchPermissions rx path channel.permissions "" <;> simp [Except.map]

/-- An entry of the path that says something is one of the entries. -/
theorem mem_of_ownPermission (h : ownPermission channel.permissions path ≠ "") :
    ∃ v, (path, v) ∈ channel.permissions ∧ v.asString = ownPermission channel.permissions path := by
  unfold ownPermission at *
  cases hg : Members.get? path channel.permissions with
  | none => simp [hg] at h
  | some v => exact ⟨v, Members.mem_of_get? hg, rfl⟩

end Decision

section Dots

/-- A permission that is granted comes from a key that matches the path as a glob. -/
def WithinGlobs (rx : StdRegex) (channel : KuksaChannel) (path required : String) : Prop :=
  checkSignalAccess rx channel path required = .ok true →
    ∃ m ∈ channel.permissions, Holds required m ∧ GlobMatches m.1 path

/-- Whatever entry with the permission matches through its dots, a later one matches as well,
unless the path has an entry of its own or the permission by a glob. -/
def DotsDoNotDecide (permissions : List (String × Json)) (path required : String) : Prop :=
  ownPermission permissions path ≠ "" ∨
    (∃ m ∈ permissions, Holds required m ∧ GlobMatches m.1 path) ∨
    ∀ pre m post, permissions = pre ++ m :: post → Holds required m → DotMatches m.1 path →
      ∃ m' ∈ post, DotMatches m'.1 path

/-- Access stays within the globs exactly where no dot decides. -/
theorem withinGlobs_iff (rx : StdRegex) (channel : KuksaChannel) (path required : String)
    (hrx : rx.Ecma) (hkeys : ∀ m ∈ channel.permissions, PatternKey m.1)
    (hr : required ≠ "") :
    WithinGlobs rx channel path required ↔
      DotsDoNotDecide channel.permissions path required := by
  unfold WithinGlobs DotsDoNotDecide
  by_cases hown : ownPermission channel.permissions path = ""
  · have hcomp : PatternsCompile rx channel.permissions := by
      intro m hm
      obtain ⟨r, hr, -⟩ := pathRegex_ecma hrx (hkeys m hm)
      exact ⟨r, hr⟩
    have hlast : LastHas (fun m => KeyMatches rx path m.1) (Holds required) channel.permissions ↔
        LastHas (fun m => DotMatches m.1 path) (Holds required) channel.permissions :=
      lastHas_congr fun m hm => keyMatches_iff hrx (hkeys m hm)
    rw [checkSignalAccess_patterns_iff hr hown, hlast, ← not_lastHas_iff]
    simp only [hcomp, hown, true_and, ne_eq, not_true_eq_false, false_or]
    exact imp_iff_or_not
  · simp only [ne_eq, hown, not_false_eq_true, true_or, iff_true]
    rw [checkSignalAccess_own hown]
    intro h
    obtain ⟨v, hv, hvown⟩ := mem_of_ownPermission hown
    refine ⟨(path, v), hv, ?_, globMatches_self path⟩
    unfold Holds
    rw [hvown]
    simpa using h

/-- A channel that may read one signal. -/
def doorChannel : KuksaChannel := { permissions := [("Vehicle.Cabin.Door", .str "r")] }

theorem doorChannel_keys : ∀ m ∈ doorChannel.permissions, PatternKey m.1 := by decide +kernel

theorem withinGlobs_door : WithinGlobs .ecmaScript doorChannel "Vehicle.Cabin.Seat" "r" := by
  refine (withinGlobs_iff .ecmaScript doorChannel "Vehicle.Cabin.Seat" "r" ecmaScript_ecma
    doorChannel_keys (by decide)).mpr (.inr (.inr ?_))
  intro pre m post h _ hm
  have hmem : m ∈ doorChannel.permissions := h ▸ by simp
  obtain rfl := List.mem_singleton.mp hmem
  exact absurd hm (by decide)

/-- The right to read `Vehicle.Cabin.Door` is a right to read `Vehicle.Cabin_Door`. -/
theorem withinGlobs_otherSignal :
    checkSignalAccess .ecmaScript doorChannel "Vehicle.Cabin_Door" "r" = .ok true ∧
      (∀ m ∈ doorChannel.permissions, ¬ GlobMatches m.1 "Vehicle.Cabin_Door") ∧
      ¬ WithinGlobs .ecmaScript doorChannel "Vehicle.Cabin_Door" "r" := by
  have hgrant : checkSignalAccess .ecmaScript doorChannel "Vehicle.Cabin_Door" "r" = .ok true := by
    decide +kernel
  have hglob : ∀ m ∈ doorChannel.permissions, ¬ GlobMatches m.1 "Vehicle.Cabin_Door" := by decide
  refine ⟨hgrant, hglob, ?_⟩
  intro h
  obtain ⟨m, hm, -, hmatch⟩ := h hgrant
  exact hglob m hm hmatch

end Dots

section Wildcards

/-- An entry with a wildcard that matches the path and holds the permission. -/
def WildcardGrant (rx : StdRegex) (path required : String) (m : String × Json) : Prop :=
  '*' ∈ m.1.toList ∧ KeyMatches rx path m.1 ∧ Holds required m

/-- One wildcard that grants the permission is enough. -/
def WildcardsAdd (rx : StdRegex) (channel : KuksaChannel) (path required : String) : Prop :=
  (∃ m ∈ channel.permissions, WildcardGrant rx path required m) →
    checkSignalAccess rx channel path required = .ok true

/-- An entry that matches without holding the permission has another match after it. -/
def NeverLast (rx : StdRegex) (permissions : List (String × Json)) (path required : String) :
    Prop :=
  ∀ pre m post, permissions = pre ++ m :: post → KeyMatches rx path m.1 → ¬ Holds required m →
    ∃ m' ∈ post, KeyMatches rx path m'.1

theorem ownPermission_of_not_key {permissions : List (String × Json)}
    (h : Members.get? path permissions = none) : ownPermission permissions path = "" := by
  simp [ownPermission, h]

/-- Wildcards add up exactly where no refusal is the last match, and a further one keeps access
exactly where it is not itself the last match and a refusal. -/
theorem wildcardsAdd_iff (rx : StdRegex) (channel : KuksaChannel) (path required : String)
    (hr : required ≠ "") (hkey : Members.get? path channel.permissions = none) :
    (WildcardsAdd rx channel path required ↔
      ((∃ m ∈ channel.permissions, WildcardGrant rx path required m) →
        PatternsCompile rx channel.permissions ∧
          NeverLast rx channel.permissions path required)) ∧
    ∀ pre m post, channel.permissions = pre ++ post → '*' ∈ m.1.toList → m.1 ≠ path →
      checkSignalAccess rx channel path required = .ok true →
      (checkSignalAccess rx (channel.setPermissions (pre ++ m :: post)) path required = .ok true ↔
        (∃ r, rx.compile (pathPattern m.1) = .ok r) ∧
          (KeyMatches rx path m.1 → Holds required m ∨ ∃ m' ∈ post, KeyMatches rx path m'.1)) := by
  have hgranted : checkSignalAccess rx channel path required = .ok true ↔ _ :=
    checkSignalAccess_patterns_iff hr (ownPermission_of_not_key hkey)
  constructor
  · unfold WildcardsAdd NeverLast
    refine imp_congr_right ?_
    rintro ⟨m, hm, -, hmatch, -⟩
    rw [hgranted, lastHas_iff]
    simp only [show ∃ m ∈ channel.permissions, KeyMatches rx path m.1 from ⟨m, hm, hmatch⟩,
      true_and]
  · intro pre m post hperm _ hne hgrant
    obtain ⟨hcomp, hlast⟩ := hgranted.mp hgrant
    rw [hperm] at hkey hcomp hlast
    have hkey' : Members.get? path (pre ++ m :: post) = none := by
      rw [Members.get?_eq_none_iff] at hkey ⊢
      simp only [List.map_append, List.map_cons, List.mem_append, List.mem_cons] at hkey ⊢
      rintro (h | rfl | h)
      · exact hkey (.inl h)
      · exact hne rfl
      · exact hkey (.inr h)
    have hcomp' : PatternsCompile rx (pre ++ m :: post) ↔
        ∃ r, rx.compile (pathPattern m.1) = .ok r := by
      unfold PatternsCompile at hcomp ⊢
      rw [List.forall_mem_append] at hcomp ⊢
      rw [List.forall_mem_cons]
      tauto
    rw [checkSignalAccess_patterns_iff hr (ownPermission_of_not_key hkey')]
    exact and_congr hcomp' hlast.insert_iff

/-- Everything below `Vehicle` may be read and written, by the first entry. -/
def obdChannel : KuksaChannel :=
  { permissions := [("Vehicle.*", .str "rw"), ("Vehicle.OBD.*", .str "r")] }

theorem wildcardsAdd_read : WildcardsAdd .ecmaScript obdChannel "Vehicle.OBD.Speed" "r" := by
  have hholds : ∀ m ∈ obdChannel.permissions, Holds "r" m := by decide
  refine (wildcardsAdd_iff .ecmaScript obdChannel "Vehicle.OBD.Speed" "r" (by decide) rfl).1.mpr ?_
  intro _
  constructor
  · intro m hm
    have hkeys : ∀ m ∈ obdChannel.permissions, PatternKey m.1 := by decide +kernel
    obtain ⟨r, hr, -⟩ := pathRegex_ecma ecmaScript_ecma (hkeys m hm)
    exact ⟨r, hr⟩
  · intro pre m post h _ hnot
    exact absurd (hholds m (h ▸ by simp)) hnot

/-- Reading rights below `Vehicle.OBD` take the writing rights below `Vehicle` away. -/
theorem wildcardsAdd_refusal :
    (checkSignalAccess .ecmaScript { permissions := [("Vehicle.*", .str "rw")] } "Vehicle.OBD.Speed"
        "w" = .ok true ∧
      checkSignalAccess .ecmaScript obdChannel "Vehicle.OBD.Speed" "w" = .ok false) ∧
      ¬ WildcardsAdd .ecmaScript obdChannel "Vehicle.OBD.Speed" "w" := by
  have hrefused : checkSignalAccess .ecmaScript obdChannel "Vehicle.OBD.Speed" "w" = .ok false := by
    decide +kernel
  refine ⟨⟨by decide +kernel, hrefused⟩, ?_⟩
  intro h
  have hmatch : KeyMatches .ecmaScript "Vehicle.OBD.Speed" "Vehicle.*" :=
    (keyMatches_iff ecmaScript_ecma (by decide +kernel)).mpr (by decide +kernel)
  have hgrant := h ⟨("Vehicle.*", .str "rw"), by decide, by decide, hmatch, by decide⟩
  rw [hrefused] at hgrant
  exact absurd hgrant (by decide)

end Wildcards

end AccessChecker
