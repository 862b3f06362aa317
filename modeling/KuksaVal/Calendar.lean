import Mathlib.Algebra.Order.Floor.Defs
import Mathlib.Data.Rat.Defs
import Mathlib.Tactic.Ring

/-! The Gregorian calendar, continued without end in both directions, and dates with a time of day
as text: the instant that a text denotes. -/
namespace Calendar

section Years

/-- The days before the first one of a year, counted from the year 0. -/
def daysBefore (y : ℤ) : ℤ := 365 * y + (y + 3) / 4 - (y + 99) / 100 + (y + 399) / 400

def leapDay (y : ℤ) : ℕ := if y % 4 = 0 ∧ (y % 100 ≠ 0 ∨ y % 400 = 0) then 1 else 0

def monthLengths (y : ℤ) : List ℕ := [31, 28 + leapDay y, 31, 30, 31, 30, 31, 31, 30, 31, 30, 31]

theorem sum_monthLengths (y : ℤ) : (monthLengths y).sum = 365 + leapDay y := by
  simp only [monthLengths, List.sum_cons, List.sum_nil]
  omega

theorem daysBefore_succ (y : ℤ) :
    daysBefore (y + 1) = daysBefore y + (monthLengths y).sum := by
  rw [sum_monthLengths]
  unfold daysBefore leapDay
  split_ifs with h
  · push_cast
    omega
  · push_cast
    omega

/-- The year that a day falls in: 400 years have 146097 days. -/
def yearOf (day : ℤ) : ℤ :=
  let y := 400 * day / 146097
  if day < daysBefore y then y - 1 else if daysBefore (y + 1) ≤ day then y + 1 else y

theorem yearOf_spec (day : ℤ) :
    daysBefore (yearOf day) ≤ day ∧ day < daysBefore (yearOf day + 1) := by
  unfold yearOf
  simp only
  have hlow : daysBefore (400 * day / 146097 - 1) ≤ day := by
    unfold daysBefore
    omega
  have hhigh : day < daysBefore (400 * day / 146097 + 1 + 1) := by
    unfold daysBefore
    omega
  split_ifs with h1 h2
  · rw [Int.sub_add_cancel]
    exact ⟨hlow, h1⟩
  · exact ⟨h2, hhigh⟩
  · omega

end Years

section Parts

/-- The part of a row of parts that a position falls in, and the position inside it. -/
def locate : List ℕ → ℕ → ℕ × ℕ
  | [], n => (0, n)
  | len :: lens, n =>
      if n < len then (0, n) else ((locate lens (n - len)).1 + 1, (locate lens (n - len)).2)

theorem sum_take_locate (lens : List ℕ) (n : ℕ) :
    (lens.take (locate lens n).1).sum + (locate lens n).2 = n := by
  induction lens generalizing n with
  | nil => simp [locate]
  | cons len lens ih =>
    unfold locate
    split_ifs with h
    · simp
    · have := ih (n - len)
      simp only [List.take_succ_cons, List.sum_cons]
      omega

theorem locate_lt {lens : List ℕ} {n : ℕ} (h : n < lens.sum) :
    ∃ len, lens[(locate lens n).1]? = some len ∧ (locate lens n).2 < len := by
  induction lens generalizing n with
  | nil => simp at h
  | cons len lens ih =>
    rw [List.sum_cons] at h
    unfold locate
    split_ifs with hn
    · exact ⟨len, rfl, hn⟩
    · exact ih (by omega)

end Parts

section BrokenDownTime

/-- The time in its parts: the month from 0, the year from 1900. -/
structure Tm where
  tm_sec : ℕ
  tm_min : ℕ
  tm_hour : ℕ
  tm_mday : ℕ
  tm_mon : ℕ
  tm_year : ℤ
  deriving DecidableEq, Repr

/-- A time of day on a day of the calendar. -/
def Tm.Valid (tm : Tm) : Prop :=
  tm.tm_sec < 60 ∧ tm.tm_min < 60 ∧ tm.tm_hour < 24 ∧ 1 ≤ tm.tm_mday ∧
    tm.tm_mday ≤ ((monthLengths (tm.tm_year + 1900))[tm.tm_mon]?).getD 0

instance (tm : Tm) : Decidable tm.Valid := inferInstanceAs (Decidable (_ ∧ _))

/-- The parts of a number of seconds since the first of January 1970. -/
def gmtime (t : ℤ) : Tm :=
  let day := t / 86400 + daysBefore 1970
  let place := locate (monthLengths (yearOf day)) (day - daysBefore (yearOf day)).toNat
  let clock := (t % 86400).toNat
  ⟨clock % 60, clock / 60 % 60, clock / 3600, place.2 + 1, place.1, yearOf day - 1900⟩

/-- The number of seconds that the parts amount to. -/
def timegm (tm : Tm) : ℤ :=
  86400 * (daysBefore (tm.tm_year + 1900) +
      ((monthLengths (tm.tm_year + 1900)).take tm.tm_mon).sum + tm.tm_mday - 1 - daysBefore 1970) +
    3600 * tm.tm_hour + 60 * tm.tm_min + tm.tm_sec

variable (t : ℤ)

theorem gmtime_valid : (gmtime t).Valid := by
  obtain ⟨day, hday⟩ : ∃ day, t / 86400 + daysBefore 1970 = day := ⟨_, rfl⟩
  have hyear := yearOf_spec day
  rw [daysBefore_succ] at hyear
  have hinyear : (day - daysBefore (yearOf day)).toNat < (monthLengths (yearOf day)).sum := by omega
  obtain ⟨len, hlen, hlt⟩ := locate_lt hinyear
  unfold Tm.Valid gmtime
  simp only [hday, Int.sub_add_cancel, hlen, Option.getD_some]
  omega

theorem timegm_gmtime : timegm (gmtime t) = t := by
  obtain ⟨day, hday⟩ : ∃ day, t / 86400 + daysBefore 1970 = day := ⟨_, rfl⟩
  have hyear := yearOf_spec day
  have hplace := sum_take_locate (monthLengths (yearOf day)) (day - daysBefore (yearOf day)).toNat
  unfold timegm gmtime
  simp only [hday, Int.sub_add_cancel]
  omega

end BrokenDownTime

section Text

/-- A number with at least this many digits. -/
def padded (w n : ℕ) : List Char :=
  List.replicate (w - (Nat.toDigits 10 n).length) '0' ++ Nat.toDigits 10 n

theorem isDigit_padded {w n : ℕ} {c : Char} (h : c ∈ padded w n) : c.isDigit = true := by
  rcases List.mem_append.mp h with h | h
  · rw [List.eq_of_mem_replicate h]
    rfl
  · exact Nat.isDigit_of_mem_toDigits (by omega) (by omega) h

theorem ofDigitChars_padded (w n : ℕ) : Nat.ofDigitChars 10 (padded w n) 0 = n := by
  simp [padded, Nat.ofDigitChars_append]

theorem length_padded {w n : ℕ} (hw : 0 < w) (h : n < 10 ^ w) : (padded w n).length = w := by
  have := (Nat.length_toDigits_le_iff (by decide) hw).mpr h
  rw [padded, List.length_append, List.length_replicate]
  omega

/-- The leading digits of a text that goes on with this character, and what comes after it. -/
def digitsThen (sep : Char) (text : List Char) : Option (List Char × List Char) :=
  match text.dropWhile Char.isDigit with
  | [] => none
  | c :: rest => if c = sep then some (text.takeWhile Char.isDigit, rest) else none

/-- Numbers with a character after each. -/
def readFields : List Char → List Char → Option (List (List Char))
  | [], [] => some []
  | [], _ :: _ => none
  | sep :: seps, text => (digitsThen sep text).bind fun p =>
      (readFields seps p.2).map fun fs => p.1 :: fs

def writeFields (fs : List (List Char × Char)) : List Char := fs.flatMap fun f => f.1 ++ [f.2]

theorem digitsThen_append {ds rest : List Char} {sep : Char} (hds : ∀ c ∈ ds, c.isDigit = true)
    (hsep : sep.isDigit = false) : digitsThen sep (ds ++ sep :: rest) = some (ds, rest) := by
  unfold digitsThen
  rw [List.dropWhile_append_of_pos hds, List.takeWhile_append_of_pos hds]
  simp [hsep]

theorem readFields_writeFields {fs : List (List Char × Char)}
    (h : ∀ f ∈ fs, (∀ c ∈ f.1, c.isDigit = true) ∧ f.2.isDigit = false) :
    readFields (fs.map Prod.snd) (writeFields fs) = some (fs.map Prod.fst) := by
  induction fs with
  | nil => rfl
  | cons f fs ih =>
    obtain ⟨hf, hfs⟩ := List.forall_mem_cons.mp h
    have htext : writeFields (f :: fs) = f.1 ++ f.2 :: writeFields fs := by simp [writeFields]
    rw [List.map_cons, htext, readFields, digitsThen_append hf.1 hf.2, Option.bind_some, ih hfs]
    rfl

/-- The parts of a time up to and with the decimal point. -/
def dateFields (tm : Tm) : List (List Char × Char) :=
  [((toString (tm.tm_year + 1900)).toList, '-'), (padded 2 (tm.tm_mon + 1), '-'),
    (padded 2 tm.tm_mday, 'T'), (padded 2 tm.tm_hour, ':'), (padded 2 tm.tm_min, ':'),
    (padded 2 tm.tm_sec, '.')]

/-- `strftime` with `%FT%T.` -/
def strftime (tm : Tm) : String := String.ofList (writeFields (dateFields tm))

def numberOf (ds : List Char) : ℕ := Nat.ofDigitChars 10 ds 0

/-- The instant that a UTC time of ISO 8601 with a decimal fraction denotes, in seconds since the
first of January 1970. -/
def readInstant (text : String) : Option ℚ :=
  match readFields ['-', '-', 'T', ':', ':', '.', 'Z'] text.toList with
  | some [year, month, day, hour, min, sec, fraction] =>
      let tm : Tm := ⟨numberOf sec, numberOf min, numberOf hour, numberOf day, numberOf month - 1,
        numberOf year - 1900⟩
      if 4 ≤ year.length ∧ (∀ ds ∈ [month, day, hour, min, sec], ds.length = 2) ∧
          1 ≤ numberOf month ∧ fraction ≠ [] ∧ tm.Valid then
        some ((timegm tm : ℚ) + (numberOf fraction : ℚ) / 10 ^ fraction.length)
      else none
  | _ => none

theorem Tm.Valid.month {tm : Tm} (h : tm.Valid) : tm.tm_mon < 12 := by
  obtain ⟨-, -, -, h1, hle⟩ := h
  by_contra hm
  rw [List.getElem?_eq_none (by simpa [monthLengths] using hm)] at hle
  simp at hle
  omega

theorem Tm.Valid.mday {tm : Tm} (h : tm.Valid) : tm.tm_mday < 100 := by
  have hlen : ∀ len ∈ monthLengths (tm.tm_year + 1900), len < 100 := by
    simp only [monthLengths, leapDay]
    split_ifs <;> decide
  obtain ⟨-, -, -, h1, hle⟩ := h
  cases hm : (monthLengths (tm.tm_year + 1900))[tm.tm_mon]? with
  | none =>
    rw [hm] at hle
    simp at hle
    omega
  | some len =>
    rw [hm] at hle
    exact hle.trans_lt (hlen len (List.mem_of_getElem? hm))

/-- The text of a time, with the digits of a number after the decimal point, denotes the time
and the fraction that these digits are. -/
theorem readInstant_strftime {tm : Tm} (h : tm.Valid) (hy : 1000 ≤ tm.tm_year + 1900) (n : ℕ) :
    readInstant (strftime tm ++ toString n ++ "Z") =
      some ((timegm tm : ℚ) + (n : ℚ) / 10 ^ (Nat.toDigits 10 n).length) := by
  obtain ⟨y, hyear⟩ : ∃ y : ℕ, tm.tm_year + 1900 = y := ⟨_, (Int.toNat_of_nonneg (by omega)).symm⟩
  have hyeq : (toString (tm.tm_year + 1900)).toList = Nat.toDigits 10 y := by
    rw [hyear]
    exact Nat.toList_repr
  have htext : (strftime tm ++ toString n ++ "Z").toList =
      writeFields (dateFields tm ++ [(Nat.toDigits 10 n, 'Z')]) := by
    simp [strftime, writeFields]
  have hdigits : ∀ f ∈ dateFields tm ++ [(Nat.toDigits 10 n, 'Z')],
      (∀ c ∈ f.1, c.isDigit = true) ∧ f.2.isDigit = false := by
    have hnat (m : ℕ) : ∀ c ∈ Nat.toDigits 10 m, c.isDigit = true :=
      fun c hc => Nat.isDigit_of_mem_toDigits (by decide) (by decide) hc
    have hpad (m : ℕ) : ∀ c ∈ padded 2 m, c.isDigit = true := fun c hc => isDigit_padded hc
    simp only [dateFields, hyeq, List.cons_append, List.nil_append, List.forall_mem_cons]
    exact ⟨⟨hnat y, rfl⟩, ⟨hpad _, rfl⟩, ⟨hpad _, rfl⟩, ⟨hpad _, rfl⟩, ⟨hpad _, rfl⟩,
      ⟨hpad _, rfl⟩, ⟨hnat n, rfl⟩, by simp⟩
  have hread : readFields ['-', '-', 'T', ':', ':', '.', 'Z']
      (strftime tm ++ toString n ++ "Z").toList = some [Nat.toDigits 10 y,
        padded 2 (tm.tm_mon + 1), padded 2 tm.tm_mday, padded 2 tm.tm_hour, padded 2 tm.tm_min,
        padded 2 tm.tm_sec, Nat.toDigits 10 n] := by
    rw [htext, ← hyeq]
    exact readFields_writeFields hdigits
  have hylen : 4 ≤ (Nat.toDigits 10 y).length := by
    by_contra hlen
    have := (Nat.length_toDigits_le_iff (b := 10) (n := y) (by decide) (k := 3) (by decide)).mp
      (by omega)
    omega
  have htm : (⟨tm.tm_sec, tm.tm_min, tm.tm_hour, tm.tm_mday, tm.tm_mon + 1 - 1, y - 1900⟩ : Tm) =
      tm := by
    have hsub : (y : ℤ) - 1900 = tm.tm_year := by omega
    rw [hsub]
    rfl
  have htwo : ∀ ds ∈ [padded 2 (tm.tm_mon + 1), padded 2 tm.tm_mday, padded 2 tm.tm_hour,
      padded 2 tm.tm_min, padded 2 tm.tm_sec], ds.length = 2 := by
    have hmonth := h.month
    have hmday := h.mday
    obtain ⟨hsec, hmin, hhour, -, -⟩ := h
    have hpad {m : ℕ} (hm : m < 100) : (padded 2 m).length = 2 := length_padded (by decide) hm
    simp only [List.forall_mem_cons]
    exact ⟨hpad (by omega), hpad hmday, hpad (by omega), hpad (by omega), hpad (by omega),
      by simp⟩
  unfold readInstant
  rw [hread]
  simp only [numberOf, Nat.ofDigitChars_ten_toDigits, ofDigitChars_padded, htm]
  rw [if_pos ⟨hylen, htwo, Nat.le_add_left 1 _, Nat.toDigits_ne_nil, h⟩]

end Text

end Calendar
