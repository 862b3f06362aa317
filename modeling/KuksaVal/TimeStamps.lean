import KuksaVal.Calendar
import KuksaVal.JsonResponses
import Mathlib.Data.Prod.Lex
import Mathlib.Tactic.NormNum

/-! The text of a timestamp: the instant that it denotes, against the two numbers that are
stored. -/
namespace JsonResponses
open Json Calendar

/-- An unsigned number of 64 bits as seconds of the system. -/
def toTimeT (sec : ℤ) : ℤ := Int.bmod sec (2 ^ 64)

/-- The calendar of the system is the one of UTC. -/
def Utc (ck : Clock) : Prop := ∀ sec, ck.calendar sec = strftime (gmtime (toTimeT sec))

/-- The second has a date: the system can hold its year, and it has four digits or more. -/
def Representable (s : ℤ) : Prop :=
  1000 ≤ (gmtime s).tm_year + 1900 ∧ (gmtime s).tm_year < 2 ^ 31

instance (s : ℤ) : Decidable (Representable s) := inferInstanceAs (Decidable (_ ∧ _))

/-- The two numbers of a timestamp as they are stored. -/
structure Stamped (target : Json) (s ns : ℤ) : Prop where
  object : target.isObject = true
  seconds : target.get? "ts_s" = some (.int s)
  nanoseconds : target.get? "ts_ns" = some (.int ns)
  date : Representable s
  nonneg : 0 ≤ ns
  lt : ns < 10 ^ 9

/-- The text that replaces the numbers denotes this instant. -/
def Denotes (ck : Clock) (nm : Numerics) (target : Json) (i : ℚ) : Prop :=
  ∃ d text, convertJSONTimeStampToISO8601 ck nm target = .ok d ∧ d.get? "ts" = some (.str text) ∧
    readInstant text = some i

section Conversions
variable {s : ℤ}

/-- Seconds with a date fit into the numbers of the system. -/
theorem Representable.range (h : Representable s) : -2 ^ 63 ≤ s ∧ s < 2 ^ 63 := by
  obtain ⟨hlow, hhigh⟩ := h
  obtain ⟨day, hday⟩ : ∃ day, s / 86400 + daysBefore 1970 = day := ⟨_, rfl⟩
  have hyear : (gmtime s).tm_year = yearOf day - 1900 := by rw [← hday]; rfl
  rw [hyear] at hlow hhigh
  obtain ⟨hspec, hspec'⟩ := yearOf_spec day
  unfold daysBefore at hday hspec hspec'
  omega

/-- The way through the unsigned number gives the seconds back. -/
theorem Representable.toTimeT (h : Representable s) :
    JsonResponses.toTimeT ((⟨64, false⟩ : IntType).wrap s) = s := by
  obtain ⟨hlow, hhigh⟩ := h.range
  have hwrap : (⟨64, false⟩ : IntType).wrap s = s % ((2 ^ 64 : ℕ) : ℤ) := by
    simp [IntType.wrap, IntType.lower]
  rw [JsonResponses.toTimeT, hwrap, Int.emod_bmod]
  exact Int.bmod_eq_of_le (by omega) (by omega)

theorem wrap_nanoseconds {ns : ℤ} (h0 : 0 ≤ ns) (h9 : ns < 10 ^ 9) :
    (⟨32, false⟩ : IntType).wrap ns = ns := by
  have hwrap : (⟨32, false⟩ : IntType).wrap ns = ns % 2 ^ 32 := by
    simp [IntType.wrap, IntType.lower]
  rw [hwrap]
  omega

end Conversions

section Instants
variable {ck : Clock} {nm : Numerics} {target : Json} {s ns : ℤ} {i : ℚ}

/-- The digits of the nanoseconds stand after the decimal point as they are. -/
theorem denotes_digits (hck : Utc ck) (h : Stamped target s ns) :
    Denotes ck nm target i ↔ i = s + (ns : ℚ) / 10 ^ (Nat.toDigits 10 ns.toNat).length := by
  obtain ⟨n, rfl⟩ : ∃ n : ℕ, ns = n := ⟨ns.toNat, (Int.toNat_of_nonneg h.nonneg).symm⟩
  have hconv : convertJSONTimeStampToISO8601 ck nm target =
      .ok ((eraseMember (eraseMember target "ts_s") "ts_ns").insertOrAssign "ts"
        (.str (strftime (gmtime s) ++ toString n ++ "Z"))) := by
    simp only [convertJSONTimeStampToISO8601, h.seconds, h.nanoseconds, asInteger, hck _,
      h.date.toTimeT, wrap_nanoseconds h.nonneg h.lt]
    rfl
  have hread := readInstant_strftime (gmtime_valid s) h.date.1 n
  rw [timegm_gmtime] at hread
  unfold Denotes
  rw [hconv, Int.toNat_natCast]
  constructor
  · rintro ⟨d, text, hd, htext, hi⟩
    obtain rfl := Except.ok.inj hd
    obtain rfl : strftime (gmtime s) ++ toString n ++ "Z" = text := by
      simpa [h.object] using htext
    rw [hread] at hi
    exact (Option.some.inj hi).symm
  · rintro rfl
    exact ⟨_, _, rfl, by simp [h.object], hread⟩

/-- A fraction of that many digits are nanoseconds if there are nine, or nothing to count. -/
theorem digits_iff {n : ℕ} (hn : n < 10 ^ 9) :
    (n : ℚ) / 10 ^ (Nat.toDigits 10 n).length = n / 10 ^ 9 ↔ n = 0 ∨ 10 ^ 8 ≤ n := by
  have hnine : (Nat.toDigits 10 n).length ≤ 9 :=
    (Nat.length_toDigits_le_iff (by decide) (by decide)).mpr hn
  have height : (Nat.toDigits 10 n).length ≤ 8 ↔ n < 10 ^ 8 :=
    Nat.length_toDigits_le_iff (by decide) (by decide)
  have hpow : (10 : ℚ) ^ 9 = 10 ^ (Nat.toDigits 10 n).length ↔ (Nat.toDigits 10 n).length = 9 := by
    rw [eq_comm]
    exact (pow_right_injective₀ (by norm_num) (by norm_num)).eq_iff
  rw [div_eq_div_iff (by positivity) (by positivity), mul_eq_mul_left_iff, hpow, Nat.cast_eq_zero]
  omega

/-- Nanoseconds are less than a second, so instants are ordered by the seconds first. -/
theorem instant_lt {s ns s' ns' : ℤ} (h0 : 0 ≤ ns) (h0' : 0 ≤ ns') (h9 : ns < 10 ^ 9)
    (h9' : ns' < 10 ^ 9) : (s : ℚ) + ns / 10 ^ 9 < s' + ns' / 10 ^ 9 ↔
      toLex (s, ns) < toLex (s', ns') := by
  have hcount : (s : ℚ) + ns / 10 ^ 9 < s' + ns' / 10 ^ 9 ↔
      s * 10 ^ 9 + ns < s' * 10 ^ 9 + ns' := by
    rw [← mul_lt_mul_iff_left₀ (by norm_num : (0 : ℚ) < 10 ^ 9), add_mul, add_mul,
      div_mul_cancel₀ _ (by norm_num), div_mul_cancel₀ _ (by norm_num)]
    exact_mod_cast Iff.rfl
  rw [hcount, Prod.Lex.toLex_lt_toLex]
  simp only
  omega

/-- The text of a timestamp denotes the stored instant exactly where the nanoseconds have nine
digits, or are 0; the instants of such timestamps are ordered as what is stored. -/
theorem denotes_iff (ck : Clock) (nm : Numerics) (hck : Utc ck) :
    (∀ target s ns, Stamped target s ns →
      (Denotes ck nm target (s + (ns : ℚ) / 10 ^ 9) ↔ ns = 0 ∨ 10 ^ 8 ≤ ns)) ∧
    ∀ target s ns i target' s' ns' i', Stamped target s ns → Stamped target' s' ns' →
      (ns = 0 ∨ 10 ^ 8 ≤ ns) → (ns' = 0 ∨ 10 ^ 8 ≤ ns') →
      Denotes ck nm target i → Denotes ck nm target' i' →
        (i = i' ↔ s = s' ∧ ns = ns') ∧ (i < i' ↔ toLex (s, ns) < toLex (s', ns')) := by
  have hdenotes {target : Json} {s ns : ℤ} (h : Stamped target s ns) :
      Denotes ck nm target (s + (ns : ℚ) / 10 ^ 9) ↔ ns = 0 ∨ 10 ^ 8 ≤ ns := by
    obtain ⟨n, rfl⟩ : ∃ n : ℕ, ns = n := ⟨ns.toNat, (Int.toNat_of_nonneg h.nonneg).symm⟩
    have hn : n < 10 ^ 9 := by exact_mod_cast h.lt
    rw [denotes_digits hck h, Int.toNat_natCast, Int.cast_natCast, add_right_inj, eq_comm,
      digits_iff hn]
    omega
  refine ⟨fun target s ns h => hdenotes h, ?_⟩
  intro target s ns i target' s' ns' i' h h' hns hns' hi hi'
  have hstored := (denotes_digits hck h).mp ((hdenotes h).mpr hns)
  have hstored' := (denotes_digits hck h').mp ((hdenotes h').mpr hns')
  obtain rfl := ((denotes_digits hck h).mp hi).trans hstored.symm
  obtain rfl := ((denotes_digits hck h').mp hi').trans hstored'.symm
  have hlt : (s : ℚ) + ns / 10 ^ 9 < s' + ns' / 10 ^ 9 ↔ toLex (s, ns) < toLex (s', ns') :=
    instant_lt h.nonneg h'.nonneg h.lt h'.lt
  have hgt : (s' : ℚ) + ns' / 10 ^ 9 < s + ns / 10 ^ 9 ↔ toLex (s', ns') < toLex (s, ns) :=
    instant_lt h'.nonneg h.nonneg h'.lt h.lt
  refine ⟨?_, hlt⟩
  constructor
  · intro he
    rw [he, lt_self_iff_false, false_iff, not_lt] at hlt
    rw [he, lt_self_iff_false, false_iff, not_lt] at hgt
    have := le_antisymm hgt hlt
    simpa using this
  · rintro ⟨rfl, rfl⟩
    rfl

def utcClock : Clock :=
  ⟨"1970-01-01T00:00:00.0Z", 0, 0, fun sec => strftime (gmtime (toTimeT sec))⟩

def stamp (s ns : ℤ) : Json := .obj [("ts_ns", .int ns), ("ts_s", .int s)]

theorem stamp_stamped {s ns : ℤ} (hs : Representable s) (h0 : 0 ≤ ns) (h9 : ns < 10 ^ 9) :
    Stamped (stamp s ns) s ns := ⟨rfl, rfl, rfl, hs, h0, h9⟩

theorem denotes_half : Denotes utcClock .decimal (stamp 0 500000000)
    ((0 : ℤ) + ((500000000 : ℤ) : ℚ) / 10 ^ 9) :=
  ((denotes_iff utcClock .decimal (fun _ => rfl)).1 (stamp 0 500000000) 0 500000000
    (stamp_stamped (by decide +kernel) (by decide) (by decide))).mpr (.inr (by decide))

/-- Five nanoseconds, and fifty, are printed as half a second. -/
theorem denotes_five : ¬ Denotes utcClock .decimal (stamp 0 5) ((0 : ℤ) + ((5 : ℤ) : ℚ) / 10 ^ 9) ∧
    Denotes utcClock .decimal (stamp 0 5) (1 / 2) ∧
    Denotes utcClock .decimal (stamp 0 50) (1 / 2) := by
  have hstamp {ns : ℤ} {i : ℚ} (h0 : 0 ≤ ns) (h9 : ns < 10 ^ 9) :
      Denotes utcClock .decimal (stamp 0 ns) i ↔
        i = (0 : ℤ) + (ns : ℚ) / 10 ^ (Nat.toDigits 10 ns.toNat).length :=
    denotes_digits (fun _ => rfl) (stamp_stamped (by decide +kernel) h0 h9)
  have hfive : (Nat.toDigits 10 (5 : ℤ).toNat).length = 1 := by decide
  have hfifty : (Nat.toDigits 10 (50 : ℤ).toNat).length = 2 := by decide
  rw [hstamp (by decide) (by decide), hstamp (by decide) (by decide),
    hstamp (by decide) (by decide), hfive, hfifty]
  norm_num

end Instants

end JsonResponses
