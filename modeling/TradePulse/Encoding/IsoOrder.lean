/-
**The order of ISO texts is the order of time.**

A moment of the calendar is a number of microseconds, and a moment in any time zone is one in UTC.
The texts that `isoformat` writes in UTC are blocks of digits of a fixed width, so that the first
block that differs decides, up to the fraction of a second.  This is left out when it is zero, and
then the sign of the offset is compared with the point of the other text: it comes before it.

Main definitions:

* `Fields.ordinal`, `Fields.instant` — the number of a day and of a microsecond;
* `Fields.Before` — the order of the fields, from the year down;
* `DateTime.ofInstant` — the moment in UTC of a number of microseconds;
* `Aware`, `Aware.utc` — a moment in a time zone, and the same moment in UTC.

Main results:

* `pad_append_lt_iff` — numbers of a fixed width are compared by their values;
* `isoformat_lt_iff_before`, `Fields.instant_lt_iff` — texts and instants are both compared by the
  fields;
* `DateTime.isoformat_lt_iff` — **texts are compared as instants**;
* `DateTime.ofInstant_eq_some_iff`, `DateTime.exists_ofInstant` — a moment in UTC is the one with
  its number of microseconds, and there is one for every number within the calendar's years.
-/

import Mathlib.Data.Nat.Find
import Mathlib.Data.String.Basic
import TradePulse.Encoding.IsoTime

set_option autoImplicit false

namespace Encoding

/-! ### Blocks of a text -/

theorem append_lt_append_iff {a b r s : List Char} (h : a.length = b.length) :
    a ++ r < b ++ s ↔ a < b ∨ (a = b ∧ r < s) := by
  induction a generalizing b with
  | nil =>
      obtain rfl := List.length_eq_zero_iff.1 h.symm
      simp
  | cons x a ih =>
      cases b with
      | nil => simp at h
      | cons y b =>
          have htail : a.length = b.length := by simpa using h
          simp only [List.cons_append, List.cons_lt_cons_iff, ih htail, List.cons.injEq]
          tauto

theorem digit_bounds {c : Char} (h : c.isDigit = true) : 48 ≤ c.toNat ∧ c.toNat ≤ 57 := by
  simp only [Char.isDigit, Bool.and_eq_true, decide_eq_true_eq, ge_iff_le,
    UInt32.le_iff_toNat_le] at h
  exact h

theorem ofDigitChars_lt_of_lt {a b : List Char} (h : a.length = b.length)
    (ha : Decimal.AllDigits a) (hb : Decimal.AllDigits b) {x y : ℕ} (hxy : x < y) :
    Nat.ofDigitChars 10 a x < Nat.ofDigitChars 10 b y := by
  induction a generalizing b x y with
  | nil =>
      obtain rfl := List.length_eq_zero_iff.1 h.symm
      simpa using hxy
  | cons c a ih =>
      cases b with
      | nil => simp at h
      | cons d b =>
          have hc := digit_bounds (ha c List.mem_cons_self)
          have hd := digit_bounds (hb d List.mem_cons_self)
          simp only [Nat.ofDigitChars_cons]
          refine ih (by simpa using h) (fun c hc => ha c (List.mem_cons_of_mem _ hc))
            (fun d hd => hb d (List.mem_cons_of_mem _ hd)) ?_
          change 10 * x + (c.toNat - 48) < 10 * y + (d.toNat - 48)
          omega

/-- Digits of one length are in the order of their values. -/
theorem ofDigitChars_lt {a b : List Char} (h : a.length = b.length) (ha : Decimal.AllDigits a)
    (hb : Decimal.AllDigits b) (hlt : a < b) (x : ℕ) :
    Nat.ofDigitChars 10 a x < Nat.ofDigitChars 10 b x := by
  induction a generalizing b x with
  | nil =>
      obtain rfl := List.length_eq_zero_iff.1 h.symm
      exact absurd hlt (lt_irrefl _)
  | cons c a ih =>
      cases b with
      | nil => simp at h
      | cons d b =>
          have ha' : Decimal.AllDigits a := fun c hc => ha c (List.mem_cons_of_mem _ hc)
          have hb' : Decimal.AllDigits b := fun d hd => hb d (List.mem_cons_of_mem _ hd)
          have hlen : a.length = b.length := by simpa using h
          simp only [Nat.ofDigitChars_cons]
          rcases List.cons_lt_cons_iff.1 hlt with hcd | ⟨rfl, htail⟩
          · -- the first digits differ, and no digits behind them make up for it
            have hc := digit_bounds (ha c List.mem_cons_self)
            have hval : c.toNat < d.toNat := hcd
            refine ofDigitChars_lt_of_lt hlen ha' hb' ?_
            change 10 * x + (c.toNat - 48) < 10 * x + (d.toNat - 48)
            omega
          · exact ih hlen ha' hb' htail _

theorem ofDigitChars_pad (width n : ℕ) : Nat.ofDigitChars 10 (pad width n) 0 = n := by
  simp only [pad, Decimal.ofDigitChars_zeros, Nat.ofDigitChars_ten_toDigits]

theorem pad_lt_iff {width m n : ℕ} (hwidth : 0 < width) (hm : m < 10 ^ width)
    (hn : n < 10 ^ width) : pad width m < pad width n ↔ m < n := by
  have hmono : ∀ {m n}, m < 10 ^ width → n < 10 ^ width → pad width m < pad width n → m < n := by
    intro m n hm hn hlt
    have hlen := (length_pad hwidth hm).trans (length_pad hwidth hn).symm
    have hval := ofDigitChars_lt hlen (allDigits_pad width m) (allDigits_pad width n) hlt 0
    rwa [ofDigitChars_pad, ofDigitChars_pad] at hval
  refine ⟨hmono hm hn, fun hlt => ?_⟩
  rcases lt_trichotomy (pad width m) (pad width n) with h | h | h
  · exact h
  · have hval := congrArg (fun l => Nat.ofDigitChars 10 l 0) h
    simp only [ofDigitChars_pad] at hval
    omega
  · have hgt := hmono hn hm h
    omega

/-- **Numbers of a fixed width** are compared by their values. -/
theorem pad_append_lt_iff {width m n : ℕ} (hwidth : 0 < width) (hm : m < 10 ^ width)
    (hn : n < 10 ^ width) {r s : List Char} :
    pad width m ++ r < pad width n ++ s ↔ m < n ∨ (m = n ∧ r < s) := by
  have hinj : pad width m = pad width n ↔ m = n := by
    refine ⟨fun h => ?_, fun h => h ▸ rfl⟩
    have hval := congrArg (fun l => Nat.ofDigitChars 10 l 0) h
    simpa only [ofDigitChars_pad] using hval
  rw [append_lt_append_iff ((length_pad hwidth hm).trans (length_pad hwidth hn).symm),
    pad_lt_iff hwidth hm hn, hinj]

/-! ### The order of the fields -/

namespace Fields

/-- The fields are earlier, from the year down. -/
def Before (f g : Fields) : Prop :=
  f.year < g.year ∨ (f.year = g.year ∧
    (f.month < g.month ∨ (f.month = g.month ∧
      (f.day < g.day ∨ (f.day = g.day ∧
        (f.hour < g.hour ∨ (f.hour = g.hour ∧
          (f.minute < g.minute ∨ (f.minute = g.minute ∧
            (f.second < g.second ∨ (f.second = g.second ∧
              f.microsecond < g.microsecond)))))))))))

theorem before_trichotomy (f g : Fields) : f.Before g ∨ f = g ∨ g.Before f := by
  cases f
  cases g
  simp only [Before, Fields.mk.injEq]
  omega

variable {f g : Fields}

/-- The fraction of a second and the offset: no fraction comes before every fraction. -/
theorem micros_lt_iff (hf : f.Valid) (hg : g.Valid) :
    f.micros ++ utcOffset < g.micros ++ utcOffset ↔ f.microsecond < g.microsecond := by
  by_cases hf0 : f.microsecond = 0
  · by_cases hg0 : g.microsecond = 0
    · simp [micros, hf0, hg0]
    · have hlt : ('+' : Char) < '.' := by decide
      simp [micros, hf0, hg0, utcOffset, List.cons_lt_cons_iff, hlt, Nat.pos_iff_ne_zero]
  · by_cases hg0 : g.microsecond = 0
    · have hlt : ¬ ('.' : Char) < '+' := by decide
      simp [micros, hf0, hg0, utcOffset, List.cons_lt_cons_iff, hlt]
    · simp only [micros, if_neg hf0, if_neg hg0, List.cons_append, List.cons_lt_cons_self]
      rw [pad_append_lt_iff (by omega) hf.microsecond_lt hg.microsecond_lt]
      simp

theorem Valid.bounds (hf : f.Valid) : f.year < 10 ^ 4 ∧ f.month < 10 ^ 2 ∧ f.day < 10 ^ 2 ∧
    f.hour < 10 ^ 2 ∧ f.minute < 10 ^ 2 ∧ f.second < 10 ^ 2 := by
  obtain ⟨-, hyear, -, hmonth, -, hday, hhour, hminute, hsecond, -⟩ := hf
  have hdays := daysInMonth_le f.year f.month
  omega

end Fields

/-- **Texts are compared by the fields.** -/
theorem DateTime.isoformat_lt_iff_before (a b : DateTime) :
    a.isoformat < b.isoformat ↔ a.fields.Before b.fields := by
  obtain ⟨f, hf⟩ := a
  obtain ⟨g, hg⟩ := b
  obtain ⟨hfyear, hfmonth, hfday, hfhour, hfminute, hfsecond⟩ := hf.bounds
  obtain ⟨hgyear, hgmonth, hgday, hghour, hgminute, hgsecond⟩ := hg.bounds
  simp only [isoformat, Fields.Before]
  rw [pad_append_lt_iff (by omega) hfyear hgyear, List.cons_lt_cons_self,
    pad_append_lt_iff (by omega) hfmonth hgmonth, List.cons_lt_cons_self,
    pad_append_lt_iff (by omega) hfday hgday, List.cons_lt_cons_self,
    pad_append_lt_iff (by omega) hfhour hghour, List.cons_lt_cons_self,
    pad_append_lt_iff (by omega) hfminute hgminute, List.cons_lt_cons_self,
    pad_append_lt_iff (by omega) hfsecond hgsecond, Fields.micros_lt_iff hf hg]

/-! ### The number of a microsecond -/

/-- The days of the years before. -/
def daysBeforeYear (year : ℕ) : ℕ :=
  (year - 1) * 365 + (year - 1) / 4 - (year - 1) / 100 + (year - 1) / 400

/-- The days of the months before, in a year. -/
def daysBeforeMonth (year : ℕ) : ℕ → ℕ
  | 0 => 0
  | month + 1 => daysBeforeMonth year month + if month = 0 then 0 else daysInMonth year month

def daysInYear (year : ℕ) : ℕ := if isLeap year then 366 else 365

theorem isLeap_iff (year : ℕ) :
    isLeap year = true ↔ 4 ∣ year ∧ (¬ 100 ∣ year ∨ 400 ∣ year) := by
  simp [isLeap, Nat.dvd_iff_mod_eq_zero]

theorem daysBeforeYear_succ {year : ℕ} (h : 1 ≤ year) :
    daysBeforeYear (year + 1) = daysBeforeYear year + daysInYear year := by
  obtain ⟨y, rfl⟩ : ∃ y, year = y + 1 := ⟨year - 1, by omega⟩
  -- of the three quotients those of the divisors of the year go up by one
  have hle : y / 100 ≤ y / 4 := Nat.div_le_div_left (by omega) (by omega)
  have hfour : 100 ∣ y + 1 → 4 ∣ y + 1 := fun h => Nat.dvd_trans (by decide) h
  have hhundred : 400 ∣ y + 1 → 100 ∣ y + 1 := fun h => Nat.dvd_trans (by decide) h
  simp only [daysBeforeYear, daysInYear, isLeap_iff, Nat.add_sub_cancel, Nat.succ_div]
  generalize y / 4 = p, y / 100 = q, y / 400 = r at hle ⊢
  by_cases h4 : 4 ∣ y + 1
  · by_cases h100 : 100 ∣ y + 1
    · by_cases h400 : 400 ∣ y + 1
      · simp only [h4, h100, h400, if_true, not_true, false_or, and_self]
        omega
      · simp only [h4, h100, h400, if_true, if_false, not_true, or_self, and_false]
        omega
    · have h400 : ¬ 400 ∣ y + 1 := fun h => h100 (hhundred h)
      simp only [h4, h100, h400, if_true, if_false, not_false_iff, true_or, and_self]
      omega
  · have h100 : ¬ 100 ∣ y + 1 := fun h => h4 (hfour h)
    have h400 : ¬ 400 ∣ y + 1 := fun h => h100 (hhundred h)
    simp only [h4, h100, h400, if_false, false_and]
    omega

theorem daysBeforeYear_mono {m n : ℕ} (hm : 1 ≤ m) (h : m ≤ n) :
    daysBeforeYear m ≤ daysBeforeYear n := by
  induction n, h using Nat.le_induction with
  | base => rfl
  | succ n hmn ih =>
      have hstep := daysBeforeYear_succ (hm.trans hmn)
      omega

theorem daysBeforeMonth_succ {month : ℕ} (year : ℕ) (h : 1 ≤ month) :
    daysBeforeMonth year (month + 1) = daysBeforeMonth year month + daysInMonth year month := by
  rw [daysBeforeMonth, if_neg (by omega)]

theorem daysBeforeMonth_mono (year : ℕ) {m n : ℕ} (hm : 1 ≤ m) (h : m ≤ n) :
    daysBeforeMonth year m ≤ daysBeforeMonth year n := by
  induction n, h using Nat.le_induction with
  | base => rfl
  | succ n hmn ih =>
      have hstep := daysBeforeMonth_succ year (hm.trans hmn)
      omega

theorem daysBeforeMonth_thirteen (year : ℕ) : daysBeforeMonth year 13 = daysInYear year := by
  by_cases h : isLeap year = true <;> simp [daysBeforeMonth, daysInMonth, daysInYear, h]

namespace Fields

/-- The number of the day; the first of January of the first year is day 1. -/
def ordinal (f : Fields) : ℕ := daysBeforeYear f.year + daysBeforeMonth f.year f.month + f.day

/-- The microseconds since midnight. -/
def timeOfDay (f : Fields) : ℕ :=
  ((f.hour * 60 + f.minute) * 60 + f.second) * 1000000 + f.microsecond

/-- The microseconds of a day. -/
abbrev dayLength : ℕ := 86400000000

/-- The number of the microsecond. -/
def instant (f : Fields) : ℤ := f.ordinal * dayLength + f.timeOfDay

variable {f g : Fields}

theorem timeOfDay_lt (hf : f.Valid) : f.timeOfDay < dayLength := by
  obtain ⟨-, -, -, -, -, -, hhour, hminute, hsecond, hmicro⟩ := hf
  simp only [timeOfDay, dayLength]
  omega

theorem ordinal_pos (hf : f.Valid) : 0 < f.ordinal := by
  have hday := hf.day_pos
  simp only [ordinal]
  omega

theorem monthDay_le (hf : f.Valid) :
    daysBeforeMonth f.year f.month + f.day ≤ daysBeforeMonth f.year (f.month + 1) := by
  have hday := hf.day_le
  rw [daysBeforeMonth_succ f.year hf.month_pos]
  omega

theorem ordinal_le (hf : f.Valid) : f.ordinal ≤ daysBeforeYear (f.year + 1) := by
  have hmonth := monthDay_le hf
  have hyear := daysBeforeMonth_mono f.year (by omega) (show f.month + 1 ≤ 13 by
    have := hf.month_le
    omega)
  rw [daysBeforeMonth_thirteen] at hyear
  rw [daysBeforeYear_succ hf.year_pos, ordinal]
  omega

theorem ordinal_lt_of_year (hf : f.Valid) (hg : g.Valid) (h : f.year < g.year) :
    f.ordinal < g.ordinal := by
  have hle := ordinal_le hf
  have hmono := daysBeforeYear_mono (by omega) (show f.year + 1 ≤ g.year by omega)
  have hday := hg.day_pos
  simp only [ordinal] at hle ⊢
  omega

theorem ordinal_lt_of_month (hf : f.Valid) (hg : g.Valid) (hyear : f.year = g.year)
    (h : f.month < g.month) : f.ordinal < g.ordinal := by
  have hle := monthDay_le hf
  have hmono := daysBeforeMonth_mono g.year (by omega) (show f.month + 1 ≤ g.month by omega)
  have hday := hg.day_pos
  simp only [ordinal, hyear] at hle ⊢
  omega

/-- A later day is later, whatever the time of the day. -/
theorem instant_lt_of_ordinal (hf : f.Valid) (h : f.ordinal < g.ordinal) :
    f.instant < g.instant := by
  have htime := timeOfDay_lt hf
  simp only [instant, dayLength] at htime ⊢
  omega

theorem instant_lt_of_before (hf : f.Valid) (hg : g.Valid) (h : f.Before g) :
    f.instant < g.instant := by
  obtain hyear | ⟨hyear, hmonth | ⟨hmonth, hday | ⟨hday, htime⟩⟩⟩ := h
  · exact instant_lt_of_ordinal hf (ordinal_lt_of_year hf hg hyear)
  · exact instant_lt_of_ordinal hf (ordinal_lt_of_month hf hg hyear hmonth)
  · refine instant_lt_of_ordinal hf ?_
    simp only [ordinal, hyear, hmonth]
    omega
  · -- on one day the time of the day decides
    have hsame : f.ordinal = g.ordinal := by simp only [ordinal, hyear, hmonth, hday]
    obtain ⟨-, -, -, -, -, -, hhour, hminute, hsecond, hmicro⟩ := hf
    simp only [instant, hsame, timeOfDay]
    omega

/-- **Instants are compared by the fields.** -/
theorem instant_lt_iff (hf : f.Valid) (hg : g.Valid) : f.instant < g.instant ↔ f.Before g := by
  refine ⟨fun h => ?_, instant_lt_of_before hf hg⟩
  rcases before_trichotomy f g with hlt | rfl | hgt
  · exact hlt
  · exact absurd h (lt_irrefl _)
  · exact absurd h (instant_lt_of_before hg hf hgt).not_gt

end Fields

/-! ### Moments -/

/-- The microseconds of a moment. -/
def DateTime.instant (t : DateTime) : ℤ := t.fields.instant

/-- **Texts are compared as instants.** -/
theorem DateTime.isoformat_lt_iff (a b : DateTime) :
    a.isoformat < b.isoformat ↔ a.instant < b.instant :=
  (isoformat_lt_iff_before a b).trans (Fields.instant_lt_iff a.valid b.valid).symm

/-- The year, the month and the day with a number. -/
def dateOf (ordinal : ℕ) : ℕ × ℕ × ℕ :=
  let year := Nat.findGreatest (fun y => daysBeforeYear y < ordinal) 9999
  let rest := ordinal - daysBeforeYear year
  let month := Nat.findGreatest (fun m => daysBeforeMonth year m < rest) 12
  (year, month, rest - daysBeforeMonth year month)

/-- The moment in UTC with a number of microseconds, in the years that the calendar has. -/
def DateTime.ofInstant (i : ℤ) : Option DateTime :=
  let date := dateOf (i / Fields.dayLength).toNat
  let time := (i % Fields.dayLength).toNat
  let fields := Fields.mk date.1 date.2.1 date.2.2 (time / 3600000000) (time / 60000000 % 60)
    (time / 1000000 % 60) (time % 1000000)
  if h : fields.Valid then some ⟨fields, h⟩ else none

theorem dateOf_ordinal {f : Fields} (hf : f.Valid) :
    dateOf f.ordinal = (f.year, f.month, f.day) := by
  have hyear : Nat.findGreatest (fun y => daysBeforeYear y < f.ordinal) 9999 = f.year := by
    refine Nat.findGreatest_eq_iff.2 ⟨hf.year_le, fun _ => ?_, fun {y} hy _ => ?_⟩
    · have hday := hf.day_pos
      simp only [Fields.ordinal]
      omega
    · have hle := Fields.ordinal_le hf
      have hmono := daysBeforeYear_mono (by omega) (show f.year + 1 ≤ y by omega)
      omega
  have hrest : f.ordinal - daysBeforeYear f.year =
      daysBeforeMonth f.year f.month + f.day := by
    simp only [Fields.ordinal]
    omega
  have hmonth : Nat.findGreatest (fun m => daysBeforeMonth f.year m <
      daysBeforeMonth f.year f.month + f.day) 12 = f.month := by
    refine Nat.findGreatest_eq_iff.2 ⟨hf.month_le, fun _ => ?_, fun {m} hm _ => ?_⟩
    · have hday := hf.day_pos
      omega
    · have hle := Fields.monthDay_le hf
      have hmono := daysBeforeMonth_mono f.year (by omega) (show f.month + 1 ≤ m by omega)
      omega
  simp only [dateOf, hyear, hrest, hmonth, Nat.add_sub_cancel_left]

/-- What the search finds has the number, if it is a date. -/
theorem ordinal_dateOf {ordinal : ℕ} {f : Fields} (hf : f.Valid)
    (hyear : (dateOf ordinal).1 = f.year) (hmonth : (dateOf ordinal).2.1 = f.month)
    (hday : (dateOf ordinal).2.2 = f.day) : f.ordinal = ordinal := by
  simp only [dateOf] at hyear hmonth hday
  rw [hyear] at hmonth hday
  rw [hmonth] at hday
  have hpos := hf.day_pos
  have hbefore : daysBeforeYear f.year < ordinal :=
    Nat.findGreatest_of_ne_zero (P := fun y => daysBeforeYear y < ordinal) hyear
      (Nat.ne_of_gt hf.year_pos)
  clear hyear hmonth
  simp only [Fields.ordinal]
  omega

/-- **A moment in UTC is the one with its number of microseconds.** -/
theorem DateTime.ofInstant_eq_some_iff {i : ℤ} {t : DateTime} :
    DateTime.ofInstant i = some t ↔ t.instant = i := by
  constructor
  · intro h
    simp only [ofInstant, Option.dite_none_right_eq_some, Option.some.injEq] at h
    obtain ⟨hvalid, rfl⟩ := h
    have hdate := ordinal_dateOf hvalid rfl rfl rfl
    have hpos := Fields.ordinal_pos hvalid
    rw [hdate] at hpos
    simp only [instant, Fields.instant, hdate, Fields.timeOfDay, Fields.dayLength] at hpos ⊢
    omega
  · rintro rfl
    obtain ⟨f, hf⟩ := t
    have htime := Fields.timeOfDay_lt hf
    have hday : (f.instant / Fields.dayLength).toNat = f.ordinal := by
      simp only [Fields.instant, Fields.dayLength] at htime ⊢
      omega
    have hrest : (f.instant % Fields.dayLength).toNat = f.timeOfDay := by
      simp only [Fields.instant, Fields.dayLength] at htime ⊢
      omega
    have hfields : Fields.mk f.year f.month f.day (f.timeOfDay / 3600000000)
        (f.timeOfDay / 60000000 % 60) (f.timeOfDay / 1000000 % 60) (f.timeOfDay % 1000000) = f := by
      obtain ⟨-, -, -, -, -, -, hhour, hminute, hsecond, hmicro⟩ := hf
      cases f
      simp only [Fields.timeOfDay, Fields.mk.injEq, true_and] at hhour hminute hsecond hmicro ⊢
      omega
    simp only [instant, ofInstant, hday, hrest, dateOf_ordinal hf, hfields, dif_pos hf]

/-- The number of every day of the calendar is that of a date. -/
theorem dateOf_valid {ordinal : ℕ} (hpos : 1 ≤ ordinal) (hle : ordinal ≤ daysBeforeYear 10000)
    {f : Fields} (hyear : (dateOf ordinal).1 = f.year) (hmonth : (dateOf ordinal).2.1 = f.month)
    (hday : (dateOf ordinal).2.2 = f.day) :
    (1 ≤ f.year ∧ f.year ≤ 9999) ∧ (1 ≤ f.month ∧ f.month ≤ 12) ∧
      1 ≤ f.day ∧ f.day ≤ daysInMonth f.year f.month := by
  simp only [dateOf] at hyear hmonth hday
  rw [hyear] at hmonth hday
  rw [hmonth] at hday
  obtain ⟨hyear_le, hyear_lt, hyear_max⟩ :=
    (Nat.findGreatest_eq_iff (P := fun y => daysBeforeYear y < ordinal)).1 hyear
  obtain ⟨hmonth_le, hmonth_lt, hmonth_max⟩ := (Nat.findGreatest_eq_iff
    (P := fun m => daysBeforeMonth f.year m < ordinal - daysBeforeYear f.year)).1 hmonth
  clear hyear hmonth
  have hyear_pos : 1 ≤ f.year := by
    by_contra hzero
    exact hyear_max (n := 1) (by omega) (by omega) hpos
  have hafter : daysBeforeYear f.year < ordinal := hyear_lt (by omega)
  have hbefore : ordinal ≤ daysBeforeYear (f.year + 1) := by
    by_cases hlast : f.year = 9999
    · rw [hlast]
      exact hle
    · exact not_lt.1 (hyear_max (n := f.year + 1) (by omega) (by omega))
  rw [daysBeforeYear_succ hyear_pos] at hbefore
  have hmonth_pos : 1 ≤ f.month := by
    by_contra hzero
    refine hmonth_max (n := 1) (by omega) (by omega) ?_
    change 0 < _
    omega
  have hmonth_after := hmonth_lt (by omega)
  have hmonth_before : ordinal - daysBeforeYear f.year ≤ daysBeforeMonth f.year (f.month + 1) := by
    by_cases hlast : f.month = 12
    · rw [hlast, daysBeforeMonth_thirteen]
      omega
    · exact not_lt.1 (hmonth_max (n := f.month + 1) (by omega) (by omega))
  rw [daysBeforeMonth_succ f.year hmonth_pos] at hmonth_before
  omega

theorem DateTime.exists_ofInstant {i : ℤ} (hfirst : (Fields.dayLength : ℤ) ≤ i)
    (hlast : i < (daysBeforeYear 10000 + 1) * Fields.dayLength) :
    ∃ t, DateTime.ofInstant i = some t := by
  have hpos : 1 ≤ (i / Fields.dayLength).toNat := by
    simp only [Fields.dayLength] at hfirst ⊢
    omega
  have hle : (i / Fields.dayLength).toNat ≤ daysBeforeYear 10000 := by
    simp only [Fields.dayLength] at hlast ⊢
    omega
  have hrest : (i % Fields.dayLength).toNat < 3600000000 * 24 := by
    simp only [Fields.dayLength]
    omega
  let date := dateOf (i / Fields.dayLength).toNat
  let time := (i % Fields.dayLength).toNat
  let fields := Fields.mk date.1 date.2.1 date.2.2 (time / 3600000000) (time / 60000000 % 60)
    (time / 1000000 % 60) (time % 1000000)
  obtain ⟨hyear, hmonth, hday⟩ := dateOf_valid (f := fields) hpos hle rfl rfl rfl
  have hhour : time / 3600000000 < 24 := Nat.div_lt_of_lt_mul hrest
  have hvalid : fields.Valid :=
    ⟨hyear.1, hyear.2, hmonth.1, hmonth.2, hday.1, hday.2, hhour, Nat.mod_lt _ (by omega),
      Nat.mod_lt _ (by omega), Nat.mod_lt _ (by omega)⟩
  exact ⟨⟨fields, hvalid⟩, dif_pos hvalid⟩

/-! ### Time zones -/

/-- A moment in a time zone: what the clock on the wall shows, and how many microseconds that clock
is ahead of UTC. -/
structure Aware where
  wall : Fields
  valid : wall.Valid
  offset : ℤ
  /-- `utcoffset` is less than a day. -/
  offset_lt : -Fields.dayLength < offset ∧ offset < Fields.dayLength

def Aware.instant (a : Aware) : ℤ := a.wall.instant - a.offset

/-- `astimezone(UTC)`; it overflows before the first year and after the last. -/
def Aware.utc (a : Aware) : Option DateTime := DateTime.ofInstant a.instant

theorem Aware.instant_utc {a : Aware} {t : DateTime} (h : a.utc = some t) :
    t.instant = a.instant :=
  DateTime.ofInstant_eq_some_iff.1 h

end Encoding
