/-
**Moments and their ISO texts.**

A moment of the proleptic Gregorian calendar in UTC, kept by its fields down to the microsecond,
and the text that `isoformat` writes for it.

Main definitions:

* `Fields.Valid`, `DateTime` — the fields of a moment and the calendar's bounds on them;
* `DateTime.isoformat`, `fromisoformat` — writing and reading.

Main results:

* `takeNumber_pad` — a number written with a fixed width is read back, with what follows it;
* `fromisoformat_isoformat` — **reading what was written gives the same moment**.
-/

import TradePulse.Encoding.Decimal

set_option autoImplicit false

namespace Encoding

/-! ### Numbers of a fixed width -/

/-- A number with zeros in front up to a width. -/
def pad (width n : ℕ) : List Char :=
  List.replicate (width - (Nat.toDigits 10 n).length) '0' ++ Nat.toDigits 10 n

/-- The number of a fixed width at the start of a text, and the rest. -/
def takeNumber (width : ℕ) (l : List Char) : Option (ℕ × List Char) :=
  if (l.take width).length = width ∧ (l.take width).all Char.isDigit then
    some (Nat.ofDigitChars 10 (l.take width) 0, l.drop width)
  else none

theorem length_pad {width n : ℕ} (hwidth : 0 < width) (h : n < 10 ^ width) :
    (pad width n).length = width := by
  have hle : (Nat.toDigits 10 n).length ≤ width :=
    (Nat.length_toDigits_le_iff (by omega) hwidth).2 h
  simp only [pad, List.length_append, List.length_replicate]
  omega

theorem allDigits_pad (width n : ℕ) : Decimal.AllDigits (pad width n) :=
  (Decimal.allDigits_replicate _).append (Decimal.allDigits_toDigits n)

/-- **A number of a fixed width is read back.** -/
theorem takeNumber_pad {width n : ℕ} (hwidth : 0 < width) (h : n < 10 ^ width)
    (rest : List Char) : takeNumber width (pad width n ++ rest) = some (n, rest) := by
  have hlen := length_pad hwidth h
  have htake : (pad width n ++ rest).take width = pad width n := by
    rw [List.take_append_of_le_length (by omega), List.take_of_length_le (by omega)]
  have hdrop : (pad width n ++ rest).drop width = rest := by
    rw [List.drop_append_of_le_length (by omega), List.drop_of_length_le (by omega),
      List.nil_append]
  unfold takeNumber
  rw [htake, hdrop, if_pos ⟨hlen, List.all_eq_true.2 (allDigits_pad width n)⟩]
  simp only [pad, Decimal.ofDigitChars_zeros, Nat.ofDigitChars_ten_toDigits]

/-- A letter that must come next. -/
def expect (c : Char) : List Char → Option (List Char)
  | [] => none
  | x :: rest => if x = c then some rest else none

@[simp] theorem expect_cons (c : Char) (rest : List Char) : expect c (c :: rest) = some rest :=
  if_pos rfl

/-! ### Moments -/

/-- Whether February has a day more. -/
def isLeap (year : ℕ) : Bool := year % 4 = 0 ∧ (year % 100 ≠ 0 ∨ year % 400 = 0)

def daysInMonth (year month : ℕ) : ℕ :=
  if month = 2 then (if isLeap year then 29 else 28)
  else if month ∈ [4, 6, 9, 11] then 30
  else 31

/-- The fields of a moment. -/
structure Fields where
  year : ℕ
  month : ℕ
  day : ℕ
  hour : ℕ := 0
  minute : ℕ := 0
  second : ℕ := 0
  microsecond : ℕ := 0
  deriving DecidableEq

/-- The bounds that the calendar sets. -/
structure Fields.Valid (f : Fields) : Prop where
  year_pos : 1 ≤ f.year
  year_le : f.year ≤ 9999
  month_pos : 1 ≤ f.month
  month_le : f.month ≤ 12
  day_pos : 1 ≤ f.day
  day_le : f.day ≤ daysInMonth f.year f.month
  hour_lt : f.hour < 24
  minute_lt : f.minute < 60
  second_lt : f.second < 60
  microsecond_lt : f.microsecond < 1000000

instance (f : Fields) : Decidable f.Valid :=
  decidable_of_iff (1 ≤ f.year ∧ f.year ≤ 9999 ∧ 1 ≤ f.month ∧ f.month ≤ 12 ∧ 1 ≤ f.day ∧
      f.day ≤ daysInMonth f.year f.month ∧ f.hour < 24 ∧ f.minute < 60 ∧ f.second < 60 ∧
      f.microsecond < 1000000)
    ⟨fun ⟨h₁, h₂, h₃, h₄, h₅, h₆, h₇, h₈, h₉, h⟩ => ⟨h₁, h₂, h₃, h₄, h₅, h₆, h₇, h₈, h₉, h⟩,
      fun ⟨h₁, h₂, h₃, h₄, h₅, h₆, h₇, h₈, h₉, h⟩ => ⟨h₁, h₂, h₃, h₄, h₅, h₆, h₇, h₈, h₉, h⟩⟩

/-- A moment, in UTC. -/
structure DateTime where
  fields : Fields
  valid : fields.Valid
  deriving DecidableEq

theorem daysInMonth_le (year month : ℕ) : daysInMonth year month ≤ 31 := by
  unfold daysInMonth
  split
  · split <;> omega
  · split <;> omega

/-- The microseconds, when there are any. -/
def Fields.micros (f : Fields) : List Char :=
  if f.microsecond = 0 then [] else '.' :: pad 6 f.microsecond

def utcOffset : List Char := ['+', '0', '0', ':', '0', '0']

/-- `isoformat`. -/
def DateTime.isoformat (t : DateTime) : List Char :=
  pad 4 t.fields.year ++ '-' :: (pad 2 t.fields.month ++ '-' :: (pad 2 t.fields.day ++ 'T' ::
    (pad 2 t.fields.hour ++ ':' :: (pad 2 t.fields.minute ++ ':' :: (pad 2 t.fields.second ++
      (t.fields.micros ++ utcOffset))))))

/-- The microseconds at the start of a text, and the rest. -/
def takeMicros : List Char → Option (ℕ × List Char)
  | '.' :: rest => takeNumber 6 rest
  | rest => some (0, rest)

/-- The year, the month and the day at the start of a text. -/
def takeDate (l : List Char) : Option ((ℕ × ℕ × ℕ) × List Char) := do
  let (year, l) ← takeNumber 4 l
  let l ← expect '-' l
  let (month, l) ← takeNumber 2 l
  let l ← expect '-' l
  let (day, l) ← takeNumber 2 l
  pure ((year, month, day), l)

/-- The hour, the minute, the second and its fraction at the start of a text. -/
def takeTime (l : List Char) : Option ((ℕ × ℕ × ℕ × ℕ) × List Char) := do
  let (hour, l) ← takeNumber 2 l
  let l ← expect ':' l
  let (minute, l) ← takeNumber 2 l
  let l ← expect ':' l
  let (second, l) ← takeNumber 2 l
  let (micro, l) ← takeMicros l
  pure ((hour, minute, second, micro), l)

/-- `datetime.fromisoformat`, for the texts that `isoformat` writes in UTC. -/
def fromisoformat (l : List Char) : Option DateTime := do
  let ((year, month, day), l) ← takeDate l
  let l ← expect 'T' l
  let ((hour, minute, second, micro), l) ← takeTime l
  let fields := Fields.mk year month day hour minute second micro
  if h : l = utcOffset ∧ fields.Valid then some ⟨fields, h.2⟩ else none

/-! ### Reading what was written -/

theorem takeMicros_micros {f : Fields} (hf : f.Valid) :
    takeMicros (f.micros ++ utcOffset) = some (f.microsecond, utcOffset) := by
  unfold Fields.micros
  split
  · rename_i hzero
    rw [hzero]
    rfl
  · exact takeNumber_pad (by omega) hf.microsecond_lt utcOffset

/-- **Reading what was written gives the same moment.** -/
theorem fromisoformat_isoformat (t : DateTime) : fromisoformat t.isoformat = some t := by
  obtain ⟨f, hf⟩ := t
  have hyear : f.year < 10000 := by have := hf.year_le; omega
  have hmonth : f.month < 100 := by have := hf.month_le; omega
  have hday : f.day < 100 := by
    have := hf.day_le
    have := daysInMonth_le f.year f.month
    omega
  have hhour : f.hour < 100 := by have := hf.hour_lt; omega
  have hminute : f.minute < 100 := by have := hf.minute_lt; omega
  have hsecond : f.second < 100 := by have := hf.second_lt; omega
  have hdate : ∀ rest, takeDate (pad 4 f.year ++ '-' :: (pad 2 f.month ++ '-' ::
      (pad 2 f.day ++ rest))) = some ((f.year, f.month, f.day), rest) := by
    intro rest
    simp [takeDate, takeNumber_pad, hyear, hmonth, hday]
  have htime : takeTime (pad 2 f.hour ++ ':' :: (pad 2 f.minute ++ ':' :: (pad 2 f.second ++
      (f.micros ++ utcOffset)))) =
        some ((f.hour, f.minute, f.second, f.microsecond), utcOffset) := by
    simp [takeTime, takeNumber_pad, takeMicros_micros hf, hhour, hminute, hsecond]
  simp [fromisoformat, DateTime.isoformat, hdate, htime, hf]

end Encoding
