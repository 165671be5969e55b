import Mathlib.Algebra.Order.Group.Nat
import Mathlib.Data.List.Basic

namespace MLRunX.CivilDates

/-! Dates of the Gregorian calendar, and times as they are put down in text. -/

structure Date where
  year : Int
  month : Nat
  day : Nat
  deriving DecidableEq, Repr

/-- The days from the first of January 1970. Years begin in March here. -/
def daysOfDate (date : Date) : Int :=
  let year := if date.month ≤ 2 then date.year - 1 else date.year
  let month : Int := ((date.month + 9) % 12 : Nat)
  year / 400 * 146097 + (365 * (year % 400) + year % 400 / 4 - year % 400 / 100) + (153 * month + 2) / 5 +
    date.day - 719469

/-- A day within its four centuries: the century, the four years, the year and the day in it. -/
structure Place where
  century : Int
  quad : Int
  year : Int
  day : Int

def placeOfDay (day : Int) : Place :=
  let century := min (day / 36524) 3
  let rest := day - 36524 * century
  let year := min (rest % 1461 / 365) 3
  ⟨century, rest / 1461, year, rest % 1461 - 365 * year⟩

def monthOfDay (day : Int) : Int := (5 * day + 2) / 153

/-- The last two months are those of the next year. -/
def dateOfPlace (era : Int) (p : Place) : Date where
  year := era * 400 + 100 * p.century + 4 * p.quad + p.year + if 10 ≤ monthOfDay p.day then 1 else 0
  month := (if monthOfDay p.day < 10 then monthOfDay p.day + 3 else monthOfDay p.day - 9).toNat
  day := (p.day - (153 * monthOfDay p.day + 2) / 5 + 1).toNat

def dateOfDays (days : Int) : Date :=
  dateOfPlace ((days + 719468) / 146097) (placeOfDay ((days + 719468) % 146097))

structure Placed (n : Int) (p : Place) : Prop where
  century : 0 ≤ p.century ∧ p.century ≤ 3
  quad : 0 ≤ p.quad ∧ p.quad ≤ 24
  year : 0 ≤ p.year ∧ p.year ≤ 3
  day : 0 ≤ p.day ∧ p.day ≤ 365
  total : 36524 * p.century + 1461 * p.quad + 365 * p.year + p.day = n

theorem placed_placeOfDay {day : Int} (hlow : 0 ≤ day) (hhigh : day < 146097) : Placed day (placeOfDay day) := by
  have hcentury : 0 ≤ min (day / 36524) 3 ∧ min (day / 36524) 3 ≤ 3 ∧
    0 ≤ day - 36524 * min (day / 36524) 3 ∧
      day - 36524 * min (day / 36524) 3 ≤ 36524 := by
    omega
  simp only [placeOfDay]
  generalize min (day / 36524) 3 = century at hcentury
  obtain ⟨hcentury, hcentury', hrest, hrest'⟩ := hcentury
  generalize hrest₀ : day - 36524 * century = rest at hrest hrest'
  have hyear : 0 ≤ min (rest % 1461 / 365) 3 ∧ min (rest % 1461 / 365) 3 ≤ 3 ∧
      0 ≤ rest % 1461 - 365 * min (rest % 1461 / 365) 3 ∧
        rest % 1461 - 365 * min (rest % 1461 / 365) 3 ≤ 365 := by
    omega
  generalize min (rest % 1461 / 365) 3 = year at hyear
  refine ⟨⟨hcentury, hcentury'⟩, ?_, ⟨hyear.1, hyear.2.1⟩, hyear.2.2, ?_⟩
  · change 0 ≤ rest / 1461 ∧ rest / 1461 ≤ 24
    omega
  · change 36524 * century + 1461 * (rest / 1461) + 365 * year + (rest % 1461 - 365 * year) = day
    omega

theorem monthOfDay_bounds {day : Int} (hlow : 0 ≤ day) (hhigh : day ≤ 365) :
    0 ≤ monthOfDay day ∧ monthOfDay day ≤ 11 ∧ 0 ≤ day - (153 * monthOfDay day + 2) / 5 ∧
      day - (153 * monthOfDay day + 2) / 5 ≤ 30 := by
  unfold monthOfDay
  omega

theorem daysOfDate_dateOfPlace (era : Int) {n : Int} {p : Place} (h : Placed n p) :
    daysOfDate (dateOfPlace era p) = era * 146097 + n - 719468 := by
  obtain ⟨⟨hc, hc'⟩, ⟨hq, hq'⟩, ⟨hy, hy'⟩, ⟨hd, hd'⟩, htotal⟩ := h
  simp only [dateOfPlace, daysOfDate]
  obtain ⟨hmonth, hmonth', hday, hday'⟩ := monthOfDay_bounds hd hd'
  have hera : (era * 400 + 100 * p.century + 4 * p.quad + p.year) / 400 = era ∧
      (era * 400 + 100 * p.century + 4 * p.quad + p.year) % 400 = 100 * p.century + 4 * p.quad + p.year := by
    omega
  have hquads : (100 * p.century + 4 * p.quad + p.year) / 4 = 25 * p.century + p.quad := by omega
  have hcenturies : (100 * p.century + 4 * p.quad + p.year) / 100 = p.century := by omega
  by_cases hlate : monthOfDay p.day < 10
  · have hnot : ¬10 ≤ monthOfDay p.day := by omega
    have hfrom : ¬(monthOfDay p.day + 3).toNat ≤ 2 := by omega
    have hback : ((((monthOfDay p.day + 3).toNat + 9) % 12 : Nat) : Int) = monthOfDay p.day := by omega
    simp only [if_pos hlate, if_neg hnot, if_neg hfrom, hback, Int.add_zero, hera.1, hera.2, hquads, hcenturies]
    omega
  · have hpos : 10 ≤ monthOfDay p.day := by omega
    have hfrom : (monthOfDay p.day - 9).toNat ≤ 2 := by omega
    have hback : ((((monthOfDay p.day - 9).toNat + 9) % 12 : Nat) : Int) = monthOfDay p.day := by omega
    simp only [if_neg hlate, if_pos hpos, if_pos hfrom, hback, Int.add_sub_cancel, hera.1, hera.2, hquads,
      hcenturies]
    omega

theorem placed_days (days : Int) : Placed ((days + 719468) % 146097) (placeOfDay ((days + 719468) % 146097)) :=
  placed_placeOfDay (Int.emod_nonneg _ (by decide)) (Int.emod_lt_of_pos _ (by decide))

theorem daysOfDate_dateOfDays (days : Int) : daysOfDate (dateOfDays days) = days := by
  rw [dateOfDays, daysOfDate_dateOfPlace _ (placed_days days)]
  omega

theorem dateOfDays_bounds (days : Int) : (dateOfDays days).month < 100 ∧ (dateOfDays days).day < 100 := by
  obtain ⟨-, -, -, ⟨hd, hd'⟩, -⟩ := placed_days days
  obtain ⟨hmonth, hmonth', hday, hday'⟩ := monthOfDay_bounds hd hd'
  simp only [dateOfDays, dateOfPlace]
  constructor
  · split <;> omega
  · omega

def pad (width n : Nat) : List Char :=
  let digits := Nat.toDigits 10 n
  List.replicate (width - digits.length) '0' ++ digits

/-- A year past 9999 or before 0 has a sign. -/
def yearText (year : Int) : List Char :=
  if 0 ≤ year ∧ year ≤ 9999 then pad 4 year.toNat
  else (if year < 0 then '-' else '+') :: pad 4 year.natAbs

def format (timestamp : Int) : String :=
  let date := dateOfDays (timestamp / 86400)
  let second := (timestamp % 86400).toNat
  String.ofList (yearText date.year ++ '-' :: (pad 2 date.month ++ '-' :: (pad 2 date.day ++ ' ' ::
    (pad 2 (second / 3600) ++ ':' :: (pad 2 (second / 60 % 60) ++ ':' :: pad 2 (second % 60))))))

def number (width : Nat) (cs : List Char) : Option (Nat × List Char) :=
  let digits := (cs.take width).takeWhile Char.isDigit
  if digits.isEmpty then none else some (Nat.ofDigitChars 10 digits 0, cs.drop digits.length)

def yearNumber (cs : List Char) : Option (Int × List Char) :=
  if cs.head? = some '+' then (number cs.tail.length cs.tail).map (fun r => ((r.1 : Int), r.2))
  else if cs.head? = some '-' then (number cs.tail.length cs.tail).map (fun r => (-(r.1 : Int), r.2))
  else (number 4 cs).map (fun r => ((r.1 : Int), r.2))

def literal (c : Char) (cs : List Char) : Option (List Char) := if cs.head? = some c then some cs.tail else none

/-- A date is one that its day has. -/
def parse (text : String) : Option Int := do
  let (year, cs) ← yearNumber text.toList
  let (month, cs) ← number 2 (← literal '-' cs)
  let (day, cs) ← number 2 (← literal '-' cs)
  let (hour, cs) ← number 2 (← literal ' ' cs)
  let (minute, cs) ← number 2 (← literal ':' cs)
  let (second, cs) ← number 2 (← literal ':' cs)
  let days := daysOfDate ⟨year, month, day⟩
  if cs = [] ∧ dateOfDays days = ⟨year, month, day⟩ ∧ hour < 24 ∧ minute < 60 ∧ second < 60 then
    some (days * 86400 + hour * 3600 + minute * 60 + second)
  else none

theorem isDigit_pad (width n : Nat) : ∀ c ∈ pad width n, c.isDigit = true := by
  intro c hc
  rcases List.mem_append.mp hc with hc | hc
  · rw [(List.mem_replicate.mp hc).2]
    rfl
  · exact Nat.isDigit_of_mem_toDigits (by decide) (by decide) hc

theorem ofDigitChars_pad (width n : Nat) : Nat.ofDigitChars 10 (pad width n) 0 = n := by
  rw [pad, Nat.ofDigitChars_append, Nat.ofDigitChars_replicate_zero, Nat.mul_zero, Nat.ofDigitChars_ten_toDigits]

theorem pad_ne_nil (width n : Nat) : pad width n ≠ [] := List.append_ne_nil_of_right_ne_nil _ Nat.toDigits_ne_nil

theorem length_pad {width n : Nat} (hpos : 0 < width) (h : n < 10 ^ width) : (pad width n).length = width := by
  have hle : (Nat.toDigits 10 n).length ≤ width := (Nat.length_toDigits_le_iff (by decide) hpos).mpr h
  rw [pad, List.length_append, List.length_replicate]
  exact Nat.sub_add_cancel hle

theorem number_digits {width : Nat} {digits rest : List Char} (hdigits : ∀ c ∈ digits, c.isDigit = true)
    (hne : digits ≠ []) (hlength : digits.length ≤ width)
    (hend : digits.length = width ∨ ∀ c ∈ rest.head?, c.isDigit = false) :
    number width (digits ++ rest) = some (Nat.ofDigitChars 10 digits 0, rest) := by
  have hstop : (rest.take (width - digits.length)).takeWhile Char.isDigit = [] := by
    rcases hend with heq | hend
    · rw [heq, Nat.sub_self, List.take_zero, List.takeWhile_nil]
    · cases rest with
      | nil => rw [List.take_nil, List.takeWhile_nil]
      | cons c rest =>
          have hc := hend c rfl
          cases width - digits.length with
          | zero => rfl
          | succ k => rw [List.take_succ_cons, List.takeWhile_cons_of_neg (by simp [hc])]
  have htake : ((digits ++ rest).take width).takeWhile Char.isDigit = digits := by
    rw [List.take_append, List.take_of_length_le hlength, List.takeWhile_append_of_pos hdigits, hstop,
      List.append_nil]
  rw [number, htake]
  simp only [List.isEmpty_iff, hne, if_false, List.drop_left]

theorem number_pad {n : Nat} (h : n < 100) (rest : List Char) : number 2 (pad 2 n ++ rest) = some (n, rest) := by
  have hlength : (pad 2 n).length = 2 := length_pad (by decide) h
  rw [number_digits (isDigit_pad 2 n) (pad_ne_nil 2 n) (Nat.le_of_eq hlength) (.inl hlength), ofDigitChars_pad]

theorem yearNumber_plus (cs : List Char) :
    yearNumber ('+' :: cs) = (number cs.length cs).map (fun r => ((r.1 : Int), r.2)) := if_pos rfl

theorem yearNumber_minus (cs : List Char) :
    yearNumber ('-' :: cs) = (number cs.length cs).map (fun r => (-(r.1 : Int), r.2)) := by
  have hplus : ¬('-' :: cs).head? = some '+' := by simp
  exact (if_neg hplus).trans (if_pos rfl)

theorem yearNumber_text (year : Int) {rest : List Char} (hrest : ∀ c ∈ rest.head?, c.isDigit = false) :
    yearNumber (yearText year ++ rest) = some (year, rest) := by
  have hsign : ∀ {cs : List Char} {c : Char}, c.isDigit = false → (∀ d ∈ cs, d.isDigit = true) → cs ≠ [] →
      (cs ++ rest).head? ≠ some c := by
    intro cs c hc hcs hne heq
    rw [List.head?_append_of_ne_nil _ hne] at heq
    rw [hcs c (List.mem_of_head? heq)] at hc
    cases hc
  have hlong : ∀ n, number (pad 4 n ++ rest).length (pad 4 n ++ rest) = some (n, rest) := by
    intro n
    rw [number_digits (isDigit_pad 4 n) (pad_ne_nil 4 n) (by simp) (.inr hrest), ofDigitChars_pad]
  rw [yearText]
  by_cases hyear : 0 ≤ year ∧ year ≤ 9999
  · have hlength : (pad 4 year.toNat).length = 4 := length_pad (by decide) (by omega)
    have hfour := @number_digits 4 _ rest (isDigit_pad 4 year.toNat) (pad_ne_nil 4 year.toNat) (Nat.le_of_eq hlength)
      (.inl hlength)
    rw [if_pos hyear, yearNumber, if_neg (hsign rfl (isDigit_pad 4 _) (pad_ne_nil 4 _)),
      if_neg (hsign rfl (isDigit_pad 4 _) (pad_ne_nil 4 _)), hfour, ofDigitChars_pad, Option.map_some,
      Int.toNat_of_nonneg hyear.1]
  · rw [if_neg hyear]
    by_cases hneg : year < 0
    · rw [if_pos hneg, List.cons_append, yearNumber_minus, hlong, Option.map_some]
      simp only [Option.some.injEq, Prod.mk.injEq, and_true]
      omega
    · rw [if_neg hneg, List.cons_append, yearNumber_plus, hlong, Option.map_some]
      simp only [Option.some.injEq, Prod.mk.injEq, and_true]
      omega

theorem literal_cons (c : Char) (cs : List Char) : literal c (c :: cs) = some cs := if_pos rfl

theorem parse_format (timestamp : Int) : parse (format timestamp) = some timestamp := by
  obtain ⟨hmonth, hday⟩ := dateOfDays_bounds (timestamp / 86400)
  have hsecond : (timestamp % 86400).toNat < 86400 := by omega
  have hlast : number 2 (pad 2 ((timestamp % 86400).toNat % 60)) = some ((timestamp % 86400).toNat % 60, []) := by
    have h := number_pad (n := (timestamp % 86400).toNat % 60) (by omega) []
    rwa [List.append_nil] at h
  have hdate : (⟨(dateOfDays (timestamp / 86400)).year, (dateOfDays (timestamp / 86400)).month,
      (dateOfDays (timestamp / 86400)).day⟩ : Date) = dateOfDays (timestamp / 86400) := rfl
  rw [parse, format, String.toList_ofList, yearNumber_text _ (by simp)]
  simp only [Option.bind_eq_bind, Option.bind_some, literal_cons, number_pad hmonth, number_pad hday,
    number_pad (n := (timestamp % 86400).toNat / 3600) (by omega),
    number_pad (n := (timestamp % 86400).toNat / 60 % 60) (by omega), hlast, hdate, daysOfDate_dateOfDays,
      true_and]
  rw [if_pos (by omega)]
  congr 1
  omega

example : parse "+10000-02-29 23:59:59" = some 253407484799 := by decide +kernel

end MLRunX.CivilDates
