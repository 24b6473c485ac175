import ToriPy.Base.Text

/-!
# Dates and times

Python's `datetime` in UTC: the fields of a valid moment, its distance from the epoch, its ISO 8601
text and `datetime.fromisoformat`. A `datetime` that is read has an offset from UTC or none. The
text of a moment reads back as that moment in UTC (`fromIsoformat_isoformat`).
-/

namespace ToriPy

open List

/-- `calendar.isleap`. -/
def isLeap (year : Nat) : Bool := year % 4 = 0 && (year % 100 ≠ 0 || year % 400 = 0)

def daysInMonth (year month : Nat) : Nat :=
  match month with
  | 2 => if isLeap year then 29 else 28
  | 4 | 6 | 9 | 11 => 30
  | _ => 31

/-- The ranges that the constructor of `datetime` checks. -/
def validDateTime (year month day hour minute second microsecond : Nat) : Bool :=
  1 ≤ year && year ≤ 9999 && 1 ≤ month && month ≤ 12 && 1 ≤ day && day ≤ daysInMonth year month &&
    hour < 24 && minute < 60 && second < 60 && microsecond < 1000000

/-- A moment, by the fields of a `datetime` in UTC. -/
structure DateTime where
  year : Nat
  month : Nat
  day : Nat
  hour : Nat := 0
  minute : Nat := 0
  second : Nat := 0
  microsecond : Nat := 0
  valid : validDateTime year month day hour minute second microsecond = true := by decide
deriving DecidableEq

/-- The days of the years before a year, from year 1 on. -/
def daysBeforeYear (year : Nat) : Nat :=
  (year - 1) * 365 + (year - 1) / 4 - (year - 1) / 100 + (year - 1) / 400

/-- The days of a year before a month. -/
def daysBeforeMonth (year month : Nat) : Nat :=
  ((List.range' 1 (month - 1)).map (daysInMonth year)).sum

/-- `date.toordinal`. -/
def toOrdinal (year month day : Nat) : Nat := daysBeforeYear year + daysBeforeMonth year month + day

namespace DateTime

/-- The fields in the order in which two moments are compared. -/
def fields (time : DateTime) : List Nat :=
  [time.year, time.month, time.day, time.hour, time.minute, time.second, time.microsecond]

/-- `<` of two moments in the same zone. -/
def before (time other : DateTime) : Bool := time.fields < other.fields

/-- The microseconds in a text, which are left out when there are none. -/
def fraction (microsecond : Nat) : List Char :=
  if microsecond = 0 then [] else '.' :: fixedDigits 10 6 microsecond

/-- The text up to the offset. -/
def isoText (time : DateTime) : List Char :=
  fixedDigits 10 4 time.year ++ '-' :: (fixedDigits 10 2 time.month ++ '-' ::
    (fixedDigits 10 2 time.day ++ 'T' :: (fixedDigits 10 2 time.hour ++ ':' ::
      (fixedDigits 10 2 time.minute ++ ':' :: (fixedDigits 10 2 time.second ++
        fraction time.microsecond)))))

/-- `isoformat` of a moment in UTC. -/
def isoformat (time : DateTime) : List Char := time.isoText ++ "+00:00".toList

end DateTime

/-! ### Reading -/

/-- Where the date ends and the time starts. -/
def findSeparator (cs : List Char) : Option Nat :=
  if cs.length = 7 then some 7
  else if cs[4]? = some '-' then
    if cs[5]? = some 'W' then
      if 8 < cs.length ∧ cs[8]? = some '-' then
        if cs.length = 9 then none
        else if (cs[10]?.map Char.isDigit) = some true then some 8
        else some 10
      else some 8
    else some 10
  else if cs[4]? = some 'W' then
    let idx := 7 + ((cs.drop 7).takeWhile Char.isDigit).length
    if idx < 9 then some idx else if idx % 2 = 0 then some 7 else some 8
  else some 8

/-- The month and day of a day of the year, counted from 0. -/
def monthAndDay (year : Nat) : List Nat → Nat → Nat × Nat
  | [], n => (13, n + 1)
  | month :: months, n =>
    if n < daysInMonth year month then (month, n + 1)
    else monthAndDay year months (n - daysInMonth year month)

/-- The date of an ordinal that is close to a year. -/
def fromOrdinalNear (year ordinal : Nat) : Nat × Nat × Nat :=
  let first := toOrdinal year 1 1
  let length := if isLeap year then 366 else 365
  if ordinal < first then (year - 1, 12, 32 + ordinal - first)
  else if ordinal - first < length then (year, monthAndDay year (List.range' 1 12) (ordinal - first))
  else (year + 1, 1, ordinal - first - length + 1)

/-- The date of a day of an ISO week. -/
def isoWeekDate (year week day : Nat) : Option (Nat × Nat × Nat) :=
  let first := toOrdinal year 1 1
  let long := first % 7 = 4 || (first % 7 = 3 && isLeap year)
  if 1 ≤ year ∧ 1 ≤ week ∧ (week < 53 ∨ (week = 53 ∧ long = true)) ∧ 1 ≤ day ∧ day < 8 then
    let weekday := (first + 6) % 7
    let monday := if 3 < weekday then first + 7 - weekday else first - weekday
    some (fromOrdinalNear year (monday + (week - 1) * 7 + (day - 1)))
  else none

/-- The date part. -/
def parseDate (cs : List Char) : Option (Nat × Nat × Nat) := do
  let year ← readDigits 10 (cs.take 4)
  let separated := cs[4]? = some '-'
  let rest := if separated then cs.drop 5 else cs.drop 4
  if rest.head? = some 'W' then
    let week ← readDigits 10 ((rest.drop 1).take 2)
    let rest := rest.drop 3
    if rest = [] then isoWeekDate year week 1
    else if (rest.head? = some '-') = separated then
      let rest := if separated then rest.drop 1 else rest
      isoWeekDate year week (← if rest = [] then none else readDigits 10 (rest.take 1))
    else none
  else
    let month ← if rest.length < 2 then none else readDigits 10 (rest.take 2)
    let rest := rest.drop 2
    if (rest.head? = some '-') = separated then
      let rest := if separated then rest.drop 1 else rest
      let day ← if rest.length < 2 then none else readDigits 10 (rest.take 2)
      some (year, month, day)
    else none

/-- Two digits and what follows them. -/
def twoDigits : List Char → Option (Nat × List Char)
  | a :: b :: rest => (readDigits 10 [a, b]).map fun n => (n, rest)
  | _ => none

/-- The digits behind the seconds, of which six count. -/
def parseFraction (cs : List Char) : Option Nat :=
  if cs ≠ [] ∧ cs.all Char.isDigit then
    (readDigits 10 (cs.take 6)).map fun n => n * 10 ^ (6 - (cs.take 6).length)
  else none

/-- `HH[:MM[:SS[.ffffff]]]`, with or without the colons. -/
def parseHhMmSsFf (cs : List Char) : Option (Nat × Nat × Nat × Nat) := do
  let (hour, rest) ← twoDigits cs
  let separated := rest.head? = some ':'
  if rest = [] then some (hour, 0, 0, 0)
  else
    let (minute, rest) ← twoDigits (if separated then rest.drop 1 else rest)
    if rest = [] then some (hour, minute, 0, 0)
    else if separated ∧ rest.head? ≠ some ':' then none
    else
      let (second, rest) ← twoDigits (if separated then rest.drop 1 else rest)
      match rest with
      | [] => some (hour, minute, second, 0)
      | c :: digits =>
        if c = '.' ∨ c = ',' then
          (parseFraction digits).map fun microsecond => (hour, minute, second, microsecond)
        else none

/-- The offset behind a time, in microseconds. -/
def parseOffset (sign : Char) (cs : List Char) : Option Int :=
  if sign = 'Z' then if cs = [] then some 0 else none
  else if cs.length = 0 ∨ cs.length = 1 ∨ cs.length = 3 then none
  else (parseHhMmSsFf cs).bind fun (hour, minute, second, microsecond) =>
    let offset := ((hour * 60 + minute) * 60 + second) * 1000000 + microsecond
    if offset < 86400000000 then some (if sign = '-' then -(offset : Int) else offset) else none

/-- The characters that start an offset. -/
def isOffsetSign (c : Char) : Bool := c = '+' || c = '-' || c = 'Z'

/-- The time part: the time of day and the offset, if there is one. -/
def parseTime (cs : List Char) : Option ((Nat × Nat × Nat × Nat) × Option Int) := do
  let time ← parseHhMmSsFf (cs.takeWhile (! isOffsetSign ·))
  match cs.dropWhile (! isOffsetSign ·) with
  | [] => some (time, none)
  | sign :: rest => some (time, some (← parseOffset sign rest))

/-- The day after a date, for the time 24:00. -/
def nextDay (year month day : Nat) : Nat × Nat × Nat :=
  if month ≤ 12 ∧ day < daysInMonth year month then (year, month, day + 1)
  else if month ≤ 12 ∧ day = daysInMonth year month then
    if month = 12 then (year + 1, 1, 1) else (year, month + 1, 1)
  else (year, month, day)

/-- The constructor of `datetime`. -/
def DateTime.make (date : Nat × Nat × Nat) (time : Nat × Nat × Nat × Nat) : Option DateTime :=
  let (year, month, day) := date
  let (hour, minute, second, microsecond) := time
  if valid : validDateTime year month day hour minute second microsecond = true then
    some ⟨year, month, day, hour, minute, second, microsecond, valid⟩
  else none

/-- `datetime.fromisoformat`: the fields and the offset, which a naive `datetime` does not have. -/
def fromIsoformat (cs : List Char) : Option (DateTime × Option Int) := do
  if cs.length < 7 then none
  else
    let separator ← findSeparator cs
    let date ← parseDate (cs.take separator)
    if cs.drop (separator + 1) = [] then
      return (← DateTime.make date (0, 0, 0, 0), none)
    else
      let (time, offset) ← parseTime (cs.drop (separator + 1))
      if time.1 = 24 then
        if time = (24, 0, 0, 0) then
          return (← DateTime.make (nextDay date.1 date.2.1 date.2.2) (0, 0, 0, 0), offset)
        else none
      else return (← DateTime.make date time, offset)

/-! ### The text of a moment reads back -/

lemma isDigit_of_mem_fixedDigits {width n c} (h : c ∈ fixedDigits 10 width n) :
    c.isDigit = true := by
  obtain ⟨d, hd, rfl⟩ := mem_fixedDigits (by decide) h
  have all : ∀ d < 10, (Nat.digitChar d).isDigit = true := by decide
  exact all d hd

/-- A digit is none of the characters that structure a text. -/
lemma isDigit_ne {c m : Char} (h : c.isDigit = true) (hm : m.isDigit = false) : c ≠ m := by
  rintro rfl
  rw [h] at hm
  cases hm

/-- Two digits as they are written. -/
lemma twoDigits_fixedDigits {n} (h : n < 100) (rest : List Char) :
    twoDigits (fixedDigits 10 2 n ++ rest) = some (n, rest) := by
  have value : readDigits 10 (fixedDigits 10 2 n) = some n :=
    readDigits_fixedDigits (by decide) (by decide) h
  generalize eq : fixedDigits 10 2 n = ds at value
  have length : ds.length = 2 := by rw [← eq, length_fixedDigits]
  match ds, length with
  | [a, b], _ =>
    rw [cons_append, cons_append, nil_append, twoDigits, value]
    rfl

/-- A date as it is written. -/
lemma parseDate_iso {year month day} (hy : year < 10000) (hm : month < 100) (hd : day < 100) :
    parseDate (fixedDigits 10 4 year ++ '-' :: (fixedDigits 10 2 month ++ '-' ::
      fixedDigits 10 2 day)) = some (year, month, day) := by
  have yearValue : readDigits 10 (fixedDigits 10 4 year) = some year :=
    readDigits_fixedDigits (by decide) (by decide) hy
  have monthValue : readDigits 10 (fixedDigits 10 2 month) = some month :=
    readDigits_fixedDigits (by decide) (by decide) hm
  have dayValue : readDigits 10 (fixedDigits 10 2 day) = some day :=
    readDigits_fixedDigits (by decide) (by decide) hd
  have digit : ∀ c ∈ fixedDigits 10 2 month, c ≠ 'W' := by
    intro c hc
    exact isDigit_ne (isDigit_of_mem_fixedDigits hc) (by decide)
  generalize eq : fixedDigits 10 4 year = ys at *
  generalize eq' : fixedDigits 10 2 month = ms at *
  generalize eq'' : fixedDigits 10 2 day = ds at *
  have hys : ys.length = 4 := by rw [← eq, length_fixedDigits]
  have hms : ms.length = 2 := by rw [← eq', length_fixedDigits]
  have hds : ds.length = 2 := by rw [← eq'', length_fixedDigits]
  match ys, hys, ms, hms, ds, hds with
  | [a, b, c, d], _, [e, f], _, [g, h], _ =>
    have notWeek : e ≠ 'W' := digit e mem_cons_self
    simp [parseDate, yearValue, monthValue, dayValue, notWeek]

/-- The fraction as it is written. -/
lemma parseFraction_fixedDigits {n} (h : n < 1000000) :
    parseFraction (fixedDigits 10 6 n) = some n := by
  have value : readDigits 10 (fixedDigits 10 6 n) = some n :=
    readDigits_fixedDigits (by decide) (by decide) h
  have length := length_fixedDigits 10 6 n
  have whole : (fixedDigits 10 6 n).take 6 = fixedDigits 10 6 n :=
    take_of_length_le (Nat.le_of_eq length)
  have ne : fixedDigits 10 6 n ≠ [] := by
    rw [← length_pos_iff, length]
    decide
  rw [parseFraction, if_pos ⟨ne, all_eq_true.mpr fun c hc => isDigit_of_mem_fixedDigits hc⟩, whole,
    value, length]
  simp

namespace DateTime
variable (time : DateTime)

/-- The time of day as it is written. -/
def clockText : List Char :=
  fixedDigits 10 2 time.hour ++ ':' :: (fixedDigits 10 2 time.minute ++ ':' ::
    (fixedDigits 10 2 time.second ++ fraction time.microsecond))

lemma bounds : time.year < 10000 ∧ time.month < 100 ∧ time.day < 100 ∧ time.hour < 24 ∧
    time.minute < 60 ∧ time.second < 60 ∧ time.microsecond < 1000000 := by
  have valid := time.valid
  simp only [validDateTime, Bool.and_eq_true, decide_eq_true_eq] at valid
  have days : daysInMonth time.year time.month ≤ 31 := by
    unfold daysInMonth
    split
    · split <;> decide
    all_goals decide
  omega

lemma parse_clockText :
    parseHhMmSsFf time.clockText =
      some (time.hour, time.minute, time.second, time.microsecond) := by
  obtain ⟨-, -, -, hour, minute, second, microsecond⟩ := time.bounds
  unfold clockText parseHhMmSsFf
  rw [twoDigits_fixedDigits (by omega)]
  simp only [Option.bind_eq_bind, Option.bind_some, head?_cons, drop_succ_cons, drop_zero,
    reduceCtorEq, if_false, if_true]
  rw [twoDigits_fixedDigits (by omega)]
  simp only [Option.bind_some, reduceCtorEq, if_false, head?_cons, ne_eq, not_true_eq_false,
    and_false, drop_succ_cons, drop_zero]
  rw [twoDigits_fixedDigits (by omega)]
  by_cases none : time.microsecond = 0
  · simp [fraction, none]
  · simp [fraction, none, parseFraction_fixedDigits microsecond]

/-- The characters of the time of day. -/
lemma clockText_chars : ∀ c ∈ time.clockText, c.isDigit = true ∨ c = ':' ∨ c = '.' := by
  intro c hc
  simp only [clockText, mem_append, mem_cons] at hc
  rcases hc with hc | rfl | hc | rfl | hc | hc
  · exact .inl (isDigit_of_mem_fixedDigits hc)
  · exact .inr (.inl rfl)
  · exact .inl (isDigit_of_mem_fixedDigits hc)
  · exact .inr (.inl rfl)
  · exact .inl (isDigit_of_mem_fixedDigits hc)
  unfold fraction at hc
  split at hc
  · cases hc
  · rcases mem_cons.mp hc with rfl | hc
    · exact .inr (.inr rfl)
    · exact .inl (isDigit_of_mem_fixedDigits hc)

/-- No character of the time of day starts an offset. -/
lemma clockText_sign : ∀ c ∈ time.clockText, (! isOffsetSign c) = true := by
  intro c hc
  rcases time.clockText_chars c hc with digit | rfl | rfl
  · simp [isOffsetSign, isDigit_ne digit (show '+'.isDigit = false by decide),
      isDigit_ne digit (show '-'.isDigit = false by decide),
      isDigit_ne digit (show 'Z'.isDigit = false by decide)]
  · decide
  · decide

lemma isoText_eq : time.isoText = fixedDigits 10 4 time.year ++ '-' ::
    (fixedDigits 10 2 time.month ++ '-' :: (fixedDigits 10 2 time.day ++ 'T' :: time.clockText)) :=
  rfl

/-- The text up to the offset holds neither the sign of the offset nor its abbreviation. -/
lemma isoText_chars : ∀ c ∈ time.isoText, c ≠ '+' ∧ c ≠ 'Z' := by
  have digit : ∀ {c}, c.isDigit = true → c ≠ '+' ∧ c ≠ 'Z' := fun h =>
    ⟨isDigit_ne h (by decide), isDigit_ne h (by decide)⟩
  intro c hc
  simp only [isoText_eq, mem_append, mem_cons] at hc
  rcases hc with hc | rfl | hc | rfl | hc | rfl | hc
  · exact digit (isDigit_of_mem_fixedDigits hc)
  · decide
  · exact digit (isDigit_of_mem_fixedDigits hc)
  · decide
  · exact digit (isDigit_of_mem_fixedDigits hc)
  · decide
  · rcases time.clockText_chars c hc with h | rfl | rfl
    · exact digit h
    · decide
    · decide

/-- The time of day with the offset of UTC. -/
lemma parseTime_clockText :
    parseTime (time.clockText ++ "+00:00".toList) =
      some ((time.hour, time.minute, time.second, time.microsecond), some 0) := by
  have stops : (! isOffsetSign '+') = false := by decide
  have offset : parseOffset '+' "00:00".toList = some 0 := by decide
  rw [show "+00:00".toList = '+' :: "00:00".toList by rfl, parseTime,
    takeWhile_append_of_pos time.clockText_sign, takeWhile_cons_of_neg (by simp [stops]),
    append_nil, parse_clockText, dropWhile_append_of_pos time.clockText_sign,
    dropWhile_cons_of_neg (by simp [stops])]
  simp only [Option.bind_eq_bind, Option.bind_some, offset]

/-- The text of a moment reads back as that moment, in UTC. -/
theorem fromIsoformat_isoformat : fromIsoformat time.isoformat = some (time, some 0) := by
  obtain ⟨year, month, day, hour, -, -, -⟩ := time.bounds
  have notWeek : ∀ c ∈ fixedDigits 10 2 time.month, c ≠ 'W' := by
    intro c hc
    exact isDigit_ne (isDigit_of_mem_fixedDigits hc) (by decide)
  have date := parseDate_iso year month day
  have text : time.isoformat = (fixedDigits 10 4 time.year ++ '-' :: (fixedDigits 10 2 time.month ++
      '-' :: fixedDigits 10 2 time.day)) ++ 'T' :: (time.clockText ++ "+00:00".toList) := by
    simp [isoformat, isoText_eq]
  have length : (fixedDigits 10 4 time.year ++ '-' :: (fixedDigits 10 2 time.month ++
      '-' :: fixedDigits 10 2 time.day)).length = 10 := by simp
  have separator : findSeparator time.isoformat = some 10 := by
    rw [text]
    generalize eq : fixedDigits 10 4 time.year = ys
    generalize eq' : fixedDigits 10 2 time.month = ms at *
    have hys : ys.length = 4 := by rw [← eq, length_fixedDigits]
    have hms : ms.length = 2 := by rw [← eq', length_fixedDigits]
    match ys, hys, ms, hms with
    | [a, b, c, d], _, [e, f], _ => simp [findSeparator, notWeek e mem_cons_self]
  have made : DateTime.make (time.year, time.month, time.day)
      (time.hour, time.minute, time.second, time.microsecond) = some time := by
    rw [DateTime.make, dif_pos time.valid]
  unfold fromIsoformat
  rw [separator, if_neg (by rw [text, length_append, length]; omega)]
  simp only [Option.bind_eq_bind, Option.bind_some]
  rw [text, take_append_of_le_length (by omega), take_of_length_le (by omega), date, drop_append,
    drop_eq_nil_of_le (by omega), length]
  simp only [Option.bind_some, Nat.reduceAdd, Nat.reduceSub, drop_succ_cons, drop_zero, nil_append]
  rw [if_neg (by simp), parseTime_clockText]
  simp only [Option.bind_some]
  rw [if_neg (by omega), made]
  rfl

end DateTime

end ToriPy
