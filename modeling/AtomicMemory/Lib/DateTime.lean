import AtomicMemory.Lib.Calendar

-- Naive and aware datetimes, conversion to UTC, the millisecond ISO form and RFC 3339
-- parsing, with microsecond resolution.

namespace Calendar

def dayTicks : ℕ := 86400000000

def maxTicks : ℕ := dayCount * dayTicks

theorem maxTicks_pos : 0 < maxTicks := by decide

/-- A datetime: microseconds of local time since 0001-01-01T00:00, and the UTC offset in
microseconds when it is aware. -/
structure DateTime where
  ticks : ℕ
  offset : Option ℤ
  ticks_lt : ticks < maxTicks
  offset_lt : ∀ o ∈ offset, o.natAbs < dayTicks
  deriving DecidableEq

namespace DateTime

def instant (d : DateTime) : ℤ := d.ticks - d.offset.getD 0

def InRange (d : DateTime) : Prop := 0 ≤ d.instant ∧ d.instant < maxTicks

instance (d : DateTime) : Decidable d.InRange := inferInstanceAs (Decidable (_ ∧ _))

def utc (n : ℕ) (h : n < maxTicks) : DateTime :=
  ⟨n, some 0, h, by
    rintro o ⟨⟩
    decide⟩

/-- `replace(tzinfo=timezone.utc)`. -/
def replaceUtc (d : DateTime) : DateTime := utc d.ticks d.ticks_lt

theorem toNat_instant_lt {d : DateTime} (h : d.InRange) : d.instant.toNat < maxTicks := by
  obtain ⟨h0, hmax⟩ := h
  omega

/-- `astimezone(timezone.utc)` of an aware datetime; `none` is the `OverflowError`. -/
def astimezoneUtc (d : DateTime) : Option DateTime :=
  if h : d.InRange then some (utc d.instant.toNat (toNat_instant_lt h)) else none

theorem floor_lt {n : ℕ} (h : n < maxTicks) : n / 1000 * 1000 < maxTicks :=
  (Nat.div_mul_le_self n 1000).trans_lt h

def floorUtc (d : DateTime) (h : d.InRange) : DateTime :=
  utc (d.instant.toNat / 1000 * 1000) (floor_lt (toNat_instant_lt h))

theorem day_lt {n : ℕ} (h : n < maxTicks) : n / dayTicks < dayCount :=
  Nat.div_lt_of_lt_mul (by rwa [Nat.mul_comm])

def date (d : DateTime) : Date := Date.ofDayNumber (d.ticks / dayTicks) (day_lt d.ticks_lt)

def hour (d : DateTime) : ℕ := d.ticks % dayTicks / 3600000000

def minute (d : DateTime) : ℕ := d.ticks % 3600000000 / 60000000

def second (d : DateTime) : ℕ := d.ticks % 60000000 / 1000000

def microsecond (d : DateTime) : ℕ := d.ticks % 1000000

theorem hour_lt (d : DateTime) : d.hour < 24 := by
  unfold hour dayTicks
  omega

theorem minute_lt (d : DateTime) : d.minute < 60 := by
  unfold minute
  omega

theorem second_lt (d : DateTime) : d.second < 60 := by
  unfold second
  omega

theorem microsecond_lt (d : DateTime) : d.microsecond < 1000000 := Nat.mod_lt _ (by decide)

end DateTime

/-- The last `k` decimal digits of `n`. -/
def pad : ℕ → ℕ → List Char
  | 0, _ => []
  | k + 1, n => pad k (n / 10) ++ [(n % 10).digitChar]

/-- Read exactly `k` digits after `acc`. -/
def number : ℕ → ℕ → List Char → Option (ℕ × List Char)
  | 0, acc, s => some (acc, s)
  | k + 1, acc, c :: s => if c.isDigit then number k (10 * acc + (c.toNat - 48)) s else none
  | _ + 1, _, [] => none

theorem digitChar_spec : ∀ d < 10, d.digitChar.isDigit = true ∧ d.digitChar.toNat - 48 = d := by
  decide

theorem pad_isDigit (k n : ℕ) : ∀ c ∈ pad k n, c.isDigit = true := by
  induction k generalizing n with
  | zero => simp [pad]
  | succ k ih =>
    intro c hc
    rw [pad, List.mem_append, List.mem_singleton] at hc
    rcases hc with hc | rfl
    · exact ih _ c hc
    · exact (digitChar_spec _ (Nat.mod_lt _ (by decide))).1

theorem pad_length (k n : ℕ) : (pad k n).length = k := by
  induction k generalizing n with
  | zero => rfl
  | succ k ih => rw [pad, List.length_append, ih, List.length_singleton]

theorem number_pad {k n : ℕ} (h : n < 10 ^ k) (j acc : ℕ) (rest : List Char) :
    number (k + j) acc (pad k n ++ rest) = number j (acc * 10 ^ k + n) rest := by
  induction k generalizing n j rest with
  | zero =>
    obtain rfl : n = 0 := by omega
    simp [pad]
  | succ k ih =>
    have hlt : n / 10 < 10 ^ k := by
      rw [Nat.pow_succ] at h
      omega
    obtain ⟨hdigit, hvalue⟩ := digitChar_spec (n % 10) (Nat.mod_lt _ (by decide))
    rw [pad, List.append_assoc, Nat.add_assoc, Nat.add_comm 1 j, ih hlt, List.singleton_append,
      number, if_pos hdigit, hvalue]
    have hacc : 10 * (acc * 10 ^ k + n / 10) + n % 10 = acc * 10 ^ (k + 1) + n := by
      rw [Nat.pow_succ, ← Nat.mul_assoc]
      omega
    rw [hacc]

/-- `isoformat`'s text of a UTC offset; seconds and microseconds only when there are any. -/
def offsetText : Option ℤ → List Char
  | none => []
  | some o =>
    let n := o.natAbs
    (if o < 0 then '-' else '+') :: pad 2 (n / 3600000000) ++
      ':' :: pad 2 (n % 3600000000 / 60000000) ++
      (if n % 60000000 = 0 then []
        else ':' :: pad 2 (n % 60000000 / 1000000) ++
          (if n % 1000000 = 0 then [] else '.' :: pad 6 (n % 1000000)))

def DateTime.millisText (d : DateTime) : List Char :=
  pad 4 d.date.year ++ '-' :: (pad 2 d.date.month ++ '-' :: (pad 2 d.date.day ++ 'T' ::
    (pad 2 d.hour ++ ':' :: (pad 2 d.minute ++ ':' :: (pad 2 d.second ++ '.' ::
      pad 3 (d.microsecond / 1000))))))

/-- `isoformat(timespec="milliseconds")`. -/
def DateTime.isoMillis (d : DateTime) : List Char := d.millisText ++ offsetText d.offset

def expect (c : Char) : List Char → Option (List Char)
  | d :: s => if d = c then some s else none
  | [] => none

def fraction : List Char → Option (ℕ × List Char)
  | '.' :: s =>
    let digits := s.takeWhile Char.isDigit
    if digits = [] then none
    else do
      let (micros, _) ← number 6 0 (digits ++ ['0', '0', '0', '0', '0', '0'])
      some (micros, s.dropWhile Char.isDigit)
  | s => some (0, s)

def zone : List Char → Option ℤ
  | ['Z'] | ['z'] => some 0
  | sign :: s => do
    let (hours, s) ← number 2 0 s
    let s ← expect ':' s
    let (minutes, s) ← number 2 0 s
    if s = [] ∧ hours ≤ 23 ∧ minutes ≤ 59 then
      if sign = '+' then some (60 * hours + minutes)
      else if sign = '-' then some (-(60 * hours + minutes))
      else none
    else none
  | [] => none

theorem daysInYear_le : ∀ leap : Bool, ∀ m ≤ 12, 1 ≤ m →
    daysBeforeMonth leap m + daysInMonth leap m ≤ 365 + (if leap then 1 else 0) := by
  decide

theorem Date.dayNumber_lt_year (d : Date) : d.dayNumber < daysBeforeYear (d.year + 1) := by
  have hmonth := daysInYear_le (isLeap d.year) d.month d.month_le d.month_pos
  have hday := d.day_le
  have hpos := d.day_pos
  have hyear : daysBeforeYear d.year + 365 + (if isLeap d.year then 1 else 0) ≤
      daysBeforeYear (d.year + 1) := by
    have hy := d.year_pos
    unfold daysBeforeYear
    split
    · rename_i hleap
      rw [isLeap_iff] at hleap
      omega
    · omega
  unfold Date.dayNumber
  omega

theorem Date.dayNumber_lt (d : Date) : d.dayNumber < dayCount := by
  have hmax := daysBeforeYear_le (show d.year + 1 ≤ 10000 from Nat.succ_le_succ d.year_le)
  have hcount : daysBeforeYear 10000 = dayCount := by decide
  have hyear := d.dayNumber_lt_year
  omega

def Date.ofFields (year month day : ℕ) : Option Date :=
  if h : 1 ≤ year ∧ year ≤ 9999 ∧ 1 ≤ month ∧ month ≤ 12 ∧ 1 ≤ day ∧
      day ≤ daysInMonth (isLeap year) month then
    some ⟨year, month, day, h.1, h.2.1, h.2.2.1, h.2.2.2.1, h.2.2.2.2.1, h.2.2.2.2.2⟩
  else none

def timeTicks (hour minute second micros : ℕ) : ℕ :=
  ((hour * 60 + minute) * 60 + second) * 1000000 + micros

def DateTime.ofFields (date : Date) (hour minute second micros : ℕ) (offsetMinutes : ℤ) :
    Option DateTime :=
  if h : hour ≤ 23 ∧ minute ≤ 59 ∧ second ≤ 59 ∧ micros < 1000000 ∧
      (offsetMinutes * 60000000).natAbs < dayTicks then
    some
      { ticks := date.dayNumber * dayTicks + timeTicks hour minute second micros
        offset := some (offsetMinutes * 60000000)
        ticks_lt := by
          have hday := date.dayNumber_lt
          have htime : timeTicks hour minute second micros < dayTicks := by
            unfold timeTicks dayTicks
            omega
          calc date.dayNumber * dayTicks + timeTicks hour minute second micros
              < (date.dayNumber + 1) * dayTicks := by rw [Nat.succ_mul]; omega
            _ ≤ maxTicks := Nat.mul_le_mul_right _ hday
        offset_lt := by
          rintro o ⟨⟩
          exact h.2.2.2.2 }
  else none

/-- The datetime of an RFC 3339 text with a year from 1 and without a leap second. -/
def parseRfc3339 (s : List Char) : Option DateTime := do
  let (year, s) ← number 4 0 s
  let s ← expect '-' s
  let (month, s) ← number 2 0 s
  let s ← expect '-' s
  let (day, s) ← number 2 0 s
  let s ← expect 'T' s <|> expect 't' s
  let (hour, s) ← number 2 0 s
  let s ← expect ':' s
  let (minute, s) ← number 2 0 s
  let s ← expect ':' s
  let (second, s) ← number 2 0 s
  let (micros, s) ← fraction s
  let offsetMinutes ← zone s
  let date ← Date.ofFields year month day
  DateTime.ofFields date hour minute second micros offsetMinutes

theorem number_pad_zero {k n : ℕ} (h : n < 10 ^ k) (rest : List Char) :
    number k 0 (pad k n ++ rest) = some (n, rest) := by
  have hread := number_pad h 0 0 rest
  rwa [Nat.zero_mul, Nat.zero_add, number] at hread

theorem fraction_pad {ms : ℕ} (h : ms < 1000) :
    fraction ('.' :: (pad 3 ms ++ ['Z'])) = some (ms * 1000, ['Z']) := by
  have htake : (pad 3 ms ++ ['Z']).takeWhile Char.isDigit = pad 3 ms := by
    rw [List.takeWhile_append_of_pos (pad_isDigit 3 ms)]
    simp
  have hdrop : (pad 3 ms ++ ['Z']).dropWhile Char.isDigit = ['Z'] := by
    rw [List.dropWhile_append_of_pos (pad_isDigit 3 ms)]
    simp
  have hne : pad 3 ms ≠ [] := by
    intro hnil
    have := pad_length 3 ms
    rw [hnil] at this
    cases this
  have hzeros : ['0', '0', '0', '0', '0', '0'] = pad 3 0 ++ ['0', '0', '0'] := rfl
  have hnumber : number 6 0 (pad 3 ms ++ ['0', '0', '0', '0', '0', '0']) =
      some (ms * 1000, ['0', '0', '0']) := by
    rw [hzeros, number_pad (k := 3) h 3 0, number_pad (k := 3) (by decide) 0, number]
    simp
  unfold fraction
  simp only [htake, hdrop, hnumber, if_neg hne]
  rfl

theorem Date.ofFields_self (d : Date) : Date.ofFields d.year d.month d.day = some d :=
  dif_pos ⟨d.year_pos, d.year_le, d.month_pos, d.month_le, d.day_pos, d.day_le⟩

theorem dayNumber_date (d : DateTime) : d.date.dayNumber = d.ticks / dayTicks :=
  Date.dayNumber_ofDayNumber _ _

theorem timeTicks_floor (d : DateTime) :
    d.ticks / dayTicks * dayTicks +
      timeTicks d.hour d.minute d.second (d.microsecond / 1000 * 1000) =
        d.ticks / 1000 * 1000 := by
  unfold timeTicks DateTime.hour DateTime.minute DateTime.second DateTime.microsecond dayTicks
  omega

theorem parseRfc3339_millisText (n : ℕ) (h : n < maxTicks) :
    parseRfc3339 ((DateTime.utc n h).millisText ++ ['Z']) =
      some (DateTime.utc (n / 1000 * 1000) (DateTime.floor_lt h)) := by
  set d := DateTime.utc n h with hd
  have hhour : d.hour ≤ 23 := Nat.le_of_lt_succ d.hour_lt
  have hminute : d.minute ≤ 59 := Nat.le_of_lt_succ d.minute_lt
  have hsecond : d.second ≤ 59 := Nat.le_of_lt_succ d.second_lt
  have hmicro : d.microsecond / 1000 < 1000 := Nat.div_lt_of_lt_mul d.microsecond_lt
  have hyear := d.date.year_le
  have hmonth := d.date.month_le
  have hday := d.date.day_le_31
  have hresult : DateTime.ofFields d.date d.hour d.minute d.second (d.microsecond / 1000 * 1000) 0 =
      some (DateTime.utc (n / 1000 * 1000) (DateTime.floor_lt h)) := by
    unfold DateTime.ofFields
    rw [dif_pos ⟨hhour, hminute, hsecond, by omega, by decide⟩]
    refine congrArg some ?_
    simp only [DateTime.utc, DateTime.mk.injEq, dayNumber_date, timeTicks_floor]
    exact ⟨rfl, rfl⟩
  -- the reader takes the six numbers, the fraction and the zone in turn
  unfold parseRfc3339 DateTime.millisText
  simp only [List.append_assoc, List.cons_append]
  rw [number_pad_zero (by omega)]
  simp only [Option.bind_eq_bind, Option.bind_some, expect, if_true]
  rw [number_pad_zero (by omega)]
  simp only [Option.bind_some, if_true]
  rw [number_pad_zero (by omega)]
  simp only [Option.bind_some, if_true, Option.orElse_eq_orElse, Option.orElse_eq_or,
    Option.some_or]
  rw [number_pad_zero (by omega)]
  simp only [Option.bind_some, if_true]
  rw [number_pad_zero (by omega)]
  simp only [Option.bind_some, if_true]
  rw [number_pad_zero (by omega)]
  simp only [Option.bind_some]
  rw [fraction_pad hmicro]
  simp only [Option.bind_some, zone, Date.ofFields_self]
  exact hresult

namespace DateTime

/-- The UTC millisecond form with a trailing `Z`, for an instant that has one. -/
def zText (d : DateTime) : String :=
  if h : d.InRange then
    String.ofList ((utc d.instant.toNat (toNat_instant_lt h)).millisText ++ ['Z'])
  else ""

/-- `floorUtc`, where an instant out of range stays as it is. -/
def floored (d : DateTime) : DateTime := if h : d.InRange then d.floorUtc h else d

theorem parseRfc3339_zText {d : DateTime} (h : d.InRange) :
    parseRfc3339 d.zText.toList = some d.floored := by
  rw [zText, dif_pos h, String.toList_ofList, parseRfc3339_millisText, floored, dif_pos h]
  rfl

/-- The sign of an offset does not occur in the date and the time of day. -/
theorem plus_not_mem_millisText (d : DateTime) : '+' ∉ d.millisText := by
  have hpad (k n : ℕ) : '+' ∉ pad k n := fun h => absurd (pad_isDigit k n _ h) (by decide)
  simp [millisText, hpad]

end DateTime

end Calendar
