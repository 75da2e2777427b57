import Mathlib.Tactic.IntervalCases

/-!
# Timestamps in UTC

Timestamps to the microsecond, and their ISO texts. A text with another offset
is moved to UTC.
-/

namespace PairCell.Lib

structure Clock where
  year : Nat
  month : Nat
  day : Nat
  hour : Nat
  minute : Nat
  second : Nat
  micro : Nat
deriving DecidableEq

def daysIn (year month : Nat) : Nat :=
  if month = 2 then
    if year % 4 = 0 ∧ (year % 100 ≠ 0 ∨ year % 400 = 0) then 29 else 28
  else if month = 4 ∨ month = 6 ∨ month = 9 ∨ month = 11 then 30 else 31

def Clock.Valid (t : Clock) : Prop :=
  0 < t.year ∧ t.year < 10000 ∧ 0 < t.month ∧ t.month ≤ 12 ∧ 0 < t.day ∧
    t.day ≤ daysIn t.year t.month ∧ t.hour < 24 ∧ t.minute < 60 ∧ t.second < 60 ∧
    t.micro < 1000000

instance (t : Clock) : Decidable t.Valid := inferInstanceAs (Decidable (_ ∧ _))

/-- A point in time, in UTC. -/
structure Timestamp where
  clock : Clock
  valid : clock.Valid

namespace Timestamp

def digit (n : Nat) : Char := Char.ofNat (48 + n % 10)

def two (n : Nat) : List Char := [digit (n / 10), digit n]

def four (n : Nat) : List Char :=
  [digit (n / 1000), digit (n / 100), digit (n / 10), digit n]

def six (n : Nat) : List Char :=
  [digit (n / 100000), digit (n / 10000), digit (n / 1000), digit (n / 100),
    digit (n / 10), digit n]

/-- The microseconds are left out if there are none. -/
def isoformat (t : Timestamp) : List Char :=
  four t.clock.year ++ '-' :: two t.clock.month ++ '-' :: two t.clock.day ++ 'T' ::
    two t.clock.hour ++ ':' :: two t.clock.minute ++ ':' :: two t.clock.second ++
    (if t.clock.micro = 0 then [] else '.' :: six t.clock.micro) ++
    ['+', '0', '0', ':', '0', '0']

/-! ## Reading -/

def digit? (c : Char) : Option Nat := if c.isDigit then some (c.toNat - 48) else none

def number? (cs : List Char) : Option Nat :=
  cs.foldl (fun n c => do pure ((← n) * 10 + (← digit? c))) (some 0)

/-- Six digits of a fraction; further ones are dropped and missing ones are zeros. -/
def fraction? (ds : List Char) : Option Nat :=
  if ds = [] then none else number? ((ds ++ List.replicate 6 '0').take 6)

/-- The offset in minutes; nothing if the text has none. -/
def offset? : List Char → Option Int
  | [sign, a, b, ':', c, d] => do
      let hours ← number? [a, b]
      let minutes ← number? [c, d]
      if 24 ≤ hours ∨ 60 ≤ minutes then none
      else if sign = '+' then some (hours * 60 + minutes)
      else if sign = '-' then some (-(hours * 60 + minutes))
      else none
  | _ => none

/-- Both spellings of a time zone that is UTC. -/
def zone (s : List Char) : List Char :=
  if s = ['Z'] then ['+', '0', '0', ':', '0', '0'] else s

def dayBefore (t : Clock) : Clock :=
  if 1 < t.day then { t with day := t.day - 1 }
  else if 1 < t.month then
    { t with month := t.month - 1, day := daysIn t.year (t.month - 1) }
  else { t with year := t.year - 1, month := 12, day := 31 }

def dayAfter (t : Clock) : Clock :=
  if t.day < daysIn t.year t.month then { t with day := t.day + 1 }
  else if t.month < 12 then { t with month := t.month + 1, day := 1 }
  else { t with year := t.year + 1, month := 1, day := 1 }

/-- The clock of UTC when a clock with this offset shows `t`. -/
def toUtc (t : Clock) (offset : Int) : Clock :=
  let minutes : Int := t.hour * 60 + t.minute - offset
  let day := if minutes < 0 then dayBefore t else if 1440 ≤ minutes then dayAfter t else t
  { day with hour := (minutes % 1440 / 60).toNat, minute := (minutes % 60).toNat }

def check (t : Clock) : Option Timestamp := if h : t.Valid then some ⟨t, h⟩ else none

/-- The time after the date, up to the seconds, the fraction and the offset. -/
def readTail (t : Clock) : List Char → Option Timestamp
  | '.' :: r => do
      let micro ← fraction? (r.takeWhile Char.isDigit)
      let offset ← offset? (zone (r.dropWhile Char.isDigit))
      check (toUtc { t with micro := micro } offset)
  | r => do
      let offset ← offset? (zone r)
      check (toUtc t offset)

def read? : List Char → Option Timestamp
  | y :: y' :: y'' :: y''' :: '-' :: m :: m' :: '-' :: d :: d' :: _ :: h :: h' ::
      ':' :: n :: n' ::
      ':' :: s :: s' :: r => do
      let year ← number? [y, y', y'', y''']
      let month ← number? [m, m']
      let day ← number? [d, d']
      let hour ← number? [h, h']
      let minute ← number? [n, n']
      let second ← number? [s, s']
      let t : Clock := ⟨year, month, day, hour, minute, second, 0⟩
      -- the fields are in their ranges before the offset is applied
      if t.Valid then readTail t r else none
  | _ => none

theorem digit?_digit (n : Nat) : digit? (digit n) = some (n % 10) := by
  have h : n % 10 < 10 := Nat.mod_lt _ (by decide)
  unfold digit
  interval_cases n % 10 <;> decide

theorem number?_two {n : Nat} (h : n < 100) : number? (two n) = some n := by
  simp only [two, number?, List.foldl_cons, List.foldl_nil, digit?_digit, Option.pure_def,
    Option.bind_eq_bind, Option.bind_some, Option.some.injEq]
  omega

theorem number?_four {n : Nat} (h : n < 10000) : number? (four n) = some n := by
  simp only [four, number?, List.foldl_cons, List.foldl_nil, digit?_digit, Option.pure_def,
    Option.bind_eq_bind, Option.bind_some, Option.some.injEq]
  omega

theorem number?_six {n : Nat} (h : n < 1000000) : number? (six n) = some n := by
  simp only [six, number?, List.foldl_cons, List.foldl_nil, digit?_digit, Option.pure_def,
    Option.bind_eq_bind, Option.bind_some, Option.some.injEq]
  omega

theorem toUtc_zero {t : Clock} (h : t.Valid) : toUtc t 0 = t := by
  obtain ⟨-, -, -, -, -, -, hhour, hminute, -⟩ := h
  have hlow : ¬((t.hour : Int) * 60 + t.minute - 0 < 0) := by omega
  have hhigh : ¬(1440 ≤ (t.hour : Int) * 60 + t.minute - 0) := by omega
  have hh : (((t.hour : Int) * 60 + t.minute - 0) % 1440 / 60).toNat = t.hour := by omega
  have hm : (((t.hour : Int) * 60 + t.minute - 0) % 60).toNat = t.minute := by omega
  simp only [toUtc, hlow, hhigh, if_false, hh, hm]

theorem isDigit_digit (n : Nat) : (digit n).isDigit = true := by
  have h : n % 10 < 10 := Nat.mod_lt _ (by decide)
  unfold digit
  interval_cases n % 10 <;> decide

def utcOffset : List Char := ['+', '0', '0', ':', '0', '0']

theorem offset?_utc : offset? (zone utcOffset) = some 0 := by decide

theorem readTail_none {t : Clock} (h : t.Valid) : readTail t utcOffset = check t := by
  change (do let offset ← offset? (zone utcOffset); check (toUtc t offset)) = check t
  rw [offset?_utc]
  exact congrArg check (toUtc_zero h)

theorem readTail_micro {t : Clock} {micro : Nat} (hmicro : micro < 1000000)
    (h : { t with micro := micro }.Valid) :
    readTail t ('.' :: six micro ++ utcOffset) = check { t with micro := micro } := by
  have htake : (six micro ++ utcOffset).takeWhile Char.isDigit = six micro := by
    simp [six, isDigit_digit, utcOffset]
  have hdrop : (six micro ++ utcOffset).dropWhile Char.isDigit = utcOffset := by
    simp [six, isDigit_digit, utcOffset]
  have hfraction : fraction? (six micro) = some micro := by
    rw [fraction?, if_neg (by simp [six])]
    exact number?_six hmicro
  rw [List.cons_append, readTail, htake, hdrop, hfraction, offset?_utc]
  exact congrArg check (toUtc_zero h)

/-- A timestamp is read back from its text. -/
theorem read?_isoformat (t : Timestamp) : read? t.isoformat = some t := by
  obtain ⟨⟨year, month, day, hour, minute, second, micro⟩, hvalid⟩ := t
  obtain ⟨hyear', hyear, hmonth', hmonth, hday', hday, hhour, hminute, hsecond,
      hmicro⟩ := hvalid
  simp only at hyear' hyear hmonth' hmonth hday' hday hhour hminute hsecond hmicro
  have hlast : daysIn year month ≤ 31 := by
    unfold daysIn
    split
    · split <;> omega
    · split <;> omega
  have hy := number?_four hyear
  have hm := number?_two (show month < 100 by omega)
  have hd := number?_two (show day < 100 by omega)
  have hh := number?_two (show hour < 100 by omega)
  have hn := number?_two (show minute < 100 by omega)
  have hs := number?_two (show second < 100 by omega)
  have hwhole : (⟨year, month, day, hour, minute, second, 0⟩ : Clock).Valid :=
    ⟨hyear', hyear, hmonth', hmonth, hday', hday, hhour, hminute, hsecond,
      Nat.zero_lt_succ _⟩
  simp only [two, four] at hy hm hd hh hn hs
  by_cases hzero : micro = 0
  · subst hzero
    have htail := readTail_none hwhole
    simp only [utcOffset] at htail
    simp only [isoformat, two, four, if_true, List.cons_append, List.nil_append, read?, hy,
      hm, hd, hh, hn, hs, Option.bind_eq_bind, Option.bind_some, hwhole, htail]
    exact dif_pos _
  · have htail := readTail_micro (t := ⟨year, month, day, hour, minute, second, 0⟩) hmicro
      ⟨hyear', hyear, hmonth', hmonth, hday', hday, hhour, hminute, hsecond, hmicro⟩
    simp only [utcOffset, List.cons_append] at htail
    simp only [isoformat, two, four, hzero, if_false, List.cons_append, List.nil_append,
      read?, hy, hm, hd, hh, hn, hs, Option.bind_eq_bind, Option.bind_some, hwhole,
      if_true, htail]
    exact dif_pos _

end Timestamp

end PairCell.Lib
