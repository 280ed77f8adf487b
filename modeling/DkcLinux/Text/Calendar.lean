import DkcLinux.Text.PyStr
import Mathlib.Tactic.IntervalCases

/-!
# The proleptic Gregorian calendar of `datetime`

A UTC `datetime` without microseconds is the number of seconds since 0001-01-01T00:00:00.
`ordToYmd` and `ymdToOrd` are `datetime`'s `_ord2ymd` and `_ymd2ord`; `strftime` and `strptime`
are for the one format `%Y-%m-%dT%H:%M:%SZ`, and `strptime_strftime` is their round trip.
-/

namespace Calendar

def isLeap (y : Nat) : Bool := y % 4 == 0 && (y % 100 != 0 || y % 400 == 0)

/-- `_days_in_month`. -/
def daysInMonth (y m : Nat) : Nat :=
  if m = 2 && isLeap y then 29
  else [0, 31, 28, 31, 30, 31, 30, 31, 31, 30, 31, 30, 31].getD m 0

/-- `_DAYS_BEFORE_MONTH`. -/
def daysBeforeMonthTable (m : Nat) : Nat :=
  [0, 0, 31, 59, 90, 120, 151, 181, 212, 243, 273, 304, 334].getD m 0

def daysBeforeMonth (y m : Nat) : Nat := daysBeforeMonthTable m + if m > 2 && isLeap y then 1 else 0

def daysBeforeYear (y : Nat) : Nat :=
  let z := y - 1
  z * 365 + z / 4 - z / 100 + z / 400

/-- Day 1 is 0001-01-01. -/
def ymdToOrd (y m d : Nat) : Nat := daysBeforeYear y + daysBeforeMonth y m + d

/-- Month and day of the `n`-th day (from 0) of a year. -/
def monthDay (leap : Bool) (n : Nat) : Nat × Nat :=
  let month := (n + 50) / 32
  let preceding := daysBeforeMonthTable month + if month > 2 && leap then 1 else 0
  if preceding > n then
    let month := month - 1
    let preceding := preceding -
      ([0, 31, 28, 31, 30, 31, 30, 31, 31, 30, 31, 30, 31].getD month 0 +
        if month = 2 && leap then 1 else 0)
    (month, n - preceding + 1)
  else (month, n - preceding + 1)

def ordToYmd (n : Nat) : Nat × Nat × Nat :=
  let n := n - 1
  let n400 := n / 146097
  let n := n % 146097
  let n100 := n / 36524
  let n := n % 36524
  let n4 := n / 1461
  let n := n % 1461
  let n1 := n / 365
  let n := n % 365
  let year := n400 * 400 + 1 + (n100 * 100 + n4 * 4 + n1)
  if n1 = 4 ∨ n100 = 4 then (year - 1, 12, 31)
  else
    let leap := n1 == 3 && (n4 != 24 || n100 == 3)
    (year, monthDay leap n)

/-- The first second that `datetime` cannot represent (10000-01-01). -/
def maxSeconds : Nat := 3652059 * 86400

/-! ## Ordinals -/

/-- The month table, checked day by day. -/
theorem monthDay_spec (y : Nat) {n : Nat} (hn : n < if isLeap y then 366 else 365) :
    let md := monthDay (isLeap y) n
    1 ≤ md.1 ∧ md.1 ≤ 12 ∧ 1 ≤ md.2 ∧ md.2 ≤ daysInMonth y md.1 ∧ daysBeforeMonth y md.1 + md.2 = n + 1 := by
  simp only [daysInMonth, daysBeforeMonth]
  have key : ∀ leap : Bool, ∀ n : Fin 366, n.val < (if leap then 366 else 365) →
      let md := monthDay leap n
      1 ≤ md.1 ∧ md.1 ≤ 12 ∧ 1 ≤ md.2 ∧
        md.2 ≤ (if md.1 = 2 && leap then 29
          else [0, 31, 28, 31, 30, 31, 30, 31, 31, 30, 31, 30, 31].getD md.1 0) ∧
        daysBeforeMonthTable md.1 + (if md.1 > 2 && leap then 1 else 0) + md.2 = n.val + 1 := by
    decide +kernel
  have hlt : n < 366 := by split at hn <;> omega
  exact key (isLeap y) ⟨n, hlt⟩ hn

/-- Years, counted in the cycles that `ordToYmd` divides out. -/
theorem daysBeforeYear_cycles {a b c d : Nat} (hb : b < 4) (hc : c < 25) (hd : d < 4) :
    daysBeforeYear (a * 400 + 1 + (b * 100 + c * 4 + d)) = a * 146097 + b * 36524 + c * 1461 + d * 365 := by
  simp only [daysBeforeYear]
  have h4 : (a * 400 + 1 + (b * 100 + c * 4 + d) - 1) / 4 = a * 100 + b * 25 + c := by omega
  have h100 : (a * 400 + 1 + (b * 100 + c * 4 + d) - 1) / 100 = a * 4 + b := by omega
  have h400 : (a * 400 + 1 + (b * 100 + c * 4 + d) - 1) / 400 = a := by omega
  rw [h4, h100, h400]
  omega

theorem isLeap_cycles {a b c d : Nat} (hb : b < 4) (hc : c < 25) (hd : d < 4) :
    isLeap (a * 400 + 1 + (b * 100 + c * 4 + d)) = (d == 3 && (c != 24 || b == 3)) := by
  rw [Bool.eq_iff_iff]
  simp only [isLeap, Bool.and_eq_true, Bool.or_eq_true, beq_iff_eq, bne_iff_ne]
  omega

/-- The 366th day of a leap year, which the division by 365 overshoots. -/
theorem ymdToOrd_last {a b c : Nat} (hb : b < 4) (hc : c < 25) (hcb : c = 24 → b = 3) :
    ymdToOrd (a * 400 + 1 + (b * 100 + c * 4 + 3)) 12 31 =
      a * 146097 + b * 36524 + c * 1461 + 3 * 365 + 366 := by
  have hleap : isLeap (a * 400 + 1 + (b * 100 + c * 4 + 3)) = true := by
    rw [isLeap_cycles hb hc (by omega)]
    simp only [Bool.and_eq_true, Bool.or_eq_true, beq_iff_eq, bne_iff_ne, true_and]
    omega
  rw [ymdToOrd, daysBeforeYear_cycles hb hc (by omega), daysBeforeMonth, hleap]
  simp only [daysBeforeMonthTable, List.getD_eq_getElem?_getD]
  simp

/-- `ordToYmd` finds a real date, and it is the date of that ordinal. -/
theorem ordToYmd_spec {n : Nat} (hn : 1 ≤ n) :
    let t := ordToYmd n
    1 ≤ t.1 ∧ 1 ≤ t.2.1 ∧ t.2.1 ≤ 12 ∧ 1 ≤ t.2.2 ∧ t.2.2 ≤ daysInMonth t.1 t.2.1 ∧
      ymdToOrd t.1 t.2.1 t.2.2 = n := by
  simp only [ordToYmd]
  generalize ha : (n - 1) / 146097 = a
  generalize hn1 : (n - 1) % 146097 = n₁
  generalize hb : n₁ / 36524 = b
  generalize hn2 : n₁ % 36524 = n₂
  generalize hc : n₂ / 1461 = c
  generalize hn3 : n₂ % 1461 = n₃
  generalize hd : n₃ / 365 = d
  generalize hn4 : n₃ % 365 = n₄
  split
  · next hlast =>
    -- the last day of a 4-year or a 400-year cycle
    rcases Nat.lt_or_ge b 4 with hb | hb
    · have hd' : d = 4 := by omega
      have hyear : a * 400 + 1 + (b * 100 + c * 4 + d) - 1 = a * 400 + 1 + (b * 100 + c * 4 + 3) := by
        omega
      have hord := ymdToOrd_last (a := a) (b := b) (c := c) hb (by omega) (by omega)
      dsimp only
      rw [hyear, hord]
      exact ⟨by omega, by omega, by omega, by omega, by simp [daysInMonth], by omega⟩
    · have hyear : a * 400 + 1 + (b * 100 + c * 4 + d) - 1 = a * 400 + 1 + (3 * 100 + 24 * 4 + 3) := by
        omega
      have hord := ymdToOrd_last (a := a) (b := 3) (c := 24) (by omega) (by omega) (by omega)
      dsimp only
      rw [hyear, hord]
      exact ⟨by omega, by omega, by omega, by omega, by simp [daysInMonth], by omega⟩
  · next hlast =>
    have hb4 : b < 4 := by omega
    have hd4 : d < 4 := by omega
    have hc25 : c < 25 := by omega
    have hleap := isLeap_cycles (a := a) hb4 hc25 hd4
    have hm := monthDay_spec (a * 400 + 1 + (b * 100 + c * 4 + d)) (n := n₄) (by split <;> omega)
    rw [hleap] at hm
    obtain ⟨h1, h2, h3, h4, h5⟩ := hm
    refine ⟨by omega, h1, h2, h3, h4, ?_⟩
    rw [ymdToOrd, Nat.add_assoc, h5, daysBeforeYear_cycles hb4 hc25 hd4]
    omega

theorem ordToYmd_year_lt {n : Nat} (hn : n ≤ 3652059) : (ordToYmd n).1 < 10000 := by
  simp only [ordToYmd]
  split
  · simp only; omega
  · simp only; omega

/-! ## Text -/

/-- A decimal digit, ASCII. -/
def digit (n : Nat) : Char := Char.ofNat (48 + n % 10)

def two (n : Nat) : List Char := [digit (n / 10), digit n]

def four (n : Nat) : List Char := [digit (n / 1000), digit (n / 100), digit (n / 10), digit n]

/-- `strftime("%Y-%m-%dT%H:%M:%SZ")`. -/
def strftime (t : Nat) : String :=
  let (y, m, d) := ordToYmd (t / 86400 + 1)
  let s := t % 86400
  String.ofList (four y ++ '-' :: two m ++ '-' :: two d ++ 'T' :: two (s / 3600) ++
    ':' :: two (s / 60 % 60) ++ ':' :: two (s % 60) ++ ['Z'])

/-- `^\d{4}-\d{2}-\d{2}T\d{2}:\d{2}:\d{2}Z$`. -/
def isUtcShape (s : String) : Bool :=
  match s.toList with
  | [y1, y2, y3, y4, '-', m1, m2, '-', d1, d2, 'T', h1, h2, ':', n1, n2, ':', s1, s2, 'Z'] =>
    [y1, y2, y3, y4, m1, m2, d1, d2, h1, h2, n1, n2, s1, s2].all fun c => (Py.decimal c).isSome
  | _ => false

/-- `int` of two digits. -/
def int2 (a b : Char) : Option Nat := do return 10 * (← Py.decimal a) + (← Py.decimal b)

/-- `%m`: `1[0-2]|0[1-9]`. -/
def month (a b : Char) : Bool := (a == '1' && '0' ≤ b && b ≤ '2') || (a == '0' && '1' ≤ b && b ≤ '9')

/-- `%d`: `3[0-1]|[1-2]\d|0[1-9]`. -/
def day (a b : Char) : Bool :=
  (a == '3' && '0' ≤ b && b ≤ '1') || (a == '1' || a == '2') || (a == '0' && '1' ≤ b && b ≤ '9')

/-- `%H`: `2[0-3]|[0-1]\d`. -/
def hour (a b : Char) : Bool := (a == '2' && '0' ≤ b && b ≤ '3') || a == '0' || a == '1'

/-- `%M`: `[0-5]\d`, and `%S` less the leap seconds, which `datetime` refuses. -/
def sixty (a : Char) : Bool := '0' ≤ a && a ≤ '5'

/-- `datetime(y, m, d, H, M, S)` as seconds. -/
def datetime (y m d hh mm ss : Nat) : Option Nat :=
  if 1 ≤ y && d ≤ daysInMonth y m then some ((ymdToOrd y m d - 1) * 86400 + hh * 3600 + mm * 60 + ss)
  else none

/-- `datetime.strptime(_, "%Y-%m-%dT%H:%M:%SZ")` of a text with two digits in each field after the
year, which is what `_UTC_RE` lets through. A `\d` is any Unicode decimal digit. -/
def strptime (s : String) : Option Nat :=
  match s.toList with
  | [y1, y2, y3, y4, '-', m1, m2, '-', d1, d2, 'T', h1, h2, ':', n1, n2, ':', s1, s2, 'Z'] => do
    let y := 100 * (← int2 y1 y2) + (← int2 y3 y4)
    let m ← int2 m1 m2
    let d ← int2 d1 d2
    let hh ← int2 h1 h2
    let mm ← int2 n1 n2
    let ss ← int2 s1 s2
    if month m1 m2 && day d1 d2 && hour h1 h2 && sixty n1 && sixty s1 then datetime y m d hh mm ss
    else none
  | _ => none

/-! ## Round trip -/

theorem decimal_digit (n : Nat) : Py.decimal (digit n) = some (n % 10) := by
  have key : ∀ k : Fin 10, Py.decimal (Char.ofNat (48 + k.val)) = some k.val := by decide +kernel
  exact key ⟨n % 10, Nat.mod_lt _ (by omega)⟩

theorem isUtcShape_strftime (t : Nat) : isUtcShape (strftime t) = true := by
  rcases hymd : ordToYmd (t / 86400 + 1) with ⟨y, m, d⟩
  simp [isUtcShape, strftime, hymd, four, two, decimal_digit]

theorem int2_two {n : Nat} (hn : n < 100) : int2 (digit (n / 10)) (digit n) = some n := by
  simp only [int2, decimal_digit, Option.bind_eq_bind, Option.bind_some, Option.pure_def]
  congr 1
  omega

theorem month_two : ∀ m : Fin 13, 1 ≤ m.val → month (digit (m.val / 10)) (digit m.val) = true := by
  decide +kernel

theorem day_two : ∀ d : Fin 32, 1 ≤ d.val → day (digit (d.val / 10)) (digit d.val) = true := by
  decide +kernel

theorem hour_two : ∀ h : Fin 24, hour (digit (h.val / 10)) (digit h.val) = true := by
  decide +kernel

theorem sixty_two : ∀ n : Fin 60, sixty (digit (n.val / 10)) = true := by decide +kernel

theorem daysInMonth_le {y m : Nat} (h1 : 1 ≤ m) (h2 : m ≤ 12) : daysInMonth y m ≤ 31 := by
  unfold daysInMonth
  split
  · omega
  · interval_cases m <;> decide

theorem strptime_strftime {t : Nat} (ht : t < maxSeconds) : strptime (strftime t) = some t := by
  have hspec := ordToYmd_spec (n := t / 86400 + 1) (by omega)
  have hyear : (ordToYmd (t / 86400 + 1)).1 < 10000 :=
    ordToYmd_year_lt (by simp only [maxSeconds] at ht; omega)
  rcases hymd : ordToYmd (t / 86400 + 1) with ⟨y, m, d⟩
  rw [hymd] at hspec hyear
  obtain ⟨hy, hm1, hm2, hd1, hd2, hord⟩ := hspec
  dsimp only at hy hm1 hm2 hd1 hd2 hord hyear
  have hd31 : d ≤ 31 := le_trans hd2 (daysInMonth_le hm1 hm2)
  have hmonth := month_two ⟨m, by omega⟩ hm1
  have hday := day_two ⟨d, by omega⟩ hd1
  have hhour := hour_two ⟨t % 86400 / 3600, by omega⟩
  have hmin := sixty_two ⟨t % 86400 / 60 % 60, by omega⟩
  have hsec := sixty_two ⟨t % 86400 % 60, by omega⟩
  dsimp only at hmonth hday hhour hmin hsec
  have hy1 : int2 (digit (y / 1000)) (digit (y / 100)) = some (y / 100) := by
    simpa [Nat.div_div_eq_div_mul] using int2_two (n := y / 100) (by omega)
  have hy2 : int2 (digit (y / 10)) (digit y) = some (y % 100) := by
    simp only [int2, decimal_digit, Option.bind_eq_bind, Option.bind_some, Option.pure_def]
    congr 1
    omega
  simp only [strptime, strftime, hymd, String.toList_ofList, four, two, List.cons_append,
    List.nil_append, hy1, hy2, int2_two (n := m) (by omega), int2_two (n := d) (by omega),
    int2_two (n := t % 86400 / 3600) (by omega), int2_two (n := t % 86400 / 60 % 60) (by omega),
    int2_two (n := t % 86400 % 60) (by omega), hmonth, hday, hhour, hmin, hsec, Option.bind_eq_bind,
    Option.bind_some, Bool.and_self, if_true]
  have hback : 100 * (y / 100) + y % 100 = y := by omega
  rw [hback, datetime, if_pos (by simp [hy, hd2]), hord]
  congr 1
  omega

/-! ## Range -/

theorem decimal_lt {c : Char} {v : Nat} (h : Py.decimal c = some v) : v < 10 := by
  simp only [Py.decimal, Option.map_eq_some_iff] at h
  obtain ⟨z, hz, rfl⟩ := h
  have hp := List.find?_some hz
  simp only [Bool.and_eq_true, decide_eq_true_eq] at hp
  omega

theorem decimal_ascii {c : Char} (h : '0' ≤ c) (h' : c ≤ '9') : Py.decimal c = some (c.toNat - 48) := by
  have hlo : 48 ≤ c.toNat := by simpa [Char.le_def, UInt32.le_iff_toNat_le] using h
  have hhi : c.toNat ≤ 57 := by simpa [Char.le_def, UInt32.le_iff_toNat_le] using h'
  simp only [Py.decimal, Py.decimalZeros]
  rw [List.find?_cons_of_pos (by simp; omega)]
  rfl

/-- A first digit of at most `u` bounds the number. -/
theorem int2_lt {a b : Char} {n : Nat} {u : Char} (h : int2 a b = some n) (h0 : '0' ≤ a)
    (hu : a ≤ u) (hu9 : u ≤ '9') : n < 10 * (u.toNat - 47) := by
  have ha := decimal_ascii h0 (le_trans hu hu9)
  have hau : a.toNat ≤ u.toNat := by simpa [Char.le_def, UInt32.le_iff_toNat_le] using hu
  have h48 : 48 ≤ a.toNat := by simpa [Char.le_def, UInt32.le_iff_toNat_le] using h0
  rcases hb : Py.decimal b with _ | w
  · simp [int2, ha, hb] at h
  · have hw := decimal_lt hb
    simp only [int2, ha, hb, Option.bind_eq_bind, Option.bind_some, Option.pure_def,
      Option.some.injEq] at h
    omega

theorem daysBeforeYear_le {y : Nat} (hy : y < 10000) (hleap : isLeap y = true → y ≤ 9998) :
    daysBeforeYear y + (if isLeap y then 366 else 365) ≤ 3652059 := by
  simp only [daysBeforeYear]
  cases hl : isLeap y
  · simp; omega
  · have := hleap hl
    simp; omega

theorem daysBeforeMonth_le (y : Nat) {m d : Nat} (hm : m ≤ 12) (hd : d ≤ daysInMonth y m) :
    daysBeforeMonth y m + d ≤ if isLeap y then 366 else 365 := by
  unfold daysInMonth at hd
  unfold daysBeforeMonth
  cases hl : isLeap y <;> simp only [hl] at hd ⊢ <;> interval_cases m <;>
    simp [daysBeforeMonthTable] at hd ⊢ <;> omega

theorem datetime_lt {y m d hh mm ss t : Nat} (h : datetime y m d hh mm ss = some t) (hy : y < 10000)
    (hm : m ≤ 12) (hhh : hh < 24) (hmm : mm < 60) (hss : ss < 60) : t < maxSeconds := by
  unfold datetime at h
  split at h
  · next hv =>
    simp only [Bool.and_eq_true, decide_eq_true_eq] at hv
    have hmd := daysBeforeMonth_le y hm hv.2
    have hyear := daysBeforeYear_le hy fun hl => by
      simp only [isLeap, Bool.and_eq_true, Bool.or_eq_true, beq_iff_eq, bne_iff_ne] at hl
      omega
    simp only [Option.some.injEq] at h
    simp only [ymdToOrd, maxSeconds] at h ⊢
    omega
  · simp at h

theorem int2_lt_100 {a b : Char} {n : Nat} (h : int2 a b = some n) : n < 100 := by
  rcases ha : Py.decimal a with _ | v
  · simp [int2, ha] at h
  · rcases hb : Py.decimal b with _ | w
    · simp [int2, ha, hb] at h
    · have hv := decimal_lt ha
      have hw := decimal_lt hb
      simp only [int2, ha, hb, Option.bind_eq_bind, Option.bind_some, Option.pure_def,
        Option.some.injEq] at h
      omega

theorem year_lt {a b c d : Char} {m n : Nat} (h : int2 a b = some m) (h' : int2 c d = some n) :
    100 * m + n < 10000 := by
  have h1 := int2_lt_100 h
  have h2 := int2_lt_100 h'
  omega

theorem sixty_lt {a b : Char} {n : Nat} (h : int2 a b = some n) (hs : sixty a = true) : n < 60 := by
  simp only [sixty, Bool.and_eq_true, decide_eq_true_eq] at hs
  exact int2_lt h hs.1 hs.2 (by decide)

theorem month_le {a b : Char} {n : Nat} (h : int2 a b = some n) (hm : month a b = true) : n ≤ 12 := by
  simp only [month, Bool.or_eq_true, Bool.and_eq_true, beq_iff_eq, decide_eq_true_eq] at hm
  rcases hm with ⟨⟨rfl, h0⟩, h2⟩ | ⟨⟨rfl, h1⟩, h9⟩
  · have hb := decimal_ascii h0 (le_trans h2 (by decide))
    have h2' : b.toNat ≤ 50 := by simpa [Char.le_def, UInt32.le_iff_toNat_le] using h2
    simp only [int2, hb, decimal_ascii (c := '1') (by decide) (by decide), Option.bind_eq_bind,
      Option.bind_some, Option.pure_def, Option.some.injEq, Char.reduceToNat] at h
    omega
  · exact Nat.le_of_lt (Nat.lt_of_lt_of_le (int2_lt h (by decide) le_rfl (by decide)) (by decide))

theorem hour_lt {a b : Char} {n : Nat} (h : int2 a b = some n) (hh : hour a b = true) : n < 24 := by
  simp only [hour, Bool.or_eq_true, Bool.and_eq_true, beq_iff_eq, decide_eq_true_eq] at hh
  rcases hh with (⟨⟨rfl, h0⟩, h3⟩ | rfl) | rfl
  · have hb := decimal_ascii h0 (le_trans h3 (by decide))
    have h3' : b.toNat ≤ 51 := by simpa [Char.le_def, UInt32.le_iff_toNat_le] using h3
    simp only [int2, hb, decimal_ascii (c := '2') (by decide) (by decide), Option.bind_eq_bind,
      Option.bind_some, Option.pure_def, Option.some.injEq, Char.reduceToNat] at h
    omega
  · exact Nat.lt_of_lt_of_le (int2_lt h (by decide) le_rfl (by decide)) (by decide)
  · exact Nat.lt_of_lt_of_le (int2_lt h (by decide) le_rfl (by decide)) (by decide)

/-- A parsed time is one `datetime` can represent. -/
theorem strptime_lt {s : String} {t : Nat} (h : strptime s = some t) : t < maxSeconds := by
  unfold strptime at h
  split at h
  · next y1 y2 y3 y4 m1 m2 d1 d2 h1 h2 n1 n2 s1 s2 _ =>
    simp only [Option.bind_eq_bind, Option.bind_eq_some_iff] at h
    obtain ⟨ya, hya, yb, hyb, m, hm, d, -, hh, hhh, mm, hmm, ss, hss, h⟩ := h
    split at h
    · next hf =>
      simp only [Bool.and_eq_true] at hf
      obtain ⟨⟨⟨⟨hmonth, -⟩, hhour⟩, hmin⟩, hsec⟩ := hf
      exact datetime_lt h (year_lt hya hyb) (month_le hm hmonth) (hour_lt hhh hhour)
        (sixty_lt hmm hmin) (sixty_lt hss hsec)
    · simp at h
  · simp at h

end Calendar
