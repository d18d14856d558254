import Mathlib
import QueryGateway.Calendar

namespace QueryGateway
set_option autoImplicit true

namespace Date

/-- The day after a date. -/
def next (d : Date) : Date :=
  if d.day < daysInMonth d.year d.month then ⟨d.year, d.month, d.day + 1⟩
  else if d.month < 12 then ⟨d.year, d.month + 1, 1⟩
  else ⟨d.year + 1, 1, 1⟩

/-- The date `n` days after 1970-01-01, or before it if `n` is negative. -/
inductive After : Int → Date → Prop where
  | epoch : After 0 ⟨1970, 1, 1⟩
  | next (h : After n d) : After (n + 1) d.next
  | back (hd : d.isValid = true) (h : After (n + 1) d.next) : After n d

/-- The days from the first of March of the year 0 to that of a year. -/
def marchFirst (y : Int) : Int :=
  365 * y + y / 4 - y / 100 + y / 400

def ofMarchDay (y k : Int) : Date :=
  let marchMonth := (5 * k + 2) / 153
  let month := if marchMonth < 10 then marchMonth + 3 else marchMonth - 9
  ⟨y + (if month ≤ 2 then 1 else 0), month.toNat, (k - (153 * marchMonth + 2) / 5 + 1).toNat⟩

theorem marchFirst_lt (h : y < y') : marchFirst (y + 1) ≤ marchFirst y' := by
  unfold marchFirst
  omega

theorem marchFirst_era (y e : Int) : marchFirst (y + 400 * e) = marchFirst y + 146097 * e := by
  unfold marchFirst
  omega

theorem march_unique (h : marchFirst y + k = marchFirst y' + k') (hk : 0 ≤ k) (hk' : 0 ≤ k')
    (hy : marchFirst y + k < marchFirst (y + 1)) (hy' : marchFirst y' + k' < marchFirst (y' + 1)) :
    y = y' ∧ k = k' := by
  rcases lt_trichotomy y y' with hlt | rfl | hgt
  · have := marchFirst_lt hlt
    omega
  · exact ⟨rfl, by omega⟩
  · have := marchFirst_lt hgt
    omega

/-- The year of a day among 400 years, the first of which begins with day 0. -/
def yearOfEra (d : Int) : Int :=
  (d - d / 1460 + d / 36524 - d / 146096) / 365

theorem yearOfEra_mono (h : d ≤ d') (hd : 0 ≤ d) (hd' : d' < 146096) : yearOfEra d ≤ yearOfEra d' := by
  unfold yearOfEra
  omega

theorem yearOfEra_marchFirst : ∀ y < 400,
    yearOfEra (marchFirst (y : Nat)) = y ∧ yearOfEra (marchFirst (y + 1) - 1) = y := by
  decide +kernel

theorem yearOfEra_bounds (hd : 0 ≤ d) (hd' : d < 146097) : 0 ≤ yearOfEra d ∧ yearOfEra d < 400 := by
  unfold yearOfEra
  omega

theorem march_yearOfEra (hd : 0 ≤ d) (hd' : d < 146097) :
    marchFirst (yearOfEra d) ≤ d ∧ d < marchFirst (yearOfEra d + 1) := by
  obtain ⟨hlow, hhigh⟩ := yearOfEra_bounds hd hd'
  obtain ⟨y, hy⟩ := Int.eq_ofNat_of_zero_le hlow
  rw [hy] at hhigh ⊢
  constructor
  · by_contra hlt
    cases y with
    | zero => exact hlt (by unfold marchFirst; omega)
    | succ y =>
      have hend := (yearOfEra_marchFirst y (by omega)).2
      have hle : d ≤ marchFirst (y + 1) - 1 := by push_cast at hlt; omega
      have hmono := yearOfEra_mono hle hd (by unfold marchFirst; omega)
      omega
  · by_contra hge
    have hnot : y + 1 < 400 := by
      by_contra h
      have h399 : y = 399 := by omega
      subst h399
      exact hge hd'
    have hstart := (yearOfEra_marchFirst (y + 1) hnot).1
    have hle : marchFirst ((y + 1 : Nat) : Int) ≤ d := by push_cast; omega
    have hlast : d ≠ 146096 := by
      rintro rfl
      have : yearOfEra 146096 = 399 := by decide
      omega
    have hmono := yearOfEra_mono hle (by unfold marchFirst; omega) (by omega)
    omega

theorem exists_march (n : Int) :
    ∃ y k, n + 719468 = marchFirst y + k ∧ 0 ≤ k ∧ marchFirst y + k < marchFirst (y + 1) ∧ ofDays n = ofMarchDay y k := by
  have hd : 0 ≤ (n + 719468) % 146097 := Int.emod_nonneg _ (by decide)
  have hd' : (n + 719468) % 146097 < 146097 := Int.emod_lt_of_pos _ (by decide)
  have hn : 146097 * ((n + 719468) / 146097) + (n + 719468) % 146097 = n + 719468 := Int.mul_ediv_add_emod _ _
  obtain ⟨hlow, hhigh⟩ := march_yearOfEra hd hd'
  obtain ⟨hyear, hyear'⟩ := yearOfEra_bounds hd hd'
  have hofDays : ofDays n = ofMarchDay (yearOfEra ((n + 719468) % 146097) + 400 * ((n + 719468) / 146097))
      ((n + 719468) % 146097 - (365 * yearOfEra ((n + 719468) % 146097) + yearOfEra ((n + 719468) % 146097) / 4 -
        yearOfEra ((n + 719468) % 146097) / 100)) := rfl
  rw [hofDays]
  generalize (n + 719468) % 146097 = d at *
  generalize (n + 719468) / 146097 = era at *
  generalize yearOfEra d = y at *
  have hfirst : 365 * y + y / 4 - y / 100 = marchFirst y := by
    unfold marchFirst
    omega
  refine ⟨y + 400 * era, d - marchFirst y, ?_, by omega, ?_, by rw [hfirst]⟩
  · rw [marchFirst_era]
    omega
  · rw [add_right_comm y, marchFirst_era, marchFirst_era]
    omega

theorem ofDays_of_march (h : n + 719468 = marchFirst y + k) (hk : 0 ≤ k) (hy : marchFirst y + k < marchFirst (y + 1)) :
    ofDays n = ofMarchDay y k := by
  obtain ⟨y', k', h', hk', hy', heq⟩ := exists_march n
  obtain ⟨rfl, rfl⟩ := march_unique (h.symm.trans h') hk hk' hy hy'
  exact heq

/-- The days of a year before a month, where the months are counted from March on. -/
def monthFirst (m : Int) : Int :=
  (153 * m + 2) / 5

theorem marchFirst_succ (y : Int) :
    marchFirst (y + 1) = marchFirst y + if isLeap (y + 1) = true then 366 else 365 := by
  have hleap : isLeap (y + 1) = true ↔ (y + 1) % 4 = 0 ∧ ((y + 1) % 100 ≠ 0 ∨ (y + 1) % 400 = 0) := by
    simp only [isLeap, Bool.and_eq_true, Bool.or_eq_true, beq_iff_eq, bne_iff_ne]
  simp only [hleap]
  unfold marchFirst
  split <;> omega

def ofMarchMonth (y m j : Int) : Date :=
  ⟨if m < 10 then y else y + 1, (if m < 10 then m + 3 else m - 9).toNat, (j + 1).toNat⟩

def marchMonthLength (y m : Int) : Int :=
  if m = 11 then if isLeap (y + 1) = true then 29 else 28 else monthFirst (m + 1) - monthFirst m

theorem daysInMonth_ofMarchMonth (hm : 0 ≤ m) (hm' : m < 12) (y j : Int) :
    (daysInMonth (ofMarchMonth y m j).year (ofMarchMonth y m j).month : Int) = marchMonthLength y m := by
  by_cases hlast : m = 11
  · subst hlast
    cases h : isLeap (y + 1) <;> simp [daysInMonth, ofMarchMonth, marchMonthLength, h]
  · have hm'' : m < 11 := by omega
    interval_cases m <;> rfl

theorem month_bounds (hk : 0 ≤ k) (hk' : k < 366) :
    0 ≤ (5 * k + 2) / 153 ∧ (5 * k + 2) / 153 < 12 ∧ monthFirst ((5 * k + 2) / 153) ≤ k ∧
      k < monthFirst ((5 * k + 2) / 153 + 1) := by
  unfold monthFirst
  omega

theorem month_unique (h : monthFirst m ≤ k) (h' : k < monthFirst (m + 1)) : (5 * k + 2) / 153 = m := by
  revert h h'
  unfold monthFirst
  omega

theorem ofMarchDay_eq (h : monthFirst m ≤ k) (h' : k < monthFirst (m + 1)) (hm : 0 ≤ m) (hm' : m < 12) (y : Int) :
    ofMarchDay y k = ofMarchMonth y m (k - monthFirst m) := by
  have hmonth := month_unique h h'
  have hdate : ofMarchDay y k = ⟨y + (if (if m < 10 then m + 3 else m - 9) ≤ 2 then 1 else 0),
      (if m < 10 then m + 3 else m - 9).toNat, (k - monthFirst m + 1).toNat⟩ := by
    rw [← hmonth]
    rfl
  have hyear : y + (if (if m < 10 then m + 3 else m - 9) ≤ 2 then 1 else 0) = if m < 10 then y else y + 1 := by
    split_ifs <;> omega
  rw [hdate, hyear]
  rfl

/-- The year, the month and the day of the month of a day, all counted from March on. -/
structure Falls (n y m j : Int) : Prop where
  month_nonneg : 0 ≤ m
  month_lt : m < 12
  day_nonneg : 0 ≤ j
  day_lt : j < marchMonthLength y m
  eq : n + 719468 = marchFirst y + monthFirst m + j

theorem marchFirst_add_monthLength (y : Int) :
    marchFirst y + monthFirst 11 + marchMonthLength y 11 = marchFirst (y + 1) := by
  have hlast : monthFirst 11 = 337 := rfl
  rw [marchFirst_succ, marchMonthLength, if_pos rfl, hlast]
  split <;> omega

theorem monthFirst_add_monthLength (h : m ≠ 11) (y : Int) :
    monthFirst m + marchMonthLength y m = monthFirst (m + 1) := by
  rw [marchMonthLength, if_neg h]
  omega

theorem lt_of_lt_monthLength (hm : 0 ≤ m) (hm' : m < 12) (hj : j < marchMonthLength y m) :
    monthFirst m + j < monthFirst (m + 1) ∧ marchFirst y + (monthFirst m + j) < marchFirst (y + 1) := by
  by_cases hlast : m = 11
  · subst hlast
    have hyear := marchFirst_add_monthLength y
    have hlength : marchMonthLength y 11 ≤ 29 := by
      rw [marchMonthLength, if_pos rfl]
      split <;> decide
    have hfirst : monthFirst 11 = 337 := rfl
    have hnext : monthFirst (11 + 1) = 367 := rfl
    omega
  · have hmonth := monthFirst_add_monthLength hlast y
    have hnext : monthFirst (m + 1) ≤ 337 := by
      unfold monthFirst
      omega
    have hyear := marchFirst_succ y
    split at hyear <;> omega

theorem exists_falls (n : Int) : ∃ y m j, Falls n y m j := by
  obtain ⟨y, k, heq, hk, hk', -⟩ := exists_march n
  have hyear := marchFirst_succ y
  have hlt : k < 366 := by split at hyear <;> omega
  obtain ⟨hm, hm', hfirst, hnext⟩ := month_bounds hk hlt
  refine ⟨y, (5 * k + 2) / 153, k - monthFirst ((5 * k + 2) / 153), hm, hm', by omega, ?_, by omega⟩
  generalize (5 * k + 2) / 153 = m at *
  by_cases hlast : m = 11
  · subst hlast
    have := marchFirst_add_monthLength y
    omega
  · have := monthFirst_add_monthLength hlast y
    omega

theorem Falls.ofDays (h : Falls n y m j) : ofDays n = ofMarchMonth y m j := by
  obtain ⟨hmonth, hyear⟩ := lt_of_lt_monthLength h.month_nonneg h.month_lt h.day_lt
  have hfirst : 0 ≤ monthFirst m := by
    have := h.month_nonneg
    unfold monthFirst
    omega
  have hj := h.day_nonneg
  have heq : n + 719468 = marchFirst y + (monthFirst m + j) := by
    rw [h.eq]
    omega
  rw [ofDays_of_march heq (by omega) hyear, ofMarchDay_eq (m := m) (by omega) hmonth h.month_nonneg h.month_lt]
  rw [add_sub_cancel_left]

theorem Falls.succ (h : Falls n y m j) (hj : j + 1 < marchMonthLength y m) : Falls (n + 1) y m (j + 1) :=
  ⟨h.month_nonneg, h.month_lt, Int.add_nonneg h.day_nonneg (by decide), hj, by have := h.eq; omega⟩

theorem marchMonthLength_pos (y m : Int) : 0 < marchMonthLength y m := by
  unfold marchMonthLength monthFirst
  split
  · split <;> decide
  · omega

theorem Falls.month_succ (h : Falls n y m j) (hj : j + 1 = marchMonthLength y m) (hm : m ≠ 11) :
    Falls (n + 1) y (m + 1) 0 := by
  have hfirst := monthFirst_add_monthLength hm y
  have := h.eq
  have := h.month_lt
  have := h.month_nonneg
  exact ⟨by omega, by omega, le_rfl, marchMonthLength_pos y (m + 1), by omega⟩

theorem Falls.year_succ (h : Falls n y 11 j) (hj : j + 1 = marchMonthLength y 11) : Falls (n + 1) (y + 1) 0 0 := by
  have hfirst := marchFirst_add_monthLength y
  have heq := h.eq
  have hzero : monthFirst 0 = 0 := rfl
  exact ⟨le_rfl, by decide, le_rfl, marchMonthLength_pos (y + 1) 0, by omega⟩

theorem Falls.isValid (h : Falls n y m j) : (ofMarchMonth y m j).isValid = true := by
  have hlength := daysInMonth_ofMarchMonth h.month_nonneg h.month_lt y j
  obtain ⟨hm, hm', hj, hj', -⟩ := h
  simp only [Date.isValid, Bool.and_eq_true, decide_eq_true_eq]
  have hmonth : (ofMarchMonth y m j).month = (if m < 10 then m + 3 else m - 9).toNat := rfl
  have hday : (ofMarchMonth y m j).day = (j + 1).toNat := rfl
  refine ⟨⟨⟨?_, ?_⟩, by omega⟩, by omega⟩
  · rw [hmonth]
    split <;> omega
  · rw [hmonth]
    split <;> omega

theorem isValid_ofDays (n : Int) : (ofDays n).isValid = true := by
  obtain ⟨y, m, j, h⟩ := exists_falls n
  rw [h.ofDays]
  exact h.isValid

theorem ofMarchMonth_succ (hm : 0 ≤ m) (hm' : m < 12) (hlast : m ≠ 11) (y j : Int) :
    (if (ofMarchMonth y m j).month < 12 then ⟨(ofMarchMonth y m j).year, (ofMarchMonth y m j).month + 1, 1⟩
      else ⟨(ofMarchMonth y m j).year + 1, 1, 1⟩) = ofMarchMonth y (m + 1) 0 := by
  have hm'' : m < 11 := by omega
  interval_cases m <;> rfl

theorem ofDays_succ (n : Int) : ofDays (n + 1) = (ofDays n).next := by
  obtain ⟨y, m, j, h⟩ := exists_falls n
  have hlength := daysInMonth_ofMarchMonth h.month_nonneg h.month_lt y j
  have hday : (ofMarchMonth y m j).day = (j + 1).toNat := rfl
  have hj := h.day_nonneg
  rw [h.ofDays, next]
  by_cases hmore : j + 1 < marchMonthLength y m
  · rw [(h.succ hmore).ofDays, if_pos (by omega)]
    have : (j + 1 + 1).toNat = (j + 1).toNat + 1 := by omega
    rw [ofMarchMonth, this]
    rfl
  · have hend : j + 1 = marchMonthLength y m := by
      have := h.day_lt
      omega
    rw [if_neg (by omega)]
    by_cases hlast : m = 11
    · subst hlast
      rw [(h.year_succ hend).ofDays]
      rfl
    · rw [(h.month_succ hend hlast).ofDays]
      exact (ofMarchMonth_succ h.month_nonneg h.month_lt hlast y j).symm

theorem after_ofDays (n : Int) : After n (ofDays n) := by
  induction n using Int.induction_on with
  | zero => exact .epoch
  | succ n ih =>
    rw [ofDays_succ]
    exact ih.next
  | pred n ih =>
    refine .back (isValid_ofDays _) ?_
    rw [← ofDays_succ, Int.sub_add_cancel]
    exact ih

theorem next_injective {d e : Date} (hd : d.isValid = true) (he : e.isValid = true) (h : d.next = e.next) : d = e := by
  obtain ⟨y, m, j⟩ := d
  obtain ⟨y', m', j'⟩ := e
  simp only [isValid, Bool.and_eq_true, decide_eq_true_eq] at hd he
  simp only [next] at h
  have hyear : y = y' := by
    split_ifs at h <;> rw [mk.injEq] at h <;> omega
  subst hyear
  have hmonth : m = m' := by
    split_ifs at h <;> rw [mk.injEq] at h <;> omega
  subst hmonth
  have hday : j = j' := by
    split_ifs at h <;> rw [mk.injEq] at h <;> omega
  rw [hday]

theorem After.eq_ofDays (h : After n d) : d = ofDays n := by
  induction h with
  | epoch => rfl
  | next _ ih => rw [ih, ofDays_succ]
  | back hd _ ih =>
    rw [ofDays_succ] at ih
    exact next_injective hd (isValid_ofDays _) ih

/-- The date of a day is the one that is reached day by day, and no other is. -/
theorem after_iff : After n d ↔ d = ofDays n :=
  ⟨After.eq_ofDays, fun h => h ▸ after_ofDays n⟩

/-- The years that have dates. -/
def IsSupported (d : Date) : Prop :=
  -262143 ≤ d.year ∧ d.year ≤ 262142

theorem year_le_next (d : Date) : d.year ≤ d.next.year := by
  unfold next
  split_ifs
  · exact le_rfl
  · exact le_rfl
  · exact Int.le_add_one le_rfl

theorem year_mono : Monotone fun n => (ofDays n).year :=
  monotone_int_of_le_succ fun n => (year_le_next (ofDays n)).trans_eq (congrArg year (ofDays_succ n).symm)

theorem inRange_iff_le : inRange n = true ↔ firstDay ≤ n ∧ n ≤ lastDay := by
  rw [inRange, Bool.and_eq_true, decide_eq_true_eq, decide_eq_true_eq]

/-- The days in range are those of the years that have dates. -/
theorem inRange_iff : inRange n = true ↔ (ofDays n).IsSupported := by
  have hfirst : (ofDays firstDay).year = -262143 := rfl
  have hbefore : (ofDays (firstDay - 1)).year = -262144 := rfl
  have hlast : (ofDays lastDay).year = 262142 := rfl
  have hafter : (ofDays (lastDay + 1)).year = 262143 := rfl
  rw [inRange_iff_le]
  constructor
  · rintro ⟨hlow, hhigh⟩
    exact ⟨hfirst ▸ year_mono hlow, hlast ▸ year_mono hhigh⟩
  · rintro ⟨hlow, hhigh⟩
    constructor
    · by_contra hlt
      have hyear := year_mono (Int.le_sub_one_of_lt (not_le.mp hlt))
      simp only [hbefore] at hyear
      omega
    · by_contra hgt
      have hyear := year_mono (Int.add_one_le_of_lt (not_le.mp hgt))
      simp only [hafter] at hyear
      omega

end Date

end QueryGateway
