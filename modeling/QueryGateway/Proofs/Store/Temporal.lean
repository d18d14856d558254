import QueryGateway.Store.Value
import QueryGateway.Proofs.Calendar
import QueryGateway.Proofs.Numerals

namespace QueryGateway
set_option autoImplicit true

theorem toList_padded (width n : Nat) :
    (Date.padded width n).toList = List.replicate (width - (Nat.toDigits 10 n).length) '0' ++ Nat.toDigits 10 n := by
  have hdigits : (toString n).toList = Nat.toDigits 10 n := String.toList_ofList
  rw [Date.padded, String.toList_append, String.toList_ofList, hdigits, ← String.length_toList, hdigits]

theorem isNumeral_padded (width n : Nat) :
    IsNumeral (max width (Nat.toDigits 10 n).length) n (Date.padded width n).toList := by
  have hlength : max width (Nat.toDigits 10 n).length =
      width - (Nat.toDigits 10 n).length + (Nat.toDigits 10 n).length := by
    omega
  rw [toList_padded, hlength]
  exact (isNumeral_toDigits n).zeros _

theorem isNumeral_padded_of_lt (hw : 0 < width) (h : n < 10 ^ width) :
    IsNumeral width n (Date.padded width n).toList := by
  have hlength := isNumeral_padded width n
  rwa [max_eq_left (Nat.toDigits_length 10 n width hw h)] at hlength

theorem isNumeral_two (h : n < 100) : IsNumeral 2 n (Date.padded 2 n).toList :=
  isNumeral_padded_of_lt (by decide) h

theorem four_le_length_toDigits (h : 10000 ≤ n) : 4 ≤ (Nat.toDigits 10 n).length := by
  have hsplit : ∀ k, 10 ≤ k → (Nat.toDigits 10 k).length = (Nat.toDigits 10 (k / 10)).length + 1 := by
    intro k hk
    rw [Nat.toDigits_of_base_le (by decide) hk, List.length_append]
    rfl
  have hpos : 0 < (Nat.toDigits 10 (n / 10 / 10 / 10)).length := List.length_pos_iff.mpr Nat.toDigits_ne_nil
  rw [hsplit n (by omega), hsplit (n / 10) (by omega), hsplit (n / 10 / 10) (by omega)]
  omega

/-- A time of day to the microsecond. -/
@[ext] structure TimeOfDay where
  hour : Nat
  minute : Nat
  second : Nat
  micro : Nat
  hour_lt : hour < 24
  minute_lt : minute < 60
  second_lt : second < 60
  micro_lt : micro < 1000000

namespace TimeOfDay

def micros (c : TimeOfDay) : Nat :=
  ((c.hour * 60 + c.minute) * 60 + c.second) * 1000000 + c.micro

def ofMicros (n : Nat) (h : n < microsPerDay) : TimeOfDay where
  hour := n / 1000000 / 3600
  minute := n / 1000000 / 60 % 60
  second := n / 1000000 % 60
  micro := n % 1000000
  hour_lt := by unfold microsPerDay at h; omega
  minute_lt := Nat.mod_lt _ (by decide)
  second_lt := Nat.mod_lt _ (by decide)
  micro_lt := Nat.mod_lt _ (by decide)

theorem micros_ofMicros (h : n < microsPerDay) : (ofMicros n h).micros = n := by
  change ((n / 1000000 / 3600 * 60 + n / 1000000 / 60 % 60) * 60 + n / 1000000 % 60) * 1000000 + n % 1000000 = n
  omega

theorem micros_lt (c : TimeOfDay) : c.micros < microsPerDay := by
  obtain ⟨hour, minute, second, micro, hh, hm, hs, hf⟩ := c
  change ((hour * 60 + minute) * 60 + second) * 1000000 + micro < 86400000000
  omega

theorem micros_injective : Function.Injective micros := by
  rintro ⟨hour, minute, second, micro, hh, hm, hs, hf⟩ ⟨hour', minute', second', micro', hh', hm', hs', hf'⟩ h
  change ((hour * 60 + minute) * 60 + second) * 1000000 + micro =
    ((hour' * 60 + minute') * 60 + second') * 1000000 + micro' at h
  simp only [mk.injEq]
  omega

/-- The part of a second after the point: nothing, three digits or six, as many as it needs. -/
inductive Fraction : Nat → List Char → Prop where
  | whole : Fraction 0 []
  | millis (hn : 0 < n) (h : IsNumeral 3 n ds) : Fraction (n * 1000) ('.' :: ds)
  | micros (hn : ¬ 1000 ∣ n) (h : IsNumeral 6 n ds) : Fraction n ('.' :: ds)

/-- How a time of day is written: `hh:mm:ss` and the fraction. -/
inductive Writes (c : TimeOfDay) : List Char → Prop where
  | mk (h : IsNumeral 2 c.hour hh) (m : IsNumeral 2 c.minute mm) (s : IsNumeral 2 c.second ss)
      (f : Fraction c.micro fs) : Writes c (hh ++ ':' :: (mm ++ ':' :: (ss ++ fs)))

theorem fraction_fractionText (h : n < 1000000) : Fraction n (TimeOfDay.fractionText n).toList := by
  unfold TimeOfDay.fractionText
  split_ifs with hzero hmilli
  · subst hzero
    exact .whole
  · obtain ⟨k, rfl⟩ := Nat.dvd_of_mod_eq_zero hmilli
    rw [String.toList_append, Nat.mul_comm, Nat.mul_div_cancel _ (by decide)]
    exact .millis (by omega) (isNumeral_padded_of_lt (by decide) (by omega))
  · rw [String.toList_append]
    exact .micros (fun hdvd => hmilli (Nat.mod_eq_zero_of_dvd hdvd)) (isNumeral_padded_of_lt (by decide) (by omega))

theorem writes_text (c : TimeOfDay) : c.Writes (TimeOfDay.text c.micros).toList := by
  obtain ⟨hour, minute, second, micro, hh, hm, hs, hf⟩ := c
  have hmicros : (mk hour minute second micro hh hm hs hf).micros =
      ((hour * 60 + minute) * 60 + second) * 1000000 + micro := rfl
  have hhour : (((hour * 60 + minute) * 60 + second) * 1000000 + micro) / 1000000 / 3600 = hour := by omega
  have hminute : (((hour * 60 + minute) * 60 + second) * 1000000 + micro) / 1000000 / 60 % 60 = minute := by omega
  have hsecond : (((hour * 60 + minute) * 60 + second) * 1000000 + micro) / 1000000 % 60 = second := by omega
  have hmicro : (((hour * 60 + minute) * 60 + second) * 1000000 + micro) % 1000000 = micro := by omega
  have htext : (TimeOfDay.text (mk hour minute second micro hh hm hs hf).micros).toList =
      (Date.padded 2 hour).toList ++ ':' :: ((Date.padded 2 minute).toList ++ ':' :: ((Date.padded 2 second).toList ++
        (TimeOfDay.fractionText micro).toList)) := by
    have hcolon : ":".toList = [':'] := rfl
    rw [hmicros, TimeOfDay.text, TimeOfDay.clockText, hhour, hminute, hsecond, hmicro]
    simp only [String.toList_append, hcolon, List.append_assoc, List.cons_append, List.nil_append]
  rw [htext]
  exact .mk (isNumeral_two (hh.trans (by decide))) (isNumeral_two (hm.trans (by decide)))
    (isNumeral_two (hs.trans (by decide))) (fraction_fractionText hf)

end TimeOfDay

namespace Date

/-- The sign in front of a year: none for the years from 0 to 9999. -/
def yearSign (year : Int) : List Char :=
  if year < 0 then ['-'] else if year ≤ 9999 then [] else ['+']

/-- How a date is written: `yyyy-mm-dd`, where a year has four digits or, if it needs them, more. -/
inductive Writes (d : Date) : List Char → Prop where
  | mk (y : IsNumeral (max 4 (Nat.toDigits 10 d.year.natAbs).length) d.year.natAbs yyyy) (m : IsNumeral 2 d.month mm)
      (k : IsNumeral 2 d.day dd) : Writes d (yearSign d.year ++ (yyyy ++ '-' :: (mm ++ '-' :: dd)))

theorem toList_yearText (year : Int) : ∃ yyyy, (yearText year).toList = yearSign year ++ yyyy ∧
    IsNumeral (max 4 (Nat.toDigits 10 year.natAbs).length) year.natAbs yyyy := by
  unfold yearText yearSign
  split_ifs with hneg hshort
  · exact ⟨(padded 4 year.natAbs).toList, String.toList_append, isNumeral_padded 4 _⟩
  · exact ⟨(padded 4 year.natAbs).toList, (List.nil_append _).symm, isNumeral_padded 4 _⟩
  · -- A year that has more than four digits needs no zeros in front.
    obtain ⟨n, rfl⟩ := Int.eq_ofNat_of_zero_le (not_lt.mp hneg)
    have hlong : 4 ≤ (Nat.toDigits 10 n).length := four_le_length_toDigits (by omega)
    have htext : (toString (n : Int)).toList = (padded 4 n).toList := by
      rw [toList_padded, Nat.sub_eq_zero_of_le hlong]
      exact String.toList_ofList
    refine ⟨(padded 4 n).toList, ?_, isNumeral_padded 4 n⟩
    rw [String.toList_append, htext]
    rfl

theorem daysInMonth_le (year : Int) (month : Nat) : daysInMonth year month ≤ 31 := by
  unfold daysInMonth
  split_ifs <;> decide

theorem writes_text {d : Date} (h : d.isValid = true) : d.Writes d.text.toList := by
  simp only [isValid, Bool.and_eq_true, decide_eq_true_eq] at h
  have := daysInMonth_le d.year d.month
  obtain ⟨yyyy, hyear, hy⟩ := toList_yearText d.year
  have htext : d.text.toList = yearSign d.year ++ (yyyy ++ '-' :: ((padded 2 d.month).toList ++ '-' ::
      (padded 2 d.day).toList)) := by
    have hdash : "-".toList = ['-'] := rfl
    rw [← List.append_assoc, ← hyear, text]
    simp only [String.toList_append, hdash, List.append_assoc, List.cons_append, List.nil_append]
  rw [htext]
  exact .mk hy (isNumeral_two (by omega)) (isNumeral_two (by omega))

end Date

/-- A date and a time of day. -/
structure Moment where
  date : Date
  time : TimeOfDay

namespace Moment

/-- The moment is so many microseconds after 1970-01-01T00:00:00. -/
def At (m : Moment) (micros : Int) : Prop :=
  ∃ days, m.date.After days ∧ micros = days * microsPerDay + m.time.micros

/-- How a moment is written: its date and its time of day with a `T` between them. -/
inductive Writes (m : Moment) : List Char → Prop where
  | mk (hd : m.date.Writes ds) (hc : m.time.Writes cs) : Writes m (ds ++ 'T' :: cs)

def ofMicros (micros : Int) : Moment :=
  ⟨Date.ofDays (micros / microsPerDay), .ofMicros (micros % microsPerDay).toNat (by unfold microsPerDay; omega)⟩

theorem at_iff {m : Moment} : m.At micros ↔ m = ofMicros micros := by
  have hrest : 0 ≤ micros % microsPerDay := Int.emod_nonneg _ (by decide)
  constructor
  · rintro ⟨days, hdays, hmicros⟩
    have hlt : (m.time.micros : Int) < microsPerDay := Int.ofNat_lt.mpr m.time.micros_lt
    have hday : micros / microsPerDay = days := by
      unfold microsPerDay at *
      omega
    have htime : m.time = (ofMicros micros).time := by
      apply TimeOfDay.micros_injective
      rw [ofMicros, TimeOfDay.micros_ofMicros]
      unfold microsPerDay at *
      omega
    have hdate : m.date = (ofMicros micros).date := by
      rw [Date.after_iff.mp hdays, ← hday]
      rfl
    exact congrArg₂ mk hdate htime
  · rintro rfl
    refine ⟨micros / microsPerDay, Date.after_ofDays _, ?_⟩
    rw [ofMicros, TimeOfDay.micros_ofMicros]
    unfold microsPerDay at *
    omega

/-- Text is given to the moments whose date is in range, and to them alone. -/
theorem instantText?_cases (micros : Int) :
    ((ofMicros micros).date.IsSupported ∧
      ∃ text, instantText? micros = some text ∧ (ofMicros micros).Writes text.toList) ∨
    (¬ (ofMicros micros).date.IsSupported ∧ instantText? micros = none) := by
  by_cases hrange : Date.inRange (micros / microsPerDay) = true
  · refine .inl ⟨Date.inRange_iff.mp hrange, _, if_pos hrange, ?_⟩
    have htime := (ofMicros micros).time.writes_text
    rw [ofMicros, TimeOfDay.micros_ofMicros] at htime
    have hletter : "T".toList = ['T'] := rfl
    simp only [String.toList_append, hletter, List.append_assoc, List.cons_append, List.nil_append]
    exact .mk (Date.writes_text (Date.isValid_ofDays _)) htime
  · exact .inr ⟨fun h => hrange (Date.inRange_iff.mpr h), if_neg hrange⟩

end Moment

namespace Store

open Value

namespace IntegerKind

theorem holds_iff {k : IntegerKind} : k.holds n = true ↔ k.least ≤ n ∧ n ≤ k.greatest := by
  rw [holds, Bool.and_eq_true, decide_eq_true_eq, decide_eq_true_eq]

theorem big_holds_iff : big.holds n = true ↔ -9223372036854775808 ≤ n ∧ n ≤ 9223372036854775807 :=
  holds_iff

theorem least_le_greatest (k : IntegerKind) : k.least ≤ k.greatest := by
  cases k <;> decide

theorem holds_saturated (k : IntegerKind) (n : Int) : k.holds (k.saturated n) = true := by
  have := k.least_le_greatest
  rw [holds_iff, saturated]
  omega

theorem saturated_of_holds {k : IntegerKind} (h : k.holds n = true) : k.saturated n = n := by
  rw [holds_iff] at h
  unfold saturated
  omega

theorem holds_tdiv (h : big.holds n = true) (hm : 0 < m) : big.holds (n.tdiv m) = true := by
  rw [big_holds_iff] at h ⊢
  rcases le_total 0 n with hn | hn
  · have hle := Int.tdiv_le_self m hn
    have hpos := Int.tdiv_nonneg hn hm.le
    omega
  · have hle := Int.natAbs_tdiv_le_natAbs n m
    have hneg : 0 ≤ (-n).tdiv m := Int.tdiv_nonneg (Int.neg_nonneg_of_nonpos hn) hm.le
    rw [Int.neg_tdiv] at hneg
    omega

theorem saturated_cases (k : IntegerKind) (n : Int) :
    k.saturated n = n ∨ (k.saturated n = k.greatest ∧ k.greatest < n) ∨ (k.saturated n = k.least ∧ n < k.least) := by
  have := k.least_le_greatest
  unfold saturated
  omega

/-- What treats all numbers beyond a word alike, its ends with them, does not notice that a number was saturated. -/
theorem apply_saturated {k : IntegerKind} {f : Int → α} (h : ∀ m, m ≤ k.least ∨ k.greatest ≤ m → f m = a) (n : Int) :
    f (k.saturated n) = f n := by
  rcases k.saturated_cases n with heq | ⟨heq, hlt⟩ | ⟨heq, hlt⟩
  · rw [heq]
  · rw [heq, h _ (.inr le_rfl), h n (.inr hlt.le)]
  · rw [heq, h _ (.inl le_rfl), h n (.inl hlt.le)]

end IntegerKind

namespace TimeUnit

def nanos : TimeUnit → Int
  | second => 1000000000
  | milli => 1000000
  | micro => 1000
  | nano => 1

/-- A count of units in whole microseconds, without bound. -/
def cut (u : TimeUnit) (n : Int) : Int :=
  (n * u.nanos).tdiv 1000

theorem cut_second (n : Int) : second.cut n = n * 1000000 := by
  have hnanos : n * second.nanos = n * 1000000 * 1000 := (Int.mul_assoc n 1000000 1000).symm
  rw [cut, hnanos, Int.mul_tdiv_cancel _ (by decide)]

theorem cut_milli (n : Int) : milli.cut n = n * 1000 := by
  have hnanos : n * milli.nanos = n * 1000 * 1000 := (Int.mul_assoc n 1000 1000).symm
  rw [cut, hnanos, Int.mul_tdiv_cancel _ (by decide)]

theorem cut_micro (n : Int) : micro.cut n = n :=
  Int.mul_tdiv_cancel n (by decide)

theorem cut_nano (n : Int) : nano.cut n = n.tdiv 1000 :=
  congrArg (Int.tdiv · 1000) (Int.mul_one n)

/-- The microseconds of a count that 64 bits hold: either they are exact, or they are the number of 64 bits that is
nearest to those that are not. -/
theorem toMicros_eq (h : IntegerKind.big.holds n = true) (u : TimeUnit) :
    u.toMicros n = IntegerKind.big.saturated (u.cut n) := by
  cases u with
  | second => rw [cut_second, toMicros]
  | milli => rw [cut_milli, toMicros]
  | micro => rw [cut_micro, toMicros, IntegerKind.saturated_of_holds h]
  | nano => rw [cut_nano, toMicros, IntegerKind.saturated_of_holds (IntegerKind.holds_tdiv h (by decide))]

theorem holds_toMicros (h : IntegerKind.big.holds n = true) (u : TimeUnit) :
    IntegerKind.big.holds (u.toMicros n) = true := by
  rw [toMicros_eq h]
  exact IntegerKind.holds_saturated _ _

theorem cut_nonneg (h : 0 ≤ n) (u : TimeUnit) : 0 ≤ u.cut n :=
  Int.tdiv_nonneg (Int.mul_nonneg h (by cases u <;> decide)) (by decide)

end TimeUnit

theorem instantText?_saturated (micros : Int) :
    instantText? (IntegerKind.big.saturated micros) = instantText? micros := by
  apply IntegerKind.apply_saturated
  intro m hm
  change m ≤ -9223372036854775808 ∨ 9223372036854775807 ≤ m at hm
  refine if_neg fun hrange => ?_
  obtain ⟨hlow, hhigh⟩ := Date.inRange_iff_le.mp hrange
  unfold Date.firstDay microsPerDay at hlow
  unfold Date.lastDay microsPerDay at hhigh
  omega

theorem ofEraDay?_eraDay (days : Int) :
    Date.ofEraDay? (eraDay days) = if Date.inRange days = true then some (Date.ofDays days) else none := by
  have hsaturated : Date.ofEraDay? (eraDay days) = Date.ofEraDay? (days + Date.epoch) := by
    apply IntegerKind.apply_saturated
    intro d hd
    change d ≤ -2147483648 ∨ 2147483647 ≤ d at hd
    refine if_neg fun hrange => ?_
    obtain ⟨hlow, hhigh⟩ := Date.inRange_iff_le.mp hrange
    unfold Date.firstDay Date.epoch at hlow
    unfold Date.lastDay Date.epoch at hhigh
    omega
  rw [hsaturated, Date.ofEraDay?, Int.add_sub_cancel]

theorem timeText?_nonneg (h : 0 ≤ micros) :
    timeText? (wholeSeconds micros) (nanosBeyond micros) =
      if micros < microsPerDay then some (TimeOfDay.text micros.toNat) else none := by
  have hleast : IntegerKind.unsignedRegular.least = 0 := rfl
  have hgreatest : IntegerKind.unsignedRegular.greatest = 4294967295 := rfl
  have hseconds : wholeSeconds micros = micros / 1000000 := Int.tdiv_eq_ediv_of_nonneg h
  have hnanos : nanosBeyond micros = micros % 1000000 * 1000 := congrArg (· * 1000) (Int.tmod_eq_emod_of_nonneg h)
  have hday : (microsPerDay : Int) = 86400000000 := rfl
  rw [hseconds, hnanos, timeText?, TimeOfDay.text?]
  simp only [Bool.and_eq_true, IntegerKind.holds_iff, hleast, hgreatest, decide_eq_true_eq, hday]
  by_cases hlt : micros < 86400000000
  · have hmicros : (micros / 1000000).toNat * 1000000 + (micros % 1000000 * 1000).toNat / 1000 = micros.toNat := by omega
    rw [if_pos (by omega), if_pos (by omega), if_pos hlt, hmicros]
  · rw [if_neg hlt]
    split
    · exact if_neg (by omega)
    · rfl

theorem timeText?_saturated (h : 0 ≤ micros) :
    timeText? (wholeSeconds (IntegerKind.big.saturated micros)) (nanosBeyond (IntegerKind.big.saturated micros)) =
      if micros < microsPerDay then some (TimeOfDay.text micros.toNat) else none := by
  have hleast : IntegerKind.big.least = -9223372036854775808 := rfl
  have hgreatest : IntegerKind.big.greatest = 9223372036854775807 := rfl
  have hday : (microsPerDay : Int) = 86400000000 := rfl
  rcases IntegerKind.big.saturated_cases micros with heq | ⟨heq, hlt⟩ | ⟨heq, hlt⟩
  · rw [heq, timeText?_nonneg h]
  · rw [heq, timeText?_nonneg (by omega), if_neg (by omega), if_neg (by omega)]
  · omega

theorem holds_nanosBeyond (micros : Int) : IntegerKind.big.holds (nanosBeyond micros) = true := by
  have hlow := Int.lt_tmod_of_pos micros (b := 1000000) (by decide)
  have hhigh := Int.tmod_lt_of_pos micros (b := 1000000) (by decide)
  rw [IntegerKind.big_holds_iff, nanosBeyond]
  omega

theorem timestampJson_eq (h : IntegerKind.big.holds n = true) (unit : TimeUnit) :
    toJson (.timestamp unit n) = Json.ofOption .string (instantText? (unit.cut n)) := by
  change timestampJson unit n = _
  rw [timestampJson, TimeUnit.toMicros_eq h, instantText?_saturated]

theorem timestamp_shown (h : IntegerKind.big.holds n = true) (unit : TimeUnit) :
    ∃ m : Moment, (∀ m' : Moment, m'.At (unit.cut n) ↔ m' = m) ∧
      (m.date.IsSupported → ∃ text, toJson (.timestamp unit n) = .string text ∧ m.Writes text.toList) ∧
      (¬ m.date.IsSupported → toJson (.timestamp unit n) = .null) := by
  refine ⟨.ofMicros (unit.cut n), fun m' => Moment.at_iff, ?_⟩
  rw [timestampJson_eq h]
  rcases Moment.instantText?_cases (unit.cut n) with ⟨hin, text, htext, hwrites⟩ | ⟨hout, hnone⟩
  · rw [htext]
    exact ⟨fun _ => ⟨text, rfl, hwrites⟩, fun hout => absurd hin hout⟩
  · rw [hnone]
    exact ⟨fun hin => absurd hin hout, fun _ => rfl⟩

theorem date_shown (days : Int) :
    ∃ d : Date, (∀ d' : Date, d'.After days ↔ d' = d) ∧
      (d.IsSupported → ∃ text, toJson (.date days) = .string text ∧ d.Writes text.toList) ∧
      (¬ d.IsSupported → toJson (.date days) = .null) := by
  refine ⟨.ofDays days, fun d' => Date.after_iff, ?_⟩
  change (_ → ∃ text, dateJson days = _ ∧ _) ∧ (_ → dateJson days = _)
  rw [dateJson, ofEraDay?_eraDay]
  constructor
  · intro hin
    rw [if_pos (Date.inRange_iff.mpr hin)]
    exact ⟨_, rfl, Date.writes_text (Date.isValid_ofDays days)⟩
  · intro hout
    rw [if_neg (mt Date.inRange_iff.mp hout)]
    rfl

theorem time_shown (h : IntegerKind.big.holds n = true) (hn : 0 ≤ n) (unit : TimeUnit) :
    (unit.cut n < microsPerDay → ∃ c : TimeOfDay, (∀ c' : TimeOfDay, (c'.micros : Int) = unit.cut n ↔ c' = c) ∧
      ∃ text, toJson (.time unit n) = .string text ∧ c.Writes text.toList) ∧
    (microsPerDay ≤ unit.cut n → toJson (.time unit n) = .null) := by
  have hcut := TimeUnit.cut_nonneg hn unit
  have hjson : toJson (.time unit n) = Json.ofOption .string
      (if unit.cut n < microsPerDay then some (TimeOfDay.text (unit.cut n).toNat) else none) := by
    change timeJson unit n = _
    rw [timeJson, TimeUnit.toMicros_eq h, timeText?_saturated hcut]
  rw [hjson]
  constructor
  · intro hlt
    have hday : (unit.cut n).toNat < microsPerDay := by omega
    have hmicros : ((TimeOfDay.ofMicros _ hday).micros : Int) = unit.cut n := by
      rw [TimeOfDay.micros_ofMicros, Int.toNat_of_nonneg hcut]
    refine ⟨.ofMicros _ hday, fun c' => ⟨fun hc' => ?_, fun hc' => hc' ▸ hmicros⟩, ?_⟩
    · exact TimeOfDay.micros_injective (Int.ofNat_inj.mp (hc'.trans hmicros.symm))
    · have hwrites := (TimeOfDay.ofMicros _ hday).writes_text
      rw [TimeOfDay.micros_ofMicros] at hwrites
      rw [if_pos hlt]
      exact ⟨_, rfl, hwrites⟩
  · intro hge
    rw [if_neg (not_lt.mpr hge)]
    rfl

/-- Every timestamp and every date has the text of the one moment, or the one date, that is so many units from
1970-01-01T00:00:00, cut toward zero to microseconds, if its year is in range, and is null otherwise; timestamps that
mean the same microsecond have the same text. Times of day likewise have the text of the time that is so many units
after midnight, and are null if the day is over by then. No number on the way to these leaves its word. -/
theorem temporal_exact :
    (∀ (unit : TimeUnit) (n : Int), IntegerKind.big.holds n = true →
      ∃ m : Moment, (∀ m' : Moment, m'.At (unit.cut n) ↔ m' = m) ∧
        (m.date.IsSupported → ∃ text, toJson (.timestamp unit n) = .string text ∧ m.Writes text.toList) ∧
        (¬ m.date.IsSupported → toJson (.timestamp unit n) = .null)) ∧
    (∀ (unit unit' : TimeUnit) (n n' : Int), IntegerKind.big.holds n = true → IntegerKind.big.holds n' = true →
      unit.cut n = unit'.cut n' → toJson (.timestamp unit n) = toJson (.timestamp unit' n')) ∧
    (∀ days : Int, IntegerKind.regular.holds days = true →
      ∃ d : Date, (∀ d' : Date, d'.After days ↔ d' = d) ∧
        (d.IsSupported → ∃ text, toJson (.date days) = .string text ∧ d.Writes text.toList) ∧
        (¬ d.IsSupported → toJson (.date days) = .null)) ∧
    (∀ (unit : TimeUnit) (n : Int), IntegerKind.big.holds n = true → 0 ≤ n →
      (unit.cut n < microsPerDay → ∃ c : TimeOfDay, (∀ c' : TimeOfDay, (c'.micros : Int) = unit.cut n ↔ c' = c) ∧
        ∃ text, toJson (.time unit n) = .string text ∧ c.Writes text.toList) ∧
      (microsPerDay ≤ unit.cut n → toJson (.time unit n) = .null)) ∧
    (∀ (unit : TimeUnit) (n : Int), IntegerKind.big.holds n = true →
      IntegerKind.big.holds (unit.toMicros n) = true ∧
      IntegerKind.big.holds (wholeSeconds (unit.toMicros n)) = true ∧
      IntegerKind.big.holds (nanosBeyond (unit.toMicros n)) = true) ∧
    (∀ days : Int, IntegerKind.regular.holds days = true → IntegerKind.regular.holds (eraDay days) = true) := by
  refine ⟨fun unit n h => timestamp_shown h unit, fun unit unit' n n' h h' hcut => ?_, fun days _ => date_shown days,
    fun unit n h hn => time_shown h hn unit, fun unit n h => ?_, fun days _ => IntegerKind.holds_saturated _ _⟩
  · rw [timestampJson_eq h, timestampJson_eq h', hcut]
  · have hmicros := TimeUnit.holds_toMicros h unit
    exact ⟨hmicros, IntegerKind.holds_tdiv hmicros (by decide), holds_nanosBeyond _⟩

/-- The last second of the year 0, and one so late that its microseconds are more than 64 bits hold. -/
example : instantText? (TimeUnit.second.toMicros (-62135596801)) = some "0000-12-31T23:59:59" ∧
    instantText? (TimeUnit.second.toMicros 9223372036855) = none := by
  decide +kernel

end Store

end QueryGateway
