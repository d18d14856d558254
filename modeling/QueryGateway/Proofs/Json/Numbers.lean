import QueryGateway.Json.Printer
import QueryGateway.Proofs.Json.Finite
import QueryGateway.Proofs.Sql.Words

namespace QueryGateway.Json
set_option autoImplicit true

open Sql (Stops)

def goesOn (c : Char) : Bool :=
  c.isDigit || c == '.' || c == 'e' || c == 'E'

def splitMinus : List Char → Bool × List Char
  | '-' :: cs => (true, cs)
  | cs => (false, cs)

def assembled? (negative : Bool) (whole : List Char) (fraction : Option (List Char)) (exponent : Option Int) :
    Option Json :=
  match fraction, exponent, wholeNumber? negative (Decimal.digitsValue whole) with
  | none, none, some n => some (.int n)
  | _, _, _ =>
    ((⟨((Scaled.addWhole ⟨0, 0⟩ whole).addFraction (fraction.getD [])).significand,
      ((Scaled.addWhole ⟨0, 0⟩ whole).addFraction (fraction.getD [])).exponent + exponent.getD 0⟩ :
        Scaled).toFloat? negative).map .float

theorem assembled?_map (negative : Bool) (whole : List Char) (fraction : Option (List Char)) (exponent : Option Int)
    (rest : List Char) :
    (match fraction, exponent, wholeNumber? negative (Decimal.digitsValue whole) with
      | none, none, some n => some (.int n, rest)
      | _, _, _ =>
        ((⟨((Scaled.addWhole ⟨0, 0⟩ whole).addFraction (fraction.getD [])).significand,
          ((Scaled.addWhole ⟨0, 0⟩ whole).addFraction (fraction.getD [])).exponent + exponent.getD 0⟩ :
            Scaled).toFloat? negative).bind fun x => some (.float x, rest)) =
      (assembled? negative whole fraction exponent).map (·, rest) := by
  unfold assembled?
  split
  · rfl
  · cases Scaled.toFloat? _ negative <;> rfl

theorem readNumber_eq (cs : List Char) :
    readNumber cs = (wholeDigits? (splitMinus cs).2).bind fun w => (fractionDigits? w.2).bind fun f =>
      (exponentPart? f.2).bind fun e => (assembled? (splitMinus cs).1 w.1 f.1 e.1).map (·, e.2) := by
  fun_cases splitMinus cs with
  | case1 cs =>
    refine Option.bind_congr fun w _ => Option.bind_congr fun f _ => Option.bind_congr fun e _ => ?_
    exact assembled?_map true w.1 f.1 e.1 e.2
  | case2 cs h =>
    unfold readNumber
    split
    next negative digits heq =>
      split at heq
      · next cs' => exact (h cs' rfl).elim
      · cases heq
        refine Option.bind_congr fun w _ => Option.bind_congr fun f _ => Option.bind_congr fun e _ => ?_
        exact assembled?_map false w.1 f.1 e.1 e.2

theorem readNumber_eq_some_iff :
    readNumber cs = some (v, rest) ↔ ∃ whole cs₁ fraction cs₂ exponent,
      wholeDigits? (splitMinus cs).2 = some (whole, cs₁) ∧ fractionDigits? cs₁ = some (fraction, cs₂) ∧
        exponentPart? cs₂ = some (exponent, rest) ∧
          assembled? (splitMinus cs).1 whole fraction exponent = some v := by
  rw [readNumber_eq]
  simp only [Option.bind_eq_some_iff, Option.map_eq_some_iff]
  constructor
  · rintro ⟨⟨whole, cs₁⟩, hwhole, ⟨fraction, cs₂⟩, hfraction, ⟨exponent, cs₃⟩, hexponent, v', hv, heq⟩
    cases heq
    exact ⟨whole, cs₁, fraction, cs₂, exponent, hwhole, hfraction, hexponent, hv⟩
  · rintro ⟨whole, cs₁, fraction, cs₂, exponent, hwhole, hfraction, hexponent, hv⟩
    exact ⟨_, hwhole, _, hfraction, _, hexponent, v, hv, rfl⟩

/-- What a number of JSON text can be: a whole number of 64 bits, or a finite one. -/
def IsNumber : Json → Prop
  | .int n => -2 ^ 63 ≤ n ∧ n < 2 ^ 64
  | .float x => x.isFinite = true
  | _ => False

theorem wholeNumber?_bounds (h : wholeNumber? negative n = some k) : -2 ^ 63 ≤ k ∧ k < 2 ^ 64 := by
  unfold wholeNumber? at h
  split at h
  · split at h
    · next hn =>
      cases h
      obtain ⟨-, hn⟩ := Bool.and_eq_true_iff.mp hn
      have hn := of_decide_eq_true hn
      omega
    · cases h
  · split at h
    · next hn =>
      cases h
      omega
    · cases h

theorem assembled?_isNumber (h : assembled? negative whole fraction exponent = some v) : v.IsNumber := by
  unfold assembled? at h
  split at h
  · next n heq =>
    cases h
    exact wholeNumber?_bounds heq
  · obtain ⟨x, hx, rfl⟩ := Option.map_eq_some_iff.mp h
    refine toFloat?_isFinite ?_ hx
    exact addFraction_fits _ _ (addWhole_fits _ _ (Nat.two_pow_pos 64))

theorem readNumber_isNumber (h : readNumber cs = some (v, rest)) : v.IsNumber := by
  obtain ⟨whole, cs₁, fraction, cs₂, exponent, -, -, -, h⟩ := readNumber_eq_some_iff.mp h
  exact assembled?_isNumber h

theorem digits_append (hm : Stops Char.isDigit more) (cs : List Char) :
    (cs ++ more).takeWhile Char.isDigit = cs.takeWhile Char.isDigit ∧
      (cs ++ more).dropWhile Char.isDigit = cs.dropWhile Char.isDigit ++ more := by
  have hstop : Stops Char.isDigit (cs.dropWhile Char.isDigit ++ more) := by
    have hd := Stops.of_dropWhile Char.isDigit cs
    cases hcs : cs.dropWhile Char.isDigit with
    | nil => exact hm
    | cons c rest =>
      rw [hcs] at hd
      exact .cons (hd c rfl)
  have hall : ∀ c ∈ cs.takeWhile Char.isDigit, c.isDigit = true := List.all_eq_true.mp List.all_takeWhile
  have hsplit : cs ++ more = cs.takeWhile Char.isDigit ++ (cs.dropWhile Char.isDigit ++ more) := by
    rw [← List.append_assoc, List.takeWhile_append_dropWhile]
  rw [hsplit]
  exact ⟨hstop.takeWhile_append hall, hstop.dropWhile_append hall⟩

theorem wholeDigits?_append (hm : Stops Char.isDigit more) (h : wholeDigits? cs = some (whole, rest)) :
    wholeDigits? (cs ++ more) = some (whole, rest ++ more) := by
  obtain ⟨ht, hd⟩ := digits_append hm cs
  unfold wholeDigits? at *
  rw [ht, hd]
  split at h
  · cases h
  · cases h
  · cases h
    rfl

theorem fractionDigits?_append (hm : Stops goesOn more) (h : fractionDigits? cs = some (fraction, rest)) :
    fractionDigits? (cs ++ more) = some (fraction, rest ++ more) := by
  have hdigit : Stops Char.isDigit more := hm.mono fun c hc => by rw [goesOn, hc]; rfl
  unfold fractionDigits? at *
  split at h
  · next cs =>
    obtain ⟨ht, hd⟩ := digits_append hdigit cs
    simp only [List.cons_append, ht, hd]
    split at h
    · cases h
    · cases h
      rfl
  · next hpoint =>
    cases h
    split
    · next cs' heq =>
      cases cs with
      | nil =>
        have hc := hm '.' (by rw [List.nil_append] at heq; rw [heq]; rfl)
        cases hc
      | cons c cs =>
        cases heq
        exact (hpoint cs rfl).elim
    · rfl

theorem splitSign_append (hne : cs ≠ []) (more : List Char) :
    Decimal.Numeral.splitSign (cs ++ more) =
      ((Decimal.Numeral.splitSign cs).1, (Decimal.Numeral.splitSign cs).2 ++ more) := by
  fun_cases Decimal.Numeral.splitSign cs with
  | case1 cs => rfl
  | case2 cs => rfl
  | case3 _ hminus hplus =>
    cases cs with
    | nil => exact absurd rfl hne
    | cons c cs =>
      rw [List.cons_append]
      unfold Decimal.Numeral.splitSign
      split
      · next cs' heq =>
        cases heq
        exact (hminus cs rfl).elim
      · next cs' heq =>
        cases heq
        exact (hplus cs rfl).elim
      · rfl

theorem splitMinus_append (hne : cs ≠ []) (more : List Char) :
    splitMinus (cs ++ more) = ((splitMinus cs).1, (splitMinus cs).2 ++ more) := by
  fun_cases splitMinus cs with
  | case1 cs => rfl
  | case2 _ hminus =>
    cases cs with
    | nil => exact absurd rfl hne
    | cons c cs =>
      rw [List.cons_append]
      unfold splitMinus
      split
      · next cs' heq =>
        cases heq
        exact (hminus cs rfl).elim
      · rfl

theorem exponentPart?_append (hm : Stops goesOn more) (h : exponentPart? cs = some (exponent, rest)) :
    exponentPart? (cs ++ more) = some (exponent, rest ++ more) := by
  have hdigit : Stops Char.isDigit more := hm.mono fun c hc => by rw [goesOn, hc]; rfl
  cases cs with
  | nil =>
    cases h
    cases more with
    | nil => rfl
    | cons c more =>
      have hc := hm c rfl
      simp only [goesOn, Bool.or_eq_false_iff] at hc
      simp only [List.nil_append, exponentPart?, hc.1.2, hc.2, Bool.or_self, Bool.false_eq_true, if_false]
  | cons c cs =>
    simp only [exponentPart?, List.cons_append] at h ⊢
    split at h
    · next hmark =>
      rw [if_pos hmark]
      have hne : cs ≠ [] := by
        rintro rfl
        cases h
      have hsign := splitSign_append hne more
      obtain ⟨ht, hd⟩ := digits_append hdigit (Decimal.Numeral.splitSign cs).2
      simp only [hsign, ht, hd]
      split at h
      · cases h
      · cases h
        rfl
    · next hmark =>
      rw [if_neg hmark]
      cases h
      rfl

theorem readNumber_append (hm : Stops goesOn more) (h : readNumber cs = some (v, rest)) :
    readNumber (cs ++ more) = some (v, rest ++ more) := by
  have hdigit : Stops Char.isDigit more := hm.mono fun c hc => by rw [goesOn, hc]; rfl
  obtain ⟨whole, cs₁, fraction, cs₂, exponent, hwhole, hfraction, hexponent, hv⟩ := readNumber_eq_some_iff.mp h
  have hne : cs ≠ [] := by
    rintro rfl
    cases h
  apply readNumber_eq_some_iff.mpr
  rw [splitMinus_append hne]
  exact ⟨whole, _, fraction, _, exponent, wholeDigits?_append hdigit hwhole, fractionDigits?_append hm hfraction,
    exponentPart?_append hm hexponent, hv⟩

theorem readNumber_head (h : readNumber cs = some (v, rest)) : ∃ c ∈ cs.head?, c.isDigit = true ∨ c = '-' := by
  obtain ⟨whole, cs₁, -, -, -, hwhole, -⟩ := readNumber_eq_some_iff.mp h
  fun_cases splitMinus cs with
  | case1 cs => exact ⟨'-', rfl, .inr rfl⟩
  | case2 _ hminus =>
    have hsplit : splitMinus cs = (false, cs) := by
      unfold splitMinus
      split
      · next cs' => exact (hminus cs' rfl).elim
      · rfl
    rw [hsplit] at hwhole
    cases cs with
    | nil => cases hwhole
    | cons c cs =>
      refine ⟨c, rfl, .inl ?_⟩
      by_contra hc
      unfold wholeDigits? at hwhole
      rw [List.takeWhile_cons_of_neg hc] at hwhole
      cases hwhole

theorem readNumber_fraction {s : Scaled} (hw : wholeDigits? cs = some (whole, '.' :: digits))
    (hd : digits.takeWhile Char.isDigit = digits) (hne : digits ≠ [])
    (hs : (Scaled.addWhole ⟨0, 0⟩ whole).addFraction digits = s) (he : -308 ≤ s.exponent) (he' : s.exponent < 0) :
    readNumber cs = some (.float (Float.ofScientific s.significand false 0 / powerOfTen (-s.exponent).toNat), []) := by
  have hsplit : splitMinus cs = (false, cs) := by
    unfold splitMinus
    split
    · cases hw
    · rfl
  have hfraction : fractionDigits? ('.' :: digits) = some (some digits, []) := by
    have hrest : digits.dropWhile Char.isDigit = [] := by
      have happend := List.takeWhile_append_dropWhile (p := Char.isDigit) (l := digits)
      rw [hd] at happend
      exact List.append_right_eq_self.mp happend
    simp only [fractionDigits?, hd, hrest]
  have hscaled :
      s.toFloat? false = some (Float.ofScientific s.significand false 0 / powerOfTen (-s.exponent).toNat) := by
    rw [Scaled.toFloat?, scaleByTen, if_neg (Int.not_le.mpr he'), if_pos he]
    rfl
  apply readNumber_eq_some_iff.mpr
  rw [hsplit]
  refine ⟨whole, '.' :: digits, some digits, [], none, hw, hfraction, rfl, ?_⟩
  simp only [assembled?, Option.getD_some, Option.getD_none, hs, Int.add_zero, hscaled, Option.map_some]

theorem digitsValue_toDigits (n : Nat) : Decimal.digitsValue (Nat.toDigits 10 n) = n :=
  Nat.ofDigitChars_ten_toDigits

theorem isDigit_toDigits (n : Nat) : ∀ c ∈ Nat.toDigits 10 n, c.isDigit = true :=
  fun _ hc => Nat.isDigit_of_mem_toDigits (by decide) (by decide) hc

theorem head_toDigits (hn : 0 < n) : (Nat.toDigits 10 n).head? ≠ some '0' := by
  induction n using Nat.strongRecOn with
  | ind n ih =>
    by_cases hlt : n < 10
    · have hall : ∀ n < 10, 0 < n → n.digitChar ≠ '0' := by decide
      rw [Nat.toDigits_of_lt_base hlt]
      exact fun heq => hall n hlt hn (Option.some.inj heq)
    · have hrec := ih (n / 10) (by omega) (by omega)
      rw [Nat.toDigits_of_base_le (by decide) (Nat.le_of_not_lt hlt)]
      rw [List.head?_append_of_ne_nil _ Nat.toDigits_ne_nil]
      exact hrec

theorem wholeDigits?_toDigits (n : Nat) (hr : Stops Char.isDigit rest) :
    wholeDigits? (Nat.toDigits 10 n ++ rest) = some (Nat.toDigits 10 n, rest) := by
  unfold wholeDigits?
  rw [hr.takeWhile_append (isDigit_toDigits n), hr.dropWhile_append (isDigit_toDigits n)]
  split
  · next hnil => exact absurd hnil Nat.toDigits_ne_nil
  · next c cs hzero =>
    rcases Nat.eq_zero_or_pos n with rfl | hn
    · cases hzero
    · exact absurd (congrArg List.head? hzero) (head_toDigits hn)
  · rfl

theorem readNumber_whole (hs : splitMinus cs = (negative, Nat.toDigits 10 n ++ rest)) (hr : Stops goesOn rest)
    (hw : wholeNumber? negative n = some k) : readNumber cs = some (.int k, rest) := by
  have hdigit : Stops Char.isDigit rest := hr.mono fun c hc => by rw [goesOn, hc]; rfl
  have hnoFraction : fractionDigits? [] = some (none, []) := rfl
  have hnoExponent : exponentPart? [] = some (none, []) := rfl
  have hfraction : fractionDigits? rest = some (none, rest) := fractionDigits?_append hr hnoFraction
  have hexponent : exponentPart? rest = some (none, rest) := exponentPart?_append hr hnoExponent
  apply readNumber_eq_some_iff.mpr
  rw [hs]
  refine ⟨_, _, _, _, _, wholeDigits?_toDigits n hdigit, hfraction, hexponent, ?_⟩
  simp only [assembled?, digitsValue_toDigits, hw]

/-- A whole number of 64 bits is read as it was written. -/
theorem readNumber_int (hn : -2 ^ 63 ≤ n) (hn' : n < 2 ^ 64) (hr : Stops goesOn rest) :
    readNumber ((toString n).toList ++ rest) = some (.int n, rest) := by
  cases n with
  | ofNat n =>
    have htext : (toString (Int.ofNat n)).toList = Nat.toDigits 10 n := String.toList_ofList
    have hword : n < 2 ^ 64 := by
      simp only [Int.ofNat_eq_natCast] at hn'
      omega
    have hsplit : splitMinus (Nat.toDigits 10 n ++ rest) = (false, Nat.toDigits 10 n ++ rest) := by
      cases hd : Nat.toDigits 10 n with
      | nil => exact absurd hd Nat.toDigits_ne_nil
      | cons c cs =>
        have hc := isDigit_toDigits n c (by rw [hd]; exact List.mem_cons_self)
        rw [List.cons_append]
        unfold splitMinus
        split
        · next cs' heq =>
          cases heq
          cases hc
        · rfl
    rw [htext]
    exact readNumber_whole hsplit hr (if_pos hword)
  | negSucc n =>
    have htext : (toString (Int.negSucc n)).toList = '-' :: Nat.toDigits 10 (n + 1) := by
      change ("-" ++ (n + 1).repr).toList = _
      rw [String.toList_append, Nat.toList_repr]
      rfl
    have hword : (0 < n + 1 && n + 1 ≤ 2 ^ 63) = true := by
      simp only [Bool.and_eq_true, decide_eq_true_eq]
      rw [Int.negSucc_eq] at hn
      omega
    have hsplit : splitMinus ('-' :: Nat.toDigits 10 (n + 1) ++ rest) = (true, Nat.toDigits 10 (n + 1) ++ rest) := rfl
    rw [htext]
    exact readNumber_whole hsplit hr (if_pos hword)

end QueryGateway.Json
