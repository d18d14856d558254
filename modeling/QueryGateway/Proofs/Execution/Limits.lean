import QueryGateway.Proofs.Execution.Outcomes
import QueryGateway.Proofs.Execution.Meaning
import QueryGateway.Proofs.Store.Builders

namespace QueryGateway
set_option autoImplicit true

open Store

namespace Request.OfQuery

theorem limitOf_says (h : Says token n) (hn : n ≤ largestLimit) : limitOf (some ⟨some token⟩) = .ok (some n, []) := by
  obtain ⟨hdigits, rfl⟩ := Decimal.says_iff.mp h
  exact limitOf_of_counts (.rows hdigits (Nat.lt_of_le_pred (by decide) hn))

theorem limitOf_says_more (h : Says token n) (hn : largestLimit < n) :
    limitOf (some ⟨some token⟩) = .error (.limitOutOfRange token) := by
  obtain ⟨hdigits, rfl⟩ := Decimal.says_iff.mp h
  exact limitOf_of_fault (.tooLarge hdigits (Nat.le_of_pred_lt hn))

theorem limitOf_says_nothing (h : ∀ n, ¬ Says token n) : limitOf (some ⟨some token⟩) = .ok (none, [.notANumber]) :=
  limitOf_of_counts (.other (Bool.eq_false_iff.mpr fun hdigits => (Decimal.isDigits_iff.mp hdigits).elim h))

end Request.OfQuery

namespace Sql.Query

open Request.OfQuery

variable {q : Query}

theorem toRequest_of_unlimited (h : { q with limit := none }.toRequest args t = .ok base) :
    q.toRequest args t =
      (limitOf q.limit).map fun l => ⟨{ base.request with limit := l.1 }, l.2⟩ := by
  have hcount := (toRequest_ok h).1.count
  have hcount' : q.placeholderCount = args.length := hcount
  rw [toRequest_eq hcount] at h
  rw [toRequest_eq hcount']
  cases ho : q.order.mapM (ordering t) with
  | error e =>
    rw [ho] at h
    cases h
  | ok o =>
    rw [ho] at h
    cases h
    cases limitOf q.limit <;> rfl

end Sql.Query

namespace Store

theorem Statement.text_append (s s' : Statement) : (s ++ s').text = s.text ++ s'.text := by
  simp [Statement.text]

theorem Statement.text_word (w : String) : Statement.text [.word w] = w := by
  simp [Statement.text, Piece.text]

/-- Work on a table that asks for rows, if for anything, with the number in digits at the end of the question. -/
inductive Operation.Limited (n : Nat) : Operation → Prop where
  | describe (table : String) : Limited n (.describe table)
  | select (h : Says digits n)
      (htext : (s.statement t).text =
        (({ s with limit := none } : Select Column).statement t).text ++ " LIMIT " ++ digits) :
      Limited n (.select t s)

theorem Select.text_limit (t : TableInfo) {s : Select Column} (h : s.limit = some n) :
    (s.statement t).text =
      (({ s with limit := none } : Select Column).statement t).text ++ " LIMIT " ++ toString (min n limitBound) := by
  have hstatement : s.statement t = ({ s with limit := none } : Select Column).statement t ++ limitClause s.limit := by
    simp only [statement, projection, limitClause, List.append_nil]
  rw [hstatement, h, Statement.text_append, String.append_assoc]
  exact congrArg (_ ++ ·) (Statement.text_word _)

theorem Work.select_limited (t : TableInfo) {s : Select String} (h : s.limit = some n) (hn : n ≤ limitBound) :
    (Work.select t s).Confined (Operation.Limited n) := by
  refine .lift_bind fun q hq => .ask ?_
  have hlimit : q.limit = some n := (Select.resolve_eq_ok_iff.mp hq).2.2.2.trans h
  have htext := Select.text_limit t hlimit
  rw [Nat.min_eq_left hn] at htext
  exact .select (says_toString n) htext

theorem Work.bind_assoc (w : Work ε α) (f : α → Work ε β) (g : β → Work ε γ) :
    w >>= f >>= g = w >>= fun a => f a >>= g := by
  change (w.bind f).bind g = w.bind fun a => (f a).bind g
  induction w with
  | finish outcome => cases outcome <;> rfl
  | perform op next ih => exact congrArg (Work.perform op) (funext ih)

end Store

namespace Execution

theorem pushDown_limited (h : r.limit = some n) (hn : n ≤ limitBound) :
    (pushDown r).Confined (Operation.Limited n) :=
  .bind (.ask (.describe _)) fun t => Work.select_limited t h hn

theorem ranking_limit (x : Execution) (h : r.limit = some n) (v : VectorOrdering) (c : Column) (rows : List Row) :
    x.ranking r v c rows = (x.ranking { r with limit := none } v c rows).take n := by
  simp only [ranking, h, Ranking.cut]
  split
  · exact List.map_take
  · rfl

def gathered (x : Execution) (r : Request) (v : VectorOrdering) : Work Fault (Column × List Row) := do
  let t ← Work.describe r.table
  let c ← t.column v.column
  let rows ← Work.select t (x.fetching r c)
  if x.maxVectorCandidates < rows.length then Work.warn .truncated
  return (c, rows)

theorem ranked_eq (x : Execution) (r : Request) (v : VectorOrdering) :
    x.ranked r v = x.gathered r v >>= fun found => pure (x.ranking r v found.1 found.2) := by
  rw [ranked, gathered, Work.bind_assoc]
  refine congrArg (Work.describe r.table >>= ·) (funext fun t => ?_)
  rw [Work.bind_assoc]
  refine congrArg (liftM (t.column v.column) >>= ·) (funext fun c => ?_)
  rw [Work.bind_assoc]
  refine congrArg (Work.select t (x.fetching r c) >>= ·) (funext fun rows => ?_)
  by_cases hmany : x.maxVectorCandidates < rows.length
  · simp only [if_pos hmany, Work.bind_assoc]
    rfl
  · simp only [if_neg hmany]
    rfl

/-- A limit takes no part in what is gathered. -/
theorem ranked_limit (x : Execution) (h : r.limit = some n) (v : VectorOrdering) :
    x.ranked r v = x.ranked { r with limit := none } v >>= fun rows => pure (rows.take n) := by
  rw [ranked_eq, ranked_eq, Work.bind_assoc]
  refine congrArg (x.gathered r v >>= ·) (funext fun found => ?_)
  exact congrArg pure (x.ranking_limit h v found.1 found.2)

theorem execute_cases (x : Execution) (r : Request) :
    x.execute r = pushDown r ∨ ∃ v, x.execute r = x.ranked r v := by
  unfold execute
  split
  · next v _ =>
    split
    · exact .inl rfl
    · exact .inr ⟨v, rfl⟩
  · exact .inl rfl

theorem parse_limit (token : String) (hne : token.toList ≠ []) (h : token.toList.all Sql.isLimitChar = true)
    (htext : (⟨.all, "t", [], none, some ⟨some token⟩⟩ : Sql.Query).text = s) :
    Sql.Query.parse s = .ok ⟨.all, "t", [], none, some ⟨some token⟩⟩ := by
  have hname : ∀ s ∈ ["t"], Sql.IsName Sql.refusedWords s := by decide +kernel
  have hproper : Sql.Query.IsProper Sql.refusedWords ⟨.all, "t", [], none, some ⟨some token⟩⟩ := by
    refine ⟨hname, nofun, nofun, nofun, ?_⟩
    rintro _ ⟨⟩ _ ⟨⟩
    exact ⟨hne, List.all_eq_true.mp h⟩
  exact htext ▸ hproper.parse_text

open Request.OfQuery in
/-- The number that a text asks to be shown at most, whatever its digits are: it is refused beyond the signed numbers of
64 bits, and up to them it is neither cut nor changed on the way. The text that the store gets has it in digits, and
rows that are ranked here are cut to it. What is no number is told of once and limits nothing. -/
theorem limit_exact {q : Sql.Query} (hq : Sql.Query.parse text = .ok q) (hl : q.limit = some l)
    (hbase : { q with limit := none }.toRequest args t = .ok base) :
    (∀ token ∈ l.token, ∀ n, Says token n →
      (n ≤ 2 ^ 63 - 1 →
        Request.ofText text args t = .ok ⟨{ base.request with limit := some n }, []⟩) ∧
      (2 ^ 63 - 1 < n → Request.ofText text args t = .error (.limitOutOfRange token))) ∧
    (∀ token ∈ l.token, (∀ n, ¬ Says token n) →
      Request.ofText text args t = .ok ⟨{ base.request with limit := none }, [.notANumber]⟩) ∧
    (l.token = none →
      Request.ofText text args t = .ok ⟨{ base.request with limit := none }, [.missing]⟩) ∧
    ∀ p n, Request.ofText text args t = .ok p → p.request.limit = some n →
      min n limitBound = n ∧ min n largestCount = n ∧ ∀ x : Execution,
        (x.execute p.request = pushDown p.request ∧ (pushDown p.request).Confined (Operation.Limited n)) ∨
        ∃ v, x.execute p.request = x.ranked p.request v ∧
          x.ranked p.request v = x.ranked { p.request with limit := none } v >>= fun rows => pure (rows.take n) := by
  have htext := (Request.ofText_of_parse hq args t).trans (Sql.Query.toRequest_of_unlimited hbase)
  rw [hl] at htext
  refine ⟨fun token htoken n hsays => ?_, fun token htoken hnothing => ?_, fun hnone => ?_, fun p n hp hn => ?_⟩
  · obtain ⟨_⟩ := l
    cases htoken
    constructor
    · intro hle
      rw [htext, limitOf_says hsays hle]
      rfl
    · intro hlt
      rw [htext, limitOf_says_more hsays hlt]
      rfl
  · obtain ⟨_⟩ := l
    cases htoken
    rw [htext, limitOf_says_nothing hnothing]
    rfl
  · obtain ⟨_⟩ := l
    cases hnone
    exact htext
  · have hle := limit_of_ofText hp n hn
    have hbounds : limitBound ≤ largestCount := by decide
    refine ⟨Nat.min_eq_left hle, Nat.min_eq_left (hle.trans hbounds), fun x => ?_⟩
    rcases x.execute_cases p.request with hpush | ⟨v, hranked⟩
    · exact .inl ⟨hpush, pushDown_limited hn hle⟩
    · exact .inr ⟨v, hranked, x.ranked_limit hn v⟩

/-- The largest limit, with a zero in front, and the first number beyond. -/
theorem limit_exact_largest :
    Request.ofText "SELECT * FROM t LIMIT 09223372036854775807" [] .builtIn =
      .ok ⟨⟨"t", none, [], none, some 9223372036854775807⟩, []⟩ ∧
    Request.ofText "SELECT * FROM t LIMIT 9223372036854775808" [] .builtIn =
      .error (.limitOutOfRange "9223372036854775808") := by
  have hbase (limit : Option Sql.Limit) :
      { (⟨.all, "t", [], none, limit⟩ : Sql.Query) with limit := none }.toRequest [] .builtIn =
        .ok ⟨⟨"t", none, [], none, none⟩, []⟩ :=
    rfl
  have hlargest : Says "09223372036854775807" 9223372036854775807 := Decimal.says_iff.mpr (by decide +kernel)
  have hmore : Says "9223372036854775808" 9223372036854775808 := Decimal.says_iff.mpr (by decide +kernel)
  constructor
  · have hparse := parse_limit "09223372036854775807" (by decide) (by decide) rfl
    exact ((limit_exact hparse rfl (hbase _)).1 _ rfl _ hlargest).1 (by decide)
  · have hparse := parse_limit "9223372036854775808" (by decide) (by decide) rfl
    exact ((limit_exact hparse rfl (hbase _)).1 _ rfl _ hmore).2 (by decide)

end Execution

end QueryGateway
