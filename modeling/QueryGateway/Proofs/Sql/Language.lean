import QueryGateway.Proofs.Sql.Rendering
import QueryGateway.Sql.Diagnosis

namespace QueryGateway.Sql
set_option autoImplicit true

theorem isBlank_of_isSpace (h : isSpace c = true) : Text.isBlank c = true := by
  rcases isSpace_iff.mp h with rfl | rfl | rfl | rfl <;> rfl

theorem isBlank_of_isWordChar (h : isWordChar c = true) : Text.isBlank c = false := by
  simp only [isWordChar, Char.isAlphanum, Char.isAlpha, Char.isUpper, Char.isLower, Char.isDigit, Bool.or_eq_true,
    decide_eq_true_eq, beq_iff_eq, Bool.and_eq_true, Char.ext_iff, UInt32.le_iff_toNat_le, ge_iff_le] at h
  have hn : 48 ≤ c.toNat ∧ c.toNat ≤ 122 := by
    rcases h with ((⟨h, h'⟩ | ⟨h, h'⟩) | ⟨h, h'⟩) | h
    · exact ⟨Nat.le_trans (by decide) h, Nat.le_trans h' (by decide)⟩
    · exact ⟨Nat.le_trans (by decide) h, Nat.le_trans h' (by decide)⟩
    · exact ⟨Nat.le_trans (by decide) h, Nat.le_trans h' (by decide)⟩
    · rw [Char.toNat, h]
      decide
  simp only [Text.isBlank, Bool.or_eq_false_iff, Bool.and_eq_false_iff, decide_eq_false_iff_not, beq_eq_false_iff_ne]
  omega

theorem Written.statementFault?_eq_none (h : Written (.word "select" :: ts) cs) : statementFault? cs = none := by
  obtain ⟨gap, hg, hcs⟩ := exists_gap cs
  obtain ⟨text, rest, hskip, ⟨hlower, hr⟩, -, -⟩ := h.uncons
  have hword := isWordChar_of_map_toLower (reservedWords_word "select" (by decide)) hlower
  have hletters : ∀ c ∈ text, c.isAlpha = true := by
    intro c hc
    have hall : "select".toList.all Char.isAlpha = true := by decide
    apply of_toLower
    · intro c hc
      rw [Char.isAlpha, hc, Bool.true_or]
    · exact List.all_eq_true.mp hall _ (hlower ▸ List.mem_map_of_mem hc)
  have hblank : Stops Text.isBlank (text ++ rest) := by
    cases text with
    | nil => cases hlower
    | cons c text => exact .cons (isBlank_of_isWordChar (hword c List.mem_cons_self))
  have hstops : Stops Char.isAlpha rest := by
    apply hr.mono
    intro c hc
    rw [isWordChar, Char.isAlphanum, hc, Bool.true_or, Bool.true_or]
  have htrim : Text.trimLeft cs = text ++ rest := by
    rw [hcs, hskip]
    exact hblank.dropWhile_append fun c hc => isBlank_of_isSpace (hg c hc)
  have hfirst : firstWord cs = text := by
    rw [firstWord, htrim, hstops.takeWhile_append hletters]
  unfold statementFault?
  rw [hfirst]
  split
  · cases hlower
  · rw [hlower]
    rfl

theorem Query.parse_of_read? {q : Query} (h : Query.read? s = some q) : Query.parse s = .ok q := by
  obtain ⟨-, asc, semicolon, hw⟩ := Written.of_query h
  have hfault : statementFault? s.toList = none := hw.statementFault?_eq_none
  rw [Query.parse, hfault]
  simp only [h]

/-- The accepted texts are those that write the tokens of a query which can be written, and the result is that query. -/
theorem Query.parse_eq_ok_iff {q : Query} :
    Query.parse s = .ok q ↔ q.IsProper refusedWords ∧ ∃ asc semicolon, Writes (q.tokens asc semicolon) s.toList := by
  constructor
  · intro h
    unfold Query.parse at h
    split at h
    · cases h
    · split at h
      · next hread =>
        cases h
        obtain ⟨hc, asc, semicolon, hw⟩ := Written.of_query hread
        exact ⟨hw.isProper hc, asc, semicolon, hw.writes⟩
      · cases h
  · rintro ⟨hq, asc, semicolon, hw⟩
    apply Query.parse_of_read?
    exact (hq.written hw).query hq.columns

theorem Query.Renders.parse {q : Query} (hq : q.IsProper refusedWords) (h : q.Renders s.toList) :
    Query.parse s = .ok q := by
  apply Query.parse_eq_ok_iff.mpr
  obtain ⟨asc, semicolon, hw⟩ := h.written hq
  exact ⟨hq, asc, semicolon, hw.writes⟩

theorem Query.IsProper.parse_text {q : Query} (h : q.IsProper refusedWords) : Query.parse q.text = .ok q :=
  h.renders_text.parse h

/-- Reading undoes rendering: every text of a query without reserved names is accepted as that query. -/
theorem Query.parse_rendering {q : Query} {s : String} (hq : q.IsProper reservedWords) (h : q.Renders s.toList) :
    Query.parse s = .ok q :=
  h.parse (hq.mono fun _ => refusedWords_subset)

theorem Query.parse_rendering_items :
    Query.parse "\tselect*From items\nwhere c<>\"it's\"AND d = ?order BY b asc limit 3;" =
      .ok ⟨.all, "items", [⟨"c", .ne, .literal "it's"⟩, ⟨"d", .eq, .placeholder⟩], some (.column "b" .ascending),
        some ⟨some "3"⟩⟩ := by
  have none : ∀ c ∈ [], isSpace c = true := List.forall_mem_nil _
  have blank : ∀ c ∈ [' '], isSpace c = true := List.forall_mem_singleton.mpr rfl
  have tab : ∀ c ∈ ['\t'], isSpace c = true := List.forall_mem_singleton.mpr rfl
  have line : ∀ c ∈ ['\n'], isSpace c = true := List.forall_mem_singleton.mpr rfl
  apply Query.parse_rendering
  · refine ⟨by decide +kernel, nofun, ?_, ?_, ?_⟩
    · simp
    · simp [OrderItem.elements]
    · simp [isLimitChar, isSpace]
  · exact ⟨true, true, _, _, rfl, tab,
      .cons "select".toList [] rfl none (by decide) <|
      .cons "*".toList [] rfl none (by decide) <|
      .cons "From".toList [' '] rfl blank (by decide) <|
      .cons "items".toList ['\n'] rfl line (by decide) <|
      .cons "where".toList [' '] rfl blank (by decide) <|
      .cons "c".toList [] rfl none (by decide) <|
      .cons "<>".toList [] (.inr rfl) none (by decide) <|
      .cons "\"it's\"".toList [] ⟨'"', .inr rfl, by decide, rfl⟩ none (by decide) <|
      .cons "AND".toList [' '] rfl blank (by decide) <|
      .cons "d".toList [' '] rfl blank (by decide) <|
      .cons "=".toList [' '] rfl blank (by decide) <|
      .cons "?".toList [] rfl none (by decide) <|
      .cons "order".toList [' '] rfl blank (by decide) <|
      .cons "BY".toList [' '] rfl blank (by decide) <|
      .cons "b".toList [' '] rfl blank (by decide) <|
      .cons "asc".toList [' '] rfl blank (by decide) <|
      .cons "limit".toList [' '] rfl blank (by decide) <|
      .cons "3".toList [] rfl none (by decide) <|
      .cons ";".toList [] rfl none (by decide) .nil⟩

end QueryGateway.Sql
