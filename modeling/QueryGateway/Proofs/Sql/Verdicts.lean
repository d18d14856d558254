import QueryGateway.Proofs.Sql.Building
import QueryGateway.Proofs.Sql.Matches

namespace QueryGateway.Sql
set_option autoImplicit true

/-- A longest run of word characters, with what stands before and after it. -/
structure IsRun (cs before run after : List Char) : Prop where
  eq : cs = before ++ run ++ after
  word : ∀ c ∈ run, isWordChar c = true
  starts : ∀ c ∈ before.getLast?, isWordChar c = false
  stops : Stops isWordChar after

/-- Some longest run of word characters is the word, in any letter case. -/
def HasRun (word : String) (cs : List Char) : Prop :=
  ∃ before run after, IsRun cs before run after ∧ run.map Char.toLower = word.toList

namespace IsRun

theorem front (cs : List Char) : IsRun cs [] (cs.takeWhile isWordChar) (cs.dropWhile isWordChar) :=
  ⟨List.takeWhile_append_dropWhile.symm, List.all_eq_true.mp List.all_takeWhile, nofun, .of_dropWhile isWordChar cs⟩

theorem eq_front (h : IsRun cs [] run after) : run = cs.takeWhile isWordChar := by
  rw [h.eq, List.nil_append, h.stops.takeWhile_append h.word]

theorem exists_gap (h : IsRun cs before run after) (hne : before ≠ []) :
    ∃ c before', before.dropWhile isWordChar = c :: before' := by
  apply List.exists_cons_of_ne_nil
  intro hnil
  have hall := List.dropWhile_eq_nil_iff.mp hnil
  have hlast := h.starts _ (List.getLast?_eq_some_getLast hne)
  rw [hall _ (List.getLast_mem hne)] at hlast
  cases hlast

theorem drop (h : IsRun cs before run after) (hne : before ≠ []) :
    ∃ c rest before', cs.dropWhile isWordChar = c :: rest ∧ IsRun rest before' run after := by
  obtain ⟨c, before', hb⟩ := h.exists_gap hne
  refine ⟨c, before' ++ run ++ after, before', ?_, rfl, h.word, ?_, h.stops⟩
  · rw [h.eq, List.append_assoc, List.dropWhile_append, hb]
    simp
  · intro l hl
    apply h.starts
    rw [← List.takeWhile_append_dropWhile (p := isWordChar) (l := before), hb]
    simp only [List.getLast?_append, List.getLast?_cons, Option.mem_def.mp hl]
    simp

theorem cons (h : IsRun rest before run after) (hd : cs.dropWhile isWordChar = c :: rest) :
    IsRun cs (cs.takeWhile isWordChar ++ c :: before) run after := by
  refine ⟨?_, h.word, ?_, h.stops⟩
  · calc cs = cs.takeWhile isWordChar ++ cs.dropWhile isWordChar := List.takeWhile_append_dropWhile.symm
      _ = _ := by simp only [hd, h.eq, List.append_assoc, List.cons_append]
  · intro l hl
    have hc : isWordChar c = false := by
      have hstop := Stops.of_dropWhile isWordChar cs
      rw [hd] at hstop
      exact hstop c rfl
    rw [List.getLast?_append, List.getLast?_cons, Option.some_or, Option.mem_some_iff] at hl
    cases hb : before.getLast? with
    | none =>
      rw [← hl, hb]
      exact hc
    | some last =>
      rw [← hl, hb]
      exact h.starts last hb

end IsRun

theorem splitOn_eq (cs : List Char) :
    Text.splitOn (!isWordChar ·) cs = cs.takeWhile isWordChar ::
      match cs.dropWhile isWordChar with
      | [] => []
      | _ :: rest => Text.splitOn (!isWordChar ·) rest := by
  induction cs with
  | nil => rfl
  | cons c cs ih =>
    rw [Text.splitOn, List.takeWhile_cons, List.dropWhile_cons]
    cases hc : isWordChar c with
    | false =>
      obtain ⟨piece, pieces, hp⟩ := List.exists_cons_of_ne_nil (Text.splitOn_ne_nil (!isWordChar ·) cs)
      simp [hp]
    | true =>
      rw [ih]
      simp

theorem length_of_dropWhile {cs rest : List Char} {p : Char → Bool} (hd : cs.dropWhile p = c :: rest) :
    rest.length < cs.length := by
  have hle := (List.dropWhile_suffix p (l := cs)).length_le
  rw [hd] at hle
  exact hle

theorem mem_splitOn_iff :
    run ∈ Text.splitOn (!isWordChar ·) cs ↔ ∃ before after, IsRun cs before run after := by
  induction hn : cs.length using Nat.strongRecOn generalizing cs with
  | _ n ih =>
  subst hn
  rw [splitOn_eq]
  constructor
  · intro h
    rcases List.mem_cons.mp h with rfl | h
    · exact ⟨_, _, .front cs⟩
    · split at h
      · cases h
      · next c rest hd =>
        obtain ⟨before, after, hr⟩ := (ih _ (length_of_dropWhile hd) rfl).mp h
        exact ⟨_, _, hr.cons hd⟩
  · rintro ⟨before, after, h⟩
    by_cases hb : before = []
    · subst hb
      rw [h.eq_front]
      exact List.mem_cons_self
    · obtain ⟨c, rest, before', hd, hr⟩ := h.drop hb
      apply List.mem_cons_of_mem
      rw [hd]
      exact (ih _ (length_of_dropWhile hd) rfl).mpr ⟨_, _, hr⟩

theorem hasWord_iff (word : String) (cs : List Char) : hasWord word cs = true ↔ HasRun word cs := by
  unfold hasWord HasRun
  rw [List.any_eq_true]
  constructor
  · rintro ⟨run, hrun, heq⟩
    obtain ⟨before, after, h⟩ := mem_splitOn_iff.mp hrun
    exact ⟨before, run, after, h, eq_of_beq heq⟩
  · rintro ⟨before, run, after, h, heq⟩
    exact ⟨run, mem_splitOn_iff.mpr ⟨before, after, h⟩, beq_iff_eq.mpr heq⟩

/-- The first word of a text, after blanks; there is none where something else than a letter comes first. -/
structure IsFirstWord (cs word : List Char) : Prop where
  letters : ∀ c ∈ word, c.isAlpha = true
  stands : ∃ gap rest, cs = gap ++ (word ++ rest) ∧ (∀ c ∈ gap, Text.isBlank c = true) ∧
    Stops Text.isBlank (word ++ rest) ∧ Stops Char.isAlpha rest

theorem isFirstWord_iff : IsFirstWord cs word ↔ firstWord cs = word := by
  constructor
  · rintro ⟨hletters, gap, rest, rfl, hgap, hblank, hstop⟩
    rw [firstWord, Text.trimLeft, hblank.dropWhile_append hgap, hstop.takeWhile_append hletters]
  · rintro rfl
    have hsplit : firstWord cs ++ (Text.trimLeft cs).dropWhile Char.isAlpha = Text.trimLeft cs :=
      List.takeWhile_append_dropWhile
    refine ⟨List.all_eq_true.mp List.all_takeWhile, cs.takeWhile Text.isBlank,
      (Text.trimLeft cs).dropWhile Char.isAlpha, ?_, List.all_eq_true.mp List.all_takeWhile, ?_,
      .of_dropWhile Char.isAlpha _⟩
    · rw [hsplit]
      exact List.takeWhile_append_dropWhile.symm
    · rw [hsplit]
      exact .of_dropWhile Text.isBlank cs

/-- What is said of a text that is no query. -/
inductive Diagnosed (cs : List Char) : QueryError → Prop
  | empty (h : ∀ c ∈ cs, Text.isBlank c = true) : Diagnosed cs .empty
  | notAWord (h : ∃ c ∈ cs, Text.isBlank c = false) (hw : IsFirstWord cs []) : Diagnosed cs .notAWord
  | otherStatement (hw : IsFirstWord cs word) (hne : word ≠ []) (hs : word.map Char.toLower ≠ "select".toList) :
    Diagnosed cs (.otherStatement (String.ofList (word.map Char.toUpper)))
  | noTable (hw : IsFirstWord cs word) (hs : word.map Char.toLower = "select".toList) (h : ¬ HasRun "from" cs) :
    Diagnosed cs .noTable
  | departure (hw : IsFirstWord cs word) (hs : word.map Char.toLower = "select".toList) (h : HasRun "from" cs) :
    Diagnosed cs (.departure (.ofText cs))

def told (cs : List Char) : QueryError :=
  (statementFault? cs).getD (if hasWord "from" cs then .departure (.ofText cs) else .noTable)

theorem trimLeft_eq_nil_iff : Text.trimLeft cs = [] ↔ ∀ c ∈ cs, Text.isBlank c = true :=
  List.dropWhile_eq_nil_iff

theorem statementFault?_of_select (h : IsFirstWord cs word) (hs : word.map Char.toLower = "select".toList) :
    statementFault? cs = none := by
  unfold statementFault?
  rw [isFirstWord_iff.mp h]
  split
  · cases hs
  · rw [hs]
    rfl

theorem Diagnosed.eq_told (h : Diagnosed cs e) : told cs = e := by
  cases h with
  | empty h =>
    have htrim := trimLeft_eq_nil_iff.mpr h
    have hfirst : firstWord cs = [] := by rw [firstWord, htrim]; rfl
    simp only [told, statementFault?, hfirst, htrim]
    rfl
  | notAWord h hw =>
    have htrim : (Text.trimLeft cs).isEmpty = false := by
      rw [← Bool.not_eq_true, List.isEmpty_iff, trimLeft_eq_nil_iff]
      obtain ⟨c, hc, hb⟩ := h
      intro hall
      rw [hall c hc] at hb
      cases hb
    simp only [told, statementFault?, isFirstWord_iff.mp hw, htrim]
    rfl
  | otherStatement hw hne hs =>
    obtain ⟨c, word, rfl⟩ := List.exists_cons_of_ne_nil hne
    have hselect : ¬ ((c :: word).map Char.toLower == "select".toList) = true := by rwa [beq_iff_eq]
    simp only [told, statementFault?, isFirstWord_iff.mp hw, if_neg hselect]
    rfl
  | noTable hw hs h =>
    have hword : ¬ hasWord "from" cs = true := by rwa [hasWord_iff]
    rw [told, statementFault?_of_select hw hs, if_neg hword]
    rfl
  | departure hw hs h =>
    rw [told, statementFault?_of_select hw hs, if_pos ((hasWord_iff _ _).mpr h)]
    rfl

theorem exists_diagnosed (cs : List Char) : ∃ e, Diagnosed cs e := by
  have hw : IsFirstWord cs (firstWord cs) := isFirstWord_iff.mpr rfl
  by_cases hne : firstWord cs = []
  · rw [hne] at hw
    by_cases hb : ∀ c ∈ cs, Text.isBlank c = true
    · exact ⟨_, .empty hb⟩
    · refine ⟨_, .notAWord ?_ hw⟩
      simpa only [not_forall, Bool.not_eq_true, exists_prop] using hb
  · by_cases hs : (firstWord cs).map Char.toLower = "select".toList
    · by_cases hf : HasRun "from" cs
      · exact ⟨_, .departure hw hs hf⟩
      · exact ⟨_, .noTable hw hs hf⟩
    · exact ⟨_, .otherStatement hw hne hs⟩

theorem diagnosed_iff : Diagnosed cs e ↔ told cs = e := by
  constructor
  · exact Diagnosed.eq_told
  · rintro rfl
    obtain ⟨e, h⟩ := exists_diagnosed cs
    rw [h.eq_told]
    exact h

theorem Diagnosed.kind (h : Diagnosed cs e) :
    (e.message = "Syntax error: " ++ e.detail ∨
      e = .departure (.ofText cs) ∧ e.message = "Pest error: " ++ e.detail) ∧
    e.kind ≠ .unsupported ∧ e.kind ≠ .argumentCount := by
  cases h with
  | departure => exact ⟨.inr ⟨rfl, rfl⟩, nofun, nofun⟩
  | _ => exact ⟨.inl rfl, nofun, nofun⟩

/-- The word is a longest run that does not stand at the front. -/
def HasInnerRun (word : String) (cs : List Char) : Prop :=
  ∃ before run after, IsRun cs before run after ∧ before ≠ [] ∧ run.map Char.toLower = word.toList

namespace HasInnerRun

theorem hasRun (h : HasInnerRun word cs) : HasRun word cs := by
  obtain ⟨before, run, after, hr, -, hw⟩ := h
  exact ⟨before, run, after, hr, hw⟩

theorem append (h : HasInnerRun word cs) (front : List Char) : HasInnerRun word (front ++ cs) := by
  obtain ⟨before, run, after, hr, hne, hw⟩ := h
  refine ⟨front ++ before, run, after, ⟨?_, hr.word, ?_, hr.stops⟩, ?_, hw⟩
  · rw [hr.eq, List.append_assoc, List.append_assoc, List.append_assoc]
  · intro c hc
    apply hr.starts
    rw [List.getLast?_append, List.getLast?_eq_some_getLast hne, Option.some_or] at hc
    rw [List.getLast?_eq_some_getLast hne]
    exact hc
  · exact fun hnil => hne (List.append_eq_nil_iff.mp hnil).2

end HasInnerRun

namespace Written

theorem hasInnerRun (h : Written (t :: .word w :: ts) cs) (ht : (∃ c, t = .mark c) ∨ ∃ s, t = .name s) :
    HasInnerRun w cs := by
  obtain ⟨front, rest, hcs, hs, hp, hr⟩ := h.uncons
  obtain ⟨run, after, hrest, ⟨hrun, hstop⟩, hw, -⟩ := hr.uncons
  have hword := isWordChar_of_map_toLower (reservedWords_word w hw) hrun
  have hne : front ≠ [] := (hs.stops hp).1
  obtain ⟨gap, hgap, hcs'⟩ := exists_gap cs
  obtain ⟨gap', hgap', hrest'⟩ := exists_gap rest
  rw [hcs', hcs, hrest', hrest]
  apply HasInnerRun.append
  refine ⟨front ++ gap', run, after, ⟨?_, hword, ?_, hstop⟩, ?_, hrun⟩
  · rw [List.append_assoc, List.append_assoc]
  · intro c hc
    by_cases hnil : gap' = []
    · -- nothing stands between the two, so that the first cannot be a name
      rw [hnil, List.append_nil] at hc
      rw [hnil, List.nil_append, hrest] at hrest'
      rcases ht with ⟨mark, rfl⟩ | ⟨s, rfl⟩
      · rw [show front = [mark] from hs] at hc
        cases hc
        exact isWordChar_of_mem_marks hp
      · have hstarts : Stops isWordChar rest := hs.2
        cases run with
        | nil => exact absurd hrun.symm (reservedWords_ne_nil w hw)
        | cons c run =>
          have hfalse := hstarts c (by rw [hrest']; rfl)
          rw [hword c List.mem_cons_self] at hfalse
          cases hfalse
    · rw [List.getLast?_append, List.getLast?_eq_some_getLast hnil, Option.some_or, Option.mem_some_iff] at hc
      have hspace := hgap' c (hc ▸ List.getLast_mem hnil)
      rw [← Bool.not_eq_true]
      intro hc
      rw [isSpace_of_isWordChar hc] at hspace
      cases hspace
  · exact fun hnil => hne (List.append_eq_nil_iff.mp hnil).1

theorem hasInnerRun_append (h : Written (ts ++ t :: .word w :: ts') cs) (ht : (∃ c, t = .mark c) ∨ ∃ s, t = .name s) :
    HasInnerRun w cs := by
  induction ts generalizing cs with
  | nil => exact h.hasInnerRun ht
  | cons t' ts ih =>
    obtain ⟨front, rest, hcs, -, -, hr⟩ := h.uncons
    obtain ⟨gap, -, hcs'⟩ := exists_gap cs
    rw [hcs', hcs]
    exact ((ih hr).append front).append gap

end Written

theorem Projection.tokens_eq {p : Projection} (hp : p ≠ .columns []) :
    ∃ ts t, p.tokens = ts ++ [t] ∧ ((∃ c, t = .mark c) ∨ ∃ s, t = .name s) := by
  cases p with
  | all => exact ⟨[], _, rfl, .inl ⟨_, rfl⟩⟩
  | columns names =>
    cases names with
    | nil => exact absurd rfl hp
    | cons first more =>
      rcases List.eq_nil_or_concat more with rfl | ⟨init, last, rfl⟩
      · exact ⟨[], _, rfl, .inr ⟨_, rfl⟩⟩
      · refine ⟨.name first :: (init.flatMap fun s => [.mark ',', .name s]) ++ [.mark ','], .name last, ?_,
          .inr ⟨_, rfl⟩⟩
        simp [Projection.tokens, Token.separate, List.flatMap_map]

theorem hasRun_from (h : Read.query cs = some q) : HasRun "from" cs := by
  obtain ⟨hp, asc, semicolon, hw⟩ := Written.of_query h
  obtain ⟨ts, t, heq, ht⟩ := Projection.tokens_eq hp
  rw [Query.tokens, heq] at hw
  have hw' : Written ((.word "select" :: ts) ++ t :: .word "from" :: (.name q.table ::
      (whereTokens q.conditions ++ (orderTokens asc q.order ++ (limitTokens q.limit ++ endTokens semicolon))))) cs := by
    simpa using hw
  exact (hw'.hasInnerRun_append ht).hasRun

namespace Query

theorem parse_of_read?_none (h : Query.read? s = none) : Query.parse s = .error (told s.toList) := by
  unfold Query.parse told
  rw [h]
  cases statementFault? s.toList <;> rfl

/-- A text is matched, and a query is built from its tree, or it is told what is wrong. -/
theorem parse_cases (s : String) :
    (Grammar.query.Matches s.toList ∧ statementFault? s.toList = none ∧ HasRun "from" s.toList ∧
      ∃ pairs q, Grammar.query.read .spaced s.toList = some (pairs, []) ∧ Build.query pairs = .ok q ∧
        Query.parse s = .ok q) ∨
      ¬ Grammar.query.Matches s.toList ∧ Grammar.query.read .spaced s.toList = none ∧
        Query.parse s = .error (told s.toList) := by
  rw [Pattern.matches_iff_read]
  rcases read_query s.toList with ⟨pairs, q, hread, hbuild, hq⟩ | ⟨hread, hq⟩
  · obtain ⟨-, asc, semicolon, hw⟩ := Written.of_query hq
    exact .inl ⟨⟨pairs, hread⟩, hw.statementFault?_eq_none, hasRun_from hq, pairs, q, hread, hbuild, parse_of_read? hq⟩
  · refine .inr ⟨?_, hread, parse_of_read?_none hq⟩
    rintro ⟨pairs, hpairs⟩
    rw [hread] at hpairs
    cases hpairs

theorem build_eq (s : String) : Query.build s = (Query.parse s).mapError .text := by
  unfold Query.build
  rcases parse_cases s with ⟨-, hfault, -, pairs, q, hread, hbuild, hparse⟩ | ⟨-, hread, hparse⟩
  · simp only [hfault, hread, hbuild, hparse]
    rfl
  · rw [hread, hparse, told]
    cases statementFault? s.toList <;> rfl

theorem parse_eq_error_iff :
    Query.parse s = .error e ↔ ¬ Grammar.query.Matches s.toList ∧ Diagnosed s.toList e := by
  rcases parse_cases s with ⟨hm, -, -, pairs, q, -, -, hparse⟩ | ⟨hm, -, hparse⟩
  · rw [hparse]
    exact iff_of_false nofun fun h => h.1 hm
  · rw [hparse, diagnosed_iff, Except.error.injEq]
    exact (and_iff_right hm).symm

/-- The grammar alone decides which texts are accepted: each text that it matches begins with the right word, holds the
word before its table as a longest run, and has a tree from which a query is built, which is the result. The error of
any other text is told by its first word, then by whether it holds that run. -/
theorem parse_grammar (s : String) :
    ((∃ q, Query.parse s = .ok q) ↔ Grammar.query.Matches s.toList) ∧
    (Grammar.query.Matches s.toList ↔
      (Grammar.query.follow .spaced ⟨0, s.toList⟩ ⟨0, []⟩).1 = some ⟨s.toList.length, []⟩) ∧
    (Grammar.query.Matches s.toList → statementFault? s.toList = none ∧ HasRun "from" s.toList ∧
      ∃ pairs q, Grammar.query.read .spaced s.toList = some (pairs, []) ∧ Build.query pairs = .ok q ∧
        Query.parse s = .ok q) ∧
    Query.build s = (Query.parse s).mapError .text ∧
    (∀ e, Query.parse s = .error e ↔ ¬ Grammar.query.Matches s.toList ∧ Diagnosed s.toList e) ∧
    ∀ e, Query.parse s = .error e →
      (e.message = "Syntax error: " ++ e.detail ∨
        e = .departure (.ofText s.toList) ∧ e.message = "Pest error: " ++ e.detail) ∧
      e.kind ≠ .unsupported ∧ e.kind ≠ .argumentCount := by
  refine ⟨?_, Pattern.matches_iff_follow _ _, ?_, build_eq s, fun e => parse_eq_error_iff,
    fun e h => (parse_eq_error_iff.mp h).2.kind⟩
  · rcases parse_cases s with ⟨hm, -, -, pairs, q, -, -, hparse⟩ | ⟨hm, -, hparse⟩
    · exact iff_of_true ⟨q, hparse⟩ hm
    · rw [hparse]
      exact iff_of_false nofun hm
  · intro hm
    rcases parse_cases s with ⟨-, h⟩ | ⟨hno, -⟩
    · exact h
    · exact absurd hm hno

end Query

end QueryGateway.Sql
