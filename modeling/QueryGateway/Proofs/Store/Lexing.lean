import Mathlib
import QueryGateway.Store.Statement

namespace QueryGateway.Store
set_option autoImplicit true

inductive Lexeme where
  /-- A name in double quotes. -/
  | name (s : String)
  /-- A text in single quotes. -/
  | literal (s : String)
  | marker
  | plain (c : Char)
  deriving DecidableEq

inductive Quote where
  | double
  | single
  deriving DecidableEq

namespace Quote

def char : Quote → Char
  | double => '"'
  | single => '\''

def of? (c : Char) : Option Quote :=
  if c = '"' then some double else if c = '\'' then some single else none

def lexeme (q : Quote) (read : List Char) : Lexeme :=
  match q with
  | double => .name (String.ofList read)
  | single => .literal (String.ofList read)

theorem of?_char (q : Quote) : of? q.char = some q := by
  cases q <;> rfl

end Quote

namespace Lexeme

def bare (c : Char) : Lexeme :=
  if c = '?' then .marker else .plain c

def plains (s : String) : List Lexeme :=
  s.toList.map .plain

def name? : Lexeme → Option String
  | name s => some s
  | _ => none

@[simp] theorem name?_name (s : String) : name? (name s) = some s := rfl

@[simp] theorem name?_marker : name? marker = none := rfl

/-- Where a reader is: outside quotes, within them, or just behind a quote, which ends them unless it is written twice. -/
inductive Mode where
  | outside
  | inside (q : Quote) (read : List Char)
  | closing (q : Quote) (read : List Char)

/-- Nothing is read from a text that ends within quotes. -/
def scan : Mode → List Char → Option (List Lexeme)
  | .outside, [] => some []
  | .inside .., [] => none
  | .closing q read, [] => some [q.lexeme read]
  | .outside, c :: cs =>
    match Quote.of? c with
    | some q => scan (.inside q []) cs
    | none => (scan .outside cs).map (bare c :: ·)
  | .inside q read, c :: cs => if c = q.char then scan (.closing q read) cs else scan (.inside q (read ++ [c])) cs
  | .closing q read, c :: cs =>
    if c = q.char then scan (.inside q (read ++ [c])) cs
    else
      match Quote.of? c with
      | some q' => (scan (.inside q' []) cs).map (q.lexeme read :: ·)
      | none => (scan .outside cs).map fun lexemes => q.lexeme read :: bare c :: lexemes

def lex (s : String) : Option (List Lexeme) :=
  scan .outside s.toList

def isOrdinary (c : Char) : Bool :=
  c != '"' && c != '\'' && c != '?'

theorem of?_ordinary (h : isOrdinary c = true) : Quote.of? c = none := by
  simp only [isOrdinary, Bool.and_eq_true, bne_iff_ne] at h
  rw [Quote.of?, if_neg h.1.1, if_neg h.1.2]

theorem bare_ordinary (h : isOrdinary c = true) : bare c = .plain c := by
  simp only [isOrdinary, Bool.and_eq_true, bne_iff_ne] at h
  exact if_neg h.2

def Ordinary (s : String) : Prop :=
  s.toList.all isOrdinary = true

instance : DecidablePred Ordinary := fun _ => inferInstanceAs (Decidable (_ = true))

def Free (cs : List Char) : Prop :=
  ∀ c ∈ cs.head?, Quote.of? c = none

theorem scan_outside_cons (hc : Quote.of? c = none) (cs : List Char) :
    scan .outside (c :: cs) = (scan .outside cs).map (bare c :: ·) := by
  rw [scan, hc]

theorem scan_inside_cons (hc : c ≠ q.char) (read cs : List Char) :
    scan (.inside q read) (c :: cs) = scan (.inside q (read ++ [c])) cs :=
  if_neg hc

theorem scan_closing (h : Free cs) (q : Quote) (read : List Char) :
    scan (.closing q read) cs = (scan .outside cs).map (q.lexeme read :: ·) := by
  cases cs with
  | nil => rfl
  | cons c cs =>
    have hc : Quote.of? c = none := h c rfl
    have hne : c ≠ q.char := by
      rintro rfl
      rw [q.of?_char] at hc
      exact nomatch hc
    rw [scan_outside_cons hc, Option.map_map, scan, if_neg hne, hc]
    rfl

/-- What has been read stays read, whatever follows. -/
theorem scan_append (h : scan m cs = some lexemes) (hfree : Free rest) :
    scan m (cs ++ rest) = (scan .outside rest).map (lexemes ++ ·) := by
  induction cs generalizing m lexemes with
  | nil =>
    cases m with
    | outside =>
      cases Option.some.inj h
      exact Option.map_id'.symm
    | inside => exact nomatch h
    | closing q read =>
      cases Option.some.inj h
      exact scan_closing hfree q read
  | cons c cs ih =>
    -- Whatever is told of the first character is told again in front of what follows.
    have hmore : ∀ {m : Mode} {f : List Lexeme → List Lexeme}, (∀ l l', f (l ++ l') = f l ++ l') →
        (scan m cs).map f = some lexemes →
        (scan m (cs ++ rest)).map f = (scan .outside rest).map (lexemes ++ ·) := by
      intro m f hf hscan
      obtain ⟨more, hread, rfl⟩ := Option.map_eq_some_iff.mp hscan
      rw [ih hread, Option.map_map]
      exact congrArg (Option.map · _) (funext fun l => hf more l)
    rw [List.cons_append]
    cases m with
    | outside =>
      rw [scan] at h ⊢
      split at h
      · exact ih h
      · exact hmore (fun _ _ => rfl) h
    | inside q read =>
      rw [scan] at h ⊢
      split at h
      · next hc => rw [if_pos hc, ih h]
      · next hc => rw [if_neg hc, ih h]
    | closing q read =>
      rw [scan] at h ⊢
      split at h
      · next hc => rw [if_pos hc, ih h]
      · next hc =>
        rw [if_neg hc]
        split at h
        · exact hmore (fun _ _ => rfl) h
        · exact hmore (fun _ _ => rfl) h

theorem scan_ordinary (h : cs.all isOrdinary = true) (rest : List Char) :
    scan .outside (cs ++ rest) = (scan .outside rest).map (cs.map .plain ++ ·) := by
  induction cs with
  | nil => exact Option.map_id'.symm
  | cons c cs ih =>
    obtain ⟨hc, hcs⟩ := Bool.and_eq_true_iff.mp (List.all_cons.symm.trans h)
    rw [List.cons_append, scan_outside_cons (of?_ordinary hc), ih hcs, Option.map_map, bare_ordinary hc]
    rfl

theorem scan_quoteChars (read cs rest : List Char) :
    scan (.inside .double read) (Piece.quoteChars cs ++ '"' :: rest) = scan (.closing .double (read ++ cs)) rest := by
  induction cs using Piece.quoteChars.induct generalizing read with
  | case1 =>
    rw [List.append_nil]
    exact if_pos rfl
  | case2 cs ih =>
    have hquote : scan (.inside .double read) (Piece.quoteChars ('"' :: cs) ++ '"' :: rest) =
        scan (.inside .double (read ++ ['"'])) (Piece.quoteChars cs ++ '"' :: rest) := rfl
    rw [hquote, ih, List.append_assoc]
    rfl
  | case3 c cs hc ih =>
    rw [Piece.quoteChars.eq_3 _ _ hc, List.cons_append, scan_inside_cons hc, ih, List.append_assoc]
    rfl

/-- A quoted name reads as the name, whatever its characters are. -/
theorem scan_quoteName (s : String) (h : Free rest) :
    scan .outside ((Piece.quoteName s).toList ++ rest) = (scan .outside rest).map (.name s :: ·) := by
  rw [Piece.quoteName, String.toList_ofList, List.cons_append, List.cons_append, List.append_assoc]
  change scan (.inside .double []) (Piece.quoteChars s.toList ++ '"' :: rest) = _
  rw [scan_quoteChars, scan_closing h]
  change (scan .outside rest).map (.name (String.ofList s.toList) :: ·) = _
  rw [String.ofList_toList]

/-- Reads as these lexemes, whatever follows. -/
def Reads (s : String) (lexemes : List Lexeme) : Prop :=
  ∀ rest, scan .outside (s.toList ++ rest) = (scan .outside rest).map (lexemes ++ ·)

theorem Reads.lex (h : Reads s lexemes) : lex s = some lexemes := by
  have hscan := h []
  rw [List.append_nil] at hscan
  exact hscan.trans (congrArg some (List.append_nil _))

theorem Reads.append (hs : Reads s lexemes) (ht : Reads t lexemes') : Reads (s ++ t) (lexemes ++ lexemes') := by
  intro rest
  rw [String.toList_append, List.append_assoc, hs, ht, Option.map_map]
  exact congrArg (Option.map · _) (funext fun _ => (List.append_assoc ..).symm)

theorem Ordinary.reads (h : Ordinary s) : Reads s (plains s) :=
  scan_ordinary h

theorem reads_marker : Reads "?" [.marker] := by
  intro rest
  have hchars : "?".toList = ['?'] := by decide
  rw [hchars]
  exact scan_outside_cons (by decide) rest

theorem marker_not_mem_plains (s : String) : marker ∉ plains s := by
  intro h
  obtain ⟨c, -, hc⟩ := List.mem_map.mp h
  exact nomatch hc

theorem names_plains (s : String) : (plains s).filterMap name? = [] := by
  rw [plains, List.filterMap_map]
  exact List.filterMap_eq_nil_iff.mpr fun _ _ => rfl

theorem isOrdinary_of_isDigit (h : c.isDigit = true) : isOrdinary c = true := by
  simp only [isOrdinary, Bool.and_eq_true, bne_iff_ne]
  refine ⟨⟨?_, ?_⟩, ?_⟩ <;>
    · rintro rfl
      exact absurd h (by decide)

theorem ordinary_toString (n : Nat) : Ordinary (toString n) := by
  refine List.all_eq_true.mpr fun c hc => ?_
  have hmem : c ∈ Nat.toDigits 10 n := by
    rwa [← Nat.toList_repr]
  exact isOrdinary_of_isDigit (Nat.isDigit_of_mem_toDigits (by decide) (by decide) hmem)

theorem Ordinary.append (hs : Ordinary s) (ht : Ordinary t) : Ordinary (s ++ t) := by
  rw [Ordinary, String.toList_append, List.all_append, Bool.and_eq_true]
  exact ⟨hs, ht⟩

def Begins (s : String) : Prop :=
  (s.toList.head?.any fun c => (Quote.of? c).isNone) = true

instance : DecidablePred Begins := fun _ => inferInstanceAs (Decidable (_ = true))

theorem begins_iff : Begins s ↔ ∃ c cs, s.toList = c :: cs ∧ Quote.of? c = none := by
  unfold Begins
  cases s.toList with
  | nil => exact iff_of_false nofun nofun
  | cons c cs =>
    rw [List.head?_cons, Option.any_some, Option.isNone_iff_eq_none]
    exact ⟨fun h => ⟨c, cs, rfl, h⟩, fun ⟨_, _, heq, h⟩ => (List.cons.inj heq).1 ▸ h⟩

theorem Begins.free (h : Begins s) (rest : List Char) : Free (s.toList ++ rest) := by
  obtain ⟨c, cs, hcs, hc⟩ := begins_iff.mp h
  intro c' hc'
  rw [hcs] at hc'
  cases hc'
  exact hc

theorem Begins.append (h : Begins s) (t : String) : Begins (s ++ t) := by
  obtain ⟨c, cs, hcs, hc⟩ := begins_iff.mp h
  exact begins_iff.mpr ⟨c, cs ++ t.toList, by rw [String.toList_append, hcs]; rfl, hc⟩

end Lexeme

open Lexeme

/-- What a statement calls a type or a function: a text that can be read by itself and has no marker. -/
structure Wording where
  text : String
  lexemes : List Lexeme
  lex_text : lex text = some lexemes
  unmarked : .marker ∉ lexemes

namespace Wording

def ofOrdinary (s : String) (h : Ordinary s) : Wording :=
  ⟨s, plains s, h.reads.lex, marker_not_mem_plains s⟩

def names (w : Wording) : List String :=
  w.lexemes.filterMap name?

theorem reads_append (w : Wording) (hs : Ordinary s) (hb : Begins s) : Reads (w.text ++ s) (w.lexemes ++ plains s) := by
  intro rest
  rw [String.toList_append, List.append_assoc, scan_append w.lex_text (hb.free rest), hs.reads, Option.map_map]
  exact congrArg (Option.map · _) (funext fun _ => (List.append_assoc ..).symm)

/-- A marker whose value is read as one of the type. -/
def cast (w : Wording) : List Lexeme :=
  plains "CAST(" ++ .marker :: (plains " AS " ++ (w.lexemes ++ plains ")"))

theorem reads_cast (w : Wording) : Reads ("CAST(? AS " ++ w.text ++ ")") w.cast := by
  have hopen : Reads "CAST(" (plains "CAST(") := Ordinary.reads (by decide)
  have has : Reads " AS " (plains " AS ") := Ordinary.reads (by decide)
  have htype : Reads (w.text ++ ")") (w.lexemes ++ plains ")") := w.reads_append (by decide) (by decide)
  have htext : "CAST(? AS " ++ w.text ++ ")" = "CAST(" ++ ("?" ++ (" AS " ++ (w.text ++ ")"))) := by
    rw [← String.append_assoc, ← String.append_assoc, ← String.append_assoc]
    rfl
  rw [htext]
  exact hopen.append (reads_marker.append (has.append htype))

end Wording

theorem ColumnType.ordinary_name (t : ColumnType) : Ordinary t.name := by
  cases t with
  | vector size =>
    have hopen : Ordinary "FLOAT[" := by decide
    exact (hopen.append (ordinary_toString size)).append (by decide)
  | integer kind => cases kind <;> decide
  | _ => decide

def ColumnType.wording (t : ColumnType) : Wording :=
  .ofOrdinary t.name t.ordinary_name

namespace Piece

def isName : Piece → Bool
  | name _ => true
  | _ => false

/-- A word reads by itself, and no marker is in it. -/
def Tame : Piece → Prop
  | word w => Begins w ∧ ∃ lexemes, Reads w lexemes ∧ .marker ∉ lexemes
  | _ => True

theorem tame_ordinary (h : Ordinary w) (hb : Begins w) : (word w).Tame :=
  ⟨hb, plains w, h.reads, marker_not_mem_plains w⟩

section

variable (spell : ColumnType → Wording)

/-- The text of a piece, with types called in any way. -/
def spelled : Piece → String
  | value type _ => "CAST(? AS " ++ (spell type).text ++ ")"
  | p => p.text

def lexemes : Piece → List Lexeme
  | word w => (lex w).getD []
  | name s => [.name s]
  | value type _ => (spell type).cast
  | plain _ => [.marker]

theorem lexemes_word {expected : List Lexeme} (h : Reads w expected) : lexemes spell (word w) = expected := by
  rw [lexemes, h.lex, Option.getD_some]

theorem reads_spelled {p : Piece} (h : p.Tame) (hn : p.isName = false) : Reads (p.spelled spell) (p.lexemes spell) := by
  cases p with
  | word w =>
    obtain ⟨-, expected, hreads, -⟩ := h
    rw [lexemes_word spell hreads]
    exact hreads
  | name s => exact nomatch hn
  | value type v => exact (spell type).reads_cast
  | plain v => exact reads_marker

theorem begins_spelled {p : Piece} (h : p.Tame) (hn : p.isName = false) : Begins (p.spelled spell) := by
  cases p with
  | word w => exact h.1
  | name s => exact nomatch hn
  | value type v =>
    have hopen : Begins "CAST(? AS " := by decide
    exact (hopen.append _).append _
  | plain v =>
    have hmarker : Begins "?" := by decide
    exact hmarker

theorem scan_spelled {p : Piece} (h : p.Tame) (hfree : p.isName = true → Free rest) :
    scan .outside ((p.spelled spell).toList ++ rest) = (scan .outside rest).map (p.lexemes spell ++ ·) := by
  cases hn : p.isName with
  | false => exact reads_spelled spell h hn rest
  | true =>
    cases p with
    | name s => exact scan_quoteName s (hfree rfl)
    | _ => exact nomatch hn

end

end Piece

namespace Statement

variable {s s' : Statement} {spell : ColumnType → Wording}

/-- The text of a statement, with types called in any way. -/
def spelled (spell : ColumnType → Wording) (s : Statement) : String :=
  String.join (s.map (Piece.spelled spell))

def lexemes (spell : ColumnType → Wording) (s : Statement) : List Lexeme :=
  s.flatMap (Piece.lexemes spell)

theorem spelled_wording (s : Statement) : s.spelled ColumnType.wording = s.text := by
  have hpiece : Piece.spelled ColumnType.wording = Piece.text := by
    funext p
    cases p <;> rfl
  rw [spelled, hpiece, text]

/-- No name follows another one at once. -/
structure Legible (s : Statement) : Prop where
  tame : ∀ p ∈ s, p.Tame
  apart : s.IsChain fun p q => p.isName = true → q.isName = false

/-- Does not begin with a name. -/
def Opens (s : Statement) : Prop :=
  ∀ p ∈ s.head?, p.isName = false

theorem toList_spelled_cons (spell : ColumnType → Wording) (p : Piece) (s : Statement) :
    (spelled spell (p :: s)).toList = (p.spelled spell).toList ++ (spelled spell s).toList := by
  simp [spelled, String.join_cons]

theorem Legible.tail {p : Piece} (h : Legible (p :: s)) : s.Legible :=
  ⟨fun q hq => h.tame q (List.mem_cons_of_mem p hq), h.apart.tail⟩

/-- A statement is read piece by piece. -/
theorem Legible.lex_spelled (h : s.Legible) (spell : ColumnType → Wording) :
    lex (s.spelled spell) = some (s.lexemes spell) := by
  induction s with
  | nil => rfl
  | cons p s ih =>
    have hfree : p.isName = true → Free (spelled spell s).toList := by
      intro hname
      cases s with
      | nil =>
        intro c hc
        exact nomatch hc
      | cons q s =>
        have hq : q.isName = false := (List.isChain_cons_cons.mp h.apart).1 hname
        rw [toList_spelled_cons]
        exact (Piece.begins_spelled spell (h.tame q (by simp)) hq).free _
    rw [lex, toList_spelled_cons, Piece.scan_spelled spell (h.tame p List.mem_cons_self) hfree]
    exact congrArg (Option.map _) (ih h.tail)

theorem Legible.nil : Legible [] :=
  ⟨nofun, .nil⟩

theorem Legible.cons {p : Piece} (h : s.Legible) (hp : p.Tame) (hn : p.isName = false) : Legible (p :: s) := by
  refine ⟨List.forall_mem_cons.mpr ⟨hp, h.tame⟩, ?_⟩
  cases s with
  | nil => exact .singleton p
  | cons q s => exact .cons_cons (fun hname => nomatch hn.symm.trans hname) h.apart

theorem Legible.name (h : s.Legible) (hs : s.Opens) (n : String) : Legible (.name n :: s) := by
  refine ⟨List.forall_mem_cons.mpr ⟨trivial, h.tame⟩, ?_⟩
  cases s with
  | nil => exact .singleton _
  | cons q s => exact .cons_cons (fun _ => hs q rfl) h.apart

theorem Legible.append (h : s.Legible) (h' : s'.Legible) (hs : s'.Opens) : Legible (s ++ s') :=
  ⟨fun p hp => (List.mem_append.mp hp).elim (h.tame p) (h'.tame p),
    List.isChain_append.mpr ⟨h.apart, h'.apart, fun _ _ q hq _ => hs q hq⟩⟩

end Statement

end QueryGateway.Store
