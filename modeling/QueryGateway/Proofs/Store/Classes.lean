import QueryGateway.Proofs.Execution.Matching

namespace QueryGateway
set_option autoImplicit true

theorem infix_around_iff {before after name : List α} (h : c ∉ name) :
    name <:+: before ++ c :: after ↔ name <:+: before ∨ name <:+: c :: after := by
  rw [List.infix_append_iff_ne_nil]
  refine or_congr_right (or_iff_left ?_)
  rintro ⟨l, l', -, hne, rfl, -, hbegins⟩
  obtain ⟨b, rest, rfl⟩ := List.exists_cons_of_ne_nil hne
  obtain rfl := (List.cons_prefix_cons.mp hbegins).1
  exact h (List.mem_append_right l List.mem_cons_self)

theorem infix_cons_of_head_ne {name after : List α} (h : name.head? ≠ some c) :
    name <:+: c :: after ↔ name <:+: after := by
  rw [List.infix_cons_iff]
  refine or_iff_right_of_imp fun hbegins => ?_
  cases name with
  | nil => exact List.nil_infix
  | cons b rest =>
    obtain rfl := (List.cons_prefix_cons.mp hbegins).1
    exact absurd rfl h

namespace Store.Fault

def Kind.rank : Kind → Nat
  | unavailable => 0
  | conflict => 1
  | rejected => 2
  | other => 3
  | notFound => 4

def Kind.sooner (k k' : Kind) : Kind :=
  if k.rank ≤ k'.rank then k else k'

/-- The text names a class of that kind, wherever it does. -/
def Names (text : String) (kind : Kind) : Prop :=
  ∃ names, (kind, names) ∈ classes ∧ ∃ name ∈ names, name.toList <:+: text.toList

theorem Kind.rank_inj {k k' : Kind} (h : k.rank = k'.rank) : k = k' := by
  cases k <;> cases k' <;> first | rfl | cases h

theorem Kind.sooner_eq_left_iff {k k' : Kind} : k.sooner k' = k ↔ k.rank ≤ k'.rank := by
  unfold sooner
  split
  · next h => exact iff_of_true rfl h
  · next h => exact iff_of_false (fun he => h (he ▸ Nat.le_refl _)) h

theorem names_of_any {names : List String} (h : (k, names) ∈ classes)
    (hany : names.any (Text.contains text ·) = true) : Names text k := by
  obtain ⟨name, hname, hcontains⟩ := List.any_eq_true.mp hany
  exact ⟨names, h, name, hname, Text.contains_iff.mp hcontains⟩

theorem any_of_names (h : Names text k) :
    ∃ names, (k, names) ∈ classes ∧ names.any (Text.contains text ·) = true := by
  obtain ⟨names, hmem, name, hname, hinfix⟩ := h
  exact ⟨names, hmem, List.any_eq_true.mpr ⟨name, hname, Text.contains_iff.mpr hinfix⟩⟩

theorem Names.mono (h : Names text k) (hsub : text.toList <:+: text'.toList) : Names text' k := by
  obtain ⟨names, hmem, name, hname, hinfix⟩ := h
  exact ⟨names, hmem, name, hname, hinfix.trans hsub⟩

/-- The kind is the first with a class that is named in the text. -/
structure FirstNamed (text : String) (k : Kind) : Prop where
  named : k = .other ∨ Names text k
  others : ∀ k', k'.rank < k.rank → ¬ Names text k'

theorem firstNamed_kindOfText (text : String) : FirstNamed text (kindOfText text) := by
  unfold kindOfText
  split
  · next k names hfind =>
    obtain ⟨hany, before, after, hclasses, hbefore⟩ := List.find?_eq_some_iff_append.mp hfind
    have hmem : (k, names) ∈ classes := List.mem_of_find?_eq_some hfind
    refine ⟨.inr (names_of_any hmem hany), fun k' hk hnamed => ?_⟩
    obtain ⟨names', hmem', hany'⟩ := any_of_names hnamed
    have hordered : classes.Pairwise fun p q => p.1.rank < q.1.rank := by decide
    rw [hclasses] at hordered hmem'
    obtain ⟨-, hafter, -⟩ := List.pairwise_append.mp hordered
    rcases List.mem_append.mp hmem' with h | h
    · have hnot : (!names'.any (Text.contains text ·)) = true := hbefore _ h
      rw [hany'] at hnot
      exact absurd hnot (by decide)
    rcases List.mem_cons.mp h with h | h
    · cases h
      exact Nat.lt_irrefl _ hk
    · exact Nat.lt_asymm hk ((List.pairwise_cons.mp hafter).1 _ h)
  · next hfind =>
    refine ⟨.inl rfl, fun k' _ hnamed => ?_⟩
    obtain ⟨names, hmem, hany⟩ := any_of_names hnamed
    exact List.find?_eq_none.mp hfind _ hmem hany

theorem FirstNamed.rank_le (h : FirstNamed text k) (h' : FirstNamed text k') : k.rank ≤ k'.rank := by
  refine Nat.le_of_not_lt fun hlt => ?_
  rcases h'.named with rfl | hnamed
  · -- Only a kind that no class has is looked for after all of them.
    obtain rfl : k = .notFound := Kind.rank_inj (Nat.le_antisymm (by cases k <;> decide) hlt)
    obtain ⟨names, hmem, -⟩ := h.named.resolve_left nofun
    exact absurd hmem ((by decide : ∀ p ∈ classes, p.1 ≠ .notFound) _ · rfl)
  · exact h.others k' hlt hnamed

theorem kindOfText_eq_iff : kindOfText text = k ↔ FirstNamed text k := by
  have hkind := firstNamed_kindOfText text
  exact ⟨fun h => h ▸ hkind, fun h => Kind.rank_inj (Nat.le_antisymm (hkind.rank_le h) (h.rank_le hkind))⟩

/-- A message names what its class names and what its details name. -/
theorem names_message (c d : String) : Names (c ++ ": " ++ d) k ↔ Names c k ∨ Names d k := by
  have happart : ∀ p ∈ classes, ∀ name ∈ p.2, ':' ∉ name.toList ∧ name.toList.head? ≠ some ' ' := by decide
  have hparts : ∀ p ∈ classes, ∀ name ∈ p.2,
      (name.toList <:+: (c ++ ": " ++ d).toList ↔ name.toList <:+: c.toList ∨ name.toList <:+: d.toList) := by
    intro p hp name hname
    obtain ⟨hcolon, hspace⟩ := happart p hp name hname
    have htext : (c ++ ": " ++ d).toList = c.toList ++ ':' :: ' ' :: d.toList := by
      simp only [String.toList_append, List.append_assoc]
      rfl
    rw [htext, infix_around_iff hcolon, infix_cons_of_head_ne (fun h => hcolon (List.mem_of_mem_head? h)),
      infix_cons_of_head_ne hspace]
  constructor
  · rintro ⟨names, hmem, name, hname, hinfix⟩
    rcases (hparts _ hmem name hname).mp hinfix with h | h
    · exact .inl ⟨names, hmem, name, hname, h⟩
    · exact .inr ⟨names, hmem, name, hname, h⟩
  · rintro (⟨names, hmem, name, hname, h⟩ | ⟨names, hmem, name, hname, h⟩)
    · exact ⟨names, hmem, name, hname, (hparts _ hmem name hname).mpr (.inl h)⟩
    · exact ⟨names, hmem, name, hname, (hparts _ hmem name hname).mpr (.inr h)⟩

theorem kindOfText_message (c d : String) :
    kindOfText (c ++ ": " ++ d) = (kindOfText c).sooner (kindOfText d) := by
  obtain ⟨hc, hbefore⟩ := kindOfText_eq_iff.mp (rfl : kindOfText c = _)
  obtain ⟨hd, hbefore'⟩ := kindOfText_eq_iff.mp (rfl : kindOfText d = _)
  rw [kindOfText_eq_iff]
  unfold Kind.sooner
  split
  · next hle =>
    refine ⟨hc.imp_right fun h => (names_message c d).mpr (.inl h), fun k hk h => ?_⟩
    exact ((names_message c d).mp h).elim (hbefore k hk) (hbefore' k (Nat.lt_of_lt_of_le hk hle))
  · next hlt =>
    refine ⟨hd.imp_right fun h => (names_message c d).mpr (.inr h), fun k hk h => ?_⟩
    exact ((names_message c d).mp h).elim (hbefore k (Nat.lt_trans hk (Nat.lt_of_not_le hlt))) (hbefore' k hk)

/-- The kind of failure that a caller hears of. -/
def Kind.heard : Kind → Rpc.FailureKind
  | unavailable => .storeUnavailable
  | rejected => .invalidParams
  | notFound => .notFound
  | conflict => .conflict
  | other => .internal

theorem kind_ofFault (f : Fault) : (Rpc.Failure.ofFault f).kind = f.kind.heard := by
  unfold Rpc.Failure.ofFault
  cases f.kind <;> rfl

/-- A text that is refused is quoted. -/
theorem infix_castMessage (type : ColumnType) (s : String) : s.toList <:+: (type.castMessage s).toList := by
  have hwithin : ∀ before quote after : List Char, s.toList <:+: before ++ (quote ++ (s.toList ++ after)) := by
    intro before quote after
    exact ⟨before ++ quote, after, by simp only [List.append_assoc]⟩
  unfold ColumnType.castMessage
  rw [String.toList_append]
  cases type <;>
    · simp only [String.toList_append, List.append_assoc]
      exact hwithin _ _ _

/-- The kind of an engine's message is that of its class, unless its details name a class that is looked for sooner.
What a caller sends is quoted there, and so decides about the kind of failure that is answered. -/
theorem kind_of_message (c d : String) :
    (engine (c ++ ": " ++ d)).kind = (kindOfText c).sooner (kindOfText d) ∧
    ((engine (c ++ ": " ++ d)).kind = kindOfText c ↔ (kindOfText c).rank ≤ (kindOfText d).rank) ∧
    (∀ text k, kindOfText text = k ↔ FirstNamed text k) ∧
    (∀ entry ∈ classes, ∀ c ∈ entry.2, kindOfText c = entry.1) ∧
    (∀ (type : ColumnType) s, type.cast? s = none → Names s .unavailable →
      ∃ f, type.cast (some s) = .error f ∧ (Rpc.Failure.ofFault f).kind = .storeUnavailable) ∧
    ∀ text, (Rpc.Failure.ofFault (.engine text)).kind = (kindOfText text).heard := by
  refine ⟨kindOfText_message c d, ?_, fun _ _ => kindOfText_eq_iff, by decide, fun type s hcast hnamed => ?_,
    fun text => kind_ofFault _⟩
  · change kindOfText (c ++ ": " ++ d) = _ ↔ _
    rw [kindOfText_message]
    exact Kind.sooner_eq_left_iff
  · refine ⟨.engine (type.castMessage s), by rw [ColumnType.cast, hcast], ?_⟩
    have hkind : kindOfText (type.castMessage s) = .unavailable :=
      kindOfText_eq_iff.mpr ⟨.inr (hnamed.mono (infix_castMessage type s)), fun _ hk => absurd hk (Nat.not_lt_zero _)⟩
    rw [kind_ofFault]
    change (kindOfText (type.castMessage s)).heard = _
    rw [hkind]
    rfl

end Store.Fault

end QueryGateway
