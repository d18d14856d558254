import Mathlib
import QueryGateway.Settings.LogFilter

namespace QueryGateway.Settings
set_option autoImplicit true

def Level.quieter (a b : Level) : Level :=
  if a.rank ≤ b.rank then a else b

theorem Level.eq_quieter_iff {a b : Level} : a = quieter a b ↔ a.rank ≤ b.rank := by
  cases a <;> cases b <;> decide

theorem Level.eq_quieter_self_iff {a b : Level} : b = quieter a b ↔ b.rank ≤ a.rank := by
  cases a <;> cases b <;> decide

namespace Directive

/-- How specific a directive is: the longer its target the more, and least without a target. -/
def weight (d : Directive) : Nat :=
  d.target.elim 0 (·.utf8ByteSize + 1)

theorem weight_of_target {d e : Directive} (h : d.target = e.target) : d.weight = e.weight := by
  rw [weight, h, weight]

theorem covers_of_target {d e : Directive} (h : d.target = e.target) (t : String) : d.covers t = e.covers t := by
  rw [covers, h, covers]

theorem precedes_of_target {d e : Directive} (h : d.target = e.target) (a : Directive) :
    d.precedes a = e.precedes a := by
  rw [precedes, h, precedes]

/-- More specific directives stand first, and of two equally specific ones that with the later target. -/
theorem precedes_iff {a b : Directive} : a.precedes b = true ↔
    b.weight < a.weight ∨ (a.weight = b.weight ∧ ∃ s ∈ a.target, ∃ t ∈ b.target, t < s) := by
  obtain ⟨target, level⟩ := a
  obtain ⟨target', level'⟩ := b
  cases target with
  | none => cases target' <;> simp [precedes, weight]
  | some s =>
    cases target' with
    | none => simp [precedes, weight]
    | some t => simp [precedes, weight]

theorem weight_le_of_precedes {a b : Directive} (h : a.precedes b = true) : b.weight ≤ a.weight := by
  rcases precedes_iff.mp h with hlt | ⟨heq, -⟩
  · exact hlt.le
  · exact heq.ge

theorem precedes_trans {a b c : Directive} (h : a.precedes b = true) (h' : b.precedes c = true) :
    a.precedes c = true := by
  rw [precedes_iff] at h h' ⊢
  rcases h with hlt | ⟨heq, s, hs, t, ht, hts⟩
  · rcases h' with hlt' | ⟨heq', -⟩
    · exact .inl (hlt'.trans hlt)
    · exact .inl (heq' ▸ hlt)
  · rcases h' with hlt' | ⟨heq', s', hs', u, hu, hus⟩
    · exact .inl (heq ▸ hlt')
    · obtain rfl : s' = t := Option.mem_unique hs' ht
      exact .inr ⟨heq.trans heq', s, hs, u, hu, String.lt_trans hus hts⟩

theorem target_ne_of_precedes {a b : Directive} (h : a.precedes b = true) : a.target ≠ b.target := by
  intro heq
  rcases precedes_iff.mp h with hlt | ⟨-, s, hs, t, ht, hts⟩
  · rw [weight_of_target heq] at hlt
    exact lt_irrefl _ hlt
  · rw [heq] at hs
    obtain rfl : s = t := Option.mem_unique hs ht
    exact String.lt_irrefl s hts

theorem precedes_or_precedes {a b : Directive} (h : a.target ≠ b.target) :
    a.precedes b = true ∨ b.precedes a = true := by
  rw [precedes_iff, precedes_iff]
  rcases lt_trichotomy a.weight b.weight with hlt | heq | hgt
  · exact .inr (.inl hlt)
  · obtain ⟨target, level⟩ := a
    obtain ⟨target', level'⟩ := b
    cases target with
    | none =>
      cases target' with
      | none => exact absurd rfl h
      | some t => cases heq
    | some s =>
      cases target' with
      | none => cases heq
      | some t =>
        by_cases hts : t < s
        · exact .inl (.inr ⟨heq, s, rfl, t, rfl, hts⟩)
        · by_cases hst : s < t
          · exact .inr (.inr ⟨heq.symm, t, rfl, s, rfl, hst⟩)
          · exact absurd (congrArg some (String.lt_antisymm hst hts)) h
  · exact .inl (.inl hgt)

theorem eq_of_isPrefix_of_le {s t : String} (h : s.toList <+: t.toList)
    (hsize : t.utf8ByteSize ≤ s.utf8ByteSize) : s = t := by
  obtain ⟨rest, hrest⟩ := h
  have happend : s ++ String.ofList rest = t := by
    apply String.toList_injective
    rw [String.toList_append, String.toList_ofList, hrest]
  rw [← happend, String.utf8ByteSize_append] at hsize
  have hempty : String.ofList rest = "" := String.utf8ByteSize_eq_zero_iff.mp (by omega)
  rw [← happend, hempty, String.append_empty]

theorem target_eq_of_covers {a b : Directive} (ha : a.covers t = true) (hb : b.covers t = true)
    (h : a.weight = b.weight) : a.target = b.target := by
  obtain ⟨target, level⟩ := a
  obtain ⟨target', level'⟩ := b
  cases target with
  | none =>
    cases target' with
    | none => rfl
    | some t' => cases h
  | some s =>
    cases target' with
    | none => cases h
    | some s' =>
      have hsize : s.utf8ByteSize = s'.utf8ByteSize := Nat.succ.inj h
      rcases List.prefix_or_prefix_of_prefix (List.isPrefixOf_iff_prefix.mp ha) (List.isPrefixOf_iff_prefix.mp hb) with
        hss | hss
      · exact congrArg some (eq_of_isPrefix_of_le hss hsize.ge)
      · exact congrArg some (eq_of_isPrefix_of_le hss hsize.le).symm

end Directive

namespace LogFilter

/-- Directives in their order, for different targets. -/
def Ordered (ds : List Directive) : Prop :=
  ds.Pairwise fun a b => a.precedes b = true

theorem mem_insert (h : Ordered ds) : e ∈ insert d ds ↔ e = d ∨ (e ∈ ds ∧ e.target ≠ d.target) := by
  induction ds with
  | nil => simp [insert]
  | cons x xs ih =>
    obtain ⟨hx, hxs⟩ := List.pairwise_cons.mp h
    have hdiffer : ∀ y ∈ xs, y.target ≠ x.target := fun y hy => (Directive.target_ne_of_precedes (hx y hy)).symm
    rw [insert]
    split_ifs with hsame hfirst
    · rw [List.mem_cons, List.mem_cons, hsame]
      constructor
      · exact Or.imp_right fun hmem => ⟨.inr hmem, hdiffer e hmem⟩
      · exact Or.imp_right fun ⟨hmem, hne⟩ => hmem.resolve_left fun heq => hne (congrArg Directive.target heq)
    · have hfar : ∀ y ∈ x :: xs, y.target ≠ d.target := by
        refine List.forall_mem_cons.mpr ⟨Ne.symm hsame, fun y hy => ?_⟩
        exact (Directive.target_ne_of_precedes (Directive.precedes_trans hfirst (hx y hy))).symm
      rw [List.mem_cons]
      exact or_congr_right ⟨fun hmem => ⟨hmem, hfar e hmem⟩, And.left⟩
    · rw [List.mem_cons, List.mem_cons, ih hxs]
      constructor
      · rintro (rfl | rfl | ⟨hmem, hne⟩)
        · exact .inr ⟨.inl rfl, Ne.symm hsame⟩
        · exact .inl rfl
        · exact .inr ⟨.inr hmem, hne⟩
      · rintro (rfl | ⟨rfl | hmem, hne⟩)
        · exact .inr (.inl rfl)
        · exact .inl rfl
        · exact .inr (.inr ⟨hmem, hne⟩)

theorem ordered_insert (h : Ordered ds) : Ordered (insert d ds) := by
  induction ds with
  | nil => exact List.pairwise_singleton _ d
  | cons x xs ih =>
    obtain ⟨hx, hxs⟩ := List.pairwise_cons.mp h
    rw [insert]
    split_ifs with hsame hfirst
    · exact List.pairwise_cons.mpr ⟨fun y hy => Directive.precedes_of_target hsame y ▸ hx y hy, hxs⟩
    · refine List.pairwise_cons.mpr ⟨List.forall_mem_cons.mpr ⟨hfirst, fun y hy => ?_⟩, h⟩
      exact Directive.precedes_trans hfirst (hx y hy)
    · refine List.pairwise_cons.mpr ⟨fun y hy => ?_, ih hxs⟩
      rcases (mem_insert hxs).mp hy with rfl | ⟨hmem, -⟩
      · exact (Directive.precedes_or_precedes hsame).resolve_left hfirst
      · exact hx y hmem

/-- The last of the directives for its target. -/
def Latest (ds : List Directive) (d : Directive) : Prop :=
  ∃ before after, ds = before ++ d :: after ∧ ∀ e ∈ after, e.target ≠ d.target

theorem latest_concat : Latest (ds ++ [d]) e ↔ e = d ∨ (Latest ds e ∧ e.target ≠ d.target) := by
  constructor
  · rintro ⟨before, after, heq, hafter⟩
    rcases List.eq_nil_or_concat' after with rfl | ⟨after, x, rfl⟩
    · exact .inl (List.singleton_inj.mp (List.append_inj_right' heq rfl)).symm
    · rw [← List.cons_append, ← List.append_assoc] at heq
      obtain ⟨rfl, hx⟩ := List.append_inj' heq rfl
      obtain rfl := List.singleton_inj.mp hx
      obtain ⟨hafter, hlast⟩ := List.forall_mem_append.mp hafter
      exact .inr ⟨⟨before, after, rfl, hafter⟩, (hlast d List.mem_cons_self).symm⟩
  · rintro (rfl | ⟨⟨before, after, rfl, hafter⟩, hne⟩)
    · exact ⟨ds, [], rfl, nofun⟩
    · refine ⟨before, after ++ [d], List.append_assoc .., ?_⟩
      exact List.forall_mem_append.mpr ⟨hafter, fun x hx => List.mem_singleton.mp hx ▸ hne.symm⟩

theorem Latest.mem (h : Latest ds d) : d ∈ ds := by
  obtain ⟨before, after, rfl, -⟩ := h
  exact List.mem_append_right before List.mem_cons_self

theorem exists_latest (h : e ∈ ds) : ∃ d, Latest ds d ∧ d.target = e.target := by
  induction ds using List.reverseRecOn with
  | nil => cases h
  | append_singleton ds x ih =>
    by_cases hx : e.target = x.target
    · exact ⟨x, latest_concat.mpr (.inl rfl), hx.symm⟩
    · rcases List.mem_append.mp h with hmem | hmem
      · obtain ⟨d, hd, htarget⟩ := ih hmem
        exact ⟨d, latest_concat.mpr (.inr ⟨hd, htarget ▸ hx⟩), htarget⟩
      · exact absurd (congrArg Directive.target (List.mem_singleton.mp hmem)) hx

theorem Latest.unique (h : Latest ds d) (h' : Latest ds e) (htarget : d.target = e.target) : d = e := by
  induction ds using List.reverseRecOn with
  | nil => exact absurd h.mem List.not_mem_nil
  | append_singleton ds x ih =>
    rcases latest_concat.mp h with rfl | ⟨hd, hdx⟩
    · rcases latest_concat.mp h' with rfl | ⟨-, hex⟩
      · rfl
      · exact absurd htarget.symm hex
    · rcases latest_concat.mp h' with rfl | ⟨he, -⟩
      · exact absurd htarget hdx
      · exact ih hd he

theorem foldl_add (ds : List Directive) :
    Ordered (ds.foldl add ⟨[]⟩).directives ∧ ∀ d, d ∈ (ds.foldl add ⟨[]⟩).directives ↔ Latest ds d := by
  induction ds using List.reverseRecOn with
  | nil => exact ⟨.nil, fun d => ⟨nofun, fun h => absurd h.mem List.not_mem_nil⟩⟩
  | append_singleton ds x ih =>
    obtain ⟨hordered, hmem⟩ := ih
    rw [List.foldl_append]
    refine ⟨ordered_insert hordered, fun d => ?_⟩
    rw [latest_concat, ← hmem d]
    exact mem_insert hordered

/-- Of directives, the later of which count, the one that decides about a target: it speaks of the target, none is more
specific, and it is the last one for its own target. -/
structure Decides (ds : List Directive) (target : String) (d : Directive) : Prop where
  latest : Latest ds d
  covers : d.covers target = true
  longest : ∀ e ∈ ds, e.covers target = true → e.weight ≤ d.weight

theorem Decides.unique (h : Decides ds t d) (h' : Decides ds t e) : d = e := by
  have hweight := le_antisymm (h'.longest d h.latest.mem h.covers) (h.longest e h'.latest.mem h'.covers)
  exact h.latest.unique h'.latest (Directive.target_eq_of_covers h.covers h'.covers hweight)

theorem decides_of_find? (h : (ds.foldl add ⟨[]⟩).directives.find? (·.covers t) = some d) : Decides ds t d := by
  obtain ⟨hordered, hmem⟩ := foldl_add ds
  obtain ⟨hcovers, before, after, heq, hbefore⟩ := List.find?_eq_some_iff_append.mp h
  rw [heq] at hordered
  obtain ⟨hafter, -⟩ := List.pairwise_cons.mp (List.pairwise_append.mp hordered).2.1
  refine ⟨(hmem d).mp (List.mem_of_find?_eq_some h), hcovers, fun e he hcover => ?_⟩
  obtain ⟨e', hlatest, htarget⟩ := exists_latest he
  have hcover' : e'.covers t = true := (Directive.covers_of_target htarget t).trans hcover
  have hin := (hmem e').mpr hlatest
  rw [← Directive.weight_of_target htarget]
  rw [heq] at hin
  rcases List.mem_append.mp hin with hfront | hback
  · have hnot := hbefore e' hfront
    rw [hcover'] at hnot
    cases hnot
  · rcases List.mem_cons.mp hback with rfl | hback
    · exact le_rfl
    · exact Directive.weight_le_of_precedes (hafter e' hback)

theorem find?_iff_decides : (ds.foldl add ⟨[]⟩).directives.find? (·.covers t) = some d ↔ Decides ds t d := by
  refine ⟨decides_of_find?, fun h => ?_⟩
  have hin := ((foldl_add ds).2 d).mpr h.latest
  cases hfind : (ds.foldl add ⟨[]⟩).directives.find? (·.covers t) with
  | none => exact absurd h.covers (List.find?_eq_none.mp hfind d hin)
  | some e => rw [(decides_of_find? hfind).unique h]

/-- A filter lets through what the directive says that decides. -/
theorem level?_foldl_add : (ds.foldl add ⟨[]⟩).level? t = some l ↔ ∃ d, Decides ds t d ∧ d.level = l := by
  rw [level?, Option.map_eq_some_iff]
  exact exists_congr fun d => and_congr_left' find?_iff_decides

theorem exists_decides (he : e ∈ ds) (hcover : e.covers t = true) : ∃ d, Decides ds t d := by
  obtain ⟨e', hlatest, htarget⟩ := exists_latest he
  have hin := ((foldl_add ds).2 e').mpr hlatest
  cases hfind : (ds.foldl add ⟨[]⟩).directives.find? (·.covers t) with
  | none => exact absurd ((Directive.covers_of_target htarget t).trans hcover) (List.find?_eq_none.mp hfind e' hin)
  | some d => exact ⟨d, decides_of_find? hfind⟩

theorem Decides.append (h : Decides ds t d) (hmore : ∀ q ∈ more, q.covers t = true → q.weight < d.weight) :
    Decides (ds ++ more) t d := by
  obtain ⟨⟨before, after, rfl, hafter⟩, hcovers, hlongest⟩ := h
  refine ⟨⟨before, after ++ more, by rw [List.append_assoc, List.cons_append], ?_⟩, hcovers, ?_⟩
  · refine List.forall_mem_append.mpr ⟨hafter, fun q hq htarget => ?_⟩
    have hlt := hmore q hq ((Directive.covers_of_target htarget t).trans hcovers)
    rw [Directive.weight_of_target htarget] at hlt
    exact lt_irrefl _ hlt
  · exact List.forall_mem_append.mpr ⟨hlongest, fun q hq hcover => (hmore q hq hcover).le⟩

/-- Each of some further directives is less specific than one that was there. -/
theorem decides_append_iff (h : ∀ q ∈ more, q.covers t = true → ∃ e ∈ ds, e.covers t = true ∧ q.weight < e.weight) :
    Decides (ds ++ more) t d ↔ Decides ds t d := by
  have hkeeps : ∀ {d}, Decides ds t d → Decides (ds ++ more) t d := by
    intro d hd
    refine hd.append fun q hq hcover => ?_
    obtain ⟨e, he, hecover, hlt⟩ := h q hq hcover
    exact hlt.trans_le (hd.longest e he hecover)
  refine ⟨fun hd => ?_, hkeeps⟩
  obtain ⟨d', hd'⟩ : ∃ d', Decides ds t d' := by
    rcases List.mem_append.mp hd.latest.mem with hmem | hmem
    · exact exists_decides hmem hd.covers
    · obtain ⟨e, he, hecover, -⟩ := h d hmem hd.covers
      exact exists_decides he hecover
  rwa [hd.unique (hkeeps hd')]

/-- The directives that a text is made of, in the order of the text; one that is no filter counts as `info`. -/
def written (text : String) : List Directive :=
  (((Text.splitOn (· == ',') text.toList).filter (!·.isEmpty)).mapM Directive.ofChars?).getD [⟨none, .info⟩]

/-- What a text alone is as a filter. -/
def alone (text : String) : LogFilter :=
  (ofText? text).getD ⟨[⟨none, .info⟩]⟩

theorem alone_eq (text : String) : alone text = (written text).foldl add ⟨[]⟩ := by
  rw [alone, written, ofText?]
  cases ((Text.splitOn (· == ',') text.toList).filter (!·.isEmpty)).mapM Directive.ofChars? <;> rfl

theorem configured_eq (text : String) : configured text = (written text ++ quiet).foldl add ⟨[]⟩ := by
  rw [List.foldl_append, ← alone_eq]
  rfl

/-- A directive of the text is more specific about the target. -/
def Outweighed (config target : String) (q : Directive) : Prop :=
  ∃ d ∈ written config, d.covers target = true ∧ q.weight < d.weight

theorem level?_configured_eq (h : ∀ q ∈ quiet, q.covers t = true → Outweighed config t q) :
    (configured config).level? t = (alone config).level? t := by
  rw [configured_eq, alone_eq]
  apply Option.ext
  intro l
  rw [level?_foldl_add, level?_foldl_add]
  exact exists_congr fun d => and_congr_left' (decides_append_iff h)

theorem quiet_apart : ∀ q ∈ quiet, ∀ q' ∈ quiet, ∀ s ∈ q.target, ∀ s' ∈ q'.target, s.toList <+: s'.toList → q = q' := by
  decide +kernel

theorem level_of_quiet : ∀ q ∈ quiet, q.level = .warn ∧ q.target.isSome = true := by
  decide

theorem quiet_unique (hq : q ∈ quiet) (hq' : q' ∈ quiet) (h : q.covers t = true) (h' : q'.covers t = true) : q = q' := by
  obtain ⟨s, hs⟩ := Option.isSome_iff_exists.mp (level_of_quiet q hq).2
  obtain ⟨s', hs'⟩ := Option.isSome_iff_exists.mp (level_of_quiet q' hq').2
  simp only [Directive.covers, hs] at h
  simp only [Directive.covers, hs'] at h'
  rcases List.prefix_or_prefix_of_prefix (List.isPrefixOf_iff_prefix.mp h) (List.isPrefixOf_iff_prefix.mp h') with
    hss | hss
  · exact quiet_apart q hq q' hq' s hs s' hs' hss
  · exact (quiet_apart q' hq' q hq s' hs' s hs hss).symm

theorem Latest.append (h : Latest more d) (ds : List Directive) : Latest (ds ++ more) d := by
  obtain ⟨before, after, rfl, hafter⟩ := h
  exact ⟨ds ++ before, after, (List.append_assoc ..).symm, hafter⟩

theorem latest_quiet (hq : q ∈ quiet) : Latest quiet q := by
  have hall : ∀ q ∈ quiet, q ∈ (quiet.foldl add ⟨[]⟩).directives := by decide +kernel
  exact ((foldl_add quiet).2 q).mp (hall q hq)

theorem level?_configured_quiet (hq : q ∈ quiet) (h : q.covers t = true) (hnot : ¬ Outweighed config t q) :
    (configured config).level? t = some .warn := by
  rw [configured_eq, level?_foldl_add]
  refine ⟨q, ⟨(latest_quiet hq).append _, h, ?_⟩, (level_of_quiet q hq).1⟩
  refine List.forall_mem_append.mpr ⟨fun e he hcover => ?_, fun e he hcover => ?_⟩
  · by_contra hlt
    exact hnot ⟨e, he, hcover, not_le.mp hlt⟩
  · rw [quiet_unique he hq hcover h]

/-- The most verbose level that is let through. -/
def verbosity (f : LogFilter) (target : String) : Level :=
  (f.level? target).getD .off

/-- The target is the dependency that a directive names or one of its modules. -/
def Within (q : Directive) (target : String) : Prop :=
  ∃ crate ∈ q.target, target = crate ∨ (crate ++ "::").toList <+: target.toList

theorem Within.covers {q : Directive} (h : Within q t) : q.covers t = true := by
  obtain ⟨crate, hcrate, h⟩ := h
  simp only [Directive.covers, Option.mem_def.mp hcrate]
  apply List.isPrefixOf_iff_prefix.mpr
  rcases h with rfl | h
  · exact List.prefix_rfl
  · rw [String.toList_append] at h
    exact (List.prefix_append _ _).trans h

theorem verbosity_configured_eq (hq : q ∈ quiet) (h : q.covers t = true) (ho : Outweighed config t q) :
    (configured config).verbosity t = (alone config).verbosity t := by
  have heq : (configured config).level? t = (alone config).level? t :=
    level?_configured_eq fun q' hq' h' => quiet_unique hq' hq h' h ▸ ho
  rw [verbosity, heq, verbosity]

theorem verbosity_configured_quiet (hq : q ∈ quiet) (h : q.covers t = true) (hnot : ¬ Outweighed config t q) :
    (configured config).verbosity t = .warn := by
  rw [verbosity, level?_configured_quiet hq h hnot]
  rfl

/-- The configured filter gives a target the level that the text alone gives it, unless it begins with the name of a
quiet dependency and no directive of the text is more specific than that: then it is `warn`, whatever the text says. So a
quiet dependency is held to the less verbose of `warn` and what the text lets through exactly if that is what its own
more specific directive comes to, or it has none and the text is not quieter than `warn`; and a target that begins with
such a name is left alone exactly if it has a more specific directive or is at `warn` anyway. -/
theorem configured_levels (config target : String) :
    (∀ l, (alone config).level? target = some l ↔ ∃ d, Decides (written config) target d ∧ d.level = l) ∧
    (∀ l, (configured config).level? target = some l ↔
      ∃ d, Decides (written config ++ quiet) target d ∧ d.level = l) ∧
    ((∀ q ∈ quiet, q.covers target = false) →
      (configured config).level? target = (alone config).level? target) ∧
    (∀ q ∈ quiet, q.covers target = true →
      (Outweighed config target q → (configured config).level? target = (alone config).level? target) ∧
      (¬ Outweighed config target q → (configured config).level? target = some .warn)) ∧
    (∀ q ∈ quiet, Within q target →
      ((configured config).verbosity target = Level.quieter .warn ((alone config).verbosity target) ↔
        (Outweighed config target q → ((alone config).verbosity target).rank ≤ Level.warn.rank) ∧
        (¬ Outweighed config target q → Level.warn.rank ≤ ((alone config).verbosity target).rank))) ∧
    (∀ q ∈ quiet, q.covers target = true →
      ((configured config).verbosity target = (alone config).verbosity target ↔
        Outweighed config target q ∨ (alone config).verbosity target = .warn)) := by
  refine ⟨fun l => ?_, fun l => ?_, fun hnone => ?_, fun q hq h => ⟨fun ho => ?_, level?_configured_quiet hq h⟩,
    fun q hq hwithin => ?_, fun q hq h => ?_⟩
  · rw [alone_eq, level?_foldl_add]
  · rw [configured_eq, level?_foldl_add]
  · exact level?_configured_eq fun q hq h => absurd ((hnone q hq).symm.trans h) Bool.false_ne_true
  · exact level?_configured_eq fun q' hq' h' => quiet_unique hq' hq h' h ▸ ho
  · by_cases ho : Outweighed config target q
    · rw [verbosity_configured_eq hq hwithin.covers ho, Level.eq_quieter_self_iff]
      exact ⟨fun hle => ⟨fun _ => hle, fun hnot => absurd ho hnot⟩, fun hle => hle.1 ho⟩
    · rw [verbosity_configured_quiet hq hwithin.covers ho, Level.eq_quieter_iff]
      exact ⟨fun hle => ⟨fun hyes => absurd hyes ho, fun _ => hle⟩, fun hle => hle.2 ho⟩
  · by_cases ho : Outweighed config target q
    · exact iff_of_true (verbosity_configured_eq hq h ho) (.inl ho)
    · rw [verbosity_configured_quiet hq h ho, or_iff_right ho, eq_comm]

/-- A text by which `hyper` is raised from `error` to `warn`, a module of it is let through beyond `warn`, and a target
outside of it that begins like it is raised too. -/
theorem configured_raised :
    (alone "error,hyper::proto=debug").verbosity "hyper" = .error ∧
    (configured "error,hyper::proto=debug").verbosity "hyper" = .warn ∧
    (configured "error,hyper::proto=debug").verbosity "hyper::proto" = .debug ∧
    (alone "error,hyper::proto=debug").verbosity "hyper_util" = .error ∧
    (configured "error,hyper::proto=debug").verbosity "hyper_util" = .warn := by
  decide +kernel

end LogFilter

end QueryGateway.Settings
