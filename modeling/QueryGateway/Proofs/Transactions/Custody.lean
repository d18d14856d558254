import QueryGateway.Proofs.Transactions.Callers

namespace QueryGateway.Transactions
set_option autoImplicit true

open Store

namespace Registry

variable {r : Registry τ}

theorem filter_handle (h : r.find? s = some e) : r.entries.filter (handle ·.number == s) = [e] := by
  obtain ⟨-, before, after, heq, hbefore⟩ := List.find?_eq_some_iff_append.mp h
  obtain ⟨-, hs⟩ := find?_some h
  have hd := r.distinct
  rw [heq] at hd ⊢
  have hb : before.filter (handle ·.number == s) = [] := by
    apply List.filter_eq_nil_iff.mpr
    intro a ha
    simpa using hbefore a ha
  have hafter : after.filter (handle ·.number == s) = [] := by
    apply List.filter_eq_nil_iff.mpr
    intro a ha hm
    have hne := (List.pairwise_cons.mp (List.pairwise_append.mp hd).2.1).1 a ha
    exact hne (handle_injective (hs.trans (beq_iff_eq.mp hm).symm))
  have hself : (handle e.number == s) = true := beq_iff_eq.mpr hs
  rw [List.filter_append, List.filter_cons, if_pos hself, hb, hafter, List.nil_append]

def countOf (r : Registry Nat) (k : Nat) : Nat :=
  (r.entries.map (·.transaction)).count k

theorem countOf_keep (r : Registry Nat) (p : Entry Nat → Bool) (k : Nat) :
    r.countOf k = ((r.entries.filter (!p ·)).map (·.transaction)).count k + (r.keep p).countOf k := by
  have hp := List.filter_append_perm p r.entries
  have hc := (hp.map (·.transaction)).count_eq k
  rw [List.map_append, List.count_append] at hc
  simp only [countOf, keep]
  omega

theorem countOf_take? {r r' : Registry Nat} (h : r.take? s = some (k', r')) (k : Nat) :
    r.countOf k = [k'].count k + r'.countOf k := by
  obtain ⟨e, he, heq⟩ := Option.map_eq_some_iff.mp h
  cases heq
  have hnot : (fun e' : Entry Nat => !(handle e'.number != s)) = (handle ·.number == s) := by
    funext e'
    exact Bool.not_not _
  rw [countOf_keep r (handle ·.number != s) k, hnot, filter_handle he]
  rfl

theorem countOf_drain (r : Registry Nat) (k : Nat) : r.countOf k = r.drain.1.count k + r.drain.2.countOf k := by
  have hall : r.entries.filter (fun _ => !false) = r.entries := List.filter_eq_self.mpr fun _ _ => rfl
  rw [countOf_keep r (fun _ => false) k, hall]
  rfl

theorem countOf_sweep (r : Registry Nat) (now maxIdle k : Nat) :
    r.countOf k = (r.sweep now maxIdle).1.count k + (r.sweep now maxIdle).2.countOf k := by
  rw [countOf_keep r (!isStale now maxIdle ·) k]
  simp only [Bool.not_not]
  rfl

theorem touched_transaction (s : String) (now : Nat) (e : Entry τ) : (touched s now e).transaction = e.transaction := by
  unfold touched
  split <;> rfl

theorem countOf_use? {r r' : Registry Nat} (h : r.use? s now = some (k', r')) (k : Nat) :
    r'.countOf k = r.countOf k := by
  obtain ⟨e, -, heq⟩ := Option.map_eq_some_iff.mp h
  cases heq
  simp only [countOf, List.map_map, Function.comp_def, touched_transaction]

theorem next_use? {r r' : Registry τ} (h : r.use? s now = some (k, r')) : r'.next = r.next := by
  obtain ⟨e, -, heq⟩ := Option.map_eq_some_iff.mp h
  cases heq
  rfl

theorem next_take? {r r' : Registry τ} (h : r.take? s = some (k, r')) : r'.next = r.next := by
  obtain ⟨e, -, heq⟩ := Option.map_eq_some_iff.mp h
  cases heq
  rfl

theorem mem_take? {r r' : Registry τ} (h : r.take? s = some (k, r')) : ∀ e ∈ r'.entries, e ∈ r.entries := by
  obtain ⟨e, -, heq⟩ := Option.map_eq_some_iff.mp h
  cases heq
  exact fun e he => (List.mem_filter.mp he).1

theorem mem_entries_use? {r r' : Registry τ} (h : r.use? s now = some (k, r')) :
    ∀ e' ∈ r'.entries, ∃ e ∈ r.entries, e' = touched s now e := by
  obtain ⟨e, -, heq⟩ := Option.map_eq_some_iff.mp h
  cases heq
  intro e' he'
  obtain ⟨e'', hm, rfl⟩ := List.mem_map.mp he'
  exact ⟨e'', hm, rfl⟩

theorem mem_use? {r r' : Registry τ} (h : r.use? s now = some (k, r')) :
    ∀ e' ∈ r'.entries, ∃ e ∈ r.entries, e'.number = e.number ∧ e'.transaction = e.transaction := by
  intro e' he'
  obtain ⟨e, he, rfl⟩ := mem_entries_use? h e' he'
  exact ⟨e, he, touched_number _ _ _, touched_transaction _ _ _⟩

theorem countOf_put (r : Registry Nat) (hn : ∀ e ∈ r.entries, e.number ≠ number) (k now k' : Nat) :
    (r.put number k now).countOf k' = r.countOf k' + [k].count k' := by
  have hf : r.entries.filter (·.number != number) = r.entries := by
    apply List.filter_eq_self.mpr
    intro e he
    exact bne_iff_ne.mpr (hn e he)
  simp only [countOf, put, hf, List.map_append, List.count_append, List.map_cons, List.map_nil]

end Registry

namespace Callers

variable {s s' : Callers σ}

/-- What holds whatever steps have been taken. Each transaction is counted: it was begun once if it was started, is
in the registry or has been taken out, and has been finished by those who took it out, or they still owe it that. -/
structure Sound (s : Callers σ) : Prop where
  next : s.registry.next + s.beginning.countP (·.2.isNone) = s.started + 1
  started : ∀ k, (s.begun.map Prod.snd).count k + (s.beginning.map Prod.fst).count k = if k < s.started then 1 else 0
  handles : (s.begun.map Prod.fst ++ (s.beginning.filterMap Prod.snd).map handle).Nodup
  issued : ∀ x ∈ s.begun.map Prod.fst ++ (s.beginning.filterMap Prod.snd).map handle,
    ∃ n < s.registry.next, x = handle n
  entries : ∀ e ∈ s.registry.entries, (handle e.number, e.transaction) ∈ s.begun
  kept : ∀ k, s.registry.countOf k + (s.taken.map (·.2.2)).count k = (s.begun.map Prod.snd).count k
  owed : ∀ i how k, s.taken.count (i, how, k) = (s.owes i).count (how, k) + s.finished.count (i, how, k)

theorem opened_sound (world : σ) : (opened world).Sound where
  next := rfl
  started := fun k => (if_neg (Nat.not_lt_zero k)).symm
  handles := .nil
  issued := nofun
  entries := nofun
  kept := fun _ => rfl
  owed := fun _ _ _ => rfl

theorem begun_note (s : Callers σ) (es : List Event) : (s.note es).begun = s.begun ++ es.filterMap Event.begun? :=
  List.filterMap_append

theorem taken_note (s : Callers σ) (es : List Event) : (s.note es).taken = s.taken ++ es.filterMap Event.taken? :=
  List.filterMap_append

theorem finished_note (s : Callers σ) (es : List Event) :
    (s.note es).finished = s.finished ++ es.filterMap Event.finished? :=
  List.filterMap_append

theorem beginning_launch (s : Callers σ) (stage : Stage) :
    (s.launch stage).beginning = s.beginning ++ stage.begins?.toList := by
  rw [beginning, launch, List.filterMap_append]
  cases h : stage.begins? with
  | none => rw [List.filterMap_cons_none h]; rfl
  | some b => rw [List.filterMap_cons_some h]; rfl

theorem around (h : s.calls[i]? = some stage) :
    ∃ before after, s.calls = before ++ stage :: after ∧
      ∀ stage', (s.turn i stage').calls = before ++ stage' :: after := by
  obtain ⟨hi, rfl⟩ := List.getElem?_eq_some_iff.mp h
  refine ⟨s.calls.take i, s.calls.drop (i + 1), ?_, ?_⟩
  · rw [List.getElem_cons_drop, List.take_append_drop]
  · intro stage'
    exact List.set_eq_take_append_cons_drop.trans (if_pos hi)

theorem beginning_turn (h : s.calls[i]? = some stage) :
    ∃ before after, s.beginning = before ++ (stage.begins?.toList ++ after) ∧
      ∀ stage', (s.turn i stage').beginning = before ++ (stage'.begins?.toList ++ after) := by
  have hcons (stage : Stage) (after : List Stage) :
      (stage :: after).filterMap Stage.begins? = stage.begins?.toList ++ after.filterMap Stage.begins? := by
    cases hb : stage.begins? with
    | none => rw [List.filterMap_cons_none hb]; rfl
    | some b => rw [List.filterMap_cons_some hb]; rfl
  obtain ⟨before, after, hcalls, hturn⟩ := around h
  refine ⟨before.filterMap Stage.begins?, after.filterMap Stage.begins?, ?_, ?_⟩
  · rw [beginning, hcalls, List.filterMap_append, hcons]
  · intro stage'
    rw [beginning, hturn, List.filterMap_append, hcons]

theorem owes_launch (s : Callers σ) (stage : Stage) (i : Nat) :
    (s.launch stage).owes i = if i = s.calls.length then stage.owes else s.owes i := by
  split
  · next hi =>
    rw [hi, owes, launch, List.getElem?_concat_length]
    rfl
  · next hi =>
    rcases Nat.lt_or_gt_of_ne hi with hlt | hgt
    · rw [owes, launch, List.getElem?_append_left hlt]
      rfl
    · have hnew : (s.calls ++ [stage])[i]? = none := by
        rw [List.getElem?_eq_none_iff, List.length_append, List.length_singleton]
        exact hgt
      have hold : s.calls[i]? = none := List.getElem?_eq_none_iff.mpr (Nat.le_of_lt hgt)
      rw [owes, owes, launch, hnew, hold]

theorem owes_length (s : Callers σ) : s.owes s.calls.length = [] := by
  rw [owes, List.getElem?_eq_none_iff.mpr (Nat.le_refl _)]
  rfl

theorem owes_of_stage (h : s.calls[i]? = some stage) : s.owes i = stage.owes := by
  rw [owes, h]
  rfl

theorem owes_turn (h : s.calls[i]? = some stage) (stage' : Stage) (j : Nat) :
    (s.turn i stage').owes j = if j = i then stage'.owes else s.owes j := by
  have hi : i < s.calls.length := (List.getElem?_eq_some_iff.mp h).1
  split
  · next hj =>
    rw [hj, owes, turn, List.getElem?_set_self hi]
    rfl
  · next hj =>
    rw [owes, turn, List.getElem?_set_ne (Ne.symm hj)]
    rfl

theorem owes_turn_same (h : s.calls[i]? = some stage) (stage' : Stage) (howes : stage'.owes = stage.owes) (j : Nat) :
    (s.turn i stage').owes j = s.owes j := by
  rw [owes_turn h]
  split
  · next hj => rw [hj, owes_of_stage h, howes]
  · rfl

namespace Sound

theorem ofBegun (h : s.Sound) (hn : s'.registry.next = s.registry.next) (hs : s'.started = s.started)
    (hb : s'.begun = s.begun) (hg : s'.beginning = s.beginning)
    (entries : ∀ e ∈ s'.registry.entries, (handle e.number, e.transaction) ∈ s.begun)
    (kept : ∀ k, s'.registry.countOf k + (s'.taken.map (·.2.2)).count k =
      s.registry.countOf k + (s.taken.map (·.2.2)).count k)
    (owed : ∀ i how k, s'.taken.count (i, how, k) = (s'.owes i).count (how, k) + s'.finished.count (i, how, k)) :
    s'.Sound := by
  constructor
  · rw [hn, hs, hg]
    exact h.next
  · rw [hs, hb, hg]
    exact h.started
  · rw [hb, hg]
    exact h.handles
  · rw [hn, hb, hg]
    exact h.issued
  · rw [hb]
    exact entries
  · intro k
    rw [kept, hb]
    exact h.kept k
  · exact owed

theorem quiet (h : s.Sound) {es : List Event} (hb : es.filterMap Event.begun? = [])
    (ht : es.filterMap Event.taken? = []) (hf : es.filterMap Event.finished? = []) : (s.note es).Sound := by
  have hbegun : (s.note es).begun = s.begun := by rw [begun_note, hb, List.append_nil]
  have htaken : (s.note es).taken = s.taken := by rw [taken_note, ht, List.append_nil]
  have hfinished : (s.note es).finished = s.finished := by rw [finished_note, hf, List.append_nil]
  refine h.ofBegun rfl rfl hbegun rfl h.entries ?_ ?_
  · intro k
    rw [htaken]
    rfl
  · rw [htaken, hfinished]
    exact h.owed

theorem withWorld (h : s.Sound) (world : σ) : (s.withWorld world).Sound :=
  { h with }

theorem withRegistry (h : s.Sound) (hn : r.next = s.registry.next) (hc : ∀ k, r.countOf k = s.registry.countOf k)
    (he : ∀ e' ∈ r.entries, ∃ e ∈ s.registry.entries, e'.number = e.number ∧ e'.transaction = e.transaction) :
    (s.withRegistry r).Sound := by
  refine h.ofBegun hn rfl rfl rfl ?_ (fun k => congrArg (· + _) (hc k)) h.owed
  intro e' he'
  obtain ⟨e, hmem, hnumber, htransaction⟩ := he e' he'
  rw [hnumber, htransaction]
  exact h.entries e hmem

theorem turn (h : s.Sound) (hi : s.calls[i]? = some stage) (hb : stage'.begins? = stage.begins?)
    (howes : stage'.owes = stage.owes) : (s.turn i stage').Sound := by
  obtain ⟨before, after, hold, hnew⟩ := beginning_turn hi
  refine h.ofBegun rfl rfl rfl ?_ h.entries (fun _ => rfl) ?_
  · rw [hnew, hold, hb]
  · intro j how k
    rw [owes_turn_same hi stage' howes]
    exact h.owed j how k

/-- A call takes transactions out and has them in hand. -/
theorem takeOut (h : s.Sound) {ks : List Nat} (hb : stage.begins? = none) (howes : stage.owes = ks.map (how, ·))
    (hn : r.next = s.registry.next) (hc : ∀ k, s.registry.countOf k = ks.count k + r.countOf k)
    (he : ∀ e ∈ r.entries, e ∈ s.registry.entries) :
    (((s.withRegistry r).launch stage).note (ks.map (.taken s.calls.length how))).Sound := by
  have hquiet {β : Type} (g : Event → Option β) (hg : ∀ i how k, g (.taken i how k) = none) :
      (ks.map (Event.taken s.calls.length how)).filterMap g = [] := by
    apply List.filterMap_eq_nil_iff.mpr
    intro e hm
    obtain ⟨k, -, rfl⟩ := List.mem_map.mp hm
    exact hg _ _ _
  have htaken : (((s.withRegistry r).launch stage).note (ks.map (.taken s.calls.length how))).taken =
      s.taken ++ ks.map fun k => (s.calls.length, how, k) := by
    rw [taken_note, List.filterMap_map]
    exact congrArg (s.taken ++ ·) (congrFun List.filterMap_eq_map' ks)
  refine h.ofBegun hn rfl ?_ ?_ (fun e hm => h.entries e (he e hm)) ?_ ?_
  · rw [begun_note, hquiet _ fun _ _ _ => rfl]
    exact List.append_nil _
  · exact (beginning_launch _ _).trans (by rw [hb]; exact List.append_nil _)
  · intro k
    have hks := hc k
    rw [htaken, List.map_append, List.count_append, List.map_map]
    change r.countOf k + (_ + (ks.map fun k => k).count k) = _
    rw [List.map_id']
    omega
  · intro i how' k
    have ho := h.owed i how' k
    rw [htaken, finished_note, hquiet _ fun _ _ _ => rfl, List.append_nil, List.count_append]
    change _ = (((s.withRegistry r).launch stage).owes i).count (how', k) + s.finished.count _
    rw [owes_launch]
    split
    · next hi =>
      have hi : i = s.calls.length := hi
      subst hi
      rw [owes_length] at ho
      have hpair : (ks.map fun k => (s.calls.length, how, k)) = (ks.map (how, ·)).map (s.calls.length, ·) := by
        rw [List.map_map]
        rfl
      rw [howes, hpair, List.count_map_of_injective _ _ (Prod.mk_right_injective _), ho]
      exact (Nat.add_comm _ _).trans (congrArg (_ + ·) (Nat.zero_add _))
    · next hi =>
      have hnew : (ks.map fun k => (s.calls.length, how, k)).count (i, how', k) = 0 := by
        apply List.count_eq_zero.mpr
        intro hm
        obtain ⟨k', -, heq⟩ := List.mem_map.mp hm
        cases heq
        exact hi rfl
      rw [hnew]
      exact ho

theorem finish (h : s.Sound) (hi : s.calls[i]? = some stage) (hb : stage.begins? = none)
    (hb' : stage'.begins? = none) (howes : stage.owes.Perm ((how, k) :: stage'.owes)) (f : Finisher σ Nat) :
    (s.finish f i how k stage').Sound := by
  obtain ⟨before, after, hold, hnew⟩ := beginning_turn hi
  refine h.ofBegun rfl rfl ?_ ?_ h.entries ?_ ?_
  · exact (begun_note _ _).trans (List.append_nil _)
  · exact (hnew stage').trans (by rw [hold, hb, hb'])
  · intro k'
    have ht : (s.finish f i how k stage').taken = s.taken := (taken_note _ _).trans (List.append_nil _)
    rw [ht]
    rfl
  · intro j how' k'
    have ho := h.owed j how' k'
    have ht : (s.finish f i how k stage').taken = s.taken := (taken_note _ _).trans (List.append_nil _)
    have hf : (s.finish f i how k stage').finished = s.finished ++ [(i, how, k)] := finished_note _ _
    have hown : (s.finish f i how k stage').owes j = if j = i then stage'.owes else s.owes j := owes_turn hi _ _
    rw [ht, hf, hown, List.count_append, ho]
    split
    · next hj =>
      subst hj
      have hc := howes.count_eq (how', k')
      rw [List.count_cons] at hc
      rw [owes_of_stage hi, List.count_singleton]
      simp only [beq_iff_eq, Prod.mk.injEq, true_and] at hc ⊢
      omega
    · next hj =>
      have hne : ¬(i, how, k) = (j, how', k') := fun heq => hj (congrArg Prod.fst heq).symm
      rw [List.count_singleton, if_neg (mt beq_iff_eq.mp hne)]
      rfl

theorem start (h : s.Sound) : { s.launch (.starting s.started) with started := s.started + 1 : Callers σ }.Sound := by
  have hg : (s.launch (.starting s.started)).beginning = s.beginning ++ [(s.started, none)] := beginning_launch _ _
  constructor
  · have hn := h.next
    change s.registry.next + (s.launch _).beginning.countP _ = s.started + 1 + 1
    rw [hg, List.countP_append]
    change s.registry.next + (s.beginning.countP _ + 1) = _
    omega
  · intro k
    have hk := h.started k
    change (s.begun.map Prod.snd).count k + ((s.launch _).beginning.map Prod.fst).count k = _
    rw [hg, List.map_append, List.count_append]
    change _ + (_ + [s.started].count k) = if k < s.started + 1 then 1 else 0
    rw [List.count_singleton]
    simp only [beq_iff_eq]
    split at hk <;> split <;> split <;> omega
  · change (s.begun.map Prod.fst ++ ((s.launch _).beginning.filterMap Prod.snd).map handle).Nodup
    rw [hg, List.filterMap_append, List.filterMap_cons_none rfl, List.filterMap_nil, List.append_nil]
    exact h.handles
  · change ∀ x ∈ s.begun.map Prod.fst ++ ((s.launch _).beginning.filterMap Prod.snd).map handle, _
    rw [hg, List.filterMap_append, List.filterMap_cons_none rfl, List.filterMap_nil, List.append_nil]
    exact h.issued
  · exact h.entries
  · exact h.kept
  · intro i how k
    have ho := h.owed i how k
    change s.taken.count _ = ((s.launch (.starting s.started)).owes i).count _ + s.finished.count _
    rw [owes_launch]
    split
    · next hi =>
      rw [hi] at ho ⊢
      rw [owes_length] at ho
      exact ho
    · exact ho

theorem draw (h : s.Sound) (hw : s.started < Registry.wordSize) (hi : s.calls[i]? = some (.starting k)) :
    ((s.withRegistry s.registry.draw.2).turn i (.numbered k s.registry.draw.1)).Sound := by
  obtain ⟨before, after, hold, hnew⟩ := beginning_turn hi
  have hold : s.beginning = before ++ (k, none) :: after := hold
  have hnew : (s.turn i (.numbered k s.registry.draw.1)).beginning =
      before ++ (k, some s.registry.draw.1) :: after := hnew _
  have hn := h.next
  rw [hold, List.countP_append, List.countP_cons_of_pos rfl] at hn
  have hdraw : s.registry.draw.1 = s.registry.next := Nat.mod_eq_of_lt (by omega)
  rw [hdraw] at hnew ⊢
  have hperm : (s.begun.map Prod.fst ++ ((s.turn i (.numbered k s.registry.next)).beginning.filterMap Prod.snd).map
      handle).Perm (handle s.registry.next ::
        (s.begun.map Prod.fst ++ (s.beginning.filterMap Prod.snd).map handle)) := by
    rw [hnew, hold, List.filterMap_append, List.filterMap_append, List.filterMap_cons_some (f := Prod.snd) rfl,
      List.filterMap_cons_none (f := Prod.snd) rfl, List.map_append, List.map_cons, List.map_append,
      ← List.append_assoc, ← List.append_assoc]
    exact List.perm_middle
  constructor
  · change s.registry.next + 1 + (s.turn i _).beginning.countP _ = s.started + 1
    rw [hnew, List.countP_append, List.countP_cons_of_neg Bool.false_ne_true]
    omega
  · intro k'
    have hk := h.started k'
    change (s.begun.map Prod.snd).count k' + ((s.turn i _).beginning.map Prod.fst).count k' = _
    rw [hold] at hk
    rw [hnew]
    simp only [List.map_append, List.map_cons] at hk ⊢
    exact hk
  · apply hperm.nodup_iff.mpr
    apply List.nodup_cons.mpr
    refine ⟨?_, h.handles⟩
    intro hm
    obtain ⟨n, hlt, heq⟩ := h.issued _ hm
    exact Nat.lt_irrefl _ (handle_injective heq ▸ hlt)
  · intro x hx
    rcases List.mem_cons.mp (hperm.mem_iff.mp hx) with rfl | hm
    · exact ⟨_, Nat.lt_succ_self _, rfl⟩
    · obtain ⟨n, hlt, heq⟩ := h.issued x hm
      exact ⟨n, Nat.lt_succ_of_lt hlt, heq⟩
  · exact h.entries
  · exact h.kept
  · intro j how k'
    have hown : ((s.withRegistry s.registry.draw.2).turn i (.numbered k s.registry.next)).owes j = s.owes j :=
      owes_turn_same hi (.numbered k s.registry.next) rfl j
    rw [hown]
    exact h.owed j how k'

/-- The transaction comes under the handle of the number that was drawn for it, which is answered. -/
theorem put (h : s.Sound) (hi : s.calls[i]? = some (.numbered k number)) :
    (((s.withRegistry (s.registry.put number k now)).turn i .ended).note [.begun (handle number) k]).Sound := by
  obtain ⟨before, after, hold, hnew⟩ := beginning_turn hi
  have hold : s.beginning = before ++ (k, some number) :: after := hold
  have hnew : (s.turn i .ended).beginning = before ++ after := hnew _
  have hbegun : (((s.withRegistry (s.registry.put number k now)).turn i .ended).note [.begun (handle number) k]).begun =
      s.begun ++ [(handle number, k)] := begun_note _ _
  have htaken : (((s.withRegistry (s.registry.put number k now)).turn i .ended).note [.begun (handle number) k]).taken =
      s.taken := (taken_note _ _).trans (List.append_nil _)
  have hperm : (s.begun.map Prod.fst ++ (s.beginning.filterMap Prod.snd).map handle).Perm
      ((s.begun ++ [(handle number, k)]).map Prod.fst ++ ((before ++ after).filterMap Prod.snd).map handle) := by
    rw [hold, List.filterMap_append, List.filterMap_append, List.filterMap_cons_some (f := Prod.snd) rfl,
      List.map_append, List.map_append, List.map_cons, List.map_append, List.append_assoc]
    exact List.Perm.append_left _ List.perm_middle
  have hmem : handle number ∈ (s.beginning.filterMap Prod.snd).map handle := by
    rw [hold, List.filterMap_append, List.filterMap_cons_some (f := Prod.snd) rfl]
    exact List.mem_map_of_mem (List.mem_append_right _ List.mem_cons_self)
  have hfree : ∀ e ∈ s.registry.entries, e.number ≠ number := by
    intro e he heq
    have hb : handle number ∈ s.begun.map Prod.fst := by
      rw [← heq]
      exact List.mem_map_of_mem (h.entries e he)
    exact (List.nodup_append.mp h.handles).2.2 _ hb _ hmem rfl
  have hlt : number < s.registry.next := by
    obtain ⟨n, hn, heq⟩ := h.issued _ (List.mem_append_right _ hmem)
    rw [handle_injective heq]
    exact hn
  have hnext : (s.registry.put number k now).next = s.registry.next := Nat.max_eq_left hlt
  constructor
  · change (s.registry.put number k now).next + (s.turn i .ended).beginning.countP _ = s.started + 1
    have hn := h.next
    rw [hold, List.countP_append, List.countP_cons_of_neg Bool.false_ne_true] at hn
    rw [hnext, hnew, List.countP_append]
    exact hn
  · intro k'
    have hk := h.started k'
    rw [hbegun]
    change _ + ((s.turn i .ended).beginning.map Prod.fst).count k' = _
    rw [hold] at hk
    rw [hnew, List.map_append, List.count_append, List.map_append, List.count_append]
    rw [List.map_append, List.count_append, List.map_cons, List.count_cons] at hk
    change _ + [k].count k' + _ = if k' < s.started then 1 else 0
    rw [List.count_singleton]
    change _ + (_ + (_ + if (k == k') = true then 1 else 0)) = _ at hk
    omega
  · rw [hbegun]
    change (_ ++ ((s.turn i .ended).beginning.filterMap Prod.snd).map handle).Nodup
    rw [hnew]
    exact hperm.nodup_iff.mp h.handles
  · rw [hbegun]
    change ∀ x ∈ _ ++ ((s.turn i .ended).beginning.filterMap Prod.snd).map handle,
      ∃ n < (s.registry.put number k now).next, _
    rw [hnew, hnext]
    intro x hx
    exact h.issued x (hperm.mem_iff.mpr hx)
  · intro e he
    rw [hbegun]
    rcases List.mem_append.mp he with hm | hm
    · exact List.mem_append_left _ (h.entries e (List.mem_filter.mp hm).1)
    · rw [List.mem_singleton.mp hm]
      exact List.mem_append_right _ List.mem_cons_self
  · intro k'
    have hk := h.kept k'
    rw [hbegun, htaken, List.map_append, List.count_append]
    change (s.registry.put number k now).countOf k' + _ = _ + [k].count k'
    rw [Registry.countOf_put _ hfree]
    omega
  · intro j how k'
    have hf : (((s.withRegistry (s.registry.put number k now)).turn i .ended).note
        [.begun (handle number) k]).finished = s.finished := (finished_note _ _).trans (List.append_nil _)
    have hown : (((s.withRegistry (s.registry.put number k now)).turn i .ended).note
        [.begun (handle number) k]).owes j = s.owes j := owes_turn_same hi .ended rfl j
    rw [htaken, hf, hown]
    exact h.owed j how k'

theorem begin (h : s.Sound) (start : σ → Except Fault Unit × σ) : (s.begin start).Sound := by
  unfold Callers.begin
  split
  · exact (h.withWorld _).quiet rfl rfl rfl
  · exact (h.withWorld _).start

theorem get (h : s.Sound) (handle : String) (now : Nat) : (s.get handle now).Sound := by
  unfold Callers.get
  split
  · exact h.quiet rfl rfl rfl
  · next k r hr =>
    exact (h.withRegistry (Registry.next_use? hr) (Registry.countOf_use? hr) (Registry.mem_use? hr)).quiet rfl rfl rfl

theorem take (h : s.Sound) (how : Ending) (handle : String) : (s.take how handle).Sound := by
  unfold Callers.take
  split
  · exact h.quiet rfl rfl rfl
  · next k r hr =>
    have howes : (Stage.finishing handle how k).owes = [k].map (how, ·) := rfl
    exact h.takeOut rfl howes (Registry.next_take? hr) (Registry.countOf_take? hr) (Registry.mem_take? hr)

theorem abandon (h : s.Sound) {taken : List Nat × Registry Nat} (hn : taken.2.next = s.registry.next)
    (hc : ∀ k, s.registry.countOf k = taken.1.count k + taken.2.countOf k)
    (he : ∀ e ∈ taken.2.entries, e ∈ s.registry.entries) : (s.abandon taken).Sound :=
  h.takeOut rfl rfl hn hc he

theorem advance (h : s.Sound) (hw : s.started < Registry.wordSize) (f : Finisher σ Nat) (i now pick : Nat) :
    (s.advance f i now pick).Sound := by
  unfold Callers.advance
  split
  · next k hi => exact h.draw hw hi
  · next k number hi => exact h.put hi
  · next handle how k hi => exact h.finish hi rfl rfl (List.Perm.refl _) f
  · next count ks hi =>
    have hperm := List.rotate_perm ks pick
    split
    · next k rest heq =>
      rw [heq] at hperm
      have howes : (Stage.abandoning count ks).owes.Perm ((.rollback, k) :: (Stage.abandoning count rest).owes) :=
        hperm.symm.map _
      exact h.finish hi rfl rfl howes f
    · next heq =>
      rw [heq] at hperm
      rw [hperm.symm.eq_nil] at hi
      have hturn : (s.turn i .ended).Sound := h.turn hi rfl rfl
      exact hturn.quiet rfl rfl rfl
  · exact h
  · exact h

end Sound

theorem step_sound (h : s.Sound) (hw : s.started < Registry.wordSize) (f : Finisher σ Nat) (m : Move σ) :
    (step f s m).Sound := by
  cases m with
  | begin start => exact h.begin start
  | get handle now => exact h.get handle now
  | finish how handle => exact h.take how handle
  | rollbackAll => exact h.abandon rfl (Registry.countOf_drain _) fun e he => (List.mem_filter.mp he).1
  | expire now maxIdle => exact h.abandon rfl (Registry.countOf_sweep _ _ _) fun e he => (List.mem_filter.mp he).1
  | advance i now pick => exact h.advance hw f i now pick

theorem step_started (f : Finisher σ Nat) (s : Callers σ) (m : Move σ) :
    (step f s m).started ≤ s.started + [m].countP Move.isBegin := by
  cases m with
  | begin start =>
    change (s.begin start).started ≤ s.started + 1
    unfold Callers.begin
    split
    · exact Nat.le_succ _
    · exact Nat.le_refl _
  | get handle now =>
    change (s.get handle now).started ≤ s.started
    unfold Callers.get
    split <;> exact Nat.le_refl _
  | finish how handle =>
    change (s.take how handle).started ≤ s.started
    unfold Callers.take
    split <;> exact Nat.le_refl _
  | rollbackAll => exact Nat.le_refl _
  | expire now maxIdle => exact Nat.le_refl _
  | advance i now pick =>
    change (s.advance f i now pick).started ≤ s.started
    unfold Callers.advance
    split
    · exact Nat.le_refl _
    · exact Nat.le_refl _
    · exact Nat.le_refl _
    · split <;> exact Nat.le_refl _
    · exact Nat.le_refl _
    · exact Nat.le_refl _

theorem run_sound (f : Finisher σ Nat) (moves : List (Move σ)) :
    ∀ {s : Callers σ}, s.Sound → s.started + moves.countP Move.isBegin < Registry.wordSize →
      (run f s moves).Sound := by
  induction moves with
  | nil =>
    intro s h _
    exact h
  | cons m moves ih =>
    intro s h hw
    have hstarted := step_started f s m
    have hsplit : (m :: moves).countP Move.isBegin = [m].countP Move.isBegin + moves.countP Move.isBegin := by
      rw [← List.countP_append, List.singleton_append]
    exact ih (step_sound h (by omega) f m) (by omega)

end Callers

end QueryGateway.Transactions
