import QueryGateway.Proofs.Store.Keys
import QueryGateway.Proofs.Store.Views

namespace QueryGateway.Store
set_option autoImplicit true

/-- The row has these values, null being the same as null. -/
def TableInfo.Has (t : TableInfo) (r : Record) (given : Given) : Prop :=
  ∀ x ∈ given, (t.cell x.1 r).same x.2 = true

instance (t : TableInfo) (r : Record) (given : Given) : Decidable (t.Has r given) :=
  inferInstanceAs (Decidable (∀ x ∈ given, _))

namespace Binding

theorem castAll_eq_ok_iff : castAll bs = .ok given ↔
    List.Forall₂ (fun b x => b.column = x.1 ∧ b.column.type.cast b.value = .ok x.2) bs given := by
  rw [castAll, mapM_ok_iff]
  have heach : ∀ (b : Binding) (x : Column × Value),
      (do return (b.column, ← b.column.type.cast b.value) : Except Fault (Column × Value)) = .ok x ↔
        b.column = x.1 ∧ b.column.type.cast b.value = .ok x.2 := by
    intro b x
    constructor
    · intro h
      obtain ⟨v, hv, hx⟩ := bind_ok h
      cases Except.ok.inj hx
      exact ⟨rfl, hv⟩
    · rintro ⟨hc, hv⟩
      rw [hv, hc]
      rfl
  exact ⟨fun h => h.imp fun b x => (heach b x).mp, fun h => h.imp fun b x => (heach b x).mpr⟩

theorem columns_castAll (h : castAll bs = .ok given) : bs.map (·.column) = given.map (·.1) := by
  have hgiven := castAll_eq_ok_iff.mp h
  clear h
  induction hgiven with
  | nil => rfl
  | cons hx _ ih => rw [List.map_cons, List.map_cons, hx.1, ih]

theorem applyAll_of_castAll (h : castAll wanted = .ok given) (t : TableInfo) (rs : List Record) :
    applyAll t wanted rs = .ok (rs.filter (t.Has · given)) := by
  have hgiven := castAll_eq_ok_iff.mp h
  clear h
  induction hgiven generalizing rs with
  | nil =>
    have hall : rs.filter (t.Has · []) = rs := List.filter_eq_self.mpr fun r _ => decide_eq_true nofun
    rw [applyAll, hall]
  | @cons b x wanted given hx _ ih =>
    obtain ⟨hc, hv⟩ := hx
    have hone : b.apply t rs = .ok (rs.filter fun r => (t.cell x.1 r).same x.2) := by
      rw [apply, hv, hc]
      cases rs with
      | nil => rfl
      | cons r rs => rfl
    have hboth : (rs.filter fun r => (t.cell x.1 r).same x.2).filter (t.Has · given) =
        rs.filter (t.Has · (x :: given)) := by
      rw [List.filter_filter]
      apply List.filter_congr
      intro r _
      rw [Bool.eq_iff_iff, Bool.and_eq_true, decide_eq_true_iff, decide_eq_true_iff, TableInfo.Has, TableInfo.Has,
        List.forall_mem_cons, and_comm]
    rw [applyAll, hone]
    exact (ih _).trans (congrArg Except.ok hboth)

theorem exists_castAll (h : applyAll t wanted rs = .ok found) (hne : found ≠ []) :
    ∃ given, castAll wanted = .ok given := by
  induction wanted generalizing rs with
  | nil => exact ⟨[], rfl⟩
  | cons b wanted ih =>
    obtain ⟨rs', hone, hrest⟩ := bind_ok (r := b.apply t rs) h
    obtain ⟨given, hgiven⟩ := ih hrest
    rw [apply] at hone
    split at hone
    · -- Where no row is left none is found.
      cases Except.ok.inj hone
      rw [applyAll_of_castAll hgiven] at hrest
      exact absurd (Except.ok.inj hrest).symm hne
    · obtain ⟨v, hv, -⟩ := bind_ok hone
      exact ⟨(b.column, v) :: given, castAll_eq_ok_iff.mpr (.cons ⟨rfl, hv⟩ (castAll_eq_ok_iff.mp hgiven))⟩

end Binding

theorem TableInfo.bind_eq_ok_iff {t : TableInfo} : t.bind pairs = .ok bs ↔
    List.Forall₂ (fun pair b => t.column pair.1 = .ok b.column ∧ b.value = pair.2) pairs bs := by
  rw [bind, mapM_ok_iff]
  have heach : ∀ (pair : String × Option String) (b : Binding),
      (do return ⟨← t.column pair.1, pair.2⟩ : Except Fault Binding) = .ok b ↔
        t.column pair.1 = .ok b.column ∧ b.value = pair.2 := by
    intro pair b
    constructor
    · intro h
      obtain ⟨c, hc, hb⟩ := bind_ok h
      cases Except.ok.inj hb
      exact ⟨hc, rfl⟩
    · rintro ⟨hc, hv⟩
      rw [hc, ← hv]
      rfl
  exact ⟨fun h => h.imp fun pair b => (heach pair b).mp, fun h => h.imp fun pair b => (heach pair b).mpr⟩

theorem TableInfo.castAll_bind_eq_ok_iff {t : TableInfo} : (do Binding.castAll (← t.bind pairs)) = .ok given ↔
    List.Forall₂ (fun pair x => t.column pair.1 = .ok x.1 ∧ x.1.type.cast pair.2 = .ok x.2) pairs given := by
  constructor
  · intro h
    obtain ⟨bs, hbs, hgiven⟩ := bind_ok h
    have hbound := bind_eq_ok_iff.mp hbs
    have hcast := Binding.castAll_eq_ok_iff.mp hgiven
    clear h hbs hgiven
    induction hbound generalizing given with
    | nil =>
      cases hcast
      exact .nil
    | cons hb _ ih =>
      cases hcast with
      | cons hx hrest =>
        obtain ⟨hc, hvalue⟩ := hb
        obtain ⟨hsame, hv⟩ := hx
        rw [hvalue, hsame] at hv
        exact .cons ⟨hsame ▸ hc, hv⟩ (ih hrest)
  · intro h
    have hboth : ∃ bs, t.bind pairs = .ok bs ∧ Binding.castAll bs = .ok given := by
      simp only [bind_eq_ok_iff, Binding.castAll_eq_ok_iff]
      induction h with
      | nil => exact ⟨[], .nil, .nil⟩
      | @cons pair x _ _ hx _ ih =>
        obtain ⟨bs, hbound, hcast⟩ := ih
        exact ⟨⟨x.1, pair.2⟩ :: bs, .cons ⟨hx.1, rfl⟩ hbound, .cons ⟨rfl, hx.2⟩ hcast⟩
    obtain ⟨bs, hbs, hgiven⟩ := hboth
    rw [hbs]
    exact hgiven

namespace TableInfo

variable {t : TableInfo} {given : Given}

theorem cell_eq_null (h : c ∉ t.columns) (r : Record) : t.cell c r = .null := by
  have hnone : (t.columns.zip r.cells).lookup c = none := by
    refine List.lookup_eq_none_iff.mpr fun x hx => bne_iff_ne.mpr fun heq => h ?_
    exact heq ▸ (List.of_mem_zip hx).1
  rw [cell, hnone, Option.getD_none]

theorem cell_put_of_not_mem (h : c ∉ given.map (·.1)) (r : Record) : t.cell c (t.put given r) = t.cell c r := by
  by_cases hc : c ∈ t.columns
  · have hnone : given.lookup c = none := by
      refine List.lookup_eq_none_iff.mpr fun x hx => bne_iff_ne.mpr fun heq => h ?_
      exact List.mem_map.mpr ⟨x, hx, heq.symm⟩
    rw [put, t.cell_cells given _ _ _ hc, hnone, Option.getD_none]
  · rw [cell_eq_null hc, cell_eq_null hc]

theorem lookup_of_mem (hd : (given.map (·.1)).Nodup) (hx : x ∈ given) : given.lookup x.1 = some x.2 := by
  induction given with
  | nil => exact absurd hx List.not_mem_nil
  | cons y given ih =>
    obtain ⟨hnot, hrest⟩ := List.nodup_cons.mp hd
    rw [List.lookup_cons]
    rcases List.mem_cons.mp hx with rfl | hx
    · rw [beq_self_eq_true]
    · have hne : x.1 ≠ y.1 := fun heq => hnot (List.mem_map.mpr ⟨x, hx, heq⟩)
      rw [beq_false_of_ne hne]
      exact ih hrest hx

theorem cell_put_of_mem (hd : (given.map (·.1)).Nodup) (hx : x ∈ given) (hc : x.1 ∈ t.columns) (r : Record) :
    t.cell x.1 (t.put given r) = x.2 := by
  rw [put, t.cell_cells given _ _ _ hc, lookup_of_mem hd hx, Option.getD_some]

def amend (t : TableInfo) (given wanted : Given) (r : Record) : Record :=
  if t.Has r wanted then t.put given r else r

theorem amend_of_has (h : t.Has r wanted) (given : Given) : t.amend given wanted r = t.put given r :=
  if_pos h

theorem amend_of_not_has (h : ¬ t.Has r wanted) (given : Given) : t.amend given wanted r = r :=
  if_neg h

theorem id_amend (t : TableInfo) (given wanted : Given) (r : Record) : (t.amend given wanted r).id = r.id := by
  by_cases h : t.Has r wanted
  · rw [amend_of_has h, put]
  · rw [amend_of_not_has h]

theorem cell_amend_of_not_mem (h : c ∉ given.map (·.1)) (wanted : Given) (r : Record) :
    t.cell c (t.amend given wanted r) = t.cell c r := by
  by_cases hr : t.Has r wanted
  · rw [amend_of_has hr, cell_put_of_not_mem h]
  · rw [amend_of_not_has hr]

end TableInfo

namespace Table

/-- The table with these values in all rows that have the wanted ones. -/
def set (t : Table) (given wanted : Given) : Table :=
  { t with records := t.records.map (t.info.amend given wanted) }

theorem foldl_replace_eq {f : Record → Record} (hf : ∀ r, (f r).id = r.id) {rs : List Record}
    (hn : (rs.map (·.id)).Nodup) (t : Table) : (rs.map f).foldl replace t =
      { t with records := t.records.map fun r => ((rs.find? (·.id == r.id)).map f).getD r } := by
  induction rs generalizing t with
  | nil =>
    change t = { t with records := t.records.map id }
    rw [List.map_id]
  | cons x rs ih =>
    obtain ⟨hnot, hrest⟩ := List.nodup_cons.mp hn
    rw [List.map_cons, List.foldl_cons, ih hrest, replace, List.map_map]
    congr 1
    apply List.map_congr_left
    intro r _
    rw [Function.comp_apply, hf, List.find?_cons]
    by_cases hr : r.id = x.id
    · -- No later row has the id of `x`, so what has been put in its place stays.
      have hnone : rs.find? (·.id == (f x).id) = none := by
        refine List.find?_eq_none.mpr fun y hy heq => hnot ?_
        rw [beq_iff_eq, hf] at heq
        exact List.mem_map.mpr ⟨y, hy, heq⟩
      rw [if_pos hr, hr, beq_self_eq_true, hnone]
      rfl
    · rw [if_neg hr, beq_false_of_ne (Ne.symm hr)]

theorem foldl_replace {t : Table} {f : Record → Record} (hf : ∀ r, (f r).id = r.id)
    (hn : (t.records.map (·.id)).Nodup) (p : Record → Bool) : ((t.records.filter p).map f).foldl replace t =
      { t with records := t.records.map fun r => if p r then f r else r } := by
  have hsub : ((t.records.filter p).map (·.id)).Nodup := hn.sublist (List.filter_sublist.map _)
  rw [foldl_replace_eq hf hsub]
  congr 1
  apply List.map_congr_left
  intro r hr
  -- The row that is found by the id of `r` is `r` itself.
  have hself : ∀ x ∈ t.records, x.id = r.id → x = r := fun x hx heq => List.inj_on_of_nodup_map hn hx hr heq
  cases hfind : (t.records.filter p).find? (·.id == r.id) with
  | none =>
    have hnot : ¬ p r = true := fun hpr =>
      List.find?_eq_none.mp hfind r (List.mem_filter.mpr ⟨hr, hpr⟩) (beq_self_eq_true _)
    rw [if_neg hnot]
    rfl
  | some x =>
    obtain ⟨hmem, hpx⟩ := List.mem_filter.mp (List.mem_of_find?_eq_some hfind)
    have hid := List.find?_some hfind
    obtain rfl := hself x hmem (beq_iff_eq.mp hid)
    rw [if_pos hpx]
    rfl

/-- What changes of rows make of their table. -/
theorem timeless_replaced {t : Table} (hn : (t.records.map (·.id)).Nodup) (given wanted : Given) (stamp : Nat) :
    ((((t.records.filter (t.info.Has · wanted)).map (t.info.put given)).map fun r : Record => { r with stamp }).foldl
      replace t).timeless = (t.set given wanted).timeless := by
  rw [List.map_map, foldl_replace (f := (fun r : Record => { r with stamp }) ∘ t.info.put given) (fun _ => rfl) hn,
    timeless, timeless, set, List.map_map, List.map_map]
  congr 1
  apply List.map_congr_left
  intro r _
  simp only [Function.comp_apply, decide_eq_true_eq, TableInfo.amend]
  split
  · rfl
  · rfl

theorem replaced {t : Table} (hn : (t.records.map (·.id)).Nodup) (given wanted : Given) :
    ((t.records.filter (t.info.Has · wanted)).map (t.info.put given)).foldl replace t = t.set given wanted := by
  rw [foldl_replace (f := t.info.put given) (fun _ => rfl) hn, set]
  simp only [decide_eq_true_eq]
  rfl

end Table

namespace Change

theorem applyAll_replace (stamp : Nat) (tables : List Table) (i : Nat) (rs : List Record) :
    applyAll stamp tables (rs.map (.replace i)) =
      tables.modify i fun t => (rs.map fun r : Record => { r with stamp }).foldl Table.replace t := by
  induction rs generalizing tables with
  | nil => exact (List.modify_id i tables).symm
  | cons r rs ih => exact (ih (tables.modify i (·.replace { r with stamp }))).trans (List.modify_modify_eq ..)

end Change

theorem modify_middle (front : List α) (a : α) (back : List α) (f : α → α) :
    (front ++ a :: back).modify front.length f = front ++ f a :: back := by
  induction front with
  | nil => exact List.modify_zero_cons ..
  | cons x front ih => exact (List.modify_succ_cons ..).trans (congrArg (x :: ·) ih)

namespace Database

variable {d d' : Database} {t : Table} {front back : List Table} {s n : String}

theorem perform_contains (hp : Placed s n front t.info) (hview : d.engine.view c = front ++ t :: back)
    (h : d.perform c (.contains t.info wanted) = (.ok found, d')) :
    (∃ rs, Binding.applyAll t.info wanted t.records = .ok rs ∧ found = !rs.isEmpty) ∧
      d'.engine = d.engine.pin c := by
  refine ⟨?_, ?_⟩
  · have hanswer : (d.engine.pin c).contains c t.info wanted = .ok found := congrArg Prod.fst h
    rw [Engine.contains, Engine.view_pin, hview, hp.finds back] at hanswer
    obtain ⟨rs, hrs, hfound⟩ := bind_ok hanswer
    exact ⟨rs, hrs, (Except.ok.inj hfound).symm⟩
  · have hengine := engine_perform d c (.contains t.info wanted) rfl rfl
    rw [h] at hengine
    exact hengine

theorem perform_contains_of_castAll (hp : Placed s n front t.info)
    (hview : d.engine.view c = front ++ t :: back) (hg : Binding.castAll wanted = .ok given) :
    (d.perform c (.contains t.info wanted)).1 = .ok !(t.records.filter (t.info.Has · given)).isEmpty := by
  change (d.engine.pin c).contains c t.info wanted = _
  rw [Engine.contains, Engine.view_pin, hview, hp.finds back]
  simp only [Binding.applyAll_of_castAll hg]
  rfl

theorem perform_insert (hp : Placed s n front t.info) (hview : d.engine.view c = front ++ t :: back)
    (h : d.perform c (.insert t.info bs) = (.ok (), d')) :
    ∃ given id stamp, Binding.castAll bs = .ok given ∧
      d'.engine.view c = front ++ t.add ⟨id, Binding.cells t.info given fun _ => .null, stamp⟩ :: back := by
  have hanswer : answer d.schema (d.engine.pin c) c (.insert t.info bs) = (.ok (), d'.engine) := by
    have hresult := congrArg Prod.fst h
    have hengine := congrArg (·.2.engine) h
    exact Prod.ext hresult hengine
  simp only [answer] at hanswer
  cases hi : (d.engine.pin c).insert c t.info bs with
  | error f =>
    rw [hi] at hanswer
    cases (Prod.mk.inj hanswer).1
  | ok e' =>
    rw [hi] at hanswer
    have heq : e' = d'.engine := (Prod.mk.inj hanswer).2
    have hview' : (d.engine.pin c).view c = front ++ t :: back := (Engine.view_pin ..).trans hview
    obtain ⟨i, t', given, hfind, hgiven, -, -, hresult⟩ := Engine.insert_cases hi
    rw [hview', hp.finds back] at hfind
    obtain ⟨rfl, rfl⟩ := Prod.mk.inj (Option.some.inj hfind)
    obtain ⟨stamp, hstamp⟩ := (d.engine.pin c).view_write c
      [.add front.length (t.info.fresh given (d.engine.pin c).nextId)]
    refine ⟨given, (d.engine.pin c).nextId, stamp, hgiven, ?_⟩
    rw [← heq, hresult]
    refine Eq.trans hstamp ?_
    rw [hview']
    exact modify_middle ..

end Database

end QueryGateway.Store
