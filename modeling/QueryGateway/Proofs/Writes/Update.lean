import QueryGateway.Proofs.Store.Admission

namespace QueryGateway
set_option autoImplicit true

open Store

theorem Store.Binding.checkDistinct_of_nodup {t : TableInfo} (hbs : t.bind pairs = .ok bs)
    (hd : (bs.map (·.column)).Nodup) : checkDistinct t bs = .ok () := by
  have hfound : ∀ b ∈ bs, ∃ n, t.column n = .ok b.column := by
    intro b hb
    obtain ⟨pair, -, hcolumn, -⟩ := exists_of_mem_left (TableInfo.bind_eq_ok_iff.mp hbs).flip hb
    exact ⟨pair.1, hcolumn⟩
  have hnone : bs.find? (fun b => 1 < bs.countP (·.column.name == b.column.name)) = none := by
    refine List.find?_eq_none.mpr fun b hb => ?_
    obtain ⟨n, hn⟩ := hfound b hb
    have hle : bs.countP (·.column.name == b.column.name) ≤ 1 := by
      calc bs.countP (·.column.name == b.column.name)
        _ ≤ bs.countP (·.column == b.column) := by
          refine List.countP_mono_left fun b' hb' hname => ?_
          obtain ⟨n', hn'⟩ := hfound b' hb'
          exact beq_iff_eq.mpr (TableInfo.column_unique hn' hn (beq_iff_eq.mp hname))
        _ = (bs.map (·.column)).count b.column := by
          rw [List.count_eq_countP, List.countP_map]
          rfl
        _ ≤ 1 := List.nodup_iff_count_le_one.mp hd _
    exact fun hlt => Nat.not_lt.mpr hle (of_decide_eq_true hlt)
  rw [checkDistinct, hnone]

namespace Writes

/-- Members name columns of a table, each with a value of its column. -/
def Reads (t : TableInfo) (members : List (String × Json)) (given : Given) : Prop :=
  List.Forall₂ (fun m x => t.column m.1 = .ok x.1 ∧ x.1.type.cast m.2.scalarText? = .ok x.2) members given

/-- A row before and after an update: if it has the wanted values it gets the given ones, each in its column, and keeps
all others; else it is left alone. -/
structure Updated (t : TableInfo) (given wanted : Given) (r r' : Record) : Prop where
  id : r'.id = r.id
  gets : t.Has r wanted → ∀ x ∈ given, t.cell x.1 r' = x.2
  keeps : ∀ c ∉ given.map (·.1), t.cell c r' = t.cell c r
  untouched : ¬ t.Has r wanted → r' = r

section

variable {d d' : Database} {t : Table} {front back : List Table} {given wanted tested : Given}
  {values conditions : List (String × Json)} {place : Place}

theorem Reads.bind {t : TableInfo} (h : Reads t members given) :
    ∃ bs, t.bind (texts members) = .ok bs ∧ Binding.castAll bs = .ok given :=
  bind_ok (TableInfo.castAll_bind_eq_ok_iff.mpr (List.forall₂_map_left_iff.mpr h))

theorem Reads.mem_columns {t : TableInfo} (h : Reads t members given) : ∀ x ∈ given, x.1 ∈ t.columns := by
  intro x hx
  obtain ⟨m, -, hcolumn, -⟩ := exists_of_mem_left h.flip hx
  exact List.mem_of_find?_eq_some (TableInfo.column_eq_ok_iff.mp hcolumn)

theorem updated_amend {t : TableInfo} (hd : (given.map (·.1)).Nodup) (hin : ∀ x ∈ given, x.1 ∈ t.columns)
    (wanted : Given) (r : Record) : Updated t given wanted r (t.amend given wanted r) where
  id := t.id_amend given wanted r
  gets hhas x hx := by rw [TableInfo.amend_of_has hhas, TableInfo.cell_put_of_mem hd hx (hin x hx)]
  keeps c hc := TableInfo.cell_amend_of_not_mem hc wanted r
  untouched hnot := TableInfo.amend_of_not_has hnot given

theorem work_update_eq (hs : d.Sees c n t) (hv : values ≠ []) (hw : conditions ≠ [])
    (hbs : t.info.bind (texts values) = .ok bs) (hws : t.info.bind (texts conditions) = .ok ws)
    (hd : (bs.map (·.column)).Nodup) : d.work c (update n values conditions) =
      (d.perform c (.describe n)).2.work c ((Work.ask (.update t.info bs ws)).mapError Rpc.Failure.ofFault) := by
  have hsome : Binding.checkSome t.info bs = .ok () := by
    cases values with
    | nil => exact absurd rfl hv
    | cons m values =>
      cases TableInfo.bind_eq_ok_iff.mp hbs with
      | cons hb hrest => rfl
  have hupdate : Work.update t.info (texts values) (texts conditions) = Work.ask (.update t.info bs ws) := by
    rw [Work.update, hbs, hws]
    change (do
      Binding.checkSome t.info bs
      Binding.checkDistinct t.info bs
      Work.ask (.update t.info bs ws) : Work Fault Nat) = _
    rw [hsome, Binding.checkDistinct_of_nodup hbs hd]
    rfl
  rw [update, List.isEmpty_eq_false_iff.mpr hv, List.isEmpty_eq_false_iff.mpr hw]
  rw [← hupdate]
  exact Database.work_perform hs.describe _

/-- What an update comes to. Done as a whole it succeeds, or fails and leaves all that is seen as it was. Where its
members name columns, each with a value of its column, and no column is to be set twice, it goes by the rows that have
the wanted values: if each may get the new ones they get them, all other rows and all other columns stay as they are,
no other table is changed, and it is told how many they were; and if one may not get them the update fails. -/
theorem update_exact (hd : d.Orderly) (he : d.engine.Intact) (ofFault : Fault → Rpc.Failure) (n : String)
    (values conditions : List (String × Json)) :
    ((∃ m, (d.workAt ofFault (update n values conditions) .atomic).1 = .done m) ∨
      (∃ e, (d.workAt ofFault (update n values conditions) .atomic).1 = .failed e) ∧
        (d.workAt ofFault (update n values conditions) .atomic).2.engine.committed = d.engine.committed ∧
        (d.workAt ofFault (update n values conditions) .atomic).2.engine.view Database.shared =
          d.engine.view Database.shared) ∧
    ∀ (place : Place) (front : List Table) (t : Table) (back : List Table) (given wanted : Given), place.Accepts d →
      d.engine.view place.connection = front ++ t :: back → Placed d.schema n front t.info →
      values ≠ [] → conditions ≠ [] → Reads t.info values given → Reads t.info conditions wanted →
      (given.map (·.1)).Nodup →
      let admitted := ∀ r ∈ t.records, t.info.Has r wanted →
        d.engine.Admits place.connection front.length t given wanted r
      (admitted → ∃ rows d', d.workAt ofFault (update n values conditions) place =
          (.done (t.records.filter (t.info.Has · wanted)).length, d') ∧
        (d'.engine.view place.connection).map Table.timeless =
          (front ++ { t with records := rows } :: back).map Table.timeless ∧
        List.Forall₂ (Updated t.info given wanted) t.records rows) ∧
      (¬ admitted → ∃ e d', d.workAt ofFault (update n values conditions) place = (.failed e, d')) := by
  refine ⟨Database.runAtomic_total hd (update_total n values conditions) ofFault, ?_⟩
  intro place front t back given wanted ha hview hplaced hv hw hgiven hwanted hdistinct admitted
  obtain ⟨bs, hbs, hg⟩ := hgiven.bind
  obtain ⟨ws, hws, hwt⟩ := hwanted.bind
  have hcolumns := hgiven.mem_columns
  have hview₁ : (place.enter d).engine.view place.connection = front ++ t :: back :=
    (Database.view_enter hd ha).trans hview
  have hs₁ : (place.enter d).Sees place.connection n t := by
    rw [Database.Sees, Database.schema_enter, Database.view_enter hd ha]
    exact hplaced.sees hview
  have hwork := work_update_eq hs₁ hv hw hbs hws (by rwa [Binding.columns_castAll hg])
  -- The engine as the change of rows finds it.
  have hpin := Database.engine_perform (place.enter d) place.connection (.describe n) rfl rfl
  generalize ((place.enter d).perform place.connection (.describe n)).2 = d₁ at hwork hpin
  have hengine : d₁.engine.pin place.connection = (place.enter d).engine.pin place.connection := by
    rw [hpin, Engine.pin_pin]
  have hintact : (d₁.engine.pin place.connection).Intact := by
    rw [hengine]
    exact (Place.intact_enter he place).pin _
  have hview₂ : (d₁.engine.pin place.connection).view place.connection = front ++ t :: back := by
    rw [hengine, Engine.view_pin, hview₁]
  obtain ⟨hchanged, hrefused⟩ := Engine.update_spec hintact hplaced hview₂ hg hwt hdistinct hcolumns
  simp only [hengine, Place.admits_enter hd he ha] at hchanged hrefused
  constructor
  · intro hadmitted
    obtain ⟨e', hupdate, hseen⟩ := hchanged hadmitted
    have hcommit : place = .atomic → (e'.commit Database.shared).1 = .ok () := by
      rintro rfl
      have hidle : d.engine.connection Database.shared = .idle := ha
      have hbegun := Database.pin_enter_atomic hd hidle
      refine Engine.Intact.commit_update (hengine ▸ hintact) ?_ hupdate
      rw [Place.connection, hbegun]
      exact Engine.connection_setConnection_self _ _ hd.shared_lt
    rw [← hengine] at hupdate
    obtain ⟨d₂, hperform, rfl⟩ := Database.perform_update_of_ok hupdate
    rw [Database.work_mapError_of_done (Database.work_ask_of_ok hperform)] at hwork
    obtain ⟨d', hdone⟩ := Database.workAt_of_done ofFault ha hwork hcommit
    obtain ⟨-, -, -, d₃, hwork', hafter⟩ := Database.workAt_done hd hdone
    obtain ⟨-, rfl⟩ := Prod.mk.inj (hwork'.symm.trans hwork)
    refine ⟨_, d', hdone, hafter.trans hseen, ?_⟩
    rw [List.forall₂_map_right_iff, List.forall₂_same]
    exact fun r _ => updated_amend hdistinct hcolumns wanted r
  · intro hnot
    obtain ⟨f, hupdate⟩ := hrefused hnot
    rw [← hengine] at hupdate
    obtain ⟨d₂, hperform⟩ := Database.perform_update_of_error hupdate
    rw [Database.work_mapError_of_failed (Database.work_ask_of_error hperform)] at hwork
    exact ⟨_, Database.workAt_of_failed ofFault ha hwork⟩

/-- A column that is both set and tested: of three rows two are changed. -/
theorem update_exact_tested :
    let t : Table := ⟨⟨"main", "t", [⟨"id", .integer .regular, true, true⟩, ⟨"name", .text, false, false⟩]⟩,
      [⟨0, [.integer .regular 1, .text "a"], 1⟩, ⟨1, [.integer .regular 2, .null], 1⟩,
        ⟨2, [.integer .regular 3, .text "a"], 1⟩]⟩
    let d : Database := ⟨none, "main", ⟨[t], 1, 3, [.idle]⟩, [], []⟩
    let w := update "T" [("NAME", .string "b")] [("name", .string "a")]
    ∃ rows d', d.workAt Rpc.Failure.ofFault w .atomic = (.done 2, d') ∧
      (d'.engine.view Database.shared).map Table.timeless = [{ t with records := rows }].map Table.timeless ∧
      List.Forall₂ (Updated t.info [(⟨"name", .text, false, false⟩, .text "b")]
        [(⟨"name", .text, false, false⟩, .text "a")]) t.records rows := by
  intro t d w
  have horderly : d.Orderly := ⟨rfl, fun _ h => absurd rfl h⟩
  have hintact : d.engine.Intact :=
    ⟨by decide, by decide, by decide +kernel, by decide, by decide +kernel,
      fun p hp => nomatch List.mem_singleton.mp hp⟩
  have hplaced : Placed d.schema "T" [] t.info := ⟨by decide +kernel, nofun⟩
  have hset : Reads t.info [("NAME", .string "b")] [(⟨"name", .text, false, false⟩, .text "b")] := .cons ⟨rfl, rfl⟩ .nil
  have htested : Reads t.info [("name", .string "a")] [(⟨"name", .text, false, false⟩, .text "a")] :=
    .cons ⟨rfl, rfl⟩ .nil
  have hexact := update_exact horderly hintact Rpc.Failure.ofFault "T" [("NAME", .string "b")] [("name", .string "a")]
  obtain ⟨hchanged, -⟩ := hexact.2 .atomic [] t [] _ _ rfl rfl hplaced nofun nofun hset htested (by decide)
  exact hchanged (by decide +kernel)

/-- Members that name columns, with values of these columns, but null where there must be a value: the update is
refused. -/
theorem update_required :
    let t : Table := ⟨⟨"main", "t", [⟨"id", .integer .regular, true, true⟩, ⟨"name", .text, false, false⟩]⟩,
      [⟨0, [.integer .regular 1, .text "a"], 1⟩]⟩
    let d : Database := ⟨none, "main", ⟨[t], 1, 1, [.idle]⟩, [], []⟩
    Reads t.info [("id", .null)] [(⟨"id", .integer .regular, true, true⟩, .null)] ∧
    Reads t.info [("name", .string "a")] [(⟨"name", .text, false, false⟩, .text "a")] ∧
    (t.records.filter (t.info.Has · [(⟨"name", .text, false, false⟩, .text "a")])).length = 1 ∧
    (d.workAt Rpc.Failure.ofFault (update "t" [("id", .null)] [("name", .string "a")]) .atomic).1 =
      .failed (Rpc.Failure.ofFault (.engine "Constraint Error: NOT NULL constraint failed: t.id")) := by
  intro t d
  exact ⟨.cons ⟨rfl, rfl⟩ .nil, .cons ⟨rfl, rfl⟩ .nil, by decide +kernel, by decide +kernel⟩

end

end Writes

end QueryGateway
