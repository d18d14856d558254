import QueryGateway.Proofs.Store.Integrity

namespace QueryGateway.Store
set_option autoImplicit true

/-- Nothing keeps a row of a table from getting these values with all that have the wanted ones: nobody else holds it,
nor has changed it since it was read; none of the values is null where one is required; and where a value may be there
only once, no other row has it, neither among those seen, once they are changed, nor among those committed. -/
structure Engine.Admits (e : Engine) (c i : Nat) (t : Table) (given wanted : Given) (r : Record) : Prop where
  free : e.contested c i r.id = false
  complete : ∀ x ∈ given, x.1.required = true → x.2.isNull = false
  distinct : ∀ x ∈ given, x.1.unique = true →
    (t.set given wanted).taken x.1 r.id x.2 = false ∧ (e.rivals c i t).taken x.1 r.id x.2 = false

instance (e : Engine) (c i : Nat) (t : Table) (given wanted : Given) (r : Record) :
    Decidable (e.Admits c i t given wanted r) :=
  decidable_of_iff (e.contested c i r.id = false ∧ (∀ x ∈ given, x.1.required = true → x.2.isNull = false) ∧
      ∀ x ∈ given, x.1.unique = true →
        (t.set given wanted).taken x.1 r.id x.2 = false ∧ (e.rivals c i t).taken x.1 r.id x.2 = false)
    ⟨fun ⟨hfree, hcomplete, hdistinct⟩ => ⟨hfree, hcomplete, hdistinct⟩, fun h => ⟨h.free, h.complete, h.distinct⟩⟩

theorem Table.missing?_eq_none {t : TableInfo} : missing? t columns r = none ↔
    ∀ k ∈ columns, k.required = true → (t.cell k r).isNull = false := by
  rw [missing?, Option.map_eq_none_iff, List.find?_eq_none]
  simp only [Bool.and_eq_true, not_and, Bool.not_eq_true]

theorem Table.set_of_none {t : Table} (h : t.records.filter (t.info.Has · wanted) = []) (given : Given) :
    t.set given wanted = t := by
  have hsame : t.records.map (t.info.amend given wanted) = t.records.map id := by
    refine List.map_congr_left fun r hr => TableInfo.amend_of_not_has (fun hhas => ?_) given
    exact List.filter_eq_nil_iff.mp h r hr (decide_eq_true hhas)
  rw [set, hsame, List.map_id]

namespace Engine

variable {e e' : Engine} {t : Table} {given wanted : Given} {front back : List Table}

theorem info_rivals (h : e.Intact) (ht : (e.view c)[i]? = some t) : (e.rivals c i t).info = t.info := by
  obtain ⟨-, -, hinfos⟩ := h.view c
  have hinfo := congrArg (·[i]?) hinfos
  simp only [List.getElem?_map, ht, Option.map_some] at hinfo
  unfold rivals
  cases hu : e.tables[i]? with
  | none => rfl
  | some u =>
    rw [hu] at hinfo
    exact (Option.some.inj hinfo).symm

theorem rivals_set (e : Engine) (c i : Nat) (t : Table) (given wanted : Given) :
    e.rivals c i (t.set given wanted) = e.rivals c i t := by
  unfold rivals
  cases e.tables[i]? with
  | none => rfl
  | some u => rfl

theorem changes_iff (hd : (given.map (·.1)).Nodup) (hin : ∀ x ∈ given, x.1 ∈ t.info.columns) (hids : t.ids.Nodup)
    (hrivals : (e.rivals c i t).info = t.info) :
    e.Changes c i t (given.map (·.1)) given (t.records.filter (t.info.Has · wanted)) ↔
      ∀ r ∈ t.records, t.info.Has r wanted → e.Admits c i t given wanted r := by
  -- A changed row has the given values in the columns that are set, whatever it had there before.
  have hvalue : ∀ x ∈ given, ∀ r, t.info.cell x.1 (t.info.put given r) = x.2 := fun x hx r =>
    TableInfo.cell_put_of_mem hd hx (hin x hx) r
  have hcomplete : ∀ r, Table.missing? t.info (given.map (·.1)) (t.info.put given r) = none ↔
      ∀ x ∈ given, x.1.required = true → x.2.isNull = false := by
    intro r
    rw [Table.missing?_eq_none, List.forall_mem_map]
    exact forall₂_congr fun x hx => by rw [hvalue x hx r]
  have hdistinct : ∀ r, e.duplicate? c i (t.set given wanted) (given.map (·.1)) (t.info.put given r) = none ↔
      ∀ x ∈ given, x.1.unique = true →
        (t.set given wanted).taken x.1 r.id x.2 = false ∧ (e.rivals c i t).taken x.1 r.id x.2 = false := by
    intro r
    rw [duplicate?_eq_none, rivals_set, Table.duplicate?_eq_none, Table.duplicate?_eq_none, List.forall_mem_map,
      List.forall_mem_map, hrivals]
    constructor
    · rintro ⟨hseen, hcommitted⟩ x hx hunique
      rw [← hvalue x hx r]
      exact ⟨hseen x hx hunique, hcommitted x hx hunique⟩
    · intro h
      constructor
      · intro x hx hunique
        have hseen := (h x hx hunique).1
        rwa [← hvalue x hx r] at hseen
      · intro x hx hunique
        have hcommitted := (h x hx hunique).2
        rwa [← hvalue x hx r] at hcommitted
  constructor
  · rintro ⟨hmissing, hfree, hduplicate⟩ r hr hhas
    have hmem : r ∈ t.records.filter (t.info.Has · wanted) := List.mem_filter.mpr ⟨hr, decide_eq_true hhas⟩
    have hnone := hduplicate r hmem
    rw [Table.replaced hids] at hnone
    exact ⟨hfree r hmem, (hcomplete r).mp (hmissing r hmem), (hdistinct r).mp hnone⟩
  · intro h
    have hfound : ∀ r ∈ t.records.filter (t.info.Has · wanted), e.Admits c i t given wanted r := by
      intro r hr
      obtain ⟨hmem, hhas⟩ := List.mem_filter.mp hr
      exact h r hmem (of_decide_eq_true hhas)
    refine ⟨fun r hr => (hcomplete r).mpr (hfound r hr).complete, fun r hr => (hfound r hr).free, fun r hr => ?_⟩
    rw [Table.replaced hids]
    exact (hdistinct r).mpr (hfound r hr).distinct

/-- What a change of rows does: where all rows with the wanted values are admitted they get the new ones, and else it
fails. -/
theorem update_spec (h : e.Intact) (hp : Placed s n front t.info) (hview : e.view c = front ++ t :: back)
    (hg : Binding.castAll bs = .ok given) (hw : Binding.castAll ws = .ok wanted) (hd : (given.map (·.1)).Nodup)
    (hin : ∀ x ∈ given, x.1 ∈ t.info.columns) :
    ((∀ r ∈ t.records, t.info.Has r wanted → e.Admits c front.length t given wanted r) →
      ∃ e', e.update c t.info bs ws = .ok ((t.records.filter (t.info.Has · wanted)).length, e') ∧
        (e'.view c).map Table.timeless = (front ++ t.set given wanted :: back).map Table.timeless) ∧
    (¬ (∀ r ∈ t.records, t.info.Has r wanted → e.Admits c front.length t given wanted r) →
      ∃ f, e.update c t.info bs ws = .error f) := by
  have hfind : findTable? (e.view c) t.info.schema t.info.name = some (front.length, t) := hview ▸ hp.finds back
  have hfound := Binding.applyAll_of_castAll hw t.info t.records
  have hget : (e.view c)[front.length]? = some t := (findTable?_eq_some hfind).1
  have hids : t.ids.Nodup := nodup_ids (h.view c).1 (List.mem_of_getElem? hget)
  by_cases hnone : t.records.filter (t.info.Has · wanted) = []
  · -- Where no row is found nothing is checked, and there is none that is not admitted.
    have hupdate : e.update c t.info bs ws = .ok (0, e) := by
      rw [hnone] at hfound
      simp only [update, hfind, hfound, bind, Except.bind, List.isEmpty_nil, if_true]
      rfl
    refine ⟨fun _ => ⟨e, ?_, ?_⟩, fun hnot => absurd (fun r hr hhas => ?_) hnot⟩
    · rw [hupdate, hnone, List.length_nil]
    · rw [hview, Table.set_of_none hnone]
    · exact absurd (decide_eq_true hhas) (List.filter_eq_nil_iff.mp hnone r hr)
  · obtain ⟨hchanged, hrefused⟩ := update_of_found hfind hfound hg hnone
    rw [Binding.columns_castAll hg, changes_iff hd hin hids (info_rivals h hget)] at hchanged hrefused
    refine ⟨fun hadmits => ⟨_, hchanged hadmits, ?_⟩, hrefused⟩
    obtain ⟨stamp, hseen⟩ := e.view_write c
      (((t.records.filter (t.info.Has · wanted)).map (t.info.put given)).map (.replace front.length))
    rw [hseen, hview, Change.applyAll_replace, modify_middle, List.map_append, List.map_cons,
      Table.timeless_replaced hids, List.map_append, List.map_cons]

def heldByOthers (e : Engine) (c id : Nat) : Bool :=
  e.connections.zipIdx.any fun (other, k) => k != c && other.locks.contains id

theorem heldByOthers_setConnection (e : Engine) (c id : Nat) (s : Connection) :
    (e.setConnection c s).heldByOthers c id = e.heldByOthers c id := by
  have hmem : ∀ other k, k ≠ c →
      ((other, k) ∈ (e.setConnection c s).connections.zipIdx ↔ (other, k) ∈ e.connections.zipIdx) := by
    intro other k hk
    rw [List.mem_zipIdx_iff_getElem?, List.mem_zipIdx_iff_getElem?, setConnection, List.getElem?_set_ne (Ne.symm hk)]
  rw [Bool.eq_iff_iff, heldByOthers, heldByOthers, List.any_eq_true, List.any_eq_true]
  apply exists_congr
  intro p
  obtain ⟨other, k⟩ := p
  simp only [Bool.and_eq_true, bne_iff_ne]
  exact and_congr_left fun hothers => hmem other k hothers.1

theorem contested_of_current (h : e.Intact) (hc : ∀ p, e.connection c = .reading p → p.since = e.stamp) (i id : Nat) :
    e.contested c i id = e.heldByOthers c id := by
  refine (congrArg (e.heldByOthers c id || ·) ?_).trans (Bool.or_false _)
  cases he : e.connection c with
  | reading p =>
    cases ht : e.tables[i]? with
    | none => rfl
    | some t =>
      refine List.any_eq_false.mpr fun r hr => ?_
      have hstamp := h.stamped t (List.mem_of_getElem? ht) r hr
      simp only [Bool.and_eq_true, decide_eq_true_eq, not_and, Nat.not_lt, hc p he]
      exact fun _ => hstamp
  | _ => rfl

/-- A row is admitted by a transaction that begins to read if it is admitted outside of it. -/
theorem admits_begun (h : e.Intact) (hlt : c < e.connections.length) (hnot : ∀ p, e.connection c ≠ .reading p) :
    (e.setConnection c (.reading ⟨e.stamp, e.tables, []⟩)).Admits c i t given wanted r ↔
      e.Admits c i t given wanted r := by
  have hreading := e.connection_setConnection_self (.reading ⟨e.stamp, e.tables, []⟩) hlt
  have hintact := h.setConnection c (s := .reading ⟨e.stamp, e.tables, []⟩) rfl fun p hp => by
    cases hp
    exact ⟨rfl, .refl _, h.plain, nofun⟩
  have hcontested : (e.setConnection c (.reading ⟨e.stamp, e.tables, []⟩)).contested c i r.id =
      e.contested c i r.id := by
    rw [contested_of_current hintact, contested_of_current h fun p hp => absurd hp (hnot p), heldByOthers_setConnection]
    intro p hp
    cases hreading.symm.trans hp
    rfl
  have hrivals : (e.setConnection c (.reading ⟨e.stamp, e.tables, []⟩)).rivals c i t = e.rivals c i t := by
    have hlocks : (e.connection c).locks = [] := by
      cases he : e.connection c with
      | reading p => exact absurd he (hnot p)
      | _ => rfl
    rw [rivals, rivals, hreading, hlocks]
    rfl
  constructor
  · rintro ⟨hfree, hcomplete, hdistinct⟩
    exact ⟨hcontested ▸ hfree, hcomplete, hrivals ▸ hdistinct⟩
  · rintro ⟨hfree, hcomplete, hdistinct⟩
    exact ⟨hcontested ▸ hfree, hcomplete, hrivals ▸ hdistinct⟩

end Engine

namespace Database

theorem perform_update_of_ok {d : Database} (h : (d.engine.pin c).update c t bs ws = .ok (m, e')) :
    ∃ d', d.perform c (.update t bs ws) = (.ok m, d') ∧ d'.engine = e' :=
  ⟨{ d.record c (.operation (.update t bs ws)) with engine := e' }, by simp only [perform, reads, if_true, answer, h],
    rfl⟩

theorem perform_update_of_error {d : Database} (h : (d.engine.pin c).update c t bs ws = .error f) :
    ∃ d', d.perform c (.update t bs ws) = (.error f, d') :=
  ⟨{ d.record c (.operation (.update t bs ws)) with engine := d.engine.pin c }, by
    simp only [perform, reads, if_true, answer, h]⟩

end Database

namespace Place

variable {d : Database} {place : Place}

theorem engine_enter (hd : d.Orderly) (ha : place.Accepts d) :
    (place.enter d).engine.pin place.connection = d.engine ∨
      place.connection < d.engine.connections.length ∧ (∀ p, d.engine.connection place.connection ≠ .reading p) ∧
        (place.enter d).engine.pin place.connection =
          d.engine.setConnection place.connection (.reading ⟨d.engine.stamp, d.engine.tables, []⟩) := by
  have pinned : ∀ c, d.engine.pin c = d.engine ∨ c < d.engine.connections.length ∧
      (∀ p, d.engine.connection c ≠ .reading p) ∧
        d.engine.pin c = d.engine.setConnection c (.reading ⟨d.engine.stamp, d.engine.tables, []⟩) := by
    intro c
    cases hc : d.engine.connection c with
    | begun =>
      exact .inr ⟨Engine.lt_of_inTransaction (by rw [hc]; rfl), nofun, by rw [Engine.pin, hc]⟩
    | _ => exact .inl (by rw [Engine.pin, hc])
  cases place with
  | shared => exact pinned Database.shared
  | inside k => exact pinned (Database.connectionOf k)
  | atomic =>
    have hidle : d.engine.connection Database.shared = .idle := ha
    have hnot : ∀ p, d.engine.connection Database.shared ≠ .reading p := by
      rw [hidle]
      exact fun _ hp => Connection.noConfusion hp
    exact .inr ⟨hd.shared_lt, hnot, Database.pin_enter_atomic hd hidle⟩

theorem intact_enter (h : d.engine.Intact) (place : Place) : (place.enter d).engine.Intact := by
  cases place with
  | atomic => exact Database.intact_command h Database.shared .begin
  | _ => exact h

theorem admits_enter (hd : d.Orderly) (he : d.engine.Intact) (ha : place.Accepts d) :
    ((place.enter d).engine.pin place.connection).Admits place.connection i t given wanted r ↔
      d.engine.Admits place.connection i t given wanted r := by
  obtain heq | ⟨hlt, hnot, heq⟩ := engine_enter hd ha
  · rw [heq]
  · rw [heq]
    exact Engine.admits_begun he hlt hnot

end Place

end QueryGateway.Store
