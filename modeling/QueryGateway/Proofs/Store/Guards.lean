import Mathlib
import QueryGateway.Proofs.Store.Keys
import QueryGateway.Proofs.Traversal

namespace QueryGateway.Store
set_option autoImplicit true

/-- Values that the last check found in no row of a table. -/
abbrev Absent := Option (TableInfo × List Binding)

/-- Work that appends a row only where the operation before has found that no row has its key. -/
inductive Guarded (key : List String) (infos : List TableInfo) {ε α : Type} : Absent → Work ε α → Prop where
  | finish (outcome : Outcome ε α) : Guarded key infos absent (.finish outcome)
  | reads {op : Operation} {next : Except Fault op.Answer → Work ε α} (hop : op.writes = false)
      (h : ∀ answer, Guarded key infos none (next answer)) : Guarded key infos absent (.perform op next)
  | describe {next : Except Fault TableInfo → Work ε α}
      (h : ∀ answer, (∀ t, answer = .ok t → Named infos t) → Guarded key infos none (next answer)) :
      Guarded key infos absent (.perform (.describe table) next)
  | contains {next : Except Fault Bool → Work ε α} (hno : Guarded key infos (some (t, wanted)) (next (.ok false)))
      (h : ∀ answer, answer ≠ .ok false → Guarded key infos none (next answer)) :
      Guarded key infos absent (.perform (.contains t wanted) next)
  | insert {next : Except Fault Unit → Work ε α} (ht : Named infos t) (hc : Covers key t wanted bs)
      (h : ∀ answer, Guarded key infos none (next answer)) :
      Guarded key infos (some (t, wanted)) (.perform (.insert t bs) next)

namespace Guarded

variable {key : List String} {infos : List TableInfo} {absent : Absent}

theorem weaken {w : Work ε α} (h : Guarded key infos none w) : Guarded key infos absent w := by
  cases h with
  | finish outcome => exact .finish outcome
  | reads hop h => exact .reads hop h
  | describe h => exact .describe h
  | contains hno h => exact .contains hno h

theorem bind {w : Work ε α} {f : α → Work ε β} (hw : Guarded key infos absent w)
    (hf : ∀ a, Guarded key infos none (f a)) : Guarded key infos absent (w >>= f) := by
  induction hw with
  | finish outcome =>
    cases outcome with
    | done a => exact (hf a).weaken
    | failed e => exact .finish (.failed e)
    | broken => exact .finish .broken
  | reads hop _ ih => exact .reads hop fun answer => ih answer
  | describe _ ih => exact .describe fun answer ha => ih answer ha
  | contains _ _ ihno ih => exact .contains ihno fun answer ha => ih answer ha
  | insert ht hc _ ih => exact .insert ht hc fun answer => ih answer

theorem mapError {w : Work ε α} (hw : Guarded key infos absent w) (f : ε → ε') :
    Guarded key infos absent (w.mapError f) := by
  induction hw with
  | finish outcome =>
    cases outcome with
    | done a => exact .finish (.done a)
    | failed e => exact .finish (.failed (f e))
    | broken => exact .finish .broken
  | reads hop _ ih => exact .reads hop fun answer => ih answer
  | describe _ ih => exact .describe fun answer ha => ih answer ha
  | contains _ _ ihno ih => exact .contains ihno fun answer ha => ih answer ha
  | insert ht hc _ ih => exact .insert ht hc fun answer => ih answer

theorem lift_bind {r : Except ε α} {f : α → Work ε β} (h : ∀ a, r = .ok a → Guarded key infos absent (f a)) :
    Guarded key infos absent ((liftM r : Work ε α) >>= f) := by
  cases r with
  | ok a => exact h a rfl
  | error e => exact .finish (.failed e)

theorem foldlM {f : α → β → Work ε α} {xs : List β} (hf : ∀ a, ∀ x ∈ xs, Guarded key infos none (f a x)) (a : α) :
    Guarded key infos none (xs.foldlM f a) := by
  induction xs generalizing a with
  | nil => exact .finish _
  | cons x xs ih =>
    exact (hf a x List.mem_cons_self).bind fun a => ih (fun b y hy => hf b y (List.mem_cons_of_mem x hy)) a

theorem of_readOnly {w : Work ε α} (h : w.ReadOnly) : Guarded key infos none w := by
  induction h with
  | done a => exact .finish _
  | failed e => exact .finish _
  | perform hop _ ih => exact .reads hop ih

end Guarded

namespace Connection

/-- A connection that has only appended rows with new keys, to these tables. -/
def Keyed (key : List String) (infos : List TableInfo) (c : Connection) : Prop :=
  ∀ p, c = .reading p → p.base.map (·.info) = infos ∧ p.Fresh key

def Lacks (c : Connection) : Absent → Prop
  | none => True
  | some (t, wanted) => ∃ p i u, c = .reading p ∧ Engine.findTable? p.view t.schema t.name = some (i, u) ∧
      Binding.applyAll u.info wanted u.records = .ok []

theorem Lacks.congr {c c' : Connection} {absent : Absent} (h : c.Lacks absent)
    (hc : ∀ p, c = .reading p → c' = .reading p) : c'.Lacks absent := by
  cases absent with
  | none => trivial
  | some found =>
    obtain ⟨p, i, u, hp, hfind⟩ := h
    exact ⟨p, i, u, hc p hp, hfind⟩

end Connection

theorem Engine.pin_keyed {e : Engine} (hin : (e.connection c).inTransaction = true)
    (he : e.tables.map (·.info) = infos) (hc : (e.connection c).Keyed key infos) :
    ∃ p, (e.pin c).connection c = .reading p ∧ p.base.map (·.info) = infos ∧ p.Fresh key := by
  cases hconn : e.connection c with
  | idle =>
    rw [hconn] at hin
    exact nomatch hin
  | begun =>
    refine ⟨⟨e.stamp, e.tables, []⟩, ?_, he, .nil key _ _⟩
    have hpin : e.pin c = e.setConnection c (.reading ⟨e.stamp, e.tables, []⟩) := by rw [pin, hconn]
    rw [hpin]
    exact connection_setConnection_self e _ (lt_of_inTransaction hin)
  | reading p =>
    have hpin : e.pin c = e := by rw [pin, hconn]
    rw [hpin]
    exact ⟨p, hconn, hc p hconn⟩

theorem Engine.contains_false {e : Engine} (h : e.contains c t wanted = .ok false) :
    ∃ i u, findTable? (e.view c) t.schema t.name = some (i, u) ∧ Binding.applyAll u.info wanted u.records = .ok [] := by
  unfold contains at h
  cases hfind : findTable? (e.view c) t.schema t.name with
  | none =>
    rw [hfind] at h
    exact nomatch h
  | some found =>
    obtain ⟨i, u⟩ := found
    rw [hfind] at h
    cases hall : Binding.applyAll u.info wanted u.records with
    | error f =>
      simp only [hall] at h
      exact nomatch h
    | ok rs =>
      simp only [hall] at h
      have hempty : (!rs.isEmpty) = false := Except.ok.inj h
      have hrs : rs = [] := List.isEmpty_iff.mp (by simpa using hempty)
      exact ⟨i, u, rfl, hrs ▸ hall⟩

namespace Database

/-- One operation of guarded work, in a transaction: the rest is guarded by what is known after it. -/
theorem perform_guarded {d : Database} {op : Operation} {next : Except Fault op.Answer → Work ε α}
    (hin : (d.engine.connection c).inTransaction = true) (he : d.engine.tables.map (·.info) = infos)
    (hc : (d.engine.connection c).Keyed key infos) (hw : Guarded key infos absent (.perform op next))
    (hk : (d.engine.connection c).Lacks absent) :
    ((d.perform c op).2.engine.connection c).Keyed key infos ∧
      ∃ absent', Guarded key infos absent' (next (d.perform c op).1) ∧
        ((d.perform c op).2.engine.connection c).Lacks absent' := by
  obtain ⟨p, hp, hinfos, hfresh⟩ := Engine.pin_keyed hin he hc
  have hkeyed : ((d.engine.pin c).connection c).Keyed key infos := by
    rintro p' hp'
    cases hp.symm.trans hp'
    exact ⟨hinfos, hfresh⟩
  have hview : (d.engine.pin c).view c = p.view := by rw [Engine.view, hp]
  cases hw with
  | reads hop h =>
    have hengine : (d.perform c op).2.engine = d.engine.pin c ∨ (d.perform c op).2.engine = d.engine := by
      cases op with
      | insert => cases hop
      | update => cases hop
      | warn => exact .inr rfl
      | _ => exact .inl rfl
    refine ⟨?_, none, h _, trivial⟩
    rcases hengine with heq | heq
    · rw [heq]
      exact hkeyed
    · rw [heq]
      exact hc
  | describe h =>
    refine ⟨hkeyed, none, h _ fun t ht => ?_, trivial⟩
    have hdescribe : Engine.describe ((d.engine.pin c).view c) d.schema _ = .ok t := ht
    have hnamed := Engine.describe_named hdescribe
    rwa [hview, p.map_info_view, hinfos] at hnamed
  | @contains t wanted _ next hno h =>
    by_cases hanswer : (d.perform c (.contains t wanted)).1 = .ok false
    · refine ⟨hkeyed, some (t, wanted), hanswer ▸ hno, ?_⟩
      obtain ⟨i, u, hfind, habsent⟩ := Engine.contains_false hanswer
      exact ⟨p, i, u, hp, hview ▸ hfind, habsent⟩
    · exact ⟨hkeyed, none, h _ hanswer, trivial⟩
  | @insert t wanted bs next ht hcovers h =>
    refine ⟨?_, none, h _, trivial⟩
    obtain ⟨q, i, u, hq, hfind, habsent⟩ := hk
    have hpin : d.engine.pin c = d.engine := by rw [Engine.pin, hq]
    rw [hpin, hq] at hp
    cases hp
    have hengine : (d.perform c (.insert t bs)).2.engine = (answer d.schema d.engine c (.insert t bs)).2 := by
      rw [← hpin]
      rfl
    rw [hengine]
    cases hinsert : d.engine.insert c t bs with
    | error f =>
      simp only [answer, hinsert]
      exact hc
    | ok e' =>
      simp only [answer, hinsert]
      obtain ⟨p', hp', hbase, hfresh'⟩ := Engine.insert_fresh hq hfresh (hinfos ▸ ht) hfind habsent hcovers hinsert
      intro q' hq'
      cases hp'.symm.trans hq'
      exact ⟨hbase ▸ hinfos, hfresh'⟩

end Database

namespace Binding

theorem nodup_of_checkDistinct {columns : List Column} (h : checkDistinct t (columns.map (⟨·, none⟩)) = .ok ()) :
    columns.Nodup := by
  refine List.Nodup.of_map (·.name) (List.nodup_iff_count_le_one.mpr fun name => ?_)
  by_cases hm : name ∈ columns.map (·.name)
  · obtain ⟨c, hc, rfl⟩ := List.mem_map.mp hm
    unfold checkDistinct at h
    split at h
    · exact nomatch h
    · next hnone =>
      have hle := List.find?_eq_none.mp hnone ⟨c, none⟩ (List.mem_map.mpr ⟨c, hc, rfl⟩)
      rw [List.count_eq_countP, List.countP_map]
      rw [List.countP_map] at hle
      exact Nat.not_lt.mp fun hlt => hle (decide_eq_true hlt)
  · rw [List.count_eq_zero.mpr hm]
    exact Nat.zero_le 1

/-- The value that a row of a batch has for a column. -/
def OfRow (t : TableInfo) (i : Nat) (given : String × List Json) (b : Binding) : Prop :=
  t.column given.1 = .ok b.column ∧ b.value = given.2[i]?.bind Json.scalarText?

theorem row_cons (values : List Json) (given : List (String × List Json)) (name : String) (hi : i < values.length) :
    ((name, values) :: given).filterMap (fun (name, values) => values[i]?.map (name, ·)) =
      (name, values[i]) :: given.filterMap fun (name, values) => values[i]?.map (name, ·) := by
  rw [List.filterMap_cons]
  simp only [List.getElem?_eq_getElem hi, Option.map_some]

theorem forall₂_ofRow {given : List (String × List Json)} (hi : ∀ g ∈ given, i < g.2.length)
    (h : List.Forall₂ (fun n c => t.column n = .ok c) (given.map (·.1)) columns) :
    List.Forall₂ (OfRow t i) given (List.zipWith Binding.mk columns
      ((given.filterMap fun (name, values) => values[i]?.map (name, ·)).map (·.2.scalarText?))) := by
  induction given generalizing columns with
  | nil =>
    cases h
    exact .nil
  | cons g given ih =>
    obtain ⟨name, values⟩ := g
    cases h with
    | cons hc hrest =>
      obtain ⟨hlt, hlts⟩ := List.forall_mem_cons.mp hi
      have hvalue : values[i]? = some values[i] := List.getElem?_eq_getElem hlt
      rw [row_cons values given name hlt]
      exact .cons ⟨hc, congrArg (Option.bind · Json.scalarText?) hvalue.symm⟩ (ih hlts hrest)

theorem map_column_zipWith (columns : List Column) (texts : List (Option String)) :
    ((List.zipWith Binding.mk columns texts).map (·.column)).Sublist columns := by
  induction columns generalizing texts with
  | nil => exact List.Sublist.refl _
  | cons c columns ih =>
    cases texts with
    | nil => exact List.nil_sublist _
    | cons text texts => exact (ih texts).cons_cons c

end Binding

end QueryGateway.Store

namespace QueryGateway.Writes
set_option autoImplicit true

open Store

theorem mem_of_requireKeys {b : Batch} (h : b.requireKeys ks = .ok ()) (hk : k ∈ ks) :
    ∃ values, b.columns.lookup k = some values ∧ (k, values) ∈ b.columns := by
  unfold Batch.requireKeys at h
  split at h
  · exact nomatch h
  · next hnone =>
    have hhas : b.hasColumn k = true := by simpa using List.find?_eq_none.mp hnone k hk
    obtain ⟨g, hg, hname⟩ := List.any_eq_true.mp hhas
    cases hl : b.columns.lookup k with
    | none => exact absurd (beq_iff_eq.mp hname).symm (by simpa using List.lookup_eq_none_iff.mp hl g hg)
    | some values =>
      obtain ⟨front, back, heq, -⟩ := List.lookup_eq_some_iff.mp hl
      exact ⟨values, rfl, heq ▸ List.mem_append_right _ List.mem_cons_self⟩

theorem covers_row {b : Batch} (hreq : b.requireKeys ks = .ok ()) (hks : ∀ k ∈ ks, k ∈ columns) (hi : i < b.rowCount)
    (hwanted : t.bind (key b ks i) = .ok wanted) (hcs : b.columnNames.mapM t.column = .ok cs)
    (hdistinct : Binding.checkDistinct t (cs.map (⟨·, none⟩)) = .ok ()) :
    Covers columns t wanted (List.zipWith Binding.mk cs ((b.row i).map (·.2.scalarText?))) := by
  have hrow := Binding.forall₂_ofRow (t := t) (fun g hg => (b.length_eq g hg).symm ▸ hi) (mapM_ok_iff.mp hcs)
  have found : ∀ w ∈ wanted, ∃ k ∈ ks, t.column k = .ok w.column ∧ w.value = (b.value? k i).bind Json.scalarText? := by
    intro w hw
    obtain ⟨pair, hpair, hfound⟩ := exists_of_mem_left (List.Forall₂.flip (mapM_ok_iff.mp hwanted)) hw
    obtain ⟨k, hk, rfl⟩ := List.mem_map.mp hpair
    cases hc : t.column k with
    | error f =>
      simp only [hc] at hfound
      exact nomatch hfound
    | ok c =>
      simp only [hc] at hfound
      cases Except.ok.inj hfound
      exact ⟨k, hk, hc, rfl⟩
  refine ⟨fun w hw => ?_, fun w hw => ?_, ?_⟩
  · obtain ⟨k, hk, hcolumn, hvalue⟩ := found w hw
    obtain ⟨values, hlookup, hmem⟩ := mem_of_requireKeys hreq hk
    obtain ⟨w', hw', hcolumn', hvalue'⟩ := exists_of_mem_left hrow hmem
    have hsame : w.column = w'.column := Except.ok.inj (hcolumn.symm.trans hcolumn')
    have hgiven : b.value? k i = values[i]? := by
      rw [Batch.value?, hlookup]
      rfl
    have hsamevalue : w.value = w'.value := by rw [hvalue, hgiven, hvalue']
    obtain ⟨c, v⟩ := w
    obtain ⟨c', v'⟩ := w'
    cases hsame
    cases hsamevalue
    exact hw'
  · obtain ⟨k, hk, hcolumn, -⟩ := found w hw
    exact ⟨k, hks k hk, hcolumn⟩
  · exact (Binding.nodup_of_checkDistinct hdistinct).sublist (Binding.map_column_zipWith _ _)

theorem insertRows_guarded {b : Batch} (ht : Named infos t) (hks : ∀ k ∈ ks, k ∈ columns)
    (hreq : b.requireKeys ks = .ok ()) (hi : i < b.rowCount) (hwanted : t.bind (key b ks i) = .ok wanted) :
    Guarded columns infos (some (t, wanted)) (Work.insertRows t b [i]) := by
  refine .lift_bind fun cs hcs => .lift_bind fun _ hdistinct => ?_
  have hcovers := covers_row hreq hks hi hwanted hcs hdistinct
  have hrow : Guarded columns infos (some (t, wanted)) (Work.insertRow t cs b i) := by
    rw [Work.insertRow_of_lt hi]
    refine .insert ht hcovers fun answer => ?_
    cases answer with
    | ok u => exact .finish _
    | error f => exact .finish _
  exact .bind (.bind hrow fun _ => .finish _) fun _ => .finish _

/-- A row is appended only where the check just before has found none with its key. -/
theorem upsertRow_guarded {b : Batch} (ht : Named infos t) (hks : ∀ k ∈ ks, k ∈ columns)
    (hreq : b.requireKeys ks = .ok ()) (hi : i < b.rowCount) (done : Upserted) :
    Guarded columns infos none (upsertRow t b ks done i) := by
  unfold upsertRow Work.contains
  cases hwanted : t.bind (key b ks i) with
  | error f => exact .finish _
  | ok wanted =>
    refine .contains ?_ fun answer ha => ?_
    · exact (insertRows_guarded ht hks hreq hi hwanted).bind fun _ => .finish _
    · cases answer with
      | error f => exact .finish _
      | ok found =>
        cases found with
        | true => exact .finish _
        | false => exact absurd rfl ha

theorem upsert_guarded (table : String) (data : List (String × Json)) (hks : ∀ k ∈ ks, k ∈ columns) :
    Guarded columns infos none (upsert table data ks) := by
  have rest : Guarded (ε := Rpc.Failure) columns infos none (do
      let b ← (Batch.ofMembers data).mapError Rpc.Failure.ofBatchError
      (b.requireKeys ks).mapError Rpc.Failure.ofBatchError
      let t ← (Work.describe table).mapError Rpc.Failure.ofFault
      ((List.range b.rowCount).foldlM (upsertRow t b ks) ⟨0, 0⟩).mapError Rpc.Failure.ofFault) := by
    refine .lift_bind fun b _ => .lift_bind fun _ hkeys => .describe fun answer hanswer => ?_
    have hreq : b.requireKeys ks = .ok () := by
      cases hr : b.requireKeys ks with
      | ok u => rfl
      | error e =>
        rw [hr] at hkeys
        exact nomatch hkeys
    cases answer with
    | error f => exact .finish _
    | ok t =>
      have hrows : Guarded columns infos none ((List.range b.rowCount).foldlM (upsertRow t b ks) ⟨0, 0⟩) :=
        .foldlM (fun done i hi => upsertRow_guarded (hanswer t rfl) hks hreq (List.mem_range.mp hi) done) _
      exact hrows.mapError _
  unfold upsert
  split
  · exact .finish _
  · exact rest

end QueryGateway.Writes
