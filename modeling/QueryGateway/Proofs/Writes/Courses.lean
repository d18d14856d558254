import QueryGateway.Proofs.Store.Rows
import QueryGateway.Proofs.Writes.Batches

namespace QueryGateway
set_option autoImplicit true

open Store Rpc

theorem mapError_ok {r : Except ε α} {f : ε → ε'} (h : r.mapError f = .ok a) : r = .ok a := by
  cases r with
  | ok a' => exact congrArg Except.ok (Except.ok.inj h)
  | error e => exact nomatch h

theorem mapError_error {r : Except ε α} {f : ε → ε'} (h : r.mapError f = .error e') :
    ∃ e, r = .error e ∧ e' = f e := by
  cases r with
  | ok a => exact nomatch h
  | error e => exact ⟨e, rfl, (Except.error.inj h).symm⟩

namespace Store.Work

/-- The operations of a unit of work and how it ends, for some answers. -/
inductive Course {ε α : Type} : Work ε α → List Operation → Outcome ε α → Prop where
  | finish (outcome : Outcome ε α) : Course (.finish outcome) [] outcome
  | perform {op : Operation} {next : Except Fault op.Answer → Work ε α} (answer : Except Fault op.Answer)
      (h : Course (next answer) ops outcome) : Course (.perform op next) (op :: ops) outcome

namespace Course

theorem of_finish (h : Course (.finish o) ops outcome) : ops = [] ∧ outcome = o := by
  cases h
  exact ⟨rfl, rfl⟩

theorem of_ask (h : (ask op).Course ops outcome) : ops = [op] := by
  cases h with
  | perform answer h =>
    cases answer with
    | ok a => rw [(of_finish h).1]
    | error f => rw [(of_finish h).1]

theorem of_bind {w : Work ε α} {f : α → Work ε β} (h : (w >>= f).Course ops outcome) :
    (∃ o, w.Course ops o ∧ ∀ b, outcome ≠ .done b) ∨
    ∃ a first more, w.Course first (.done a) ∧ (f a).Course more outcome ∧ ops = first ++ more := by
  change (w.bind f).Course ops outcome at h
  induction w generalizing ops with
  | finish o =>
    cases o with
    | done a => exact .inr ⟨a, [], ops, .finish _, h, rfl⟩
    | failed e =>
      obtain ⟨rfl, rfl⟩ := of_finish h
      exact .inl ⟨_, .finish _, nofun⟩
    | broken =>
      obtain ⟨rfl, rfl⟩ := of_finish h
      exact .inl ⟨_, .finish _, nofun⟩
  | perform op next ih =>
    cases h with
    | perform answer h =>
      obtain ⟨o, ho, hends⟩ | ⟨a, first, more, hw, hf, rfl⟩ := ih answer h
      · exact .inl ⟨o, .perform answer ho, hends⟩
      · exact .inr ⟨a, op :: first, more, .perform answer hw, hf, rfl⟩

theorem of_mapError {w : Work ε α} {g : ε → ε'} (h : (w.mapError g).Course ops outcome) :
    ∃ o, w.Course ops o ∧ ∀ a, outcome = .done a → o = .done a := by
  induction w generalizing ops with
  | finish o =>
    cases o with
    | done a =>
      obtain ⟨rfl, rfl⟩ := of_finish h
      exact ⟨_, .finish _, fun _ ha => Outcome.done.inj ha ▸ rfl⟩
    | failed e =>
      obtain ⟨rfl, rfl⟩ := of_finish h
      exact ⟨_, .finish _, nofun⟩
    | broken =>
      obtain ⟨rfl, rfl⟩ := of_finish h
      exact ⟨_, .finish _, nofun⟩
  | perform op next ih =>
    cases h with
    | perform answer h =>
      obtain ⟨o, ho, hdone⟩ := ih answer h
      exact ⟨o, .perform answer ho, hdone⟩

theorem of_lift_bind {r : Except ε α} {f : α → Work ε β} (h : ((liftM r : Work ε α) >>= f).Course ops outcome) :
    (∃ e, r = .error e ∧ ops = [] ∧ outcome = .failed e) ∨ ∃ a, r = .ok a ∧ (f a).Course ops outcome := by
  cases r with
  | ok a => exact .inr ⟨a, rfl, h⟩
  | error e =>
    obtain ⟨rfl, rfl⟩ := of_finish h
    exact .inl ⟨e, rfl, rfl, rfl⟩

theorem of_ask_bind {f : op.Answer → Work Fault α} (h : (ask op >>= f).Course ops outcome) :
    (ops = [op] ∧ ∀ a, outcome ≠ .done a) ∨ ∃ answer more, ops = op :: more ∧ (f answer).Course more outcome := by
  obtain ⟨o, hask, hnot⟩ | ⟨answer, first, more, hask, hmore, rfl⟩ := h.of_bind
  · exact .inl ⟨hask.of_ask, hnot⟩
  · cases hask.of_ask
    exact .inr ⟨answer, more, rfl, hmore⟩

theorem not_broken {w : Work ε α} (hw : w.Total) (h : w.Course ops outcome) : outcome ≠ .broken := by
  induction h with
  | finish =>
    cases hw with
    | done => exact nofun
    | failed => exact nofun
  | perform answer _ ih =>
    cases hw with
    | perform _ hnext => exact ih (hnext answer)

end Course

/-- What a database does for a unit of work is one of its courses. -/
theorem course_work (d : Database) (c : Nat) (w : Work ε α) : ∃ ops, w.Course ops (d.work c w).1 ∧
    (d.work c w).2.log = d.log ++ ops.map fun op => (c, .operation op) := by
  induction w generalizing d with
  | finish outcome => exact ⟨[], .finish outcome, (List.append_nil _).symm⟩
  | perform op next ih =>
    obtain ⟨ops, hcourse, hlog⟩ := ih (d.perform c op).1 (d.perform c op).2
    exact ⟨op :: ops, .perform _ hcourse, hlog.trans (List.append_assoc ..)⟩

end Store.Work

namespace Batch

variable {b : Batch} {t : TableInfo}

def BindsRow (t : TableInfo) (b : Batch) (i : Nat) (bs : List Binding) : Prop :=
  i < b.rowCount ∧ List.Forall₂ (fun e β => t.column e.1 = .ok β.column ∧ β.value = e.2.scalarText?) (b.row i) bs

def BindsKey (t : TableInfo) (b : Batch) (ks : List String) (i : Nat) (bs : List Binding) : Prop :=
  List.Forall₂ (fun k β => t.column k = .ok β.column ∧ ∃ v, b.value? k i = some v ∧ β.value = v.scalarText?) ks bs

def AppendsRow (t : TableInfo) (b : Batch) (i : Nat) (op : Operation) : Prop :=
  ∃ bs, b.BindsRow t i bs ∧ op = .insert t bs

/-- A row is looked for by its key, and then it may be appended. -/
def UpsertsRow (t : TableInfo) (b : Batch) (ks : List String) (i : Nat) (ops : List Operation) : Prop :=
  ∃ wanted, b.BindsKey t ks i wanted ∧
    (ops = [.contains t wanted] ∨ ∃ op, b.AppendsRow t i op ∧ ops = [.contains t wanted, op])

theorem map_fst_row (hi : i < b.rowCount) : (b.row i).map Prod.fst = b.columnNames := by
  have hrow := forall₂_rowOf fun c hc => (b.length_eq c hc).symm ▸ hi
  rw [columnNames, ← List.forall₂_eq_eq_eq, List.forall₂_map_left_iff, List.forall₂_map_right_iff]
  exact hrow.flip.imp fun e c h => h.1

theorem forall₂_zipWith {entries : List (String × Json)} {cs : List Column}
    (h : List.Forall₂ (fun n c => t.column n = .ok c) (entries.map Prod.fst) cs) :
    List.Forall₂ (fun e β => t.column e.1 = .ok β.column ∧ β.value = e.2.scalarText?) entries
      (List.zipWith Binding.mk cs (entries.map (·.2.scalarText?))) := by
  induction entries generalizing cs with
  | nil =>
    cases h
    exact .nil
  | cons e entries ih =>
    cases h with
    | cons hc hcs => exact .cons ⟨hc, rfl⟩ (ih hcs)

theorem bindsRow_zipWith {cs : List Column} (hcs : b.columnNames.mapM t.column = .ok cs) (hi : i < b.rowCount) :
    b.BindsRow t i (List.zipWith Binding.mk cs ((b.row i).map (·.2.scalarText?))) := by
  apply And.intro hi
  apply forall₂_zipWith
  rw [map_fst_row hi]
  exact mapM_ok_iff.mp hcs

theorem bindsKey_bind (hkeys : ∀ k ∈ ks, k ∈ b.columnNames) (hi : i < b.rowCount)
    (h : t.bind (Writes.key b ks i) = .ok wanted) : b.BindsKey t ks i wanted := by
  rw [TableInfo.bind_eq_ok_iff, Writes.key, List.forall₂_map_left_iff] at h
  have hall := (List.forall₂_and_left ks wanted).mpr ⟨hkeys, h⟩
  apply hall.imp
  rintro k β ⟨hk, hcolumn, hvalue⟩
  obtain ⟨v, hv⟩ := Option.isSome_iff_exists.mp ((b.isSome_value? k i).mpr ⟨hk, hi⟩)
  rw [hv] at hvalue
  exact ⟨hcolumn, v, hv, hvalue⟩

end Batch

namespace Store.Work

variable {b : Batch} {t : TableInfo}

theorem insertRow_course {cs : List Column} (hcs : b.columnNames.mapM t.column = .ok cs) (hi : i < b.rowCount)
    (h : (insertRow t cs b i).Course ops outcome) : ∃ op, b.AppendsRow t i op ∧ ops = [op] := by
  rw [insertRow_of_lt hi] at h
  exact ⟨_, ⟨_, Batch.bindsRow_zipWith hcs hi, rfl⟩, h.of_ask⟩

/-- Rows that are appended one after another: all of them, or those up to the one that is refused. -/
theorem forM_insertRow_course {cs : List Column} (hcs : b.columnNames.mapM t.column = .ok cs)
    (hi : ∀ i ∈ indices, i < b.rowCount) (h : (indices.forM (insertRow t cs b)).Course ops outcome) :
    ∃ first rest, indices = first ++ rest ∧ List.Forall₂ (b.AppendsRow t) first ops ∧
      ∀ u, outcome = .done u → rest = [] := by
  induction indices generalizing ops with
  | nil =>
    obtain ⟨rfl, rfl⟩ := h.of_finish
    exact ⟨[], [], rfl, .nil, fun _ _ => rfl⟩
  | cons i indices ih =>
    obtain ⟨hlt, hmore⟩ := List.forall_mem_cons.mp hi
    change (insertRow t cs b i >>= fun _ => indices.forM (insertRow t cs b)).Course ops outcome at h
    obtain ⟨o, hrow, hnot⟩ | ⟨_, front, back, hrow, hrest, rfl⟩ := h.of_bind
    · obtain ⟨op, hop, rfl⟩ := insertRow_course hcs hlt hrow
      exact ⟨[i], indices, rfl, .cons hop .nil, fun u hu => absurd hu (hnot u)⟩
    · obtain ⟨op, hop, rfl⟩ := insertRow_course hcs hlt hrow
      obtain ⟨first, rest, rfl, hfirst, hdone⟩ := ih hmore hrest
      exact ⟨i :: first, rest, rfl, .cons hop hfirst, hdone⟩

theorem insertRows_course (hi : ∀ i ∈ indices, i < b.rowCount) (h : (insertRows t b indices).Course ops outcome) :
    ∃ first rest, indices = first ++ rest ∧ List.Forall₂ (b.AppendsRow t) first ops ∧
      ∀ n, outcome = .done n → rest = [] ∧ n = indices.length := by
  obtain ⟨e, -, rfl, rfl⟩ | ⟨cs, hcs, h⟩ := h.of_lift_bind
  · exact ⟨[], indices, rfl, .nil, nofun⟩
  obtain ⟨e, -, rfl, rfl⟩ | ⟨_, -, h⟩ := h.of_lift_bind
  · exact ⟨[], indices, rfl, .nil, nofun⟩
  obtain ⟨o, hrows, hnot⟩ | ⟨u, front, back, hrows, hlast, rfl⟩ := h.of_bind
  · obtain ⟨first, rest, heq, hfirst, -⟩ := forM_insertRow_course hcs hi hrows
    exact ⟨first, rest, heq, hfirst, fun n hn => absurd hn (hnot n)⟩
  · obtain ⟨rfl, rfl⟩ := hlast.of_finish
    obtain ⟨first, rest, heq, hfirst, hdone⟩ := forM_insertRow_course hcs hi hrows
    refine ⟨first, rest, heq, ?_, fun n hn => ⟨hdone u rfl, (Outcome.done.inj hn).symm⟩⟩
    rw [List.append_nil]
    exact hfirst

end Store.Work

namespace Writes

/-- How a batch is appended: not at all if the object is none, else row by row from the first one. -/
inductive Appends (table : String) (object : List (String × Json)) : List Operation → Outcome Failure Nat → Prop where
  | flawed (h : Batch.Flawed object e) : Appends table object [] (.failed (.ofBatchError e))
  | rows (hb : Batch.ofMembers object = .ok b) (hrows : List.Forall₂ (b.AppendsRow t) (List.range m) rows)
      (hends : outcome = .done b.rowCount ∧ m = b.rowCount ∨ m ≤ b.rowCount ∧ ∃ f, outcome = .failed f) :
      Appends table object (.describe table :: rows) outcome

/-- How a batch is upserted: not at all if there is no key in it, else row by row. -/
inductive Upserts (table : String) (object : List (String × Json)) (ks : List String) :
    List Operation → Outcome Failure Upserted → Prop where
  | keyless (h : ks = []) : Upserts table object ks [] (.failed (.invalidParams "key_columns must not be empty"))
  | flawed (h : Batch.Flawed object e) : Upserts table object ks [] (.failed (.ofBatchError e))
  | missing (hb : Batch.ofMembers object = .ok b) (h : b.requireKeys ks = .error e) :
      Upserts table object ks [] (.failed (.ofBatchError e))
  | rows (hb : Batch.ofMembers object = .ok b) (hkeys : ∀ k ∈ ks, k ∈ b.columnNames)
      (hrows : List.Forall₂ (b.UpsertsRow t ks) (List.range m) blocks)
      (hends : (∃ n, outcome = .done n ∧ m = b.rowCount ∧ n.inserted = blocks.flatten.countP Operation.writes ∧
        n.inserted + n.skipped = b.rowCount) ∨ m ≤ b.rowCount ∧ ∃ f, outcome = .failed f) :
      Upserts table object ks (.describe table :: blocks.flatten) outcome

variable {b : Batch} {t : TableInfo}

theorem range_of_append (h : List.range n = first ++ rest) : first = List.range first.length ∧ first.length ≤ n := by
  have hle : first.length ≤ n := by
    rw [← List.length_range (n := n), h, List.length_append]
    exact Nat.le_add_right _ _
  refine ⟨?_, hle⟩
  have htake : (first ++ rest).take first.length = first := List.take_left
  rw [← h, List.take_range, Nat.min_eq_left hle] at htake
  exact htake.symm

theorem done_or_failed {outcome : Outcome ε α} (h : outcome ≠ .broken) :
    (∃ a, outcome = .done a) ∨ ∃ e, outcome = .failed e := by
  cases outcome with
  | done a => exact .inl ⟨a, rfl⟩
  | failed e => exact .inr ⟨e, rfl⟩
  | broken => exact absurd rfl h

theorem insert_course (h : (insert table object).Course ops outcome) : Appends table object ops outcome := by
  have hends := done_or_failed (h.not_broken (insert_total table object))
  obtain ⟨e, he, rfl, rfl⟩ | ⟨b, hb, h⟩ := h.of_lift_bind
  · obtain ⟨e', he', rfl⟩ := mapError_error he
    exact .flawed (Batch.ofMembers_error_iff.mp he')
  have hb := mapError_ok hb
  obtain ⟨o, hwork, hdone⟩ := h.of_mapError
  obtain ⟨rfl, hnot⟩ | ⟨t, rows, rfl, hrows⟩ := hwork.of_ask_bind
  · apply Appends.rows hb (t := ⟨"", table, []⟩) (m := 0) .nil
    obtain ⟨n, hn⟩ | hfailed := hends
    · exact absurd (hdone n hn) (hnot n)
    · exact .inr ⟨Nat.zero_le _, hfailed⟩
  · obtain ⟨first, rest, heq, hfirst, hall⟩ := Work.insertRows_course (fun _ => List.mem_range.mp) hrows
    obtain ⟨hfirst', hle⟩ := range_of_append heq
    apply Appends.rows hb (hfirst' ▸ hfirst)
    obtain ⟨n, hn⟩ | hfailed := hends
    · obtain ⟨rfl, rfl⟩ := hall n (hdone n hn)
      rw [List.append_nil] at heq
      rw [hn, ← heq, List.length_range]
      exact .inl ⟨rfl, rfl⟩
    · exact .inr ⟨hle, hfailed⟩

theorem contains_course {pairs : List (String × Option String)} (h : (Work.contains t pairs).Course ops outcome) :
    (ops = [] ∧ ∀ a, outcome ≠ .done a) ∨ ∃ wanted, t.bind pairs = .ok wanted ∧ ops = [.contains t wanted] := by
  obtain ⟨e, -, rfl, rfl⟩ | ⟨wanted, hwanted, h⟩ := h.of_lift_bind
  · exact .inl ⟨rfl, nofun⟩
  · exact .inr ⟨wanted, hwanted, h.of_ask⟩

theorem insertRow_alone_course (hi : i < b.rowCount) (h : (Work.insertRows t b [i]).Course ops outcome) :
    (ops = [] ∧ ∀ n, outcome ≠ .done n) ∨
    ∃ op, b.AppendsRow t i op ∧ ops = [op] ∧ ∀ n, outcome = .done n → n = 1 := by
  have hone : ∀ j ∈ [i], j < b.rowCount := List.forall_mem_singleton.mpr hi
  obtain ⟨first, rest, heq, hfirst, hdone⟩ := Work.insertRows_course hone h
  cases hfirst with
  | nil =>
    refine .inl ⟨rfl, fun n hn => ?_⟩
    obtain ⟨rfl, -⟩ := hdone n hn
    exact nomatch heq
  | @cons j op first ops hop hmore =>
    obtain ⟨rfl, hrest⟩ := List.cons.inj heq
    obtain ⟨rfl, rfl⟩ := List.append_eq_nil_iff.mp hrest.symm
    cases hmore
    exact .inr ⟨op, hop, rfl, fun n hn => (hdone n hn).2⟩

/-- What an upsert counts for one row is what it has done: the row is appended or skipped. -/
theorem upsertRow_course (hkeys : ∀ k ∈ ks, k ∈ b.columnNames) (hi : i < b.rowCount)
    (h : (upsertRow t b ks done i).Course ops outcome) :
    (ops = [] ∧ ∀ n, outcome ≠ .done n) ∨ b.UpsertsRow t ks i ops ∧ ∀ n, outcome = .done n →
      n.inserted = done.inserted + ops.countP Operation.writes ∧
        n.inserted + n.skipped = done.inserted + done.skipped + 1 := by
  obtain ⟨o, hask, hnot⟩ | ⟨found, first, more, hask, hmore, rfl⟩ := h.of_bind
  · obtain ⟨rfl, -⟩ | ⟨wanted, hwanted, rfl⟩ := contains_course hask
    · exact .inl ⟨rfl, hnot⟩
    · exact .inr ⟨⟨wanted, Batch.bindsKey_bind hkeys hi hwanted, .inl rfl⟩, fun n hn => absurd hn (hnot n)⟩
  obtain ⟨-, hnot⟩ | ⟨wanted, hwanted, rfl⟩ := contains_course hask
  · exact absurd rfl (hnot found)
  have hkey := Batch.bindsKey_bind hkeys hi hwanted
  right
  cases found with
  | true =>
    obtain ⟨rfl, rfl⟩ := hmore.of_finish
    refine ⟨⟨wanted, hkey, .inl rfl⟩, ?_⟩
    rintro _ ⟨⟩
    exact ⟨rfl, rfl⟩
  | false =>
    obtain ⟨o, hrow, hnot⟩ | ⟨m, front, back, hrow, hlast, rfl⟩ := hmore.of_bind
    · obtain ⟨rfl, -⟩ | ⟨op, hop, rfl, -⟩ := insertRow_alone_course hi hrow
      · exact ⟨⟨wanted, hkey, .inl rfl⟩, fun n hn => absurd hn (hnot n)⟩
      · exact ⟨⟨wanted, hkey, .inr ⟨op, hop, rfl⟩⟩, fun n hn => absurd hn (hnot n)⟩
    · obtain ⟨-, hnot⟩ | ⟨op, hop, rfl, hcount⟩ := insertRow_alone_course hi hrow
      · exact absurd rfl (hnot m)
      · obtain ⟨rfl, rfl⟩ := hlast.of_finish
        obtain rfl := hcount m rfl
        refine ⟨⟨wanted, hkey, .inr ⟨op, hop, rfl⟩⟩, ?_⟩
        rintro _ ⟨⟩
        obtain ⟨bs, -, rfl⟩ := hop
        exact ⟨rfl, Nat.add_right_comm _ _ _⟩

theorem upsertRows_course {ks : List String} {indices : List Nat} {done : Upserted} {ops : List Operation}
    {outcome : Outcome Fault Upserted} (hkeys : ∀ k ∈ ks, k ∈ b.columnNames) (hi : ∀ i ∈ indices, i < b.rowCount)
    (h : (indices.foldlM (upsertRow t b ks) done).Course ops outcome) :
    ∃ first rest blocks, indices = first ++ rest ∧ ops = blocks.flatten ∧
      List.Forall₂ (b.UpsertsRow t ks) first blocks ∧ ∀ n, outcome = .done n → rest = [] ∧
        n.inserted = done.inserted + ops.countP Operation.writes ∧
          n.inserted + n.skipped = done.inserted + done.skipped + indices.length := by
  induction indices generalizing done ops with
  | nil =>
    obtain ⟨rfl, rfl⟩ := h.of_finish
    refine ⟨[], [], [], rfl, rfl, .nil, ?_⟩
    rintro _ ⟨⟩
    exact ⟨rfl, rfl, rfl⟩
  | cons i indices ih =>
    obtain ⟨hlt, hmore⟩ := List.forall_mem_cons.mp hi
    rw [List.foldlM_cons] at h
    obtain ⟨o, hrow, hnot⟩ | ⟨next, front, back, hrow, hrest, rfl⟩ := h.of_bind
    · obtain ⟨rfl, -⟩ | ⟨hblock, -⟩ := upsertRow_course hkeys hlt hrow
      · exact ⟨[], i :: indices, [], rfl, rfl, .nil, fun n hn => absurd hn (hnot n)⟩
      · exact ⟨[i], indices, [ops], rfl, (List.append_nil _).symm, .cons hblock .nil,
          fun n hn => absurd hn (hnot n)⟩
    · obtain ⟨-, hnot⟩ | ⟨hblock, hcount⟩ := upsertRow_course hkeys hlt hrow
      · exact absurd rfl (hnot next)
      · obtain ⟨hinserted, hall⟩ := hcount next rfl
        obtain ⟨first, rest, blocks, rfl, rfl, hblocks, hdone⟩ := ih hmore hrest
        refine ⟨i :: first, rest, front :: blocks, rfl, rfl, .cons hblock hblocks, fun n hn => ?_⟩
        obtain ⟨hnil, hn, hsum⟩ := hdone n hn
        refine ⟨hnil, ?_, ?_⟩
        · rw [hn, hinserted, List.countP_append, Nat.add_assoc]
        · rw [hsum, hall, List.length_cons, Nat.add_assoc, Nat.add_comm 1]

theorem upsert_course (h : (upsert table object ks).Course ops outcome) : Upserts table object ks ops outcome := by
  have hends := done_or_failed (h.not_broken (upsert_total table object ks))
  cases hks : ks.isEmpty with
  | true =>
    have hnone : upsert table object ks = Work.fail (.invalidParams "key_columns must not be empty") := by
      rw [upsert, if_pos hks]
      rfl
    rw [hnone] at h
    obtain ⟨rfl, rfl⟩ := h.of_finish
    exact .keyless (List.isEmpty_iff.mp hks)
  | false =>
    rw [upsert, hks] at h
    obtain ⟨e, he, rfl, rfl⟩ | ⟨b, hb, h⟩ := h.of_lift_bind
    · obtain ⟨e', he', rfl⟩ := mapError_error he
      exact .flawed (Batch.ofMembers_error_iff.mp he')
    have hb := mapError_ok hb
    obtain ⟨e, he, rfl, rfl⟩ | ⟨_, hkeys, h⟩ := h.of_lift_bind
    · obtain ⟨e', he', rfl⟩ := mapError_error he
      exact .missing hb he'
    have hkeys := Batch.requireKeys_ok_iff.mp (mapError_ok hkeys)
    obtain ⟨o, hdescribe, hnot⟩ | ⟨t, first, more, hdescribe, hmore, rfl⟩ := h.of_bind
    · obtain ⟨o', hask, -⟩ := hdescribe.of_mapError
      cases hask.of_ask
      obtain ⟨n, hn⟩ | hfailed := hends
      · exact absurd hn (hnot n)
      · have hrows : List.Forall₂ (b.UpsertsRow ⟨"", table, []⟩ ks) (List.range 0) [] := .nil
        exact .rows hb hkeys hrows (.inr ⟨Nat.zero_le _, hfailed⟩)
    · obtain ⟨o', hask, -⟩ := hdescribe.of_mapError
      cases hask.of_ask
      obtain ⟨o, hrows, hdone⟩ := hmore.of_mapError
      obtain ⟨first, rest, blocks, heq, rfl, hblocks, hall⟩ :=
        upsertRows_course hkeys (fun _ => List.mem_range.mp) hrows
      obtain ⟨hfirst, hle⟩ := range_of_append heq
      apply Upserts.rows hb hkeys (hfirst ▸ hblocks)
      obtain ⟨n, hn⟩ | hfailed := hends
      · obtain ⟨rfl, hinserted, hsum⟩ := hall n (hdone n hn)
        rw [List.append_nil] at heq
        rw [List.length_range] at hsum
        refine .inl ⟨n, hn, ?_, hinserted.trans (Nat.zero_add _), hsum.trans (Nat.zero_add _)⟩
        rw [← heq, List.length_range]
      · exact .inr ⟨hle, hfailed⟩

end Writes

/-- A batch is a rectangular table, made from the objects that are one and from no others, and what is written of it is
written row by row, each row whole and in the order of its columns. -/
theorem batch_rectangular (object : List (String × Json)) :
    ((∃ b, Batch.ofMembers object = .ok b) ↔ object ≠ [] ∧ ∃ n, Batch.Rectangular n object) ∧
      (∀ e, Batch.ofMembers object = .error e ↔ Batch.Flawed object e) ∧
      (∀ b, Batch.ofMembers object = .ok b → b.Tabulates object) ∧
      (∀ table ops outcome, (Writes.insert table object).Course ops outcome →
        Writes.Appends table object ops outcome) ∧
      ∀ table ks ops outcome, (Writes.upsert table object ks).Course ops outcome →
        Writes.Upserts table object ks ops outcome :=
  ⟨Batch.ofMembers_ok_iff, fun _ => Batch.ofMembers_error_iff, fun _ => Batch.ofMembers_tabulates,
    fun _ _ _ => Writes.insert_course, fun _ _ _ _ => Writes.upsert_course⟩

/-- Two rows, of which the second lacks a value, on their way into a table. -/
theorem batch_rectangular_rows :
    ∃ (object : List (String × Json)) (b : Batch) (d : Database) (ops : List Operation),
      Batch.ofMembers object = .ok b ∧ b.Tabulates object ∧
        b.rows = [[("id", .int 1), ("name", .string "a")], [("id", .int 2), ("name", .null)]] ∧
        (d.work 0 (Writes.insert "t" object)).1 = .done 2 ∧ Writes.Appends "t" object ops (.done 2) ∧
        (d.work 0 (Writes.insert "t" object)).2.log = ops.map fun op => (0, .operation op) := by
  let object : List (String × Json) := [("id", .array [.int 1, .int 2]), ("name", .array [.string "a", .null])]
  let d := Database.ofTables none "main"
    [⟨⟨"main", "t", [⟨"id", .integer .regular, false, false⟩, ⟨"name", .text, false, false⟩]⟩, []⟩]
  have hdone : (d.work 0 (Writes.insert "t" object)).1 = .done 2 := by decide +kernel
  obtain ⟨-, -, htable, hinsert, -⟩ := batch_rectangular object
  obtain ⟨ops, hcourse, hlog⟩ := Work.course_work d 0 (Writes.insert "t" object)
  rw [hdone] at hcourse
  exact ⟨object, _, d, ops, rfl, htable _ rfl, rfl, hdone, hinsert _ _ _ hcourse, hlog⟩

end QueryGateway
