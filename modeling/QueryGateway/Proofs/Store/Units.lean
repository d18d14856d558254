import QueryGateway.Gateway

namespace QueryGateway.Store
set_option autoImplicit true

def Operation.writes : Operation → Bool
  | .insert .. => true
  | .update .. => true
  | _ => false

namespace Work

/-- Work that ends with a result or a failure, whatever it is answered, and whose operations all satisfy `P`. -/
inductive Confined {ε α : Type} (P : Operation → Prop) : Work ε α → Prop where
  | done (a : α) : Confined P (.finish (.done a))
  | failed (e : ε) : Confined P (.finish (.failed e))
  | perform {op : Operation} {next : Except Fault op.Answer → Work ε α} (hop : P op)
      (h : ∀ answer, Confined P (next answer)) : Confined P (.perform op next)

abbrev Total (w : Work ε α) : Prop := w.Confined fun _ => True

abbrev ReadOnly (w : Work ε α) : Prop := w.Confined fun op => op.writes = false

namespace Confined

variable {P : Operation → Prop}

theorem ret (a : α) : Confined P (pure a : Work ε α) :=
  .done a

theorem bind {w : Work ε α} {f : α → Work ε β} (hw : w.Confined P) (hf : ∀ a, (f a).Confined P) :
    (w >>= f).Confined P := by
  induction hw with
  | done a => exact hf a
  | failed e => exact .failed e
  | perform hop _ ih => exact .perform hop ih

theorem mapError {w : Work ε α} (hw : w.Confined P) (f : ε → ε') : (w.mapError f).Confined P := by
  induction hw with
  | done a => exact .done a
  | failed e => exact .failed (f e)
  | perform hop _ ih => exact .perform hop ih

theorem mono {w : Work ε α} (hw : w.Confined P) (hPQ : ∀ op, P op → Q op) : w.Confined Q := by
  induction hw with
  | done a => exact .done a
  | failed e => exact .failed e
  | perform hop _ ih => exact .perform (hPQ _ hop) ih

theorem ask (hop : P op) : (Work.ask op).Confined P := by
  refine .perform hop fun answer => ?_
  cases answer with
  | ok a => exact .done a
  | error f => exact .failed f

theorem lift (r : Except ε α) : Confined P (liftM r : Work ε α) := by
  cases r with
  | ok a => exact .done a
  | error e => exact .failed e

theorem ite [Decidable c] {w w' : Work ε α} (hw : w.Confined P) (hw' : w'.Confined P) :
    (if c then w else w').Confined P := by
  split
  · exact hw
  · exact hw'

theorem forM {f : β → Work ε PUnit} {xs : List β} (hf : ∀ x ∈ xs, (f x).Confined P) : (xs.forM f).Confined P := by
  induction xs with
  | nil => exact .done _
  | cons x xs ih =>
    exact (hf x (by simp)).bind fun _ => ih fun y hy => hf y (List.mem_cons_of_mem x hy)

theorem foldlM {f : α → β → Work ε α} {xs : List β} (hf : ∀ a, ∀ x ∈ xs, (f a x).Confined P) (a : α) :
    (xs.foldlM f a).Confined P := by
  induction xs generalizing a with
  | nil => exact .done _
  | cons x xs ih =>
    exact (hf a x (by simp)).bind fun a => ih (fun b y hy => hf b y (List.mem_cons_of_mem x hy)) a

end Confined

theorem describe_readOnly (table : String) : (describe table).ReadOnly :=
  .ask rfl

theorem warn_readOnly (w : Warning) : (warn w).ReadOnly :=
  .ask rfl

theorem select_readOnly (t : TableInfo) (s : Select String) : (select t s).ReadOnly :=
  .bind (.lift _) fun _ => .ask rfl

theorem contains_readOnly (t : TableInfo) (pairs : List (String × Option String)) : (contains t pairs).ReadOnly :=
  .bind (.lift _) fun _ => .ask rfl

theorem insertRow_total (t : TableInfo) (columns : List Column) {b : Batch} (hi : i < b.rowCount) :
    (insertRow t columns b i).Total := by
  rw [insertRow_of_lt hi]
  exact .ask trivial

theorem insertRows_total (t : TableInfo) {b : Batch} (h : ∀ i ∈ indices, i < b.rowCount) :
    (insertRows t b indices).Total :=
  .bind (.lift _) fun columns => .bind (.lift _) fun _ =>
    .bind (.forM fun i hi => insertRow_total t columns (h i hi)) fun _ => .ret _

theorem update_total (t : TableInfo) (assignments wanted : List (String × Option String)) :
    (update t assignments wanted).Total :=
  .bind (.lift _) fun _ => .bind (.lift _) fun _ => .bind (.lift _) fun _ => .bind (.lift _) fun _ => .ask trivial

end Work

end QueryGateway.Store

namespace QueryGateway
set_option autoImplicit true

open Store Rpc

namespace Execution

theorem pushDown_readOnly (r : Request) : (pushDown r).ReadOnly :=
  .bind (Work.describe_readOnly _) fun t => Work.select_readOnly t _

theorem ranked_readOnly (x : Execution) (r : Request) (v : VectorOrdering) : (x.ranked r v).ReadOnly := by
  refine .bind (Work.describe_readOnly _) fun t => .bind (.lift _) fun column =>
    .bind (Work.select_readOnly t _) fun rows => ?_
  exact .ite (.bind (Work.warn_readOnly _) fun _ => .ret _) (.ret _)

theorem execute_readOnly (x : Execution) (r : Request) : (x.execute r).ReadOnly := by
  unfold execute
  split
  · split
    · exact pushDown_readOnly r
    · exact x.ranked_readOnly r _
  · exact pushDown_readOnly r

theorem executeText_readOnly (x : Execution) (text : String) (args : List String) :
    (x.executeText text args).ReadOnly :=
  .bind (.lift _) fun t =>
    .bind ((Work.Confined.forM fun _ _ => Work.warn_readOnly _).mapError _) fun _ =>
      (x.execute_readOnly t.request).mapError _

end Execution

namespace Writes

theorem insert_total (table : String) (data : List (String × Json)) : (insert table data).Total :=
  .bind (.lift _) fun _ =>
    (Work.Confined.bind ((Work.describe_readOnly table).mono fun _ _ => trivial) fun t =>
      Work.insertRows_total t fun _ hi => List.mem_range.mp hi).mapError _

theorem upsertRow_total (t : TableInfo) {b : Batch} (keyColumns : List String) (done : Upserted)
    (hi : i < b.rowCount) : (upsertRow t b keyColumns done i).Total := by
  refine .bind ((Work.contains_readOnly t _).mono fun _ _ => trivial) fun found => ?_
  cases found with
  | true => exact .ret _
  | false =>
    refine .bind (Work.insertRows_total t fun j hj => ?_) fun _ => .ret _
    rw [List.mem_singleton.mp hj]
    exact hi

theorem upsert_total (table : String) (data : List (String × Json)) (keyColumns : List String) :
    (upsert table data keyColumns).Total := by
  have rest : Work.Total (ε := Failure) (do
      let b ← (Batch.ofMembers data).mapError Rpc.Failure.ofBatchError
      (b.requireKeys keyColumns).mapError Rpc.Failure.ofBatchError
      let t ← (Work.describe table).mapError Rpc.Failure.ofFault
      ((List.range b.rowCount).foldlM (upsertRow t b keyColumns) ⟨0, 0⟩).mapError Rpc.Failure.ofFault) :=
    .bind (.lift _) fun b => .bind (.lift _) fun _ =>
      .bind (((Work.describe_readOnly table).mono fun _ _ => trivial).mapError _) fun t =>
        (Work.Confined.foldlM (fun done i hi => upsertRow_total t keyColumns done (List.mem_range.mp hi)) _).mapError _
  exact .ite (.bind (.failed _) fun _ => rest) rest

theorem update_total (table : String) (values wanted : List (String × Json)) : (update table values wanted).Total := by
  have rest : Work.Total
      ((do Work.update (← Work.describe table) (texts values) (texts wanted) : Work Fault Nat).mapError
        Rpc.Failure.ofFault) :=
    (Work.Confined.bind ((Work.describe_readOnly table).mono fun _ _ => trivial) fun t =>
      Work.update_total t _ _).mapError _
  refine .ite (.bind (.failed _) fun _ => ?_) ?_
  · exact .ite (.bind (.failed _) fun _ => rest) rest
  · exact .ite (.bind (.failed _) fun _ => rest) rest

end Writes

namespace Gateway

theorem work_readOnly (x : Execution) (h : isWrite a = false) : (work x a).ReadOnly := by
  cases a with
  | query sql args => exact .bind (x.executeText_readOnly sql args) fun _ => .ret _
  | selectById table column value =>
    exact .bind (.mapError (.bind (Work.describe_readOnly table) fun t =>
      .bind (Work.select_readOnly t _) fun _ => .ret _) _) fun _ => .ret _
  | insert => cases h
  | upsert => cases h
  | update => cases h

/-- No action breaks down. -/
theorem work_total (x : Execution) (a : Action) : (work x a).Total := by
  cases h : isWrite a with
  | false => exact (work_readOnly x h).mono fun _ _ => trivial
  | true =>
    cases a with
    | query => cases h
    | selectById => cases h
    | insert table data => exact .bind (Writes.insert_total table data) fun _ => .ret _
    | upsert table data keyColumns => exact .bind (Writes.upsert_total table data keyColumns) fun _ => .ret _
    | update table values wanted => exact .bind (Writes.update_total table values wanted) fun _ => .ret _

end Gateway

end QueryGateway
