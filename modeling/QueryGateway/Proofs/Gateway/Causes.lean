import QueryGateway.Proofs.Gateway.Backends

namespace QueryGateway
set_option autoImplicit true

open Rpc Store Transactions

/-- Work that ends with the fault that an operation is answered with. Its own failures all satisfy `P`, and it does not
break down by itself. -/
inductive Store.Work.Heeding (ofFault : Fault → ε) (P : ε → Prop) : Work ε α → Prop where
  | done (a : α) : Heeding ofFault P (.finish (.done a))
  | failed (h : P e) : Heeding ofFault P (.finish (.failed e))
  | perform {op : Operation} {next : Except Fault op.Answer → Work ε α}
      (hok : ∀ a, Heeding ofFault P (next (.ok a))) (hfault : ∀ f, next (.error f) = .finish (.failed (ofFault f))) :
      Heeding ofFault P (.perform op next)

namespace Store.Work.Heeding

variable {ofFault : Fault → ε} {P : ε → Prop}

theorem ret (a : α) : Heeding ofFault P (pure a : Work ε α) :=
  .done a

theorem bind {w : Work ε α} {f : α → Work ε β} (hw : w.Heeding ofFault P) (hf : ∀ a, (f a).Heeding ofFault P) :
    (w >>= f).Heeding ofFault P := by
  induction hw with
  | done a => exact hf a
  | failed h => exact .failed h
  | @perform op next _ hfault ih =>
    refine .perform ih fun fault => ?_
    rw [hfault]
    rfl

theorem mapError {w : Work ε α} (hw : w.Heeding ofFault P) {g : ε → ε'} {Q : ε' → Prop} (hg : ∀ e, P e → Q (g e)) :
    (w.mapError g).Heeding (fun f => g (ofFault f)) Q := by
  induction hw with
  | done a => exact .done a
  | failed h => exact .failed (hg _ h)
  | @perform op next _ hfault ih =>
    refine .perform ih fun fault => ?_
    rw [hfault]
    rfl

theorem ask {P : Fault → Prop} (op : Operation) : (Work.ask op).Heeding id P :=
  .perform .done fun _ => rfl

theorem lift {r : Except ε α} (h : ∀ e, r = .error e → P e) : Heeding ofFault P (liftM r : Work ε α) := by
  cases r with
  | ok a => exact .done a
  | error e => exact .failed (h e rfl)

theorem ite [Decidable c] {w w' : Work ε α} (hw : w.Heeding ofFault P) (hw' : w'.Heeding ofFault P) :
    (if c then w else w').Heeding ofFault P := by
  split
  · exact hw
  · exact hw'

theorem forM {f : β → Work ε PUnit} {xs : List β} (hf : ∀ x ∈ xs, (f x).Heeding ofFault P) :
    (xs.forM f).Heeding ofFault P := by
  induction xs with
  | nil => exact .done _
  | cons x xs ih => exact (hf x (by simp)).bind fun _ => ih fun y hy => hf y (List.mem_cons_of_mem x hy)

theorem foldlM {f : α → β → Work ε α} {xs : List β} (hf : ∀ a, ∀ x ∈ xs, (f a x).Heeding ofFault P) (a : α) :
    (xs.foldlM f a).Heeding ofFault P := by
  induction xs generalizing a with
  | nil => exact .done _
  | cons x xs ih => exact (hf a x (by simp)).bind fun a => ih (fun b y hy => hf b y (List.mem_cons_of_mem x hy)) a

end Store.Work.Heeding

namespace Rpc

/-- Why a call fails. -/
inductive Cause where
  | unknownMethod (method : String)
  | refused (message : String)
  | query (e : Sql.QueryError)
  | batch (e : BatchError)
  | unknownHandle (handle : String)
  | fault (f : Fault)
  | breakdown (method : Method) (text : String)

namespace Cause

def failure : Cause → Failure
  | unknownMethod method => .methodNotFound method
  | refused message => .invalidParams message
  | query e => .ofQueryError e
  | batch e => .ofBatchError e
  | unknownHandle handle => .ofTransactionError (.notFound handle)
  | fault f => .ofFault f
  | breakdown method text => Trouble.failure method (.broken text)

def message : Cause → String
  | unknownMethod method => "Method not found: " ++ method
  | refused message => message
  | query e => e.message
  | batch e => e.message
  | unknownHandle handle => (TransactionError.notFound handle).message
  | fault f => f.message
  | breakdown method text => method.name ++ " handler failed" ++ text

end Cause

namespace FailureKind

/-- The text that stands for every failure of a kind of which no more is told. -/
def fixedText? : FailureKind → Option String
  | storeUnavailable => some "Store unavailable"
  | internal => some "Internal error"
  | _ => none

end FailureKind

/-- A failure is told as its kind demands: by the fixed text, the cause being kept back, or by the cause, nothing being
kept back. -/
structure Failure.Tells (f : Failure) (cause : String) : Prop where
  fixed : ∀ text ∈ f.kind.fixedText?, f.message = text ∧ f.detail = some cause
  whole : f.kind.fixedText? = none → f.message = cause ∧ f.detail = none

theorem Failure.tells_ofFault (f : Fault) : (Failure.ofFault f).Tells f.message := by
  unfold Failure.ofFault
  cases f.kind with
  | notFound | rejected | conflict => exact ⟨nofun, fun _ => ⟨rfl, rfl⟩⟩
  | unavailable | other =>
    refine ⟨fun text ht => ?_, nofun⟩
    cases ht
    exact ⟨rfl, rfl⟩

theorem Failure.tells_ofQueryError (e : Sql.QueryError) : (Failure.ofQueryError e).Tells e.message := by
  unfold Failure.ofQueryError
  cases e.kind <;> exact ⟨nofun, fun _ => ⟨rfl, rfl⟩⟩

theorem Cause.tells (c : Cause) : c.failure.Tells c.message := by
  cases c with
  | unknownMethod | refused | batch | unknownHandle => exact ⟨nofun, fun _ => ⟨rfl, rfl⟩⟩
  | query e => exact Failure.tells_ofQueryError e
  | fault f => exact Failure.tells_ofFault f
  | breakdown method text =>
    refine ⟨fun text ht => ?_, nofun⟩
    cases ht
    exact ⟨rfl, rfl⟩

def IsCaused (f : Failure) : Prop :=
  ∃ c : Cause, f = c.failure

end Rpc

namespace Store.Work

/-- A fault counts as it is, whoever finds it. -/
abbrev PassesOn (w : Work Fault α) : Prop := w.Heeding id fun _ => True

theorem PassesOn.caused {w : Work Fault α} (h : w.PassesOn) : (w.mapError Failure.ofFault).Heeding .ofFault IsCaused :=
  h.mapError fun f _ => ⟨.fault f, rfl⟩

theorem lift_passesOn (r : Except Fault α) : PassesOn (liftM r : Work Fault α) :=
  .lift fun _ _ => trivial

theorem describe_passesOn (table : String) : (describe table).PassesOn :=
  .ask _

theorem select_passesOn (t : TableInfo) (s : Select String) : (select t s).PassesOn :=
  (lift_passesOn _).bind fun _ => .ask _

theorem contains_passesOn (t : TableInfo) (wanted : List (String × Option String)) : (contains t wanted).PassesOn :=
  (lift_passesOn _).bind fun _ => .ask _

theorem insertRow_passesOn (t : TableInfo) (columns : List Column) {b : Batch} (hi : i < b.rowCount) :
    (insertRow t columns b i).PassesOn := by
  rw [insertRow_of_lt hi]
  exact .ask _

theorem insertRows_passesOn (t : TableInfo) {b : Batch} (h : ∀ i ∈ indices, i < b.rowCount) :
    (insertRows t b indices).PassesOn :=
  (lift_passesOn _).bind fun columns => (lift_passesOn _).bind fun _ =>
    (Heeding.forM fun i hi => insertRow_passesOn t columns (h i hi)).bind fun _ => .ret _

theorem update_passesOn (t : TableInfo) (assignments wanted : List (String × Option String)) :
    (update t assignments wanted).PassesOn :=
  (lift_passesOn _).bind fun _ => (lift_passesOn _).bind fun _ => (lift_passesOn _).bind fun _ =>
    (lift_passesOn _).bind fun _ => .ask _

end Store.Work

namespace Execution

theorem pushDown_passesOn (r : Request) : (pushDown r).PassesOn :=
  (Work.describe_passesOn _).bind fun t => Work.select_passesOn t _

theorem ranked_passesOn (x : Execution) (r : Request) (v : VectorOrdering) : (x.ranked r v).PassesOn := by
  refine (Work.describe_passesOn _).bind fun t => (Work.lift_passesOn _).bind fun column =>
    (Work.select_passesOn t _).bind fun rows => ?_
  exact .ite ((Work.Heeding.ask _).bind fun _ => .ret _) (.ret _)

theorem execute_passesOn (x : Execution) (r : Request) : (x.execute r).PassesOn := by
  unfold execute
  split
  · exact .ite (pushDown_passesOn r) (x.ranked_passesOn r _)
  · exact pushDown_passesOn r

theorem executeText_heeding (x : Execution) (text : String) (args : List String) :
    (x.executeText text args).Heeding .ofFault IsCaused := by
  refine (Work.Heeding.lift fun e he => ?_).bind fun t =>
    (Work.PassesOn.caused (.forM fun _ _ => .ask _)).bind fun _ => (x.execute_passesOn t.request).caused
  cases hq : Request.ofText text args x.functions with
  | ok p =>
    rw [hq] at he
    exact nomatch he
  | error e' =>
    rw [hq] at he
    exact ⟨.query e', (Except.error.inj he).symm⟩

end Execution

namespace Writes

theorem batch_caused {r : Except BatchError α} (h : r.mapError Failure.ofBatchError = .error e) : IsCaused e := by
  cases r with
  | ok a => exact nomatch h
  | error e' => exact ⟨.batch e', (Except.error.inj h).symm⟩

theorem insert_heeding (table : String) (data : List (String × Json)) :
    (insert table data).Heeding .ofFault IsCaused :=
  (Work.Heeding.lift fun _ => batch_caused).bind fun _ =>
    Work.PassesOn.caused ((Work.describe_passesOn _).bind fun t => Work.insertRows_passesOn t fun _ hi => List.mem_range.mp hi)

theorem upsertRow_passesOn (t : TableInfo) {b : Batch} (keyColumns : List String) (done : Upserted)
    (hi : i < b.rowCount) : (upsertRow t b keyColumns done i).PassesOn := by
  refine (Work.contains_passesOn t _).bind fun found => .ite (.ret _) ?_
  refine (Work.insertRows_passesOn t fun j hj => ?_).bind fun _ => .ret _
  rw [List.mem_singleton.mp hj]
  exact hi

theorem upsert_heeding (table : String) (data : List (String × Json)) (keyColumns : List String) :
    (upsert table data keyColumns).Heeding .ofFault IsCaused := by
  have rest : Work.Heeding .ofFault IsCaused (do
      let b ← (Batch.ofMembers data).mapError Failure.ofBatchError
      (b.requireKeys keyColumns).mapError Failure.ofBatchError
      let t ← (Work.describe table).mapError Failure.ofFault
      ((List.range b.rowCount).foldlM (upsertRow t b keyColumns) ⟨0, 0⟩).mapError Failure.ofFault) :=
    (Work.Heeding.lift fun _ => batch_caused).bind fun b => (Work.Heeding.lift fun _ => batch_caused).bind fun _ =>
      (Work.describe_passesOn _).caused.bind fun t => Work.PassesOn.caused
        (.foldlM (fun done i hi => upsertRow_passesOn t keyColumns done (List.mem_range.mp hi)) _)
  exact .ite ((Work.Heeding.failed ⟨.refused _, rfl⟩).bind fun _ => rest) rest

theorem update_heeding (table : String) (values wanted : List (String × Json)) :
    (update table values wanted).Heeding .ofFault IsCaused := by
  have rest : Work.Heeding .ofFault IsCaused
      ((do Work.update (← Work.describe table) (texts values) (texts wanted) : Work Fault Nat).mapError
        Failure.ofFault) :=
    Work.PassesOn.caused ((Work.describe_passesOn _).bind fun t => Work.update_passesOn t _ _)
  have hwanted : Work.Heeding .ofFault IsCaused (do
      if wanted.isEmpty then
        Work.fail (.invalidParams "where_conditions must not be empty; unconditional updates are not allowed")
      (do Work.update (← Work.describe table) (texts values) (texts wanted) : Work Fault Nat).mapError
        Failure.ofFault) :=
    .ite ((Work.Heeding.failed ⟨.refused _, rfl⟩).bind fun _ => rest) rest
  exact .ite ((Work.Heeding.failed ⟨.refused _, rfl⟩).bind fun _ => hwanted) hwanted

end Writes

/-- No action does anything about a fault but fail with it. -/
theorem Gateway.work_heeding (x : Execution) (a : Action) : (work x a).Heeding .ofFault IsCaused := by
  cases a with
  | query sql args => exact (x.executeText_heeding sql args).bind fun _ => .ret _
  | selectById table column value =>
    exact (Work.PassesOn.caused ((Work.describe_passesOn _).bind fun t =>
      (Work.select_passesOn t _).bind fun _ => .ret _)).bind fun _ => .ret _
  | insert table data => exact (Writes.insert_heeding table data).bind fun _ => .ret _
  | upsert table data keyColumns => exact (Writes.upsert_heeding table data keyColumns).bind fun _ => .ret _
  | update table values wanted => exact (Writes.update_heeding table values wanted).bind fun _ => .ret _

end QueryGateway
