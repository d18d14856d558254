import QueryGateway.Http
import QueryGateway.Proofs.Gateway.Envelopes

namespace QueryGateway
set_option autoImplicit true

open Rpc

namespace Metrics

section

variable [BEq α] [LawfulBEq α] {key : α}

theorem lookup_alter_self (fresh : β) (change : β → β) (l : List (α × β)) :
    (alter key fresh change l).lookup key = some (change ((l.lookup key).getD fresh)) := by
  induction l with
  | nil => exact List.lookup_cons_self
  | cons entry l ih =>
    obtain ⟨k, v⟩ := entry
    rw [alter]
    by_cases hk : k = key
    · rw [hk, if_pos (beq_self_eq_true key), List.lookup_cons_self, List.lookup_cons_self]
      rfl
    · have hne : (key == k) = false := beq_false_of_ne (Ne.symm hk)
      rw [if_neg (by simpa using hk), List.lookup_cons, List.lookup_cons, hne]
      exact ih

theorem lookup_alter_ne (h : k ≠ key) (fresh : β) (change : β → β) (l : List (α × β)) :
    (alter key fresh change l).lookup k = l.lookup k := by
  have hne : (k == key) = false := beq_false_of_ne h
  induction l with
  | nil =>
    rw [alter, List.lookup_cons, hne]
  | cons entry l ih =>
    obtain ⟨k', v⟩ := entry
    rw [alter]
    by_cases hk : k' = key
    · rw [hk, if_pos (beq_self_eq_true key), List.lookup_cons, List.lookup_cons, hne]
    · rw [if_neg (by simpa using hk), List.lookup_cons, List.lookup_cons, ih]

theorem keys_alter (key : α) (fresh : β) (change : β → β) (l : List (α × β)) :
    (alter key fresh change l).map Prod.fst = l.map Prod.fst ∨
      key ∉ l.map Prod.fst ∧ (alter key fresh change l).map Prod.fst = l.map Prod.fst ++ [key] := by
  induction l with
  | nil => exact .inr ⟨List.not_mem_nil, rfl⟩
  | cons entry l ih =>
    obtain ⟨k, v⟩ := entry
    rw [alter]
    by_cases hk : k = key
    · rw [hk, if_pos (beq_self_eq_true key)]
      exact .inl rfl
    · rw [if_neg (by simpa using hk), List.map_cons, List.map_cons]
      obtain hsame | ⟨hnew, hlast⟩ := ih
      · exact .inl (congrArg _ hsame)
      · exact .inr ⟨List.not_mem_cons_of_ne_of_not_mem (Ne.symm hk) hnew, congrArg _ hlast⟩

theorem sum_alter (key : α) (l : List (α × Nat)) :
    ((alter key 0 (· + 1) l).map Prod.snd).sum = (l.map Prod.snd).sum + 1 := by
  induction l with
  | nil => rfl
  | cons entry l ih =>
    obtain ⟨k, v⟩ := entry
    rw [alter]
    by_cases hk : k = key
    · rw [hk, if_pos (beq_self_eq_true key), List.map_cons, List.sum_cons, List.map_cons, List.sum_cons]
      exact Nat.add_right_comm v 1 _
    · rw [if_neg (by simpa using hk), List.map_cons, List.sum_cons, List.map_cons, List.sum_cons, ih, Nat.add_assoc]

end

/-- The counters are those of a history of calls, each with its method and its outcome. -/
structure Tallies (m : Metrics) (history : List (String × String)) : Prop where
  count : ∀ method outcome, m.requestCount method outcome = history.count (method, outcome)
  sum : (m.requests.map Prod.snd).sum = history.length
  distinct : (m.requests.map Prod.fst).Nodup
  named : ∀ key ∈ m.requests.map Prod.fst, key ∈ history

theorem tallies_empty : empty.Tallies [] where
  count _ _ := rfl
  sum := rfl
  distinct := .nil
  named _ h := absurd h List.not_mem_nil

variable {m : Metrics}

theorem Tallies.observe (h : m.Tallies history) (method outcome : String) (micros : Nat) :
    (m.observe method outcome micros).Tallies (history ++ [(method, outcome)]) where
  count method' outcome' := by
    rw [requestCount, Metrics.observe, List.count_append]
    by_cases hkey : (method', outcome') = (method, outcome)
    · rw [hkey, lookup_alter_self, List.count_singleton_self]
      exact congrArg (· + 1) (h.count method outcome)
    · rw [lookup_alter_ne hkey, List.count_singleton, if_neg (by simpa using Ne.symm hkey)]
      exact h.count method' outcome'
  sum := by
    rw [Metrics.observe, sum_alter, h.sum, List.length_append]
    rfl
  distinct := by
    obtain hsame | ⟨hnew, hlast⟩ := keys_alter (method, outcome) 0 (· + 1) m.requests
    · rw [Metrics.observe, hsame]
      exact h.distinct
    · rw [Metrics.observe, hlast]
      rw [← List.concat_eq_append]
      exact h.distinct.concat hnew
  named key hkey := by
    obtain hsame | ⟨-, hlast⟩ := keys_alter (method, outcome) 0 (· + 1) m.requests
    · rw [Metrics.observe, hsame] at hkey
      exact List.mem_append_left _ (h.named key hkey)
    · rw [Metrics.observe, hlast] at hkey
      exact List.mem_append.mpr ((List.mem_append.mp hkey).imp_left (h.named key))

theorem Tallies.setOpenTransactions (h : m.Tallies history) (n : Nat) : (m.setOpenTransactions n).Tallies history :=
  ⟨h.count, h.sum, h.distinct, h.named⟩

end Metrics

namespace Gateway

theorem metrics_health (g : Gateway) (timestamp : String) : (g.health timestamp).2.metrics = g.metrics := by
  unfold health
  split <;> rfl

theorem metrics_begin (g : Gateway) (now : Nat) : (g.begin now).2.metrics = g.metrics := by
  unfold begin
  split <;> rfl

theorem metrics_inTransaction (g : Gateway) (now : Nat) (handle : String) (w : Store.Work Failure α) :
    (g.inTransaction now handle w).2.metrics = g.metrics := by
  unfold inTransaction
  split <;> rfl

theorem metrics_read (g : Gateway) (now : Nat) (handle : Option String) (w : Store.Work Failure α) :
    (g.read now handle w).2.metrics = g.metrics := by
  cases handle with
  | none => rfl
  | some handle => exact metrics_inTransaction g now handle w

theorem metrics_write (g : Gateway) (now : Nat) (handle : Option String) (w : Store.Work Failure α) :
    (g.write now handle w).2.metrics = g.metrics := by
  cases handle with
  | none => rfl
  | some handle => exact metrics_inTransaction g now handle w

theorem metrics_act (g : Gateway) (now : Nat) (action : Action) (handle : Option String) :
    (g.act now action handle).2.metrics = g.metrics := by
  change (if isWrite action then g.write now handle _ else g.read now handle _).2.metrics = g.metrics
  split
  · exact metrics_write g now handle _
  · exact metrics_read g now handle _

theorem metrics_invoke (g : Gateway) (clock : Clock) (method : String) (params : Option Json) :
    (g.invoke clock method params).2.metrics = g.metrics := by
  unfold invoke
  split
  · rfl
  · split
    · rfl
    · next call _ =>
      cases call with
      | ping => rfl
      | health => exact metrics_health g clock.timestamp
      | begin => exact metrics_begin g clock.now
      | commit handle => rfl
      | rollback handle => rfl
      | act action handle => exact metrics_act g clock.now action handle

theorem tallies_call {g : Gateway} (h : g.metrics.Tallies history) (clock : Clock) (method : String)
    (params : Option Json) : (g.call clock method params).2.metrics.Tallies
      (history ++ [(methodLabel method, outcomeName (g.call clock method params).1)]) := by
  have hinvoke := metrics_invoke g clock method params
  apply Metrics.Tallies.setOpenTransactions
  rw [← hinvoke] at h
  exact h.observe _ _ clock.elapsed

end Gateway

namespace Http

theorem serve_route (g : Gateway) (clock : Clock) (r : Route) (body : ByteArray) :
    serve g clock ⟨r.method, r.path, body⟩ = serveRoute g clock r body := by
  have hpath : pathOf r.path = r.path := by cases r <;> decide +kernel
  have hmethod : (r.method == "OPTIONS") = false := by cases r <;> decide
  rw [serve, hmethod, if_neg Bool.false_ne_true, hpath, Route.ofPath?_path]
  exact if_pos (beq_self_eq_true _)

end Http

namespace Gateway

/-- A body, or a look at the state of the gateway. -/
inductive Inquiry where
  | rpc (clock : Clock) (body : ByteArray)
  | health (clock : Clock)
  | ping (clock : Clock)

namespace Inquiry

def clock : Inquiry → Clock
  | rpc clock _ => clock
  | health clock => clock
  | ping clock => clock

def request : Inquiry → Http.Request
  | rpc _ body => ⟨"POST", "/rpc", body⟩
  | health _ => ⟨"GET", "/health", .empty⟩
  | ping _ => ⟨"GET", "/ping", .empty⟩

/-- The status and the value that a call outside an envelope is answered with. -/
def bare (status : Json → Nat) : Except Failure Json → Nat × Json
  | .ok v => (status v, v)
  | .error f => (f.kind.status, .string f.message)

def reply (g : Gateway) : Inquiry → (Nat × Json) × Gateway
  | rpc clock body =>
    let (response, g') := g.handle clock body
    ((response.1, response.2.toJson), g')
  | health clock =>
    let (result, g') := g.call clock Method.healthCheck.name none
    (bare (fun v => if Http.isHealthy v then 200 else 503) result, g')
  | ping clock =>
    let (result, g') := g.call clock Method.ping.name none
    (bare (fun _ => 200) result, g')

/-- What is replied is what is sent. -/
theorem serve_request (g : Gateway) (i : Inquiry) :
    Http.serve g i.clock i.request = (.json (i.reply g).1.1 (i.reply g).1.2, (i.reply g).2) := by
  cases i with
  | rpc clock body => exact Http.serve_route g clock .rpc body
  | health clock =>
    apply (Http.serve_route g clock .health .empty).trans
    rcases hcall : g.call clock Method.healthCheck.name none with ⟨result, g'⟩
    simp only [Http.serveRoute, reply, hcall]
    cases result <;> rfl
  | ping clock =>
    apply (Http.serve_route g clock .ping .empty).trans
    rcases hcall : g.call clock Method.ping.name none with ⟨result, g'⟩
    simp only [Http.serveRoute, reply, hcall]
    cases result <;> rfl

/-- The method that a body asks for, if it is a call. -/
def methodAsked? (body : ByteArray) : Option String := do
  let v ← Json.readBytes? body
  let envelope ← (Envelope.ofJson v).toOption
  return envelope.method

def countedAs (method : String) : String :=
  if method ∈ Method.all.map Method.name then method else "unknown"

/-- The kind of failure that has a code. -/
def kindTold? : Json → Option FailureKind
  | .int code => FailureKind.all.find? (·.code == code)
  | _ => none

/-- What an answer to a call says of its outcome: the kind of its error, if it has one. -/
def outcomeTold? (answer : Json) : Option String :=
  match answer.member? "error" with
  | none => some "ok"
  | some e => ((e.member? "code").bind kindTold?).map FailureKind.label

/-- How an inquiry counts, by what it was and what was replied. -/
def tallied? (reply : Json) : Inquiry → Option (String × String)
  | rpc _ body => do
    let method ← methodAsked? body
    let outcome ← outcomeTold? reply
    return (countedAs method, outcome)
  | health _ => (reply.member? "status").map fun _ => (Method.healthCheck.name, "ok")
  | ping _ => (reply.member? "status").map fun _ => (Method.ping.name, "ok")

theorem countedAs_eq (method : String) : countedAs method = methodLabel method := by
  unfold countedAs methodLabel
  have hiff : method ∈ Method.all.map Method.name ↔ (Method.ofName? method).isSome = true := by
    rw [Method.ofName?, List.find?_isSome, List.mem_map]
    simp only [beq_iff_eq]
  simp only [hiff]

theorem kindTold?_code (k : FailureKind) : kindTold? (.int k.code) = some k := by
  cases k <;> rfl

theorem outcomeTold?_responseOf (id : Json) (result : Except Failure Json) :
    outcomeTold? (responseOf id result).2.toJson = some (outcomeName result) := by
  cases result with
  | ok v => rfl
  | error f =>
    change (kindTold? (.int f.kind.code)).map FailureKind.label = _
    rw [kindTold?_code]
    rfl

end Inquiry

theorem handle_of_envelope (g : Gateway) (clock : Clock) (hv : Json.readBytes? body = some v)
    (he : Envelope.ofJson v = .ok envelope) : g.handle clock body =
      (responseOf (Envelope.idOf v) (g.call clock envelope.method envelope.params).1,
        (g.call clock envelope.method envelope.params).2) := by
  unfold handle handleJson
  rw [hv]
  simp only [he]
  cases g.call clock envelope.method envelope.params with
  | mk r g' =>
    cases r with
    | ok v => rfl
    | error f => rfl

theorem exists_envelope (h : Inquiry.methodAsked? body = some method) :
    ∃ v envelope, Json.readBytes? body = some v ∧ Envelope.ofJson v = .ok envelope ∧ envelope.method = method := by
  obtain ⟨v, hv, h⟩ := Option.bind_eq_some_iff.mp h
  obtain ⟨envelope, he, hmethod⟩ := Option.bind_eq_some_iff.mp h
  refine ⟨v, envelope, hv, ?_, Option.some.inj hmethod⟩
  cases hread : Envelope.ofJson v with
  | error e =>
    rw [hread] at he
    exact nomatch he
  | ok envelope' =>
    rw [hread] at he
    exact congrArg Except.ok (Option.some.inj he)

theorem handle_of_no_method (g : Gateway) (clock : Clock) (h : Inquiry.methodAsked? body = none) :
    (g.handle clock body).2 = g := by
  unfold handle handleJson
  cases hv : Json.readBytes? body with
  | none => rfl
  | some v =>
    cases he : Envelope.ofJson v with
    | error e => simp only [he]
    | ok envelope =>
      rw [Inquiry.methodAsked?, hv] at h
      change (Envelope.ofJson v).toOption.bind _ = none at h
      rw [he] at h
      exact nomatch h

theorem call_health (g : Gateway) (clock : Clock) :
    ∃ v, (g.call clock Method.healthCheck.name none).1 = .ok v ∧ (v.member? "status").isSome = true := by
  refine ⟨(g.health clock.timestamp).1, rfl, ?_⟩
  unfold health
  split <;> rfl

theorem call_ping (g : Gateway) (clock : Clock) :
    ∃ v, (g.call clock Method.ping.name none).1 = .ok v ∧ (v.member? "status").isSome = true :=
  ⟨_, rfl, rfl⟩

def exchanges (g : Gateway) : List Inquiry → List (Inquiry × Nat × Json)
  | [] => []
  | i :: is => (i, (i.reply g).1) :: exchanges (i.reply g).2 is

def inquired (g : Gateway) (is : List Inquiry) : Gateway :=
  is.foldl (fun g i => (i.reply g).2) g

/-- The calls among the inquiries, each with its method and its outcome. -/
def history (g : Gateway) (is : List Inquiry) : List (String × String) :=
  (g.exchanges is).filterMap fun exchange => exchange.1.tallied? exchange.2.2

variable {g : Gateway}

theorem handle_of_method (g : Gateway) (clock : Clock) (h : Inquiry.methodAsked? body = some method) :
    ∃ params, Inquiry.outcomeTold? (g.handle clock body).1.2.toJson =
      some (outcomeName (g.call clock method params).1) ∧
        (g.handle clock body).2 = (g.call clock method params).2 := by
  obtain ⟨v, envelope, hv, he, rfl⟩ := exists_envelope h
  refine ⟨envelope.params, ?_, ?_⟩
  · rw [handle_of_envelope g clock hv he, Inquiry.outcomeTold?_responseOf]
  · rw [handle_of_envelope g clock hv he]

theorem bare_status {result : Except Failure Json} (status : Json → Nat)
    (h : ∃ v, result = .ok v ∧ (v.member? "status").isSome = true) :
    ∃ s, (Inquiry.bare status result).2.member? "status" = some s := by
  obtain ⟨v, rfl, hv⟩ := h
  exact Option.isSome_iff_exists.mp hv

theorem tallies_bare (h : g.metrics.Tallies past) (clock : Clock) (m : Method) (status : Json → Nat)
    (hcall : ∃ v, (g.call clock m.name none).1 = .ok v ∧ (v.member? "status").isSome = true) :
    (g.call clock m.name none).2.metrics.Tallies (past ++
      (((Inquiry.bare status (g.call clock m.name none).1).2.member? "status").map
        fun _ => (m.name, "ok")).toList) := by
  have htallies := tallies_call h clock m.name none
  obtain ⟨s, hs⟩ := bare_status status hcall
  obtain ⟨v, hv, -⟩ := hcall
  have hlabel : methodLabel m.name = m.name := by
    rw [methodLabel, Method.ofName?_name]
    rfl
  rw [hv, hlabel] at htallies
  rw [hs]
  exact htallies

/-- What an inquiry counts as can be told from it and its reply, and that is what is counted. -/
theorem tallies_reply (h : g.metrics.Tallies past) (i : Inquiry) :
    (i.reply g).2.metrics.Tallies (past ++ (i.tallied? (i.reply g).1.2).toList) := by
  cases i with
  | rpc clock body =>
    change (g.handle clock body).2.metrics.Tallies
      (past ++ ((Inquiry.rpc clock body).tallied? (g.handle clock body).1.2.toJson).toList)
    rw [Inquiry.tallied?]
    cases hasked : Inquiry.methodAsked? body with
    | none =>
      rw [handle_of_no_method g clock hasked]
      exact (List.append_nil past).symm ▸ h
    | some method =>
      obtain ⟨params, htold, hgateway⟩ := handle_of_method g clock hasked
      rw [htold, hgateway]
      have htallies := tallies_call h clock method params
      rw [← Inquiry.countedAs_eq] at htallies
      exact htallies
  | health clock =>
    exact tallies_bare h clock .healthCheck (fun v => if Http.isHealthy v then 200 else 503) (call_health g clock)
  | ping clock => exact tallies_bare h clock .ping (fun _ => 200) (call_ping g clock)

theorem history_cons (g : Gateway) (i : Inquiry) (is : List Inquiry) :
    g.history (i :: is) = (i.tallied? (i.reply g).1.2).toList ++ (i.reply g).2.history is := by
  rw [history, exchanges, List.filterMap_cons]
  cases i.tallied? (i.reply g).1.2 <;> rfl

theorem tallies_inquired (h : g.metrics.Tallies past) (is : List Inquiry) :
    (g.inquired is).metrics.Tallies (past ++ g.history is) := by
  induction is generalizing g past with
  | nil =>
    rw [history, exchanges, List.filterMap_nil, List.append_nil]
    exact h
  | cons i is ih =>
    have hrest := ih (tallies_reply h i)
    rw [history_cons, ← List.append_assoc]
    exact hrest

/-- The names that calls can count under. -/
def methodLabels : List String :=
  "unknown" :: Method.all.map Method.name

def outcomeLabels : List String :=
  "ok" :: FailureKind.all.map FailureKind.label

theorem countedAs_mem (method : String) : Inquiry.countedAs method ∈ methodLabels := by
  unfold Inquiry.countedAs
  split
  · next h => exact List.mem_cons_of_mem _ h
  · exact List.mem_cons_self

theorem outcomeTold?_mem (h : Inquiry.outcomeTold? answer = some outcome) : outcome ∈ outcomeLabels := by
  unfold Inquiry.outcomeTold? at h
  split at h
  · cases h
    exact List.mem_cons_self
  · obtain ⟨kind, -, rfl⟩ := Option.map_eq_some_iff.mp h
    have hall : kind ∈ FailureKind.all := by cases kind <;> decide
    exact List.mem_cons_of_mem _ (List.mem_map.mpr ⟨kind, hall, rfl⟩)

theorem labels_of_tallied {i : Inquiry} (h : i.tallied? reply = some key) :
    key.1 ∈ methodLabels ∧ key.2 ∈ outcomeLabels := by
  cases i with
  | rpc clock body =>
    obtain ⟨method, -, h⟩ := Option.bind_eq_some_iff.mp h
    obtain ⟨outcome, houtcome, h⟩ := Option.bind_eq_some_iff.mp h
    cases h
    exact ⟨countedAs_mem method, outcomeTold?_mem houtcome⟩
  | health clock =>
    obtain ⟨v, -, rfl⟩ := Option.map_eq_some_iff.mp h
    exact ⟨by decide, by decide⟩
  | ping clock =>
    obtain ⟨v, -, rfl⟩ := Option.map_eq_some_iff.mp h
    exact ⟨by decide, by decide⟩

theorem labels_of_history (h : key ∈ g.history is) : key.1 ∈ methodLabels ∧ key.2 ∈ outcomeLabels := by
  obtain ⟨exchange, -, hentry⟩ := List.mem_filterMap.mp h
  exact labels_of_tallied hentry

def Inquiry.isCall : Inquiry → Bool
  | rpc _ body => (methodAsked? body).isSome
  | health _ => true
  | ping _ => true

theorem isSome_tallied (g : Gateway) (i : Inquiry) : (i.tallied? (i.reply g).1.2).isSome = i.isCall := by
  cases i with
  | rpc clock body =>
    change ((Inquiry.rpc clock body).tallied? (g.handle clock body).1.2.toJson).isSome =
      (Inquiry.methodAsked? body).isSome
    rw [Inquiry.tallied?]
    cases hasked : Inquiry.methodAsked? body with
    | none => rfl
    | some method =>
      obtain ⟨params, htold, -⟩ := handle_of_method g clock hasked
      rw [htold]
      rfl
  | health clock =>
    obtain ⟨s, hs⟩ := bare_status (fun v => if Http.isHealthy v then 200 else 503) (call_health g clock)
    exact congrArg (fun status => (status.map fun _ => (Method.healthCheck.name, "ok")).isSome) hs
  | ping clock =>
    obtain ⟨s, hs⟩ := bare_status (fun _ => 200) (call_ping g clock)
    exact congrArg (fun status => (status.map fun _ => (Method.ping.name, "ok")).isSome) hs

theorem length_history (g : Gateway) (is : List Inquiry) : (g.history is).length = is.countP Inquiry.isCall := by
  induction is generalizing g with
  | nil => rfl
  | cons i is ih =>
    rw [history_cons, List.length_append, ih, List.countP_cons, ← isSome_tallied g i, Nat.add_comm]
    cases i.tallied? (i.reply g).1.2 <;> rfl

theorem length_dedup_le {l bound : List String} (h : ∀ s ∈ l, s ∈ bound) : l.dedup.length ≤ bound.length := by
  apply List.Subperm.length_le
  apply (List.nodup_dedup l).subperm
  exact fun s hs => h s (List.mem_dedup.mp hs)

/-- After any run, each counter is the number of calls with its method and its outcome, as these were asked for and
replied: a method that does not exist counts as unknown, a body that is no call does not count. So the counters add up
to the calls, and whatever is asked for there are no more than eleven methods and nine outcomes among them. -/
theorem counters_exact (d : Store.Database) (x : Execution) (healthTable : Option String) (is : List Inquiry) :
    let g := Gateway.new d x healthTable
    let m := (g.inquired is).metrics
    (∀ method outcome, m.requestCount method outcome = (g.history is).count (method, outcome)) ∧
      (m.requests.map Prod.snd).sum = (g.history is).length ∧
      (g.history is).length = is.countP Inquiry.isCall ∧
      (m.requests.map Prod.fst).Nodup ∧
      (∀ key ∈ m.requests.map Prod.fst, key.1 ∈ methodLabels ∧ key.2 ∈ outcomeLabels) ∧
      (m.requests.map (·.1.1)).dedup.length ≤ 11 ∧ (m.requests.map (·.1.2)).dedup.length ≤ 9 := by
  intro g m
  have htallies : m.Tallies (g.history is) := tallies_inquired (g := g) Metrics.tallies_empty is
  have hlabels : ∀ key ∈ m.requests.map Prod.fst, key.1 ∈ methodLabels ∧ key.2 ∈ outcomeLabels :=
    fun key hkey => labels_of_history (htallies.named key hkey)
  have hmethods : (m.requests.map (·.1.1)).dedup.length ≤ methodLabels.length := by
    apply length_dedup_le
    intro s hs
    obtain ⟨entry, hentry, rfl⟩ := List.mem_map.mp hs
    exact (hlabels entry.1 (List.mem_map_of_mem hentry)).1
  have houtcomes : (m.requests.map (·.1.2)).dedup.length ≤ outcomeLabels.length := by
    apply length_dedup_le
    intro s hs
    obtain ⟨entry, hentry, rfl⟩ := List.mem_map.mp hs
    exact (hlabels entry.1 (List.mem_map_of_mem hentry)).2
  exact ⟨htallies.count, htallies.sum, length_history g is, htallies.distinct, hlabels, hmethods, houtcomes⟩

end Gateway

end QueryGateway
