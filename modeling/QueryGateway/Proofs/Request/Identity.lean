import QueryGateway.Proofs.Request.Canonical
import QueryGateway.Proofs.Request.Translation

namespace QueryGateway
set_option autoImplicit true

/-- Vectors agree bit by bit. -/
def Ordering.Agrees : Ordering → Ordering → Prop
  | .column name direction, .column name' direction' => name = name' ∧ direction = direction'
  | .vector v, .vector w =>
    v.column = w.column ∧ v.metric = w.metric ∧ v.vector.map Float.toBits = w.vector.map Float.toBits ∧
      v.native = w.native
  | _, _ => False

theorem Ordering.agrees_iff {o o' : Ordering} : o.Agrees o' ↔ o = o' := by
  constructor
  · intro h
    cases o with
    | column name direction =>
      cases o' with
      | column name' direction' =>
        obtain ⟨rfl, rfl⟩ := h
        rfl
      | vector w => exact h.elim
    | vector v =>
      cases o' with
      | column name' direction' => exact h.elim
      | vector w =>
        have hinj : Function.Injective Float.toBits := fun x y => Float.toBits_inj.mp
        obtain ⟨hcolumn, hmetric, hbits, hnative⟩ := h
        have hvector := List.map_injective_iff.mpr hinj hbits
        obtain ⟨column, metric, vector, native⟩ := v
        obtain ⟨column', metric', vector', native'⟩ := w
        cases hcolumn
        cases hmetric
        cases hvector
        cases hnative
        rfl
  · rintro rfl
    cases o with
    | column name direction => exact ⟨rfl, rfl⟩
    | vector v => exact ⟨rfl, rfl, rfl, rfl⟩

namespace Request

structure Agrees (r r' : Request) : Prop where
  table : r.table = r'.table
  columns : r.columns = r'.columns
  predicates : r.predicates = r'.predicates
  ordering : Option.Rel Ordering.Agrees r.ordering r'.ordering
  limit : r.limit = r'.limit

theorem agrees_iff {r r' : Request} : r.Agrees r' ↔ r = r' := by
  constructor
  · intro h
    obtain ⟨table, columns, predicates, ordering, limit⟩ := r
    obtain ⟨table', columns', predicates', ordering', limit'⟩ := r'
    obtain ⟨rfl, rfl, rfl, hordering, rfl⟩ := h
    cases hordering with
    | none => rfl
    | some ho => rw [Ordering.agrees_iff.mp ho]
  · rintro rfl
    refine ⟨rfl, rfl, rfl, ?_, rfl⟩
    cases r.ordering with
    | none => exact .none
    | some o => exact .some (Ordering.agrees_iff.mpr rfl)

def components (r : Request) : List Float :=
  match r.vectorOrdering? with
  | some v => v.vector
  | none => []

theorem components_vector (r : Request) (ho : r.ordering = some (.vector v)) : r.components = v.vector := by
  rw [components, vectorOrdering?_eq_some_iff.mpr ho]

/-- No number is infinite or none at all, and rows are counted in 64 bits. -/
structure Representable (r : Request) : Prop where
  finite : ∀ x ∈ r.components, x.isFinite = true
  limit : ∀ n ∈ r.limit, n < 2 ^ 64

/-- What is relied on in JSON text: the finite numbers among its components are read as they were. -/
def Relies (r : Request) : Prop :=
  ∀ x ∈ r.components, x.isFinite = true → Json.ReadsBack x

theorem predicate_legible (p : Predicate) : Json.Legible (depth + 1) p.toJson := by
  apply Json.Legible.object
  intro m hm
  simp only [List.mem_cons, List.not_mem_nil, or_false] at hm
  obtain rfl | rfl | rfl := hm <;> exact .string _

theorem ordering_legible (o : Ordering) (h : ∀ v, o = .vector v → ∀ x ∈ v.vector, Json.ReadsBack x) :
    Json.Legible (depth + 2) o.toJson := by
  cases o with
  | column name direction =>
    apply Json.Legible.object
    intro m hm
    simp only [List.mem_cons, List.not_mem_nil, or_false] at hm
    obtain rfl | rfl | rfl := hm <;> exact .string _
  | vector v =>
    apply Json.Legible.object
    intro m hm
    simp only [List.mem_append, List.mem_cons, List.not_mem_nil, or_false, List.mem_map] at hm
    obtain (rfl | rfl | rfl | rfl) | ⟨f, -, rfl⟩ := hm
    · exact .string _
    · exact .string _
    · exact .string _
    · apply Json.Legible.array
      intro w hw
      obtain ⟨x, hx, rfl⟩ := List.mem_map.mp hw
      exact .float (h v rfl x hx)
    · exact .string _

theorem toJson_legible {r : Request} (hr : r.Representable) (hj : r.Relies) : Json.Legible (depth + 3) r.toJson := by
  rw [Reader.toJson_eq]
  apply Json.Legible.object
  intro m hm
  have hpart := Reader.mem_present.mp hm
  simp only [Reader.parts, List.mem_cons, List.not_mem_nil, or_false, Prod.mk.injEq, Option.some.injEq] at hpart
  obtain ⟨-, hv⟩ | ⟨-, hv⟩ | ⟨-, hv⟩ | ⟨-, hv⟩ | ⟨-, hv⟩ := hpart
  · rw [hv]
    exact .string _
  · obtain ⟨names, -, hnames⟩ := Option.map_eq_some_iff.mp hv.symm
    rw [← hnames]
    apply Json.Legible.array
    intro w hw
    obtain ⟨name, -, rfl⟩ := List.mem_map.mp hw
    exact .string _
  · split at hv
    · cases hv
    · rw [Option.some.inj hv]
      apply Json.Legible.array
      intro w hw
      obtain ⟨p, -, rfl⟩ := List.mem_map.mp hw
      exact predicate_legible p
  · obtain ⟨o, ho, hjson⟩ := Option.map_eq_some_iff.mp hv.symm
    rw [← hjson]
    apply ordering_legible
    rintro v rfl x hx
    have hmem : x ∈ r.components := by rwa [components_vector r ho]
    exact hj x hmem (hr.finite x hmem)
  · obtain ⟨n, hn, hjson⟩ := Option.map_eq_some_iff.mp hv.symm
    have hbound := hr.limit n hn
    rw [← hjson]
    exact .int (by omega) (by exact_mod_cast hbound)

theorem read?_text {r : Request} (hr : r.Representable) (hj : r.Relies) : Request.read? r.text = some r := by
  have hwritten : Json.written? r.text.toList = some r.toJson := Json.written?_print (toJson_legible hr hj)
  rw [read?, hwritten]
  exact Reader.request?_toJson r

theorem text_eq_iff {r r' : Request} (hr : r.Representable) (hj : r.Relies) (hr' : r'.Representable)
    (hj' : r'.Relies) : r.text = r'.text ↔ r.Agrees r' := by
  rw [agrees_iff]
  constructor
  · intro h
    have hread := read?_text hr hj
    rw [h, read?_text hr' hj'] at hread
    exact (Option.some.inj hread).symm
  · rintro rfl
    rfl

/-- The numbers of a request are those of its ordering. -/
theorem mem_components {r : Request} (hx : x ∈ r.components) : ∃ v, r.ordering = some (.vector v) ∧ x ∈ v.vector := by
  unfold components at hx
  split at hx
  · next v hv => exact ⟨v, vectorOrdering?_eq_some_iff.mp hv, hx⟩
  · cases hx

open Sql OfQuery

theorem forall₂_isElement_finite (h : List.Forall₂ IsElement elements xs) : ∀ x ∈ xs, x.isFinite = true := by
  induction h with
  | nil => exact List.forall_mem_nil _
  | cons hx _ ih =>
    obtain ⟨n, -, -, hfinite⟩ := hx
    exact List.forall_mem_cons.mpr ⟨hfinite, ih⟩

theorem ofText_representable (h : Request.ofText s args t = .ok p) : p.request.Representable := by
  obtain ⟨q, -, hy⟩ := exists_yields h
  constructor
  · intro x hx
    obtain ⟨v, ho, hv⟩ := mem_components hx
    obtain ⟨f, -, -, -, elements, hxs⟩ := hy.vector ho
    exact forall₂_isElement_finite hxs x hv
  · intro n hn
    exact Nat.lt_trans (hy.limit_lt hn) (by decide)

namespace Reader

open Json (Numeric)

theorem numeric_item (h : Numeric (.array items)) : ∀ v ∈ items, Numeric v := by
  cases h with
  | number h => exact h.elim
  | array h => exact h

theorem numeric_field (h : Numeric (.object fields)) : ∀ m ∈ fields, Numeric m.2 := by
  cases h with
  | number h => exact h.elim
  | object h => exact h

theorem fields?_numeric (hv : Numeric v) (h : fields? names v = some vs) : ∀ w, some w ∈ vs → Numeric w := by
  unfold fields? at h
  split at h
  · next members =>
    split at h
    · cases h
    · cases h
      intro w hw
      obtain ⟨n, -, hn⟩ := List.mem_map.mp hw
      obtain ⟨front, back, rfl, -⟩ := List.lookup_eq_some_iff.mp hn
      exact numeric_field hv (n, w) (List.mem_append_right _ List.mem_cons_self)
  · next items =>
    split at h
    · cases h
    · cases h
      intro w hw
      obtain ⟨i, -, hi⟩ := List.mem_map.mp hw
      exact numeric_item hv w (List.mem_of_getElem? hi)
  · cases h

theorem mem_of_mapM {read : α → Option β} {as : List α} (h : as.mapM read = some bs) (hb : b ∈ bs) :
    ∃ a ∈ as, read a = some b := by
  induction as generalizing bs with
  | nil =>
    cases h
    cases hb
  | cons a as ih =>
    simp only [List.mapM_cons, Option.bind_eq_bind, Option.bind_eq_some_iff] at h
    obtain ⟨b', ha, bs', hbs, heq⟩ := h
    cases heq
    rcases List.mem_cons.mp hb with rfl | hmem
    · exact ⟨a, List.mem_cons_self, ha⟩
    · obtain ⟨a', ha', hread⟩ := ih hbs hmem
      exact ⟨a', List.mem_cons_of_mem _ ha', hread⟩

theorem vector?_finite (hv : Numeric v) (h : v.vector? = some xs) : ∀ x ∈ xs, x.isFinite = true := by
  intro x hx
  simp only [Json.vector?, Option.bind_eq_bind, Option.bind_eq_some_iff] at h
  obtain ⟨items, hitems, hmap⟩ := h
  unfold Json.array? at hitems
  split at hitems
  · cases hitems
    obtain ⟨w, hw, hnumber⟩ := mem_of_mapM hmap hx
    exact Json.number?_isFinite (numeric_item hv w hw) hnumber
  · cases hitems

theorem tagged?_numeric (hv : Numeric v) (h : tagged? v = some (kind, w)) : Numeric w := by
  unfold tagged? at h
  split at h
  · next members =>
    split at h
    · cases h
      apply Numeric.object
      intro m hm
      exact numeric_field hv m (List.mem_of_mem_filter hm)
    · cases h
  · next kind' items =>
    cases h
    apply Numeric.array
    intro w hw
    exact numeric_item hv w (List.mem_cons_of_mem _ hw)
  · cases h

theorem optional_cases {read : Json → Option α} (h : optional read field = some (some a)) :
    ∃ w, field = some w ∧ read w = some a := by
  unfold optional at h
  split at h
  · cases h
  · cases h
  · next w _ =>
    obtain ⟨a', ha, heq⟩ := Option.map_eq_some_iff.mp h
    cases heq
    exact ⟨w, rfl, ha⟩

theorem ordering?_finite (hv : Numeric v) (h : ordering? v = some (.vector o)) : ∀ x ∈ o.vector, x.isFinite = true := by
  simp only [ordering?, Option.bind_eq_bind, Option.bind_eq_some_iff] at h
  obtain ⟨⟨kind, w⟩, htag, h⟩ := h
  have hw := tagged?_numeric hv htag
  simp only at h
  split at h
  · simp only [columnOrdering?, Option.bind_eq_bind, Option.bind_eq_some_iff] at h
    obtain ⟨fields, -, h⟩ := h
    split at h
    · simp only [Option.bind_eq_some_iff] at h
      obtain ⟨_, -, _, -, heq⟩ := h
      cases heq
    · cases h
  · simp only [vectorOrdering?, Option.bind_eq_bind, Option.bind_eq_some_iff] at h
    obtain ⟨fields, hfields, h⟩ := h
    split at h
    · next column metric vector native =>
      simp only [Option.bind_eq_some_iff] at h
      obtain ⟨_, -, _, -, xs, hxs, _, -, heq⟩ := h
      cases heq
      have hvector := fields?_numeric hw hfields vector (by simp)
      exact vector?_finite hvector hxs
    · cases h
  · cases h

theorem limit?_lt (hv : Numeric v) (h : limit? v = some n) : n < 2 ^ 64 := by
  unfold limit? at h
  split at h
  · next k =>
    split at h
    · cases h
      rcases hv.isNumber with ⟨-, hk⟩ | hnone
      · omega
      · cases hnone
    · cases h
  · cases h

theorem request?_representable (hv : Numeric v) (h : request? v = some r) : r.Representable := by
  simp only [request?, Option.bind_eq_bind, Option.bind_eq_some_iff] at h
  obtain ⟨fields, hfields, h⟩ := h
  split at h
  · next table columns predicates ordering limit =>
    simp only [Option.bind_eq_some_iff] at h
    obtain ⟨_, -, _, -, _, -, o, ho, n, hn, heq⟩ := h
    cases heq
    constructor
    · intro x hx
      obtain ⟨w, hw, hmem⟩ := mem_components hx
      cases hw
      obtain ⟨field, rfl, hread⟩ := optional_cases ho
      exact ordering?_finite (fields?_numeric hv hfields field (by simp)) hread x hmem
    · intro k hk
      cases hk
      obtain ⟨field, rfl, hread⟩ := optional_cases hn
      exact limit?_lt (fields?_numeric hv hfields field (by simp)) hread
  · cases h

end Reader

theorem read?_representable (h : Request.read? s = some r) : r.Representable := by
  obtain ⟨v, hwritten, hread⟩ := Option.bind_eq_some_iff.mp h
  exact Reader.request?_representable (Json.written?_numeric hwritten) hread

/-- The text of a request is read as that request again, so that it tells requests apart by their fields; and what comes
from a query or from a text is a request of this kind. -/
theorem canonical_text :
    (∀ r : Request, r.Representable → r.Relies →
      Request.read? r.text = some r ∧ (Request.read? r.text).map Request.fingerprint = some r.fingerprint) ∧
    (∀ r r' : Request, r.Representable → r.Relies → r'.Representable → r'.Relies →
      (r.text = r'.text ↔ r.Agrees r')) ∧
    (∀ s args t p, Request.ofText s args t = .ok p → p.request.Representable) ∧
    (∀ s r, Request.read? s = some r → r.Representable) ∧
    (∀ s r, Request.read? s = some r → r.Relies → (Request.read? r.text).map Request.text = some r.text) := by
  refine ⟨?_, fun r r' hr hj hr' hj' => text_eq_iff hr hj hr' hj', fun s args t p h => ofText_representable h,
    fun s r h => read?_representable h, ?_⟩
  · intro r hr hj
    rw [read?_text hr hj]
    exact ⟨rfl, rfl⟩
  · intro s r h hj
    rw [read?_text (read?_representable h) hj]
    rfl

theorem canonical_text_nearest :
    ∃ r : Request, r.ordering = some (.vector ⟨"embedding", .cosine, [0.1, 0.2, 0.3], some "array_cosine_distance"⟩) ∧
      Request.read? r.text = some r ∧ r.text ≠ { r with columns := some [] }.text := by
  have hone : Json.wholeDigits? (Json.floatText 0.1).toList = some (['0'], '.' :: ['1']) := by decide +kernel
  have htwo : Json.wholeDigits? (Json.floatText 0.2).toList = some (['0'], '.' :: ['2']) := by decide +kernel
  have hthree : Json.wholeDigits? (Json.floatText 0.3).toList = some (['0'], '.' :: ['3']) := by decide +kernel
  have hback : ∀ x ∈ [0.1, 0.2, 0.3], Json.ReadsBack x := by
    simp only [List.forall_mem_cons]
    refine ⟨?_, ?_, ?_, List.forall_mem_nil _⟩
    · exact .of_fraction (s := ⟨1, -1⟩) hone rfl nofun (by decide +kernel) (by decide) (by decide) (by decide +kernel)
    · exact .of_fraction (s := ⟨2, -1⟩) htwo rfl nofun (by decide +kernel) (by decide) (by decide) (by decide +kernel)
    · exact .of_fraction (s := ⟨3, -1⟩) hthree rfl nofun (by decide +kernel) (by decide) (by decide) (by decide +kernel)
  have hfinite : ∀ x ∈ [0.1, 0.2, 0.3], x.isFinite = true := by decide +kernel
  obtain ⟨hround, hagree, -⟩ := canonical_text
  let r : Request := ⟨"assets", none, [⟨"status", .eq, "ready"⟩],
    some (.vector ⟨"embedding", .cosine, [0.1, 0.2, 0.3], some "array_cosine_distance"⟩), some 5⟩
  have hlimit : ∀ n ∈ some 5, n < 2 ^ 64 := by decide
  have hr : r.Representable := ⟨hfinite, hlimit⟩
  have hr' : ({ r with columns := some [] } : Request).Representable := ⟨hfinite, hlimit⟩
  have hj : r.Relies := fun x hx _ => hback x hx
  have hj' : ({ r with columns := some [] } : Request).Relies := fun x hx _ => hback x hx
  refine ⟨r, rfl, (hround r hr hj).1, ?_⟩
  intro htext
  cases ((hagree _ _ hr hj hr' hj').mp htext).columns

end Request

end QueryGateway
