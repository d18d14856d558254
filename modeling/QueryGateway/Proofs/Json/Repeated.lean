import Mathlib
import QueryGateway.Json.Reader

namespace QueryGateway.Json
set_option autoImplicit true

/-- The value that bytes write, with repeated members as they are written. -/
def writtenBytes? (bytes : ByteArray) : Option Json := do
  written? (← String.fromUTF8? bytes).toList

theorem readBytes?_eq (bytes : ByteArray) : readBytes? bytes = (writtenBytes? bytes).map merged := by
  unfold readBytes? writtenBytes?
  cases String.fromUTF8? bytes with
  | none => rfl
  | some s => rfl

def lastMember? (v : Json) (name : String) : Option Json :=
  v.members.reverse.lookup name

theorem mergedItems_eq (items : List Json) : mergedItems items = items.map merged := by
  induction items with
  | nil => rfl
  | cons v items ih => rw [mergedItems, ih, List.map_cons]

theorem mergedMembers_eq (ms : List (String × Json)) : mergedMembers ms = ms.map fun m => (m.1, merged m.2) := by
  induction ms with
  | nil => rfl
  | cons m ms ih => rw [mergedMembers, ih, List.map_cons]

theorem lookup_map_snd (f : α → β) (ms : List (String × α)) (name : String) :
    (ms.map fun m => (m.1, f m.2)).lookup name = (ms.lookup name).map f := by
  induction ms with
  | nil => rfl
  | cons m ms ih =>
    rw [List.map_cons, List.lookup_cons, List.lookup_cons, ih]
    cases name == m.1 <;> rfl

theorem lookup_putMember (name key : String) (value : α) (ms : List (String × α)) :
    (putMember name value ms).lookup key = if key == name then some value else ms.lookup key := by
  induction ms with
  | nil =>
    rw [putMember, List.lookup_cons]
    cases key == name <;> rfl
  | cons m ms ih =>
    obtain ⟨n, v⟩ := m
    rw [putMember]
    by_cases hn : n = name
    · rw [if_pos (beq_iff_eq.mpr hn), List.lookup_cons, List.lookup_cons, hn]
      cases key == name <;> rfl
    · rw [if_neg (mt beq_iff_eq.mp hn), List.lookup_cons, List.lookup_cons, ih]
      by_cases hk : key = n
      · rw [beq_iff_eq.mpr hk, hk, beq_false_of_ne hn]
        rfl
      · rw [beq_false_of_ne hk]

theorem lookup_lastWins (ms : List (String × α)) (name : String) :
    (lastWins ms).lookup name = ms.reverse.lookup name := by
  induction ms using List.reverseRecOn with
  | nil => rfl
  | append_singleton ms m ih =>
    rw [lastWins, List.foldl_append, List.reverse_append]
    change (putMember m.1 m.2 (lastWins ms)).lookup name = (m :: ms.reverse).lookup name
    rw [lookup_putMember, ih, List.lookup_cons]
    cases name == m.1 <;> rfl

theorem names_putMember (name : String) (value : α) (ms : List (String × α)) :
    (putMember name value ms).map Prod.fst =
      if name ∈ ms.map Prod.fst then ms.map Prod.fst else ms.map Prod.fst ++ [name] := by
  induction ms with
  | nil => rfl
  | cons m ms ih =>
    obtain ⟨n, v⟩ := m
    rw [putMember]
    by_cases hn : n = name
    · rw [if_pos (beq_iff_eq.mpr hn), List.map_cons, List.map_cons, if_pos (hn ▸ List.mem_cons_self)]
    · rw [if_neg (mt beq_iff_eq.mp hn), List.map_cons, List.map_cons, ih]
      by_cases hm : name ∈ ms.map Prod.fst
      · rw [if_pos hm, if_pos (List.mem_cons_of_mem n hm)]
      · rw [if_neg hm, if_neg (List.not_mem_cons_of_ne_of_not_mem (Ne.symm hn) hm), List.cons_append]

theorem nodup_lastWins (ms : List (String × α)) : ((lastWins ms).map Prod.fst).Nodup := by
  induction ms using List.reverseRecOn with
  | nil => exact List.nodup_nil
  | append_singleton ms m ih =>
    rw [lastWins, List.foldl_append]
    change ((putMember m.1 m.2 (lastWins ms)).map Prod.fst).Nodup
    rw [names_putMember]
    split
    · exact ih
    · next hm => exact List.nodup_append.mpr ⟨ih, List.pairwise_singleton _ _, fun a ha b hb hab =>
        hm (List.mem_singleton.mp hb ▸ hab ▸ ha)⟩

/-- What an object stands for has the last of the members of a name that are written. -/
theorem member?_merged (v : Json) (name : String) : v.merged.member? name = (v.lastMember? name).map merged := by
  cases v with
  | object ms =>
    change (lastWins (mergedMembers ms)).lookup name = _
    rw [lookup_lastWins, mergedMembers_eq, ← List.map_reverse, lookup_map_snd]
    rfl
  | _ => rfl

theorem mem_iff_lookup {ms : List (String × α)} (h : (ms.map Prod.fst).Nodup) :
    (name, v) ∈ ms ↔ ms.lookup name = some v := by
  induction ms with
  | nil => exact iff_of_false List.not_mem_nil nofun
  | cons m ms ih =>
    obtain ⟨n, w⟩ := m
    obtain ⟨hnot, hrest⟩ := List.nodup_cons.mp h
    rw [List.mem_cons, List.lookup_cons, Prod.mk.injEq]
    by_cases hn : name = n
    · have hnone : (name, v) ∉ ms := fun hm => hnot (List.mem_map.mpr ⟨(name, v), hm, hn⟩)
      rw [beq_iff_eq.mpr hn, or_iff_left hnone, and_iff_right hn]
      exact ⟨fun hv => congrArg some hv.symm, fun hv => (Option.some.inj hv).symm⟩
    · rw [beq_false_of_ne hn, or_iff_right fun heq => hn heq.1]
      exact ih hrest

end QueryGateway.Json
