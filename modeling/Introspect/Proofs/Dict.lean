import Introspect.Dict
import Mathlib.Data.List.Nodup

/-!
The keys of a dictionary, and what is found under them.

* `mem_keys_iff`: the keys are those under which something is found.
* `nodup_keys_insert`: writes at keys never write one twice.
* `mem_entries_iff`: in a dictionary without a key twice the entries are what is found.
-/

namespace Introspect.Dict

variable {κ α : Type} [DecidableEq κ]

theorem mem_keys_iff {d : Dict κ α} {k : κ} : k ∈ d.keys ↔ ∃ v, d.find? k = some v := by
  obtain ⟨es⟩ := d
  simp only [keys, find?]
  induction es with
  | nil => simp [lookupEntry]
  | cons e es ih =>
    by_cases hk : k = e.1
    · simp [lookupEntry, hk]
    · simp only [List.map_cons, List.mem_cons, hk, false_or, lookupEntry, if_false]
      exact ih

theorem mem_of_find? {d : Dict κ α} {k : κ} {v : α} (h : d.find? k = some v) :
    (k, v) ∈ d.entries := by
  obtain ⟨es⟩ := d
  simp only [find?] at h
  induction es with
  | nil => cases h
  | cons e es ih =>
    by_cases hk : k = e.1
    · simp only [lookupEntry, if_pos hk, Option.some.injEq] at h
      rw [hk, ← h]
      exact List.mem_cons_self
    · simp only [lookupEntry, if_neg hk] at h
      exact List.mem_cons_of_mem e (ih h)

theorem keys_insert_of_not_mem {d : Dict κ α} {k : κ} (v : α) (h : k ∉ d.keys) :
    (d.insert k v).keys = d.keys ++ [k] := by
  obtain ⟨es⟩ := d
  simp only [keys] at h
  simp only [keys, insert]
  induction es with
  | nil => rfl
  | cons e es ih =>
    rw [List.map_cons, List.mem_cons, not_or] at h
    obtain ⟨hk, hrest⟩ := h
    simp only [putEntry, if_neg hk, List.map_cons, ih hrest, List.cons_append]

theorem nodup_keys_insert {d : Dict κ α} (h : d.keys.Nodup) (k : κ) (v : α) :
    (d.insert k v).keys.Nodup := by
  by_cases hk : k ∈ d.keys
  · obtain ⟨u, hu⟩ := mem_keys_iff.1 hk
    have hcontains : d.contains k = true := by simp only [contains, hu, Option.isSome_some]
    rw [keys_insert_of_contains d k v hcontains]
    exact h
  · rw [keys_insert_of_not_mem v hk, List.nodup_append]
    refine ⟨h, List.nodup_singleton k, fun a ha b hb hab => hk ?_⟩
    rw [← List.mem_singleton.1 hb, ← hab]
    exact ha

theorem mem_entries_iff {d : Dict κ α} (h : d.keys.Nodup) {k : κ} {v : α} :
    (k, v) ∈ d.entries ↔ d.find? k = some v := by
  obtain ⟨es⟩ := d
  simp only [keys] at h
  simp only [find?]
  induction es with
  | nil => simp [lookupEntry]
  | cons e es ih =>
    rw [List.map_cons, List.nodup_cons] at h
    obtain ⟨hfirst, hrest⟩ := h
    by_cases hk : k = e.1
    · -- the first entry is the only one with this key
      have hnot : (k, v) ∉ es := fun hin => hfirst (hk ▸ List.mem_map_of_mem hin)
      simp only [List.mem_cons, hnot, or_false, lookupEntry, if_pos hk, Option.some.injEq]
      constructor
      · intro he
        rw [← he]
      · intro he
        rw [hk, ← he]
    · have hne : (k, v) ≠ e := fun he => hk (by rw [← he])
      simp only [List.mem_cons, hne, false_or, lookupEntry, if_neg hk]
      exact ih hrest

end Introspect.Dict
