import Mathlib.Data.Finmap
import Mathlib.Data.List.Nodup

namespace KeyedRows

variable {α κ V : Type} [DecidableEq κ] (key : α → κ)

def lookup (k : κ) (rows : List α) : Option α := rows.find? (fun row => decide (key row = k))

def modify (k : κ) (f : α → α) : List α → List α
  | [] => []
  | row :: rows => if key row = k then f row :: rows else row :: modify k f rows

def upsert (overwrite : α → α → α) (new : α) (rows : List α) : List α :=
  match lookup key (key new) rows with
  | some _ => modify key (key new) (overwrite new) rows
  | none => rows ++ [new]

@[simp] theorem lookup_nil (k : κ) : lookup key k [] = none := rfl

theorem lookup_cons (k : κ) (row : α) (rows : List α) :
    lookup key k (row :: rows) = if key row = k then some row else lookup key k rows := by
  by_cases h : key row = k <;> simp [lookup, h]

theorem lookup_eq_none_iff {k : κ} {rows : List α} :
    lookup key k rows = none ↔ k ∉ rows.map key := by
  simp [lookup, List.find?_eq_none]

theorem lookup_isSome_iff {k : κ} {rows : List α} :
    (lookup key k rows).isSome ↔ k ∈ rows.map key := by
  rw [← Option.ne_none_iff_isSome, ne_eq, lookup_eq_none_iff, not_not]

theorem key_of_lookup {k : κ} {rows : List α} {row : α} (h : lookup key k rows = some row) :
    key row = k := by
  simpa using List.find?_some h

theorem lookup_eq_some_iff {k : κ} {rows : List α} {row : α} (hn : (rows.map key).Nodup) :
    lookup key k rows = some row ↔ row ∈ rows ∧ key row = k := by
  refine ⟨fun h => ⟨List.mem_of_find?_eq_some h, key_of_lookup key h⟩, fun ⟨hm, hk⟩ => ?_⟩
  subst hk
  obtain ⟨found, hf⟩ := Option.isSome_iff_exists.mp
    ((lookup_isSome_iff key).mpr (List.mem_map_of_mem hm))
  have he : found = row :=
    List.inj_on_of_nodup_map hn (List.mem_of_find?_eq_some hf) hm (key_of_lookup key hf)
  rw [hf, he]

theorem lookup_append_singleton (k : κ) (rows : List α) (new : α)
    (h : key new ∉ rows.map key) :
    lookup key k (rows ++ [new]) = if k = key new then some new else lookup key k rows := by
  by_cases hk : k = key new
  · subst hk
    have hn := (lookup_eq_none_iff key).mpr h
    simp only [lookup] at hn
    simp [lookup, List.find?_append, hn]
  · simp [lookup, List.find?_append, hk, Ne.symm hk]

variable {f : α → α} {k : κ}

theorem map_key_modify (hf : ∀ row, key row = k → key (f row) = k) (rows : List α) :
    (modify key k f rows).map key = rows.map key := by
  induction rows with
  | nil => rfl
  | cons row rows ih =>
    by_cases h : key row = k
    · simp [modify, h, hf row h]
    · simp [modify, h, ih]

theorem lookup_modify_self (hf : ∀ row, key row = k → key (f row) = k) (rows : List α) :
    lookup key k (modify key k f rows) = (lookup key k rows).map f := by
  induction rows with
  | nil => rfl
  | cons row rows ih =>
    by_cases h : key row = k
    · simp [modify, lookup_cons, h, hf row h]
    · simp [modify, lookup_cons, h, ih]

theorem lookup_modify_other (hf : ∀ row, key row = k → key (f row) = k) {j : κ} (hj : j ≠ k)
    (rows : List α) : lookup key j (modify key k f rows) = lookup key j rows := by
  induction rows with
  | nil => rfl
  | cons row rows ih =>
    by_cases h : key row = k
    · simp [modify, lookup_cons, h, hf row h, hj.symm]
    · simp [modify, lookup_cons, h, ih]

section Upsert

variable {overwrite : α → α → α}

def Overwrites (overwrite : α → α → α) : Prop :=
  ∀ new old, key old = key new → overwrite new old = new

theorem lookup_upsert (ho : Overwrites key overwrite) (new : α) (rows : List α) (k : κ) :
    lookup key k (upsert key overwrite new rows) =
      if k = key new then some new else lookup key k rows := by
  have hf : ∀ row, key row = key new → key (overwrite new row) = key new :=
    fun row hr => congrArg key (ho new row hr)
  cases hl : lookup key (key new) rows with
  | none =>
    simp only [upsert, hl]
    exact lookup_append_singleton key k rows new ((lookup_eq_none_iff key).mp hl)
  | some row =>
    simp only [upsert, hl]
    by_cases hk : k = key new
    · subst hk
      rw [lookup_modify_self key hf, hl]
      simp [ho new row (key_of_lookup key hl)]
    · rw [lookup_modify_other key hf hk, if_neg hk]

theorem nodup_upsert (ho : Overwrites key overwrite) (new : α) {rows : List α}
    (h : (rows.map key).Nodup) : ((upsert key overwrite new rows).map key).Nodup := by
  have hf : ∀ row, key row = key new → key (overwrite new row) = key new :=
    fun row hr => congrArg key (ho new row hr)
  cases hl : lookup key (key new) rows with
  | none =>
    have hn := (lookup_eq_none_iff key).mp hl
    simp only [upsert, hl, List.map_append, List.map_cons, List.map_nil]
    rw [List.nodup_append_comm]
    simpa using ⟨by simpa using hn, h⟩
  | some row => simpa only [upsert, hl, map_key_modify key hf] using h

end Upsert

structure Represents (value : α → V) (rows : List α) (m : Finmap fun _ : κ => V) : Prop where
  nodup : (rows.map key).Nodup
  lookup : ∀ k, (lookup key k rows).map value = m.lookup k

namespace Represents

variable {value : α → V} {rows : List α} {m : Finmap fun _ : κ => V}

theorem empty : Represents key value [] ∅ := ⟨.nil, fun k => by simp⟩

theorem upsert {overwrite : α → α → α} (ho : Overwrites key overwrite) (new : α)
    (h : Represents key value rows m) :
    Represents key value (upsert key overwrite new rows) (m.insert (key new) (value new)) := by
  refine ⟨nodup_upsert key ho new h.nodup, fun k => ?_⟩
  rw [lookup_upsert key ho]
  by_cases hk : k = key new
  · subst hk; simp
  · simp [hk, Finmap.lookup_insert_of_ne, h.lookup k]

theorem mem_iff (h : Represents key value rows m) (k : κ) : k ∈ m ↔ k ∈ rows.map key := by
  rw [← Finmap.lookup_isSome, ← h.lookup k, Option.isSome_map, lookup_isSome_iff]

theorem length_eq (h : Represents key value rows m) : rows.length = m.keys.card := by
  have hk : m.keys = (rows.map key).toFinset := by
    ext k
    rw [Finmap.mem_keys, h.mem_iff, List.mem_toFinset]
  rw [hk, List.toFinset_card_of_nodup h.nodup, List.length_map]

end Represents

end KeyedRows
