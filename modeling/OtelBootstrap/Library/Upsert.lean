import Mathlib.Data.List.Induction
import Mathlib.Data.List.Nodup

/-! # Lists written by key

`upsert` overwrites the entry of a key where it stands, or appends one. -/

namespace OtelBootstrap.Upsert

variable {κ α : Type*} [DecidableEq κ]

def upsert (key : κ) (value : α) : List (κ × α) → List (κ × α)
  | [] => [(key, value)]
  | entry :: entries =>
      if entry.1 = key then (entry.1, value) :: entries
      else entry :: upsert key value entries

/-- The entries after a sequence of writes. -/
def upserts (writes : List (κ × α)) : List (κ × α) :=
  writes.foldl (fun entries write => upsert write.1 write.2 entries) []

/-- The value of the last write of a key. -/
def latest (key : κ) : List (κ × α) → Option α
  | [] => none
  | write :: writes =>
      (latest key writes).or (if write.1 = key then some write.2 else none)

/-! ## Keys -/

theorem keys_upsert (key : κ) (value : α) (entries : List (κ × α)) :
    (upsert key value entries).map Prod.fst =
      if key ∈ entries.map Prod.fst then entries.map Prod.fst
      else entries.map Prod.fst ++ [key] := by
  induction entries with
  | nil => rfl
  | cons entry entries ih =>
      by_cases h : entry.1 = key
      · simp [upsert, h]
      · have hne : key ≠ entry.1 := fun he => h he.symm
        rw [upsert, if_neg h, List.map_cons, ih, List.map_cons]
        by_cases hmem : key ∈ entries.map Prod.fst
        · rw [if_pos hmem, if_pos (List.mem_cons_of_mem _ hmem)]
        · rw [if_neg hmem, if_neg (by simp [hne, hmem])]
          rfl

theorem nodup_upsert {entries : List (κ × α)} (h : (entries.map Prod.fst).Nodup) (key : κ)
    (value : α) : ((upsert key value entries).map Prod.fst).Nodup := by
  rw [keys_upsert]
  by_cases hmem : key ∈ entries.map Prod.fst
  · rw [if_pos hmem]
    exact h
  · rw [if_neg hmem, List.nodup_append]
    refine ⟨h, by simp, ?_⟩
    intro a ha b hb he
    apply hmem
    rw [← List.mem_singleton.mp hb, ← he]
    exact ha

theorem upserts_snoc (writes : List (κ × α)) (write : κ × α) :
    upserts (writes ++ [write]) = upsert write.1 write.2 (upserts writes) := by
  simp [upserts]

/-- However often keys are written, each is held once. -/
theorem nodup_upserts (writes : List (κ × α)) : ((upserts writes).map Prod.fst).Nodup := by
  induction writes using List.reverseRecOn with
  | nil => exact List.nodup_nil
  | append_singleton writes write ih =>
      rw [upserts_snoc]
      exact nodup_upsert ih write.1 write.2

/-! ## Entries -/

theorem latest_eq_none {key : κ} {writes : List (κ × α)} :
    latest key writes = none ↔ key ∉ writes.map Prod.fst := by
  induction writes with
  | nil => simp [latest]
  | cons write writes ih =>
      rw [latest, Option.or_eq_none_iff, ih, List.map_cons, List.mem_cons, not_or]
      by_cases h : write.1 = key
      · simp [h]
      · have hne : key ≠ write.1 := fun he => h he.symm
        simp [h, hne]

/-- A write after which its key is not written is the last one. -/
theorem latest_of_last (before after : List (κ × α)) {key : κ} (value : α)
    (h : key ∉ after.map Prod.fst) :
    latest key (before ++ (key, value) :: after) = some value := by
  induction before with
  | nil => rw [List.nil_append, latest, latest_eq_none.mpr h, if_pos rfl, Option.none_or]
  | cons first before ih => rw [List.cons_append, latest, ih, Option.some_or]

/-- Where no key repeats, every entry is the last write of its key. -/
theorem latest_of_mem {entries : List (κ × α)} (h : (entries.map Prod.fst).Nodup) {key : κ}
    {value : α} (hmem : (key, value) ∈ entries) : latest key entries = some value := by
  induction entries with
  | nil => cases hmem
  | cons entry entries ih =>
      rw [List.map_cons, List.nodup_cons] at h
      rcases List.mem_cons.mp hmem with rfl | hmem
      · rw [latest, latest_eq_none.mpr h.1]
        simp
      · rw [latest, ih h.2 hmem]
        rfl

theorem mem_upsert {entries : List (κ × α)} (h : (entries.map Prod.fst).Nodup) {key k : κ}
    {value v : α} :
    (k, v) ∈ upsert key value entries ↔ (k = key ∧ v = value) ∨ (k ≠ key ∧ (k, v) ∈ entries) := by
  induction entries with
  | nil => simp [upsert]
  | cons entry entries ih =>
      rcases entry with ⟨k', v'⟩
      rw [List.map_cons, List.nodup_cons] at h
      by_cases hk : k' = key
      · subst k'
        have hkey : ∀ v, (key, v) ∉ entries :=
          fun v hv => h.1 (List.mem_map.mpr ⟨_, hv, rfl⟩)
        rw [upsert, if_pos rfl, List.mem_cons, List.mem_cons, Prod.mk.injEq, Prod.mk.injEq]
        by_cases hkk : k = key
        · subst k
          simp [hkey]
        · simp [hkk]
      · rw [upsert, if_neg hk, List.mem_cons, List.mem_cons, ih h.2, Prod.mk.injEq]
        by_cases hkk : k = key
        · subst k
          have hne : key ≠ k' := fun he => hk he.symm
          simp [hne]
        · simp [hkk]

theorem latest_snoc (key : κ) (writes : List (κ × α)) (write : κ × α) :
    latest key (writes ++ [write]) =
      if write.1 = key then some write.2 else latest key writes := by
  induction writes with
  | nil =>
      by_cases h : write.1 = key <;> simp [latest, h]
  | cons first writes ih =>
      rw [List.cons_append, latest, ih, latest]
      by_cases h : write.1 = key <;> simp [h]

/-- A key holds the value of its last write. -/
theorem mem_upserts {writes : List (κ × α)} {key : κ} {value : α} :
    (key, value) ∈ upserts writes ↔ latest key writes = some value := by
  induction writes using List.reverseRecOn with
  | nil => simp [upserts, latest]
  | append_singleton writes write ih =>
      rw [upserts_snoc, mem_upsert (nodup_upserts writes), ih, latest_snoc]
      by_cases h : write.1 = key
      · subst key
        simp [eq_comm]
      · have hne : key ≠ write.1 := fun he => h he.symm
        simp [h, hne]

/-- Keeping the writes of some keys keeps the last write of each of them. -/
theorem latest_filter (p : κ → Bool) (key : κ) (writes : List (κ × α)) :
    latest key (writes.filter fun write => p write.1) =
      if p key then latest key writes else none := by
  induction writes with
  | nil => simp [latest]
  | cons write writes ih =>
      by_cases hp : p write.1 = true
      · simp only [List.filter_cons, if_pos hp, latest, ih]
        by_cases hk : write.1 = key
        · subst key
          simp [hp]
        · by_cases hkey : p key = true <;> simp [hk, hkey]
      · simp only [List.filter_cons, if_neg hp, ih, latest]
        by_cases hk : write.1 = key
        · subst key
          simp [hp]
        · simp [hk]

theorem mem_keys_upserts {writes : List (κ × α)} {key : κ} :
    key ∈ (upserts writes).map Prod.fst ↔ key ∈ writes.map Prod.fst := by
  induction writes using List.reverseRecOn with
  | nil => rfl
  | append_singleton writes write ih =>
      rw [upserts_snoc, keys_upsert, List.map_append, List.mem_append, ← ih]
      by_cases hmem : write.1 ∈ (upserts writes).map Prod.fst
      · rw [if_pos hmem]
        constructor
        · exact Or.inl
        · rintro (h | h)
          · exact h
          · rw [List.map_singleton, List.mem_singleton] at h
            rw [h]
            exact hmem
      · rw [if_neg hmem, List.mem_append]
        rfl

end OtelBootstrap.Upsert
