import Mathlib.Data.List.Nodup

/-!
This module contains tables with a primary key: lists of rows in which no key occurs twice.
-/

structure Table {R K : Type} (key : R → K) where
  rows : List R
  nodup : (rows.map key).Nodup

namespace Table

variable {R K : Type} {key : R → K}

def empty : Table key := ⟨[], List.nodup_nil⟩

def deleteWhere (t : Table key) (p : R → Bool) : Table key where
  rows := t.rows.filter fun r => !p r
  nodup := (List.filter_sublist.map key).nodup t.nodup

variable [DecidableEq K]

def find? (t : Table key) (k : K) : Option R := t.rows.find? fun r => key r = k

theorem find?_eq_some_iff {t : Table key} {k : K} {r : R}
    : t.find? k = some r ↔ r ∈ t.rows ∧ key r = k := by
  constructor
  . intro h
    exact ⟨List.mem_of_find?_eq_some h, by simpa using List.find?_some h⟩
  . intro h
    rcases h with ⟨hmem, hkey⟩
    have hsome : (t.find? k).isSome = true := by
      rw [find?, List.find?_isSome]
      exact ⟨r, hmem, by simpa using hkey⟩
    rw [Option.isSome_iff_exists] at hsome
    rcases hsome with ⟨r', hr'⟩
    have hkey' : key r' = k := by simpa using List.find?_some hr'
    rw [hr', List.inj_on_of_nodup_map t.nodup (List.mem_of_find?_eq_some hr') hmem
      (by rw [hkey', hkey])]

theorem find?_eq_none_iff {t : Table key} {k : K} : t.find? k = none ↔ ∀ r ∈ t.rows, key r ≠ k := by
  simp [find?]

theorem ext_find? {t t' : Table key} {k : K} (h : ∀ r, key r = k → (r ∈ t.rows ↔ r ∈ t'.rows))
    : t.find? k = t'.find? k := by
  apply Option.ext
  intro r
  rw [find?_eq_some_iff, find?_eq_some_iff]
  constructor
  . intro hr
    exact ⟨(h r hr.2).mp hr.1, hr.2⟩
  . intro hr
    exact ⟨(h r hr.2).mpr hr.1, hr.2⟩

/--
`INSERT INTO t VALUES excluded ON CONFLICT(key) DO UPDATE SET update`.
-/
def upsert (t : Table key) (excluded : R) (update : R → R) (hupdate : ∀ r, key (update r) = key r)
    : Table key where
  rows :=
    if (t.find? (key excluded)).isSome then
      t.rows.map fun r => if key r = key excluded then update r else r
    else
      t.rows ++ [excluded]
  nodup := by
    split
    . rw [List.map_map]
      have hkey : key ∘ (fun r => if key r = key excluded then update r else r) = key := by
        funext r
        simp only [Function.comp_apply]
        split
        . exact hupdate r
        . rfl
      rw [hkey]
      exact t.nodup
    . next hnone =>
      rw [Option.not_isSome_iff_eq_none, find?_eq_none_iff] at hnone
      rw [List.map_append, List.nodup_append]
      refine ⟨t.nodup, by simp, ?_⟩
      intro k hk k' hk'
      rw [List.mem_map] at hk
      rcases hk with ⟨r, hr, hrk⟩
      simp only [List.map_cons, List.map_nil, List.mem_singleton] at hk'
      rw [← hrk, hk']
      exact hnone r hr

section Upsert

variable {t : Table key} {excluded : R} {update : R → R} {hupdate : ∀ r, key (update r) = key r}

theorem rows_upsert
    : (t.upsert excluded update hupdate).rows
        =
      if (t.find? (key excluded)).isSome then
        t.rows.map fun r => if key r = key excluded then update r else r
      else
        t.rows ++ [excluded] := rfl

theorem find?_upsert_self
    : (t.upsert excluded update hupdate).find? (key excluded)
        =
      some (((t.find? (key excluded)).map update).getD excluded) := by
  rw [find?_eq_some_iff, rows_upsert]
  cases hfind : t.find? (key excluded) with
  | none => simp
  | some r =>
    rw [find?_eq_some_iff] at hfind
    simp only [Option.isSome_some, ↓reduceIte, Option.map_some, Option.getD_some, List.mem_map]
    refine ⟨⟨r, hfind.1, by rw [if_pos hfind.2]⟩, ?_⟩
    rw [hupdate, hfind.2]

theorem mem_upsert_of_ne {r : R} (hne : key r ≠ key excluded)
    : r ∈ (t.upsert excluded update hupdate).rows ↔ r ∈ t.rows := by
  rw [rows_upsert]
  split
  . simp only [List.mem_map]
    constructor
    . intro h
      rcases h with ⟨r', hr', heq⟩
      split at heq
      . next hkey =>
        rw [← heq, hupdate] at hne
        exact absurd hkey hne
      . rwa [← heq]
    . intro h
      exact ⟨r, h, by rw [if_neg hne]⟩
  . rw [List.mem_append, List.mem_singleton]
    constructor
    . intro h
      cases h with
      | inl h => exact h
      | inr h =>
        rw [h] at hne
        exact absurd rfl hne
    . exact .inl

end Upsert

theorem find?_deleteWhere {t : Table key} {p : R → Bool} {k : K}
    : (t.deleteWhere p).find? k = (t.find? k).filter fun r => !p r := by
  apply Option.ext
  intro r
  rw [find?_eq_some_iff, Option.filter_eq_some_iff, find?_eq_some_iff]
  unfold deleteWhere
  rw [List.mem_filter]
  constructor
  . intro h
    exact ⟨⟨h.1.1, h.2⟩, h.1.2⟩
  . intro h
    exact ⟨⟨h.1.1, h.2⟩, h.1.2⟩

end Table
