import Mathlib.Data.List.Find
import Mathlib.Data.List.Nodup

namespace EventFlow

variable {V K : Type} [DecidableEq K]

/-- A table of rows with a primary key; no two rows share one. -/
structure Table (V : Type) {K : Type} (key : V → K) where
  rows : List V
  nodup : (rows.map key).Nodup

namespace Table

variable {key : V → K}

def empty : Table V key := ⟨[], List.nodup_nil⟩

/-- The row stored under a key. -/
def find? (t : Table V key) (k : K) : Option V := t.rows.find? fun r => key r = k

/-- The first row that satisfies a condition. -/
def findOne (t : Table V key) (p : V → Bool) : Option V := t.rows.find? p

private theorem map_replace_keys (rows : List V) (v : V) :
    (rows.map fun r => if key r = key v then v else r).map key = rows.map key := by
  rw [List.map_map]
  refine List.map_congr_left fun r _ => ?_
  rw [Function.comp_apply]
  split_ifs with h
  · exact h.symm
  · rfl

/-- Insert a row, or overwrite the one with its key. -/
def save (t : Table V key) (v : V) : Table V key :=
  if h : key v ∈ t.rows.map key then
    ⟨t.rows.map fun r => if key r = key v then v else r, by
      rw [map_replace_keys]
      exact t.nodup⟩
  else
    ⟨t.rows ++ [v], by
      rw [List.map_append, List.map_singleton]
      exact t.nodup.append (List.nodup_singleton _) (by simpa using h)⟩

theorem mem_save {t : Table V key} {v r : V} :
    r ∈ (t.save v).rows ↔ r = v ∨ r ∈ t.rows ∧ key r ≠ key v := by
  unfold save
  split_ifs with h
  · obtain ⟨w, hw, hwk⟩ := List.mem_map.mp h
    simp only [List.mem_map]
    constructor
    · rintro ⟨u, hu, rfl⟩
      split_ifs with huk
      · exact .inl rfl
      · exact .inr ⟨hu, huk⟩
    · rintro (rfl | ⟨hr, hk⟩)
      · exact ⟨w, hw, if_pos hwk⟩
      · exact ⟨r, hr, if_neg hk⟩
  · simp only [List.mem_append, List.mem_singleton]
    constructor
    · rintro (hr | rfl)
      · exact .inr ⟨hr, fun hk => h (hk ▸ List.mem_map_of_mem hr)⟩
      · exact .inl rfl
    · rintro (rfl | ⟨hr, -⟩)
      · exact .inr rfl
      · exact .inl hr

omit [DecidableEq K] in
/-- The key determines the row. -/
theorem eq_of_key_eq {t : Table V key} {r r' : V} (hr : r ∈ t.rows) (hr' : r' ∈ t.rows)
    (h : key r = key r') : r = r' :=
  List.inj_on_of_nodup_map t.nodup hr hr' h

theorem find?_eq_none {t : Table V key} {k : K} :
    t.find? k = none ↔ ∀ r ∈ t.rows, key r ≠ k := by
  simp [find?, List.find?_eq_none]

theorem find?_eq_some {t : Table V key} {k : K} {r : V} :
    t.find? k = some r ↔ r ∈ t.rows ∧ key r = k := by
  constructor
  · intro h
    exact ⟨List.mem_of_find?_eq_some h, by simpa using List.find?_some h⟩
  · rintro ⟨hr, rfl⟩
    cases hfind : t.find? (key r) with
    | none => exact absurd rfl (find?_eq_none.mp hfind r hr)
    | some r' =>
      have hk : key r' = key r := by simpa using List.find?_some hfind
      rw [eq_of_key_eq (List.mem_of_find?_eq_some hfind) hr hk]

theorem find?_save (t : Table V key) (v : V) (k : K) :
    (t.save v).find? k = if k = key v then some v else t.find? k := by
  split_ifs with h
  · exact find?_eq_some.mpr ⟨mem_save.mpr (.inl rfl), h.symm⟩
  · cases hfind : t.find? k with
    | none =>
      refine find?_eq_none.mpr fun r hr => ?_
      rcases mem_save.mp hr with rfl | ⟨hr', -⟩
      · exact Ne.symm h
      · exact find?_eq_none.mp hfind r hr'
    | some r =>
      obtain ⟨hr, rfl⟩ := find?_eq_some.mp hfind
      exact find?_eq_some.mpr ⟨mem_save.mpr (.inr ⟨hr, h⟩), rfl⟩

section Update

variable (t : Table V key) (p : K → Bool) (f : V → V)

omit [DecidableEq K] in
private theorem key_changed (hf : ∀ v, key (f v) = key v) (v : V) :
    key (if p (key v) then f v else v) = key v := by
  split_ifs
  · exact hf v
  · rfl

/-- Change every row whose key is selected, under the key it has. -/
def update (hf : ∀ v, key (f v) = key v) : Table V key :=
  ⟨t.rows.map fun r => if p (key r) then f r else r, by
    have hkeys : (t.rows.map fun r => if p (key r) then f r else r).map key = t.rows.map key := by
      rw [List.map_map]
      exact List.map_congr_left fun r _ => key_changed p f hf r
    rw [hkeys]
    exact t.nodup⟩

variable (hf : ∀ v, key (f v) = key v)

omit [DecidableEq K] in
theorem mem_update {r : V} :
    r ∈ (t.update p f hf).rows ↔ ∃ old ∈ t.rows, (if p (key old) then f old else old) = r :=
  List.mem_map

theorem find?_update (k : K) :
    (t.update p f hf).find? k = (t.find? k).map fun r => if p k then f r else r := by
  cases hfind : t.find? k with
  | none =>
    refine find?_eq_none.mpr fun r hr => ?_
    obtain ⟨old, hold, rfl⟩ := (mem_update t p f hf).mp hr
    rw [key_changed p f hf]
    exact find?_eq_none.mp hfind old hold
  | some r =>
    obtain ⟨hr, rfl⟩ := find?_eq_some.mp hfind
    exact find?_eq_some.mpr ⟨(mem_update t p f hf).mpr ⟨r, hr, rfl⟩, key_changed p f hf r⟩

end Update

omit [DecidableEq K] in
theorem findOne_eq_none {t : Table V key} {p : V → Bool} :
    t.findOne p = none ↔ ∀ r ∈ t.rows, p r = false := by
  simp [findOne, List.find?_eq_none]

omit [DecidableEq K] in
theorem findOne_spec {t : Table V key} {p : V → Bool} {r : V} (h : t.findOne p = some r) :
    r ∈ t.rows ∧ p r = true :=
  ⟨List.mem_of_find?_eq_some h, List.find?_some h⟩

section Groups

variable {t : Table V key} {v : V} {q : V → Bool}

theorem rows_save (t : Table V key) (v : V) :
    (t.save v).rows = if key v ∈ t.rows.map key then
      t.rows.map fun r => if key r = key v then v else r else t.rows ++ [v] := by
  unfold save
  split_ifs <;> rfl

/-- A row that takes the place of one in its group stays in it. -/
private theorem filter_replace (h : ∀ r ∈ t.rows, key r = key v → q r = q v) :
    (t.rows.map fun r => if key r = key v then v else r).filter q =
      (t.rows.filter q).map fun r => if key r = key v then v else r := by
  rw [List.filter_map]
  congr 1
  refine List.filter_congr fun r hr => ?_
  rw [Function.comp_apply]
  split_ifs with hk
  · exact (h r hr hk).symm
  · rfl

/-- A write under a key of a group is a write to the group. -/
theorem filter_save (hv : q v = true) (h : ∀ r ∈ t.rows, key r = key v → q r = true) :
    (t.save v).rows.filter q = if key v ∈ (t.rows.filter q).map key then
      (t.rows.filter q).map fun r => if key r = key v then v else r
      else t.rows.filter q ++ [v] := by
  have hmem : key v ∈ t.rows.map key ↔ key v ∈ (t.rows.filter q).map key := by
    simp only [List.mem_map, List.mem_filter]
    constructor
    · rintro ⟨r, hr, hk⟩
      exact ⟨r, ⟨hr, h r hr hk⟩, hk⟩
    · rintro ⟨r, ⟨hr, -⟩, hk⟩
      exact ⟨r, hr, hk⟩
  rw [rows_save]
  by_cases hk : key v ∈ t.rows.map key
  · rw [if_pos hk, if_pos (hmem.mp hk)]
    exact filter_replace fun r hr hrk => (h r hr hrk).trans hv.symm
  · rw [if_neg hk, if_neg (mt hmem.mpr hk), List.filter_append]
    simp [hv]

/-- A write outside of a group leaves it alone. -/
theorem filter_save_of_not (hv : q v = false) (h : ∀ r ∈ t.rows, key r = key v → q r = false) :
    (t.save v).rows.filter q = t.rows.filter q := by
  rw [rows_save]
  split_ifs with hk
  · rw [filter_replace fun r hr hrk => (h r hr hrk).trans hv.symm]
    have hsame : ∀ r ∈ t.rows.filter q, (if key r = key v then v else r) = r := by
      intro r hr
      obtain ⟨hrow, hq⟩ := List.mem_filter.mp hr
      refine if_neg fun hrk => ?_
      rw [h r hrow hrk] at hq
      cases hq
    exact (List.map_congr_left hsame).trans (List.map_id'' (fun _ => rfl) _)
  · rw [List.filter_append]
    simp [hv]

/-- A key of a group is looked up in the group. -/
theorem find?_filter {k : K} (h : ∀ r ∈ t.rows, key r = k → q r = true) :
    t.find? k = (t.rows.filter q).find? fun r => key r = k := by
  rw [find?, List.find?_filter]
  refine List.find?_congr fun r hr => ?_
  by_cases hk : key r = k
  · simp [hk, h r hr hk]
  · simp [hk]

end Groups

end Table

end EventFlow
