import Mathlib.Data.List.Basic

/-!
# Looking keys up in association lists

What `List.lookup` finds after the values of a list have been changed or some of its keys have been
dropped. Graphs and tables are association lists, so their operations are told by these lemmas.

* `lookup_map_value`: values sent through a function that may look at the key.
* `lookup_map_self`: members of a list bound to what a function makes of them.
* `lookup_filter_key`: only the keys with some property.
* `lookup_eq_some_iff_mem`: a list whose keys are distinct binds what it contains. So it binds the
  same in another order (`lookup_eq_of_perm`).
-/

namespace Rollout

variable {α β γ : Type} [DecidableEq α]

theorem lookup_cons_of_ne {k k' : α} (h : k ≠ k') (v : β) (l : List (α × β)) :
    ((k', v) :: l).lookup k = l.lookup k := by
  rw [List.lookup_cons, beq_false_of_ne h]

theorem lookup_map_value (f : α → β → γ) (l : List (α × β)) (k : α) :
    (l.map fun e => (e.1, f e.1 e.2)).lookup k = (l.lookup k).map (f k) := by
  induction l with
  | nil => rfl
  | cons e l ih =>
    obtain ⟨k', v⟩ := e
    by_cases h : k = k'
    · subst h
      simp
    · rw [List.map_cons, lookup_cons_of_ne h, lookup_cons_of_ne h]
      exact ih

theorem lookup_map_self (f : α → β) {l : List α} {n : α} (hn : n ∈ l) :
    (l.map fun n => (n, f n)).lookup n = some (f n) := by
  induction l with
  | nil => exact absurd hn List.not_mem_nil
  | cons a l ih =>
    by_cases h : n = a
    · subst h
      exact List.lookup_cons_self
    · rw [List.map_cons, lookup_cons_of_ne h]
      exact ih ((List.mem_cons.1 hn).resolve_left h)

theorem lookup_filter_key (p : α → Bool) (l : List (α × β)) (k : α) :
    (l.filter fun e => p e.1).lookup k = if p k then l.lookup k else none := by
  induction l with
  | nil => simp
  | cons e l ih =>
    obtain ⟨k', v⟩ := e
    by_cases h : k = k'
    · subst h
      cases hp : p k <;> simp [hp, ih]
    · cases hp : p k' <;> simp [hp, lookup_cons_of_ne h, ih]

theorem mem_of_lookup_eq_some {l : List (α × β)} {k : α} {v : β} (h : l.lookup k = some v) :
    (k, v) ∈ l := by
  obtain ⟨l₁, l₂, rfl, -⟩ := List.lookup_eq_some_iff.1 h
  simp

/-- A list whose keys are distinct binds exactly what it contains. -/
theorem lookup_eq_some_iff_mem {l : List (α × β)} (hl : (l.map (·.1)).Nodup) {k : α} {v : β} :
    l.lookup k = some v ↔ (k, v) ∈ l := by
  refine ⟨mem_of_lookup_eq_some, fun h => ?_⟩
  induction l with
  | nil => simp at h
  | cons e l ih =>
    obtain ⟨k', v'⟩ := e
    obtain ⟨hne, hl⟩ := List.nodup_cons.1 hl
    rcases List.mem_cons.1 h with he | hv
    · cases he
      simp
    · have hk : k ≠ k' := by
        rintro rfl
        exact hne (List.mem_map.2 ⟨_, hv, rfl⟩)
      rw [lookup_cons_of_ne hk]
      exact ih hl hv

theorem lookup_eq_of_perm {l l' : List (α × β)} (h : l.Perm l') (hl : (l.map (·.1)).Nodup) (k : α) :
    l.lookup k = l'.lookup k := by
  ext v
  rw [lookup_eq_some_iff_mem hl, lookup_eq_some_iff_mem ((h.map _).nodup_iff.1 hl), h.mem_iff]

theorem exists_lookup_eq_some {l : List (α × β)} {k : α} (h : k ∈ l.map (·.1)) :
    ∃ v, l.lookup k = some v := by
  cases hv : l.lookup k with
  | some v => exact ⟨v, rfl⟩
  | none =>
    obtain ⟨e, he, rfl⟩ := List.mem_map.1 h
    simpa using List.lookup_eq_none_iff.1 hv e he

end Rollout
