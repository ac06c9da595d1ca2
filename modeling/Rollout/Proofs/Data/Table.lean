import Mathlib.Data.List.Nodup
import Rollout.Data.Table
import Rollout.Proofs.Data.Lookup

/-!
# Looking keys up in tables

What is bound after each operation on tables, and where.

* `Table.get?_insert`, `Table.get?_erase`, `Table.get?_modify`: one key changes, the others do not.
* `Table.ext_get?`: a table is told by what it binds.
* `Table.map_insert`, `Table.map_ofList`: other values at the same keys.
* `Table.get?_ofList`: the last binding of a list counts. `Table.toList_ofList_perm`: if the keys
  are different, all of them are kept. `Table.get?_ofList_filterMap_eq_some_iff`: some of the
  bindings of another table.
* `Table.pairwise_keys`, `Table.mem_keys_iff`, `Table.mem_keys_ofList`: the keys ascend, and which
  they are. `Table.eq_keys_iff`: that tells the list of them.
-/

namespace Rollout.Table

variable {β γ : Type}

theorem contains_iff {t : Table β} {k : String} : t.contains k = true ↔ ∃ v, t.get? k = some v := by
  rw [contains, Option.isSome_iff_exists]

@[simp] theorem get?_empty (k : String) : (empty : Table β).get? k = none := rfl

theorem lookup_insertEntry (k m : String) (v : β) (l : List (String × β)) :
    (insertEntry k v l).lookup m = if m = k then some v else l.lookup m := by
  induction l with
  | nil =>
    by_cases h : m = k
    · subst h
      simp [insertEntry]
    · rw [insertEntry, lookup_cons_of_ne h, if_neg h]
  | cons e l ih =>
    obtain ⟨k', v'⟩ := e
    rw [insertEntry]
    split
    · by_cases h : m = k
      · subst h
        simp
      · rw [lookup_cons_of_ne h, if_neg h]
    · split
      · next heq =>
        subst heq
        by_cases h : m = k
        · subst h
          simp
        · rw [lookup_cons_of_ne h, if_neg h, lookup_cons_of_ne h]
      · next hne =>
        by_cases h : m = k'
        · subst h
          rw [List.lookup_cons_self, if_neg (Ne.symm hne), List.lookup_cons_self]
        · rw [lookup_cons_of_ne h, ih, lookup_cons_of_ne h]

theorem get?_insert (t : Table β) (k m : String) (v : β) :
    (t.insert k v).get? m = if m = k then some v else t.get? m :=
  lookup_insertEntry k m v t.entries

theorem get?_erase (t : Table β) (k m : String) :
    (t.erase k).get? m = if m = k then none else t.get? m := by
  rw [get?, erase, lookup_filter_key fun m => decide (m ≠ k), get?]
  by_cases h : m = k
  · rw [if_pos h, if_neg (by simpa using h)]
  · rw [if_neg h, if_pos (by simpa using h)]

theorem get?_map (t : Table β) (f : β → γ) (k : String) : (t.map f).get? k = (t.get? k).map f :=
  lookup_map_value (fun _ => f) t.entries k

theorem get?_modify (t : Table β) (k m : String) (f : β → β) :
    (t.modify k f).get? m = if m = k then (t.get? m).map f else t.get? m := by
  have hl : (t.modify k f).get? m = (t.get? m).map fun v => if m = k then f v else v :=
    lookup_map_value (fun k' v => if k' = k then f v else v) t.entries m
  rw [hl]
  by_cases h : m = k
  · simp only [h, if_true]
  · simp only [h, if_false, Option.map_id']

theorem get?_modify_self {t : Table β} {k : String} {v : β} (h : t.get? k = some v) (f : β → β) :
    (t.modify k f).get? k = some (f v) := by
  rw [get?_modify, if_pos rfl, h, Option.map_some]

theorem get?_modify_of_ne (t : Table β) {k m : String} (h : m ≠ k) (f : β → β) :
    (t.modify k f).get? m = t.get? m := by
  rw [get?_modify, if_neg h]

theorem nodup_keys (t : Table β) : (t.entries.map (·.1)).Nodup := by
  rw [List.Nodup, List.pairwise_map]
  refine t.sorted.imp fun {a b} h heq => ?_
  rw [heq] at h
  exact String.lt_irrefl _ h

theorem get?_eq_some_iff {t : Table β} {k : String} {v : β} :
    t.get? k = some v ↔ (k, v) ∈ t.entries :=
  lookup_eq_some_iff_mem t.nodup_keys

theorem pairwise_keys (t : Table β) : t.keys.Pairwise (· < ·) := by
  unfold keys
  rw [List.pairwise_map]
  exact t.sorted

theorem mem_keys_iff {t : Table β} {k : String} : k ∈ t.keys ↔ ∃ v, t.get? k = some v := by
  unfold keys
  simp [get?_eq_some_iff]

/-- Tables that bind the same are the same: the order of the bindings is that of the keys. -/
theorem ext_get? {a b : Table β} (h : ∀ k, a.get? k = b.get? k) : a = b := by
  have hmem : ∀ e, e ∈ a.entries ↔ e ∈ b.entries := by
    rintro ⟨k, v⟩
    rw [← get?_eq_some_iff, ← get?_eq_some_iff, h k]
  have hperm : a.entries.Perm b.entries :=
    (List.perm_ext_iff_of_nodup (.of_map _ a.nodup_keys) (.of_map _ b.nodup_keys)).2 hmem
  refine Table.ext (hperm.eq_of_pairwise (fun x y _ _ hxy hyx => ?_) a.sorted b.sorted)
  exact absurd (String.lt_trans hxy hyx) (String.lt_irrefl _)

theorem map_insert (t : Table β) (f : β → γ) (k : String) (v : β) :
    (t.insert k v).map f = (t.map f).insert k (f v) := by
  refine ext_get? fun m => ?_
  rw [get?_map, get?_insert, get?_insert, get?_map]
  split <;> rfl

/-- The keys are told by which they are: the order of the list is that of the keys. -/
theorem eq_keys_iff {t : Table β} {l : List String} :
    l = t.keys ↔ l.Pairwise (· < ·) ∧ ∀ k, k ∈ l ↔ k ∈ t.keys := by
  constructor
  · rintro rfl
    exact ⟨t.pairwise_keys, fun _ => Iff.rfl⟩
  · rintro ⟨hl, hmem⟩
    have hkeys : t.keys.Nodup := t.nodup_keys
    have hnodup : l.Nodup := by
      refine hl.imp fun {a b} hab heq => ?_
      rw [heq] at hab
      exact String.lt_irrefl b hab
    apply ((List.perm_ext_iff_of_nodup hnodup hkeys).2 hmem).eq_of_pairwise _ hl t.pairwise_keys
    intro a b _ _ hab hba
    exact absurd (String.lt_trans hab hba) (String.lt_irrefl a)

/-- Later bindings of a list win. -/
theorem get?_ofList (l : List (String × β)) (k : String) :
    (ofList l).get? k = l.reverse.lookup k := by
  have key : ∀ (l : List (String × β)) (t : Table β),
      (l.foldl (fun t e => t.insert e.1 e.2) t).get? k = (l.reverse.lookup k).or (t.get? k) := by
    intro l
    induction l with
    | nil => intro t; rfl
    | cons e l ih =>
      intro t
      obtain ⟨k', v⟩ := e
      rw [List.foldl_cons, ih, get?_insert, List.reverse_cons, List.lookup_append, Option.or_assoc]
      congr 1
      by_cases h : k = k'
      · rw [if_pos h, h, List.lookup_cons_self]
        rfl
      · rw [if_neg h, lookup_cons_of_ne h]
        rfl
  rw [ofList, key, get?_empty, Option.or_none]

theorem get?_ofList_eq_some_iff {l : List (String × β)} (hl : (l.map (·.1)).Nodup) {k : String}
    {v : β} : (ofList l).get? k = some v ↔ (k, v) ∈ l := by
  rw [get?_ofList, lookup_eq_some_iff_mem, List.mem_reverse]
  rw [List.map_reverse]
  exact List.nodup_reverse.mpr hl

/-- What a table binds to some keys, in a table of its own. -/
theorem get?_ofList_filterMap_eq_some_iff {t : Table β} {names : List String}
    (hnames : names.Nodup) {n : String} {v : β} :
    (ofList (names.filterMap fun n => (t.get? n).map (n, ·))).get? n = some v ↔
      n ∈ names ∧ t.get? n = some v := by
  have hkeys : ((names.filterMap fun n => (t.get? n).map (n, ·)).map (·.1)).Nodup := by
    rw [List.map_filterMap]
    refine hnames.filterMap fun a b c ha hb => ?_
    simp only [Option.map_map, Option.mem_def, Option.map_eq_some_iff, Function.comp] at ha hb
    obtain ⟨_, -, rfl⟩ := ha
    obtain ⟨_, -, rfl⟩ := hb
    rfl
  rw [get?_ofList_eq_some_iff hkeys]
  simp only [List.mem_filterMap, Option.map_eq_some_iff, Prod.mk.injEq]
  constructor
  · rintro ⟨m, hm, w, hw, rfl, rfl⟩
    exact ⟨hm, hw⟩
  · rintro ⟨hn, hv⟩
    exact ⟨n, hn, v, hv, rfl, rfl⟩

/-- Bindings of different keys are all kept. -/
theorem toList_ofList_perm {l : List (String × β)} (hl : (l.map (·.1)).Nodup) :
    (ofList l).toList.Perm l := by
  have hkept : (ofList l).toList.Nodup := .of_map _ (ofList l).nodup_keys
  refine (List.perm_ext_iff_of_nodup hkept (.of_map _ hl)).2 ?_
  rintro ⟨k, v⟩
  unfold toList
  rw [← get?_eq_some_iff, get?_ofList_eq_some_iff hl]

theorem map_ofList (l : List (String × β)) (f : β → γ) :
    (ofList l).map f = ofList (l.map fun e => (e.1, f e.2)) := by
  have key : ∀ t : Table β, (l.foldl (fun t e => t.insert e.1 e.2) t).map f =
      (l.map fun e => (e.1, f e.2)).foldl (fun t e => t.insert e.1 e.2) (t.map f) := by
    induction l with
    | nil => exact fun _ => rfl
    | cons e l ih => exact fun t => (ih _).trans (by rw [map_insert]; rfl)
  exact key empty

theorem mem_keys_ofList {l : List (String × β)} {k : String} :
    k ∈ (ofList l).keys ↔ k ∈ l.map (·.1) := by
  rw [mem_keys_iff, get?_ofList]
  constructor
  · rintro ⟨v, hv⟩
    exact List.mem_map.2 ⟨_, List.mem_reverse.1 (mem_of_lookup_eq_some hv), rfl⟩
  · intro hk
    apply exists_lookup_eq_some
    rwa [List.map_reverse, List.mem_reverse]

end Rollout.Table
