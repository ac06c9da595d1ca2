import Mathlib.Data.List.Forall2
import Rollout.Json.Basic
import Rollout.Proofs.Data.Lookup

/-!
# Values up to the order of their fields

An object is the same whatever the order of its fields, and so are values that have objects in them.

* `Json.Reordered`: the same value, with fields in another order.
* `Reordered.eq_str`, `Reordered.eq_nat`, `Reordered.eq_ofTexts`: what has no fields stays as it is.
* `Reordered.exists_field?`, `Reordered.field?_eq`: a field keeps its value, up to the order inside
  of it. A missing field is missing still (`Reordered.field?_eq_none`).
-/

namespace Rollout.Json

/-- The same value, the fields of its objects in whatever order. The values of the fields are
reordered first, then the fields. -/
inductive Reordered : Json → Json → Prop where
  | refl (value : Json) : Reordered value value
  | arr {items items' : List Json} (each : List.Forall₂ Reordered items items') :
      Reordered (.arr items) (.arr items')
  | obj {fields turned fields' : List (String × Json)}
      (names : fields.map (·.1) = turned.map (·.1))
      (values : List.Forall₂ Reordered (fields.map (·.2)) (turned.map (·.2)))
      (perm : turned.Perm fields') : Reordered (.obj fields) (.obj fields')

/-- Lists with the same keys and related values bind a key to related values. -/
theorem rel_lookup {r : Json → Json → Prop} {l l' : List (String × Json)}
    (names : l.map (·.1) = l'.map (·.1))
    (values : List.Forall₂ r (l.map (·.2)) (l'.map (·.2))) (name : String) :
    Option.Rel r (l.lookup name) (l'.lookup name) := by
  induction l generalizing l' with
  | nil =>
    obtain rfl : l' = [] := List.map_eq_nil_iff.1 names.symm
    exact .none
  | cons x l ih =>
    obtain ⟨k, v⟩ := x
    cases l' with
    | nil => cases names
    | cons x' l' =>
      obtain ⟨k', v'⟩ := x'
      rw [List.map_cons, List.map_cons, List.cons.injEq] at names
      obtain ⟨rfl : k = k', names⟩ := names
      obtain ⟨hvalue, values⟩ := List.forall₂_cons.1 values
      by_cases hname : name = k
      · subst hname
        rw [List.lookup_cons_self, List.lookup_cons_self]
        exact .some hvalue
      · rw [lookup_cons_of_ne hname, lookup_cons_of_ne hname]
        exact ih names values

namespace Reordered

variable {v : Json}

theorem eq_str {s : String} (h : Reordered (.str s) v) : v = .str s := by
  cases h
  rfl

theorem eq_nat {n : Nat} (h : Reordered (.nat n) v) : v = .nat n := by
  cases h
  rfl

theorem eq_ofOption_str {s : Option String} (h : Reordered (ofOption .str s) v) :
    v = ofOption .str s := by
  cases s <;> cases h <;> rfl

theorem eq_ofTexts {texts : List String} (h : Reordered (ofTexts texts) v) :
    v = ofTexts texts := by
  unfold ofTexts at h ⊢
  cases h with
  | refl => rfl
  | @arr _ items' each =>
    congr 1
    induction texts generalizing items' with
    | nil => exact List.forall₂_nil_left_iff.1 each
    | cons s texts ih =>
      obtain ⟨w, rest, hs, hrest, rfl⟩ := List.forall₂_cons_left_iff.1 each
      rw [hs.eq_str, ih hrest]
      rfl

section Fields

variable {fields : List (String × Json)}

/-- The fields the other way round. -/
theorem reverse {turned : List (String × Json)} (names : fields.map (·.1) = turned.map (·.1))
    (values : List.Forall₂ Reordered (fields.map (·.2)) (turned.map (·.2))) :
    Reordered (.obj fields) (.obj turned.reverse) :=
  .obj names values (List.reverse_perm turned).symm

theorem exists_obj (h : Reordered (.obj fields) v) : ∃ fields', v = .obj fields' := by
  cases h with
  | refl => exact ⟨_, rfl⟩
  | obj => exact ⟨_, rfl⟩

theorem rel_field? (h : Reordered (.obj fields) v) (hdistinct : (fields.map (·.1)).Nodup)
    (name : String) : Option.Rel Reordered (fields.lookup name) (v.field? name) := by
  cases h with
  | refl =>
    show Option.Rel _ (fields.lookup name) (fields.lookup name)
    cases fields.lookup name with
    | none => exact .none
    | some w => exact .some (.refl w)
  | obj names values perm =>
    show Option.Rel _ (fields.lookup name) (List.lookup name _)
    rw [← lookup_eq_of_perm perm (names ▸ hdistinct)]
    exact rel_lookup names values name

/-- A field keeps its value, up to the order of fields inside of it. -/
theorem exists_field? (h : Reordered (.obj fields) v) (hdistinct : (fields.map (·.1)).Nodup)
    (name : String) {value : Json} (hvalue : fields.lookup name = some value) :
    ∃ value', v.field? name = some value' ∧ Reordered value value' := by
  have hrel := h.rel_field? hdistinct name
  rw [hvalue] at hrel
  generalize v.field? name = found at hrel
  cases hrel with
  | some hr => exact ⟨_, rfl, hr⟩

/-- A field whose value has no fields to reorder keeps it. -/
theorem field?_eq (h : Reordered (.obj fields) v) (hdistinct : (fields.map (·.1)).Nodup)
    (name : String) {value : Json} (hvalue : fields.lookup name = some value)
    (hfixed : ∀ {w}, Reordered value w → w = value) : v.field? name = some value := by
  obtain ⟨value', hfield, hr⟩ := h.exists_field? hdistinct name hvalue
  rw [hfield, hfixed hr]

/-- A field that is missing is missing still. -/
theorem field?_eq_none (h : Reordered (.obj fields) v) (hdistinct : (fields.map (·.1)).Nodup)
    (name : String) (hmissing : fields.lookup name = none) : v.field? name = none := by
  have hrel := h.rel_field? hdistinct name
  rw [hmissing] at hrel
  generalize v.field? name = found at hrel
  cases hrel
  rfl

end Fields

end Reordered

end Rollout.Json
