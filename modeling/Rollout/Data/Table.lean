/-!
# Tables keyed by text

A table binds texts to values and lists its bindings in ascending order of the keys, code point by
code point. The order is part of the type, so two tables with the same bindings are equal.

* `get?`, `insert`, `erase`: looking up, binding and unbinding one key.
* `toList` and `keys`: the bindings and the keys in order.
-/

namespace Rollout

/-- Texts bound to values, in ascending order of the keys. -/
@[ext]
structure Table (β : Type) where
  /-- The bindings. -/
  entries : List (String × β)
  /-- The keys ascend strictly, so each occurs once. -/
  sorted : entries.Pairwise (fun a b => a.1 < b.1)

namespace Table

variable {β γ : Type}

instance [DecidableEq β] : DecidableEq (Table β) := fun a b =>
  decidable_of_iff (a.entries = b.entries) Table.ext_iff.symm

instance : Inhabited (Table β) := ⟨⟨[], .nil⟩⟩

/-- The table without bindings. -/
def empty : Table β := ⟨[], .nil⟩

instance : EmptyCollection (Table β) := ⟨empty⟩

/-- The bindings in order. -/
def toList (t : Table β) : List (String × β) := t.entries

/-- The keys in order. -/
def keys (t : Table β) : List String := t.entries.map (·.1)

/-- The values in the order of their keys. -/
def values (t : Table β) : List β := t.entries.map (·.2)

/-- The number of bindings. -/
def size (t : Table β) : Nat := t.entries.length

/-- No binding at all. -/
def isEmpty (t : Table β) : Bool := t.entries.isEmpty

/-- The value bound to `k`. -/
def get? (t : Table β) (k : String) : Option β := t.entries.lookup k

/-- Some value is bound to `k`. -/
def contains (t : Table β) (k : String) : Bool := (t.get? k).isSome

/-- A sorted list of bindings with `k` bound to `v`. -/
def insertEntry (k : String) (v : β) : List (String × β) → List (String × β)
  | [] => [(k, v)]
  | (k', v') :: rest =>
    if k < k' then (k, v) :: (k', v') :: rest
    else if k = k' then (k, v) :: rest
    else (k', v') :: insertEntry k v rest

theorem mem_insertEntry {k : String} {v : β} {e : String × β} {l : List (String × β)}
    (h : e ∈ insertEntry k v l) : e = (k, v) ∨ e ∈ l := by
  induction l with
  | nil => simpa [insertEntry] using h
  | cons a rest ih =>
    simp only [insertEntry] at h
    split at h
    · simpa using h
    · split at h
      · simp only [List.mem_cons] at h ⊢
        rcases h with h | h
        · exact .inl h
        · exact .inr (.inr h)
      · simp only [List.mem_cons] at h ⊢
        rcases h with h | h
        · exact .inr (.inl h)
        · exact (ih h).imp_right .inr

theorem sorted_insertEntry {k : String} {v : β} {l : List (String × β)}
    (h : l.Pairwise (fun a b => a.1 < b.1)) :
    (insertEntry k v l).Pairwise (fun a b => a.1 < b.1) := by
  induction l with
  | nil => simp [insertEntry]
  | cons a rest ih =>
    obtain ⟨ha, hrest⟩ := List.pairwise_cons.1 h
    simp only [insertEntry]
    split
    · next hlt =>
      refine List.pairwise_cons.2 ⟨fun e he => ?_, h⟩
      rcases List.mem_cons.1 he with rfl | he
      · exact hlt
      · exact String.lt_trans hlt (ha e he)
    · next hlt =>
      split
      · next heq =>
        subst heq
        exact List.pairwise_cons.2 ⟨ha, hrest⟩
      · next hne =>
        refine List.pairwise_cons.2 ⟨fun e he => ?_, ih hrest⟩
        rcases mem_insertEntry he with rfl | he
        · exact String.not_le.1 fun hle => hne (String.le_antisymm hle (String.not_lt.1 hlt))
        · exact ha e he

/-- The table with `k` bound to `v`, whatever was bound before. -/
def insert (t : Table β) (k : String) (v : β) : Table β :=
  ⟨insertEntry k v t.entries, sorted_insertEntry t.sorted⟩

/-- The table without a binding of `k`. -/
def erase (t : Table β) (k : String) : Table β :=
  ⟨t.entries.filter (·.1 ≠ k), t.sorted.sublist List.filter_sublist⟩

/-- The table with the bindings of a list, of which later ones win. -/
def ofList (l : List (String × β)) : Table β := l.foldl (fun t e => t.insert e.1 e.2) empty

/-- The table with each value sent through `f`, which may look at the key. -/
def mapWithKey (f : String → β → γ) (t : Table β) : Table γ :=
  ⟨t.entries.map fun e => (e.1, f e.1 e.2), by
    rw [List.pairwise_map]
    exact t.sorted⟩

/-- The table with each value sent through `f`. -/
def map (f : β → γ) (t : Table β) : Table γ := t.mapWithKey fun _ => f

/-- The table with the value at `k`, if there is one, sent through `f`. -/
def modify (t : Table β) (k : String) (f : β → β) : Table β :=
  t.mapWithKey fun k' v => if k' = k then f v else v

end Table

end Rollout
