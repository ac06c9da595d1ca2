import Mathlib.Data.List.Basic
import Mathlib.Data.List.Forall2

/-!
# Steps that may fail

A computation that succeeds has succeeded step by step.

* `bind_eq_ok_iff` and `map_eq_ok_iff`: the two ways steps are put together.
  `exists_bind_ok_iff` and `exists_map_ok_iff`: when that succeeds.
* `foldlM_ok_induction`: what holds at the start of a fold and is kept by each of its steps holds at
  its end.
* `subset_of_foldlM_ok`: what the steps of a fold add to a list is there at its end.
* `exists_foldlM_ok_iff`: a fold each of whose steps succeeds for some members only.
* `mapM_eq_ok_iff`: a list sent through a computation succeeds member by member.
* `Option.mapM_eq_some`, `Option.foldlM_eq_some`, `Option.anyM_eq_some`: a loop none of whose steps
  faults is the loop without faults.
-/

namespace Rollout.Except

variable {ε α β : Type}

theorem bind_eq_ok_iff {x : Except ε α} {f : α → Except ε β} {b : β} :
    x >>= f = .ok b ↔ ∃ a, x = .ok a ∧ f a = .ok b := by
  cases x with
  | error e => simp [bind, Except.bind]
  | ok a => simp [bind, Except.bind]

theorem map_eq_ok_iff {x : Except ε α} {f : α → β} {b : β} :
    x.map f = .ok b ↔ ∃ a, x = .ok a ∧ f a = b := by
  cases x with
  | error e => simp [Except.map]
  | ok a => simp [Except.map]

theorem exists_map_ok_iff {x : Except ε α} {f : α → β} :
    (∃ b, x.map f = .ok b) ↔ ∃ a, x = .ok a := by
  cases x <;> simp [Except.map]

theorem exists_bind_ok_iff {x : Except ε α} {f : α → Except ε β} :
    (∃ b, x >>= f = .ok b) ↔ ∃ a, x = .ok a ∧ ∃ b, f a = .ok b := by
  simp only [bind_eq_ok_iff, ← exists_and_left]
  exact exists_comm

theorem toOption_eq_some_iff {x : Except ε α} {a : α} : x.toOption = some a ↔ x = .ok a := by
  cases x with
  | error e => simp [Except.toOption]
  | ok b => simp [Except.toOption]

/-- What holds at the start and is kept by each step holds at the end. -/
theorem foldlM_ok_induction {P : β → Prop} {f : β → α → Except ε β} {l : List α} {b c : β}
    (h : l.foldlM f b = .ok c) (start : P b)
    (step : ∀ a ∈ l, ∀ x y, P x → f x a = .ok y → P y) : P c := by
  induction l generalizing b with
  | nil =>
    cases h
    exact start
  | cons a l ih =>
    rw [List.foldlM_cons, bind_eq_ok_iff] at h
    obtain ⟨x, hx, h⟩ := h
    exact ih h (step a List.mem_cons_self b x start hx) fun a' ha' =>
      step a' (List.mem_cons_of_mem _ ha')

/-- If no step takes anything away, what the step for a member leaves is there at the end. -/
theorem subset_of_foldlM_ok {f : List β → α → Except ε (List β)} {l : List α} {b c : List β}
    (h : l.foldlM f b = .ok c) (grows : ∀ x a y, f x a = .ok y → x ⊆ y) :
    b ⊆ c ∧ ∀ a ∈ l, ∃ x y, f x a = .ok y ∧ y ⊆ c := by
  induction l generalizing b with
  | nil =>
    cases h
    exact ⟨fun _ hx => hx, fun a ha => absurd ha List.not_mem_nil⟩
  | cons a l ih =>
    rw [List.foldlM_cons, bind_eq_ok_iff] at h
    obtain ⟨x, hx, h⟩ := h
    obtain ⟨hsub, hsteps⟩ := ih h
    refine ⟨fun v hv => hsub (grows b a x hx hv), fun a' ha' => ?_⟩
    rcases List.mem_cons.1 ha' with rfl | ha'
    · exact ⟨b, x, hx, hsub⟩
    · exact hsteps a' ha'

/-- If it is a matter of the member alone whether a step succeeds, the fold succeeds if they all
do. -/
theorem exists_foldlM_ok_iff {f : β → α → Except ε β} {P : α → Prop} {l : List α}
    (hf : ∀ b a, (∃ c, f b a = .ok c) ↔ P a) (b : β) :
    (∃ c, l.foldlM f b = .ok c) ↔ ∀ a ∈ l, P a := by
  induction l generalizing b with
  | nil => exact ⟨fun _ => nofun, fun _ => ⟨b, rfl⟩⟩
  | cons a l ih =>
    rw [List.forall_mem_cons, List.foldlM_cons]
    simp only [bind_eq_ok_iff]
    constructor
    · rintro ⟨c, x, hx, hc⟩
      exact ⟨(hf b a).1 ⟨x, hx⟩, (ih x).1 ⟨c, hc⟩⟩
    · rintro ⟨ha, hl⟩
      obtain ⟨x, hx⟩ := (hf b a).2 ha
      obtain ⟨c, hc⟩ := (ih x).2 hl
      exact ⟨c, x, hx, hc⟩

theorem mapM_eq_ok_iff {f : α → Except ε β} {l : List α} {l' : List β} :
    l.mapM f = .ok l' ↔ List.Forall₂ (fun a b => f a = .ok b) l l' := by
  induction l generalizing l' with
  | nil =>
    rw [List.mapM_nil, List.forall₂_nil_left_iff]
    exact ⟨fun h => (Except.ok.inj h).symm, fun h => h ▸ rfl⟩
  | cons a l ih =>
    rw [List.mapM_cons, bind_eq_ok_iff, List.forall₂_cons_left_iff]
    refine exists_congr fun b => ?_
    rw [bind_eq_ok_iff]
    constructor
    · rintro ⟨hb, rest, hrest, h⟩
      exact ⟨rest, hb, ih.1 hrest, (Except.ok.inj h).symm⟩
    · rintro ⟨rest, hb, hrest, rfl⟩
      exact ⟨hb, rest, ih.2 hrest, rfl⟩

/-- Each member of the result came of a member of the list. -/
theorem exists_of_mem_mapM {f : α → Except ε β} {l : List α} {l' : List β}
    (h : l.mapM f = .ok l') {b : β} (hb : b ∈ l') : ∃ a ∈ l, f a = .ok b := by
  have hall := mapM_eq_ok_iff.1 h
  clear h
  induction hall with
  | nil => exact absurd hb List.not_mem_nil
  | @cons a b' l l' hab _ ih =>
    rcases List.mem_cons.1 hb with rfl | hb
    · exact ⟨a, List.mem_cons_self, hab⟩
    · obtain ⟨a', ha', h⟩ := ih hb
      exact ⟨a', List.mem_cons_of_mem _ ha', h⟩

/-- Each member of the list has a member of the result. -/
theorem exists_of_mem_mapM_left {f : α → Except ε β} {l : List α} {l' : List β}
    (h : l.mapM f = .ok l') {a : α} (ha : a ∈ l) : ∃ b ∈ l', f a = .ok b := by
  have hall := mapM_eq_ok_iff.1 h
  clear h
  induction hall with
  | nil => exact absurd ha List.not_mem_nil
  | @cons a' b l l' hab _ ih =>
    rcases List.mem_cons.1 ha with rfl | ha
    · exact ⟨b, List.mem_cons_self, hab⟩
    · obtain ⟨b', hb', h⟩ := ih ha
      exact ⟨b', List.mem_cons_of_mem _ hb', h⟩

/-- It succeeds if it does for each member. -/
theorem exists_mapM_ok_iff {f : α → Except ε β} {l : List α} :
    (∃ l', l.mapM f = .ok l') ↔ ∀ a ∈ l, ∃ b, f a = .ok b := by
  constructor
  · rintro ⟨l', h⟩ a ha
    obtain ⟨b, -, hb⟩ := exists_of_mem_mapM_left h ha
    exact ⟨b, hb⟩
  · intro h
    induction l with
    | nil => exact ⟨[], rfl⟩
    | cons a l ih =>
      obtain ⟨ha, hl⟩ := List.forall_mem_cons.1 h
      obtain ⟨b, hb⟩ := ha
      obtain ⟨rest, hrest⟩ := ih hl
      exact ⟨b :: rest, mapM_eq_ok_iff.2 (.cons hb (mapM_eq_ok_iff.1 hrest))⟩

/-- What the computation keeps of each member is kept of the list. -/
theorem map_eq_of_mapM {γ : Type} {f : α → Except ε β} {l : List α} {l' : List β} {g : α → γ}
    {g' : β → γ} (h : l.mapM f = .ok l') (hkeeps : ∀ a b, f a = .ok b → g' b = g a) :
    l'.map g' = l.map g := by
  have hall := mapM_eq_ok_iff.1 h
  clear h
  induction hall with
  | nil => rfl
  | cons hab _ ih => rw [List.map_cons, List.map_cons, hkeeps _ _ hab, ih]

end Rollout.Except

namespace Rollout.Option

variable {α β : Type} {l : List α}

theorem mapM_eq_some {f : α → Option β} {g : α → β} (h : ∀ a ∈ l, f a = some (g a)) :
    l.mapM f = some (l.map g) := by
  induction l with
  | nil => rfl
  | cons a l ih =>
    rw [List.mapM_cons, h a List.mem_cons_self, ih fun b hb => h b (List.mem_cons_of_mem _ hb)]
    rfl

theorem foldlM_eq_some {f : β → α → Option β} {g : β → α → β} {b : β}
    (h : ∀ a ∈ l, ∀ b, f b a = some (g b a)) : l.foldlM f b = some (l.foldl g b) := by
  induction l generalizing b with
  | nil => rfl
  | cons a l ih =>
    rw [List.foldlM_cons, h a List.mem_cons_self]
    exact ih fun c hc => h c (List.mem_cons_of_mem _ hc)

theorem anyM_eq_some {p : α → Option Bool} {q : α → Bool} (h : ∀ a ∈ l, p a = some (q a)) :
    l.anyM p = some (l.any q) := by
  induction l with
  | nil => rfl
  | cons a l ih =>
    have ih := ih fun b hb => h b (List.mem_cons_of_mem _ hb)
    rw [List.anyM_cons, h a List.mem_cons_self, List.any_cons]
    cases q a with
    | true => rfl
    | false => exact ih

end Rollout.Option
