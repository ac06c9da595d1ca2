import Mathlib.Data.List.Infix
import Rollout.Text.Basic

/-!
# Where a text is cut

A text is cut at the leftmost occurrence of a separator, if there is one.

* `Text.IsCut`: what it means that two texts stand before and behind the leftmost occurrence.
* `Text.cut?_eq_none_iff`, `Text.cut?_eq_some_iff`: when a text is cut, and where.
* `Text.cut?_append`: a text without the separator, followed by it, is what stands before the cut,
  if no character of the separator comes twice.
* `Text.Straddles`: a separator of two characters stands across two texts.
* `Text.pair_in_append` and `Text.IsCut.append_left`: where such a separator stands in two texts,
  one after the other.
-/

namespace Rollout.Text

variable {sep s before after : List Char}

/-- The leftmost occurrence of `sep` in `s` stands between `before` and `after`. -/
structure IsCut (sep s before after : List Char) : Prop where
  /-- It stands between them. -/
  parts : s = before ++ sep ++ after
  /-- No other one begins further to the left. -/
  leftmost : ∀ b a, s = b ++ sep ++ a → before.length ≤ b.length

/-- A text without the separator is not cut. -/
theorem cut?_eq_none_iff : cut? sep s = none ↔ ¬ sep <:+: s := by
  induction s with
  | nil =>
    rw [cut?, List.infix_nil]
    cases sep <;> simp
  | cons c rest ih =>
    rw [cut?, List.infix_cons_iff, not_or, ← ih, ← List.isPrefixOf_iff_prefix]
    by_cases hstarts : sep.isPrefixOf (c :: rest) = true
    · simp [hstarts]
    · simp [hstarts]

/-- The cut is as far to the left as any occurrence. -/
theorem length_le_of_cut? (h : cut? sep s = some (before, after)) {b a : List Char}
    (hs : s = b ++ sep ++ a) : before.length ≤ b.length := by
  induction s generalizing before b with
  | nil =>
    have hparts := eq_append_of_cut? h
    have hlength := congrArg List.length hparts
    simp only [List.length_append, List.length_nil] at hlength
    omega
  | cons c rest ih =>
    rw [cut?] at h
    split at h
    · cases h
      exact Nat.zero_le _
    · next hstarts =>
      obtain ⟨⟨before', after'⟩, hcut, heq⟩ := Option.map_eq_some_iff.1 h
      cases heq
      cases b with
      | nil =>
        have hstart : sep.isPrefixOf (c :: rest) = true :=
          List.isPrefixOf_iff_prefix.2 ⟨a, by simpa using hs.symm⟩
        exact absurd hstart hstarts
      | cons x b =>
        have hrest : rest = b ++ sep ++ a := (List.cons.inj hs).2
        have hle := ih hcut hrest
        simp only [List.length_cons]
        omega

/-- A text is cut at the leftmost occurrence of the separator. -/
theorem cut?_eq_some_iff : cut? sep s = some (before, after) ↔ IsCut sep s before after := by
  constructor
  · intro h
    exact ⟨eq_append_of_cut? h, fun b a hs => length_le_of_cut? h hs⟩
  · intro h
    cases hcut : cut? sep s with
    | none => exact absurd ⟨before, after, h.parts.symm⟩ (cut?_eq_none_iff.1 hcut)
    | some sides =>
      obtain ⟨b, a⟩ := sides
      have hparts := eq_append_of_cut? hcut
      have hlength := Nat.le_antisymm (h.leftmost b a hparts) (length_le_of_cut? hcut h.parts)
      rw [h.parts, List.append_assoc, List.append_assoc] at hparts
      obtain ⟨rfl, hrest⟩ := List.append_inj hparts hlength
      rw [List.append_cancel_left hrest]

/-- What stands before the cut is without the separator. -/
theorem not_infix_of_cut? (hsep : sep ≠ []) (h : cut? sep s = some (before, after)) :
    ¬ sep <:+: before := by
  rintro ⟨b, a, hbefore⟩
  have hs : s = b ++ sep ++ (a ++ (sep ++ after)) := by
    rw [eq_append_of_cut? h, ← hbefore]
    simp
  have hle := length_le_of_cut? h hs
  have hpos := List.length_pos_of_ne_nil hsep
  have hlength := congrArg List.length hbefore
  simp only [List.length_append] at hlength
  omega

/-- No other occurrence reaches into a separator whose characters are distinct: an occurrence that
overlapped it would begin with a character from inside. -/
theorem isCut_append (hsep : sep.Nodup) (hbefore : ¬ sep <:+: before) :
    IsCut sep (before ++ sep ++ after) before after := by
  refine ⟨rfl, fun b a hs => ?_⟩
  rw [List.append_assoc, List.append_assoc, List.append_eq_append_iff] at hs
  rcases hs with ⟨t, rfl, -⟩ | ⟨t, rfl, hs⟩
  · simp
  · rcases List.append_eq_append_iff.1 hs with ⟨u, rfl, -⟩ | ⟨u, hsplit, hs⟩
    · exact absurd ⟨b, u, by simp⟩ hbefore
    · cases t with
      | nil => simp
      | cons x t =>
        cases u with
        | nil => exact absurd ⟨b, [], by simp [hsplit]⟩ hbefore
        | cons y u =>
          rw [hsplit] at hs hsep
          obtain ⟨rfl, -⟩ := List.cons.inj hs
          exact absurd (by simp) (List.nodup_cons.1 hsep).1

/-- A text without the separator, followed by it, is what stands before the cut. -/
theorem cut?_append (hsep : sep.Nodup) (hbefore : ¬ sep <:+: before) :
    cut? sep (before ++ sep ++ after) = some (before, after) :=
  cut?_eq_some_iff.2 (isCut_append hsep hbefore)

/-- There is one cut only. -/
theorem IsCut.unique {before' after' : List Char} (h : IsCut sep s before after)
    (h' : IsCut sep s before' after') : before' = before ∧ after' = after := by
  have hcut := cut?_eq_some_iff.2 h
  rw [cut?_eq_some_iff.2 h'] at hcut
  exact Prod.mk.inj (Option.some.inj hcut)

/-- What lies behind a cut at two characters is shorter than the text. -/
theorem IsCut.length_lt {x y : Char} (h : IsCut [x, y] s before after) :
    after.length < s.length := by
  rw [h.parts]
  simp
  omega

/-- Text behind another one leaves the cut of this one where it is. -/
theorem IsCut.append_right (h : IsCut sep s before after) (t : List Char) :
    IsCut sep (s ++ t) before (after ++ t) := by
  refine ⟨by simp [h.parts], ?_⟩
  intro b a hs
  rcases List.append_eq_append_iff.1 hs with ⟨u, hlong, -⟩ | ⟨u, hinside, -⟩
  · have hlength := congrArg List.length hlong
    rw [h.parts] at hlength
    simp only [List.length_append] at hlength
    omega
  · exact h.leftmost b u hinside

/-! ## Separators of two characters -/

/-- The first of two characters ends one text, and the second one begins the other. -/
def Straddles (x y : Char) (l m : List Char) : Prop := l.getLast? = some x ∧ m.head? = some y

variable {x y : Char} {l m : List Char}

/-- Where two characters stand side by side in two texts, one after the other: in the second one, in
the first one, or across the two. -/
theorem pair_in_append {b a : List Char} (hs : l ++ m = b ++ [x, y] ++ a) :
    (∃ t, b = l ++ t ∧ m = t ++ [x, y] ++ a) ∨ [x, y] <:+: l ∨ Straddles x y l m := by
  rw [List.append_assoc] at hs
  rcases List.append_eq_append_iff.1 hs with ⟨t, rfl, hm⟩ | ⟨t, rfl, hm⟩
  · exact .inl ⟨t, rfl, by simpa using hm⟩
  · match t with
    | [] => exact .inl ⟨[], by simp, by simpa using hm.symm⟩
    | [c] =>
      obtain ⟨rfl, rfl⟩ : x = c ∧ y :: a = m := by simpa using hm
      exact .inr (.inr ⟨by simp, rfl⟩)
    | c :: d :: t =>
      obtain ⟨rfl, rfl, -⟩ : x = c ∧ y = d ∧ a = t ++ m := by simpa using hm
      exact .inr (.inl ⟨b, t, by simp⟩)

/-- Two characters side by side in two texts are in one of them, or stand across the two. -/
theorem pair_infix_append_iff :
    [x, y] <:+: l ++ m ↔ [x, y] <:+: l ∨ [x, y] <:+: m ∨ Straddles x y l m := by
  constructor
  · rintro ⟨b, a, hs⟩
    rcases pair_in_append hs.symm with ⟨t, -, hm⟩ | hl | hseam
    · exact .inr (.inl ⟨t, a, hm.symm⟩)
    · exact .inl hl
    · exact .inr (.inr hseam)
  · rintro (h | h | ⟨hl, hm⟩)
    · exact h.trans (List.prefix_append l m).isInfix
    · exact h.trans (List.suffix_append l m).isInfix
    · obtain ⟨b, rfl⟩ := List.getLast?_eq_some_iff.1 hl
      obtain ⟨a, rfl⟩ := List.head?_eq_some_iff.1 hm
      exact ⟨b, a, by simp⟩

/-- Text in front of another one leaves the cut of this one where it is. -/
theorem IsCut.append_left (h : IsCut [x, y] m before after) (hl : ¬ [x, y] <:+: l)
    (hseam : ¬ Straddles x y l m) : IsCut [x, y] (l ++ m) (l ++ before) after := by
  refine ⟨by simp [h.parts], ?_⟩
  intro b a hs
  rcases pair_in_append hs with ⟨t, rfl, hm⟩ | hin | hacross
  · have hle := h.leftmost t a hm
    simp only [List.length_append]
    omega
  · exact absurd hin hl
  · exact absurd hacross hseam

end Rollout.Text
