import Mathlib.Data.List.Forall2
import Rollout.Blueprint.Inline
import Rollout.Proofs.Text.Cut

/-!
# What becomes of a template

A template is read from left to right: each placeholder is at the leftmost opener of what the one
before it has left, and goes up to the leftmost closer behind that. Nothing else is looked at, in
particular no value.

* `Inline.Placeholder` and `Inline.Reads`: the placeholders that are read off a template.
* `Inline.Fills`: a placeholder with the value in its place. `Inline.Faulty`: what is wrong where no
  value can be put.
* `Inline.substitute_eq_ok_iff`, `Inline.substitute_eq_error_iff`: what comes of a template.
* `Inline.substitute_congr`: only the variables that are mentioned count.
* `Inline.substitute_append`: two templates that are put together.
* `Inline.render_substitutes`: all of this for the blueprint.
-/

namespace Rollout.Inline

/-! ## Reading a template -/

/-- A placeholder, with the text in front of it. -/
structure Placeholder where
  /-- What stands in front of it. -/
  before : List Char
  /-- What stands between its braces. -/
  inner : List Char

/-- The variable that is meant by what stands between two braces: that text, trimmed. -/
def keyOf (inner : List Char) : String := String.ofList (Text.trim inner)

namespace Placeholder

/-- The variable that a placeholder is for. -/
def key (p : Placeholder) : String := keyOf p.inner

/-- The placeholder as it is written. -/
def text (p : Placeholder) : List Char := p.before ++ opener ++ p.inner ++ closer

end Placeholder

/-- Some placeholders are read off a template, and a text is left. -/
inductive Reads : List Char → List Placeholder → List Char → Prop where
  | stop (template : List Char) : Reads template [] template
  | next {template before behind inner after rest : List Char} {placeholders : List Placeholder}
      (opens : Text.IsCut opener template before behind)
      (closes : Text.IsCut closer behind inner after) (more : Reads after placeholders rest) :
      Reads template (⟨before, inner⟩ :: placeholders) rest

/-- A template mentions a variable: a placeholder for it can be read off. -/
def Mentions (template : List Char) (key : String) : Prop :=
  ∃ placeholders rest, Reads template placeholders rest ∧ ∃ p ∈ placeholders, p.key = key

/-- A placeholder becomes a text: the value of its variable, behind the text in front. -/
def Fills (vars : Table String) (p : Placeholder) (filled : List Char) : Prop :=
  ∃ value, vars.get? p.key = some value ∧ filled = p.before ++ value.toList

/-- The leftmost opener of a text is at fault: it is not closed, or it begins a placeholder for an
unknown variable. -/
inductive Faulty (vars : Table String) (s : List Char) : Fault → Prop where
  | unterminated {before behind : List Char} (opens : Text.IsCut opener s before behind)
      (unclosed : ¬ closer <:+: behind) : Faulty vars s .unterminated
  | unknown {before behind inner after : List Char} (opens : Text.IsCut opener s before behind)
      (closes : Text.IsCut closer behind inner after)
      (unbound : vars.get? (keyOf inner) = none) :
      Faulty vars s (.unknown (keyOf inner))

variable {vars vars' : Table String} {s t before behind inner after rest rest' body : List Char}
  {placeholders placeholders' : List Placeholder} {parts : List (List Char)} {fault : Fault}

namespace Reads

/-- Nothing of a template is lost. -/
theorem template_eq (h : Reads s placeholders rest) :
    s = placeholders.flatMap (·.text) ++ rest := by
  induction h with
  | stop => rfl
  | next opens closes _ ih =>
    rw [opens.parts, closes.parts, ih]
    simp [Placeholder.text]

/-- What is left is read in the same way. -/
theorem trans (h : Reads s placeholders rest) (h' : Reads rest placeholders' rest') :
    Reads s (placeholders ++ placeholders') rest' := by
  induction h with
  | stop => exact h'
  | next opens closes _ ih => exact .next opens closes (ih h')

/-- Where there is an opener, its placeholder is the first one. -/
theorem eq_or_exists (h : Reads s placeholders rest) (opens : Text.IsCut opener s before behind)
    (closes : Text.IsCut closer behind inner after) :
    placeholders = [] ∧ rest = s ∨
      ∃ others, placeholders = ⟨before, inner⟩ :: others ∧ Reads after others rest := by
  cases h with
  | stop => exact .inl ⟨rfl, rfl⟩
  | next opens' closes' more =>
    obtain ⟨rfl, rfl⟩ := opens.unique opens'
    obtain ⟨rfl, rfl⟩ := closes.unique closes'
    exact .inr ⟨_, rfl, more⟩

/-- Where there is none, nothing is read. -/
theorem eq_of_unopened (h : Reads s placeholders rest) (hs : ¬ opener <:+: s) :
    placeholders = [] ∧ rest = s := by
  cases h with
  | stop => exact ⟨rfl, rfl⟩
  | next opens _ _ => exact absurd ⟨_, _, opens.parts.symm⟩ hs

end Reads

theorem mentions_iff (opens : Text.IsCut opener s before behind)
    (closes : Text.IsCut closer behind inner after) (key : String) :
    Mentions s key ↔ keyOf inner = key ∨ Mentions after key := by
  constructor
  · rintro ⟨placeholders, rest, hreads, p, hp, rfl⟩
    rcases hreads.eq_or_exists opens closes with ⟨rfl, -⟩ | ⟨others, rfl, hmore⟩
    · cases hp
    · rcases List.mem_cons.1 hp with rfl | hp
      · exact .inl rfl
      · exact .inr ⟨others, rest, hmore, p, hp, rfl⟩
  · rintro (rfl | ⟨placeholders, rest, hreads, p, hp, rfl⟩)
    · exact ⟨_, _, .next opens closes (.stop _), _, List.mem_cons_self, rfl⟩
    · exact ⟨_, _, .next opens closes hreads, p, List.mem_cons_of_mem _ hp, rfl⟩

theorem not_mentions (hs : ¬ opener <:+: s) (key : String) : ¬ Mentions s key := by
  rintro ⟨placeholders, rest, hreads, p, hp, -⟩
  rw [(hreads.eq_of_unopened hs).1] at hp
  cases hp

/-! ## One placeholder after the other -/

theorem substitute_of_unopened (hs : ¬ opener <:+: s) : substitute vars s = .ok s := by
  have hcut := Text.cut?_eq_none_iff.2 hs
  unfold substitute
  split
  · rfl
  · next hsome =>
    rw [hcut] at hsome
    cases hsome

/-- The leftmost opener decides what is next. -/
theorem substitute_of_opened (opens : Text.IsCut opener s before behind) :
    substitute vars s =
      match Text.cut? closer behind with
      | none => .error .unterminated
      | some (inner, after) =>
        match vars.get? (keyOf inner) with
        | none => .error (.unknown (keyOf inner))
        | some value => (substitute vars after).map (before ++ value.toList ++ ·) := by
  have hcut := Text.cut?_eq_some_iff.2 opens
  rw [substitute]
  split
  · next hnone =>
    rw [hcut] at hnone
    cases hnone
  · next hsome =>
    rw [hcut] at hsome
    cases hsome
    split
    · next hclose => simp only [hclose]
    · next inner after hclose =>
      simp only [hclose]
      show (match vars.get? (keyOf inner) with
        | none => Except.error (Fault.unknown (keyOf inner))
        | some value => _) = _
      cases vars.get? (keyOf inner) with
      | none => rfl
      | some value => cases substitute vars after <;> rfl

theorem substitute_of_closed (opens : Text.IsCut opener s before behind)
    (closes : Text.IsCut closer behind inner after) {value : String}
    (hvalue : vars.get? (keyOf inner) = some value) :
    substitute vars s = (substitute vars after).map (before ++ value.toList ++ ·) := by
  rw [substitute_of_opened opens, Text.cut?_eq_some_iff.2 closes]
  simp only [hvalue]

/-- A fault at the leftmost opener is that of the text. -/
theorem Faulty.substitute_eq (h : Faulty vars s fault) : substitute vars s = .error fault := by
  cases h with
  | unterminated opens unclosed =>
    rw [substitute_of_opened opens, Text.cut?_eq_none_iff.2 unclosed]
  | unknown opens closes unbound =>
    rw [substitute_of_opened opens, Text.cut?_eq_some_iff.2 closes]
    simp only [unbound]

/-- Placeholders that are read and filled make the beginning of the result. -/
theorem Reads.substitute_eq (h : Reads s placeholders rest)
    (hfills : List.Forall₂ (Fills vars) placeholders parts) :
    substitute vars s = (substitute vars rest).map (parts.flatten ++ ·) := by
  induction h generalizing parts with
  | stop =>
    cases hfills
    cases substitute vars _ <;> rfl
  | next opens closes _ ih =>
    obtain ⟨part, others, ⟨value, hvalue, rfl⟩, hothers, rfl⟩ :=
      List.forall₂_cons_left_iff.1 hfills
    rw [substitute_of_closed opens closes hvalue, ih hothers]
    cases substitute vars _ <;> simp [Except.map]

/-- Every template is read up to its end, or up to the first opener at fault. -/
theorem exists_reads (vars : Table String) (s : List Char) :
    ∃ placeholders parts rest, Reads s placeholders rest ∧
      List.Forall₂ (Fills vars) placeholders parts ∧
      (¬ opener <:+: rest ∨ ∃ fault, Faulty vars rest fault) := by
  induction hn : s.length using Nat.strong_induction_on generalizing s with
  | _ n ih =>
    cases hopen : Text.cut? opener s with
    | none => exact ⟨[], [], s, .stop s, .nil, .inl (Text.cut?_eq_none_iff.1 hopen)⟩
    | some sides =>
      obtain ⟨before, behind⟩ := sides
      have opens := Text.cut?_eq_some_iff.1 hopen
      cases hclose : Text.cut? closer behind with
      | none =>
        have unclosed := Text.cut?_eq_none_iff.1 hclose
        exact ⟨[], [], s, .stop s, .nil, .inr ⟨_, .unterminated opens unclosed⟩⟩
      | some sides =>
        obtain ⟨inner, after⟩ := sides
        have closes := Text.cut?_eq_some_iff.1 hclose
        cases hvalue : vars.get? (keyOf inner) with
        | none => exact ⟨[], [], s, .stop s, .nil, .inr ⟨_, .unknown opens closes hvalue⟩⟩
        | some value =>
          have hshorter : after.length < n := by
            have h₁ := opens.length_lt
            have h₂ := closes.length_lt
            omega
          obtain ⟨placeholders, parts, rest, hreads, hfills, hend⟩ := ih _ hshorter after rfl
          exact ⟨_, _, rest, .next opens closes hreads, .cons ⟨value, hvalue, rfl⟩ hfills,
            hend⟩

/-! ## What comes of a template -/

/-- A template becomes its placeholders, filled, and the text behind them. -/
theorem substitute_eq_ok_iff :
    substitute vars s = .ok body ↔
      ∃ placeholders parts rest, Reads s placeholders rest ∧ ¬ opener <:+: rest ∧
        List.Forall₂ (Fills vars) placeholders parts ∧ body = parts.flatten ++ rest := by
  constructor
  · intro h
    obtain ⟨placeholders, parts, rest, hreads, hfills, hend⟩ := exists_reads vars s
    rw [hreads.substitute_eq hfills] at h
    rcases hend with hrest | ⟨fault, hfault⟩
    · rw [substitute_of_unopened hrest] at h
      exact ⟨placeholders, parts, rest, hreads, hrest, hfills, (Except.ok.inj h).symm⟩
    · rw [hfault.substitute_eq] at h
      cases h
  · rintro ⟨placeholders, parts, rest, hreads, hrest, hfills, rfl⟩
    rw [hreads.substitute_eq hfills, substitute_of_unopened hrest]
    rfl

/-- A template is refused for the first placeholder at fault. -/
theorem substitute_eq_error_iff :
    substitute vars s = .error fault ↔
      ∃ placeholders parts rest, Reads s placeholders rest ∧
        List.Forall₂ (Fills vars) placeholders parts ∧ Faulty vars rest fault := by
  constructor
  · intro h
    obtain ⟨placeholders, parts, rest, hreads, hfills, hend⟩ := exists_reads vars s
    rw [hreads.substitute_eq hfills] at h
    rcases hend with hrest | ⟨fault', hfault⟩
    · rw [substitute_of_unopened hrest] at h
      cases h
    · rw [hfault.substitute_eq] at h
      cases h
      exact ⟨placeholders, parts, rest, hreads, hfills, hfault⟩
  · rintro ⟨placeholders, parts, rest, hreads, hfills, hfault⟩
    rw [hreads.substitute_eq hfills, hfault.substitute_eq]
    rfl

/-! ## What does not count -/

/-- Placeholders are filled in the same way if the variables that they are for have the same
values. -/
theorem forall₂_fills_congr (h : ∀ p ∈ placeholders, vars'.get? p.key = vars.get? p.key)
    (hfills : List.Forall₂ (Fills vars) placeholders parts) :
    List.Forall₂ (Fills vars') placeholders parts := by
  induction hfills with
  | nil => exact .nil
  | cons hfill _ ih =>
    obtain ⟨hfirst, hothers⟩ := List.forall_mem_cons.1 h
    obtain ⟨value, hvalue, rfl⟩ := hfill
    exact .cons ⟨value, hfirst.trans hvalue, rfl⟩ (ih hothers)

/-- Only the variables that a template mentions count. -/
theorem substitute_congr (h : ∀ key, Mentions s key → vars'.get? key = vars.get? key) :
    substitute vars' s = substitute vars s := by
  obtain ⟨placeholders, parts, rest, hreads, hfills, hend⟩ := exists_reads vars s
  have hfills' : List.Forall₂ (Fills vars') placeholders parts :=
    forall₂_fills_congr (fun p hp => h p.key ⟨_, _, hreads, p, hp, rfl⟩) hfills
  rw [hreads.substitute_eq hfills, hreads.substitute_eq hfills']
  rcases hend with hrest | ⟨fault, hfault⟩
  · rw [substitute_of_unopened hrest, substitute_of_unopened hrest]
  · have hfault' : Faulty vars' rest fault := by
      cases hfault with
      | unterminated opens unclosed => exact .unterminated opens unclosed
      | @unknown before behind inner after opens closes unbound =>
        have hmore := hreads.trans (.next opens closes (.stop after))
        have hmentions : Mentions s (keyOf inner) :=
          ⟨_, _, hmore, ⟨before, inner⟩, List.mem_append_right _ List.mem_cons_self, rfl⟩
        exact .unknown opens closes ((h _ hmentions).trans unbound)
    rw [hfault.substitute_eq, hfault'.substitute_eq]

/-! ## The seam -/

/-- Text in front that opens no placeholder comes out as it is. -/
theorem substitute_append_left (hs : ¬ opener <:+: s) (hseam : ¬ Text.Straddles '{' '{' s t) :
    substitute vars (s ++ t) = (substitute vars t).map (s ++ ·) := by
  cases hopen : Text.cut? opener t with
  | none =>
    have ht := Text.cut?_eq_none_iff.1 hopen
    have hst : ¬ opener <:+: s ++ t := by
      intro h
      rcases Text.pair_infix_append_iff.1 h with h | h | h
      · exact hs h
      · exact ht h
      · exact hseam h
    rw [substitute_of_unopened ht, substitute_of_unopened hst]
    rfl
  | some sides =>
    obtain ⟨before, behind⟩ := sides
    have opens := Text.cut?_eq_some_iff.1 hopen
    rw [substitute_of_opened opens, substitute_of_opened (opens.append_left hs hseam)]
    cases Text.cut? closer behind with
    | none => rfl
    | some sides =>
      obtain ⟨inner, after⟩ := sides
      simp only
      cases vars.get? (keyOf inner) with
      | none => rfl
      | some value => cases substitute vars after <;> simp [Except.map]

/-- Text behind leaves the placeholders that are read off a template as they are. -/
theorem Reads.append_right (h : Reads s placeholders rest) (t : List Char) :
    Reads (s ++ t) placeholders (rest ++ t) := by
  induction h with
  | stop => exact .stop _
  | next opens closes _ ih => exact .next (opens.append_right t) (closes.append_right t) ih

/-- Two templates that are put together, and across which no opener stands, become what the two
become, put together. -/
theorem substitute_append {body' : List Char} (hs : substitute vars s = .ok body)
    (ht : substitute vars t = .ok body') (hseam : ¬ Text.Straddles '{' '{' s t) :
    substitute vars (s ++ t) = .ok (body ++ body') := by
  obtain ⟨placeholders, parts, rest, hreads, hrest, hfills, rfl⟩ := substitute_eq_ok_iff.1 hs
  have hseam' : ¬ Text.Straddles '{' '{' rest t := by
    rintro ⟨hlast, hhead⟩
    apply hseam
    refine ⟨?_, hhead⟩
    rw [hreads.template_eq, List.getLast?_append, hlast]
    rfl
  rw [(hreads.append_right t).substitute_eq hfills, substitute_append_left hrest hseam', ht]
  simp [Except.map]

/-! ## The blueprint -/

theorem render_eq (stackName template : String) (vars : Table String) :
    Blueprint.inline.render ⟨stackName, some template, vars⟩ =
      ((substitute vars template.toList).map fun body => .ofBody (String.ofList body)).mapError
        fun fault => .blueprint name (stackName ++ ": " ++ fault.message) := by
  simp only [Blueprint.inline, Inline.body]
  cases substitute vars template.toList <;> rfl

theorem render_eq_ok_iff {stackName template : String} {rendered : RenderedTemplate} :
    Blueprint.inline.render ⟨stackName, some template, vars⟩ = .ok rendered ↔
      ∃ body, substitute vars template.toList = .ok body ∧
        rendered = .ofBody (String.ofList body) := by
  rw [render_eq]
  cases substitute vars template.toList <;> simp [Except.map, Except.mapError, eq_comm]

theorem render_eq_error_iff {stackName template : String} {e : Error} :
    Blueprint.inline.render ⟨stackName, some template, vars⟩ = .error e ↔
      ∃ fault, substitute vars template.toList = .error fault ∧
        e = .blueprint name (stackName ++ ": " ++ fault.message) := by
  rw [render_eq]
  cases substitute vars template.toList <;> simp [Except.map, Except.mapError, eq_comm]

/-- A template is rendered exactly if each placeholder that is read off it, from left to right, is
for a variable that has a value, and nothing behind them opens another one. Then it becomes its
placeholders with the values in their places, and the text behind them, where the template was its
placeholders as they are written and the same text. Otherwise it is refused for the first opener
that is not closed or begins a placeholder for an unknown variable. Variables that a template does
not mention do not count. Two templates each of which can be rendered, and across which no opener
stands, are rendered as the one, followed by the other. -/
theorem render_substitutes :
    (∀ stackName template vars rendered,
      Blueprint.inline.render ⟨stackName, some template, vars⟩ = .ok rendered ↔
        ∃ placeholders parts rest, Reads template.toList placeholders rest ∧ ¬ opener <:+: rest ∧
          List.Forall₂ (Fills vars) placeholders parts ∧
          rendered = .ofBody (String.ofList (parts.flatten ++ rest))) ∧
    (∀ stackName template vars e,
      Blueprint.inline.render ⟨stackName, some template, vars⟩ = .error e ↔
        ∃ placeholders parts rest fault, Reads template.toList placeholders rest ∧
          List.Forall₂ (Fills vars) placeholders parts ∧ Faulty vars rest fault ∧
          e = .blueprint name (stackName ++ ": " ++ fault.message)) ∧
    (∀ template placeholders rest, Reads template placeholders rest →
      template = placeholders.flatMap (·.text) ++ rest) ∧
    (∀ stackName template vars vars',
      (∀ key, Mentions template.toList key → vars'.get? key = vars.get? key) →
      Blueprint.inline.render ⟨stackName, some template, vars'⟩ =
        Blueprint.inline.render ⟨stackName, some template, vars⟩) ∧
    ∀ stackName (s t : String) vars x y,
      Blueprint.inline.render ⟨stackName, some s, vars⟩ = .ok x →
      Blueprint.inline.render ⟨stackName, some t, vars⟩ = .ok y →
      ¬ (s.toList.getLast? = some '{' ∧ t.toList.head? = some '{') →
      Blueprint.inline.render ⟨stackName, some (s ++ t), vars⟩ =
        .ok (.ofBody (x.body ++ y.body)) := by
  refine ⟨?_, ?_, ?_, ?_, ?_⟩
  · intro stackName template vars rendered
    rw [render_eq_ok_iff]
    constructor
    · rintro ⟨body, hbody, rfl⟩
      obtain ⟨placeholders, parts, rest, hreads, hrest, hfills, rfl⟩ :=
        substitute_eq_ok_iff.1 hbody
      exact ⟨placeholders, parts, rest, hreads, hrest, hfills, rfl⟩
    · rintro ⟨placeholders, parts, rest, hreads, hrest, hfills, rfl⟩
      exact ⟨_, substitute_eq_ok_iff.2 ⟨placeholders, parts, rest, hreads, hrest, hfills, rfl⟩, rfl⟩
  · intro stackName template vars e
    rw [render_eq_error_iff]
    constructor
    · rintro ⟨fault, hfault, rfl⟩
      obtain ⟨placeholders, parts, rest, hreads, hfills, hfaulty⟩ :=
        substitute_eq_error_iff.1 hfault
      exact ⟨placeholders, parts, rest, fault, hreads, hfills, hfaulty, rfl⟩
    · rintro ⟨placeholders, parts, rest, fault, hreads, hfills, hfaulty, rfl⟩
      exact ⟨fault, substitute_eq_error_iff.2 ⟨placeholders, parts, rest, hreads, hfills, hfaulty⟩,
        rfl⟩
  · intro template placeholders rest hreads
    exact hreads.template_eq
  · intro stackName template vars vars' h
    rw [render_eq, render_eq, substitute_congr h]
  · intro stackName s t vars x y hs ht hseam
    obtain ⟨body, hbody, rfl⟩ := render_eq_ok_iff.1 hs
    obtain ⟨body', hbody', rfl⟩ := render_eq_ok_iff.1 ht
    apply render_eq_ok_iff.2
    refine ⟨body ++ body', ?_, ?_⟩
    · rw [String.toList_append]
      exact substitute_append hbody hbody' hseam
    · rw [String.ofList_append]
      rfl

/-! ## Braces in a row -/

/-- The name of the first variable begins with a brace, and its value looks like a placeholder. -/
def braces : Table String := .ofList [("\x7b b", "\x7b\x7bc\x7d\x7d"), ("c", "x")]

/-- Of three braces the first two open a placeholder. -/
theorem opens_braces :
    Text.IsCut opener "a\x7b\x7b\x7b b \x7d\x7d\x7d".toList ['a']
      ['{', ' ', 'b', ' ', '}', '}', '}'] :=
  Text.cut?_eq_some_iff.1 (by decide)

/-- Of three braces the first two close it. -/
theorem closes_braces :
    Text.IsCut closer ['{', ' ', 'b', ' ', '}', '}', '}'] ['{', ' ', 'b', ' '] ['}'] :=
  Text.cut?_eq_some_iff.1 (by decide)

/-- A placeholder between blanks, of which one is not of ASCII, in front of a single brace. -/
theorem reads_blanks :
    Reads "\x7b\x7b\u00a0c \x7d\x7d\x7b".toList [⟨[], ['\u00a0', 'c', ' ']⟩] ['{'] := by
  have hopens : Text.IsCut opener "\x7b\x7b\u00a0c \x7d\x7d\x7b".toList []
      ['\u00a0', 'c', ' ', '}', '}', '{'] := Text.cut?_eq_some_iff.1 (by decide +kernel)
  exact .next hopens (Text.cut?_eq_some_iff.1 (by decide +kernel)) (.stop _)

/-- What a value looks like does not count, nor does a variable that is not mentioned. Another
template behind is filled as it would be alone. Of two faults the first one is told. -/
theorem render_substitutes_braces :
    Blueprint.inline.render ⟨"s", some "a\x7b\x7b\x7b b \x7d\x7d\x7d", braces⟩ =
      .ok (.ofBody "a\x7b\x7bc\x7d\x7d\x7d") ∧
    Blueprint.inline.render ⟨"s", some "a\x7b\x7b\x7b b \x7d\x7d\x7d", braces.erase "c"⟩ =
      .ok (.ofBody "a\x7b\x7bc\x7d\x7d\x7d") ∧
    Blueprint.inline.render
        ⟨"s", some ("a\x7b\x7b\x7b b \x7d\x7d\x7d" ++ "\x7b\x7b\u00a0c \x7d\x7d\x7b"), braces⟩ =
      .ok (.ofBody ("a\x7b\x7bc\x7d\x7d\x7d" ++ "x\x7b")) ∧
    Blueprint.inline.render ⟨"s", some "\x7b\x7bd\x7d\x7d\x7b\x7b", braces⟩ =
      .error (.blueprint "inline" "s: unknown variable 'd'") := by
  obtain ⟨hok, herror, -, hcongr, happend⟩ := render_substitutes
  have hfirst : Blueprint.inline.render ⟨"s", some "a\x7b\x7b\x7b b \x7d\x7d\x7d", braces⟩ =
      .ok (.ofBody "a\x7b\x7bc\x7d\x7d\x7d") := by
    apply (hok _ _ _ _).2
    refine ⟨_, _, _, .next opens_braces closes_braces (.stop _), by decide,
      .cons ⟨"\x7b\x7bc\x7d\x7d", by decide +kernel, rfl⟩ .nil, ?_⟩
    exact congrArg RenderedTemplate.ofBody (by decide +kernel)
  have hsecond : Blueprint.inline.render ⟨"s", some "\x7b\x7b\u00a0c \x7d\x7d\x7b", braces⟩ =
      .ok (.ofBody "x\x7b") := by
    apply (hok _ _ _ _).2
    refine ⟨_, _, _, reads_blanks, by decide, .cons ⟨"x", by decide +kernel, rfl⟩ .nil, ?_⟩
    exact congrArg RenderedTemplate.ofBody (by decide +kernel)
  refine ⟨hfirst, ?_, happend _ _ _ _ _ _ hfirst hsecond (by decide +kernel), ?_⟩
  · rw [hcongr "s" _ braces (braces.erase "c") ?_, hfirst]
    intro key hmentions
    rcases (mentions_iff opens_braces closes_braces key).1 hmentions with rfl | hrest
    · decide +kernel
    · exact absurd hrest (not_mentions (by decide) key)
  · have hopens : Text.IsCut opener "\x7b\x7bd\x7d\x7d\x7b\x7b".toList []
        ['d', '}', '}', '{', '{'] := Text.cut?_eq_some_iff.1 (by decide +kernel)
    have hcloses : Text.IsCut closer ['d', '}', '}', '{', '{'] ['d'] ['{', '{'] :=
      Text.cut?_eq_some_iff.1 (by decide +kernel)
    have hunbound : braces.get? (keyOf ['d']) = none := by decide +kernel
    have hfaulty := Faulty.unknown hopens hcloses hunbound
    exact (herror _ _ _ _).2 ⟨_, _, _, _, .stop _, .nil, hfaulty, by decide +kernel⟩

end Rollout.Inline
