import Rollout.Proofs.Lookup.Reads
import Rollout.Proofs.Text.Cut
import Rollout.Proofs.Text.Words

/-!
# What a definition is found to require

Before anything is resolved, the stacks that the variables of a definition read are found in their
texts. That succeeds for texts that can be taken apart and whose output lookups name a stack and an
output.

* `NamesOutput`: an argument names a stack and an output.
* `Readable`: a text from which the stacks that it reads can be told.
* `exists_outputStacks_iff`, `mem_outputStacks_iff`: when they are told, and which they are.
* `Stack.exists_requirements_iff`, `Stack.mem_requirements_iff`: the same for a definition.
-/

namespace Rollout

/-- The argument of a lookup names a stack and an output: they stand on the two sides of the
leftmost pair of colons, and neither of them is blank. -/
def NamesOutput (argument : String) : Prop :=
  ∃ stack key, Text.IsCut [':', ':'] argument.toList stack key ∧ ¬ Text.Blanks stack ∧
    ¬ Text.Blanks key

/-- The text can be taken apart, and each output lookup in it names a stack and an output. -/
def Readable (text : String) : Prop :=
  ∃ tokens, tokenize text = .ok tokens ∧
    ∀ argument, .lookup "output" argument ∈ tokens → NamesOutput argument

/-- The sides of an argument that names an output are read without the blanks around them. -/
theorem splitOutput_eq_ok_iff {argument stack key : String} :
    splitOutput argument = .ok (stack, key) ↔
      ∃ left right, Text.IsCut [':', ':'] argument.toList left right ∧ ¬ Text.Blanks left ∧
        ¬ Text.Blanks right ∧ stack = String.ofList (Text.trim left) ∧
          key = String.ofList (Text.trim right) := by
  have hsep : "::".toList = [':', ':'] := by cbv
  unfold splitOutput Text.cutString?
  rw [hsep]
  simp only [← Text.cut?_eq_some_iff]
  cases Text.cut? [':', ':'] argument.toList with
  | none => simp
  | some sides =>
    obtain ⟨left, right⟩ := sides
    simp only [Option.map_some, Text.strip, Text.isBlankText_iff, Bool.or_eq_true,
      String.toList_ofList]
    by_cases hblank : Text.Blanks left ∨ Text.Blanks right
    · simp only [hblank, if_true, reduceCtorEq, Option.some.injEq, Prod.mk.injEq, false_iff]
      rintro ⟨_, _, ⟨rfl, rfl⟩, hleft, hright, -⟩
      exact hblank.elim hleft hright
    · have hblank' := not_or.1 hblank
      simp only [hblank, if_false, Except.ok.injEq, Prod.mk.injEq, Option.some.injEq]
      constructor
      · rintro ⟨rfl, rfl⟩
        exact ⟨left, right, ⟨rfl, rfl⟩, hblank'.1, hblank'.2, rfl, rfl⟩
      · rintro ⟨_, _, ⟨rfl, rfl⟩, -, -, rfl, rfl⟩
        exact ⟨rfl, rfl⟩

theorem exists_splitOutput_iff {argument : String} :
    (∃ sides, splitOutput argument = .ok sides) ↔ NamesOutput argument := by
  simp only [Prod.exists, splitOutput_eq_ok_iff]
  constructor
  · rintro ⟨_, _, left, right, hcut, hleft, hright, -, -⟩
    exact ⟨left, right, hcut, hleft, hright⟩
  · rintro ⟨left, right, hcut, hleft, hright⟩
    exact ⟨_, _, left, right, hcut, hleft, hright, rfl, rfl⟩

/-! ## Texts -/

/-- The stacks among some tokens are told if each output lookup names one. -/
theorem exists_stacksOfTokens_iff {tokens : List Token} :
    (∃ found, stacksOfTokens tokens = .ok found) ↔
      ∀ argument, .lookup "output" argument ∈ tokens → NamesOutput argument := by
  unfold stacksOfTokens
  rw [Except.exists_foldlM_ok_iff fun names token => ?step]
  case step =>
    show _ ↔ ∀ argument, token = .lookup "output" argument → NamesOutput argument
    split
    · next argument =>
      rw [Except.exists_map_ok_iff, exists_splitOutput_iff]
      simp
    · next hother => exact ⟨fun _ argument h => absurd h (hother argument), fun _ => ⟨names, rfl⟩⟩
  exact ⟨fun h argument hmem => h _ hmem argument rfl,
    fun h token hmem argument htoken => h argument (htoken ▸ hmem)⟩

/-- The stacks that a text reads are told if it is readable. -/
theorem exists_outputStacks_iff {text : String} :
    (∃ found, outputStacks text = .ok found) ↔ Readable text := by
  unfold outputStacks Readable
  simp only [Except.exists_bind_ok_iff, exists_stacksOfTokens_iff]

/-- They are the stacks that the text reads, and no others. -/
theorem mem_outputStacks_iff {text stack : String} {found : List String}
    (h : outputStacks text = .ok found) : stack ∈ found ↔ ReadsOutput text stack := by
  refine ⟨fun hmem => ?_, mem_outputStacks_of_reads h⟩
  obtain ⟨tokens, htokens, hfound⟩ := Except.bind_eq_ok_iff.1 h
  have hreads : ∀ name ∈ found, ReadsOutput text name := by
    refine Except.foldlM_ok_induction (P := fun names => ∀ name ∈ names, ReadsOutput text name)
      hfound (by simp) fun token htoken names next hnames hnext => ?_
    split at hnext
    · next argument =>
      obtain ⟨⟨name, key⟩, hsplit, rfl⟩ := Except.map_eq_ok_iff.1 hnext
      intro other hother
      rcases mem_addOnce_iff.1 hother with hold | rfl
      · exact hnames other hold
      · exact ⟨tokens, argument, key, htokens, htoken, hsplit⟩
    · cases hnext
      exact hnames
  exact hreads stack hmem

/-! ## Definitions -/

namespace Stack

variable {d : StackDefinition} {requires : List String} {name : String}

/-- What a definition requires is told if its variables are readable. -/
theorem exists_requirements_iff :
    (∃ requires, requirements d = .ok requires) ↔ ∀ value ∈ d.vars.values, Readable value := by
  have hstep : ∀ (names : List String) value,
      (∃ next, addOutputStacks names value = .ok next) ↔ Readable value := by
    intro names value
    unfold addOutputStacks
    rw [Except.exists_map_ok_iff, exists_outputStacks_iff]
  unfold requirements
  rw [Except.exists_map_ok_iff, Except.exists_foldlM_ok_iff hstep]

/-- A definition requires what it names and what its variables read, itself excepted. -/
theorem mem_requirements_iff (h : requirements d = .ok requires) :
    name ∈ requires ↔
      name ≠ d.name ∧ (name ∈ d.requires ∨ ∃ value ∈ d.vars.values, ReadsOutput value name) := by
  constructor
  · obtain ⟨all, hall, rfl⟩ := Except.map_eq_ok_iff.1 h
    have hreason : ∀ other ∈ all,
        other ∈ d.requires ∨ ∃ value ∈ d.vars.values, ReadsOutput value other := by
      refine Except.foldlM_ok_induction
        (P := fun names => ∀ other ∈ names,
          other ∈ d.requires ∨ ∃ value ∈ d.vars.values, ReadsOutput value other)
        hall (fun _ => .inl) fun value hvalue names next hnames hnext other hother => ?_
      obtain ⟨found, hfound, rfl⟩ := Except.map_eq_ok_iff.1 hnext
      rcases mem_foldl_addOnce_iff.1 hother with hold | hnew
      · exact hnames other hold
      · exact .inr ⟨value, hvalue, (mem_outputStacks_iff hfound).1 hnew⟩
    intro hname
    obtain ⟨hmem, hne⟩ := List.mem_filter.1 hname
    exact ⟨by simpa using hne, hreason name hmem⟩
  · rintro ⟨hne, hnamed | ⟨value, hvalue, hreads⟩⟩
    · exact mem_requirements_of_named h hnamed hne
    · exact mem_requirements_of_reads h hvalue hreads hne

/-- A stack is made of a definition whose variables are readable. -/
theorem exists_ofDefinition_iff {scope delimiter : String} :
    (∃ s, ofDefinition d scope delimiter = .ok s) ↔ ∀ value ∈ d.vars.values, Readable value := by
  rw [← exists_requirements_iff]
  unfold ofDefinition
  rw [Except.exists_bind_ok_iff]
  exact exists_congr fun _ => and_iff_left ⟨_, rfl⟩

end Stack

end Rollout
