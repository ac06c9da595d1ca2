import Mathlib.Data.List.Basic
import Mathlib.Data.List.TakeWhile
import Rollout.Text.Basic

/-!
# Blanks around words

What trimming leaves of a text, and how a word and the argument behind it are told apart.

* `Text.dropWhile_eq_iff`: what is left when the characters of a kind are dropped from the front.
* `Text.trim_eq_iff`: what is left of a text without the blanks at its two ends.
* `Text.Words`: a text is a word with an argument behind it, blanks aside.
* `Text.words_iff`: every text that is not blank is, and its word and its argument are those that
  `firstWord` and `afterWord` find in the trimmed text.
-/

namespace Rollout.Text

/-- Only blanks, or nothing at all. -/
def Blanks (s : List Char) : Prop := ∀ c ∈ s, isBlank c = true

instance (s : List Char) : Decidable (Blanks s) :=
  decidable_of_iff (s.all isBlank = true) List.all_eq_true

/-- No blank stands at either end. -/
structure IsTrimmed (s : List Char) : Prop where
  /-- The first character is not blank. -/
  head : ∀ c ∈ s.head?, isBlank c = false
  /-- The last character is not blank. -/
  last : ∀ c ∈ s.getLast?, isBlank c = false

/-- A text is a word with an argument behind it. Blanks may stand before, between and after them. -/
structure Words (s word argument : List Char) : Prop where
  /-- The word is not empty. -/
  ne_nil : word ≠ []
  /-- No blank is in the word. -/
  solid : ∀ c ∈ word, isBlank c = false
  /-- No blank belongs to the ends of the argument. -/
  trimmed : IsTrimmed argument
  /-- Only blanks stand around the two, and some between them if there is an argument. -/
  parts : ∃ lead gap trail, Blanks lead ∧ Blanks gap ∧ Blanks trail ∧ (argument ≠ [] → gap ≠ []) ∧
    s = lead ++ word ++ gap ++ argument ++ trail

variable {s t lead trail word argument : List Char}

theorem isBlankText_iff {text : String} : isBlankText text = true ↔ Blanks text.toList := by
  unfold isBlankText Blanks
  exact List.all_eq_true

theorem Blanks.append (hs : Blanks s) (ht : Blanks t) : Blanks (s ++ t) :=
  List.forall_mem_append.2 ⟨hs, ht⟩

/-! ## What trimming leaves -/

/-- Dropping the characters of a kind from the front leaves what begins with none of them. -/
theorem dropWhile_eq_iff {α : Type} {p : α → Bool} {l t : List α} :
    l.dropWhile p = t ↔
      (∀ c ∈ t.head?, p c = false) ∧ ∃ lead, (∀ c ∈ lead, p c = true) ∧ l = lead ++ t := by
  constructor
  · rintro rfl
    refine ⟨fun c hc => ?_, l.takeWhile p, fun c hc => List.mem_takeWhile_imp hc,
      List.takeWhile_append_dropWhile.symm⟩
    have hhead := List.head?_dropWhile_not p l
    rw [Option.mem_def.1 hc] at hhead
    simpa using hhead
  · rintro ⟨hhead, lead, hlead, rfl⟩
    rw [List.dropWhile_append_of_pos hlead]
    cases t with
    | nil => rfl
    | cons c t => simp [hhead c rfl]

theorem trimStart_eq_iff :
    trimStart s = t ↔ (∀ c ∈ t.head?, isBlank c = false) ∧ ∃ lead, Blanks lead ∧ s = lead ++ t :=
  dropWhile_eq_iff

theorem trimEnd_eq_iff :
    trimEnd s = t ↔
      (∀ c ∈ t.getLast?, isBlank c = false) ∧ ∃ trail, Blanks trail ∧ s = t ++ trail := by
  unfold trimEnd
  rw [List.reverse_eq_iff, dropWhile_eq_iff, List.head?_reverse]
  refine and_congr_right fun _ => ⟨?_, ?_⟩
  · rintro ⟨trail, htrail, hs⟩
    refine ⟨trail.reverse, fun c hc => htrail c (List.mem_reverse.1 hc), ?_⟩
    simpa using congrArg List.reverse hs
  · rintro ⟨trail, htrail, rfl⟩
    exact ⟨trail.reverse, fun c hc => htrail c (List.mem_reverse.1 hc), by simp⟩

/-- Trimming takes blanks away from the two ends until there are none. -/
theorem trim_eq_iff :
    trim s = t ↔
      IsTrimmed t ∧ ∃ lead trail, Blanks lead ∧ Blanks trail ∧ s = lead ++ t ++ trail := by
  unfold trim
  constructor
  · intro h
    obtain ⟨hlast, trail, htrail, hend⟩ := trimEnd_eq_iff.1 h
    obtain ⟨hhead, lead, hlead, hstart⟩ := trimStart_eq_iff.1 hend
    refine ⟨⟨fun c hc => hhead c ?_, hlast⟩, lead, trail, hlead, htrail, ?_⟩
    · rw [List.head?_append, Option.mem_def.1 hc]
      rfl
    · rw [hstart, List.append_assoc]
  · rintro ⟨htrimmed, lead, trail, hlead, htrail, rfl⟩
    cases t with
    | nil =>
      have hblank : Blanks (lead ++ [] ++ trail) :=
        (hlead.append (List.forall_mem_nil _)).append htrail
      have hstart : trimStart (lead ++ [] ++ trail) = [] := List.dropWhile_eq_nil_iff.2 hblank
      rw [hstart]
      rfl
    | cons c t =>
      have hstart : trimStart (lead ++ c :: t ++ trail) = c :: t ++ trail :=
        trimStart_eq_iff.2 ⟨htrimmed.head, lead, hlead, List.append_assoc _ _ _⟩
      rw [hstart]
      exact trimEnd_eq_iff.2 ⟨htrimmed.last, trail, htrail, rfl⟩

/-- Nothing is left of blanks, and of nothing else. -/
theorem trim_eq_nil_iff : trim s = [] ↔ Blanks s := by
  rw [trim_eq_iff]
  constructor
  · rintro ⟨-, lead, trail, hlead, htrail, rfl⟩
    exact (hlead.append (List.forall_mem_nil _)).append htrail
  · intro hs
    exact ⟨⟨nofun, nofun⟩, s, [], hs, nofun, by simp⟩

/-! ## A word and its argument -/

/-- A word ends where a blank or nothing follows. -/
theorem firstWord_append {rest : List Char} (hword : ∀ c ∈ word, isBlank c = false)
    (hrest : ∀ c ∈ rest.head?, isBlank c = true) :
    firstWord (word ++ rest) = word ∧ afterWord (word ++ rest) = trim rest := by
  have hsolid : ∀ c ∈ word, (!isBlank c) = true := by simpa using hword
  unfold firstWord afterWord
  rw [List.takeWhile_append_of_pos hsolid, List.dropWhile_append_of_pos hsolid]
  cases rest with
  | nil => simp
  | cons c rest => simp [hrest c rfl]

/-- The word and the argument of a text are found in the trimmed text. -/
theorem Words.eq (h : Words s word argument) :
    firstWord (trim s) = word ∧ afterWord (trim s) = argument := by
  obtain ⟨lead, gap, trail, hlead, hgap, htrail, hapart, rfl⟩ := h.parts
  obtain ⟨c, rest, rfl⟩ := List.exists_cons_of_ne_nil h.ne_nil
  by_cases hargument : argument = []
  · subst hargument
    have htrim : trim (lead ++ c :: rest ++ gap ++ [] ++ trail) = c :: rest := by
      refine trim_eq_iff.2 ⟨⟨fun d hd => h.solid d ?_, fun d hd => h.solid d ?_⟩, lead,
        gap ++ trail, hlead, hgap.append htrail, by simp⟩
      · exact List.mem_of_mem_head? hd
      · exact List.mem_of_getLast? hd
    have hwords : firstWord (c :: rest ++ []) = c :: rest ∧ afterWord (c :: rest ++ []) = [] :=
      firstWord_append h.solid nofun
    rw [List.append_nil] at hwords
    rw [htrim]
    exact hwords
  · have hlast : (c :: rest ++ gap ++ argument).getLast? = argument.getLast? :=
      List.getLast?_append_of_ne_nil _ hargument
    have htrim : trim (lead ++ c :: rest ++ gap ++ argument ++ trail) =
        c :: rest ++ gap ++ argument := by
      refine trim_eq_iff.2 ⟨⟨fun d hd => h.solid d ?_, fun d hd => h.trimmed.last d ?_⟩, lead,
        trail, hlead, htrail, by simp⟩
      · cases hd
        exact List.mem_cons_self
      · rwa [← hlast]
    have hfirst : ∀ d ∈ (gap ++ argument).head?, isBlank d = true := by
      obtain ⟨b, gap', rfl⟩ := List.exists_cons_of_ne_nil (hapart hargument)
      rintro d hd
      cases hd
      exact hgap _ List.mem_cons_self
    obtain ⟨hword, hafter⟩ := firstWord_append h.solid hfirst
    rw [htrim, List.append_assoc]
    refine ⟨hword, hafter.trans ?_⟩
    exact trim_eq_iff.2 ⟨h.trimmed, gap, [], hgap, nofun, by simp⟩

/-- Whatever is not blank has a word, and perhaps an argument. -/
theorem words_of_not_blanks (h : ¬ Blanks s) :
    Words s (firstWord (trim s)) (afterWord (trim s)) := by
  obtain ⟨htrimmed, lead, trail, hlead, htrail, hs⟩ := trim_eq_iff.1 (rfl : trim s = trim s)
  have hne : trim s ≠ [] := mt trim_eq_nil_iff.1 h
  generalize trim s = t at htrimmed hs hne
  obtain ⟨htrimmed', gap, trail', hgap, htrail', hrest⟩ :=
    trim_eq_iff.1 (rfl : afterWord t = afterWord t)
  have hsplit : firstWord t ++ t.dropWhile (!isBlank ·) = t := List.takeWhile_append_dropWhile
  constructor
  case ne_nil =>
    obtain ⟨c, rest, rfl⟩ := List.exists_cons_of_ne_nil hne
    simp [firstWord, htrimmed.head c rfl]
  case solid =>
    intro c hc
    simpa using List.mem_takeWhile_imp hc
  case trimmed => exact htrimmed'
  case parts =>
    refine ⟨lead, gap, trail' ++ trail, hlead, hgap, htrail'.append htrail, ?_, ?_⟩
    · -- The text behind the word begins with a blank, and the argument does not.
      rintro hargument rfl
      obtain ⟨c, rest, hcons⟩ := List.exists_cons_of_ne_nil hargument
      have hblank := List.head?_dropWhile_not (!isBlank ·) t
      have hsolid := htrimmed'.head c (by rw [hcons]; rfl)
      rw [hrest, hcons] at hblank
      simp [hsolid] at hblank
    · calc
        s = lead ++ (firstWord t ++ t.dropWhile (!isBlank ·)) ++ trail := by rw [hsplit, hs]
        _ = lead ++ firstWord t ++ gap ++ afterWord t ++ (trail' ++ trail) := by
          rw [hrest]
          simp only [List.append_assoc]

/-- A text has a word unless it is blank, and one word and one argument only. -/
theorem words_iff :
    Words s word argument ↔
      ¬ Blanks s ∧ firstWord (trim s) = word ∧ afterWord (trim s) = argument := by
  constructor
  · intro h
    refine ⟨fun hs => ?_, h.eq⟩
    have hword : firstWord (trim s) = [] := by
      rw [trim_eq_nil_iff.2 hs]
      rfl
    exact h.ne_nil (h.eq.1.symm.trans hword)
  · rintro ⟨h, rfl, rfl⟩
    exact words_of_not_blanks h

end Rollout.Text
