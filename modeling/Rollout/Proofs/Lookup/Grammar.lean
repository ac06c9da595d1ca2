import Rollout.Lookup.Token
import Rollout.Proofs.Data.Except
import Rollout.Proofs.Text.Cut
import Rollout.Proofs.Text.Words

/-!
# How lookups are written

A text is taken apart if it is plain text with lookups in it, one after the other. The pieces are
those parts, and written again they give the same pieces.

* `Token.Plain`, `Token.Inner`, `Token.Layout`: a text as it is put together.
* `Token.Faulty`: what is wrong behind an opener that begins no lookup.
* `Token.scan_eq_ok_iff`, `Token.scan_eq_error_iff`: what comes of a text.
* `Token.Layout.rewritten`: the layout that writing the pieces gives.
* `tokenize_grammar`: all of this for `tokenize`.
-/

namespace Rollout

namespace Token

/-- Plain text: nothing in it opens a lookup. -/
structure Plain where
  /-- The text. -/
  text : List Char
  /-- No opener is in it. -/
  unopened : ¬ opener <:+: text

/-- What stands between the braces of a lookup. -/
structure Inner where
  /-- The text. -/
  text : List Char
  /-- Nothing in it closes the lookup. -/
  unclosed : '}' ∉ text
  /-- It is not blank. -/
  not_blanks : ¬ Text.Blanks text

/-- A text as it is put together: plain text, then lookups, with plain text behind each of them. -/
inductive Layout where
  | last (plain : Plain)
  | lookup (plain : Plain) (inner : Inner) (rest : Layout)

/-- The kind is the first word of what stands between the braces, trimmed, and the argument is the
rest, trimmed. -/
def Inner.token (i : Inner) : Token :=
  .lookup (String.ofList (Text.firstWord (Text.trim i.text)))
    (String.ofList (Text.afterWord (Text.trim i.text)))

/-- The text. -/
def Layout.text : Layout → List Char
  | last l => l.text
  | lookup l i rest => l.text ++ opener ++ i.text ++ closer ++ rest.text

/-- Its pieces. Plain text without any character is none. -/
def Layout.tokens : Layout → List Token
  | last l => plain l.text
  | lookup l i rest => plain l.text ++ i.token :: rest.tokens

/-- What follows an opener makes no lookup: it is not closed, or only blanks stand before it is. -/
inductive Faulty (rest : List Char) : Fault → Prop where
  | unterminated (unclosed : '}' ∉ rest) : Faulty rest .unterminated
  | empty {blanks after : List Char} (parts : rest = blanks ++ closer ++ after)
      (isBlank : Text.Blanks blanks) : Faulty rest .empty

/-! ## One lookup after the other -/

theorem closer_infix_iff {s : List Char} : closer <:+: s ↔ '}' ∈ s := List.singleton_infix_iff _ _

/-- No brace is blank. -/
theorem not_mem_of_blanks {s : List Char} (h : Text.Blanks s) : '}' ∉ s := fun hmem =>
  absurd (h _ hmem) (by decide)

theorem ofInner_of_blanks {s : List Char} (h : Text.Blanks s) : ofInner s = .error .empty := by
  simp [ofInner, Text.trim_eq_nil_iff.2 h]

theorem Inner.ofInner_text (i : Inner) : ofInner i.text = .ok i.token := by
  have hne : Text.trim i.text ≠ [] := mt Text.trim_eq_nil_iff.1 i.not_blanks
  simp [ofInner, token, hne]

theorem scan_of_uncut {s : List Char} (h : Text.cut? opener s = none) : scan s = .ok (plain s) := by
  rw [scan]
  split
  · rfl
  · next hsome =>
    rw [h] at hsome
    cases hsome

/-- The first opener decides what is next. -/
theorem scan_of_cut {s before rest : List Char} (h : Text.cut? opener s = some (before, rest)) :
    scan s =
      match Text.cut? closer rest with
      | none => .error .unterminated
      | some (inner, after) => (do
        let found ← ofInner inner
        let tokens ← scan after
        pure (plain before ++ found :: tokens)) := by
  rw [scan]
  split
  · next hnone =>
    rw [h] at hnone
    cases hnone
  · next hsome =>
    rw [h] at hsome
    cases hsome
    split
    · next hclose => rw [hclose]
    · next hclose => rw [hclose]

variable {s rest : List Char} {fault : Fault} {tokens : List Token}

theorem Plain.scan_text (l : Plain) : scan l.text = .ok (plain l.text) :=
  scan_of_uncut (Text.cut?_eq_none_iff.2 l.unopened)

theorem Plain.cut?_text (l : Plain) (rest : List Char) :
    Text.cut? opener (l.text ++ opener ++ rest) = some (l.text, rest) :=
  Text.cut?_append (by decide) l.unopened

theorem cut?_closer {inner : List Char} (h : '}' ∉ inner) (rest : List Char) :
    Text.cut? closer (inner ++ closer ++ rest) = some (inner, rest) :=
  Text.cut?_append (by decide) (mt closer_infix_iff.1 h)

/-- A lookup is a piece, and what follows is taken apart in the same way. -/
theorem Plain.scan_lookup (l : Plain) (i : Inner) (rest : List Char) :
    scan (l.text ++ opener ++ i.text ++ closer ++ rest) =
      (scan rest).map fun tokens => plain l.text ++ i.token :: tokens := by
  have hcut := l.cut?_text (i.text ++ closer ++ rest)
  simp only [← List.append_assoc] at hcut
  rw [scan_of_cut hcut, cut?_closer i.unclosed]
  simp only [i.ofInner_text]
  cases scan rest <;> rfl

/-- A fault behind the first opener is the fault of the text. -/
theorem Plain.scan_faulty (l : Plain) (h : Faulty rest fault) :
    scan (l.text ++ opener ++ rest) = .error fault := by
  rw [scan_of_cut (l.cut?_text rest)]
  cases h with
  | unterminated hrest => rw [Text.cut?_eq_none_iff.2 (mt closer_infix_iff.1 hrest)]
  | empty hrest hblanks =>
    rw [hrest, cut?_closer (not_mem_of_blanks hblanks)]
    simp only [ofInner_of_blanks hblanks]
    rfl

/-! ## Texts and their layouts -/

namespace Layout

/-- A text that is put together like this has these pieces. -/
theorem scan_text (layout : Layout) : scan layout.text = .ok layout.tokens := by
  induction layout with
  | last l => exact l.scan_text
  | lookup l i rest ih =>
    unfold text tokens
    rw [l.scan_lookup, ih]
    rfl

/-- The first fault is told, wherever it is. -/
theorem scan_faulty (layout : Layout) (h : Faulty rest fault) :
    scan (layout.text ++ opener ++ rest) = .error fault := by
  induction layout with
  | last l => exact l.scan_faulty h
  | lookup l i next ih =>
    unfold text
    rw [List.append_assoc _ next.text, List.append_assoc _ (next.text ++ opener), l.scan_lookup, ih]
    rfl

end Layout

/-- Every text is put together from plain text and lookups, up to the first opener at fault if there
is one. -/
theorem exists_layout (s : List Char) :
    (∃ layout : Layout, layout.text = s) ∨
      ∃ (layout : Layout) (rest : List Char) (fault : Fault),
        s = layout.text ++ opener ++ rest ∧ Faulty rest fault := by
  induction hn : s.length using Nat.strong_induction_on generalizing s with
  | _ n ih =>
    cases hopen : Text.cut? opener s with
    | none => exact .inl ⟨.last ⟨s, Text.cut?_eq_none_iff.1 hopen⟩, rfl⟩
    | some sides =>
      obtain ⟨before, rest⟩ := sides
      have hs := Text.eq_append_of_cut? hopen
      let l : Plain := ⟨before, Text.not_infix_of_cut? (by decide) hopen⟩
      cases hclose : Text.cut? closer rest with
      | none =>
        have hunclosed : '}' ∉ rest := mt closer_infix_iff.2 (Text.cut?_eq_none_iff.1 hclose)
        exact .inr ⟨.last l, rest, _, hs, .unterminated hunclosed⟩
      | some sides =>
        obtain ⟨inner, after⟩ := sides
        have hrest := Text.eq_append_of_cut? hclose
        by_cases hblanks : Text.Blanks inner
        · exact .inr ⟨.last l, rest, _, hs, .empty hrest hblanks⟩
        · have hunclosed : '}' ∉ inner := fun hmem =>
            Text.not_infix_of_cut? (by decide) hclose (closer_infix_iff.2 hmem)
          have hshorter : after.length < n := by
            have h₁ := Text.length_after_lt (by decide) hopen
            have h₂ := Text.length_after_lt (by decide) hclose
            omega
          let i : Inner := ⟨inner, hunclosed, hblanks⟩
          have htext : ∀ layout : Layout, layout.text = after → (layout.lookup l i).text = s := by
            rintro layout rfl
            simp [Layout.text, l, i, hs, hrest]
          rcases ih after.length hshorter after rfl with ⟨layout, h⟩ | ⟨layout, later, fault, h, hf⟩
          · exact .inl ⟨.lookup l i layout, htext layout h⟩
          · refine .inr ⟨.lookup l i layout, later, fault, ?_, hf⟩
            simp [Layout.text, l, i, hs, hrest, h]

/-- The pieces of a text are those of its layout. -/
theorem scan_eq_ok_iff :
    scan s = .ok tokens ↔ ∃ layout : Layout, layout.text = s ∧ layout.tokens = tokens := by
  constructor
  · intro h
    rcases exists_layout s with ⟨layout, rfl⟩ | ⟨layout, rest, fault, rfl, hf⟩
    · exact ⟨layout, rfl, Except.ok.inj (layout.scan_text.symm.trans h)⟩
    · cases (layout.scan_faulty hf).symm.trans h
  · rintro ⟨layout, rfl, rfl⟩
    exact layout.scan_text

/-- A text is refused for the first opener at fault. -/
theorem scan_eq_error_iff :
    scan s = .error fault ↔
      ∃ (layout : Layout) (rest : List Char), s = layout.text ++ opener ++ rest ∧
        Faulty rest fault := by
  constructor
  · intro h
    rcases exists_layout s with ⟨layout, rfl⟩ | ⟨layout, rest, fault', rfl, hf⟩
    · cases layout.scan_text.symm.trans h
    · cases (layout.scan_faulty hf).symm.trans h
      exact ⟨layout, rest, rfl, hf⟩
  · rintro ⟨layout, rest, rfl, hf⟩
    exact layout.scan_faulty hf

/-! ## Written again -/

namespace Inner

/-- What stands between the braces is a word and an argument, blanks aside. -/
theorem words_text (i : Inner) :
    Text.Words i.text (Text.firstWord (Text.trim i.text)) (Text.afterWord (Text.trim i.text)) :=
  Text.words_of_not_blanks i.not_blanks

/-- A word and an argument as they are written, with one blank between them. -/
def spell (word argument : List Char) : List Char :=
  word ++ if argument.isEmpty then [] else ' ' :: argument

theorem words_spell {word argument : List Char} (h : Text.Words s word argument) :
    Text.Words (spell word argument) word argument := by
  refine ⟨h.ne_nil, h.solid, h.trimmed, [], if argument.isEmpty then [] else [' '], [], nofun, ?_,
    nofun, ?_, ?_⟩
  · cases argument <;> simp [Text.Blanks, Text.isBlank]
  · cases argument <;> simp
  · cases argument <;> simp [spell]

theorem not_mem_spell {word argument : List Char} (h : Text.Words s word argument)
    (hs : '}' ∉ s) : '}' ∉ spell word argument := by
  obtain ⟨lead, gap, trail, -, -, -, -, rfl⟩ := h.parts
  simp only [List.mem_append, not_or] at hs
  obtain ⟨⟨⟨⟨-, hword⟩, -⟩, hargument⟩, -⟩ := hs
  unfold spell
  cases argument <;> simp_all

/-- The same lookup as it is written. -/
def rewritten (i : Inner) : Inner where
  text := spell (Text.firstWord (Text.trim i.text)) (Text.afterWord (Text.trim i.text))
  unclosed := not_mem_spell i.words_text i.unclosed
  not_blanks := (Text.words_iff.1 (words_spell i.words_text)).1

theorem token_rewritten (i : Inner) : i.rewritten.token = i.token := by
  obtain ⟨hword, hargument⟩ := (words_spell i.words_text).eq
  unfold token rewritten
  rw [hword, hargument]

theorem write_token (i : Inner) : i.token.write = opener ++ i.rewritten.text ++ closer := by
  unfold token rewritten spell
  simp [write]

end Inner

theorem flatMap_write_plain (l : List Char) : (plain l).flatMap write = l := by
  unfold plain
  cases l <;> simp [write]

namespace Layout

/-- The same pieces as they are written. -/
def rewritten : Layout → Layout
  | last l => last l
  | lookup l i rest => lookup l i.rewritten rest.rewritten

theorem tokens_rewritten (layout : Layout) : layout.rewritten.tokens = layout.tokens := by
  induction layout with
  | last l => rfl
  | lookup l i rest ih =>
    unfold rewritten tokens
    rw [i.token_rewritten, ih]

theorem text_rewritten (layout : Layout) :
    layout.rewritten.text = layout.tokens.flatMap write := by
  induction layout with
  | last l => exact (flatMap_write_plain l.text).symm
  | lookup l i rest ih =>
    unfold rewritten tokens text
    rw [List.flatMap_append, flatMap_write_plain, List.flatMap_cons, i.write_token, ih]
    simp only [List.append_assoc]

/-- What is written has the same pieces. -/
theorem scan_write (layout : Layout) :
    scan (layout.tokens.flatMap write) = .ok layout.tokens := by
  rw [← layout.text_rewritten, layout.rewritten.scan_text, layout.tokens_rewritten]

end Layout

end Token

theorem tokenize_eq_ok_iff {v : String} {tokens : List Token} :
    tokenize v = .ok tokens ↔ Token.scan v.toList = .ok tokens := by
  unfold tokenize
  cases Token.scan v.toList <;> simp [Except.mapError]

theorem tokenize_eq_error_iff {v : String} {e : Error} :
    tokenize v = .error e ↔ ∃ fault, Token.scan v.toList = .error fault ∧ fault.toError v = e := by
  unfold tokenize
  cases Token.scan v.toList <;> simp [Except.mapError]

/-- A text is taken apart exactly if it is plain text with lookups in it, none of which is blank,
and the pieces are these parts: a lookup is told by the first word between its braces and by what
follows the word, blanks aside. Otherwise the first opener that begins no lookup is at fault: it is
not closed, or only blanks stand before it is. The pieces, written one after the other, have the
same pieces again. -/
theorem tokenize_grammar :
    (∀ v tokens, tokenize v = .ok tokens ↔
      ∃ layout : Token.Layout, layout.text = v.toList ∧ layout.tokens = tokens) ∧
    (∀ v e, tokenize v = .error e ↔
      ∃ (layout : Token.Layout) (rest : List Char) (fault : Token.Fault),
        v.toList = layout.text ++ Token.opener ++ rest ∧ Token.Faulty rest fault ∧
          fault.toError v = e) ∧
    (∀ inner : Token.Inner, ∃ word argument, Text.Words inner.text word argument ∧
      inner.token = .lookup (String.ofList word) (String.ofList argument)) ∧
    ∀ v tokens, tokenize v = .ok tokens →
      tokenize (String.ofList (tokens.flatMap Token.write)) = .ok tokens := by
  refine ⟨fun v tokens => ?_, fun v e => ?_, fun inner => ?_, fun v tokens h => ?_⟩
  · rw [tokenize_eq_ok_iff, Token.scan_eq_ok_iff]
  · rw [tokenize_eq_error_iff]
    constructor
    · rintro ⟨fault, hscan, rfl⟩
      obtain ⟨layout, rest, hs, hf⟩ := Token.scan_eq_error_iff.1 hscan
      exact ⟨layout, rest, fault, hs, hf, rfl⟩
    · rintro ⟨layout, rest, fault, hs, hf, rfl⟩
      exact ⟨fault, Token.scan_eq_error_iff.2 ⟨layout, rest, hs, hf⟩, rfl⟩
  · exact ⟨_, _, inner.words_text, rfl⟩
  · rw [tokenize_eq_ok_iff, Token.scan_eq_ok_iff] at h
    obtain ⟨layout, -, rfl⟩ := h
    rw [tokenize_eq_ok_iff, String.toList_ofList]
    exact layout.scan_write

/-- Dollars before an opener, an opener inside a lookup, and blanks of several kinds. -/
def Token.Layout.tangled : Layout :=
  .lookup ⟨['a', '$'], by decide⟩
    ⟨[' ', 'o', '\u00a0', ' ', 'b', ' ', ' ', 'c', ' '], by decide, by decide⟩
    (.lookup ⟨['}'], by decide⟩ ⟨['$', '{', 'x'], by decide, by decide⟩
      (.last ⟨['{', '$'], by decide⟩))

/-- The pieces of that text are those of the same text with fewer blanks. Of two faults the first
one is told. -/
theorem tokenize_grammar_tangled :
    tokenize "a$$\x7b o\u00a0 b  c \x7d\x7d$\x7b$\x7bx\x7d\x7b$" =
      .ok [.literal "a$", .lookup "o" "b  c", .literal "\x7d", .lookup "$\x7bx" "",
        .literal "\x7b$"] ∧
    tokenize "a$$\x7bo b  c\x7d\x7d$\x7b$\x7bx\x7d\x7b$" =
      .ok [.literal "a$", .lookup "o" "b  c", .literal "\x7d", .lookup "$\x7bx" "",
        .literal "\x7b$"] ∧
    tokenize "x$\x7b \x7d$\x7by" =
      .error (.lookup "parse" "empty lookup in 'x$\x7b \x7d$\x7by'") := by
  obtain ⟨hpieces, hfaults, -, hagain⟩ := tokenize_grammar
  have hfirst := (hpieces "a$$\x7b o\u00a0 b  c \x7d\x7d$\x7b$\x7bx\x7d\x7b$" _).2
    ⟨Token.Layout.tangled, by cbv, rfl⟩
  refine ⟨hfirst.trans (by cbv), ?_, ?_⟩
  · exact (hagain _ _ hfirst).trans (by cbv)
  · have hparts : [' ', '}', '$', '{', 'y'] = [' '] ++ Token.closer ++ ['$', '{', 'y'] := rfl
    exact (hfaults _ _).2 ⟨.last ⟨['x'], by decide⟩, [' ', '}', '$', '{', 'y'], .empty, by cbv,
      .empty hparts (by decide), by cbv⟩

end Rollout
