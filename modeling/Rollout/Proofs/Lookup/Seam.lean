import Rollout.Lookup.Basic
import Rollout.Proofs.Data.Lookup
import Rollout.Proofs.Lookup.Grammar
import Rollout.Proofs.Plan.Job

/-!
# Texts put together

A text followed by another one has the pieces of both, unless a dollar and a brace that come
together make an opener. So it stands for what the first stands for, followed by what the second
stands for.

* `Token.Splits`: an opener is split between two texts.
* `Token.join`: the pieces of two texts, plain text at the seam joined.
* `Token.Layout.exists_join`: texts are put together by their layouts.
* `LookupRegistry.resolveTokens_append`: pieces are resolved one after the other.
* `LookupRegistry.Steady`: lookups that find the same each time.
  `LookupRegistry.Steady.resolves_iff`: what a text stands for then.
* `LookupRegistry.resolve_append`: all of this for two texts.
-/

namespace Rollout

namespace Token

/-- The first text ends with a dollar and the second begins with a brace. -/
def Splits (a b : List Char) : Prop := a.getLast? = some '$' ∧ b.head? = some '{'

/-- Some pieces, then others. Plain text that meets plain text becomes one piece. -/
def join : List Token → List Token → List Token
  | [], us => us
  | [.literal x], .literal y :: us => .literal (x ++ y) :: us
  | t :: ts, us => t :: join ts us

/-! ## The seam -/

/-- An opener in two texts is in one of them or split between them. -/
theorem not_opener_infix_append {l m : List Char} (hl : ¬ opener <:+: l) (hm : ¬ opener <:+: m)
    (hseam : ¬ Splits l m) : ¬ opener <:+: l ++ m := by
  intro hopener
  rcases Text.pair_infix_append_iff.1 hopener with hin | hin | hacross
  · exact hl hin
  · exact hm hin
  · exact hseam hacross

/-- Plain text in front of plain text is one piece, or none if there is no text. -/
theorem join_plain (l m : List Char) {us : List Token}
    (hus : ∀ text, us.head? ≠ some (.literal text)) :
    join (plain l) (plain m ++ us) = plain (l ++ m) ++ us := by
  cases l with
  | nil => rfl
  | cons c l =>
    cases m with
    | nil =>
      cases us with
      | nil => simp [plain, join]
      | cons u us =>
        cases u with
        | literal text => exact absurd rfl (hus text)
        | lookup kind argument => simp [plain, join]
    | cons d m => simp [plain, join, String.append_assoc]

/-- Behind a lookup the seam is further to the right. -/
theorem join_lookup (l : List Char) (i : Inner) (ts us : List Token) :
    join (plain l ++ i.token :: ts) us = plain l ++ i.token :: join ts us := by
  unfold Inner.token
  cases l with
  | nil => simp [plain, join]
  | cons c l => simp [plain, join]

/-- Two texts that are put together make one, with the pieces of both. -/
theorem Layout.exists_join {a b : Layout} (hseam : ¬ Splits a.text b.text) :
    ∃ c : Layout, c.text = a.text ++ b.text ∧ c.tokens = join a.tokens b.tokens := by
  induction a with
  | last l =>
    cases b with
    | last m =>
      refine ⟨.last ⟨l.text ++ m.text, not_opener_infix_append l.unopened m.unopened hseam⟩, rfl,
        ?_⟩
      have hjoin : join (plain l.text) (plain m.text ++ []) = plain (l.text ++ m.text) ++ [] :=
        join_plain l.text m.text nofun
      simpa [tokens] using hjoin.symm
    | lookup m i rest =>
      have hseam' : ¬ Splits l.text m.text := by
        rintro ⟨hlast, hhead⟩
        exact hseam ⟨hlast, by simp [text, hhead]⟩
      have hplain := not_opener_infix_append l.unopened m.unopened hseam'
      refine ⟨.lookup ⟨l.text ++ m.text, hplain⟩ i rest, by simp [text], ?_⟩
      exact (join_plain l.text m.text (by simp [Inner.token])).symm
  | lookup l i rest ih =>
    have hseam' : ¬ Splits rest.text b.text := by
      rintro ⟨hlast, hhead⟩
      exact hseam ⟨by simp [text, List.getLast?_append, hlast], hhead⟩
    obtain ⟨c, htext, htokens⟩ := ih hseam'
    refine ⟨.lookup l i c, by simp [text, htext], ?_⟩
    show plain l.text ++ i.token :: c.tokens =
      join (plain l.text ++ i.token :: rest.tokens) b.tokens
    rw [htokens, join_lookup]

end Token

/-- Two strings that are put together make one, with the pieces of both. -/
theorem tokenize_append {a b : String} {ts us : List Token} (ha : tokenize a = .ok ts)
    (hb : tokenize b = .ok us) (hseam : ¬ Token.Splits a.toList b.toList) :
    tokenize (a ++ b) = .ok (Token.join ts us) := by
  rw [tokenize_eq_ok_iff, Token.scan_eq_ok_iff] at ha hb
  obtain ⟨layout, hlayout, rfl⟩ := ha
  obtain ⟨layout', hlayout', rfl⟩ := hb
  rw [← hlayout, ← hlayout'] at hseam
  obtain ⟨joined, htext, htokens⟩ := Token.Layout.exists_join hseam
  rw [tokenize_eq_ok_iff, String.toList_append, ← hlayout, ← hlayout', ← htext, ← htokens]
  exact joined.scan_text

namespace LookupRegistry

variable {σ : Type} {r : LookupRegistry} {ctx : LookupContext} {provider : Provider σ}
  {worlds : σ → Prop} {found : String → String → Except (Option String) (Except Error String)}

/-! ## What texts stand for -/

/-- A text resolves to another one in a world of a provider. -/
def Resolves (r : LookupRegistry) (ctx : LookupContext) (provider : Provider σ) (world : σ)
    (text result : String) : Prop :=
  ((r.resolve ctx text).run.perform provider world).2 = .ok (.ok result)

/-- In some worlds the lookups find the same for an argument each time, and they do not lead out of
these worlds. What is found may be an error or a crash. -/
structure Steady (r : LookupRegistry) (ctx : LookupContext) (provider : Provider σ)
    (worlds : σ → Prop) (found : String → String → Except (Option String) (Except Error String)) :
    Prop where
  /-- What is found for an argument. -/
  same : ∀ kind lookup, r.get? kind = some lookup → ∀ argument world, worlds world →
    ((lookup.handle ctx argument).run.perform provider world).2 = found kind argument
  /-- Where that leaves the provider. -/
  stays : ∀ kind lookup, r.get? kind = some lookup → ∀ argument world, worlds world →
    worlds ((lookup.handle ctx argument).run.perform provider world).1

/-- A piece stands for a text: plain text for itself, and a lookup for what it finds. -/
inductive Finds (r : LookupRegistry)
    (found : String → String → Except (Option String) (Except Error String)) :
    Token → String → Prop where
  | literal (text : String) : Finds r found (.literal text) text
  | lookup {kind argument text : String} {lookup : Lookup} (known : r.get? kind = some lookup)
      (finds : found kind argument = .ok (.ok text)) : Finds r found (.lookup kind argument) text

theorem resolve_of_tokenize {v : String} {tokens : List Token} (h : tokenize v = .ok tokens) :
    r.resolve ctx v = r.resolveTokens ctx tokens := by
  rw [resolve, h]
  rfl

/-- Some pieces stand for what they stand for, followed by what the others stand for. -/
theorem resolveTokens_append (ts us : List Token) :
    r.resolveTokens ctx (ts ++ us) = (do
      let x ← r.resolveTokens ctx ts
      let y ← r.resolveTokens ctx us
      pure (x ++ y)) := by
  induction ts with
  | nil => simp only [List.nil_append, resolveTokens, pure_bind, String.empty_append, bind_pure]
  | cons t ts ih =>
    rw [List.cons_append, resolveTokens, ih, resolveTokens]
    simp only [bind_assoc, pure_bind, String.append_assoc]

/-- It makes no difference that plain text is joined. -/
theorem resolveTokens_join (ts us : List Token) :
    r.resolveTokens ctx (Token.join ts us) = r.resolveTokens ctx (ts ++ us) := by
  fun_induction Token.join ts us with
  | case1 us => rfl
  | case2 x y us =>
    rw [List.singleton_append, resolveTokens, resolveTokens, resolveTokens]
    simp only [resolveToken, bind_assoc, pure_bind, String.append_assoc]
  | case3 t ts us _ ih => rw [List.cons_append, resolveTokens, resolveTokens, ih]

theorem resolveToken_of_get? {kind : String} {lookup : Lookup} (h : r.get? kind = some lookup)
    (argument : String) :
    r.resolveToken ctx (.lookup kind argument) = lookup.handle ctx argument := by
  simp only [resolveToken, h]

theorem resolveToken_of_not_get? {kind : String} (h : r.get? kind = none) (argument : String) :
    r.resolveToken ctx (.lookup kind argument) = throw (.lookup kind "unknown lookup type") := by
  simp only [resolveToken, h]

namespace Steady

variable (h : r.Steady ctx provider worlds found) {world : σ} (hworld : worlds world)
include h hworld

/-- A piece stands for the same text in all these worlds, and resolving it leads to such a world. -/
theorem resolveToken_iff (token : Token) :
    worlds ((r.resolveToken ctx token).run.perform provider world).1 ∧ ∀ text,
      ((r.resolveToken ctx token).run.perform provider world).2 = .ok (.ok text) ↔
        r.Finds found token text := by
  cases token with
  | literal x =>
    refine ⟨hworld, fun text => ⟨fun hx => ?_, fun hx => ?_⟩⟩
    · cases hx
      exact .literal x
    · cases hx
      rfl
  | lookup kind argument =>
    cases hkind : r.get? kind with
    | none =>
      rw [resolveToken_of_not_get? hkind]
      refine ⟨hworld, fun text => ⟨nofun, fun hx => ?_⟩⟩
      cases hx with
      | lookup known _ =>
        rw [hkind] at known
        cases known
    | some lookup =>
      rw [resolveToken_of_get? hkind, h.same kind lookup hkind argument world hworld]
      refine ⟨h.stays kind lookup hkind argument world hworld, fun text => ⟨.lookup hkind, ?_⟩⟩
      rintro ⟨⟩
      assumption

/-- So do pieces one after the other. -/
theorem resolveTokens_iff (tokens : List Token) :
    worlds ((r.resolveTokens ctx tokens).run.perform provider world).1 ∧ ∀ text,
      ((r.resolveTokens ctx tokens).run.perform provider world).2 = .ok (.ok text) ↔
        ∃ parts, List.Forall₂ (r.Finds found) tokens parts ∧ text = String.join parts := by
  induction tokens generalizing world with
  | nil =>
    refine ⟨hworld, fun text => ⟨fun hx => ?_, ?_⟩⟩
    · cases hx
      exact ⟨[], .nil, rfl⟩
    · rintro ⟨parts, hparts, rfl⟩
      cases hparts
      rfl
  | cons token tokens ih =>
    obtain ⟨hfirst, hfinds⟩ := h.resolveToken_iff hworld token
    obtain ⟨hrest, hparts⟩ := ih hfirst
    rw [resolveTokens]
    refine ⟨Job.perform_bind_run_leaves _ hfirst fun found =>
      Job.perform_bind_run_leaves _ hrest fun others => hrest, fun text => ?_⟩
    simp only [Job.perform_bind_run_eq_ok_iff, hfinds, hparts, List.forall₂_cons_left_iff]
    constructor
    · rintro ⟨part, hpart, _, ⟨parts, hall, rfl⟩, hdone⟩
      cases hdone
      exact ⟨part :: parts, ⟨part, parts, hpart, hall, rfl⟩, String.join_cons.symm⟩
    · rintro ⟨_, ⟨part, parts, hpart, hall, rfl⟩, rfl⟩
      exact ⟨part, hpart, _, ⟨parts, hall, rfl⟩, by rw [String.join_cons]; rfl⟩

/-- A text stands for what its pieces stand for, one after the other. Text that is found is taken as
it is. -/
theorem resolves_iff {v : String} {tokens : List Token} (hv : tokenize v = .ok tokens)
    (text : String) :
    r.Resolves ctx provider world v text ↔
      ∃ parts, List.Forall₂ (r.Finds found) tokens parts ∧ text = String.join parts := by
  unfold Resolves
  rw [resolve_of_tokenize hv]
  exact (h.resolveTokens_iff hworld tokens).2 text

end Steady

/-- Two texts of which each can be taken apart, and which do not split an opener, make a text with
the pieces of both. To resolve it is to resolve the one and then the other, whatever the lookups do.
So if the lookups find the same each time, it stands for what the one stands for, followed by what
the other stands for; and a text stands for its plain text and for what its lookups find, as these
are, one after the other. -/
theorem resolve_append {a b : String} {ts us : List Token} (ha : tokenize a = .ok ts)
    (hb : tokenize b = .ok us) (hseam : ¬ Token.Splits a.toList b.toList) :
    tokenize (a ++ b) = .ok (Token.join ts us) ∧
    (∀ (r : LookupRegistry) (ctx : LookupContext), r.resolve ctx (a ++ b) = (do
      let x ← r.resolve ctx a
      let y ← r.resolve ctx b
      pure (x ++ y))) ∧
    ∀ (r : LookupRegistry) (ctx : LookupContext) (σ : Type) (provider : Provider σ)
      (worlds : σ → Prop) (found : String → String → Except (Option String) (Except Error String)),
      r.Steady ctx provider worlds found →
      (∀ w₁ w₂ w₃ x y, worlds w₁ → worlds w₂ → worlds w₃ → r.Resolves ctx provider w₁ a x →
        r.Resolves ctx provider w₂ b y → r.Resolves ctx provider w₃ (a ++ b) (x ++ y)) ∧
      ∀ world x, worlds world → (r.Resolves ctx provider world a x ↔
        ∃ parts, List.Forall₂ (r.Finds found) ts parts ∧ x = String.join parts) := by
  have hjoined := tokenize_append ha hb hseam
  have hresolve : ∀ (r : LookupRegistry) (ctx : LookupContext), r.resolve ctx (a ++ b) = (do
      let x ← r.resolve ctx a
      let y ← r.resolve ctx b
      pure (x ++ y)) := by
    intro r ctx
    rw [resolve_of_tokenize hjoined, resolve_of_tokenize ha, resolve_of_tokenize hb,
      resolveTokens_join, resolveTokens_append]
  refine ⟨hjoined, hresolve, fun r ctx σ provider worlds found h => ⟨?_, ?_⟩⟩
  · intro w₁ w₂ w₃ x y h₁ h₂ h₃ hx hy
    obtain ⟨parts, hparts, rfl⟩ := (h.resolves_iff h₁ ha x).1 hx
    obtain ⟨others, hothers, rfl⟩ := (h.resolves_iff h₂ hb y).1 hy
    unfold Resolves
    rw [resolve_of_tokenize hjoined, resolveTokens_join]
    apply ((h.resolveTokens_iff h₃ (ts ++ us)).2 _).2
    exact ⟨parts ++ others, List.rel_append hparts hothers, String.join_append.symm⟩
  · exact fun world x hworld => h.resolves_iff hworld ha x

/-- A dollar and a brace that come together make a lookup of two plain texts. -/
example :
    tokenize "$" = .ok [.literal "$"] ∧ tokenize "\x7bx\x7d" = .ok [.literal "\x7bx\x7d"] ∧
      tokenize ("$" ++ "\x7bx\x7d") = .ok [.lookup "x" ""] := by
  decide +kernel

/-- The registry of a lookup that finds its argument in braces, behind a dollar. -/
def quoting : LookupRegistry :=
  ⟨Table.empty.insert "quote" ⟨fun _ argument => pure ("$\x7b" ++ argument ++ "\x7d")⟩⟩

theorem steady_quoting :
    quoting.Steady {} .absent (fun _ => True)
      fun _ argument => .ok (.ok ("$\x7b" ++ argument ++ "\x7d")) := by
  constructor
  · intro kind lookup hlookup argument world _
    have hmem := mem_of_lookup_eq_some hlookup
    cases List.mem_singleton.1 hmem
    rfl
  · exact fun _ _ _ _ _ _ => trivial

/-- What the lookup finds would be a lookup of a kind that nobody knows, if it were looked at again.
Plain text meets at the seam. -/
theorem resolve_append_quoting :
    tokenize "$\x7bquote x\x7d-" = .ok [.lookup "quote" "x", .literal "-"] ∧
    tokenize "-$\x7bquote y\x7d" = .ok [.literal "-", .lookup "quote" "y"] ∧
    tokenize ("$\x7bquote x\x7d-" ++ "-$\x7bquote y\x7d") =
      .ok [.lookup "quote" "x", .literal "--", .lookup "quote" "y"] ∧
    quoting.Resolves {} .absent () "$\x7bquote x\x7d-" "$\x7bx\x7d-" ∧
    quoting.Resolves {} .absent () ("$\x7bquote x\x7d-" ++ "-$\x7bquote y\x7d")
      ("$\x7bx\x7d-" ++ "-$\x7by\x7d") := by
  have ha : tokenize "$\x7bquote x\x7d-" = .ok [.lookup "quote" "x", .literal "-"] := by
    decide +kernel
  have hb : tokenize "-$\x7bquote y\x7d" = .ok [.literal "-", .lookup "quote" "y"] := by
    decide +kernel
  have hseam : ¬ Token.Splits "$\x7bquote x\x7d-".toList "-$\x7bquote y\x7d".toList := by
    unfold Token.Splits
    decide +kernel
  obtain ⟨hjoined, -, hsteady⟩ := resolve_append ha hb hseam
  obtain ⟨hjoin, hsingle⟩ := hsteady quoting {} Unit .absent _ _ steady_quoting
  have hx : quoting.Resolves {} .absent () "$\x7bquote x\x7d-" "$\x7bx\x7d-" :=
    (hsingle () _ trivial).2
      ⟨["$\x7bx\x7d", "-"], .cons (.lookup rfl rfl) (.cons (.literal "-") .nil), by decide +kernel⟩
  have hy : quoting.Resolves {} .absent () "-$\x7bquote y\x7d" "-$\x7by\x7d" := by
    unfold Resolves
    decide +kernel
  exact ⟨ha, hb, hjoined.trans (by decide +kernel), hx,
    hjoin () () () _ _ trivial trivial trivial hx hy⟩

end LookupRegistry

end Rollout
