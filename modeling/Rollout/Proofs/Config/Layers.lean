import Rollout.Config.Execution

/-!
# Options laid over the standard ones

The standard values stand in two places: as options with nothing left open, which others are laid
over, and as the values that are taken for what is open. It does not matter which of the two is
used.

* `layeredOn_assoc`, `layeredOn_self`: laying options over one another.
* `pollPolicy_layeredOn_standard` and its siblings: options ask for the same with the standard ones
  below them.
* `fault?_layeredOn_standard`: and they have the same fault, or none.
* `merge_eq`: what comes of two layers.
* `merge_keeps_meaning`: all this together.
-/

namespace Rollout.ExecutionOptions

/-! ## Layers -/

/-- It does not matter which of two neighbouring layers is put in place first. -/
theorem layeredOn_assoc (a b c : ExecutionOptions) :
    c.layeredOn (b.layeredOn a) = (c.layeredOn b).layeredOn a := by
  simp only [layeredOn, Option.orElse_eq_orElse, Option.orElse_eq_or, Option.or_assoc]

theorem layeredOn_self (o : ExecutionOptions) : o.layeredOn o = o := by
  obtain ⟨parallel, interval, limit, multiplier, jitter⟩ := o
  simp only [layeredOn, Option.orElse_eq_orElse, Option.orElse_eq_or, Option.or_self]

/-- A layer that is there twice counts once. -/
theorem layeredOn_layeredOn (o base : ExecutionOptions) :
    (o.layeredOn base).layeredOn base = o.layeredOn base := by
  rw [← layeredOn_assoc, layeredOn_self]

/-- Options have no fault exactly if they can be laid over others without one. -/
theorem merge_eq (base o : ExecutionOptions) :
    merge base o = (o.layeredOn base).validate.map fun _ => o.layeredOn base := by
  unfold merge validate
  cases (o.layeredOn base).fault? <;> rfl

theorem eq_layeredOn_of_merge {base o m : ExecutionOptions} (h : merge base o = .ok m) :
    m = o.layeredOn base := by
  unfold merge at h
  split at h
  · cases h
  · cases h
    rfl

/-! ## Above the standard options -/

/-- To take a value for what is open is to lay over that value. -/
theorem getD_orElse_some {β : Type} (x : Option β) (b : β) : (x <|> some b).getD b = x.getD b := by
  cases x <;> rfl

theorem parallel_layeredOn_standard (o : ExecutionOptions) :
    (o.layeredOn standard).parallel = o.parallel :=
  getD_orElse_some o.maxParallel standardMaxParallel

theorem pollInterval_layeredOn_standard (o : ExecutionOptions) :
    (o.layeredOn standard).pollInterval = o.pollInterval :=
  congrArg (· * 1000000) (getD_orElse_some o.pollIntervalMs standardPollIntervalMs)

theorem maxPollInterval_layeredOn_standard (o : ExecutionOptions) :
    (o.layeredOn standard).maxPollInterval = o.maxPollInterval :=
  congrArg (· * 1000000) (getD_orElse_some o.maxPollIntervalMs standardMaxPollIntervalMs)

theorem multiplier_layeredOn_standard (o : ExecutionOptions) :
    (o.layeredOn standard).multiplier = o.multiplier :=
  getD_orElse_some o.backoffMultiplier standardBackoffMultiplier

theorem pollPolicy_layeredOn_standard (o : ExecutionOptions) :
    (o.layeredOn standard).pollPolicy = o.pollPolicy := by
  have hjitter : (o.layeredOn standard).jitter.getD standardJitter = o.jitter.getD standardJitter :=
    getD_orElse_some o.jitter standardJitter
  unfold pollPolicy
  rw [pollInterval_layeredOn_standard, maxPollInterval_layeredOn_standard,
    multiplier_layeredOn_standard, hjitter]

theorem walker_layeredOn_standard (o : ExecutionOptions) :
    (o.layeredOn standard).walker = o.walker := by
  unfold walker
  rw [parallel_layeredOn_standard]

/-- The standard first wait is some time. -/
theorem pollIntervalMs_layeredOn_standard_eq_zero_iff (o : ExecutionOptions) :
    (o.layeredOn standard).pollIntervalMs = some 0 ↔ o.pollIntervalMs = some 0 := by
  show (o.pollIntervalMs <|> some standardPollIntervalMs) = some 0 ↔ _
  cases o.pollIntervalMs with
  | none => decide
  | some interval => rfl

/-- The standard multiplier is finite and not less than one. -/
theorem any_backoffMultiplier_layeredOn_standard (o : ExecutionOptions) :
    ((o.layeredOn standard).backoffMultiplier.any fun m => !m.isFinite || m < 1.0) =
      o.backoffMultiplier.any fun m => !m.isFinite || m < 1.0 := by
  show (o.backoffMultiplier <|> some standardBackoffMultiplier).any _ = _
  cases o.backoffMultiplier with
  | none => decide
  | some m => rfl

/-- The checks look at some fields as they are and at others with what is taken for them. With the
standard options below, they come out the same. -/
theorem fault?_layeredOn_standard (o : ExecutionOptions) :
    (o.layeredOn standard).fault? = o.fault? := by
  unfold fault?
  simp only [pollIntervalMs_layeredOn_standard_eq_zero_iff, pollInterval_layeredOn_standard,
    maxPollInterval_layeredOn_standard, any_backoffMultiplier_layeredOn_standard]

theorem validate_layeredOn_standard (o : ExecutionOptions) :
    (o.layeredOn standard).validate = o.validate := by
  unfold validate
  rw [fault?_layeredOn_standard]

/-- Options can be laid over the standard ones exactly if they have no fault, and the error is
theirs otherwise. What comes of it asks for the same: as many calls at once, the same waits, the
same walker; and laid over the standard options once more it stays as it is. Of three layers it does
not matter which two are put together first, as long as no fault is found on either way. -/
theorem merge_keeps_meaning (o : ExecutionOptions) :
    ((∃ m, merge standard o = .ok m) ↔ o.validate = .ok ()) ∧
      (∀ e, merge standard o = .error e ↔ o.validate = .error e) ∧
      (∀ m, merge standard o = .ok m →
        m.parallel = o.parallel ∧ m.pollPolicy = o.pollPolicy ∧ m.walker = o.walker ∧
          merge standard m = .ok m) ∧
      ∀ a b c ab bc x y : ExecutionOptions, merge a b = .ok ab → merge ab c = .ok x →
        merge b c = .ok bc → merge a bc = .ok y → x = y := by
  have hmerge : ∀ o, merge standard o = o.validate.map fun _ => o.layeredOn standard := by
    intro o
    rw [merge_eq, validate_layeredOn_standard]
  refine ⟨?_, fun e => ?_, fun m hm => ?_, fun a b c ab bc x y hab hx hbc hy => ?_⟩
  · rw [hmerge]
    cases o.validate <;> simp [Except.map]
  · rw [hmerge]
    cases o.validate <;> simp [Except.map]
  · obtain rfl := eq_layeredOn_of_merge hm
    refine ⟨parallel_layeredOn_standard o, pollPolicy_layeredOn_standard o,
      walker_layeredOn_standard o, ?_⟩
    rwa [hmerge, validate_layeredOn_standard, layeredOn_layeredOn, ← hmerge]
  · obtain rfl := eq_layeredOn_of_merge hab
    obtain rfl := eq_layeredOn_of_merge hbc
    rw [eq_layeredOn_of_merge hx, eq_layeredOn_of_merge hy, layeredOn_assoc]

/-- A first wait of five seconds is in order below the standard limit, which is filled in. One that
is above that limit is refused for it, with and without the standard options. -/
theorem merge_keeps_meaning_halfOpen :
    (∃ m, merge standard { pollIntervalMs := some 5000 } = .ok m ∧
      m.pollPolicy = pollPolicy { pollIntervalMs := some 5000 } ∧
      m.maxPollIntervalMs = some 10000 ∧ merge standard m = .ok m) ∧
      validate { pollIntervalMs := some 10001 } = .error Fault.limitBelowInterval.toError ∧
      merge standard { pollIntervalMs := some 10001 } =
        .error Fault.limitBelowInterval.toError := by
  have hvalid : validate { pollIntervalMs := some 5000 } = .ok () := rfl
  have hfault : validate { pollIntervalMs := some 10001 } =
      .error Fault.limitBelowInterval.toError := rfl
  obtain ⟨hok, -, hmeaning, -⟩ := merge_keeps_meaning { pollIntervalMs := some 5000 }
  obtain ⟨-, herror, -, -⟩ := merge_keeps_meaning { pollIntervalMs := some 10001 }
  obtain ⟨m, hm⟩ := hok.2 hvalid
  obtain ⟨-, hpolicy, -, hagain⟩ := hmeaning m hm
  refine ⟨⟨m, hm, hpolicy, ?_, hagain⟩, hfault, (herror _).2 hfault⟩
  rw [eq_layeredOn_of_merge hm]
  rfl

end Rollout.ExecutionOptions
