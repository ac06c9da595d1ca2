import Rollout.Plan.Event
import Rollout.Proofs.Json.Reordered
import Rollout.Proofs.Time.RoundTrip

/-!
# Envelopes are read back

What is written of a status, an event or an envelope is read as the same, whatever the order of the
fields. A pending status is written without the field that all other statuses have.

* `Status.ofJson?_reordered`: a status is read back, so different statuses are written differently
  (`Status.eq_of_reordered`).
* `Event.ofJson?_reordered`: an event is read back, if its moment is.
* `Envelope.read_written`: an envelope is read back, if its moments are.
-/

namespace Rollout

open Json (Reordered)

/-! ## Statuses -/

namespace Status

/-- A status is written as its name and its reason, which may be left out if there is none. -/
theorem exists_fields (s : Status) :
    ∃ fields, s.toJson = .obj fields ∧ (fields.map (·.1)).Nodup ∧
      fields.lookup "status" = some (.str s.name) ∧
      (fields.lookup "reason" = some (Json.ofOption .str s.reason) ∨
        fields.lookup "reason" = none ∧ s.reason = none) := by
  cases s with
  | pending => exact ⟨_, rfl, by decide, rfl, .inr ⟨rfl, rfl⟩⟩
  | submitted | complete | skipped | failed | cancelled =>
    exact ⟨_, rfl, by simp, rfl, .inl rfl⟩

/-- The name and the reason are those of one status only. -/
theorem ofParts?_name (s : Status) : ofParts? s.name (Json.ofOption .str s.reason) = some s := by
  cases s with
  | pending => rfl
  | submitted reason | complete reason | skipped reason | failed reason | cancelled reason =>
    cases reason <;> rfl

/-- A status is read back, whatever the order of its fields. -/
theorem ofJson?_reordered (s : Status) {v : Json} (h : Reordered s.toJson v) :
    ofJson? v = some s := by
  obtain ⟨fields, hfields, hdistinct, hname, hreason⟩ := s.exists_fields
  rw [hfields] at h
  have hname' := h.field?_eq hdistinct "status" hname Reordered.eq_str
  have hreason' : (v.field? "reason").getD .null = Json.ofOption .str s.reason := by
    rcases hreason with hreason | ⟨hmissing, hnone⟩
    · rw [h.field?_eq hdistinct "reason" hreason Reordered.eq_ofOption_str, Option.getD_some]
    · rw [h.field?_eq_none hdistinct "reason" hmissing, hnone]
      rfl
  obtain ⟨fields', rfl⟩ := h.exists_obj
  unfold ofJson?
  rw [hname', hreason']
  exact s.ofParts?_name

/-- Different statuses are written differently. -/
theorem eq_of_reordered {s s' : Status} {v : Json} (h : Reordered s.toJson v)
    (h' : Reordered s'.toJson v) : s = s' := by
  apply Option.some.inj
  rw [← s.ofJson?_reordered h, s'.ofJson?_reordered h']

end Status

/-! ## Events -/

/-- A moment that is read back from its text is read back as a value. -/
theorem Timestamp.ofJson?_toJson {t : Timestamp} (ht : Timestamp.parse? t.render = some t) :
    Timestamp.ofJson? t.toJson = some t := by
  rw [Timestamp.toJson, Timestamp.ofJson?, Json.text?, Option.bind_some, ht]

theorem Json.nat?_nat {n bound : Nat} (hn : n < bound) : (Json.nat n).nat? bound = some n :=
  if_pos hn

namespace Event

/-- The moments in an event. -/
def moments : Event → List Timestamp
  | stepChanged _ _ lastUpdated => [lastUpdated]
  | planStarted _ _ | planFinished _ _ => []

theorem mapM_text?_map_str (texts : List String) :
    (texts.map Json.str).mapM Json.text? = some texts := by
  induction texts with
  | nil => rfl
  | cons s texts ih =>
    rw [List.map_cons, List.mapM_cons, ih]
    rfl

theorem started?_ofTexts (description : String) (steps : List String) :
    started? (.str description) (Json.ofTexts steps) = some (planStarted description steps) := by
  unfold started? Json.ofTexts
  simp only [Json.text?, Json.items?, Option.bind_eq_bind, Option.bind_some, mapM_text?_map_str,
    Option.pure_def]

/-- An event is read back, whatever the order of its fields, if its moment is. -/
theorem ofJson?_reordered (e : Event) {v : Json}
    (hmoments : ∀ t ∈ e.moments, Timestamp.parse? t.render = some t) (h : Reordered e.toJson v) :
    ofJson? v = some e := by
  cases e with
  | planStarted description steps =>
    have hdistinct : ["type", "description", "steps"].Nodup := by decide
    have htype := h.field?_eq hdistinct "type" rfl Reordered.eq_str
    have hdescription := h.field?_eq hdistinct "description" rfl Reordered.eq_str
    have hsteps := h.field?_eq hdistinct "steps" rfl Reordered.eq_ofTexts
    obtain ⟨fields', rfl⟩ := h.exists_obj
    simp only [ofJson?, htype, hdescription, hsteps, started?_ofTexts, Option.bind_eq_bind,
      Option.bind_some]
  | stepChanged step status lastUpdated =>
    have hdistinct : ["type", "step", "status", "last_updated"].Nodup := by decide
    have htype := h.field?_eq hdistinct "type" rfl Reordered.eq_str
    have hstep := h.field?_eq hdistinct "step" rfl Reordered.eq_str
    obtain ⟨status', hstatus, hr⟩ := h.exists_field? hdistinct "status" rfl
    have hlastUpdated := h.field?_eq hdistinct "last_updated" rfl Reordered.eq_str
    obtain ⟨fields', rfl⟩ := h.exists_obj
    have hread : changed? (.str step) status' lastUpdated.toJson =
        some (stepChanged step status lastUpdated) := by
      have hmoment := Timestamp.ofJson?_toJson (hmoments lastUpdated List.mem_cons_self)
      simp [changed?, Json.text?, status.ofJson?_reordered hr, hmoment]
    simp only [ofJson?, htype, hstep, hstatus, hlastUpdated, hread, Option.bind_eq_bind,
      Option.bind_some]
  | planFinished outcome durationMs =>
    have hdistinct : ["type", "outcome", "duration_ms"].Nodup := by decide
    have htype := h.field?_eq hdistinct "type" rfl Reordered.eq_str
    have houtcome := h.field?_eq hdistinct "outcome" rfl Reordered.eq_str
    have hdurationMs := h.field?_eq hdistinct "duration_ms" rfl Reordered.eq_nat
    obtain ⟨fields', rfl⟩ := h.exists_obj
    have hread : finished? (.str outcome) (.nat durationMs.toNat) =
        some (planFinished outcome durationMs) := by
      simp [finished?, Json.text?, Json.nat?_nat durationMs.toNat_lt_size]
    simp only [ofJson?, htype, houtcome, hdurationMs, hread, Option.bind_eq_bind, Option.bind_some]

end Event

/-! ## Envelopes -/

namespace Envelope

/-- The moments in an envelope and its event. -/
def moments (e : Envelope) : List Timestamp := e.timestamp :: e.event.moments

/-- An envelope is read back, whatever the order of its fields, if its moments are. -/
theorem ofJson?_reordered (e : Envelope) {v : Json}
    (hmoments : ∀ t ∈ e.moments, Timestamp.parse? t.render = some t) (h : Reordered e.toJson v) :
    ofJson? v = some e := by
  have hdistinct : ["version", "sequence", "run_id", "timestamp", "event"].Nodup := by decide
  have hversion := h.field?_eq hdistinct "version" rfl Reordered.eq_nat
  have hsequence := h.field?_eq hdistinct "sequence" rfl Reordered.eq_nat
  have hrunId := h.field?_eq hdistinct "run_id" rfl Reordered.eq_str
  have htimestamp := h.field?_eq hdistinct "timestamp" rfl Reordered.eq_str
  obtain ⟨event, hevent, hr⟩ := h.exists_field? hdistinct "event" rfl
  obtain ⟨fields', rfl⟩ := h.exists_obj
  have hread : ofFields? (.nat e.version.toNat) (.nat e.sequence.toNat) (.str e.runId)
      e.timestamp.toJson event = some e := by
    obtain ⟨hsent, hrest⟩ := List.forall_mem_cons.1 hmoments
    simp [ofFields?, Json.text?, Json.nat?_nat e.version.toNat_lt_size,
      Json.nat?_nat e.sequence.toNat_lt_size, Timestamp.ofJson?_toJson hsent,
      e.event.ofJson?_reordered hrest hr]
  simp only [ofJson?, hversion, hsequence, hrunId, htimestamp, hevent, hread, Option.bind_eq_bind,
    Option.bind_some]

/-- A moment of the calendar is read back from its text. An envelope whose moments are read back
from their texts is read back from what is written of it, whatever the order of the fields. So is a
status, and no two statuses are written the same. -/
theorem read_written :
    (∀ t : Timestamp, t.IsCivil → Timestamp.parse? t.render = some t) ∧
      (∀ e : Envelope, (∀ t ∈ e.moments, Timestamp.parse? t.render = some t) →
        ∀ v, Reordered e.toJson v → ofJson? v = some e) ∧
      (∀ (s : Status) v, Reordered s.toJson v → Status.ofJson? v = some s) ∧
      ∀ (s s' : Status) v, Reordered s.toJson v → Reordered s'.toJson v → s = s' := by
  refine ⟨?_, ?_, ?_, ?_⟩
  · intro t ht
    exact ht.parse?_render
  · intro e hmoments v h
    exact e.ofJson?_reordered hmoments h
  · intro s v h
    exact s.ofJson?_reordered h
  · intro s s' v h h'
    exact Status.eq_of_reordered h h'

/-- A step that failed in a year before the year 0, told in a leap second. -/
def late : Envelope :=
  ⟨4294967295, 18446744073709551615, "run", ⟨1483228799, 1500000000⟩,
    .stepChanged "app" (.failed (some "")) ⟨-62198755200, 1⟩⟩

/-- What is written of it, with all fields the other way round. -/
def turnedLate : Json :=
  .obj [("version", .nat 4294967295), ("sequence", .nat 18446744073709551615),
    ("run_id", .str "run"), ("timestamp", .str "2016-12-31T23:59:60.500Z"),
    ("event", .obj [("type", .str "StepStatusChanged"), ("step", .str "app"),
      ("status", .obj [("status", .str "failed"), ("reason", .str "")].reverse),
      ("last_updated", .str "-0001-01-01T00:00:00.000000001Z")].reverse)].reverse

theorem reordered_late : Reordered late.toJson turnedLate := by
  refine .reverse rfl
    (.cons (.refl _) (.cons (.refl _) (.cons (.refl _) (.cons (.refl _) (.cons ?_ .nil)))))
  refine .reverse rfl (.cons (.refl _) (.cons (.refl _) (.cons ?_ (.cons (.refl _) .nil))))
  exact .reverse rfl (.cons (.refl _) (.cons (.refl _) .nil))

/-- The fields of the envelope, of its event and of the status in it are read in another order. -/
theorem read_written_late :
    (∀ t ∈ late.moments, Timestamp.parse? t.render = some t) ∧
      Reordered late.toJson turnedLate ∧ ofJson? turnedLate = some late := by
  obtain ⟨hcivil, hread, -⟩ := read_written
  have hmoments : ∀ t ∈ late.moments, Timestamp.parse? t.render = some t := by
    refine List.forall_mem_cons.2 ⟨hcivil _ ?_, List.forall_mem_cons.2 ⟨hcivil _ ?_, ?_⟩⟩
    · exact ⟨by decide, by decide, by decide, by decide⟩
    · exact ⟨by decide, by decide, by decide, by decide⟩
    · exact fun t ht => absurd ht List.not_mem_nil
  exact ⟨hmoments, reordered_late, hread late hmoments turnedLate reordered_late⟩

end Envelope

end Rollout
