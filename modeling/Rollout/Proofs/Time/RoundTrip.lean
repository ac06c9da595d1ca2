import Rollout.Proofs.Text.Digits
import Rollout.Proofs.Time.Calendar
import Rollout.Time.Reader

/-!
# Moments are read back

What is written of a moment is read as the same moment, if its year has a date and a leap second
stands at the end of a minute.

* `Numeral`: digits that are a number, as many as they are.
* `number?_numeral`, `year?_renderYear`, `fraction?_renderFraction`: each part of the text is read
  back, whatever comes behind it.
* `ofCivil?_parts`: the parts make the moment again.
* `IsCivil.parse?_render`: the whole text.
-/

namespace Rollout.Timestamp

open Reader

/-! ## Numbers -/

/-- The text is the number `n` in exactly `width` digits. -/
structure Numeral (width n : Nat) (text : List Char) : Prop where
  digits : ∀ c ∈ text, c.isDigit = true
  length_eq : text.length = width
  decimal_eq : Text.decimal text = n

theorem toList_padded (width n : Nat) :
    (padded width n).toList =
      List.replicate (width - (Nat.toDigits 10 n).length) '0' ++ Nat.toDigits 10 n := by
  unfold padded
  simp [← String.length_toList]

/-- A number in digits, with zeros before it up to some width. -/
theorem numeral_padded (width n : Nat) :
    Numeral (max width (Nat.toDigits 10 n).length) n (padded width n).toList := by
  rw [toList_padded]
  refine ⟨fun c hc => ?_, ?_, ?_⟩
  · rcases List.mem_append.1 hc with hzero | hdigit
    · rw [(List.mem_replicate.1 hzero).2]
      rfl
    · exact Text.isDigit_of_mem_toDigits hdigit
  · rw [List.length_append, List.length_replicate]
    omega
  · rw [Text.decimal_replicate_zero_append, Text.decimal_toDigits]

theorem numeral_padded_of_lt {width n : Nat} (hwidth : 0 < width) (hn : n < 10 ^ width) :
    Numeral width n (padded width n).toList := by
  have h := numeral_padded width n
  rwa [max_eq_left ((Nat.length_toDigits_le_iff (by decide) hwidth).2 hn)] at h

theorem isBlank_of_isDigit {c : Char} (h : c.isDigit = true) : Text.isBlank c = false := by
  have hrange : 48 ≤ c.toNat ∧ c.toNat ≤ 57 := by
    simpa [Char.isDigit, UInt32.le_iff_toNat_le] using h
  unfold Text.isBlank
  simp
  omega

theorem skip_cons {c : Char} (hc : Text.isBlank c = false) (s : List Char) :
    skip (c :: s) = c :: s := by
  unfold skip
  rw [List.dropWhile_cons_of_neg (by simp [hc])]

/-- Digits are read up to the limit, or up to what is no digit. -/
theorem digits_append {limit : Nat} {text rest : List Char} (hdigits : ∀ c ∈ text, c.isDigit = true)
    (hlimit : text.length ≤ limit)
    (hstop : text.length < limit → ∀ c ∈ rest.head?, c.isDigit = false) :
    Reader.digits limit (text ++ rest) = (text, rest) := by
  induction text generalizing limit with
  | nil =>
    cases rest with
    | nil => simp [Reader.digits]
    | cons c rest =>
      cases limit with
      | zero => simp [Reader.digits]
      | succ limit =>
        have hc := hstop (Nat.succ_pos limit) c rfl
        simp [Reader.digits, hc]
  | cons c text ih =>
    obtain ⟨hc, hdigits⟩ := List.forall_mem_cons.1 hdigits
    cases limit with
    | zero => simp at hlimit
    | succ limit =>
      have hrest := ih hdigits (Nat.le_of_succ_le_succ hlimit) fun h =>
        hstop (Nat.succ_lt_succ h)
      simp [Reader.digits, hc, hrest]

namespace Numeral

variable {width n : Nat} {text : List Char}

theorem ne_nil (h : Numeral (width + 1) n text) : text ≠ [] := by
  rintro rfl
  simpa using h.length_eq

/-- There are no blanks to skip before a number. -/
theorem skip_append (h : Numeral (width + 1) n text) (rest : List Char) :
    skip (text ++ rest) = text ++ rest := by
  obtain ⟨c, text, rfl⟩ := List.exists_cons_of_ne_nil h.ne_nil
  exact skip_cons (isBlank_of_isDigit (h.digits c List.mem_cons_self)) _

theorem number? (h : Numeral (width + 1) n text) (rest : List Char) :
    Reader.number? (width + 1) (text ++ rest) = some (n, rest) := by
  have hread : Reader.digits (width + 1) (text ++ rest) = (text, rest) :=
    digits_append h.digits h.length_eq.le fun hlt => absurd h.length_eq hlt.ne
  unfold Reader.number?
  rw [h.skip_append, hread]
  obtain ⟨c, text, rfl⟩ := List.exists_cons_of_ne_nil h.ne_nil
  simp [h.decimal_eq]

end Numeral

theorem number?_padded {width n : Nat} (hn : n < 10 ^ (width + 1)) (rest : List Char) :
    Reader.number? (width + 1) ((padded (width + 1) n).toList ++ rest) = some (n, rest) :=
  (numeral_padded_of_lt (Nat.succ_pos width) hn).number? rest

theorem expect?_cons {c : Char} (hc : Text.isBlank c = false) (s : List Char) :
    expect? c (c :: s) = some s := by
  unfold expect?
  simp [skip_cons hc]

/-! ## The parts of a text -/

theorem Numeral.signed? {width n : Nat} {text : List Char} (h : Numeral (width + 1) n text)
    {rest : List Char} (hstop : ∀ c ∈ rest.head?, c.isDigit = false) :
    year?.signed? (text ++ rest) = some (n, rest) := by
  have hread : Reader.digits (text ++ rest).length (text ++ rest) = (text, rest) :=
    digits_append h.digits (by simp) fun _ => hstop
  unfold year?.signed?
  rw [hread]
  obtain ⟨c, text, rfl⟩ := List.exists_cons_of_ne_nil h.ne_nil
  simp [h.decimal_eq]

theorem year?_minus {s rest : List Char} {n : Nat} (h : year?.signed? s = some (n, rest)) :
    year? ('-' :: s) = some (-(n : Int), rest) := by
  unfold year?
  rw [skip_cons (by decide)]
  simp [h]

theorem year?_plus {s rest : List Char} {n : Nat} (h : year?.signed? s = some (n, rest)) :
    year? ('+' :: s) = some ((n : Int), rest) := by
  unfold year?
  rw [skip_cons (by decide)]
  simp [h]

theorem Numeral.year? {n : Nat} {text : List Char} (h : Numeral 4 n text) (rest : List Char) :
    Reader.year? (text ++ rest) = some ((n : Int), rest) := by
  have hread := h.number? rest
  unfold Reader.year?
  rw [h.skip_append]
  obtain ⟨c, text, rfl⟩ := List.exists_cons_of_ne_nil h.ne_nil
  have hc := h.digits c List.mem_cons_self
  rw [List.cons_append] at hread ⊢
  split
  · next heq =>
    obtain ⟨rfl, -⟩ := List.cons.inj heq
    cases hc
  · next heq =>
    obtain ⟨rfl, -⟩ := List.cons.inj heq
    cases hc
  · rw [hread]
    rfl

/-- A year is read back if what comes behind it is no digit. -/
theorem year?_renderYear (year : Int) {rest : List Char}
    (hstop : ∀ c ∈ rest.head?, c.isDigit = false) :
    year? ((renderYear year).toList ++ rest) = some (year, rest) := by
  have hsigned : year?.signed? ((padded 4 year.natAbs).toList ++ rest) =
      some (year.natAbs, rest) := by
    have hnumeral := numeral_padded 4 year.natAbs
    obtain ⟨width, hwidth⟩ : ∃ width, max 4 (Nat.toDigits 10 year.natAbs).length = width + 1 :=
      Nat.exists_eq_add_one.2 (lt_max_of_lt_left (by decide))
    rw [hwidth] at hnumeral
    exact hnumeral.signed? hstop
  unfold renderYear
  split
  · next hneg =>
    have hyear : (-(year.natAbs : Int)) = year := by omega
    rw [String.toList_append]
    exact (year?_minus hsigned).trans (by rw [hyear])
  · next hpos =>
    have hyear : (year.natAbs : Int) = year := by omega
    split
    · next hle =>
      have hfour : year.natAbs < 10 ^ 4 := by omega
      exact ((numeral_padded_of_lt (by decide) hfour).year? rest).trans (by rw [hyear])
    · rw [String.toList_append]
      exact (year?_plus hsigned).trans (by rw [hyear])

/-- As many digits behind the point as there are groups of three. -/
theorem fraction?_point {width n : Nat} (hwidth : 0 < width) (hnine : width ≤ 9)
    (hn : n < 10 ^ width) {rest : List Char} (hstop : ∀ c ∈ rest.head?, c.isDigit = false) :
    fraction? (("." ++ padded width n).toList ++ rest) = some (n * 10 ^ (9 - width), rest) := by
  have hnumeral := numeral_padded_of_lt hwidth hn
  have hread : Reader.digits 9 ((padded width n).toList ++ rest) =
      ((padded width n).toList, rest) :=
    digits_append hnumeral.digits (hnumeral.length_eq.trans_le hnine) fun _ => hstop
  have hrest : rest.dropWhile Char.isDigit = rest := by
    cases rest with
    | nil => rfl
    | cons c rest => rw [List.dropWhile_cons_of_neg (by simp [hstop c rfl])]
  obtain ⟨width, rfl⟩ := Nat.exists_eq_add_one.2 hwidth
  obtain ⟨c, text, htext⟩ := List.exists_cons_of_ne_nil hnumeral.ne_nil
  have hdecimal := hnumeral.decimal_eq
  have hlength := hnumeral.length_eq
  rw [htext] at hread hdecimal hlength
  rw [String.toList_append, htext]
  show fraction? ('.' :: (c :: text ++ rest)) = _
  unfold fraction?
  simp only [hread, hdecimal, hlength, hrest]
  rfl

/-- The nanoseconds are read back, with none, three, six or nine digits. -/
theorem fraction?_renderFraction {nanos : Nat} (hnanos : nanos < 1000000000) (rest : List Char) :
    fraction? ((renderFraction nanos).toList ++ 'Z' :: rest) = some (nanos, 'Z' :: rest) := by
  have hstop : ∀ c ∈ ('Z' :: rest).head?, c.isDigit = false := by
    rintro c ⟨⟩
    rfl
  unfold renderFraction
  split
  · next hzero =>
    rw [hzero]
    rfl
  · split
    · next hthree =>
      rw [fraction?_point (by decide) (by decide) (by omega) hstop]
      congr 2
      omega
    · split
      · next hsix =>
        rw [fraction?_point (by decide) (by decide) (by omega) hstop]
        congr 2
        omega
      · rw [fraction?_point (by decide) (by decide) (by omega) hstop]
        congr 2
        omega

/-! ## Moments -/

theorem toList_render (t : Timestamp) :
    t.render.toList =
      let date := dateOfDays (t.seconds / 86400)
      let second := (t.seconds % 86400).toNat
      (renderYear date.1).toList ++ '-' :: ((padded 2 date.2.1).toList ++ '-' ::
        ((padded 2 date.2.2).toList ++ 'T' :: ((padded 2 (second / 3600)).toList ++ ':' ::
          ((padded 2 (second / 60 % 60)).toList ++ ':' ::
            ((padded 2 (second % 60 + t.nanos / 1000000000)).toList ++
              ((renderFraction (t.nanos % 1000000000)).toList ++ ['Z'])))))) := by
  unfold render
  simp

/-- The text of a date and a time of day is read as the moment of the two. -/
theorem parse?_parts (year : Int) {month day hour minute second nanos : Nat}
    (hmonth : month < 10 ^ 2) (hday : day < 10 ^ 2) (hhour : hour < 10 ^ 2)
    (hminute : minute < 10 ^ 2) (hsecond : second < 10 ^ 2) (hnanos : nanos < 1000000000)
    {text : String}
    (htext : text.toList = (renderYear year).toList ++ '-' :: ((padded 2 month).toList ++ '-' ::
        ((padded 2 day).toList ++ 'T' :: ((padded 2 hour).toList ++ ':' ::
          ((padded 2 minute).toList ++ ':' :: ((padded 2 second).toList ++
            ((renderFraction nanos).toList ++ ['Z']))))))) :
    Timestamp.parse? text = ofCivil? year month day hour minute second nanos 0 := by
  unfold Timestamp.parse?
  dsimp only [Option.bind_eq_bind]
  rw [htext, year?_renderYear year (by rintro c ⟨⟩; rfl), Option.bind_some,
    expect?_cons (by decide), Option.bind_some, number?_padded hmonth, Option.bind_some,
    expect?_cons (by decide), Option.bind_some, number?_padded hday, Option.bind_some]
  dsimp only
  rw [if_pos (by decide), Option.bind_some, number?_padded hhour, Option.bind_some,
    expect?_cons (by decide), Option.bind_some, number?_padded hminute, Option.bind_some,
    expect?_cons (by decide), Option.bind_some, number?_padded hsecond, Option.bind_some,
    fraction?_renderFraction hnanos, Option.bind_some]
  rfl

/-- The moment has a date that is written with its year, and if it is in a leap second, that second
ends a minute. -/
structure IsCivil (t : Timestamp) : Prop where
  le_year : -262143 ≤ (dateOfDays (t.seconds / 86400)).1
  year_le : (dateOfDays (t.seconds / 86400)).1 ≤ 262142
  nanos_lt : t.nanos < 2000000000
  leap : 1000000000 ≤ t.nanos → t.seconds % 60 = 59

namespace IsCivil

variable {t : Timestamp}

/-- The parts that a moment is written in make the moment again. -/
theorem ofCivil?_parts (h : t.IsCivil) :
    let date := dateOfDays (t.seconds / 86400)
    let second := (t.seconds % 86400).toNat
    ofCivil? date.1 date.2.1 date.2.2 (second / 3600) (second / 60 % 60)
      (second % 60 + t.nanos / 1000000000) (t.nanos % 1000000000) 0 = some t := by
  intro date second
  have hdate : IsDate date.1 date.2.1 date.2.2 := isDate_dateOfDays _
  have hdays : daysOfDate date.1 date.2.1 date.2.2 = t.seconds / 86400 := daysOfDate_dateOfDays _
  have hsecond : (second : Int) = t.seconds % 86400 := by omega
  have hnanos := h.nanos_lt
  have hleap : 1000000000 ≤ t.nanos → second % 60 = 59 := fun hleap => by
    have := h.leap hleap
    omega
  clear_value second
  unfold ofCivil?
  rw [if_pos ⟨h.le_year, h.year_le, hdate.one_le_month, hdate.month_le, hdate.one_le_day,
    hdate.day_le, by omega, by omega, by omega⟩, hdays]
  rw [Option.some_inj]
  apply Timestamp.ext
  · dsimp only
    split <;> omega
  · dsimp only
    split <;> omega

/-- A moment is read back from its text. -/
theorem parse?_render (h : t.IsCivil) : Timestamp.parse? t.render = some t := by
  have hdate := isDate_dateOfDays (t.seconds / 86400)
  have hday := hdate.day_le.trans (daysInMonth_le _ _)
  have hnanos := h.nanos_lt
  rw [parse?_parts _ (hdate.month_le.trans_lt (by decide)) (hday.trans_lt (by decide)) (by omega)
    (by omega) (by omega) (Nat.mod_lt _ (by decide)) (toList_render t)]
  exact h.ofCivil?_parts

end IsCivil

end Rollout.Timestamp
