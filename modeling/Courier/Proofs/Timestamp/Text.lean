import Courier.Proofs.Timestamp.Calendar
import Courier.Timestamp.Text
import Mathlib.Algebra.Group.Nat.Defs

/-!
# Written timestamps are read back

Every part of a timestamp is written with a fixed number of digits or up to a mark that is no
digit, so reading finds its end. A leap second at the end of a minute is written as second 60 and
nothing else is, so it comes back as one. A leap second within a minute has the text of the second
that follows, and comes back as that.

## Main definitions

* `Timestamp.Spells`: a run of digits and the number that it stands for.
* `Timestamp.OnMinute`: leap seconds come at the end of a minute.
* `Timestamp.asRead`: the timestamp that a text has.

## Main results

* `Timestamp.asRead_eq_iff`: which timestamps are those of their texts.
* `Timestamp.read_write`: the text of a timestamp is read as the timestamp that it has.
-/

namespace Courier.Timestamp

/-! ### Runs of digits -/

/-- Digits that stand for the number `n`. -/
structure Spells (cs : List Char) (n : Nat) : Prop where
  nonempty : cs ≠ []
  digits : ∀ c ∈ cs, c.isDigit
  value : Nat.ofDigitChars 10 cs 0 = n

/-- The text does not go on with a digit. -/
def Stops (s : List Char) : Prop :=
  ∀ c ∈ s.head?, digit? c = none

theorem digit?_of_isDigit {c : Char} (digit : c.isDigit) :
    digit? c = some (c.toNat - '0'.toNat) := by
  obtain ⟨least, greatest⟩ := Char.isDigit_iff_toNat.1 digit
  have range : '0' ≤ c ∧ c ≤ '9' := ⟨Char.le_def.2 least, Char.le_def.2 greatest⟩
  rw [digit?, if_pos range]

theorem ofDigitChars_le (cs : List Char) (n : Nat) : n ≤ Nat.ofDigitChars 10 cs n := by
  induction cs generalizing n with
  | nil => exact Nat.le_refl n
  | cons c cs ih =>
    have next := ih (10 * n + (c.toNat - '0'.toNat))
    rw [Nat.ofDigitChars_cons]
    omega

/-- Digits are read up to the limit, or up to what is no digit. -/
theorem moreDigits_append {cs s : List Char} (digits : ∀ c ∈ cs, c.isDigit) {limit : Option Nat}
    (enough : ∀ k ∈ limit, cs.length ≤ k) (ends : limit = some cs.length ∨ Stops s) {n : Nat}
    (fits : Nat.ofDigitChars 10 cs n < int64Limit) :
    moreDigits n limit (cs ++ s) = .ok (Nat.ofDigitChars 10 cs n, s) := by
  induction cs generalizing limit n with
  | nil =>
    cases s with
    | nil => rfl
    | cons c s =>
      rw [List.nil_append, moreDigits]
      rcases ends with full | stops
      · rw [full]
        rfl
      · split
        · rfl
        · rw [stops c rfl]
          rfl
  | cons c cs ih =>
    have some : limit ≠ some 0 := fun none => absurd (enough 0 none) (by simp)
    have value := digit?_of_isDigit (digits c List.mem_cons_self)
    rw [Nat.ofDigitChars_cons, Nat.mul_comm] at fits ⊢
    have small := Nat.lt_of_le_of_lt (ofDigitChars_le cs _) fits
    rw [List.cons_append, moreDigits, if_neg some, value]
    simp only
    rw [if_pos small]
    refine ih (fun d here => digits d (List.mem_cons_of_mem c here)) ?_ ?_ fits
    · intro k here
      obtain ⟨j, limited, rfl⟩ := Option.map_eq_some_iff.1 here
      have := enough j limited
      rw [List.length_cons] at this
      omega
    · -- One digit less is missing to the limit, or the same text follows.
      rcases ends with full | stops
      · exact .inl (by rw [full]; rfl)
      · exact .inr stops

theorem Spells.number {cs s : List Char} {n : Nat} (spells : Spells cs n) {limit : Option Nat}
    (enough : ∀ k ∈ limit, cs.length ≤ k) (ends : limit = some cs.length ∨ Stops s)
    (fits : n < int64Limit) : number limit (cs ++ s) = .ok (n, s) := by
  obtain ⟨nonempty, digits, value⟩ := spells
  have read := moreDigits_append digits enough ends (by rwa [value])
  rw [value] at read
  cases cs with
  | nil => exact absurd rfl nonempty
  | cons c cs =>
    have first := digit?_of_isDigit (digits c List.mem_cons_self)
    rw [List.cons_append] at read ⊢
    rw [Timestamp.number, first]
    exact read

/-! ### Padded numbers -/

theorem ofDigitChars_zeros (k : Nat) (cs : List Char) :
    Nat.ofDigitChars 10 (List.replicate k '0' ++ cs) 0 = Nat.ofDigitChars 10 cs 0 := by
  induction k with
  | zero => rfl
  | succ k ih => rw [List.replicate_succ, List.cons_append, Nat.ofDigitChars_cons]; exact ih

theorem spells_padded (width n : Nat) : Spells (padded width n) n where
  nonempty := List.append_ne_nil_of_right_ne_nil _ Nat.toDigits_ne_nil
  digits := by
    intro c here
    rcases List.mem_append.1 here with here | here
    · rw [List.eq_of_mem_replicate here]
      rfl
    · exact Nat.isDigit_of_mem_toDigits (by decide) (by decide) here
  value := by
    rw [padded, ofDigitChars_zeros]
    exact Nat.ofDigitChars_toDigits (by decide) (by decide)

theorem length_padded {width n : Nat} (positive : 0 < width) (fits : n < 10 ^ width) :
    (padded width n).length = width := by
  have short := (Nat.length_toDigits_le_iff (by decide : 1 < 10) positive).2 fits
  rw [padded, List.length_append, List.length_replicate]
  omega

theorem trimStart_cons {c : Char} (visible : Text.isBlank c = false) (s : List Char) :
    Text.trimStart (c :: s) = c :: s := by
  rw [Text.trimStart, List.dropWhile_cons_of_neg (by rw [visible]; decide)]

theorem isBlank_of_isDigit {c : Char} (digit : c.isDigit) : Text.isBlank c = false := by
  obtain ⟨least, greatest⟩ := Char.isDigit_iff_toNat.1 digit
  have low : '0'.toNat = 48 := rfl
  have high : '9'.toNat = 57 := rfl
  simp only [Text.isBlank, Bool.or_eq_false_iff, Bool.and_eq_false_iff, decide_eq_false_iff_not]
  omega

theorem Spells.trimStart {cs s : List Char} {n : Nat} (spells : Spells cs n) :
    Text.trimStart (cs ++ s) = cs ++ s := by
  cases cs with
  | nil => exact absurd rfl spells.nonempty
  | cons c cs => exact trimStart_cons (isBlank_of_isDigit (spells.digits c List.mem_cons_self)) _

/-! ### Parts -/

theorem twoDigits_padded {n least greatest : Nat} (low : least ≤ n) (high : n ≤ greatest)
    (fits : n < 100) (s : List Char) :
    twoDigits least greatest (padded 2 n ++ s) = .ok (n, s) := by
  have spells := spells_padded 2 n
  have length : (padded 2 n).length = 2 := length_padded (by decide) fits
  have read : number (some 2) (padded 2 n ++ s) = .ok (n, s) := by
    refine spells.number (fun k here => ?_) (.inl (by rw [length])) ?_
    · rw [length]
      exact Nat.le_of_eq (Option.some.inj here)
    · exact Nat.lt_trans fits (by decide)
  simp only [twoDigits, spells.trimStart, read, bind, Except.bind]
  rw [if_pos ⟨low, high⟩]

theorem mark_cons {c : Char} (visible : Text.isBlank c = false) (s : List Char) :
    mark c (c :: s) = .ok s := by
  rw [mark, trimStart_cons visible]
  exact if_pos rfl

theorem year_writeYear {y : Int} (least : -262143 ≤ y) (greatest : y ≤ 262142) (s : List Char) :
    year (writeYear y ++ '-' :: s) = .ok (y, '-' :: s) := by
  have stops : Stops ('-' :: s) := fun c here => Option.some.inj here ▸ rfl
  unfold writeYear
  by_cases plain : 0 ≤ y ∧ y ≤ 9999
  · have spells := spells_padded 4 y.toNat
    have length : (padded 4 y.toNat).length = 4 := length_padded (by decide) (by omega)
    have read : number (some 4) (padded 4 y.toNat ++ '-' :: s) = .ok (y.toNat, '-' :: s) := by
      refine spells.number (fun k here => ?_) (.inr stops) ?_
      · rw [length]
        exact Nat.le_of_eq (Option.some.inj here)
      · unfold int64Limit
        omega
    rw [if_pos plain]
    unfold year
    rw [spells.trimStart]
    -- The text begins with a digit, which is no sign.
    cases shape : padded 4 y.toNat with
    | nil => exact absurd shape spells.nonempty
    | cons c cs =>
      have digit := spells.digits c (by rw [shape]; exact List.mem_cons_self)
      rw [shape, List.cons_append] at read
      rw [List.cons_append]
      split
      · next h => exact absurd digit (by rw [(List.cons.inj h).1]; decide)
      · next h => exact absurd digit (by rw [(List.cons.inj h).1]; decide)
      · rw [read, Except.map]
        simp only [Int.toNat_of_nonneg plain.1]
  · have read : number none (padded 4 y.natAbs ++ '-' :: s) = .ok (y.natAbs, '-' :: s) := by
      refine (spells_padded 4 y.natAbs).number nofun (.inr stops) ?_
      unfold int64Limit
      omega
    rw [if_neg plain]
    by_cases negative : y < 0
    · rw [if_pos negative]
      change (number none (padded 4 y.natAbs ++ '-' :: s)).map _ = _
      rw [read, Except.map]
      simp only [show -(y.natAbs : Int) = y by omega]
    · rw [if_neg negative]
      change (number none (padded 4 y.natAbs ++ '-' :: s)).map _ = _
      rw [read, Except.map]
      simp only [show (y.natAbs : Int) = y by omega]

theorem fraction_padded {width n : Nat} (positive : 0 < width) (most : width ≤ 9)
    (fits : n < 10 ^ width) :
    fraction ('.' :: padded width n ++ ['Z']) = .ok (n * 10 ^ (9 - width), ['Z']) := by
  have length : (padded width n).length = width := length_padded positive fits
  have stops : Stops ['Z'] := fun c here => Option.some.inj here ▸ rfl
  have read : number (some 9) (padded width n ++ ['Z']) = .ok (n, ['Z']) := by
    refine (spells_padded width n).number (fun k here => ?_) (.inr stops) ?_
    · rw [length, ← Option.some.inj here]
      exact most
    · have := Nat.pow_le_pow_right (by decide : 0 < 10) most
      unfold int64Limit
      omega
  have count : (padded width n ++ ['Z']).length - ['Z'].length = width := by
    rw [List.length_append, length]
    exact Nat.add_sub_cancel width 1
  rw [List.cons_append]
  simp only [fraction, read, bind, Except.bind, count]
  rfl

theorem fraction_writeFraction {n : Nat} (fits : n < 1000000000) :
    fraction (writeFraction n ++ ['Z']) = .ok (n, ['Z']) := by
  unfold writeFraction
  split
  · next none =>
    subst none
    rfl
  · split
    · next millis =>
      rw [fraction_padded (by decide) (by decide) (by omega),
        show n / 1000000 * 10 ^ (9 - 3) = n by omega]
    · split
      · next micros =>
        rw [fraction_padded (by decide) (by decide) (by omega),
          show n / 1000 * 10 ^ (9 - 6) = n by omega]
      · rw [fraction_padded (by decide) (by decide) fits, show n * 10 ^ (9 - 9) = n by omega]

/-! ### Timestamps -/

/-- The parts of a timestamp that is written. -/
def parts (t : Timestamp) : Parts where
  date := Date.ofDay (t.seconds / 86400)
  hour := (t.seconds % 86400).toNat / 3600
  minute := (t.seconds % 86400).toNat / 60 % 60
  second := (t.seconds % 86400).toNat % 60 + if 1000000000 ≤ t.nanos then 1 else 0
  nanos := t.nanos % 1000000000
  zone := 0

/-- The parts lie in the ranges that reading checks. -/
structure Parts.InRange (p : Parts) : Prop where
  year : -262143 ≤ p.date.year ∧ p.date.year ≤ 262142
  month : 1 ≤ p.date.month ∧ p.date.month ≤ 12
  day : 1 ≤ p.date.day ∧ p.date.day ≤ 31
  hour : p.hour ≤ 23
  minute : p.minute ≤ 59
  second : p.second ≤ 60
  nanos : p.nanos < 1000000000

theorem inRange_parts (t : Timestamp) : t.parts.InRange := by
  obtain ⟨months, days⟩ := Date.bounds_of_isValid (Date.isValid_ofDay (t.seconds / 86400))
  have least := t.seconds_ge
  have greatest := t.seconds_le
  exact {
    year := Date.year_ofDay (by omega) (by omega)
    month := months
    day := days
    hour := by simp only [parts]; omega
    minute := by simp only [parts]; omega
    second := by simp only [parts]; split <;> omega
    nanos := by simp only [parts]; omega }

/-- The text of a timestamp, part by part. -/
theorem write_eq (t : Timestamp) :
    t.write = writeYear t.parts.date.year ++ '-' :: (padded 2 t.parts.date.month ++
      '-' :: (padded 2 t.parts.date.day ++ 'T' :: (padded 2 t.parts.hour ++
        ':' :: (padded 2 t.parts.minute ++ ':' :: (padded 2 t.parts.second ++
          (writeFraction t.parts.nanos ++ ['Z'])))))) := by
  simp [write, writeParts, parts]

theorem readParts_write (t : Timestamp) : readParts t.write = .ok t.parts := by
  obtain ⟨⟨least, greatest⟩, months, days, hour, minute, second, nanos⟩ := inRange_parts t
  have range : ¬ (t.parts.date.year < -2147483648 ∨ 2147483647 < t.parts.date.year) := by omega
  have dash := fun s => mark_cons (by decide : Text.isBlank '-' = false) s
  have colon := fun s => mark_cons (by decide : Text.isBlank ':' = false) s
  have separated : ∀ s, separator ('T' :: s) = .ok s := fun s => rfl
  have zulu : zone (Text.trimStart ['Z']) = .ok (0, []) := rfl
  rw [write_eq]
  simp only [readParts, bind, Except.bind, year_writeYear least greatest, if_neg range, dash, colon,
    separated, twoDigits_padded months.1 months.2 (by omega),
    twoDigits_padded days.1 days.2 (by omega), twoDigits_padded (Nat.zero_le _) hour (by omega),
    twoDigits_padded (Nat.zero_le _) minute (by omega),
    twoDigits_padded (Nat.zero_le _) second (by omega), fraction_writeFraction nanos, zulu]
  rfl

/-! ### Leap seconds -/

/-- The timestamp is no leap second, or one that follows the last second of a minute. -/
def OnMinute (t : Timestamp) : Prop :=
  1000000000 ≤ t.nanos → t.seconds % 60 = 59

instance : DecidablePred OnMinute := fun t =>
  inferInstanceAs (Decidable (1000000000 ≤ t.nanos → t.seconds % 60 = 59))

/-- The timestamp as its text has it. A leap second within a minute has the text of the second that
follows. -/
def asRead (t : Timestamp) : Timestamp :=
  if h : t.OnMinute then t
  else
    have inside : 1000000000 ≤ t.nanos ∧ t.seconds % 60 ≠ 59 := by simpa [OnMinute] using h
    have least := t.seconds_ge
    -- The last second of all is the last one of its minute.
    have greatest := t.seconds_le
    have small := t.nanos_lt
    ⟨t.seconds + 1, t.nanos - 1000000000, by omega, by omega, by omega⟩

theorem asRead_of_onMinute {t : Timestamp} (h : t.OnMinute) : t.asRead = t :=
  dif_pos h

theorem asRead_of_not_onMinute {t : Timestamp} (h : ¬t.OnMinute) :
    t.asRead.seconds = t.seconds + 1 ∧ t.asRead.nanos = t.nanos - 1000000000 := by
  rw [asRead, dif_neg h]
  exact ⟨rfl, rfl⟩

/-- The timestamps that come back from their texts are those without a leap second within a
minute. -/
theorem asRead_eq_iff {t : Timestamp} : t.asRead = t ↔ t.OnMinute := by
  refine ⟨fun same => Decidable.byContradiction fun h => ?_, asRead_of_onMinute⟩
  have later := (asRead_of_not_onMinute h).1
  rw [same] at later
  omega

theorem onMinute_asRead (t : Timestamp) : t.asRead.OnMinute := by
  by_cases h : t.OnMinute
  · rwa [asRead_of_onMinute h]
  · intro leap
    have small := t.nanos_lt
    rw [(asRead_of_not_onMinute h).2] at leap
    omega

theorem parts_asRead (t : Timestamp) : t.asRead.parts = t.parts := by
  by_cases h : t.OnMinute
  · rw [asRead_of_onMinute h]
  · have inside : 1000000000 ≤ t.nanos ∧ t.seconds % 60 ≠ 59 := by simpa [OnMinute] using h
    obtain ⟨later, rest⟩ := asRead_of_not_onMinute h
    have small := t.nanos_lt
    -- The next second is one of the same minute.
    have day : (t.seconds + 1) / 86400 = t.seconds / 86400 := by omega
    have hour : ((t.seconds + 1) % 86400).toNat / 3600 = (t.seconds % 86400).toNat / 3600 := by
      omega
    have minute : ((t.seconds + 1) % 86400).toNat / 60 % 60 =
        (t.seconds % 86400).toNat / 60 % 60 := by omega
    have second : ((t.seconds + 1) % 86400).toNat % 60 = (t.seconds % 86400).toNat % 60 + 1 := by
      omega
    have below : ¬1000000000 ≤ t.nanos - 1000000000 := by omega
    have nanos : (t.nanos - 1000000000) % 1000000000 = t.nanos % 1000000000 := by omega
    simp only [parts, later, rest, day, hour, minute, second, nanos, if_neg below,
      if_pos inside.1, Nat.add_zero]

theorem write_asRead (t : Timestamp) : t.asRead.write = t.write := by
  rw [write_eq, write_eq, parts_asRead]

/-! ### Reading -/

/-- At the end of a minute only a leap second is written as second 60. -/
theorem second_parts {t : Timestamp} (h : t.OnMinute) :
    t.parts.second = 60 ↔ 1000000000 ≤ t.nanos := by
  simp only [parts]
  constructor
  · intro full
    split at full
    · assumption
    · omega
  · intro leap
    have minute := h leap
    rw [if_pos leap]
    omega

theorem seconds_parts {t : Timestamp} (h : t.OnMinute) :
    t.parts.date.toDay * 86400 + t.parts.hour * 3600 + t.parts.minute * 60 +
      (if t.parts.second = 60 then 59 else (t.parts.second : Int)) - t.parts.zone = t.seconds := by
  have day := Date.toDay_ofDay (t.seconds / 86400)
  by_cases leap : 1000000000 ≤ t.nanos
  · have minute := h leap
    rw [if_pos ((second_parts h).2 leap)]
    simp only [parts, day]
    omega
  · rw [if_neg (mt (second_parts h).1 leap)]
    simp only [parts, day, if_neg leap]
    omega

theorem nanos_parts {t : Timestamp} (h : t.OnMinute) :
    (if t.parts.second = 60 then t.parts.nanos + 1000000000 else t.parts.nanos) = t.nanos := by
  have small := t.nanos_lt
  by_cases leap : 1000000000 ≤ t.nanos
  · rw [if_pos ((second_parts h).2 leap)]
    simp only [parts]
    omega
  · rw [if_neg (mt (second_parts h).1 leap)]
    simp only [parts]
    omega

theorem read_write_of_onMinute {t : Timestamp} (h : t.OnMinute) : read t.write = .ok t := by
  obtain ⟨least, greatest⟩ := (inRange_parts t).year
  have valid : t.parts.date.isValid = true := Date.isValid_ofDay (t.seconds / 86400)
  have accepted : (!t.parts.date.isValid || decide (t.parts.date.year < -262143) ||
      decide (262142 < t.parts.date.year)) = false := by
    rw [valid, decide_eq_false (Int.not_lt.2 least), decide_eq_false (Int.not_lt.2 greatest)]
    rfl
  have near : ¬ (t.parts.zone ≤ -86400 ∨ 86400 ≤ t.parts.zone) := by
    rw [show t.parts.zone = 0 from rfl]
    decide
  have whole : ofUnix? t.seconds t.nanos = some t :=
    dif_pos ⟨t.seconds_ge, t.seconds_le, t.nanos_lt⟩
  rw [read, readParts_write]
  change ofParts t.parts = .ok t
  unfold ofParts
  rw [accepted, if_neg (by decide), if_neg near]
  simp only [seconds_parts h, nanos_parts h, whole]

/-- The text of a timestamp is read as the timestamp that it has. -/
theorem read_write (t : Timestamp) : read t.write = .ok t.asRead := by
  rw [← write_asRead]
  exact read_write_of_onMinute (onMinute_asRead t)

end Courier.Timestamp
