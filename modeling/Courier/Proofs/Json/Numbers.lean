import Courier.Json.Lexer

/-!
# Written numbers are read back

A whole number is written with its decimal digits, of which the first is no zero unless it stands
alone. The scanner of numbers adds the digits up again, as long as the number fits 64 bits, and
stops at the comma or bracket that follows a value.

## Main definitions

* `Json.Closes`: what follows a value within an array or an object.
* `Json.AllDigits`, `Json.significand`: a run of decimal digits, and the number that it makes up.

## Main results

* `Json.readNumber_digits`: the digits of a number are read as the number.
-/

namespace Courier.Json

/-- What follows a value within an array or an object: a comma, or the bracket or the brace at
the end. -/
inductive Closes : Bytes → Prop where
  | comma (s : Bytes) : Closes (0x2c :: s)
  | bracket (s : Bytes) : Closes (0x5d :: s)
  | brace (s : Bytes) : Closes (0x7d :: s)

/-! ### Runs of digits -/

/-- Every byte is a decimal digit. -/
def AllDigits (ds : Bytes) : Prop :=
  ∀ b ∈ ds, (digit? b).isSome

/-- The text does not go on with a digit. -/
def Stops (s : Bytes) : Prop :=
  ∀ b ∈ s.head?, digit? b = none

/-- The number that digits behind the significand `m` make up. -/
def significand (m : Nat) (ds : Bytes) : Nat :=
  ds.foldl (fun n b => n * 10 + (digit? b).getD 0) m

theorem Closes.stops {s : Bytes} (closes : Closes s) : Stops s := by
  cases closes <;> rintro b ⟨⟩ <;> decide

theorem AllDigits.nil : AllDigits [] :=
  nofun

theorem AllDigits.head {b : UInt8} {ds : Bytes} (digits : AllDigits (b :: ds)) :
    ∃ d, digit? b = some d :=
  Option.isSome_iff_exists.1 (digits b List.mem_cons_self)

theorem AllDigits.tail {b : UInt8} {ds : Bytes} (digits : AllDigits (b :: ds)) : AllDigits ds :=
  fun c here => digits c (List.mem_cons_of_mem b here)

theorem le_significand (m : Nat) (ds : Bytes) : m ≤ significand m ds := by
  induction ds generalizing m with
  | nil => exact Nat.le_refl m
  | cons b ds ih =>
    have next := ih (m * 10 + (digit? b).getD 0)
    have step : significand m (b :: ds) = significand (m * 10 + (digit? b).getD 0) ds := rfl
    omega

theorem dropDigits_append {ds s : Bytes} (digits : AllDigits ds) (stops : Stops s) (count : Nat) :
    dropDigits count (ds ++ s) = (count + ds.length, s) := by
  induction ds generalizing count with
  | nil =>
    cases s with
    | nil => rfl
    | cons b s => simp [dropDigits, stops b rfl]
  | cons b ds ih =>
    obtain ⟨d, value⟩ := digits.head
    simp only [List.cons_append, dropDigits, value, Option.isSome_some, if_true, ih digits.tail,
      List.length_cons, Prod.mk.injEq, and_true]
    omega

theorem moreDigits_append {ds s : Bytes} (digits : AllDigits ds) (stops : Stops s) {m : Nat}
    (fits : significand m ds < UInt64.size) (count : Nat) :
    moreDigits m count (ds ++ s) = (significand m ds, count + ds.length, s) := by
  induction ds generalizing m count with
  | nil =>
    cases s with
    | nil => rfl
    | cons b s => simp [moreDigits, stops b rfl, significand]
  | cons b ds ih =>
    obtain ⟨d, value⟩ := digits.head
    have step : significand m (b :: ds) = significand (m * 10 + d) ds := by
      simp [significand, value]
    rw [step] at fits ⊢
    have small : m * 10 + d < UInt64.size := Nat.lt_of_le_of_lt (le_significand _ ds) fits
    simp only [List.cons_append, moreDigits, value, if_pos small, ih digits.tail fits,
      List.length_cons, Prod.mk.injEq, and_true, true_and]
    omega

/-! ### Decimal digits of natural numbers -/

theorem digit?_toUInt8 {c : Char} (digit : c.isDigit) :
    digit? c.toUInt8 = some (c.toNat - '0'.toNat) := by
  have range := Char.isDigit_iff_toNat.1 digit
  have least : '0'.toNat = 48 := rfl
  have greatest : '9'.toNat = 57 := rfl
  have same : c.toUInt8.toNat = c.toNat := by
    rw [Char.toUInt8, UInt32.toNat_toUInt8]
    exact Nat.mod_eq_of_lt (Nat.lt_of_le_of_lt range.2 (by decide))
  rw [digit?, same, if_pos (by omega), least]

/-- Only the digit zero has the value zero. -/
theorem value_ne_zero {c : Char} (digit : c.isDigit) (nonzero : c ≠ '0') :
    c.toNat - '0'.toNat ≠ 0 := by
  have least := (Char.isDigit_iff_toNat.1 digit).1
  have other : c.toNat ≠ '0'.toNat := fun same => nonzero (Char.toNat_inj.1 same)
  omega

theorem allDigits_ascii {cs : List Char} (digits : ∀ c ∈ cs, c.isDigit) : AllDigits (ascii cs) := by
  intro b here
  obtain ⟨c, inside, rfl⟩ := List.mem_map.1 here
  rw [digit?_toUInt8 (digits c inside)]
  rfl

theorem significand_ascii {cs : List Char} (digits : ∀ c ∈ cs, c.isDigit) (m : Nat) :
    significand m (ascii cs) = Nat.ofDigitChars 10 cs m := by
  induction cs generalizing m with
  | nil => rfl
  | cons c cs ih =>
    have value := digit?_toUInt8 (digits c List.mem_cons_self)
    have rest := ih fun d here => digits d (List.mem_cons_of_mem c here)
    calc significand m (ascii (c :: cs))
        = significand (m * 10 + (digit? c.toUInt8).getD 0) (ascii cs) := rfl
      _ = Nat.ofDigitChars 10 cs (10 * m + (c.toNat - '0'.toNat)) := by
          rw [value, rest, Option.getD_some, Nat.mul_comm]
      _ = Nat.ofDigitChars 10 (c :: cs) m := Nat.ofDigitChars_cons.symm

theorem isDigit_toDigits {n : Nat} {c : Char} (here : c ∈ Nat.toDigits 10 n) : c.isDigit :=
  Nat.isDigit_of_mem_toDigits (by decide) (by decide) here

theorem allDigits_toDigits (n : Nat) : AllDigits (ascii (Nat.toDigits 10 n)) :=
  allDigits_ascii fun _ => isDigit_toDigits

/-- The digits of a positive number do not begin with a zero. -/
theorem toDigits_eq_cons {n : Nat} (positive : 0 < n) :
    ∃ c cs, Nat.toDigits 10 n = c :: cs ∧ c ≠ '0' := by
  induction n using Nat.strongRecOn with
  | _ n ih =>
    rw [Nat.toDigits_eq_if (by decide)]
    split
    · next small =>
      have nonzero : ∀ d < 10, 0 < d → Nat.digitChar d ≠ '0' := by decide
      exact ⟨_, [], rfl, nonzero n small positive⟩
    · next large =>
      obtain ⟨c, cs, digits, nonzero⟩ := ih (n / 10) (by omega) (by omega)
      exact ⟨c, cs ++ [Nat.digitChar (n % 10)], by rw [digits]; rfl, nonzero⟩

theorem ascii_toDigits {n : Nat} (positive : 0 < n) :
    ∃ b ds d, ascii (Nat.toDigits 10 n) = b :: ds ∧ digit? b = some d ∧ d ≠ 0 ∧ AllDigits ds ∧
      significand d ds = n := by
  obtain ⟨c, cs, shape, nonzero⟩ := toDigits_eq_cons positive
  have digits : ∀ d ∈ c :: cs, d.isDigit := fun d here => isDigit_toDigits (n := n) (shape ▸ here)
  have digit := digits c List.mem_cons_self
  have others : ∀ d ∈ cs, d.isDigit := fun d here => digits d (List.mem_cons_of_mem c here)
  refine ⟨c.toUInt8, ascii cs, c.toNat - '0'.toNat, by rw [shape]; rfl, digit?_toUInt8 digit,
    value_ne_zero digit nonzero, allDigits_ascii others, ?_⟩
  have value := Nat.ofDigitChars_toDigits (b := 10) (n := n) (by decide) (by decide)
  rw [shape, Nat.ofDigitChars_cons] at value
  rw [significand_ascii others]
  simpa using value

/-! ### Whole numbers -/

/-- The digits of a number of 64 bits are read as the number. -/
theorem readNumber_digits {n : Nat} (fits : n < UInt64.size) (negative : Bool) {s : Bytes}
    (closes : Closes s) :
    readNumber negative (ascii (Nat.toDigits 10 n) ++ s) = finishNumber negative n 0 s := by
  by_cases zero : n = 0
  · subst zero
    cases closes <;> rfl
  · obtain ⟨b, ds, d, shape, value, nonzero, digits, number⟩ := ascii_toDigits (by omega : 0 < n)
    have read : moreDigits d 0 (ds ++ s) = (n, ds.length, s) := by
      rw [moreDigits_append digits closes.stops (by rw [number]; exact fits), number, Nat.zero_add]
    have dropped : dropDigits 0 s = (0, s) := dropDigits_append AllDigits.nil closes.stops 0
    rw [shape, List.cons_append]
    simp only [readNumber, value, read, dropped]

theorem finishNumber_positive (n : Nat) {s : Bytes} (closes : Closes s) :
    finishNumber false n 0 s = .ok (.whole n, s) := by
  cases closes <;> rfl

theorem finishNumber_negative {n : Nat} (positive : 0 < n) (fits : n ≤ int64Limit) {s : Bytes}
    (closes : Closes s) : finishNumber true n 0 s = .ok (.whole (-(n : Int)), s) := by
  have whole : ¬ (n = 0 ∨ int64Limit < n) := by omega
  cases closes <;> simp [finishNumber, whole]

end Courier.Json
