import Mathlib.Data.Nat.Digits.Lemmas
import ExpressLinks.Text.Digits

/-!
# Reading digits back

A number is read back from its decimal digits, and from its last hexadecimal digits, in
either letter case, as far as these hold it; those it needs do. Only the decimal digits of
zero start with a zero.
-/

namespace ExpressLinks.Text

theorem readDigits_append (value? : Char → Option Nat) (base acc : Nat) (first second : List Char) :
    readDigits value? base acc (first ++ second) =
      (readDigits value? base acc first).bind fun read => readDigits value? base read second := by
  induction first generalizing acc with
  | nil => rfl
  | cons c cs ih =>
      simp only [List.cons_append, readDigits]
      cases value? c with
      | none => rfl
      | some digit => by_cases small : digit < base <;> simp [small, ih]

section Decimal

theorem hexValue?_digitChar : ∀ digit < 10, hexValue? (Nat.digitChar digit) = some digit := by
  decide

theorem digitChar_eq_zero : ∀ digit < 10, Nat.digitChar digit = '0' → digit = 0 := by
  decide

theorem decimal_of_lt {n : Nat} (small : n < 10) : decimal n = [Nat.digitChar n] :=
  Nat.toDigits_of_lt_base small

theorem decimal_of_le {n : Nat} (large : 10 ≤ n) :
    decimal n = decimal (n / 10) ++ [Nat.digitChar (n % 10)] :=
  Nat.toDigits_of_base_le (by decide) large

theorem decimal_ne_nil (n : Nat) : decimal n ≠ [] := Nat.toDigits_ne_nil

theorem isDigit_eq (c : Char) : isDigit c = c.isDigit := by
  unfold isDigit decimalValue?
  by_cases digit : '0' ≤ c ∧ c ≤ '9'
  · simp only [digit, and_self, if_true, Option.isSome_some, Char.isDigit]
    simpa [Char.le_def] using digit
  · rw [if_neg digit]
    simpa [Char.isDigit, Char.le_def] using digit

theorem isDigit_of_mem_decimal {n : Nat} {c : Char} (member : c ∈ decimal n) :
    isDigit c = true := by
  rw [isDigit_eq]
  exact Nat.isDigit_of_mem_toDigits (by decide) (by decide) member

/-- Reading the digits of a number gives the number. -/
theorem readDecimal?_decimal (n : Nat) : readDecimal? (decimal n) = some n := by
  have digits : readDigits hexValue? 10 0 (decimal n) = some n := by
    induction n using Nat.strong_induction_on with
    | _ n ih =>
        rcases Nat.lt_or_ge n 10 with small | large
        · simp [decimal_of_lt small, readDigits, hexValue?_digitChar n small, small]
        · have last : n % 10 < 10 := Nat.mod_lt n (by decide)
          rw [decimal_of_le large, readDigits_append, ih (n / 10) (by omega)]
          simp only [Option.bind_some, readDigits, hexValue?_digitChar _ last, last, if_true]
          congr 1
          omega
  rw [readDecimal?, readBase?, if_neg (decimal_ne_nil n), digits]

/-- No number but zero starts with a zero. -/
theorem eq_zero_of_head?_decimal {n : Nat} (starts : (decimal n).head? = some '0') : n = 0 := by
  induction n using Nat.strong_induction_on with
  | _ n ih =>
      rcases Nat.lt_or_ge n 10 with small | large
      · rw [decimal_of_lt small, List.head?_cons, Option.some.injEq] at starts
        exact digitChar_eq_zero n small starts
      · rw [decimal_of_le large, List.head?_append_of_ne_nil _ (decimal_ne_nil _)] at starts
        have nothing := ih (n / 10) (by omega) starts
        omega

end Decimal

section Hexadecimal

@[simp] theorem length_hexDigits (width n : Nat) : (hexDigits width n).length = width := by
  induction width generalizing n with
  | zero => rfl
  | succ width ih => simp [hexDigits, ih]

theorem hexValue?_hexDigit : ∀ digit < 16, hexValue? (hexDigit digit) = some digit := by
  decide

theorem hexValue?_toLower_hexDigit :
    ∀ digit < 16, hexValue? (hexDigit digit).toLower = some digit := by
  decide

/-- Reading the last digits of a number, as they are or in other letters, appends them to
    what was read before. -/
theorem readDigits_map_hexDigits {f : Char → Char}
    (kept : ∀ digit < 16, hexValue? (f (hexDigit digit)) = some digit) (width n acc : Nat) :
    readDigits hexValue? 16 acc ((hexDigits width n).map f) =
      some (acc * 16 ^ width + n % 16 ^ width) := by
  induction width generalizing n acc with
  | zero => simp [hexDigits, readDigits, Nat.mod_one]
  | succ width ih =>
      have last : n % 16 < 16 := Nat.mod_lt n (by decide)
      have split : n % 16 ^ (width + 1) = n / 16 % 16 ^ width * 16 + n % 16 := by
        rw [Nat.pow_succ', Nat.mod_mul, Nat.add_comm, Nat.mul_comm]
      rw [hexDigits, List.map_append, readDigits_append, ih]
      simp only [Option.bind_some, List.map_cons, List.map_nil, readDigits, kept _ last, last,
        if_true]
      rw [split, Nat.pow_succ, Nat.add_mul, Nat.mul_assoc, Nat.add_assoc]

/-- So many digits hold every number below that power of sixteen. -/
theorem readHex?_map_hexDigits {f : Char → Char}
    (kept : ∀ digit < 16, hexValue? (f (hexDigit digit)) = some digit) {width n : Nat}
    (given : width ≠ 0) (small : n < 16 ^ width) :
    readHex? ((hexDigits width n).map f) = some n := by
  have digits : (hexDigits width n).map f ≠ [] := by
    intro empty
    apply given
    simpa using congrArg List.length empty
  rw [readHex?, if_neg digits, readDigits_map_hexDigits kept, Nat.zero_mul, Nat.zero_add,
    Nat.mod_eq_of_lt small]

theorem hexWidth_ne_zero (n : Nat) : hexWidth n ≠ 0 := by
  rw [hexWidth]
  split <;> simp

/-- A number fits into the digits it needs. -/
theorem lt_pow_hexWidth (n : Nat) : n < 16 ^ hexWidth n := by
  fun_induction hexWidth n with
  | case1 n small => exact small
  | case2 n large ih =>
      rw [Nat.pow_succ]
      omega

/-- A number needs no more digits than it fits into. -/
theorem hexWidth_le {width n : Nat} (given : width ≠ 0) (small : n < 16 ^ width) :
    hexWidth n ≤ width := by
  induction width generalizing n with
  | zero => exact absurd rfl given
  | succ width ih =>
      rw [hexWidth]
      split
      · omega
      next large =>
        rw [Nat.pow_succ] at small
        have more : width ≠ 0 := by
          rintro rfl
          omega
        have front : hexWidth (n / 16) ≤ width := ih more (by omega)
        omega

@[simp] theorem length_hex (least n : Nat) : (hex least n).length = max least (hexWidth n) :=
  length_hexDigits _ n

/-- A number is read back from its digits, however many are asked for at least. -/
theorem readHex?_hex (least n : Nat) : readHex? (hex least n) = some n := by
  have given : max least (hexWidth n) ≠ 0 := by
    have needed := hexWidth_ne_zero n
    omega
  have small : n < 16 ^ max least (hexWidth n) :=
    Nat.lt_of_lt_of_le (lt_pow_hexWidth n)
      (Nat.pow_le_pow_right (by decide) (Nat.le_max_right least _))
  have read := readHex?_map_hexDigits (f := id) hexValue?_hexDigit given small
  rwa [List.map_id] at read

theorem exists_hexDigit_of_mem {width n : Nat} {c : Char} (member : c ∈ hexDigits width n) :
    ∃ digit < 16, c = hexDigit digit := by
  induction width generalizing n with
  | zero => simp [hexDigits] at member
  | succ width ih =>
      rw [hexDigits, List.mem_append, List.mem_singleton] at member
      rcases member with front | rfl
      · exact ih front
      · exact ⟨n % 16, Nat.mod_lt n (by decide), rfl⟩

/-- A hexadecimal digit whose letters are capitals. -/
def isCapitalDigit (c : Char) : Bool := ('0' ≤ c && c ≤ '9') || ('A' ≤ c && c ≤ 'F')

theorem isCapitalDigit_hexDigit : ∀ digit < 16, isCapitalDigit (hexDigit digit) = true := by
  decide

theorem isCapitalDigit_of_mem_hex {least n : Nat} {c : Char} (member : c ∈ hex least n) :
    isCapitalDigit c = true := by
  obtain ⟨digit, small, rfl⟩ := exists_hexDigit_of_mem member
  exact isCapitalDigit_hexDigit digit small

end Hexadecimal

end ExpressLinks.Text
