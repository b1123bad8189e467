import FunctionAdapters.Json.Literal
import FunctionAdapters.Json.Value
import Mathlib.Tactic.IntervalCases
import Mathlib.Tactic.SplitIfs

/-!
Strings and integers are read back as they were written.

A written string is cut into one piece a character: a control character without a short escape is
found as a unit, every other character as itself (`pieces_escape`).  No such unit is half of a
surrogate pair, so `assemble` takes the pieces one by one (`assemble_pieceOf`).

An integer is found digit for digit as long as the text after it does not go on with a digit, a
point or an exponent (`Ends`), and it keeps its value while it fits 64 bits.
-/

namespace FunctionAdapters.Json

/-! ## Strings -/

/-- The piece as which a character of a written string is found. -/
def pieceOf (c : Char) : Piece :=
  if c ∈ ['\x08', '\x0c', '\n', '\r', '\t'] then .char c
  else if c.toNat < 0x20 then .unit c.toNat
  else .char c

theorem unitValue?_control :
    ∀ n < 0x20, unitValue? '0' '0' (Nat.digitChar (n / 16)) (Nat.digitChar (n % 16)) = some n := by
  decide

theorem pieces_escape (c : Char) (rest : List Char) :
    pieces (escape c ++ rest) = (pieces rest).map (pieceOf c :: ·) id := by
  unfold escape
  split
  case h_8 hquote hslash hback hfeed hline hreturn htab =>
    have hnamed : c ∉ ['\x08', '\x0c', '\n', '\r', '\t'] := by
      simpa using ⟨hback, hfeed, hline, hreturn, htab⟩
    by_cases hcontrol : c.toNat < 0x20
    · simp [pieceOf, hnamed, hcontrol, pieces, unitValue?_control c.toNat hcontrol]
    · simp only [pieceOf, hnamed, hcontrol, if_false, List.cons_append, List.nil_append]
      rw [pieces.eq_def]
      split <;> simp_all
  all_goals simp [pieces, escaped?, pieceOf]

theorem pieces_escapes (cs rest : List Char) :
    pieces (cs.flatMap escape ++ '"' :: rest) = (cs.map pieceOf, .ok rest) := by
  induction cs with
  | nil => simp [pieces]
  | cons c cs ih => simp [pieces_escape, ih]

theorem assemble_unit {n : Nat} (hn : n < 0xD800) (found : List Piece) :
    assemble none (.unit n :: found) = (assemble none found).map (Char.ofNat n :: ·) := by
  have hleading : isLeading n = false := by simp [isLeading]; omega
  have htrailing : isTrailing n = false := by simp [isTrailing]; omega
  match found with
  | [] => simp [assemble, hleading, htrailing, Except.map]
  | .unit m :: found => simp [assemble, hleading, htrailing]
  | .char c :: found => simp [assemble, hleading, htrailing]

theorem assemble_pieceOf (c : Char) (found : List Piece) :
    assemble none (pieceOf c :: found) = (assemble none found).map (c :: ·) := by
  unfold pieceOf
  split_ifs with hnamed hcontrol
  · rw [assemble]
  · rw [assemble_unit (by omega), Char.ofNat_toNat]
  · rw [assemble]

theorem assemble_pieces (cs : List Char) : assemble none (cs.map pieceOf) = .ok cs := by
  induction cs with
  | nil => rfl
  | cons c cs ih => rw [List.map_cons, assemble_pieceOf, ih]; rfl

/-- **A written key is read back.** -/
theorem readKey_escapes (s : String) (rest : List Char) :
    readKey (s.toList.flatMap escape ++ '"' :: rest) = (.text s, some rest) := by
  simp [readKey, pieces_escapes, assemble_pieces]

/-- **A written string is read back.** -/
theorem readString_escapes (s : String) (rest : List Char) :
    readString (s.toList.flatMap escape ++ '"' :: rest) = (.string s, some rest) := by
  simp [readString, readKey_escapes]

/-! ## Integers -/

/-- A text that does not continue a number in front of it. -/
def Ends (rest : List Char) : Prop :=
  ∀ c ∈ rest.head?, c.isDigit = false ∧ c ≠ '.' ∧ c ≠ 'e' ∧ c ≠ 'E'

theorem exists_toDigits {n : Nat} (hn : 0 < n) :
    ∃ c cs, Nat.toDigits 10 n = c :: cs ∧ c ≠ '0' := by
  induction n using Nat.strong_induction_on with
  | _ n ih =>
    rcases Nat.lt_or_ge n 10 with hlt | hge
    · refine ⟨_, _, Nat.toDigits_of_lt_base hlt, ?_⟩
      interval_cases n <;> decide
    · obtain ⟨c, cs, hdigits, hc⟩ := ih (n / 10) (by omega) (by omega)
      exact ⟨c, cs ++ [(n % 10).digitChar],
        by rw [Nat.toDigits_of_base_le (by omega) hge, hdigits, List.cons_append], hc⟩

theorem Ends.head {rest : List Char} (h : Ends rest) : (rest.head?.any Char.isDigit) = false := by
  cases rest with
  | nil => rfl
  | cons c rest => simpa using (h c rfl).1

theorem leadingDigits_of_digits {digits rest : List Char} (hdigits : ∀ c ∈ digits, c.isDigit)
    (h : Ends rest) : leadingDigits (digits ++ rest) = digits := by
  rw [leadingDigits, List.takeWhile_append_of_pos hdigits]
  cases rest with
  | nil => simp
  | cons c rest => simp [(h c rfl).1]

theorem afterDigits_of_digits {digits rest : List Char} (hdigits : ∀ c ∈ digits, c.isDigit)
    (h : Ends rest) : afterDigits (digits ++ rest) = rest := by
  rw [afterDigits, List.dropWhile_append_of_pos hdigits]
  cases rest with
  | nil => simp
  | cons c rest => simp [(h c rfl).1]

theorem wholePart_toDigits (n : Nat) {rest : List Char} (h : Ends rest) :
    wholePart (Nat.toDigits 10 n ++ rest) = .ok (Nat.toDigits 10 n, rest) := by
  rcases Nat.eq_zero_or_pos n with rfl | hn
  · simp [wholePart, h.head]
  · have hdigits : ∀ c ∈ Nat.toDigits 10 n, c.isDigit := fun c hc =>
      Nat.isDigit_of_mem_toDigits (by omega) (by omega) hc
    have hleading := leadingDigits_of_digits hdigits h
    have hafter := afterDigits_of_digits hdigits h
    obtain ⟨c, cs, hcs, hc⟩ := exists_toDigits hn
    rw [hcs, List.cons_append] at hleading hafter ⊢
    rw [wholePart.eq_def]
    split
    case h_1 heq => exact absurd (List.cons.inj heq).1 hc
    case h_2 => simp [hleading, hafter]

theorem fractionPart_of_ends {rest : List Char} (h : Ends rest) :
    fractionPart rest = .ok (none, rest) := by
  unfold fractionPart
  split
  case h_1 => exact absurd rfl (h _ rfl).2.1
  case h_2 => rfl

theorem exponentPart_of_ends {rest : List Char} (h : Ends rest) :
    exponentPart rest = .ok (none, rest) := by
  cases rest with
  | nil => rfl
  | cons c rest => simp [exponentPart, (h c rfl).2.2.1, (h c rfl).2.2.2]

theorem le_ofDigitChars (digits : List Char) (n : Nat) : n ≤ Nat.ofDigitChars 10 digits n := by
  induction digits generalizing n with
  | nil => exact Nat.le_refl n
  | cons c digits ih => rw [Nat.ofDigitChars_cons]; exact le_trans (by omega) (ih _)

/-- Digits are all absorbed while the number they make fits 64 bits. -/
theorem absorb_of_lt {digits : List Char} {n : Nat}
    (h : Nat.ofDigitChars 10 digits n < Nat.pow 2 64) :
    NumberLiteral.absorb n digits = (Nat.ofDigitChars 10 digits n, digits.length) := by
  induction digits generalizing n with
  | nil => rfl
  | cons c digits ih =>
    rw [Nat.ofDigitChars_cons] at h ⊢
    have hnext : n * 10 + NumberLiteral.digit c < Nat.pow 2 64 := by
      have := le_ofDigitChars digits (10 * n + (c.toNat - '0'.toNat))
      simp only [NumberLiteral.digit]
      omega
    rw [NumberLiteral.absorb]
    simp only [hnext, if_true]
    rw [NumberLiteral.digit, Nat.mul_comm n 10, ih h]
    rfl

/-- **A written natural number is found with its value,** under a sign or none. -/
theorem readNumber_toDigits (negative : Bool) {n : Nat} (hn : n < Nat.pow 2 64)
    {rest : List Char} (h : Ends rest) :
    readNumber negative (Nat.toDigits 10 n ++ rest) =
      (.number (NumberLiteral.ofInteger negative n), some rest) := by
  have hvalue : Nat.ofDigitChars 10 (Nat.toDigits 10 n) 0 = n :=
    Nat.ofDigitChars_toDigits (by omega) (by omega)
  have habsorb : NumberLiteral.absorb 0 (Nat.toDigits 10 n) = (n, (Nat.toDigits 10 n).length) := by
    rw [absorb_of_lt (by rwa [hvalue]), hvalue]
  simp [readNumber, numberLiteral, wholePart_toDigits n h, fractionPart_of_ends h,
    exponentPart_of_ends h, NumberLiteral.value, habsorb, bind, Except.bind,
    pure, Except.pure]

end FunctionAdapters.Json
