import Kayles.Implementation.Conversions
import Mathlib.Data.List.TakeWhile

set_option autoImplicit false

/-! # Numerals

What the standard conversions accept: a numeral with blanks and a sign before it and anything behind
it. The numerals of a request are plain runs of digits, and are converted to their value. -/

namespace Kayles

/-! ## Decimal numerals -/

/-- A nonempty run of digits. -/
structure IsDecimal (text : List Char) (n : ℕ) : Prop where
  ne_nil : text ≠ []
  digits : ∀ c ∈ text, c.isDigit = true
  value : Nat.ofDigitChars 10 text 0 = n

/-- Every number has a numeral. -/
theorem isDecimal_toDigits (n : ℕ) : IsDecimal (Nat.toDigits 10 n) n where
  ne_nil := Nat.toDigits_ne_nil
  digits := fun _ hc => Nat.isDigit_of_mem_toDigits (by decide) (Nat.le_refl 10) hc
  value := Nat.ofDigitChars_ten_toDigits

/-- What the text after the blanks begins with. -/
def IsSign (sign : List Char) (negative : Bool) : Prop :=
  (sign = [] ∨ sign = ['+']) ∧ negative = false ∨ sign = ['-'] ∧ negative = true

/-- A text that begins with a numeral, after blanks and a sign. -/
def IsNumeral (token : List Char) (negative : Bool) (n : ℕ) : Prop :=
  ∃ blanks sign digits rest, token = blanks ++ (sign ++ (digits ++ rest)) ∧
    (∀ c ∈ blanks, isSpace c = true) ∧ IsSign sign negative ∧ IsDecimal digits n ∧
    ∀ c, rest.head? = some c → c.isDigit = false

theorem IsDecimal.isNumeral {text : List Char} {n : ℕ} (h : IsDecimal text n) :
    IsNumeral text false n := by
  refine ⟨[], [], text, [], ?_, fun c hc => absurd hc List.not_mem_nil, .inl ⟨.inl rfl, rfl⟩, h, ?_⟩
  · rw [List.append_nil, List.nil_append, List.nil_append]
  · intro c hc
    simp at hc

theorem isSpace_of_isDigit {c : Char} (h : c.isDigit = true) : isSpace c = false := by
  rw [Char.isDigit_iff_toNat] at h
  have hne : c ≠ ' ' := by
    rintro rfl
    exact absurd h.1 (by decide)
  have hgt : ¬ c ≤ '\r' := by
    intro hle
    have hle' : c.toNat ≤ '\r'.toNat := hle
    exact absurd (Nat.le_trans h.1 hle') (by decide)
  simp [isSpace, hne, hgt]

/-! ## Scanning -/

section Span

variable {α : Type} {p : α → Bool} {body rest : List α}

theorem takeWhile_span (hbody : ∀ a ∈ body, p a = true)
    (hrest : ∀ a, rest.head? = some a → p a = false) : (body ++ rest).takeWhile p = body := by
  rw [List.takeWhile_append_of_pos hbody]
  cases rest with
  | nil => rw [List.takeWhile_nil, List.append_nil]
  | cons a rest => rw [List.takeWhile_cons_of_neg (by simp [hrest a rfl]), List.append_nil]

theorem dropWhile_span (hbody : ∀ a ∈ body, p a = true)
    (hrest : ∀ a, rest.head? = some a → p a = false) : (body ++ rest).dropWhile p = rest := by
  rw [List.dropWhile_append_of_pos hbody]
  cases rest with
  | nil => rfl
  | cons a rest => rw [List.dropWhile_cons_of_neg (by simp [hrest a rfl])]

end Span

theorem scanSign_eq (str : List Char) : ∃ sign, IsSign sign (scanSign str).1 ∧
    str = sign ++ (scanSign str).2 := by
  unfold scanSign
  split
  · exact ⟨['-'], .inr ⟨rfl, rfl⟩, rfl⟩
  · exact ⟨['+'], .inl ⟨.inr rfl, rfl⟩, rfl⟩
  · exact ⟨[], .inl ⟨.inl rfl, rfl⟩, rfl⟩

theorem scanSign_append {sign rest : List Char} {negative : Bool} (h : IsSign sign negative)
    (hrest : ∀ c, rest.head? = some c → c.isDigit = true) :
    scanSign (sign ++ rest) = (negative, rest) := by
  rcases h with ⟨rfl | rfl, rfl⟩ | ⟨rfl, rfl⟩
  · rw [List.nil_append]
    unfold scanSign
    split
    · exact absurd (hrest '-' rfl) (by decide)
    · exact absurd (hrest '+' rfl) (by decide)
    · rfl
  · rfl
  · rfl

/-- **The scan** of the conversions finds the numeral a text begins with, and nothing else. -/
theorem scanInteger_eq_some_iff {token : List Char} {negative : Bool} {n : ℕ} :
    scanInteger token = some (negative, n) ↔ IsNumeral token negative n := by
  constructor
  · intro hscan
    obtain ⟨sign, hsign, hrest⟩ := scanSign_eq (token.dropWhile isSpace)
    simp only [scanInteger] at hscan
    split at hscan
    · simp at hscan
    · rename_i hne
      obtain ⟨rfl, rfl⟩ := Prod.mk.inj (Option.some.inj hscan)
      let after := (scanSign (token.dropWhile isSpace)).2
      refine ⟨token.takeWhile isSpace, sign, after.takeWhile Char.isDigit,
        after.dropWhile Char.isDigit, ?_, fun c hc => List.mem_takeWhile_imp hc, hsign,
        ⟨hne, fun c hc => List.mem_takeWhile_imp hc, rfl⟩, ?_⟩
      · rw [List.takeWhile_append_dropWhile, ← hrest, List.takeWhile_append_dropWhile]
      · intro c hc
        have hhead := List.head?_dropWhile_not Char.isDigit after
        rw [hc] at hhead
        exact hhead
  · intro hnumeral
    obtain ⟨blanks, sign, digits, rest, rfl, hblanks, hsign, hdigits, hrest⟩ := hnumeral
    have hhead : ∀ c, (digits ++ rest).head? = some c → c.isDigit = true := by
      intro c hc
      obtain ⟨a, digits, rfl⟩ := List.exists_cons_of_ne_nil hdigits.ne_nil
      obtain rfl : a = c := Option.some.inj hc
      exact hdigits.digits a List.mem_cons_self
    have hstop : ∀ c, (sign ++ (digits ++ rest)).head? = some c → isSpace c = false := by
      rcases hsign with ⟨rfl | rfl, -⟩ | ⟨rfl, -⟩
      · exact fun c hc => isSpace_of_isDigit (hhead c hc)
      · intro c hc
        rw [← Option.some.inj hc]
        decide
      · intro c hc
        rw [← Option.some.inj hc]
        decide
    simp only [scanInteger]
    rw [dropWhile_span hblanks hstop, scanSign_append hsign hhead]
    simp only
    rw [takeWhile_span hdigits.digits hrest, if_neg hdigits.ne_nil, hdigits.value]

/-! ## Conversions -/

section Conversion

variable {token text : List Char} {negative : Bool} {n : ℕ}

theorem stoul_eq_ok_iff {v : UInt64} : stoul token = .ok v ↔ ∃ negative n,
    IsNumeral token negative n ∧ n ≤ ulongMax ∧
      v = if negative then 0 - UInt64.ofNat n else UInt64.ofNat n := by
  simp only [← scanInteger_eq_some_iff]
  unfold stoul
  cases hscan : scanInteger token with
  | none => simp
  | some found =>
      obtain ⟨negative, n⟩ := found
      simp only
      split
      · rename_i hle
        constructor
        · intro hv
          exact ⟨negative, n, rfl, hle, (Except.ok.inj hv).symm⟩
        · intro hnumeral
          obtain ⟨negative', n', heq, -, rfl⟩ := hnumeral
          obtain ⟨rfl, rfl⟩ := Prod.mk.inj (Option.some.inj heq)
          rfl
      · rename_i hgt
        constructor
        · intro hv
          simp at hv
        · intro hnumeral
          obtain ⟨negative', n', heq, hle, -⟩ := hnumeral
          obtain ⟨rfl, rfl⟩ := Prod.mk.inj (Option.some.inj heq)
          exact absurd hle hgt

theorem stoi_eq_ok_iff {v : Int} : stoi token = .ok v ↔ ∃ negative n,
    IsNumeral token negative n ∧ v = (if negative then -(n : Int) else n) ∧
      intMin ≤ v ∧ v ≤ intMax := by
  simp only [← scanInteger_eq_some_iff]
  unfold stoi
  cases hscan : scanInteger token with
  | none => simp
  | some found =>
      obtain ⟨negative, n⟩ := found
      have hfound : ∀ {negative' : Bool} {n' : ℕ}, some (negative, n) = some (negative', n') →
          (if negative' then -(n' : Int) else n') = if negative then -(n : Int) else n := by
        intro negative' n' heq
        obtain ⟨rfl, rfl⟩ := Prod.mk.inj (Option.some.inj heq)
        rfl
      generalize hvalue : (if negative then -(n : Int) else n) = value at hfound
      simp only [hvalue]
      by_cases hrange : intMin ≤ value ∧ value ≤ intMax
      · rw [if_pos hrange]
        constructor
        · intro hv
          obtain rfl := Except.ok.inj hv
          exact ⟨negative, n, rfl, hvalue.symm, hrange⟩
        · intro hnumeral
          obtain ⟨negative', n', heq, rfl, -⟩ := hnumeral
          rw [hfound heq]
      · rw [if_neg hrange]
        constructor
        · intro hv
          simp at hv
        · intro hnumeral
          obtain ⟨negative', n', heq, rfl, hrange'⟩ := hnumeral
          rw [hfound heq] at hrange'
          exact absurd hrange' hrange

theorem IsDecimal.stoul (h : IsDecimal text n) (hle : n ≤ ulongMax) :
    stoul text = .ok (UInt64.ofNat n) :=
  stoul_eq_ok_iff.2 ⟨false, n, h.isNumeral, hle, rfl⟩

theorem IsDecimal.stoi (h : IsDecimal text n) (hle : n ≤ 2147483647) : stoi text = .ok n := by
  have hmin : intMin ≤ (n : Int) := Int.le_trans (by decide) (Int.natCast_nonneg n)
  exact stoi_eq_ok_iff.2 ⟨false, n, h.isNumeral, rfl, hmin, Int.ofNat_le.2 hle⟩

end Conversion

end Kayles
