import Kayles.Proofs.Splitting

set_option autoImplicit false

/-! # The text validator

`validate_message_format` is to accept a split message whose fields, the parts behind the first one,
are all digits, and else to point to the first error in the message. It counts the offset of a
character from the first field on, where the message begins with the type, and narrows a length to
eight bits: `validates_format_iff`. -/

namespace Kayles

open Tokens

/-! ## What the validator is for -/

/-- Character `i` of field `p` is not a digit, and all characters of the fields before it are. -/
structure IsFirstNonDigit (fields : List (List Char)) (p i : ℕ) : Prop where
  nonDigit : ∃ part c, fields[p]? = some part ∧ part[i]? = some c ∧ c.isDigit = false
  before : ∀ q j part c, fields[q]? = some part → part[j]? = some c → q < p ∨ q = p ∧ j < i →
    c.isDigit = true

/-- All characters of the fields are digits. -/
def AllDigits (fields : List (List Char)) : Prop := ∀ part ∈ fields, ∀ c ∈ part, c.isDigit = true

/-- The validator of a message and its parts does what it is for. -/
structure ValidatesFormat (buffer : List Char) (expectedPartsCount : ℕ) : Prop where
  accepts : validateMessageFormat buffer (splitMessage buffer '/') expectedPartsCount = noError ↔
    (splitMessage buffer '/').length = expectedPartsCount ∧
      AllDigits ((splitMessage buffer '/').drop 1)
  /-- field `p` is part `p + 1` -/
  points : (splitMessage buffer '/').length = expectedPartsCount →
    ∀ p i, IsFirstNonDigit ((splitMessage buffer '/').drop 1) p i →
      validateMessageFormat buffer (splitMessage buffer '/') expectedPartsCount =
        offset (splitMessage buffer '/') (p + 1) i
  tooShort : (splitMessage buffer '/').length < expectedPartsCount →
    validateMessageFormat buffer (splitMessage buffer '/') expectedPartsCount = buffer.length

/-- The offset of a character of a part is its place in the message. -/
theorem getElem?_offset {d : Char} {message part : List Char} {p i : ℕ} {c : Char}
    (hpart : (splitMessage message d)[p]? = some part) (hc : part[i]? = some c) :
    message[offset (splitMessage message d) p i]? = some c := by
  have hwrite := getElem?_write_offset d hpart hc
  rw [write_splitMessage] at hwrite
  refine getElem?_of_close hwrite ?_
  rintro rfl
  exact clean_splitMessage message c part (List.mem_of_getElem? hpart) (List.mem_of_getElem? hc)

/-- A validator that does what it is for points to a character of the message that is no digit. -/
theorem ValidatesFormat.exists_nonDigit {buffer : List Char} {expectedPartsCount p i : ℕ}
    (h : ValidatesFormat buffer expectedPartsCount)
    (hlen : (splitMessage buffer '/').length = expectedPartsCount)
    (hfirst : IsFirstNonDigit ((splitMessage buffer '/').drop 1) p i) :
    ∃ k : ℕ, validateMessageFormat buffer (splitMessage buffer '/') expectedPartsCount = k ∧
      ∃ c, buffer[k]? = some c ∧ c.isDigit = false := by
  obtain ⟨part, c, hpart, hc, hno⟩ := hfirst.nonDigit
  rw [List.getElem?_drop, Nat.add_comm] at hpart
  exact ⟨_, h.points hlen p i hfirst, c, getElem?_offset hpart hc, hno⟩

/-! ## The loop -/

section Loop

variable {fields : List (List Char)} {part : List Char} {p i : ℕ}

theorem AllDigits.cons (hpart : ∀ c ∈ part, c.isDigit = true) (h : AllDigits fields) :
    AllDigits (part :: fields) :=
  List.forall_mem_cons.2 ⟨hpart, h⟩

theorem IsFirstNonDigit.not_allDigits (h : IsFirstNonDigit fields p i) : ¬ AllDigits fields := by
  intro hall
  obtain ⟨part, c, hpart, hc, hno⟩ := h.nonDigit
  rw [hall part (List.mem_of_getElem? hpart) c (List.mem_of_getElem? hc)] at hno
  exact Bool.noConfusion hno

/-- The first character of the first field that is not a digit. -/
theorem isFirstNonDigit_zero (h : part.findIdx? (fun c => !c.isDigit) = some i) :
    IsFirstNonDigit (part :: fields) 0 i := by
  obtain ⟨hi, hc, hbefore⟩ := List.findIdx?_eq_some_iff_getElem.1 h
  refine ⟨⟨part, part[i], rfl, List.getElem?_eq_getElem hi, by simpa using hc⟩, ?_⟩
  intro q j part' c hpart hc' hlt
  obtain ⟨rfl, hj⟩ := hlt.resolve_left (Nat.not_lt_zero q)
  obtain rfl : part = part' := Option.some.inj hpart
  obtain ⟨hj', rfl⟩ := List.getElem?_eq_some_iff.1 hc'
  simpa using hbefore j hj

theorem IsFirstNonDigit.succ (hpart : ∀ c ∈ part, c.isDigit = true)
    (h : IsFirstNonDigit fields p i) : IsFirstNonDigit (part :: fields) (p + 1) i := by
  refine ⟨h.nonDigit, ?_⟩
  intro q j part' c hpart' hc hlt
  cases q with
  | zero =>
      obtain rfl : part = part' := Option.some.inj hpart'
      exact hpart c (List.mem_of_getElem? hc)
  | succ q => exact h.before q j part' c hpart' hc (by omega)

/-- **The loop** finds the first character that is not a digit, and counts from `current_idx` and the
first field on. -/
theorem firstNonDigit_cases (fields : List (List Char)) (currentIdx : ℕ) :
    (AllDigits fields ∧ firstNonDigit fields currentIdx = noError) ∨
    ∃ p i, IsFirstNonDigit fields p i ∧
      firstNonDigit fields currentIdx = sizeToInt (currentIdx + offset fields p i) := by
  induction fields generalizing currentIdx with
  | nil => exact .inl ⟨fun part hpart => absurd hpart List.not_mem_nil, rfl⟩
  | cons part fields ih =>
      rw [firstNonDigit]
      cases hfind : part.findIdx? fun c => !c.isDigit with
      | some i => exact .inr ⟨0, i, isFirstNonDigit_zero hfind, by simp only [offset_zero]⟩
      | none =>
          have hpart : ∀ c ∈ part, c.isDigit = true := by
            intro c hc
            simpa using List.findIdx?_eq_none_iff.1 hfind c hc
          simp only
          rcases ih (currentIdx + part.length + 1) with ⟨hall, hvalue⟩ | ⟨p, i, hfirst, hvalue⟩
          · exact .inl ⟨hall.cons hpart, hvalue⟩
          · refine .inr ⟨p + 1, i, hfirst.succ hpart, ?_⟩
            rw [hvalue, offset_cons_succ]
            congr 1
            omega

end Loop

/-- Narrowing never makes an offset larger. -/
theorem sizeToInt_le (n : ℕ) : sizeToInt n ≤ n := by
  have hmod := Nat.mod_le n (2 ^ 32)
  rw [sizeToInt, BitVec.toInt_eq_toNat_cond, BitVec.toNat_ofNat]
  split <;> omega

/-! ## The validator -/

section Validator

variable {buffer : List Char} {parts : List (List Char)} {expectedPartsCount : ℕ}

theorem validateMessageFormat_of_length (h : parts.length = expectedPartsCount) :
    validateMessageFormat buffer parts expectedPartsCount = firstNonDigit (parts.drop 1) 0 :=
  if_neg (not_not.2 h)

theorem validateMessageFormat_of_lt (h : parts.length < expectedPartsCount) :
    validateMessageFormat buffer parts expectedPartsCount = (buffer.length % 256 : ℕ) := by
  rw [validateMessageFormat, if_pos (Nat.ne_of_lt h), if_pos h, UInt64.toNat_toUInt8,
    UInt64.toNat_ofNat']
  congr 1
  omega

/-- A wrong number of parts is never accepted. -/
theorem validateMessageFormat_ne_noError (h : parts.length ≠ expectedPartsCount) :
    validateMessageFormat buffer parts expectedPartsCount ≠ noError := by
  have hne : ∀ n : ℕ, (n : Int) ≠ noError := by
    intro n hn
    have hnonneg := Int.natCast_nonneg n
    rw [hn] at hnonneg
    exact absurd hnonneg (by decide)
  rw [validateMessageFormat, if_pos h]
  split
  · exact hne _
  · exact hne _

/-- Where the validator points to is before the error. -/
theorem validateMessageFormat_lt (buffer : List Char) (h : parts.length = expectedPartsCount)
    (hno : ¬ AllDigits (parts.drop 1)) :
    ∃ p i, IsFirstNonDigit (parts.drop 1) p i ∧
      validateMessageFormat buffer parts expectedPartsCount < offset parts (p + 1) i := by
  rw [validateMessageFormat_of_length h]
  rcases firstNonDigit_cases (parts.drop 1) 0 with ⟨hall, -⟩ | ⟨p, i, hfirst, hvalue⟩
  · exact absurd hall hno
  · refine ⟨p, i, hfirst, ?_⟩
    cases parts with
    | nil =>
        obtain ⟨part, c, hpart, -⟩ := hfirst.nonDigit
        simp at hpart
    | cons first fields =>
        have hle := sizeToInt_le (0 + offset fields p i)
        rw [List.drop_one, List.tail_cons] at hvalue ⊢
        rw [hvalue, offset_cons_succ]
        omega

end Validator

/-- **The validator** points to the error exactly if there is no error to point to within a message
of the right number of parts, and a message that is too short has at most 255 characters. -/
theorem validates_format_iff (buffer : List Char) (expectedPartsCount : ℕ) :
    ValidatesFormat buffer expectedPartsCount ↔
      ((splitMessage buffer '/').length = expectedPartsCount →
        AllDigits ((splitMessage buffer '/').drop 1)) ∧
      ((splitMessage buffer '/').length < expectedPartsCount → buffer.length ≤ 255) := by
  constructor
  · intro h
    refine ⟨fun hlen => ?_, fun hlt => ?_⟩
    · by_contra hno
      obtain ⟨p, i, hfirst, hvalue⟩ := validateMessageFormat_lt buffer hlen hno
      exact absurd (h.points hlen p i hfirst) (Int.ne_of_lt hvalue)
    · have hvalue := h.tooShort hlt
      rw [validateMessageFormat_of_lt hlt] at hvalue
      omega
  · intro h
    obtain ⟨hdigits, hshort⟩ := h
    refine ⟨?_, ?_, ?_⟩
    · by_cases hlen : (splitMessage buffer '/').length = expectedPartsCount
      · have hall := hdigits hlen
        rw [validateMessageFormat_of_length hlen]
        rcases firstNonDigit_cases ((splitMessage buffer '/').drop 1) 0 with
          ⟨-, hvalue⟩ | ⟨p, i, hfirst, -⟩
        · exact ⟨fun _ => ⟨hlen, hall⟩, fun _ => hvalue⟩
        · exact absurd hall hfirst.not_allDigits
      · refine ⟨fun h => absurd h (validateMessageFormat_ne_noError hlen), fun h => absurd h.1 hlen⟩
    · intro hlen p i hfirst
      exact absurd (hdigits hlen) hfirst.not_allDigits
    · intro hlt
      have hle := hshort hlt
      rw [validateMessageFormat_of_lt hlt]
      omega

/-- The letter is at offset 2 of the message, and the validator points to the digit at 0. -/
theorem not_all_validate_format : ¬ ∀ buffer expectedPartsCount, 1 ≤ expectedPartsCount →
    ValidatesFormat buffer expectedPartsCount := by
  intro hall
  have hfirst : IsFirstNonDigit [['x']] 0 0 := isFirstNonDigit_zero rfl
  have hvalidates := hall ['0', '/', 'x'] 2 (by decide)
  have hvalue : validateMessageFormat ['0', '/', 'x'] (splitMessage ['0', '/', 'x'] '/') 2 = 0 := rfl
  obtain ⟨k, hk, c, hc, hno⟩ := hvalidates.exists_nonDigit rfl hfirst
  obtain rfl : k = 0 := Int.natCast_eq_zero.1 (hk.symm.trans hvalue)
  obtain rfl : '0' = c := Option.some.inj hc
  exact absurd hno (by decide)

end Kayles
