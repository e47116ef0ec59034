import Mathlib.Data.Finset.Card
import Mathlib.Data.Finset.Range
import Mathlib.Tactic.Common

set_option autoImplicit false

/-! # Rows of bits packed into bytes

A row of bits stored eight to a byte, the first bit of a byte in its most significant place. `bitAt`
reads a position, and a position past the last byte reads as `false`. `ones` is the set of positions
that read `true`: the view in which clearing positions is a difference of sets. -/

namespace PackedBits

/-- The bit in place `k` of a byte, counted from the most significant one. -/
def bit (b : UInt8) (k : ℕ) : Bool := b.toBitVec.getMsbD k

/-- The bit at position `i` of a row. -/
def bitAt (row : List UInt8) (i : ℕ) : Bool :=
  match row[i / 8]? with
  | some b => bit b (i % 8)
  | none => false

/-- The positions of a row that read `true`. -/
def ones (row : List UInt8) : Finset ℕ :=
  (Finset.range (8 * row.length)).filter fun i => bitAt row i = true

theorem bitAt_eq_true {row : List UInt8} {i : ℕ} :
    bitAt row i = true ↔ ∃ b, row[i / 8]? = some b ∧ bit b (i % 8) = true := by
  unfold bitAt
  cases row[i / 8]? <;> simp

theorem lt_of_bitAt {row : List UInt8} {i : ℕ} (h : bitAt row i = true) : i / 8 < row.length := by
  obtain ⟨b, hb, _⟩ := bitAt_eq_true.1 h
  exact (List.getElem?_eq_some_iff.1 hb).1

@[simp] theorem mem_ones {row : List UInt8} {i : ℕ} : i ∈ ones row ↔ bitAt row i = true := by
  simp only [ones, Finset.mem_filter, Finset.mem_range, and_iff_right_iff_imp]
  intro h
  have := lt_of_bitAt h
  omega

/-! ## Writing one position -/

/-- Replacing the byte of position `i` by one that differs in that bit only: what every position
    reads afterwards. `v` is the new value of the bit. -/
theorem bitAt_set {row : List UInt8} {i : ℕ} {b b' : UInt8} {v : Bool} (hb : row[i / 8]? = some b)
    (hbit : ∀ k < 8, bit b' k = if k = i % 8 then v else bit b k) (j : ℕ) :
    bitAt (row.set (i / 8) b') j = if j = i then v else bitAt row j := by
  have hlt : i / 8 < row.length := (List.getElem?_eq_some_iff.1 hb).1
  by_cases hbyte : j / 8 = i / 8
  · have hmod : j % 8 = i % 8 ↔ j = i := by omega
    have hnew : bitAt (row.set (i / 8) b') j = bit b' (j % 8) := by
      simp [bitAt, hbyte, hlt]
    have hold : bitAt row j = bit b (j % 8) := by simp [bitAt, hbyte, hb]
    rw [hnew, hold, hbit (j % 8) (Nat.mod_lt _ (by decide))]
    simp only [hmod]
  · have hne : j ≠ i := fun h => hbyte (by rw [h])
    rw [if_neg hne]
    simp [bitAt, List.getElem?_set_ne (Ne.symm hbyte)]

/-- A row in which the positions in `cleared` have been cleared has lost exactly those. -/
theorem ones_eq_sdiff {row row' : List UInt8} {cleared : Finset ℕ}
    (h : ∀ j, bitAt row' j = true ↔ bitAt row j = true ∧ j ∉ cleared) :
    ones row' = ones row \ cleared := by
  ext j
  rw [Finset.mem_sdiff, mem_ones, mem_ones, h j]

@[simp] theorem bitAt_replicate_zero (n i : ℕ) : bitAt (List.replicate n 0) i = false := by
  unfold bitAt
  split
  · next b hb =>
      obtain rfl : b = 0 := List.eq_of_mem_replicate (List.mem_of_getElem? hb)
      simp [bit]
  · rfl

end PackedBits
