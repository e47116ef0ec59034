import Kayles.Lib.Fallible
import Kayles.Proofs.Board
import Mathlib.Order.Bounds.Defs

set_option autoImplicit false

/-! # The board as a string

What the packed row is for: a string with a character for each pawn. `IsBoardOf` relates the two,
`initialize_pawn_row` establishes it, `knock_pawn_down` simulates the change of one character, and
what the other routines read is read off the string: `packed_board_refines`. -/

namespace Kayles

open PackedBits (bitAt)

/-! ## Expanding the row -/

/-- The board as a string. -/
def GameState.boardString (g : GameState) : List Char :=
  (List.range (g.maxPawn.toNat + 1)).map fun i =>
    if g.Standing i then pawnStanding else pawnKnockedDown

theorem GameState.length_boardString (g : GameState) :
    g.boardString.length = g.maxPawn.toNat + 1 := by
  rw [GameState.boardString, List.length_map, List.length_range]

theorem GameState.getElem?_boardString {g : GameState} {i : ℕ} (hi : i ≤ g.maxPawn.toNat) :
    g.boardString[i]? = some (if g.Standing i then pawnStanding else pawnKnockedDown) := by
  rw [GameState.boardString, List.getElem?_map, List.getElem?_range (by omega)]
  rfl

/-- A row that reaches `max_pawn` is the string of its pawns. -/
theorem serializePawnRow_eq {g : GameState} (hrow : g.maxPawn.toNat / 8 < g.pawnRow.length) :
    serializePawnRow g = .ok g.boardString := by
  refine Fallible.mapM_eq_ok fun i hi => ?_
  have hlt : i / 8 < g.pawnRow.length := by
    have hle := List.mem_range.1 hi
    omega
  have hmod : i % 8 < 8 := Nat.mod_lt _ (by decide)
  have hmask := promote_and_bitMask (b := g.pawnRow[i / 8]) hmod
  have hbit : g.Standing i ↔ PackedBits.bit g.pawnRow[i / 8] (i % 8) = true := by
    simp [GameState.Standing, bitAt, hlt]
  simp only [bitsPerByte, bitIndexOffset, loadByte_of_lt hlt, bind, Except.bind, pure, Except.pure]
  rw [Except.ok.injEq]
  refine if_congr ?_ rfl rfl
  rw [hbit, ne_eq, show 8 - 1 - i % 8 = 7 - i % 8 from rfl, hmask, Bool.not_eq_false]

/-! ## The string that is packed -/

/-- The string with the pawns at the positions knocked down. -/
def knockedDown (s : List Char) (positions : List ℕ) : List Char :=
  s.mapIdx fun i c => if i ∈ positions then pawnKnockedDown else c

/-- The change that `knock_pawn_down` makes. -/
def knockOne (s : List Char) (i : UInt32) : List Char := s.set i.toNat pawnKnockedDown

/-- The routines that read the board of `g` read the string `s` off it. -/
structure Packs (s : List Char) (g : GameState) : Prop where
  maxPawn : g.maxPawn.toNat = s.length - 1
  leastBytes : IsLeast {n | s.length ≤ 8 * n} g.pawnRow.length
  padding : ∀ i, s.length ≤ i → bitAt g.pawnRow i = false
  serialized : serializePawnRow g = .ok s
  standing : ∀ i : UInt32, i.toNat < s.length →
    isPawnStanding g i = .ok (decide (s[i.toNat]? = some pawnStanding))
  legal : ∀ i : UInt32,
    isLegalMove g i = .ok (decide (i.toNat < s.length ∧ s[i.toNat]? = some pawnStanding))

/-- Every character is one of the two. -/
def IsBinary (s : List Char) : Prop := ∀ c ∈ s, c = pawnStanding ∨ c = pawnKnockedDown

section Packed

variable {s : List Char} {g : GameState}

@[simp] theorem length_knockOne (s : List Char) (i : UInt32) :
    (knockOne s i).length = s.length :=
  List.length_set

theorem IsBinary.knockOne (h : IsBinary s) (i : UInt32) : IsBinary (knockOne s i) := by
  intro c hc
  rcases List.mem_or_eq_of_mem_set hc with hc | rfl
  · exact h c hc
  · exact .inr rfl

/-- One character after the other. -/
theorem foldl_knockOne (pawns : List UInt32) (s : List Char) :
    pawns.foldl knockOne s = knockedDown s (pawns.map UInt32.toNat) := by
  induction pawns generalizing s with
  | nil =>
      refine List.ext_getElem? fun j => ?_
      simp [knockedDown]
  | cons i pawns ih =>
      rw [List.foldl_cons, ih]
      refine List.ext_getElem? fun j => ?_
      simp only [knockedDown, knockOne, List.getElem?_mapIdx, List.getElem?_set, List.map_cons,
        List.mem_cons]
      by_cases hij : i.toNat = j
      · subst hij
        by_cases hlt : i.toNat < s.length <;> simp [hlt]
      · simp [hij, Ne.symm hij]

/-- The string of a board is the one it was made from. -/
theorem boardString_eq (h : IsBoardOf s g) (hne : s ≠ []) (hs : IsBinary s) :
    g.boardString = s := by
  have hpos := List.length_pos_iff.2 hne
  have hmax := h.maxPawn_eq
  refine List.ext_getElem? fun i => ?_
  by_cases hi : i < s.length
  · rw [GameState.getElem?_boardString (by omega), List.getElem?_eq_getElem hi, Option.some.injEq]
    have hstanding := h.standing_iff i
    rw [List.getElem?_eq_getElem hi, Option.some.injEq] at hstanding
    rcases hs s[i] (List.getElem_mem hi) with hc | hc
    · rw [if_pos (hstanding.2 hc), hc]
    · rw [if_neg (fun hup => absurd (hc.symm.trans (hstanding.1 hup)) (by decide)), hc]
  · rw [List.getElem?_eq_none (by rw [g.length_boardString]; omega),
      List.getElem?_eq_none (Nat.le_of_not_lt hi)]

theorem packs_of_isBoardOf (h : IsBoardOf s g) (hne : s ≠ []) (hs : IsBinary s) : Packs s g := by
  have hpos := List.length_pos_iff.2 hne
  have hmax := h.maxPawn_eq
  have hfits : g.pawnRow.length = g.maxPawn.toNat / 8 + 1 := h.fits
  refine ⟨hmax, ⟨?_, ?_⟩, ?_, ?_, ?_, ?_⟩
  · show s.length ≤ 8 * g.pawnRow.length
    omega
  · intro n hn
    have hn' : s.length ≤ 8 * n := hn
    omega
  · intro i hi
    refine Bool.eq_false_of_not_eq_true fun hup => ?_
    have hchar := (h.standing_iff i).1 hup
    rw [List.getElem?_eq_none hi] at hchar
    exact absurd hchar (Option.some_ne_none pawnStanding).symm
  · rw [serializePawnRow_eq (by omega), boardString_eq h hne hs]
  · intro i hi
    rw [isPawnStanding_of_lt (h.fits.lt_length (by omega)), Except.ok.injEq, Bool.eq_iff_iff,
      decide_eq_true_iff]
    exact h.standing_iff i.toNat
  · intro i
    rw [isLegalMove_of_fits h.fits, Except.ok.injEq, decide_eq_decide, h.standing_iff]
    refine and_congr_left fun hchar => ?_
    have hlt := (List.getElem?_eq_some_iff.1 hchar).1
    omega

/-- **One pawn.** Clearing a bit simulates the change of a character. -/
theorem knockPawnDown_simulates (h : IsBoardOf s g) {i : UInt32} (hi : i.toNat < s.length) :
    ∃ g', knockPawnDown g i = .ok g' ∧ IsBoardOf (knockOne s i) g' := by
  have hmax := h.maxPawn_eq
  refine ⟨_, knockPawnDown_of_lt (h.fits.lt_length (by omega)), ?_, ?_, ?_⟩
  · rw [length_knockOne]
    exact hmax
  · exact (length_clearPawn g.pawnRow i.toNat).trans h.fits
  · intro j
    have hj : bitAt g.pawnRow j = true ↔ s[j]? = some pawnStanding := h.standing_iff j
    simp only [GameState.Standing, bitAt_clearPawn, knockOne, List.getElem?_set]
    by_cases hij : i.toNat = j
    · subst hij
      have hdown : pawnKnockedDown ≠ pawnStanding := by decide
      simp [hi, hdown]
    · rw [if_neg (Ne.symm hij), if_neg hij]
      exact hj

/-- **Any pawns**, in any order and with repetitions. -/
theorem knockPawnDown_run (h : IsBoardOf s g) {pawns : List UInt32}
    (hpawns : ∀ i ∈ pawns, i.toNat < s.length) :
    ∃ g', pawns.foldlM knockPawnDown g = .ok g' ∧
      IsBoardOf (knockedDown s (pawns.map UInt32.toNat)) g' := by
  rw [← foldl_knockOne]
  refine Fallible.foldlM_simulates (R := IsBoardOf) (P := fun s i => i.toNat < s.length) ?_ ?_ h
    hpawns
  · exact fun s g i hboard hi => knockPawnDown_simulates hboard hi
  · intro s i j hj
    rwa [length_knockOne]

theorem isBinary_knockedDown (hs : IsBinary s) (pawns : List UInt32) :
    IsBinary (knockedDown s (pawns.map UInt32.toNat)) := by
  rw [← foldl_knockOne]
  induction pawns generalizing s with
  | nil => exact hs
  | cons i pawns ih => exact ih (hs.knockOne i)

end Packed

/-- **The packed board refines the board string**: after `initialize_pawn_row`, and after any calls of
`knock_pawn_down` on pawns of the board, the routines that read the board read the string. -/
theorem packed_board_refines {s : List Char} (hne : s ≠ []) (hlen : s.length ≤ 256)
    (hs : ∀ c ∈ s, c = pawnStanding ∨ c = pawnKnockedDown) (game : GameState) :
    ∃ g, initializePawnRow s game = .ok g ∧ Packs s g ∧
      ∀ pawns : List UInt32, (∀ i ∈ pawns, i.toNat < s.length) →
        ∃ g', pawns.foldlM knockPawnDown g = .ok g' ∧
          Packs (knockedDown s (pawns.map UInt32.toNat)) g' := by
  obtain ⟨g, hg, hboard⟩ := initializePawnRow_spec (List.length_pos_iff.2 hne) hlen game
  refine ⟨g, hg, packs_of_isBoardOf hboard hne hs, fun pawns hpawns => ?_⟩
  obtain ⟨g', hg', hboard'⟩ := knockPawnDown_run hboard hpawns
  refine ⟨g', hg', packs_of_isBoardOf hboard' ?_ (isBinary_knockedDown hs pawns)⟩
  rw [knockedDown, ne_eq, List.mapIdx_eq_nil_iff]
  exact hne

/-- Nine pawns, so that the row has a byte with padding. -/
theorem packed_board_refines_nine :
    ∃ g, initializePawnRow ['1', '0', '1', '1', '1', '1', '1', '1', '1'] ⟨0, 0, 0, 0, [], 0⟩ = .ok g ∧
      Packs ['1', '0', '1', '1', '1', '1', '1', '1', '1'] g ∧
      ∀ pawns : List UInt32, (∀ i ∈ pawns, i.toNat < 9) →
        ∃ g', pawns.foldlM knockPawnDown g = .ok g' ∧
          Packs (knockedDown ['1', '0', '1', '1', '1', '1', '1', '1', '1']
            (pawns.map UInt32.toNat)) g' :=
  packed_board_refines (by decide) (by decide) (by simp [pawnStanding, pawnKnockedDown]) _

end Kayles
