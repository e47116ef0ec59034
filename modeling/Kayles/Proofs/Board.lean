import Kayles.Implementation.Arguments
import Kayles.Implementation.MessageHandlers
import Kayles.Lib.PackedBits

set_option autoImplicit false

/-! # The board as a row of bits

`game_logic.cpp` computes byte and bit positions four times over, with integers promoted to `int`.
Here each routine is reduced to the row of bits it reads or writes: `isPawnStanding` reads one
position, `knockPawnDown` clears one, `initializePawnRow` sets those of the string. -/

namespace Kayles

open PackedBits (bit bitAt ones)

/-! ## Single bits -/

theorem bitMask_eq_twoPow (n : ℕ) : bitMask n = BitVec.twoPow 32 n := (BitVec.twoPow_eq 32 n).symm

theorem getLsbD_promote (b : UInt8) {k : ℕ} (hk : k < 8) :
    (promote b).getLsbD (7 - k) = bit b k := by
  have h7 : 7 - k < 8 := by omega
  simp [promote, bit, BitVec.getMsbD, BitVec.getLsbD_setWidth, hk, h7]
  omega

theorem bit_narrow (x : BitVec 32) {k : ℕ} (hk : k < 8) : bit (narrow x) k = x.getLsbD (7 - k) := by
  have h7 : 7 - k < 8 := by omega
  simp [narrow, bit, BitVec.getMsbD, hk, h7]

/-- The test of `is_pawn_standing`. -/
theorem promote_and_bitMask {b : UInt8} {k : ℕ} (hk : k < 8) :
    promote b &&& bitMask (7 - k) = 0 ↔ bit b k = false := by
  rw [bitMask_eq_twoPow, BitVec.and_twoPow, getLsbD_promote b hk]
  cases bit b k with
  | false => simp
  | true =>
      simp only [if_true, Bool.true_eq_false, iff_false]
      intro h
      have h7 := congrArg (·.getLsbD (7 - k)) h
      simp at h7
      omega

/-- The update of `knock_pawn_down`. -/
theorem bit_clear (b : UInt8) {j k : ℕ} (hj : j < 8) (hk : k < 8) :
    bit (narrow (promote b &&& ~~~bitMask (7 - k))) j = if j = k then false else bit b j := by
  have hj7 : 7 - j < 32 := by omega
  have hk7 : 7 - k < 32 := by omega
  have hjk : 7 - k = 7 - j ↔ j = k := by omega
  rw [bit_narrow _ hj, bitMask_eq_twoPow, BitVec.getLsbD_and, BitVec.getLsbD_not,
    getLsbD_promote b hj, BitVec.getLsbD_twoPow]
  by_cases h : j = k
  · simp [h, hk7]
  · simp [hjk, h, hj7]

/-- The update of `initialize_pawn_row`. -/
theorem bit_stand (b : UInt8) {j k : ℕ} (hj : j < 8) (hk : k < 8) :
    bit (narrow (promote b ||| bitMask (7 - k))) j = if j = k then true else bit b j := by
  have hk7 : 7 - k < 32 := by omega
  have hjk : 7 - k = 7 - j ↔ j = k := by omega
  rw [bit_narrow _ hj, bitMask_eq_twoPow, BitVec.getLsbD_or, getLsbD_promote b hj,
    BitVec.getLsbD_twoPow]
  by_cases h : j = k
  · simp [h, hk7]
  · simp [hjk, h]

/-! ## Standing pawns -/

/-- Pawn `i` is standing: its bit exists and is set. -/
def GameState.Standing (g : GameState) (i : ℕ) : Prop := bitAt g.pawnRow i = true

instance (g : GameState) (i : ℕ) : Decidable (g.Standing i) :=
  inferInstanceAs (Decidable (bitAt g.pawnRow i = true))

/-- Some pawn with an index up to `max_pawn` is standing. -/
def GameState.AnyStanding (g : GameState) : Prop := ∃ i, i ≤ g.maxPawn.toNat ∧ g.Standing i

instance (g : GameState) : Decidable g.AnyStanding :=
  inferInstanceAs (Decidable (∃ i, i ≤ g.maxPawn.toNat ∧ g.Standing i))

/-- `pawn_row` has exactly the bytes that hold pawns `0..max_pawn`. -/
def GameState.RowFits (g : GameState) : Prop := g.pawnRow.length = g.maxPawn.toNat / 8 + 1

theorem GameState.RowFits.lt_length {g : GameState} (h : g.RowFits) {i : ℕ}
    (hi : i ≤ g.maxPawn.toNat) : i / 8 < g.pawnRow.length := by
  rw [h]
  omega

theorem loadByte_eq_ok {buf : Bytes} {i : ℕ} {b : UInt8} :
    loadByte buf i = .ok b ↔ buf[i]? = some b := by
  unfold loadByte
  cases buf[i]? <;> simp

theorem loadByte_of_lt {buf : Bytes} {i : ℕ} (h : i < buf.length) :
    loadByte buf i = .ok buf[i] :=
  loadByte_eq_ok.2 (List.getElem?_eq_getElem h)

theorem isPawnStanding_of_lt {g : GameState} {i : UInt32} (h : i.toNat / 8 < g.pawnRow.length) :
    isPawnStanding g i = .ok (bitAt g.pawnRow i.toNat) := by
  have hget : bitAt g.pawnRow i.toNat = bit g.pawnRow[i.toNat / 8] (i.toNat % 8) := by
    simp [bitAt, h]
  have hmod : i.toNat % 8 < 8 := Nat.mod_lt _ (by decide)
  simp only [isPawnStanding, bitsPerByte, bitIndexOffset, loadByte_of_lt h, bind, Except.bind]
  have hmask := promote_and_bitMask (b := g.pawnRow[i.toNat / 8]) hmod
  rw [hget]
  cases hb : bit g.pawnRow[i.toNat / 8] (i.toNat % 8) with
  | false => rw [if_pos (hmask.2 hb)]; rfl
  | true =>
      rw [if_neg fun hz => by simp [hmask.1 hz] at hb]
      rfl

theorem isPawnStanding_eq_ok {g : GameState} {i : UInt32} {b : Bool} :
    isPawnStanding g i = .ok b ↔
      i.toNat / 8 < g.pawnRow.length ∧ b = bitAt g.pawnRow i.toNat := by
  by_cases h : i.toNat / 8 < g.pawnRow.length
  · rw [isPawnStanding_of_lt h]
    simp [h, eq_comm]
  · have hload : loadByte g.pawnRow (i.toNat / 8) = .error .outOfBounds := by
      simp [loadByte, h]
    simp [isPawnStanding, bitsPerByte, hload, bind, Except.bind, h]

/-- What `is_legal_move` accepts, on any row: a pawn up to `max_pawn` that is standing. -/
theorem isLegalMove_eq_true {g : GameState} {i : UInt32} :
    isLegalMove g i = .ok true ↔ i.toNat ≤ g.maxPawn.toNat ∧ g.Standing i.toNat := by
  have hlt : g.maxPawn.toUInt32 < i ↔ g.maxPawn.toNat < i.toNat := by
    rw [UInt32.lt_iff_toNat_lt, UInt8.toNat_toUInt32]
  unfold isLegalMove
  by_cases h : g.maxPawn.toUInt32 < i
  · rw [if_pos h]
    have := hlt.1 h
    simp only [Except.ok.injEq, Bool.false_eq_true, false_iff, not_and]
    omega
  · rw [if_neg h]
    have hle : i.toNat ≤ g.maxPawn.toNat := by rw [hlt] at h; omega
    simp only [hle, true_and]
    by_cases hrow : i.toNat / 8 < g.pawnRow.length
    · rw [isPawnStanding_of_lt hrow]
      unfold GameState.Standing
      cases bitAt g.pawnRow i.toNat <;> simp [bind, Except.bind, pure, Except.pure]
    · have hload : loadByte g.pawnRow (i.toNat / 8) = .error .outOfBounds := by
        simp [loadByte, hrow]
      have hdown : ¬ g.Standing i.toNat := fun hs => hrow (PackedBits.lt_of_bitAt hs)
      simp [isPawnStanding, bitsPerByte, hload, bind, Except.bind, hdown]

/-- On a row that fits, `is_legal_move` returns for every index. -/
theorem isLegalMove_of_fits {g : GameState} (hfit : g.RowFits) (i : UInt32) :
    isLegalMove g i = .ok (decide (i.toNat ≤ g.maxPawn.toNat ∧ g.Standing i.toNat)) := by
  have hiff := isLegalMove_eq_true (g := g) (i := i)
  have hret : ∃ b, isLegalMove g i = .ok b := by
    unfold isLegalMove
    split
    · exact ⟨_, rfl⟩
    · next h =>
        rw [UInt32.lt_iff_toNat_lt, UInt8.toNat_toUInt32] at h
        rw [isPawnStanding_of_lt (hfit.lt_length (by omega))]
        cases bitAt g.pawnRow i.toNat <;> exact ⟨_, rfl⟩
  obtain ⟨b, hb⟩ := hret
  rw [hb] at hiff ⊢
  cases b <;> simp_all

/-! ## Knocking pawns down -/

/-- The row after `knock_pawn_down`. -/
def clearPawn (row : Bytes) (i : ℕ) : Bytes :=
  row.modify (i / 8) fun b => narrow (promote b &&& ~~~bitMask (7 - i % 8))

/-- The row after `initialize_pawn_row` has set one bit. -/
def standPawn (row : Bytes) (i : ℕ) : Bytes :=
  row.modify (i / 8) fun b => narrow (promote b ||| bitMask (7 - i % 8))

/-- The row after the pawns of a move are knocked down in turn. -/
def clearPawns (row : Bytes) (pawns : List UInt8) : Bytes :=
  pawns.foldl (fun row i => clearPawn row i.toNat) row

@[simp] theorem length_clearPawn (row : Bytes) (i : ℕ) :
    (clearPawn row i).length = row.length := by
  simp [clearPawn]

@[simp] theorem length_standPawn (row : Bytes) (i : ℕ) :
    (standPawn row i).length = row.length := by
  simp [standPawn]

@[simp] theorem length_clearPawns (pawns : List UInt8) (row : Bytes) :
    (clearPawns row pawns).length = row.length := by
  induction pawns generalizing row with
  | nil => rfl
  | cons i rest ih => exact (ih (clearPawn row i.toNat)).trans (length_clearPawn row i.toNat)

theorem modify_of_lt {row : Bytes} {k : ℕ} (h : k < row.length) (f : UInt8 → UInt8) :
    row.modify k f = row.set k (f row[k]) := by
  rw [List.modify_eq_set_getElem?, List.getElem?_eq_getElem h]
  rfl

theorem bitAt_clearPawn (row : Bytes) (i j : ℕ) :
    bitAt (clearPawn row i) j = if j = i then false else bitAt row j := by
  by_cases hlt : i / 8 < row.length
  · rw [clearPawn, modify_of_lt hlt]
    refine PackedBits.bitAt_set (List.getElem?_eq_getElem hlt) ?_ j
    intro k hk
    exact bit_clear _ hk (Nat.mod_lt _ (by decide))
  · rw [clearPawn, List.modify_eq_self (by omega)]
    split
    · next hji =>
        subst hji
        exact Bool.eq_false_of_not_eq_true fun h => hlt (PackedBits.lt_of_bitAt h)
    · rfl

theorem bitAt_standPawn {row : Bytes} {i : ℕ} (hlt : i / 8 < row.length) (j : ℕ) :
    bitAt (standPawn row i) j = if j = i then true else bitAt row j := by
  rw [standPawn, modify_of_lt hlt]
  refine PackedBits.bitAt_set (List.getElem?_eq_getElem hlt) ?_ j
  intro k hk
  exact bit_stand _ hk (Nat.mod_lt _ (by decide))

theorem bitAt_clearPawns {pawns : List UInt8} {row : Bytes} {j : ℕ} :
    bitAt (clearPawns row pawns) j = true ↔
      bitAt row j = true ∧ j ∉ pawns.map UInt8.toNat := by
  induction pawns generalizing row with
  | nil => simp [clearPawns]
  | cons i rest ih =>
      have hcons : clearPawns row (i :: rest) = clearPawns (clearPawn row i.toNat) rest := rfl
      rw [hcons, ih, bitAt_clearPawn, List.map_cons, List.mem_cons]
      by_cases hj : j = i.toNat <;> simp [hj]

theorem storeByte_of_lt {buf : Bytes} {i : ℕ} (h : i < buf.length) (b : UInt8) :
    storeByte buf i b = .ok (buf.set i b) := if_pos h

theorem knockPawnDown_of_lt {g : GameState} {i : UInt32} (h : i.toNat / 8 < g.pawnRow.length) :
    knockPawnDown g i = .ok { g with pawnRow := clearPawn g.pawnRow i.toNat } := by
  simp only [knockPawnDown, bitsPerByte, bitIndexOffset, loadByte_of_lt h, bind, Except.bind,
    storeByte_of_lt h, clearPawn, modify_of_lt h]
  rfl

/-- The game after the pawns of a move are knocked down. -/
def GameState.knock (g : GameState) (pawns : List UInt8) : GameState :=
  { g with pawnRow := clearPawns g.pawnRow pawns }

@[simp] theorem GameState.standing_knock {g : GameState} {pawns : List UInt8} {j : ℕ} :
    (g.knock pawns).Standing j ↔ g.Standing j ∧ j ∉ pawns.map UInt8.toNat :=
  bitAt_clearPawns

theorem GameState.RowFits.knock {g : GameState} (h : g.RowFits) (pawns : List UInt8) :
    (g.knock pawns).RowFits :=
  (length_clearPawns pawns g.pawnRow).trans h

/-- The pawns of a move that all stand are knocked down without a fault. -/
theorem knockPawnsDown_of_lt {pawns : List UInt8} :
    ∀ {g : GameState}, (∀ i ∈ pawns, i.toNat / 8 < g.pawnRow.length) →
      knockPawnsDown g pawns = .ok (g.knock pawns) := by
  induction pawns with
  | nil => intro g _; rfl
  | cons i rest ih =>
      intro g h
      have hi : i.toUInt32.toNat / 8 < g.pawnRow.length := by
        rw [UInt8.toNat_toUInt32]
        exact h i List.mem_cons_self
      rw [knockPawnsDown, knockPawnDown_of_lt hi]
      simp only [bind, Except.bind]
      rw [ih (by simpa using fun j hj => h j (List.mem_cons_of_mem _ hj)), UInt8.toNat_toUInt32]
      rfl

/-! ## The end of a move

The counter of `any_pawn_left` has the type of its inclusive bound. Up to 255 pawns the loop leaves
at `max_pawn + 1`; with 256 pawns `i <= max_pawn` always holds, and the loop leaves only at a standing
pawn. -/

/-- The status of the player who has just moved, won. -/
def winOf (status : UInt8) : UInt8 := if status = turnA then winA else winB

/-- The turn of the other player. -/
def otherTurn (status : UInt8) : UInt8 := if status = turnA then turnB else turnA

/-- What `verify_game_state_after_move` is for. -/
def GameState.statusAfterMove (g : GameState) : UInt8 :=
  if g.AnyStanding then otherTurn g.status else winOf g.status

theorem anyPawnLeftTurn_eq {g : GameState} {i : UInt8} (hi : i ≤ g.maxPawn)
    (hlt : i.toNat / 8 < g.pawnRow.length) :
    anyPawnLeftTurn g i = .ok (if g.Standing i.toNat then .inr true else .inl (i + 1)) := by
  have hlt' : i.toUInt32.toNat / 8 < g.pawnRow.length := by rwa [UInt8.toNat_toUInt32]
  rw [anyPawnLeftTurn, if_pos hi, isPawnStanding_of_lt hlt', UInt8.toNat_toUInt32]
  by_cases hs : bitAt g.pawnRow i.toNat = true
  · rw [if_pos (show g.Standing i.toNat from hs), hs]
    rfl
  · rw [if_neg (show ¬ g.Standing i.toNat from hs), Bool.eq_false_of_not_eq_true hs]
    rfl

theorem toNat_add_one {i m : UInt8} (hi : i ≤ m) (hm : m ≠ 255) :
    (i + 1).toNat = i.toNat + 1 := by
  have h255 : m.toNat ≠ 255 := fun h => hm (UInt8.toNat_inj.1 h)
  have hm' := m.toNat_lt
  rw [UInt8.le_iff_toNat_le] at hi
  rw [UInt8.toNat_add]
  simp only [UInt8.toNat_one]
  omega

/-- What a turn that returns has done: gone past a pawn that is down, or left at a standing pawn or
past the last one. -/
theorem anyPawnLeftTurn_cases {g : GameState} {i : UInt8} {r : UInt8 ⊕ Bool}
    (h : anyPawnLeftTurn g i = .ok r) :
    (¬ g.Standing i.toNat ∧ r = .inl (i + 1)) ∨
    (i ≤ g.maxPawn ∧ g.Standing i.toNat ∧ r = .inr true) ∨ (g.maxPawn < i ∧ r = .inr false) := by
  by_cases hi : i ≤ g.maxPawn
  · cases hst : isPawnStanding g i.toUInt32 with
    | error e => simp [anyPawnLeftTurn, hi, hst, bind, Except.bind] at h
    | ok st =>
        obtain ⟨hlt, -⟩ := isPawnStanding_eq_ok.1 hst
        rw [UInt8.toNat_toUInt32] at hlt
        rw [anyPawnLeftTurn_eq hi hlt, Except.ok.injEq] at h
        by_cases hs : g.Standing i.toNat
        · rw [if_pos hs] at h
          exact .inr (.inl ⟨hi, hs, h.symm⟩)
        · rw [if_neg hs] at h
          exact .inl ⟨hs, h.symm⟩
  · rw [anyPawnLeftTurn, if_neg hi, Except.ok.injEq] at h
    exact .inr (.inr ⟨UInt8.not_le.1 hi, h.symm⟩)

/-- Every result of the loop is the right one, on any row. -/
theorem anyPawnLeft_eq_ok {fuel : ℕ} {g : GameState} {b : Bool}
    (h : anyPawnLeft fuel g = .ok b) : b = true ↔ g.AnyStanding := by
  -- the counter may have wrapped: then nothing is known below it, and nothing is claimed
  refine Loop.run_post (fun i : UInt8 => ∀ k < i.toNat, ¬ g.Standing k)
    (fun b => b = true ↔ g.AnyStanding) ?_ ?_ fuel 0 b (by simp) h
  · intro i i' hI hbody
    obtain ⟨hdown, hr⟩ | ⟨-, -, hr⟩ | ⟨-, hr⟩ := anyPawnLeftTurn_cases hbody
    · obtain rfl := Sum.inl.inj hr
      intro k hk
      have hle : (i + 1).toNat ≤ i.toNat + 1 := by
        rw [UInt8.toNat_add]
        exact Nat.mod_le _ _
      rcases Nat.lt_succ_iff_lt_or_eq.1 (Nat.lt_of_lt_of_le hk hle) with hk' | rfl
      · exact hI k hk'
      · exact hdown
    · cases hr
    · cases hr
  · intro i b hI hbody
    obtain ⟨-, hr⟩ | ⟨hi, hs, hr⟩ | ⟨hi, hr⟩ := anyPawnLeftTurn_cases hbody
    · cases hr
    · obtain rfl := Sum.inr.inj hr
      exact ⟨fun _ => ⟨i.toNat, UInt8.le_iff_toNat_le.1 hi, hs⟩, fun _ => rfl⟩
    · obtain rfl := Sum.inr.inj hr
      simp only [Bool.false_eq_true, false_iff]
      intro h
      obtain ⟨k, hk, hs⟩ := h
      rw [UInt8.lt_iff_toNat_lt] at hi
      exact hI k (by omega) hs

/-- A pawn is left: the loop returns, whatever the size of the board. -/
theorem anyPawnLeft_of_any {g : GameState} (hfit : g.RowFits) (hany : g.AnyStanding) {fuel : ℕ}
    (hfuel : 256 < fuel) : anyPawnLeft fuel g = .ok true := by
  obtain ⟨j, hj, hs⟩ := hany
  have hj256 : j < 256 := Nat.lt_of_le_of_lt hj g.maxPawn.toNat_lt
  have hturn : ∀ i : UInt8, i.toNat ≤ j → (∃ b, anyPawnLeftTurn g i = .ok (.inr b) ∧ b = true) ∨
      ∃ i', anyPawnLeftTurn g i = .ok (.inl i') ∧ i'.toNat ≤ j ∧ j - i'.toNat < j - i.toNat := by
    intro i hi
    have hle : i ≤ g.maxPawn := UInt8.le_iff_toNat_le.2 (by omega)
    rw [anyPawnLeftTurn_eq hle (hfit.lt_length (by omega))]
    by_cases hsi : g.Standing i.toNat
    · exact .inl ⟨true, by simp [hsi], rfl⟩
    · have hne : i.toNat ≠ j := fun h => hsi (h ▸ hs)
      have hsucc : (i + 1).toNat = i.toNat + 1 := by
        rw [UInt8.toNat_add]
        simp only [UInt8.toNat_one]
        omega
      exact .inr ⟨i + 1, by simp [hsi], by omega, by omega⟩
  obtain ⟨b, hb, rfl⟩ :=
    Loop.run_ok_of_variant _ _ (fun i : UInt8 => j - i.toNat) hturn fuel 0 (by simp)
      (by simp only [UInt8.toNat_zero]; omega)
  exact hb

/-- No pawn is left and the bound is below 255: the loop returns. -/
theorem anyPawnLeft_of_none {g : GameState} (hfit : g.RowFits) (hnone : ¬ g.AnyStanding)
    (hmax : g.maxPawn ≠ 255) {fuel : ℕ} (hfuel : 256 < fuel) : anyPawnLeft fuel g = .ok false := by
  have hmax' := g.maxPawn.toNat_lt
  have hturn : ∀ i : UInt8, i.toNat ≤ g.maxPawn.toNat + 1 →
      (∃ b, anyPawnLeftTurn g i = .ok (.inr b) ∧ b = false) ∨
      ∃ i', anyPawnLeftTurn g i = .ok (.inl i') ∧ i'.toNat ≤ g.maxPawn.toNat + 1 ∧
        g.maxPawn.toNat + 1 - i'.toNat < g.maxPawn.toNat + 1 - i.toNat := by
    intro i hi
    by_cases hle : i ≤ g.maxPawn
    · have hle' := UInt8.le_iff_toNat_le.1 hle
      have hsi : ¬ g.Standing i.toNat := fun hs => hnone ⟨i.toNat, hle', hs⟩
      have hsucc := toNat_add_one hle hmax
      rw [anyPawnLeftTurn_eq hle (hfit.lt_length hle')]
      exact .inr ⟨i + 1, by simp [hsi], by omega, by omega⟩
    · exact .inl ⟨false, by simp [anyPawnLeftTurn, hle], rfl⟩
  obtain ⟨b, hb, rfl⟩ :=
    Loop.run_ok_of_variant _ _ (fun i : UInt8 => g.maxPawn.toNat + 1 - i.toNat) hturn fuel 0
      (by simp) (by simp only [UInt8.toNat_zero]; omega)
  exact hb

/-- **The board of 256 pawns.** With no pawn left the loop never returns. -/
theorem anyPawnLeft_diverges {g : GameState} (hfit : g.RowFits) (hnone : ¬ g.AnyStanding)
    (hmax : g.maxPawn = 255) (fuel : ℕ) : anyPawnLeft fuel g = .error .outOfFuel := by
  refine Loop.run_eq_spent (fun _ : UInt8 => True) ?_ fuel 0 trivial
  intro i _
  have hle : i.toNat ≤ g.maxPawn.toNat := by
    have := i.toNat_lt
    rw [hmax]
    simp only [UInt8.reduceToNat]
    omega
  have hsi : ¬ g.Standing i.toNat := fun hs => hnone ⟨i.toNat, hle, hs⟩
  rw [anyPawnLeftTurn_eq (UInt8.le_iff_toNat_le.2 hle) (hfit.lt_length hle)]
  exact ⟨i + 1, by simp [hsi], trivial⟩

/-- On a row that fits the loop reads no byte outside it. -/
theorem anyPawnLeft_error {fuel : ℕ} {g : GameState} {e : Fault} (hfit : g.RowFits)
    (h : anyPawnLeft fuel g = .error e) : e = .outOfFuel := by
  refine Loop.run_error (fun _ : UInt8 => True) ?_ fuel 0 e trivial h
  intro i _
  by_cases hle : i ≤ g.maxPawn
  · rw [anyPawnLeftTurn_eq hle (hfit.lt_length (UInt8.le_iff_toNat_le.1 hle))]
    by_cases hs : g.Standing i.toNat
    · exact .inl ⟨true, by simp [hs]⟩
    · exact .inr ⟨i + 1, by simp [hs], trivial⟩
  · exact .inl ⟨false, by simp [anyPawnLeftTurn, hle]⟩

theorem verify_eq {fuel : ℕ} {g : GameState} :
    verifyGameStateAfterMove fuel g = (anyPawnLeft fuel g).map fun left =>
      if left then otherTurn g.status else winOf g.status := by
  unfold verifyGameStateAfterMove otherTurn winOf
  cases anyPawnLeft fuel g with
  | error e => rfl
  | ok left =>
      by_cases h : g.status = turnA <;> cases left <;>
        simp [h, bind, Except.bind, pure, Except.pure, Except.map]

theorem verify_eq_ok {fuel : ℕ} {g : GameState} {status : UInt8}
    (h : verifyGameStateAfterMove fuel g = .ok status) : status = g.statusAfterMove := by
  rw [verify_eq] at h
  cases hany : anyPawnLeft fuel g with
  | error e => simp [hany, Except.map] at h
  | ok left =>
      have hleft := anyPawnLeft_eq_ok hany
      simp only [hany, Except.map, Except.ok.injEq] at h
      rw [← h, GameState.statusAfterMove]
      exact if_congr hleft rfl rfl

/-- The move ends: a pawn is left, or the board has fewer than 256 pawns. -/
theorem verify_of_fits {g : GameState} (hfit : g.RowFits) (h : g.AnyStanding ∨ g.maxPawn ≠ 255)
    {fuel : ℕ} (hfuel : 256 < fuel) :
    verifyGameStateAfterMove fuel g = .ok g.statusAfterMove := by
  rw [verify_eq, GameState.statusAfterMove]
  by_cases hany : g.AnyStanding
  · rw [anyPawnLeft_of_any hfit hany hfuel, if_pos hany]
    rfl
  · rw [anyPawnLeft_of_none hfit hany (h.resolve_left hany) hfuel, if_neg hany]
    rfl

theorem verify_diverges {g : GameState} (hfit : g.RowFits) (hnone : ¬ g.AnyStanding)
    (hmax : g.maxPawn = 255) (fuel : ℕ) :
    verifyGameStateAfterMove fuel g = .error .outOfFuel := by
  rw [verify_eq, anyPawnLeft_diverges hfit hnone hmax]
  rfl

theorem verify_error {fuel : ℕ} {g : GameState} {e : Fault} (hfit : g.RowFits)
    (h : verifyGameStateAfterMove fuel g = .error e) : e = .outOfFuel := by
  rw [verify_eq] at h
  cases hany : anyPawnLeft fuel g with
  | ok left => simp [hany, Except.map] at h
  | error e' =>
      simp only [hany, Except.map, Except.error.injEq] at h
      exact h ▸ anyPawnLeft_error hfit hany

/-! ## The template -/

/-- `g` holds the board that `pawns` draws. -/
structure IsBoardOf (pawns : List Char) (g : GameState) : Prop where
  maxPawn_eq : g.maxPawn.toNat = pawns.length - 1
  fits : g.RowFits
  standing_iff : ∀ i, g.Standing i ↔ pawns[i]? = some pawnStanding

theorem setPawns_spec (rest : List Char) :
    ∀ (i : ℕ) (g : GameState), (∀ k < rest.length, (i + k) / 8 < g.pawnRow.length) →
      ∃ row, setPawns rest i g = .ok { g with pawnRow := row } ∧ row.length = g.pawnRow.length ∧
        ∀ j, bitAt row j = true ↔
          bitAt g.pawnRow j = true ∨ i ≤ j ∧ rest[j - i]? = some pawnStanding := by
  induction rest with
  | nil => intro i g _; exact ⟨g.pawnRow, rfl, rfl, by simp⟩
  | cons c rest ih =>
      intro i g hlt
      have hi : i / 8 < g.pawnRow.length := hlt 0 (by simp)
      have hrest : ∀ k < rest.length, (i + 1 + k) / 8 < g.pawnRow.length := by
        intro k hk
        have := hlt (k + 1) (by simpa using hk)
        rwa [show i + 1 + k = i + (k + 1) by omega]
      have hsplit : ∀ j, (i ≤ j ∧ (c :: rest)[j - i]? = some pawnStanding) ↔
          (j = i ∧ c = pawnStanding) ∨ i + 1 ≤ j ∧ rest[j - (i + 1)]? = some pawnStanding := by
        intro j
        rcases Nat.lt_trichotomy j i with hj | rfl | hj
        · simp only [show ¬ i ≤ j by omega, show ¬ j = i by omega, show ¬ i + 1 ≤ j by omega,
            false_and, or_self]
        · simp
        · rw [show j - i = j - (i + 1) + 1 by omega, List.getElem?_cons_succ]
          simp only [show i ≤ j by omega, show ¬ j = i by omega, show i + 1 ≤ j by omega,
            true_and, false_and, false_or]
      rw [setPawns]
      by_cases hc : c = pawnStanding
      · obtain ⟨row, hrow, hlen, hget⟩ :=
          ih (i + 1) { g with pawnRow := standPawn g.pawnRow i } (by simpa using hrest)
        refine ⟨row, ?_, by simpa using hlen, ?_⟩
        · rw [if_pos hc, ← hrow]
          simp only [bitsPerByte, bitIndexOffset, loadByte_of_lt hi, bind, Except.bind,
            storeByte_of_lt hi, standPawn, modify_of_lt hi]
        · intro j
          rw [hget j, hsplit j, bitAt_standPawn hi]
          by_cases hj : j = i <;> simp [hj, hc]
      · obtain ⟨row, hrow, hlen, hget⟩ := ih (i + 1) g hrest
        refine ⟨row, by rw [if_neg hc]; exact hrow, hlen, ?_⟩
        intro j
        rw [hget j, hsplit j]
        simp [hc]

/-- `initialize_pawn_row` on a string of 1 to 256 characters. -/
theorem initializePawnRow_spec {pawns : List Char} (hpos : 0 < pawns.length)
    (hmax : pawns.length ≤ 256) (g : GameState) :
    ∃ g', initializePawnRow pawns g = .ok g' ∧ IsBoardOf pawns g' := by
  have hwidth : (UInt64.ofNat pawns.length - 1).toUInt8.toNat = pawns.length - 1 := by
    rw [UInt64.toNat_toUInt8, UInt64.toNat_sub, UInt64.toNat_ofNat']
    simp only [UInt64.toNat_one]
    omega
  obtain ⟨row, hrow, hlen, hget⟩ := setPawns_spec pawns 0
    { g with
      maxPawn := (UInt64.ofNat pawns.length - 1).toUInt8,
      pawnRow := List.replicate ((UInt64.ofNat pawns.length - 1).toUInt8.toNat / 8 + 1) 0 }
    (by intro k hk; rw [List.length_replicate, hwidth]; omega)
  refine ⟨_, hrow, hwidth, ?_, ?_⟩
  · simpa [GameState.RowFits] using hlen
  · intro i
    exact (hget i).trans (by simp)

theorem isValidPawnRow_iff {pawns : List Char} : isValidPawnRow pawns = true ↔
    0 < pawns.length ∧ pawns.length ≤ 256 ∧ pawns.head? = some pawnStanding ∧
      pawns.getLast? = some pawnStanding ∧ ∀ c ∈ pawns, c = pawnStanding ∨ c = pawnKnockedDown := by
  unfold isValidPawnRow maxPawns
  split_ifs with hempty hlong hends
  · obtain rfl := List.isEmpty_iff.1 hempty
    simp
  · simp only [false_iff]
    intro h
    obtain ⟨_, hle, _⟩ := h
    omega
  · simp only [false_iff]
    intro h
    obtain ⟨_, _, hhead, hlast, _⟩ := h
    exact hends.elim (· hhead) (· hlast)
  · have hpos : 0 < pawns.length := by
      rw [List.length_pos_iff]
      simpa using hempty
    simp only [not_or, ne_eq, not_not] at hends
    simp [List.all_eq_true, hends, hpos, Nat.le_of_not_lt hlong]

end Kayles
