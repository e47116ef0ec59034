import Kayles.Lib.Run
import Mathlib.Data.Finset.Card

set_option autoImplicit false

/-! # A session of Kayles

What a session is for, apart from any representation: two sides take turns at removing pawns from a
finite set, the side that removes the last one wins, and a session may end early. The pawns are of
any type and a move may remove any of those that stand; which moves the server offers is its own
matter. The laws here are about whole histories. -/

namespace Session

/-- The two sides. -/
inductive Side where
  | a
  | b
  deriving DecidableEq, Repr

/-- The opponent. -/
def Side.other : Side → Side
  | .a => .b
  | .b => .a

/-- Where a session stands: it waits for its second player, is played, or has been won. -/
inductive Phase where
  | waiting
  | turn (side : Side)
  | won (side : Side)
  deriving DecidableEq, Repr

/-- Where a session is. -/
structure State (ι : Type*) where
  phase : Phase
  standing : Finset ι

/-- What can happen in a session. -/
inductive Act (ι : Type*) where
  | seat
  | move (pawns : Finset ι)
  | giveUp (winner : Side)

variable {ι : Type*}

/-- The pawns of the moves among some acts, in order. -/
def moves : List (Act ι) → List (Finset ι)
  | [] => []
  | .move pawns :: acts => pawns :: moves acts
  | .seat :: acts => moves acts
  | .giveUp _ :: acts => moves acts

@[simp] theorem moves_append (acts acts' : List (Act ι)) :
    moves (acts ++ acts') = moves acts ++ moves acts' := by
  induction acts with
  | nil => rfl
  | cons act acts ih => cases act <;> simp [moves, ih]

variable [DecidableEq ι]

/-- The acts a session admits. The second player to arrive opens the game, as side `b`. -/
inductive Step : State ι → Act ι → State ι → Prop
  | seat {s : State ι} (h : s.phase = .waiting) : Step s .seat { s with phase := .turn .b }
  | move {s : State ι} {side : Side} {pawns : Finset ι} (h : s.phase = .turn side)
      (hne : pawns.Nonempty) (hsub : pawns ⊆ s.standing) :
      Step s (.move pawns)
        { phase := if (s.standing \ pawns).Nonempty then .turn side.other else .won side,
          standing := s.standing \ pawns }
  | giveUp {s : State ι} {side : Side} (h : s.phase = .turn side) (winner : Side) :
      Step s (.giveUp winner) { s with phase := .won winner }

/-- A history from `s` to `s'` with the acts `acts`. -/
def History (s : State ι) (acts : List (Act ι)) (s' : State ι) : Prop :=
  ∃ tr, LTS.Run Step s tr s' ∧ tr.map LTS.Transition.label = acts

/-- **Induction on histories**, act by act. -/
theorem History.induction {s : State ι} {P : List (Act ι) → State ι → Prop} (hnil : P [] s)
    (hsnoc : ∀ acts s₁ act s₂, P acts s₁ → Step s₁ act s₂ → P (acts ++ [act]) s₂)
    {acts : List (Act ι)} {s' : State ι} (h : History s acts s') : P acts s' := by
  obtain ⟨tr, hrun, rfl⟩ := h
  induction hrun with
  | refl => exact hnil
  | snoc _ hst ih =>
      rw [List.map_append]
      exact hsnoc _ _ _ _ ih hst

/-! ## Pawns fall once -/

section Laws

variable {s s' : State ι} {acts : List (Act ι)}

/-- **Each pawn is removed at most once**, and not at all if it still stands. -/
theorem History.countP_add_standing_le (h : History s acts s') (i : ι) :
    (moves acts).countP (fun pawns => decide (i ∈ pawns)) + (if i ∈ s'.standing then 1 else 0)
      ≤ if i ∈ s.standing then 1 else 0 := by
  refine h.induction (P := fun acts s' => (moves acts).countP (fun pawns => decide (i ∈ pawns)) +
    (if i ∈ s'.standing then 1 else 0) ≤ if i ∈ s.standing then 1 else 0) ?_ ?_
  · simp [moves]
  · intro acts s₁ act s₂ ih hstep
    cases hstep with
    | seat _ => simpa [moves] using ih
    | giveUp _ _ => simpa [moves] using ih
    | @move side pawns _ _ hsub =>
        rw [moves_append, List.countP_append]
        refine Nat.le_trans ?_ ih
        by_cases hi : i ∈ pawns
        · simp [moves, hi, hsub hi]
        · simp [moves, hi]

theorem History.standing_subset (h : History s acts s') : s'.standing ⊆ s.standing := by
  intro i hi
  have hle := h.countP_add_standing_le i
  rw [if_pos hi] at hle
  by_contra hno
  rw [if_neg hno] at hle
  omega

/-- A move takes pawns that stood from the beginning. -/
theorem History.subset_of_mem_moves (h : History s acts s') {pawns : Finset ι}
    (hmem : pawns ∈ moves acts) : pawns ⊆ s.standing := by
  intro i hi
  have hle := h.countP_add_standing_le i
  have hpos : 0 < (moves acts).countP fun pawns => decide (i ∈ pawns) :=
    List.countP_pos_iff.2 ⟨pawns, hmem, decide_eq_true hi⟩
  by_contra hno
  rw [if_neg hno] at hle
  omega

/-- **The moves run out**: there are no more of them than pawns. -/
theorem History.length_moves_add_card_le (h : History s acts s') :
    (moves acts).length + s'.standing.card ≤ s.standing.card := by
  refine h.induction (P := fun acts s' =>
    (moves acts).length + s'.standing.card ≤ s.standing.card) ?_ ?_
  · simp [moves]
  · intro acts s₁ act s₂ ih hstep
    cases hstep with
    | seat _ => simpa [moves] using ih
    | giveUp _ _ => simpa [moves] using ih
    | @move side pawns _ hne hsub =>
        have hcard := Finset.card_sdiff_add_card_eq_card hsub
        have hpos := hne.card_pos
        simp only [moves_append, moves, List.length_append, List.length_cons, List.length_nil]
        omega

/-! ## Whose turn it is -/

/-- The side whose turn it is after `k` moves. -/
def sideAfter : ℕ → Side
  | 0 => .b
  | k + 1 => (sideAfter k).other

/-- The phase after `k` moves that leave `standing`: the side that made the last one has won if
    nothing stands. -/
def phaseAfter (k : ℕ) (standing : Finset ι) : Phase :=
  if standing.Nonempty then .turn (sideAfter k) else .won (sideAfter k).other

@[simp] theorem Side.other_other (side : Side) : side.other.other = side := by
  cases side <;> rfl

theorem sideAfter_eq (k : ℕ) : sideAfter k = if k % 2 = 0 then .b else .a := by
  induction k with
  | zero => rfl
  | succ k ih =>
      rw [sideAfter, ih]
      by_cases hk : k % 2 = 0
      · rw [if_pos hk, if_neg (by omega)]
        rfl
      · rw [if_neg hk, if_pos (by omega)]
        rfl

/-- **The life cycle.** From a waiting session with pawns, nothing happens before a seat is taken;
    from then on, unless somebody gives up, the number of moves and the pawns left are the phase. -/
theorem History.phase (h : History s acts s') (hw : s.phase = .waiting)
    (hne : s.standing.Nonempty) :
    (Act.seat ∉ acts ∧ s' = s ∧ acts = []) ∨
    (Act.seat ∈ acts ∧ s'.phase ≠ .waiting ∧
      ((∀ winner, Act.giveUp winner ∉ acts) →
        s'.phase = phaseAfter (moves acts).length s'.standing)) := by
  refine h.induction (P := fun acts s' => (Act.seat ∉ acts ∧ s' = s ∧ acts = []) ∨
    (Act.seat ∈ acts ∧ s'.phase ≠ .waiting ∧ ((∀ winner, Act.giveUp winner ∉ acts) →
      s'.phase = phaseAfter (moves acts).length s'.standing))) ?_ ?_
  · exact .inl ⟨List.not_mem_nil, rfl, rfl⟩
  · intro acts s₁ act s₂ ih hstep
    refine .inr ?_
    rcases ih with ⟨-, rfl, rfl⟩ | ⟨hseat, hopen, hphase⟩
    · -- only a seat can be taken
      cases hstep with
      | seat _ => exact ⟨by simp, by simp, fun _ => by simp [phaseAfter, hne, moves, sideAfter]⟩
      | move hturn _ _ => simp [hw] at hturn
      | giveUp hturn _ => simp [hw] at hturn
    · refine ⟨List.mem_append_left _ hseat, ?_, ?_⟩
      · cases hstep with
        | seat hwait => exact absurd hwait hopen
        | move _ _ _ =>
            simp only
            split <;> simp
        | giveUp _ _ => simp
      · intro hno
        have hprev := hphase fun winner hmem => hno winner (List.mem_append_left _ hmem)
        cases hstep with
        | seat hwait => exact absurd hwait hopen
        | giveUp _ winner => exact absurd (by simp) (hno winner)
        | @move side pawns hturn _ _ =>
            rw [hturn, phaseAfter] at hprev
            split at hprev
            · obtain rfl := Phase.turn.inj hprev
              simp [phaseAfter, moves, sideAfter]
            · simp at hprev

end Laws

end Session
