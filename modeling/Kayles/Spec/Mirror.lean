import Kayles.Spec.Session
import Mathlib.Data.Finset.Image

set_option autoImplicit false

/-! # Mirrored play

A strategy for sessions. When the standing pawns are their own reflection, the side that is not on
turn can answer every move by its reflection, as long as no move takes a pawn together with the
reflection of one: then it always has an answer, and the other side never wins
(`History.mirrored`). -/

namespace Session

variable {ι : Type*} [DecidableEq ι] {σ : ι → ι} {standing pawns : Finset ι} {side : Side}
  {ms ms' : List (Finset ι)} {s s' s₀ : State ι} {act : Act ι} {acts : List (Act ι)}

/-- The pawns are their own reflection. -/
structure Reflected (σ : ι → ι) (standing : Finset ι) : Prop where
  mem : ∀ i ∈ standing, σ i ∈ standing
  invol : ∀ i ∈ standing, σ (σ i) = i

/-- Every second move is the reflection of the one before it. -/
def Mirrored (σ : ι → ι) (ms : List (Finset ι)) : Prop :=
  ∀ before m m' after, ms = before ++ m :: m' :: after → before.length % 2 = 0 → m' = m.image σ

theorem Mirrored.of_append (h : Mirrored σ (ms ++ ms')) : Mirrored σ ms := by
  intro before m m' after hms heven
  refine h before m m' (after ++ ms') ?_ heven
  rw [hms, List.append_assoc, List.cons_append, List.cons_append]

/-- What one side takes and its reflection are removed from pawns that are their own reflection. -/
theorem Reflected.sdiff (h : Reflected σ (standing ∪ pawns)) (hdisj : Disjoint pawns standing) :
    Reflected σ (standing \ pawns.image σ) := by
  refine ⟨fun i hi => ?_, fun i hi => h.invol i (Finset.mem_union_left _ (Finset.mem_sdiff.1 hi).1)⟩
  obtain ⟨hstand, hno⟩ := Finset.mem_sdiff.1 hi
  have hinvol := h.invol i (Finset.mem_union_left _ hstand)
  refine Finset.mem_sdiff.2 ⟨?_, fun himage => ?_⟩
  · rcases Finset.mem_union.1 (h.mem i (Finset.mem_union_left _ hstand)) with hmem | hpawn
    · exact hmem
    · exact absurd (hinvol ▸ Finset.mem_image_of_mem σ hpawn) hno
  · obtain ⟨j, hj, heq⟩ := Finset.mem_image.1 himage
    have hji : j = i := by
      rw [← h.invol j (Finset.mem_union_right _ hj), heq, hinvol]
    exact Finset.disjoint_left.1 hdisj (hji ▸ hj) hstand

/-- The reflection of a move still stands after it, if they have no pawn in common. -/
theorem Reflected.image_subset (h : Reflected σ standing) (hsub : pawns ⊆ standing)
    (hone : Disjoint pawns (pawns.image σ)) : pawns.image σ ⊆ standing \ pawns := by
  intro i hi
  obtain ⟨j, hj, rfl⟩ := Finset.mem_image.1 hi
  exact Finset.mem_sdiff.2 ⟨h.mem j (hsub hj), fun hmem => Finset.disjoint_left.1 hone hmem hi⟩

/-- How mirrored play against `side` stands after the moves `ms`. -/
inductive Stage (σ : ι → ι) (side : Side) (ms : List (Finset ι)) (s : State ι) : Prop
  | balanced (hphase : s.phase = .turn side) (heven : ms.length % 2 = 0)
      (hrefl : Reflected σ s.standing)
  | pending (before : List (Finset ι)) (m : Finset ι) (hphase : s.phase = .turn side.other)
      (hms : ms = before ++ [m]) (heven : before.length % 2 = 0)
      (hrefl : Reflected σ (s.standing ∪ m)) (hdisj : Disjoint m s.standing)
      (himage : m.image σ ⊆ s.standing)
  | won (hphase : s.phase = .won side.other)

theorem Side.other_ne (side : Side) : side.other ≠ side := by
  cases side <;> exact Side.noConfusion

theorem Side.eq_other {side winner : Side} (h : winner ≠ side) : winner = side.other := by
  cases side <;> cases winner <;> first | rfl | exact absurd rfl h

theorem Stage.phase_ne_won (h : Stage σ side ms s) : s.phase ≠ .won side := by
  intro hwon
  cases h with
  | balanced hphase _ _ => simp [hwon] at hphase
  | pending _ _ hphase _ _ _ _ _ => simp [hwon] at hphase
  | won hphase => exact side.other_ne (Phase.won.inj (hwon.symm.trans hphase)).symm

/-- With the other side on turn, the reflection of the last move stands. -/
theorem Stage.exists_last (h : Stage σ side ms s) (hturn : s.phase = .turn side.other) :
    ∃ before m, ms = before ++ [m] ∧ m.image σ ⊆ s.standing := by
  cases h with
  | balanced hphase _ _ => exact absurd (Phase.turn.inj (hturn.symm.trans hphase)) side.other_ne
  | pending before m _ hms _ _ _ himage => exact ⟨before, m, hms, himage⟩
  | won hphase => simp [hturn] at hphase

/-- **One act** of mirrored play. -/
theorem Stage.step (h : Stage σ side (moves acts) s) (hstep : Step s act s')
    (hmirrored : Mirrored σ (moves (acts ++ [act]))) (hgive : act ≠ .giveUp side)
    (hone : ∀ m ∈ moves (acts ++ [act]), Disjoint m (m.image σ)) :
    Stage σ side (moves (acts ++ [act])) s' := by
  rw [moves_append] at hmirrored hone ⊢
  cases hstep with
  | seat hwait =>
      exfalso
      cases h with
      | balanced hphase _ _ => simp [hwait] at hphase
      | pending _ _ hphase _ _ _ _ _ => simp [hwait] at hphase
      | won hphase => simp [hwait] at hphase
  | giveUp hturn winner =>
      refine .won ?_
      rw [Side.eq_other fun heq : winner = side => hgive (heq ▸ rfl)]
  | @move mover pawns hturn hne hsub =>
      have hmoves : moves [Act.move pawns] = [pawns] := rfl
      rw [hmoves] at hmirrored hone ⊢
      cases h with
      | balanced hphase heven hrefl =>
          obtain rfl : mover = side := by simpa [hphase] using hturn.symm
          have himage := hrefl.image_subset hsub (hone pawns (by simp))
          have hleft : (s.standing \ pawns).Nonempty := (hne.image σ).mono himage
          refine .pending (moves acts) pawns (if_pos hleft) rfl heven ?_
            Finset.disjoint_sdiff himage
          rwa [Finset.sdiff_union_of_subset hsub]
      | pending before m hphase hms heven hrefl hdisj himage =>
          obtain rfl : mover = side.other := by simpa [hphase] using hturn.symm
          have hreply : pawns = m.image σ :=
            hmirrored before m pawns [] (by rw [hms, List.append_assoc]; rfl) heven
          by_cases hleft : (s.standing \ pawns).Nonempty
          · refine .balanced ?_ ?_ (hreply ▸ hrefl.sdiff hdisj)
            · simp [hleft]
            · simp only [hms, List.length_append, List.length_singleton]
              omega
          · exact .won (if_neg hleft)
      | won hphase => simp [hphase] at hturn

/-- **Mirrored play.** From pawns that are their own reflection, with `side` on turn, a side that
    answers every move by its reflection is never beaten, and when on turn, its answer stands. -/
theorem History.mirrored (h : History s₀ acts s) (hturn : s₀.phase = .turn side)
    (hrefl : Reflected σ s₀.standing) (hmirrored : Mirrored σ (moves acts))
    (hgive : Act.giveUp side ∉ acts)
    (hone : ∀ m ∈ moves acts, Disjoint m (m.image σ)) :
    Stage σ side (moves acts) s := by
  obtain ⟨tr, hrun, rfl⟩ := h
  induction hrun with
  | refl => exact .balanced hturn rfl hrefl
  | @snoc tr s₁ s₂ act hrun hstep ih =>
      simp only [List.map_append, List.map_cons, List.map_nil] at hmirrored hgive hone ⊢
      have hmoves := moves_append (tr.map LTS.Transition.label) [act]
      have hbefore := ih (hmoves ▸ hmirrored).of_append
        (fun hmem => hgive (List.mem_append_left _ hmem))
        (fun m hm => hone m (hmoves ▸ List.mem_append_left _ hm))
      exact hbefore.step hstep hmirrored (fun heq => hgive (heq ▸ by simp)) hone

end Session
