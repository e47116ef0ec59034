import Mathlib.Logic.Basic
import Mathlib.Order.Basic
import Mathlib.Tactic.Common

set_option autoImplicit false

/-! # Loops run for a bounded number of turns

A `while` loop of an imperative program need not return. `Loop.run` gives it a number of turns
(`fuel`); a loop still running when they are spent ends in the error `spent`. A loop that returns
does so for every large enough number of turns, and a loop that never returns answers `spent` for
all of them.

Four rules carry the proofs: `run_post` (an invariant describes every result), `run_ok_of_variant`
(an invariant with a decreasing measure makes the loop return), `run_eq_spent` (an invariant under
which every turn goes on makes it run forever) and `run_error` (an invariant under which no turn
fails leaves `spent` as the only error). -/

namespace Loop

variable {σ β ε : Type*}

/-- Run `body` from `s` for at most `fuel` turns: a turn fails, goes on with a new state (`inl`) or
    leaves the loop with a result (`inr`). -/
def run (spent : ε) (body : σ → Except ε (σ ⊕ β)) : ℕ → σ → Except ε β
  | 0, _ => .error spent
  | fuel + 1, s =>
    match body s with
    | .error e => .error e
    | .ok (.inl s') => run spent body fuel s'
    | .ok (.inr b) => .ok b

variable {spent : ε} {body : σ → Except ε (σ ⊕ β)}

/-- **Partial correctness.** What an invariant and the last turn give holds of every result. -/
theorem run_post (I : σ → Prop) (Q : β → Prop)
    (hnext : ∀ s s', I s → body s = .ok (.inl s') → I s')
    (hdone : ∀ s b, I s → body s = .ok (.inr b) → Q b) :
    ∀ (fuel : ℕ) (s : σ) (b : β), I s → run spent body fuel s = .ok b → Q b := by
  intro fuel
  induction fuel with
  | zero => intro s b _ h; simp [run] at h
  | succ fuel ih =>
      intro s b hs h
      rw [run] at h
      split at h
      · simp at h
      · next s' hbody => exact ih s' b (hnext s s' hs hbody) h
      · next b' hbody =>
          obtain rfl : b' = b := by simpa using h
          exact hdone s b' hs hbody

/-- **Termination.** If every turn from the invariant either leaves with a good result or goes on
    within the invariant at a smaller measure, the loop returns once the fuel exceeds the measure. -/
theorem run_ok_of_variant (I : σ → Prop) (Q : β → Prop) (measure : σ → ℕ)
    (hbody : ∀ s, I s → (∃ b, body s = .ok (.inr b) ∧ Q b) ∨
      ∃ s', body s = .ok (.inl s') ∧ I s' ∧ measure s' < measure s) :
    ∀ (fuel : ℕ) (s : σ), I s → measure s < fuel → ∃ b, run spent body fuel s = .ok b ∧ Q b := by
  intro fuel
  induction fuel with
  | zero => intro s _ h; exact absurd h (Nat.not_lt_zero _)
  | succ fuel ih =>
      intro s hs hlt
      rcases hbody s hs with ⟨b, hb, hq⟩ | ⟨s', hb, hs', hdec⟩
      · exact ⟨b, by rw [run, hb], hq⟩
      · obtain ⟨b, hrun, hq⟩ := ih s' hs' (by omega)
        exact ⟨b, by rw [run, hb]; exact hrun, hq⟩

/-- The number of turns does not change the result. -/
theorem run_unique : ∀ {fuel fuel' : ℕ} {s : σ} {b b' : β}, run spent body fuel s = .ok b →
    run spent body fuel' s = .ok b' → b = b' := by
  intro fuel
  induction fuel with
  | zero => intro fuel' s b b' h; simp [run] at h
  | succ fuel ih =>
      intro fuel' s b b' h h'
      cases fuel' with
      | zero => simp [run] at h'
      | succ fuel' =>
          rw [run] at h h'
          cases hbody : body s with
          | error e => simp [hbody] at h
          | ok r =>
              rw [hbody] at h h'
              cases r with
              | inl s' => exact ih h h'
              | inr c => exact (Except.ok.inj h).symm.trans (Except.ok.inj h')

/-- **Divergence.** If every turn from the invariant goes on within it, no fuel is enough. -/
theorem run_eq_spent (I : σ → Prop)
    (hnext : ∀ s, I s → ∃ s', body s = .ok (.inl s') ∧ I s') :
    ∀ (fuel : ℕ) (s : σ), I s → run spent body fuel s = .error spent := by
  intro fuel
  induction fuel with
  | zero => intro s _; rfl
  | succ fuel ih =>
      intro s hs
      obtain ⟨s', hbody, hs'⟩ := hnext s hs
      rw [run, hbody]
      exact ih s' hs'

/-- If no turn from the invariant fails, running out of fuel is the only error left. -/
theorem run_error (I : σ → Prop)
    (hbody : ∀ s, I s → (∃ b, body s = .ok (.inr b)) ∨ ∃ s', body s = .ok (.inl s') ∧ I s') :
    ∀ (fuel : ℕ) (s : σ) (e : ε), I s → run spent body fuel s = .error e → e = spent := by
  intro fuel
  induction fuel with
  | zero => intro s e _ h; simpa [run] using h.symm
  | succ fuel ih =>
      intro s e hs h
      rcases hbody s hs with ⟨b, hb⟩ | ⟨s', hb, hs'⟩
      · rw [run, hb] at h; simp at h
      · rw [run, hb] at h; exact ih s' e hs' h

end Loop
