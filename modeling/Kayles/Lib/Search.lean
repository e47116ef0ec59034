import Kayles.Lib.Loop
import Mathlib.Data.Finset.Card
import Mathlib.Logic.Function.Iterate
import Mathlib.Logic.Relation

set_option autoImplicit false

/-! # Searches along an orbit

A loop that looks for a value outside a finite set by moving from each value to the next. It has no
measure of its own: it ends because the set is smaller than the stretch of the orbit on which no value
comes twice (`exists_iterate_notMem`), and it answers the first free value it meets (`run_search`). A
cursor that is moved by such searches only passes over what is taken (`Passes`), so that it comes back
to a value only when all of the orbit has been taken (`Passes.covers`). -/

namespace Loop

variable {σ ε : Type*} {next : σ → σ} {a b : σ} {taken taken' : σ → Prop}

/-- **Pigeonhole.** A set of fewer than `n` values misses one of the first `n` values of an orbit that
    are all different. -/
theorem exists_iterate_notMem {taken : Finset σ} {n : ℕ}
    (hinj : ∀ i < n, ∀ j < n, next^[i] a = next^[j] a → i = j) (hcard : taken.card < n) :
    ∃ i < n, next^[i] a ∉ taken := by
  by_contra hall
  push Not at hall
  have hle : (Finset.range n).card ≤ taken.card := by
    refine Finset.card_le_card_of_injOn (fun i => next^[i] a) ?_ ?_
    · intro i hi
      exact hall i (Finset.mem_range.1 hi)
    · intro i hi j hj
      exact hinj i (Finset.mem_range.1 hi) j (Finset.mem_range.1 hj)
  rw [Finset.card_range] at hle
  omega

variable {spent : ε} {body : σ → Except ε (σ ⊕ σ)} {free : σ → Prop}

/-- **The search.** If some value of the orbit is free, the loop returns a free one that comes no
    later, and it does so for every larger number of turns. -/
theorem run_search (hfree : ∀ s, free s → body s = .ok (.inr s))
    (hnext : ∀ s, ¬ free s → body s = .ok (.inl (next s))) :
    ∀ (n : ℕ) (s : σ), free (next^[n] s) →
      ∃ b, free b ∧ ∀ fuel, n < fuel → run spent body fuel s = .ok b := by
  -- a search that starts at a free value is over at once, for any fuel but none
  have hdone : ∀ s, free s → ∀ fuel, 0 < fuel → run spent body fuel s = .ok s := by
    intro s hs fuel hfuel
    obtain ⟨fuel, rfl⟩ : ∃ k, fuel = k + 1 := ⟨fuel - 1, by omega⟩
    rw [run, hfree s hs]
  intro n
  induction n with
  | zero => intro s hs; exact ⟨s, hs, hdone s hs⟩
  | succ n ih =>
      intro s hs
      by_cases hnow : free s
      · exact ⟨s, hnow, fun fuel hfuel => hdone s hnow fuel (by omega)⟩
      · obtain ⟨b, hb, hrun⟩ := ih (next s) (by rwa [Function.iterate_succ_apply] at hs)
        refine ⟨b, hb, fun fuel hfuel => ?_⟩
        obtain ⟨fuel, rfl⟩ : ∃ k, fuel = k + 1 := ⟨fuel - 1, by omega⟩
        rw [run, hnext s hnow]
        exact hrun fuel (by omega)

/-! ## Cursors -/

/-- The way from one value to another along the orbit leads over values that are taken. -/
def Passes (next : σ → σ) (taken : σ → Prop) : σ → σ → Prop :=
  Relation.ReflTransGen fun x y => taken x ∧ y = next x

theorem Passes.mono (hle : ∀ x, taken x → taken' x) (h : Passes next taken a b) :
    Passes next taken' a b :=
  Relation.ReflTransGen.mono (fun x _ hstep => ⟨hle x hstep.1, hstep.2⟩) a b h

/-- The cursor moves on from a value that is taken. -/
theorem Passes.tail (h : Passes next taken a b) (hb : taken b) : Passes next taken a (next b) :=
  Relation.ReflTransGen.tail h ⟨hb, rfl⟩

/-- A search passes over what is taken. -/
theorem passes_of_run (hbody : ∀ s s', body s = .ok (.inl s') → taken s ∧ s' = next s)
    (hdone : ∀ s b, body s = .ok (.inr b) → b = s) (fuel : ℕ) (h : run spent body fuel a = .ok b) :
    Passes next taken a b := by
  refine run_post (Passes next taken a) (Passes next taken a) ?_ ?_ fuel a b .refl h
  · intro s s' hs hturn
    exact Relation.ReflTransGen.tail hs (hbody s s' hturn)
  · intro s b' hs hturn
    rwa [hdone s b' hturn]

/-- **The orbit is covered.** A cursor that comes back to the value it started from has passed over
    everything else that the orbit holds. -/
theorem Passes.covers (h : Passes next taken (next a) a) (n : ℕ) :
    next^[n] a = a ∨ taken (next^[n] a) := by
  have hback : Passes next taken (next^[n] a) a := by
    induction n with
    | zero => exact .refl
    | succ n ih =>
        rw [Function.iterate_succ_apply']
        rcases Relation.ReflTransGen.cases_head ih with heq | ⟨b, ⟨-, rfl⟩, hrest⟩
        · rwa [heq]
        · exact hrest
  rcases Relation.ReflTransGen.cases_head hback with heq | ⟨b, ⟨htaken, -⟩, -⟩
  · exact .inl heq
  · exact .inr htaken

end Loop
