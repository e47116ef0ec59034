import Kayles.Lib.Run

set_option autoImplicit false

/-! # Programs that take turns

A program that waits for its environment takes a turn for each answer it gets: the turn gives an
output and goes on with a new state, or gives what it has put out until then and ends the program.
`Driver.run` takes the turns for a list of answers, and what it does is a run of a transition
system, with a last turn that is not one of its steps if the program ends. -/

namespace Driver

variable {ι σ ο ε : Type*}

/-- The outputs of the turns, that of the turn that ends the program included, with the state after
    them or what has ended the program. -/
def run (turn : ι → σ → ο × Except ε σ) : List ι → σ → List ο × Except ε σ
  | [], s => ([], .ok s)
  | i :: rest, s =>
    match turn i s with
    | (o, .error e) => ([o], .error e)
    | (o, .ok s') => (o :: (run turn rest s').1, (run turn rest s').2)

variable {turn : ι → σ → ο × Except ε σ} {s s' : σ} {i : ι} {is : List ι} {o : ο}

theorem run_cons_of_ok (h : turn i s = (o, .ok s')) :
    run turn (i :: is) s = (o :: (run turn is s').1, (run turn is s').2) := by
  simp only [run, h]

theorem run_cons_of_error {e : ε} (h : turn i s = (o, .error e)) :
    run turn (i :: is) s = ([o], .error e) := by
  simp only [run, h]

/-- **Journal rule.** If carrying out what a turn has journaled takes the view before it to the view
after it, then carrying out the journals of all turns takes the first view to the last one. -/
theorem run_replay {ρ κ : Type*} {I : σ → Prop} (view : σ → ρ) (apply : ρ → κ → ρ)
    (journal : ο → List κ) (hturn : ∀ i s s' o, I s → turn i s = (o, .ok s') →
      I s' ∧ (journal o).foldl apply (view s) = view s') :
    ∀ (is : List ι) (s t : σ), I s → (run turn is s).2 = .ok t →
      ((run turn is s).1.flatMap journal).foldl apply (view s) = view t := by
  intro is
  induction is with
  | nil =>
      intro s t _ hend
      obtain rfl := Except.ok.inj hend
      rfl
  | cons i is ih =>
      intro s t hs hend
      rcases hi : turn i s with ⟨o, e | s'⟩
      · rw [run_cons_of_error hi] at hend
        exact absurd hend (by simp)
      · obtain ⟨hs', hjournal⟩ := hturn i s s' o hs hi
        rw [run_cons_of_ok hi] at hend ⊢
        rw [List.flatMap_cons, List.foldl_append, hjournal]
        exact ih s' t hs' hend

section Refinement

variable {τ ℓ : Type*} {step : τ → ℓ → τ → Prop} {R : σ → τ → Prop} {P : ι → Prop}
  {matched : ι → ο → ℓ → Prop}

/-- The program has gone on for `n` turns, as a run that ends in `t` does, and has then taken all its
    turns or been ended by the next one, whose output is its last. -/
def Ends (turn : ι → σ → ο × Except ε σ) (R : σ → τ → Prop) (is : List ι) (s : σ) (n : ℕ) (t : τ) :
    Prop :=
  match (run turn is s).2 with
  | .ok s' => R s' t ∧ n = is.length ∧ (run turn is s).1.length = n
  | .error e => ∃ i s' o, is[n]? = some i ∧ R s' t ∧ turn i s' = (o, .error e) ∧
      (run turn is s).1[n]? = some o ∧ (run turn is s).1.length = n + 1

theorem Ends.cons {n : ℕ} {t : τ} (h : turn i s = (o, .ok s')) (hends : Ends turn R is s' n t) :
    Ends turn R (i :: is) s (n + 1) t := by
  unfold Ends at hends ⊢
  rw [run_cons_of_ok h]
  cases hrun : (run turn is s').2 with
  | ok s'' =>
      rw [hrun] at hends
      obtain ⟨hR, hn, hlen⟩ := hends
      exact ⟨hR, congrArg Nat.succ hn, congrArg Nat.succ hlen⟩
  | error e =>
      rw [hrun] at hends
      obtain ⟨i', s₁, o', hi', hR, hturn, ho', hlen⟩ := hends
      exact ⟨i', s₁, o', hi', hR, hturn, ho', congrArg Nat.succ hlen⟩

variable (step R P matched) in
/-- **Refinement rule.** If every turn that goes on is a step, then the turns that have gone on are a
run, and a turn that ends the program does so in the state that the run has reached. -/
theorem run_refines (hturn : ∀ i s t s' o, P i → R s t → turn i s = (o, .ok s') →
      ∃ l t', step t l t' ∧ R s' t' ∧ matched i o l) :
    ∀ (is : List ι) (s : σ) (t : τ), (∀ i ∈ is, P i) → R s t →
      ∃ tr t', LTS.Run step t tr t' ∧ Ends turn R is s tr.length t' ∧
        ∀ (k : ℕ) (i : ι) (o : ο) (u : LTS.Transition τ ℓ), is[k]? = some i →
          (run turn is s).1[k]? = some o → tr[k]? = some u → matched i o u.label := by
  intro is
  induction is with
  | nil => exact fun s t _ hR => ⟨[], t, .refl, ⟨hR, rfl, rfl⟩, by simp⟩
  | cons i is ih =>
      intro s t hP hR
      obtain ⟨hi, his⟩ := List.forall_mem_cons.1 hP
      rcases h : turn i s with ⟨o, e | s'⟩
      · refine ⟨[], t, .refl, ?_, by simp⟩
        unfold Ends
        rw [run_cons_of_error h]
        exact ⟨i, s, o, rfl, hR, h, rfl, rfl⟩
      · obtain ⟨l, t₁, hstep, hR', hmatched⟩ := hturn i s t s' o hi hR h
        obtain ⟨tr, t', hrun, hends, hall⟩ := ih s' t₁ his hR'
        refine ⟨⟨t, l, t₁⟩ :: tr, t', (LTS.Run.single hstep).trans hrun, hends.cons h, ?_⟩
        rw [run_cons_of_ok h]
        intro k i' o' u hi' ho' hu
        cases k with
        | zero =>
            obtain rfl := Option.some.inj hi'
            obtain rfl := Option.some.inj ho'
            obtain rfl := Option.some.inj hu
            exact hmatched
        | succ k => exact hall k i' o' u hi' ho' hu

end Refinement

end Driver
