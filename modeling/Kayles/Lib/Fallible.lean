import Mathlib.Data.List.Forall2

set_option autoImplicit false

/-! # Loops over a list that can fail

What `List.mapM` returns in `Except`: the results of all elements, or the error of one. And a loop
with a state, `List.foldlM`: it simulates an abstract loop whose steps its own steps simulate. -/

namespace Fallible

variable {α β ε : Type} {f : α → Except ε β} {l : List α}

theorem bind_eq_ok_iff {x : Except ε α} {b : β} : x >>= f = .ok b ↔ ∃ a, x = .ok a ∧ f a = .ok b := by
  cases x with
  | error e => simp [bind, Except.bind]
  | ok a => simp [bind, Except.bind]

theorem map_eq_ok_iff {g : α → β} {x : Except ε α} {b : β} :
    x.map g = .ok b ↔ ∃ a, x = .ok a ∧ g a = b := by
  cases x with
  | error e => simp [Except.map]
  | ok a => simp [Except.map]

theorem eq_ok_of_toOption {x : Except ε α} {a : α} (h : x.toOption = some a) : x = .ok a := by
  cases x with
  | error e => simp [Except.toOption] at h
  | ok a' => exact congrArg Except.ok (Option.some.inj h)

theorem mapM_eq_ok_iff {bs : List β} :
    l.mapM f = .ok bs ↔ List.Forall₂ (fun a b => f a = .ok b) l bs := by
  induction l generalizing bs with
  | nil =>
      rw [List.mapM_nil, List.forall₂_nil_left_iff]
      exact ⟨fun h => (Except.ok.inj h).symm, fun h => congrArg Except.ok h.symm⟩
  | cons a l ih =>
      rw [List.mapM_cons, List.forall₂_cons_left_iff]
      cases ha : f a with
      | error e => simp [bind, Except.bind]
      | ok b =>
          cases hl : l.mapM f with
          | error e =>
              have hno : ∀ bs, ¬ List.Forall₂ (fun a b => f a = .ok b) l bs := by
                intro bs hbs
                have hok := ih.2 hbs
                rw [hl] at hok
                simp at hok
              simp [bind, Except.bind, hno]
          | ok bs' =>
              have hbs : ∀ bs, List.Forall₂ (fun a b => f a = .ok b) l bs ↔ bs' = bs := by
                intro bs
                rw [← ih, hl, Except.ok.injEq]
              simp [bind, Except.bind, pure, Except.pure, hbs, eq_comm]

theorem mapM_congr {g : α → Except ε β} (hfg : ∀ a ∈ l, f a = g a) : l.mapM f = l.mapM g := by
  induction l with
  | nil => rfl
  | cons a l ih =>
      obtain ⟨ha, hl⟩ := List.forall_mem_cons.1 hfg
      rw [List.mapM_cons, List.mapM_cons, ha, ih hl]

/-- A loop that fails at no element. -/
theorem mapM_eq_ok {h : α → β} (hf : ∀ a ∈ l, f a = .ok (h a)) : l.mapM f = .ok (l.map h) := by
  rw [mapM_eq_ok_iff, List.forall₂_map_right_iff, List.forall₂_same]
  exact hf

theorem exists_mapM_eq_ok_iff :
    (∃ bs, l.mapM f = .ok bs) ↔ ∀ a ∈ l, ∃ b, f a = .ok b := by
  simp only [mapM_eq_ok_iff]
  induction l with
  | nil => simp
  | cons a l ih =>
      rw [List.forall_mem_cons, ← ih]
      constructor
      · intro hok
        obtain ⟨bs, hbs⟩ := hok
        obtain ⟨b, bs', hb, hbs', rfl⟩ := List.forall₂_cons_left_iff.1 hbs
        exact ⟨⟨b, hb⟩, bs', hbs'⟩
      · intro hok
        obtain ⟨⟨b, hb⟩, bs, hbs⟩ := hok
        exact ⟨b :: bs, .cons hb hbs⟩

/-- The error of a loop is one of its elements'. -/
theorem exists_of_mapM_eq_error {e : ε} (h : l.mapM f = .error e) : ∃ a ∈ l, f a = .error e := by
  induction l with
  | nil => simp [pure, Except.pure] at h
  | cons a l ih =>
      rw [List.mapM_cons] at h
      cases ha : f a with
      | error e' =>
          rw [ha] at h
          have he : e' = e := Except.error.inj h
          exact ⟨a, List.mem_cons_self, he ▸ ha⟩
      | ok b =>
          cases hl : l.mapM f with
          | error e' =>
              rw [ha, hl] at h
              have he : e' = e := Except.error.inj h
              obtain ⟨a', ha', he⟩ := ih (he ▸ hl)
              exact ⟨a', List.mem_cons_of_mem _ ha', he⟩
          | ok bs =>
              rw [ha, hl] at h
              simp [bind, Except.bind, pure, Except.pure] at h

/-! ## Errors of one kind -/

/-- Every error of `x` is one of `P`. -/
def ErrorsIn (P : ε → Prop) (x : Except ε α) : Prop := ∀ e, x = .error e → P e

theorem errorsIn_pure {P : ε → Prop} (a : α) : ErrorsIn P (pure a) := by
  intro e h
  simp [pure, Except.pure] at h

theorem ErrorsIn.bind {P : ε → Prop} {x : Except ε α} (hx : ErrorsIn P x)
    (hf : ∀ a, ErrorsIn P (f a)) : ErrorsIn P (x >>= f) := by
  intro e h
  cases x with
  | error e' => exact hx e (congrArg Except.error (Except.error.inj h))
  | ok a => exact hf a e h

/-! ## Loops with a state -/

section Loop

variable {σ τ : Type} {step : σ → α → Except ε σ}

theorem ErrorsIn.foldlM {P : ε → Prop} (hstep : ∀ s a, ErrorsIn P (step s a)) (l : List α) (s : σ) :
    ErrorsIn P (l.foldlM step s) := by
  induction l generalizing s with
  | nil => exact errorsIn_pure s
  | cons a l ih =>
      rw [List.foldlM_cons]
      exact (hstep s a).bind ih

/-- **Simulation.** If every step on an element of the list returns and simulates the abstract step,
the loop returns and simulates the abstract loop. -/
theorem foldlM_simulates {abstract : τ → α → τ} {R : τ → σ → Prop} {P : τ → α → Prop}
    (hstep : ∀ t s a, R t s → P t a → ∃ s', step s a = .ok s' ∧ R (abstract t a) s')
    (hkeep : ∀ t a b, P t b → P (abstract t a) b) {t : τ} {s : σ} (hR : R t s)
    (hP : ∀ a ∈ l, P t a) : ∃ s', l.foldlM step s = .ok s' ∧ R (l.foldl abstract t) s' := by
  induction l generalizing t s with
  | nil => exact ⟨s, rfl, hR⟩
  | cons a l ih =>
      obtain ⟨ha, hl⟩ := List.forall_mem_cons.1 hP
      obtain ⟨s', hs', hR'⟩ := hstep t s a hR ha
      obtain ⟨s'', hs'', hR''⟩ := ih hR' fun b hb => hkeep t a b (hl b hb)
      refine ⟨s'', ?_, hR''⟩
      rw [List.foldlM_cons, hs']
      exact hs''

end Loop

end Fallible
