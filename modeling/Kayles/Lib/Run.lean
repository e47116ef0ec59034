import Mathlib.Data.List.Forall2
import Mathlib.Data.List.Induction
import Mathlib.Data.List.ReduceOption
import Mathlib.Tactic.Common

set_option autoImplicit false

/-! # Runs of a labelled transition system

A system is a relation `step : σ → ℓ → σ → Prop`; a label carries what the environment supplied and
what the system answered. `Run step s tr s'` is a finite execution, with every transition it made
recorded in `tr` in order. Properties of whole histories are stated over `tr`. -/

namespace LTS

variable {σ ℓ : Type*}

/-- One recorded transition. -/
structure Transition (σ ℓ : Type*) where
  pre : σ
  label : ℓ
  post : σ

/-- Finite executions from `s`, with the transitions made. -/
inductive Run (step : σ → ℓ → σ → Prop) (s : σ) : List (Transition σ ℓ) → σ → Prop
  | refl : Run step s [] s
  | snoc {tr : List (Transition σ ℓ)} {s₁ s₂ : σ} {l : ℓ} :
      Run step s tr s₁ → step s₁ l s₂ → Run step s (tr ++ [⟨s₁, l, s₂⟩]) s₂

/-- The states some execution from `init` ends in. -/
def Reachable (step : σ → ℓ → σ → Prop) (init s : σ) : Prop := ∃ tr, Run step init tr s

variable {step step' : σ → ℓ → σ → Prop} {s s₁ s₂ : σ} {tr tr₁ tr₂ : List (Transition σ ℓ)}

namespace Run

theorem single {l : ℓ} (h : step s l s₁) : Run step s [⟨s, l, s₁⟩] s₁ := .snoc .refl h

theorem trans (h₁ : Run step s tr₁ s₁) (h₂ : Run step s₁ tr₂ s₂) :
    Run step s (tr₁ ++ tr₂) s₂ := by
  induction h₂ with
  | refl => simpa using h₁
  | snoc _ hstep ih =>
      rw [← List.append_assoc]
      exact ih.snoc hstep

/-- Every recorded transition is a step of the system. -/
theorem step_of_mem (h : Run step s tr s₁) : ∀ t ∈ tr, step t.pre t.label t.post := by
  induction h with
  | refl => intro t ht; simp at ht
  | snoc _ hstep ih =>
      intro t ht
      rcases List.mem_append.1 ht with ht | ht
      · exact ih t ht
      · obtain rfl := List.mem_singleton.1 ht
        exact hstep

theorem eq_of_nil (h : Run step s [] s₁) : s₁ = s := by
  generalize htr : ([] : List (Transition σ ℓ)) = tr at h
  cases h with
  | refl => rfl
  | snoc _ _ => simp at htr

/-- The last transition of a run, and the run before it. -/
theorem unsnoc {t : Transition σ ℓ} (h : Run step s (tr ++ [t]) s₂) :
    Run step s tr t.pre ∧ step t.pre t.label t.post ∧ t.post = s₂ := by
  generalize htr : tr ++ [t] = tr' at h
  cases h with
  | refl => simp at htr
  | snoc hrun hstep =>
      obtain ⟨rfl, ht⟩ := List.append_inj' htr rfl
      obtain rfl := List.singleton_inj.1 ht
      exact ⟨hrun, hstep, rfl⟩

/-- A run splits wherever its record does. -/
theorem split (h : Run step s (tr₁ ++ tr₂) s₂) :
    ∃ s₁, Run step s tr₁ s₁ ∧ Run step s₁ tr₂ s₂ := by
  induction tr₂ using List.reverseRecOn generalizing s₂ with
  | nil => exact ⟨s₂, by simpa using h, .refl⟩
  | append_singleton tr₂ t ih =>
      rw [← List.append_assoc] at h
      obtain ⟨hrun, hstep, rfl⟩ := h.unsnoc
      obtain ⟨s₁, hfst, hsnd⟩ := ih hrun
      exact ⟨s₁, hfst, hsnd.snoc hstep⟩

/-- The first transition of a run, and the run after it. -/
theorem uncons {t : Transition σ ℓ} (h : Run step s (t :: tr) s₂) :
    t.pre = s ∧ step s t.label t.post ∧ Run step t.post tr s₂ := by
  have happ : Run step s ([t] ++ tr) s₂ := h
  obtain ⟨s₁, hfst, hsnd⟩ := happ.split
  have hlast : Run step s ([] ++ [t]) s₁ := hfst
  obtain ⟨hnil, hstep, rfl⟩ := hlast.unsnoc
  have hpre := hnil.eq_of_nil
  exact ⟨hpre, hpre ▸ hstep, hsnd⟩

/-- **Invariant rule.** What the first state satisfies and every step preserves holds of the last. -/
theorem invariant {I : σ → Prop} (hstep : ∀ s l s', I s → step s l s' → I s')
    (h : Run step s tr s₁) (hs : I s) : I s₁ := by
  induction h with
  | refl => exact hs
  | snoc _ hst ih => exact hstep _ _ _ ih hst

/-- A run whose transitions all satisfy `P` is a run of the steps that do. -/
theorem restrict {P : Transition σ ℓ → Prop} (h : Run step s tr s₁) (hP : ∀ t ∈ tr, P t) :
    Run (fun s l s' => step s l s' ∧ P ⟨s, l, s'⟩) s tr s₁ := by
  induction h with
  | refl => exact .refl
  | snoc _ hst ih =>
      refine (ih fun t ht => hP t (List.mem_append_left _ ht)).snoc ⟨hst, ?_⟩
      exact hP _ (List.mem_append_right _ List.mem_cons_self)

theorem mono (hle : ∀ s l s', step s l s' → step' s l s') (h : Run step s tr s₁) :
    Run step' s tr s₁ := by
  induction h with
  | refl => exact .refl
  | snoc _ hst ih => exact ih.snoc (hle _ _ _ hst)

/-- **Journal rule.** If every step records what turns the view of the state before it into the view
    of the state after it, then so does the record of a run. -/
theorem replay {ρ ε : Type*} (view : σ → ρ) (apply : ρ → ε → ρ) (journal : ℓ → List ε)
    (hstep : ∀ s l s', step s l s' → (journal l).foldl apply (view s) = view s')
    (h : Run step s tr s₁) :
    (tr.flatMap fun t => journal t.label).foldl apply (view s) = view s₁ := by
  induction h with
  | refl => rfl
  | snoc _ hst ih =>
      rw [List.flatMap_append, List.foldl_append, ih, List.flatMap_singleton]
      exact hstep _ _ _ hst

end Run

/-! ## Runs in clock order

Each label carries readings of a clock, `times`. A run is in clock order when its readings, one after
the other, never decrease. -/

section Clock

variable {τ : Type*} [LE τ] {times : ℓ → List τ}

/-- The readings of the clock along a run. -/
def readings (times : ℓ → List τ) (tr : List (Transition σ ℓ)) : List τ :=
  tr.flatMap fun t => times t.label

omit [LE τ] in
@[simp] theorem readings_append (times : ℓ → List τ) (tr tr' : List (Transition σ ℓ)) :
    readings times (tr ++ tr') = readings times tr ++ readings times tr' := List.flatMap_append

omit [LE τ] in
@[simp] theorem readings_singleton (times : ℓ → List τ) (t : Transition σ ℓ) :
    readings times [t] = times t.label := by simp [readings]

/-- **Clock rule.** A property of a state at a time holds of the last state of a run at every time the
    clock may show next, if it holds of the first state at every time and every step keeps it from the
    readings it makes to any later one. -/
theorem Run.clock_invariant {I : τ → σ → Prop} (hinit : ∀ t, I t s)
    (hstep : ∀ s l s' t, (∀ u ∈ times l ++ [t], I u s) → (times l ++ [t]).Pairwise (· ≤ ·) →
      step s l s' → I t s')
    (h : Run step s tr s₁) {t : τ} (ht : (readings times tr ++ [t]).Pairwise (· ≤ ·)) : I t s₁ := by
  induction h generalizing t with
  | refl => exact hinit t
  | snoc _ hst ih =>
      rw [readings_append, readings_singleton, List.append_assoc] at ht
      refine hstep _ _ _ t ?_ (List.pairwise_append.1 ht).2.1 hst
      intro u hu
      refine ih (ht.sublist ?_)
      exact (List.Sublist.refl _).append (List.singleton_sublist.2 hu)

end Clock

/-! ## Runs with insertions

A run against one whose inputs are copies of its own with extra ones inserted anywhere. A relation
of the two states at a time is kept when a step and its copy keep it and an extra step of the second
run does. -/

section Insertion

variable {ρ κ α β τ : Type*} {same : α → β → Prop} {extra : β → Prop}

/-- The list `bs` is made of copies of `as`, in order, with extra elements inserted. -/
inductive Inserts (same : α → β → Prop) (extra : β → Prop) : List α → List β → Prop
  | nil : Inserts same extra [] []
  | copy {as : List α} {bs : List β} {a : α} {b : β} :
      Inserts same extra as bs → same a b → Inserts same extra (as ++ [a]) (bs ++ [b])
  | insert {as : List α} {bs : List β} {b : β} :
      Inserts same extra as bs → extra b → Inserts same extra as (bs ++ [b])

/-- The two lists end at one point: at the start, or right after an element and its copy. -/
inductive SamePoint (same : α → β → Prop) (extra : β → Prop) : List α → List β → Prop
  | start : SamePoint same extra [] []
  | copy {as : List α} {bs : List β} {a : α} {b : β} :
      Inserts same extra as bs → same a b → SamePoint same extra (as ++ [a]) (bs ++ [b])

/-- Every point of the first list is one of the second. -/
theorem Inserts.exists_samePoint {as : List α} {bs : List β} (h : Inserts same extra as bs) :
    ∀ as₁, as₁ <+: as → ∃ bs₁, bs₁ <+: bs ∧ SamePoint same extra as₁ bs₁ := by
  induction h with
  | nil =>
      intro as₁ has
      obtain rfl := List.prefix_nil.1 has
      exact ⟨[], List.nil_prefix, .start⟩
  | copy hins hab ih =>
      intro as₁ has
      rcases List.prefix_concat_iff.1 has with rfl | has
      · exact ⟨_, List.prefix_refl _, .copy hins hab⟩
      · obtain ⟨bs₁, hbs, hpoint⟩ := ih as₁ has
        exact ⟨bs₁, hbs.trans (List.prefix_append _ _), hpoint⟩
  | insert _ _ ih =>
      intro as₁ has
      obtain ⟨bs₁, hbs, hpoint⟩ := ih as₁ has
      exact ⟨bs₁, hbs.trans (List.prefix_append _ _), hpoint⟩

/-- A run whose inputs end in `b` ends in a step with that input. -/
theorem Run.unsnoc_map {input : ℓ → α} {as : List α} {a : α} (h : Run step s tr s₂)
    (hinputs : tr.map (fun t => input t.label) = as ++ [a]) :
    ∃ tr₁ t, tr = tr₁ ++ [t] ∧ tr₁.map (fun t => input t.label) = as ∧ input t.label = a ∧
      Run step s tr₁ t.pre ∧ step t.pre t.label s₂ := by
  obtain ⟨tr₁, tr₂, rfl, has, hlast⟩ := List.map_eq_append_iff.1 hinputs
  obtain ⟨t, rfl, ht⟩ := List.map_eq_singleton_iff.1 hlast
  obtain ⟨hrun, hstep, rfl⟩ := h.unsnoc
  exact ⟨tr₁, t, rfl, has, ht, hrun, hstep⟩

variable [LE τ] {step₂ : ρ → κ → ρ → Prop} {input : ℓ → α} {input₂ : κ → β} {times : κ → List τ}
  {past : List τ} {r : ρ}

omit [LE τ] in
/-- A later time of a run before its last step is a later time of the whole run. -/
theorem pairwise_before [LE τ] {tr' : List (Transition ρ κ)} {k : Transition ρ κ} {t : τ}
    (hord : (past ++ readings times (tr' ++ [k]) ++ [t]).Pairwise (· ≤ ·)) :
    (times k.label ++ [t]).Pairwise (· ≤ ·) ∧
      ∀ u ∈ times k.label ++ [t], (past ++ readings times tr' ++ [u]).Pairwise (· ≤ ·) := by
  rw [readings_append, readings_singleton, ← List.append_assoc, List.append_assoc] at hord
  refine ⟨(List.pairwise_append.1 hord).2.1, fun u hu => hord.sublist ?_⟩
  exact (List.Sublist.refl _).append (List.singleton_sublist.2 hu)

/-- **Insertion rule**, with what is observed: copies are observed alike, and extra steps not at
    all. -/
theorem Run.inserts_observe {ω : Type*} (obs : ℓ → List ω) (obs₂ : κ → List ω) {R : τ → σ → ρ → Prop}
    (hinit : ∀ t, (past ++ [t]).Pairwise (· ≤ ·) → R t s r)
    (hcopy : ∀ s l s' r k r' t, (∀ u ∈ times k ++ [t], R u s r) →
      (times k ++ [t]).Pairwise (· ≤ ·) → step s l s' → step₂ r k r' → same (input l) (input₂ k) →
      R t s' r' ∧ obs₂ k = obs l)
    (hextra : ∀ s r k r' t, (∀ u ∈ times k ++ [t], R u s r) → (times k ++ [t]).Pairwise (· ≤ ·) →
      step₂ r k r' → extra (input₂ k) → R t s r' ∧ obs₂ k = [])
    {as : List α} {bs : List β} (h : Inserts same extra as bs) :
    ∀ {tr : List (Transition σ ℓ)} {s₁ : σ} {tr' : List (Transition ρ κ)} {r₁ : ρ} {t : τ},
      Run step s tr s₁ → Run step₂ r tr' r₁ → tr.map (fun u => input u.label) = as →
      tr'.map (fun u => input₂ u.label) = bs →
      (past ++ readings times tr' ++ [t]).Pairwise (· ≤ ·) →
      R t s₁ r₁ ∧ (tr'.flatMap fun u => obs₂ u.label) = tr.flatMap fun u => obs u.label := by
  induction h with
  | nil =>
      intro tr s₁ tr' r₁ t hrun hrun' htr htr' hord
      obtain rfl := List.map_eq_nil_iff.1 htr
      obtain rfl := List.map_eq_nil_iff.1 htr'
      obtain rfl := hrun.eq_of_nil
      obtain rfl := hrun'.eq_of_nil
      exact ⟨hinit t (by simpa [readings] using hord), rfl⟩
  | copy _ hab ih =>
      intro tr s₁ tr' r₁ t hrun hrun' htr htr' hord
      obtain ⟨tr₁, u, rfl, has, rfl, hrun₁, hstep⟩ := hrun.unsnoc_map htr
      obtain ⟨tr₁', u', rfl, hbs, rfl, hrun₁', hstep'⟩ := hrun'.unsnoc_map htr'
      obtain ⟨hlast, hbefore⟩ := pairwise_before hord
      have hprev := fun v hv => ih hrun₁ hrun₁' has hbs (hbefore v hv)
      obtain ⟨hR, hobs⟩ := hcopy _ _ _ _ _ _ t (fun v hv => (hprev v hv).1) hlast hstep hstep' hab
      have hseen := (hprev t (List.mem_append_right _ (List.mem_singleton.2 rfl))).2
      refine ⟨hR, ?_⟩
      rw [List.flatMap_append, List.flatMap_append, hseen, List.flatMap_singleton,
        List.flatMap_singleton, hobs]
  | insert _ hb ih =>
      intro tr s₁ tr' r₁ t hrun hrun' htr htr' hord
      obtain ⟨tr₁', u', rfl, hbs, rfl, hrun₁', hstep'⟩ := hrun'.unsnoc_map htr'
      obtain ⟨hlast, hbefore⟩ := pairwise_before hord
      have hprev := fun v hv => ih hrun hrun₁' htr hbs (hbefore v hv)
      obtain ⟨hR, hobs⟩ := hextra _ _ _ _ t (fun v hv => (hprev v hv).1) hlast hstep' hb
      have hseen := (hprev t (List.mem_append_right _ (List.mem_singleton.2 rfl))).2
      refine ⟨hR, ?_⟩
      rw [List.flatMap_append, hseen, List.flatMap_singleton, hobs, List.append_nil]

/-- **Insertion rule.** -/
theorem Run.inserts_agree {R : τ → σ → ρ → Prop}
    (hinit : ∀ t, (past ++ [t]).Pairwise (· ≤ ·) → R t s r)
    (hcopy : ∀ s l s' r k r' t, (∀ u ∈ times k ++ [t], R u s r) →
      (times k ++ [t]).Pairwise (· ≤ ·) → step s l s' → step₂ r k r' → same (input l) (input₂ k) →
      R t s' r')
    (hextra : ∀ s r k r' t, (∀ u ∈ times k ++ [t], R u s r) → (times k ++ [t]).Pairwise (· ≤ ·) →
      step₂ r k r' → extra (input₂ k) → R t s r')
    {as : List α} {bs : List β} (h : Inserts same extra as bs)
    {tr : List (Transition σ ℓ)} {s₁ : σ} {tr' : List (Transition ρ κ)} {r₁ : ρ} {t : τ}
    (hrun : Run step s tr s₁) (hrun' : Run step₂ r tr' r₁)
    (htr : tr.map (fun u => input u.label) = as) (htr' : tr'.map (fun u => input₂ u.label) = bs)
    (hord : (past ++ readings times tr' ++ [t]).Pairwise (· ≤ ·)) : R t s₁ r₁ := by
  let obs (_ : ℓ) : List Empty := []
  let obs₂ (_ : κ) : List Empty := []
  have hboth := Run.inserts_observe obs obs₂ hinit
    (fun s l s' r k r' t hR hle hst hst' hab => ⟨hcopy s l s' r k r' t hR hle hst hst' hab, rfl⟩)
    (fun s r k r' t hR hle hst hb => ⟨hextra s r k r' t hR hle hst hb, rfl⟩) h hrun hrun' htr htr'
    hord
  exact hboth.1

end Insertion

/-! ## Simulation -/

section Simulation

variable {τ κ : Type*} {astep : τ → κ → τ → Prop}

/-- An abstract step with the action given, or no step at all. -/
def Stutters (astep : τ → κ → τ → Prop) (a : τ) : Option κ → τ → Prop
  | none, a' => a' = a
  | some k, a' => astep a k a'

/-- **Simulation rule.** If every step is matched, along `R`, by the abstract step that `act` reads
    off it, or by none, then every run is matched by an abstract run with the same actions. -/
theorem Run.simulate {R : σ → τ → Prop} {act : Transition σ ℓ → Option κ}
    (hsim : ∀ s l s' a, R s a → step s l s' →
      ∃ a', R s' a' ∧ Stutters astep a (act ⟨s, l, s'⟩) a')
    (h : Run step s tr s₁) {a : τ} (ha : R s a) :
    ∃ atr a₁, Run astep a atr a₁ ∧ R s₁ a₁ ∧ atr.map Transition.label = tr.filterMap act := by
  induction h with
  | refl => exact ⟨[], a, .refl, ha, rfl⟩
  | @snoc tr s₁ s₂ l _ hst ih =>
      obtain ⟨atr, a₁, hrun, ha₁, hacts⟩ := ih
      obtain ⟨a₂, ha₂, hstep⟩ := hsim _ _ _ a₁ ha₁ hst
      rw [List.filterMap_append, ← hacts]
      cases hact : act ⟨s₁, l, s₂⟩ with
      | none =>
          rw [hact] at hstep
          obtain rfl : a₂ = a₁ := hstep
          exact ⟨atr, a₂, hrun, ha₂, by simp [hact]⟩
      | some k =>
          rw [hact] at hstep
          exact ⟨_, a₂, hrun.snoc hstep, ha₂, by simp [hact]⟩

/-- **Simulation rule**, where `M` relates a transition to the abstract step, if any, that matches
    it. -/
theorem Run.simulate_matched {R : σ → τ → Prop} {M : Transition σ ℓ → Option κ → Prop}
    (hsim : ∀ s l s' a, R s a → step s l s' →
      ∃ o a', R s' a' ∧ Stutters astep a o a' ∧ M ⟨s, l, s'⟩ o)
    (h : Run step s tr s₁) {a : τ} (ha : R s a) :
    ∃ atr a₁ acts, Run astep a atr a₁ ∧ R s₁ a₁ ∧ atr.map Transition.label = acts.reduceOption ∧
      List.Forall₂ M tr acts := by
  induction h with
  | refl => exact ⟨[], a, [], .refl, ha, rfl, .nil⟩
  | @snoc tr s₁ s₂ l _ hst ih =>
      obtain ⟨atr, a₁, acts, hrun, ha₁, hacts, hall⟩ := ih
      obtain ⟨o, a₂, ha₂, hstep, hm⟩ := hsim _ _ _ a₁ ha₁ hst
      have hlast : List.Forall₂ M [⟨s₁, l, s₂⟩] [o] := .cons hm .nil
      have hall₂ := List.rel_append hall hlast
      cases o with
      | none =>
          obtain rfl : a₂ = a₁ := hstep
          exact ⟨atr, a₂, _, hrun, ha₂, by simp [hacts, List.reduceOption_append], hall₂⟩
      | some k =>
          exact ⟨_, a₂, _, hrun.snoc hstep, ha₂, by simp [hacts, List.reduceOption_append], hall₂⟩

end Simulation

/-! ## Purged runs

A run against one from which the steps that are not to be kept have been deleted: the view `R` of the
two states agrees when a deleted step leaves it alone and a kept one acts on it alone. -/

section Purge

variable {τ κ α β : Type*} {step' : τ → κ → τ → Prop} {R : σ → τ → Prop} {keep : ℓ → Prop}
  [DecidablePred keep] {same : ℓ → α → Prop} {input : κ → α} {obs : ℓ → β} {obs' : κ → β}
  {tr' : List (Transition τ κ)} {r₁ : τ}

/-- The transitions that are kept. -/
def kept (keep : ℓ → Prop) [DecidablePred keep] (tr : List (Transition σ ℓ)) :
    List (Transition σ ℓ) := tr.filter fun t => decide (keep t.label)

theorem kept_cons_of_pos {t : Transition σ ℓ} (h : keep t.label) :
    kept keep (t :: tr) = t :: kept keep tr := List.filter_cons_of_pos (decide_eq_true h)

theorem kept_cons_of_neg {t : Transition σ ℓ} (h : ¬ keep t.label) :
    kept keep (t :: tr) = kept keep tr := List.filter_cons_of_neg (by simpa using h)

theorem mem_kept {t : Transition σ ℓ} (h : t ∈ kept keep tr) : keep t.label := by
  simpa using (List.mem_filter.1 h).2

/-- Copies of transitions that were kept are all kept. -/
theorem kept_of_forall₂ {keep' : κ → Prop} [DecidablePred keep'] {copy : ℓ → κ → Prop}
    (hcopy : ∀ l l', keep l → copy l l' → keep' l')
    (h : List.Forall₂ (fun t t' => copy t.label t'.label) (kept keep tr) tr') :
    kept keep' tr' = tr' := by
  have hboth := (List.forall₂_and_left _ _).2 ⟨fun _ => mem_kept, h⟩
  have hflip : List.Forall₂ (fun (t' : Transition τ κ) (_ : Transition σ ℓ) => keep' t'.label ∧ True)
      tr' (kept keep tr) := (hboth.imp fun _ _ ht => ⟨hcopy _ _ ht.1 ht.2, trivial⟩).flip
  have hall := ((List.forall₂_and_left _ _).1 hflip).1
  exact List.filter_eq_self.2 fun t' ht' => decide_eq_true (hall t' ht')

variable (keep same) in
/-- **The purged run exists**: the kept steps can be taken without the others. -/
theorem Run.exists_purged (hskip : ∀ s l s' r, R s r → step s l s' → ¬ keep l → R s' r)
    (hkeep : ∀ s l s' r a, R s r → step s l s' → keep l → same l a →
      ∃ l' r', step' r l' r' ∧ input l' = a ∧ R s' r') :
    ∀ {tr : List (Transition σ ℓ)} {s : σ} {r : τ} {as : List α}, Run step s tr s₁ → R s r →
      List.Forall₂ (fun t a => same t.label a) (kept keep tr) as →
      ∃ tr' r₁, Run step' r tr' r₁ ∧ tr'.map (fun t => input t.label) = as := by
  intro tr
  induction tr with
  | nil =>
      intro s r as _ _ has
      obtain rfl := List.forall₂_nil_left_iff.1 has
      exact ⟨[], r, .refl, rfl⟩
  | cons t tr ih =>
      intro s r as hrun hr has
      obtain ⟨rfl, hstep, hrest⟩ := hrun.uncons
      by_cases hk : keep t.label
      · rw [kept_cons_of_pos hk] at has
        obtain ⟨a, as, ha, hrests, rfl⟩ := List.forall₂_cons_left_iff.1 has
        obtain ⟨l', r', hstep', rfl, hr'⟩ := hkeep _ _ _ _ _ hr hstep hk ha
        obtain ⟨tr', r₁, hrun', rfl⟩ := ih hrest hr' hrests
        exact ⟨_, r₁, (Run.single hstep').trans hrun', rfl⟩
      · rw [kept_cons_of_neg hk] at has
        exact ih hrest (hskip _ _ _ _ hr hstep hk) has

variable (keep same) in
/-- **The purged run agrees**: it ends in the same view and its observations are those of the steps
    that were kept. -/
theorem Run.purged_agrees (hskip : ∀ s l s' r, R s r → step s l s' → ¬ keep l → R s' r)
    (hkeep : ∀ s l s' r l' r', R s r → step s l s' → keep l → step' r l' r' →
      same l (input l') → R s' r' ∧ obs' l' = obs l) :
    ∀ {tr : List (Transition σ ℓ)} {s : σ} {r : τ} {tr' : List (Transition τ κ)}, Run step s tr s₁ →
      R s r → Run step' r tr' r₁ →
      List.Forall₂ (fun t t' => same t.label (input t'.label)) (kept keep tr) tr' →
      R s₁ r₁ ∧ tr'.map (fun t => obs' t.label) = (kept keep tr).map fun t => obs t.label := by
  intro tr
  induction tr with
  | nil =>
      intro s r tr' hrun hr hrun' has
      obtain rfl := List.forall₂_nil_left_iff.1 has
      obtain rfl := hrun.eq_of_nil
      obtain rfl := hrun'.eq_of_nil
      exact ⟨hr, rfl⟩
  | cons t tr ih =>
      intro s r tr' hrun hr hrun' has
      obtain ⟨rfl, hstep, hrest⟩ := hrun.uncons
      by_cases hk : keep t.label
      · rw [kept_cons_of_pos hk] at has ⊢
        obtain ⟨t', tr', ht, hrests, rfl⟩ := List.forall₂_cons_left_iff.1 has
        obtain ⟨rfl, hstep', hrest'⟩ := hrun'.uncons
        obtain ⟨hr', hobs⟩ := hkeep _ _ _ _ _ _ hr hstep hk hstep' ht
        obtain ⟨hlast, hobss⟩ := ih hrest hr' hrest' hrests
        exact ⟨hlast, by rw [List.map_cons, List.map_cons, hobs, hobss]⟩
      · rw [kept_cons_of_neg hk] at has ⊢
        exact ih hrest (hskip _ _ _ _ hr hstep hk) hrun' has

/-! ### Lockstep

Every step is kept. -/

theorem kept_true (tr : List (Transition σ ℓ)) : kept (fun _ => True) tr = tr :=
  List.filter_eq_self.2 fun _ _ => decide_eq_true trivial

variable (R same) in
/-- **The second run exists**: it can take each step on the copy of its input. -/
theorem Run.exists_lockstep (hstep : ∀ s l s' r a, R s r → step s l s' → same l a →
      ∃ l' r', step' r l' r' ∧ input l' = a ∧ R s' r')
    (h : Run step s tr s₁) {r : τ} (hr : R s r) {as : List α}
    (has : List.Forall₂ (fun t a => same t.label a) tr as) :
    ∃ tr' r₁, Run step' r tr' r₁ ∧ tr'.map (fun t => input t.label) = as := by
  refine Run.exists_purged (fun _ => True) same (fun _ _ _ _ _ _ hno => absurd trivial hno) ?_ h hr ?_
  · intro s l s' r a hr hst _ ha
    exact hstep s l s' r a hr hst ha
  · rw [kept_true]
    exact has

variable (R same obs obs') in
/-- **The two runs agree** in their last states and in all observations. -/
theorem Run.lockstep_agrees (hstep : ∀ s l s' r l' r', R s r → step s l s' → step' r l' r' →
      same l (input l') → R s' r' ∧ obs' l' = obs l)
    (h : Run step s tr s₁) {r : τ} (hr : R s r) (h' : Run step' r tr' r₁)
    (has : List.Forall₂ (fun t t' => same t.label (input t'.label)) tr tr') :
    R s₁ r₁ ∧ tr'.map (fun t => obs' t.label) = tr.map fun t => obs t.label := by
  rw [← kept_true tr] at has ⊢
  refine Run.purged_agrees (fun _ => True) same (fun _ _ _ _ _ _ hno => absurd trivial hno) ?_ h hr
    h' has
  intro s l s' r l' r' hr hst _ hst' ha
  exact hstep s l s' r l' r' hr hst hst' ha

end Purge

namespace Reachable

variable {init : σ}

theorem refl : Reachable step init init := ⟨[], .refl⟩

theorem snoc {l : ℓ} (h : Reachable step init s) (hst : step s l s₁) : Reachable step init s₁ := by
  obtain ⟨tr, hrun⟩ := h
  exact ⟨_, hrun.snoc hst⟩

theorem run (h : Reachable step init s) (hrun : Run step s tr s₁) : Reachable step init s₁ := by
  obtain ⟨tr₀, hrun₀⟩ := h
  exact ⟨_, hrun₀.trans hrun⟩

/-- **Invariant rule for reachable states**, where the state before the step is one of them. -/
theorem invariant {I : σ → Prop}
    (hstep : ∀ s l s', Reachable step init s → I s → step s l s' → I s') (hinit : I init)
    (h : Reachable step init s) : I s := by
  obtain ⟨_, hrun⟩ := h
  have hboth : Reachable step init s ∧ I s := by
    refine hrun.invariant (I := fun s => Reachable step init s ∧ I s) ?_ ⟨.refl, hinit⟩
    rintro s l s' ⟨hs, hI⟩ hst
    exact ⟨hs.snoc hst, hstep s l s' hs hI hst⟩
  exact hboth.2

theorem mono (hle : ∀ s l s', step s l s' → step' s l s') (h : Reachable step init s) :
    Reachable step' init s := by
  obtain ⟨tr, hrun⟩ := h
  exact ⟨tr, hrun.mono hle⟩

end Reachable

end LTS
