import Kayles.Lib.Run
import Mathlib.Data.Finset.Card

set_option autoImplicit false

/-! # Stores that are accounted for

A run that keeps a store, each of whose entries is there because of what a transition did to it. If no
transition acts on more than one entry, every entry has a transition of its own that accounts for it,
and there are no more entries than transitions that can. -/

namespace LTS

variable {σ ℓ κ ν : Type*} {accounts accounts' : ℓ → κ → ν → Prop} {tr : List (Transition σ ℓ)}
  {t : Transition σ ℓ} {store store' : κ → Option ν} {k : κ}

/-- Every entry of the store has a transition of its own that accounts for it. -/
def Accounted (accounts : ℓ → κ → ν → Prop) (tr : List (Transition σ ℓ)) (store : κ → Option ν) :
    Prop :=
  ∃ keeper : κ → ℕ,
    (∀ k k' v v', store k = some v → store k' = some v' → keeper k = keeper k' → k = k') ∧
    ∀ k v, store k = some v → ∃ t, tr[keeper k]? = some t ∧ accounts t.label k v

theorem accounted_of_empty (hempty : ∀ k, store k = none) : Accounted accounts tr store := by
  refine ⟨fun _ => 0, ?_, ?_⟩
  · intro k k' v v' hv
    simp [hempty k] at hv
  · intro k v hv
    simp [hempty k] at hv

/-- Entries are removed. -/
theorem Accounted.restrict (h : Accounted accounts tr store)
    (hle : ∀ k v, store' k = some v → store k = some v)
    (hacc : ∀ l k v, store' k = some v → accounts l k v → accounts' l k v) :
    Accounted accounts' tr store' := by
  obtain ⟨keeper, hinj, hkeeps⟩ := h
  refine ⟨keeper, ?_, ?_⟩
  · intro k k' v v' hv hv'
    exact hinj k k' v v' (hle k v hv) (hle k' v' hv')
  · intro k v hv
    obtain ⟨t, ht, hacct⟩ := hkeeps k v (hle k v hv)
    exact ⟨t, ht, hacc t.label k v hv hacct⟩

/-- A transition that acts on no entry. -/
theorem Accounted.idle (h : Accounted accounts tr store) (t : Transition σ ℓ) :
    Accounted accounts (tr ++ [t]) store := by
  obtain ⟨keeper, hinj, hkeeps⟩ := h
  refine ⟨keeper, hinj, fun k v hv => ?_⟩
  obtain ⟨u, hu, hacct⟩ := hkeeps k v hv
  have hlt := (List.getElem?_eq_some_iff.1 hu).1
  exact ⟨u, by rwa [List.getElem?_append_left hlt], hacct⟩

/-- **A transition that acts on one entry** accounts for it from then on. -/
theorem Accounted.snoc [DecidableEq κ] (h : Accounted accounts tr store)
    (hframe : ∀ k' v, k' ≠ k → store' k' = some v → store k' = some v)
    (hk : ∀ v, store' k = some v → accounts t.label k v) : Accounted accounts (tr ++ [t]) store' := by
  obtain ⟨keeper, hinj, hkeeps⟩ := h
  have hold : ∀ k' v, k' ≠ k → store' k' = some v → keeper k' < tr.length := by
    intro k' v hne hv
    obtain ⟨u, hu, -⟩ := hkeeps k' v (hframe k' v hne hv)
    exact (List.getElem?_eq_some_iff.1 hu).1
  refine ⟨Function.update keeper k tr.length, ?_, ?_⟩
  · intro k₁ k₂ v₁ v₂ hv₁ hv₂ heq
    by_cases h₁ : k₁ = k
    · by_cases h₂ : k₂ = k
      · rw [h₁, h₂]
      · have hlt := hold k₂ v₂ h₂ hv₂
        rw [h₁, Function.update_self, Function.update_of_ne h₂] at heq
        omega
    · by_cases h₂ : k₂ = k
      · have hlt := hold k₁ v₁ h₁ hv₁
        rw [h₂, Function.update_self, Function.update_of_ne h₁] at heq
        omega
      · rw [Function.update_of_ne h₁, Function.update_of_ne h₂] at heq
        exact hinj k₁ k₂ v₁ v₂ (hframe k₁ v₁ h₁ hv₁) (hframe k₂ v₂ h₂ hv₂) heq
  · intro k' v hv
    by_cases hne : k' = k
    · subst hne
      exact ⟨t, by rw [Function.update_self, List.getElem?_concat_length], hk v hv⟩
    · obtain ⟨u, hu, hacct⟩ := hkeeps k' v (hframe k' v hne hv)
      have hlt := hold k' v hne hv
      rw [Function.update_of_ne hne, List.getElem?_append_left hlt]
      exact ⟨u, hu, hacct⟩

/-- **There are no more entries** than transitions that can account for one. -/
theorem Accounted.card_le (h : Accounted accounts tr store) {p : ℓ → Prop} [DecidablePred p]
    (hp : ∀ l k v, accounts l k v → p l) {keys : Finset κ}
    (hkeys : ∀ k ∈ keys, ∃ v, store k = some v) :
    keys.card ≤ tr.countP fun t => decide (p t.label) := by
  obtain ⟨keeper, hinj, hkeeps⟩ := h
  rw [← List.length_findIdxs (s := 0)]
  refine Nat.le_trans (Finset.card_le_card_of_injOn keeper (t := (List.findIdxs _ tr).toFinset) ?_ ?_)
    (List.toFinset_card_le _)
  · intro k hk
    obtain ⟨v, hv⟩ := hkeys k hk
    obtain ⟨t, ht, hacct⟩ := hkeeps k v hv
    obtain ⟨hlt, rfl⟩ := List.getElem?_eq_some_iff.1 ht
    rw [Finset.mem_coe, List.mem_toFinset, List.mem_findIdxs_iff_exists_getElem_pos]
    exact ⟨hlt, decide_eq_true (hp _ k v hacct)⟩
  · intro k hk k' hk' heq
    obtain ⟨v, hv⟩ := hkeys k hk
    obtain ⟨v', hv'⟩ := hkeys k' hk'
    exact hinj k k' v v' hv hv' heq

end LTS
