import Kayles.Lib.Fallible
import Mathlib.Data.List.Nodup
import Mathlib.Data.List.Perm.Basic

set_option autoImplicit false

/-! # Loops that set each key at most once

A reader of settings goes through a list of them in turn: a setting is refused if its key has been
set before or if the setting is not valid, and else it is entered into the state. If entries under
different keys commute, the order of the list does not matter. -/

namespace OncePerKey

variable {α κ σ ε : Type}

/-- What the reader does with one setting. -/
structure Reader (α κ σ ε : Type) where
  step : σ → α → Except ε σ
  key : α → κ
  Seen : σ → κ → Prop
  Valid : α → Prop
  set : σ → α → σ
  step_eq_ok_iff : ∀ s a s', step s a = .ok s' ↔ ¬ Seen s (key a) ∧ Valid a ∧ s' = set s a
  seen_set : ∀ s a k, Valid a → (Seen (set s a) k ↔ k = key a ∨ Seen s k)
  set_comm : ∀ s a b, key a ≠ key b → set (set s a) b = set (set s b) a

variable (r : Reader α κ σ ε) {l l' : List α} {s s' : σ}

/-- **Acceptance**: the loop returns if all settings are valid, no two have the same key, and no key
has been set before. -/
theorem foldlM_eq_ok_iff : l.foldlM r.step s = .ok s' ↔
    (∀ a ∈ l, r.Valid a ∧ ¬ r.Seen s (r.key a)) ∧ (l.map r.key).Nodup ∧ s' = l.foldl r.set s := by
  induction l generalizing s with
  | nil => simp [pure, Except.pure, eq_comm]
  | cons a l ih =>
      rw [List.foldlM_cons, Fallible.bind_eq_ok_iff, List.forall_mem_cons, List.map_cons,
        List.nodup_cons, List.foldl_cons]
      constructor
      · intro h
        obtain ⟨s₁, hs₁, hrest⟩ := h
        obtain ⟨hseen, hvalid, rfl⟩ := (r.step_eq_ok_iff s a s₁).1 hs₁
        obtain ⟨hall, hnodup, rfl⟩ := ih.1 hrest
        have hnot : ∀ b ∈ l, r.key b ≠ r.key a ∧ ¬ r.Seen s (r.key b) := by
          intro b hb
          have hb' := (hall b hb).2
          rwa [r.seen_set s a _ hvalid, not_or] at hb'
        refine ⟨⟨⟨hvalid, hseen⟩, fun b hb => ⟨(hall b hb).1, (hnot b hb).2⟩⟩, ⟨?_, hnodup⟩, rfl⟩
        intro hmem
        obtain ⟨b, hb, hkey⟩ := List.mem_map.1 hmem
        exact (hnot b hb).1 hkey
      · intro h
        obtain ⟨⟨⟨hvalid, hseen⟩, hall⟩, ⟨hkey, hnodup⟩, rfl⟩ := h
        refine ⟨r.set s a, (r.step_eq_ok_iff s a _).2 ⟨hseen, hvalid, rfl⟩, ih.2 ⟨?_, hnodup, rfl⟩⟩
        intro b hb
        refine ⟨(hall b hb).1, ?_⟩
        rw [r.seen_set s a _ hvalid, not_or]
        exact ⟨fun h => hkey (h ▸ List.mem_map_of_mem hb), (hall b hb).2⟩

/-- The keys that are set after a loop over valid settings. -/
theorem seen_foldl {k : κ} (hvalid : ∀ a ∈ l, r.Valid a) :
    r.Seen (l.foldl r.set s) k ↔ k ∈ l.map r.key ∨ r.Seen s k := by
  induction l generalizing s with
  | nil => simp
  | cons a l ih =>
      obtain ⟨ha, hl⟩ := List.forall_mem_cons.1 hvalid
      rw [List.foldl_cons, ih hl, r.seen_set s a k ha, List.map_cons, List.mem_cons]
      tauto

/-- **Order does not matter** for the state that settings under different keys lead to. -/
theorem foldl_perm (h : l.Perm l') (hnodup : (l.map r.key).Nodup) :
    l.foldl r.set s = l'.foldl r.set s := by
  refine h.foldl_eq' (fun a ha b hb t => ?_) s
  by_cases hkey : r.key a = r.key b
  · rw [List.inj_on_of_nodup_map hnodup ha hb hkey]
  · exact r.set_comm t a b hkey

theorem foldlM_eq_ok_perm (h : l.Perm l') :
    l.foldlM r.step s = .ok s' ↔ l'.foldlM r.step s = .ok s' := by
  have hmap := h.map r.key
  rw [foldlM_eq_ok_iff, foldlM_eq_ok_iff, hmap.nodup_iff]
  constructor
  · intro h
    obtain ⟨hall, hnodup, rfl⟩ := h
    exact ⟨fun a ha => hall a (h.mem_iff.2 ha), hnodup, foldl_perm r h (hmap.nodup_iff.2 hnodup)⟩
  · intro h
    obtain ⟨hall, hnodup, rfl⟩ := h
    exact ⟨fun a ha => hall a (h.mem_iff.1 ha), hnodup,
      (foldl_perm r h (hmap.nodup_iff.2 hnodup)).symm⟩

/-- Any setting may be taken for the last one. -/
theorem exists_foldl_eq_set (hnodup : (l.map r.key).Nodup) {a : α} (ha : a ∈ l) :
    ∃ t, l.foldl r.set s = r.set t a := by
  classical
  have hperm : l.Perm (l.erase a ++ [a]) :=
    (List.perm_cons_erase ha).trans (List.perm_append_singleton a _).symm
  rw [foldl_perm r hperm hnodup, List.foldl_append]
  exact ⟨_, rfl⟩

end OncePerKey
