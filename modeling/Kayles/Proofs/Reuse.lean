import Kayles.Proofs.Creation

set_option autoImplicit false

/-! # Ids that are given again

The counter of game ids wraps, so an id may be given to a second game, and a message that was meant
for the first one would then reach it. The counter only passes over ids of active games, so before
an id is given again all the others have been in use: `ids_reused_last`. -/

namespace Kayles

/-- The game `k` was active when a run began, or has been created since. -/
def InUse (s₀ : ServerState) (tr : List Transition) (k : UInt32) : Prop :=
  k ∈ s₀.activeGames ∨ k ∈ creations tr

/-- Since it moved on from `id`, the counter has only passed over ids that have been in use. -/
structure MovedOn (s₀ : ServerState) (id : UInt32) (tr : List Transition) (s : ServerState) : Prop where
  counter : Loop.Passes advanceGameId (InUse s₀ tr) (advanceGameId id) s.nextGameId
  keys : ∀ k ∈ s.activeGames, InUse s₀ tr k

section Counter

variable {srv : Server} {s s' s₀ : ServerState} {l : Label} {id k : UInt32} {t : Transition}
  {tr tr' : List Transition}

/-- The search for an id passes over active games. -/
theorem ServerState.FreeId.passes (h : s.FreeId id) :
    Loop.Passes advanceGameId (fun k => k ∈ s.activeGames) s.nextGameId id := by
  obtain ⟨fuel, hfree⟩ := h
  refine Loop.passes_of_run ?_ ?_ fuel hfree
  · intro k k' hturn
    rw [findFreeIdTurn_eq] at hturn
    split at hturn
    · next hmem => exact ⟨hmem, by simpa using hturn.symm⟩
    · simp at hturn
  · intro k k' hturn
    rw [findFreeIdTurn_eq] at hturn
    split at hturn
    · simp at hturn
    · simpa using hturn.symm

theorem InUse.mono (h : InUse s₀ tr k) (tr' : List Transition) : InUse s₀ (tr ++ tr') k := by
  rw [InUse, creations_append, List.mem_append]
  exact h.imp_right .inl

/-- The step that prints that a game has been created. -/
theorem CompletedStep.of_creates (h : CompletedStep srv s l s') (hc : Creates id ⟨s, l, s'⟩) :
    s.FreeId id ∧ creations [⟨s, l, s'⟩] = [id] ∧ s'.nextGameId = advanceGameId id ∧
      ∀ k ∈ s'.activeGames, k = id ∨ k ∈ s.activeGames := by
  obtain ⟨p, hmem⟩ := hc
  have hid : id ∈ l.output.log.filterMap LogLine.creates := List.mem_filterMap.2 ⟨_, hmem, rfl⟩
  cases h.numbering with
  | other hlog _ _ => simp [hlog] at hid
  | created id' hlog hfree hnext hkeys =>
      rw [hlog, List.mem_singleton] at hid
      subst hid
      exact ⟨hfree, by simp [creations, hlog], hnext, hkeys⟩

/-- **One step** moves the counter only past ids that are in use, and past the one it gives. -/
theorem MovedOn.step (h : MovedOn s₀ id tr s) (hstep : CompletedStep srv s l s') :
    MovedOn s₀ id (tr ++ [⟨s, l, s'⟩]) s' := by
  have hcounter := h.counter.mono fun k hk => hk.mono [⟨s, l, s'⟩]
  have hold : ∀ k ∈ s.activeGames, InUse s₀ (tr ++ [⟨s, l, s'⟩]) k :=
    fun k hk => (h.keys k hk).mono _
  cases hstep.numbering with
  | other _ hnext hkeys =>
      refine ⟨?_, fun k hk => hold k (hkeys k hk)⟩
      rw [hnext]
      exact hcounter
  | created k hlog hfree hnext hkeys =>
      have hnew : InUse s₀ (tr ++ [⟨s, l, s'⟩]) k := by
        refine .inr ?_
        rw [creations_append, List.mem_append]
        exact .inr (by simp [creations, hlog])
      have hpassed : Loop.Passes advanceGameId (InUse s₀ (tr ++ [⟨s, l, s'⟩])) (advanceGameId id) k :=
        hcounter.trans (hfree.passes.mono hold)
      refine ⟨?_, ?_⟩
      · rw [hnext]
        exact hpassed.tail hnew
      · intro k' hk'
        rcases hkeys k' hk' with rfl | hmem
        · exact hnew
        · exact hold k' hmem

/-- A run that begins by creating the game `id`. -/
theorem movedOn_of_run (hstep : CompletedStep srv s₀ l s) (hc : Creates id ⟨s₀, l, s⟩)
    (hrun : LTS.Run (CompletedStep srv) s tr s') : MovedOn s₀ id (⟨s₀, l, s⟩ :: tr) s' := by
  induction hrun with
  | refl =>
      obtain ⟨-, hcreated, hnext, hkeys⟩ := hstep.of_creates hc
      refine ⟨?_, ?_⟩
      · rw [hnext]
        exact .refl
      · intro k hk
        rw [InUse, hcreated, List.mem_singleton]
        exact (hkeys k hk).symm
  | snoc _ hlast ih => exact ih.step hlast

/-- The counter goes through all ids. -/
theorem exists_iterate_advanceGameId (hid : id ≠ 0) (hk : k ≠ 0) : ∃ n, advanceGameId^[n] id = k := by
  have hpos : id.toNat ≠ 0 := fun h => hid (UInt32.toNat_inj.1 h)
  have hkpos : k.toNat ≠ 0 := fun h => hk (UInt32.toNat_inj.1 h)
  have hlt := id.toNat_lt
  have hklt := k.toNat_lt
  refine ⟨k.toNat - 1 + (4294967295 - (id.toNat - 1)), UInt32.toNat_inj.1 ?_⟩
  rw [toNat_iterate_advanceGameId hid]
  show _ % 4294967295 + 1 = _
  omega

/-- A set with all ids has as many elements as there are ids. -/
theorem uint32Max_le_card {ids : Finset UInt32} (h : ∀ k, k ≠ 0 → k ∈ ids) :
    uint32Max.toNat ≤ ids.card := by
  show 4294967295 ≤ _
  rw [← Finset.card_range 4294967295]
  have htoNat : ∀ i ∈ Finset.range 4294967295, (UInt32.ofNat (i + 1)).toNat = i + 1 := by
    intro i hi
    have hlt := Finset.mem_range.1 hi
    exact Nat.mod_eq_of_lt (by omega)
  refine Finset.card_le_card_of_injOn (fun i => UInt32.ofNat (i + 1)) ?_ ?_
  · intro i hi
    refine h _ fun hzero : UInt32.ofNat (i + 1) = 0 => ?_
    have hnat := htoNat i hi
    rw [hzero] at hnat
    exact Nat.succ_ne_zero i hnat.symm
  · intro i hi j hj heq
    have hnat := congrArg UInt32.toNat heq
    rw [htoNat i hi, htoNat j hj] at hnat
    exact Nat.succ.inj hnat

end Counter

/-- **Ids are reused last.** When an id is given to a game for the second time, every other id belongs
to a game that was active at the first time or has been created since; so no fewer than all ids, less
the games active at that time, have been given in between. -/
theorem ids_reused_last (srv : Server) {s₀ s : ServerState} (hs₀ : ReachableCompleted srv s₀)
    {t t' : Transition} {mid : List Transition}
    (hrun : LTS.Run (CompletedStep srv) s₀ (t :: (mid ++ [t'])) s) {id : UInt32} (ht : Creates id t)
    (ht' : Creates id t') :
    (∀ k, k ≠ 0 → k ≠ id → k ∈ s₀.activeGames ∨ k ∈ creations mid) ∧
      uint32Max.toNat ≤ s₀.activeGames.keys.card + (creations mid).length + 1 := by
  obtain ⟨pre, l, post⟩ := t
  obtain ⟨pre', l', post'⟩ := t'
  obtain ⟨rfl, hfirst, hrest⟩ := hrun.uncons
  obtain ⟨hbetween, hlast, -⟩ := hrest.unsnoc
  obtain ⟨hfree, hcreated, -, -⟩ := hfirst.of_creates ht
  have hid : id ≠ 0 := hfree.ne_zero hs₀.reachable.nextGameId_ne
  have hmoved := movedOn_of_run hfirst ht hbetween
  -- the search that gives `id` again has brought the counter back to it
  have hback : Loop.Passes advanceGameId (InUse pre (⟨pre, l, post⟩ :: mid)) (advanceGameId id) id :=
    hmoved.counter.trans ((hlast.of_creates ht').1.passes.mono hmoved.keys)
  have hall : ∀ k, k ≠ 0 → k ≠ id → k ∈ pre.activeGames ∨ k ∈ creations mid := by
    intro k hk hne
    obtain ⟨n, rfl⟩ := exists_iterate_advanceGameId hid hk
    rcases hback.covers n with heq | hold | hnew
    · exact absurd heq hne
    · exact .inl hold
    · rw [← List.singleton_append, creations_append, hcreated, List.mem_append,
        List.mem_singleton] at hnew
      exact .inr (hnew.resolve_left hne)
  refine ⟨hall, ?_⟩
  have hcard :
      uint32Max.toNat ≤ (insert id (pre.activeGames.keys ∪ (creations mid).toFinset)).card := by
    refine uint32Max_le_card fun k hk => ?_
    by_cases hne : k = id
    · simp [hne]
    · simpa [hne, Finmap.mem_keys] using hall k hk hne
  calc uint32Max.toNat
      ≤ (insert id (pre.activeGames.keys ∪ (creations mid).toFinset)).card := hcard
    _ ≤ (pre.activeGames.keys ∪ (creations mid).toFinset).card + 1 := Finset.card_insert_le _ _
    _ ≤ pre.activeGames.keys.card + (creations mid).toFinset.card + 1 :=
        Nat.succ_le_succ (Finset.card_union_le _ _)
    _ ≤ pre.activeGames.keys.card + (creations mid).length + 1 := by
        have hle := List.toFinset_card_le (creations mid)
        omega

/-! ## A counter that wraps -/

/-- The game `id` of `p`, the last one created, waiting for its second player. -/
def waitingAt (srv : Server) (id p : UInt32) : ServerState where
  activeGames := (∅ : ActiveGames).insert id (srv.template.open p 0)
  nextGameId := advanceGameId id

section Rounds

variable {srv : Server} {id p : UInt32} {now : UInt64}

/-- The game is evicted, and `p` joins again. -/
theorem exists_round (hp : p ≠ 0) (hexp : (srv.template.open p 0).Expired now srv.timeoutMs)
    (hs : ReachableCompleted srv (waitingAt srv id p)) :
    ∃ t t', LTS.Run (CompletedStep srv) (waitingAt srv id p) [t, t']
      (waitingAt srv (advanceGameId id) p) ∧ Creates (advanceGameId id) t' := by
  obtain ⟨⟨games, next⟩, out, hsweep⟩ := exists_sweeps srv now (waitingAt srv id p)
  obtain rfl : next = advanceGameId id := hsweep.nextGameId
  have hempty : games = ∅ := by
    refine Finmap.ext_lookup fun k => ?_
    rw [Finmap.lookup_empty]
    refine Option.eq_none_iff_forall_ne_some.2 fun g hg => ?_
    obtain ⟨hlookup, hstays⟩ := hsweep.lookup_eq_some.1 hg
    obtain ⟨-, rfl⟩ := eq_of_lookup_singleton hlookup
    exact hstays hexp
  subst hempty
  have hsweeps : CompletedStep srv (waitingAt srv id p) ⟨.sweep now, out⟩ ⟨∅, advanceGameId id⟩ :=
    ⟨trivial, hsweep.step⟩
  have hemptied : ReachableCompleted srv ⟨∅, advanceGameId id⟩ := hs.snoc hsweeps
  have hnone : (⟨∅, advanceGameId id⟩ : ServerState).NoneWaiting := by
    intro k g hg
    simp at hg
  have hroom : (⟨∅, advanceGameId id⟩ : ServerState).HasRoom := show 0 < uint32Max.toNat - 1 by decide
  have hjoin : Handling srv.template 0 .ok (.join p) ⟨∅, advanceGameId id⟩
      (waitingAt srv (advanceGameId id) p)
      { sent := [gameStateMessage (srv.template.open p 0) (advanceGameId id)],
        log := [.created (advanceGameId id) p] } := by
    have h : Handling srv.template 0 .ok (.join p) ⟨∅, advanceGameId id⟩ _ _ :=
      .created (advanceGameId id) (Datagram.isJoin_join hp) hnone hroom
        (freeId_nextGameId Finmap.notMem_empty) Allocation.ok_succeeds
    rw [Datagram.playerId_join] at h
    exact h
  have hstep := hemptied.step Allocation.ok_succeeds hjoin
  refine ⟨_, _, (LTS.Run.single hsweeps).snoc hstep, p, ?_⟩
  exact List.mem_singleton.2 rfl

/-- So it goes round the ids. -/
theorem exists_rounds (hp : p ≠ 0) (hexp : (srv.template.open p 0).Expired now srv.timeoutMs)
    (hs : ReachableCompleted srv (waitingAt srv id p)) (n : ℕ) :
    ∃ mid t', LTS.Run (CompletedStep srv) (waitingAt srv id p) (mid ++ [t'])
      (waitingAt srv (advanceGameId^[n + 1] id) p) ∧ Creates (advanceGameId^[n + 1] id) t' := by
  induction n with
  | zero =>
      obtain ⟨t, t', hrun, hc⟩ := exists_round hp hexp hs
      exact ⟨[t], t', hrun, hc⟩
  | succ n ih =>
      obtain ⟨mid, t, hrun, -⟩ := ih
      obtain ⟨t₁, t', hround, hc⟩ := exists_round hp hexp (hs.run hrun)
      rw [Function.iterate_succ_apply']
      refine ⟨mid ++ [t] ++ [t₁], t', ?_, hc⟩
      rw [List.append_assoc]
      exact hrun.trans hround

end Rounds

/-- Player 7 joins again and again, each time after the eviction of its last game, until it is given
    the game 1 for the second time. -/
theorem ids_reused_last_rounds : ∃ mid t t' s,
    LTS.Run (CompletedStep threePawns) .initial (t :: (mid ++ [t'])) s ∧ Creates 1 t ∧ Creates 1 t' ∧
    (∀ k, k ≠ 0 → k ≠ 1 → k ∈ ServerState.initial.activeGames ∨ k ∈ creations mid) := by
  have hp : (7 : UInt32) ≠ 0 := by decide
  have hinit : ReachableCompleted threePawns .initial := LTS.Reachable.refl
  have hfirst := hinit.step Allocation.ok_succeeds (handling_opened threePawns hp 0)
  have hs : ReachableCompleted threePawns (waitingAt threePawns 1 7) := hinit.snoc hfirst
  obtain ⟨n, hn⟩ : ∃ n, n + 1 = uint32Max.toNat := ⟨4294967294, by decide⟩
  have hwraps : advanceGameId^[n + 1] 1 = 1 := by
    refine UInt32.toNat_inj.1 ?_
    rw [toNat_iterate_advanceGameId (by decide), hn]
    decide
  have hexp : (threePawns.template.open 7 0).Expired 1001 threePawns.timeoutMs := by decide
  obtain ⟨mid, t', hrun, hc⟩ := exists_rounds hp hexp hs n
  rw [hwraps] at hrun hc
  have hall := (LTS.Run.single hfirst).trans hrun
  refine ⟨mid, _, t', _, hall, ?hfirst, hc, (ids_reused_last threePawns hinit hall ?hfirst hc).1⟩
  exact ⟨7, List.mem_singleton.2 rfl⟩

end Kayles
