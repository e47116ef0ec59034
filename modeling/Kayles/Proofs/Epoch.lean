import Kayles.Proofs.Wakeups

set_option autoImplicit false

/-! # The epoch of the clock

`get_current_time_ms` counts from an epoch that the platform chooses, and in 64 bits it may even
wrap. As long as no allocation fails, all readings of a run can be shifted by any offset, modulo
2^64, and no player can tell: `clock_epoch_unobservable`. The subtraction of the sweep wraps too,
and nothing else looks at the clock. But the entry that a failed creation leaves has been active at
0, whatever the clock. -/

namespace Kayles

/-- The game with its last activity shifted by `δ`. -/
def GameState.shift (δ : UInt64) (g : GameState) : GameState :=
  { g with lastActivity := g.lastActivity + δ }

/-- The second state is the first one on a clock that is ahead by `δ`. -/
structure ServerState.Shifted (δ : UInt64) (s r : ServerState) : Prop where
  nextGameId : r.nextGameId = s.nextGameId
  games : ∀ id, r.activeGames.lookup id = (s.activeGames.lookup id).map (GameState.shift δ)

section Shift

variable {srv : Server} {tmpl g g' : GameState} {now t δ : UInt64} {alloc : Allocation} {d : Datagram}
  {s s' r r' mid mid' : ServerState} {out out' : Output} {id : UInt32} {p : UInt32}
  {pawns : List UInt8}

theorem GameState.moveEnds_shift (h : (g.knock pawns).MoveEnds) : ((g.shift δ).knock pawns).MoveEnds :=
  h

/-- The test of the sweep does not see the shift. -/
theorem GameState.expired_shift {timeoutMs : UInt64} :
    (g.shift δ).Expired (t + δ) timeoutMs ↔ g.Expired t timeoutMs := by
  show t + δ - (g.lastActivity + δ) > timeoutMs ↔ t - g.lastActivity > timeoutMs
  have hsub : t + δ - (g.lastActivity + δ) = t - g.lastActivity := by grind
  rw [hsub]

namespace ServerState.Shifted

theorem lookup (h : s.Shifted δ r) (hg : s.activeGames.lookup id = some g) :
    r.activeGames.lookup id = some (g.shift δ) := by
  rw [h.games, hg]
  rfl

theorem exists_lookup (h : s.Shifted δ r) (hg' : r.activeGames.lookup id = some g') :
    ∃ g, s.activeGames.lookup id = some g ∧ g' = g.shift δ := by
  rw [h.games, Option.map_eq_some_iff] at hg'
  obtain ⟨g, hg, rfl⟩ := hg'
  exact ⟨g, hg, rfl⟩

theorem mem_iff (h : s.Shifted δ r) : id ∈ r.activeGames ↔ id ∈ s.activeGames := by
  rw [Finmap.mem_iff, Finmap.mem_iff]
  constructor
  · rintro ⟨g', hg'⟩
    obtain ⟨g, hg, -⟩ := h.exists_lookup hg'
    exact ⟨g, hg⟩
  · rintro ⟨g, hg⟩
    exact ⟨_, h.lookup hg⟩

/-- The shift of a state is one state. -/
theorem unique (h : s.Shifted δ r) (h' : s.Shifted δ r') : r' = r := by
  obtain ⟨games, next⟩ := r
  obtain ⟨games', next'⟩ := r'
  obtain rfl : next' = next := h'.nextGameId.trans h.nextGameId.symm
  obtain rfl : games' = games := Finmap.ext_lookup fun id => (h'.games id).trans (h.games id).symm
  rfl

theorem initial (δ : UInt64) : ServerState.initial.Shifted δ .initial := ⟨rfl, fun _ => rfl⟩

theorem insert (h : s.Shifted δ r) (id : UInt32) (g : GameState) (next : UInt32) :
    ServerState.Shifted δ ⟨s.activeGames.insert id g, next⟩
      ⟨r.activeGames.insert id (g.shift δ), next⟩ := by
  refine ⟨rfl, fun k => ?_⟩
  by_cases hk : k = id
  · subst hk
    simp only [Finmap.lookup_insert, Option.map_some]
  · simp only [Finmap.lookup_insert_of_ne _ hk]
    exact h.games k

theorem noneWaiting (h : s.Shifted δ r) (hw : s.NoneWaiting) : r.NoneWaiting := by
  intro id g' hg'
  obtain ⟨g, hg, rfl⟩ := h.exists_lookup hg'
  exact hw id g hg

theorem lookupFails (h : s.Shifted δ r) (hs : s.LookupFails d) : r.LookupFails d := by
  intro g' hg'
  obtain ⟨g, hg, rfl⟩ := h.exists_lookup hg'
  exact hs g hg

theorem hasRoom_iff (h : s.Shifted δ r) : r.HasRoom ↔ s.HasRoom := by
  have hkeys : r.activeGames.keys = s.activeGames.keys :=
    Finset.ext fun id => by rw [Finmap.mem_keys, Finmap.mem_keys, h.mem_iff]
  rw [ServerState.HasRoom, ServerState.HasRoom, hkeys]

theorem freeId (h : s.Shifted δ r) (hid : s.FreeId id) : r.FreeId id := by
  have hturn : findFreeIdTurn r.activeGames = findFreeIdTurn s.activeGames := by
    funext k
    rw [findFreeIdTurn_eq, findFreeIdTurn_eq]
    exact congrArg Except.ok (if_congr h.mem_iff rfl rfl)
  obtain ⟨fuel, hfree⟩ := hid
  refine ⟨fuel, ?_⟩
  rw [findFreeId, hturn, h.nextGameId]
  exact hfree

end ServerState.Shifted

/-- **A handling** on the shifted clock is the handling, shifted, with the same output. -/
theorem Handling.shifted (h : Handling tmpl now alloc d s s' out) (halloc : alloc.Succeeds)
    (hr : s.Shifted δ r) :
    ∃ r', Handling tmpl (now + δ) alloc d r r' out ∧ s'.Shifted δ r' := by
  cases h with
  | malformed hwf => exact ⟨r, .malformed hwf, hr⟩
  | notFound hwf ht hs =>
      have hindex : r.lookupErrorIndex d = s.lookupErrorIndex d := if_congr hr.mem_iff rfl rfl
      rw [← hindex]
      exact ⟨r, .notFound hwf ht (hr.lookupFails hs), hr⟩
  | seated id g hj hg hw =>
      rw [← hr.nextGameId]
      exact ⟨_, .seated id (g.shift δ) hj (hr.lookup hg) hw, hr.insert id _ _⟩
  | full hj hw hfull => exact ⟨r, .full hj (hr.noneWaiting hw) (mt hr.hasRoom_iff.1 hfull), hr⟩
  | unallocated _ _ _ _ _ hfail => simp [halloc.1, halloc.2.1] at hfail
  | unfinished _ _ _ _ _ hfail => simp [halloc.2.2] at hfail
  | created id hj hw hroom hid halloc =>
      exact ⟨_, .created id hj (hr.noneWaiting hw) (hr.hasRoom_iff.2 hroom) (hr.freeId hid) halloc,
        hr.insert id _ _⟩
  | refused g hmsg hg hreg hno =>
      exact ⟨r, .refused (g.shift δ) hmsg (hr.lookup hg) hreg hno, hr⟩
  | moved g hmove hg hturn hlegal hends =>
      rw [← hr.nextGameId]
      exact ⟨_, .moved (g.shift δ) hmove (hr.lookup hg) hturn hlegal (GameState.moveEnds_shift hends),
        hr.insert _ _ _⟩
  | gaveUp g hgive hg hturn =>
      rw [← hr.nextGameId]
      exact ⟨_, .gaveUp (g.shift δ) hgive (hr.lookup hg) hturn, hr.insert _ _ _⟩
  | keptAlive g hkeep hg hreg =>
      rw [← hr.nextGameId]
      exact ⟨_, .keptAlive (g.shift δ) hkeep (hr.lookup hg) hreg, hr.insert _ _ _⟩

/-- **A sweep** on the shifted clock. -/
theorem ServerState.Shifted.sweeps (h : s.Shifted δ r) (hsweep : Sweeps srv t s mid out)
    (hsweep' : Sweeps srv (t + δ) r mid' out') : mid.Shifted δ mid' := by
  refine ⟨?_, fun id => ?_⟩
  · rw [hsweep'.nextGameId, hsweep.nextGameId, h.nextGameId]
  · rw [hsweep'.lookup, hsweep.lookup, h.games]
    cases s.activeGames.lookup id with
    | none => rfl
    | some g =>
        simp only [Option.map_some, Option.filter_some, GameState.expired_shift]
        split <;> rfl

/-- A turn receives the same on a clock that is ahead by `δ`. -/
inductive Received.Shifted (δ : UInt64) : Received → Received → Prop
  | timedOut (sweptAt : UInt64) : Received.Shifted δ (.timedOut sweptAt) (.timedOut (sweptAt + δ))
  | arrived {a a' : Arrival} (hswept : a'.sweptAt = a.sweptAt + δ)
      (hhandled : a'.handledAt = a.handledAt + δ) (hd : a.d.SameBytes a'.d) :
      Received.Shifted δ (.arrived a) (.arrived a')

variable {l l' : Round} {input : Received}

/-- **A turn on the shifted clock** gives the same answer. -/
theorem CompletedLoopStep.shifted (hreach : ReachableCompleted srv r) (hr : s.Shifted δ r)
    (hstep : CompletedLoopStep srv s l s') (hstep' : CompletedLoopStep srv r l' r')
    (hinput : l.received.Shifted δ l'.received) : s'.Shifted δ r' ∧ l'.answer = l.answer := by
  obtain ⟨received, swept, answered⟩ := l
  obtain ⟨received', swept', answered'⟩ := l'
  obtain ⟨mid, hsweep, hrest⟩ := hstep
  obtain ⟨mid', hsweep', hrest'⟩ := hstep'
  have hstep' : CompletedStep srv r ⟨.sweep received'.sweptAt, swept'⟩ mid' := ⟨trivial, hsweep'⟩
  have hmid' : ReachableCompleted srv mid' := hreach.snoc hstep'
  cases hinput with
  | timedOut sweptAt =>
      obtain ⟨rfl, -⟩ := hrest
      obtain ⟨rfl, -⟩ := hrest'
      exact ⟨hr.sweeps hsweep hsweep', rfl⟩
  | @arrived a a' hswept hhandled hd =>
      obtain ⟨alloc, halloc, hhandles⟩ := hrest
      obtain ⟨alloc', halloc', hhandles'⟩ := hrest'
      change Sweeps srv a'.sweptAt r mid' swept' at hsweep'
      change Handles srv a'.handledAt alloc' a'.d mid' r' answered' at hhandles'
      rw [hswept] at hsweep'
      rw [hhandled] at hhandles'
      obtain ⟨r₁, hshifted, hr₁⟩ := hhandles.handling.shifted halloc (hr.sweeps hsweep hsweep')
      obtain ⟨rfl, rfl⟩ := Handles.unique hmid'.oneWaiting halloc halloc' hd
        (hmid'.handles hshifted) hhandles'
      exact ⟨hr₁, rfl⟩

/-- The turn can be taken on the shifted clock. -/
theorem CompletedLoopStep.exists_shifted (hreach : ReachableCompleted srv r) (hr : s.Shifted δ r)
    (hstep : CompletedLoopStep srv s l s') (hinput : l.received.Shifted δ input) :
    ∃ l' r', CompletedLoopStep srv r l' r' ∧ l'.received = input := by
  obtain ⟨received, swept, answered⟩ := l
  obtain ⟨mid, hsweep, hrest⟩ := hstep
  obtain ⟨mid', swept', hsweep'⟩ := exists_sweeps srv input.sweptAt r
  have hstep' : CompletedStep srv r ⟨.sweep input.sweptAt, swept'⟩ mid' := ⟨trivial, hsweep'⟩
  have hmid' : ReachableCompleted srv mid' := hreach.snoc hstep'
  cases hinput with
  | timedOut sweptAt => exact ⟨⟨_, swept', {}⟩, mid', ⟨mid', hsweep', rfl, rfl⟩, rfl⟩
  | @arrived a a' hswept hhandled hd =>
      obtain ⟨alloc, halloc, hhandles⟩ := hrest
      have hsweep'' : Sweeps srv (a.sweptAt + δ) r mid' swept' := hswept ▸ hsweep'
      obtain ⟨r₁, hshifted, -⟩ := hhandles.handling.shifted halloc (hr.sweeps hsweep hsweep'')
      have hcopy := Handles.of_copy hd.symm (hmid'.handles hshifted)
      rw [← hhandled] at hcopy
      exact ⟨⟨.arrived a', swept', answered⟩, r₁, ⟨mid', hsweep', alloc, halloc, hcopy⟩, rfl⟩

end Shift

/-- **The epoch of the clock is not observable.** Shift the readings of a run in which no allocation
    fails by any offset: the run can be taken again with the shifted readings, and every such run
    with them gives each datagram the same answer and ends with the same games, shifted. -/
theorem clock_epoch_unobservable (srv : Server) (δ : UInt64)
    {tr : List (LTS.Transition ServerState Round)} {s : ServerState}
    (hrun : LTS.Run (CompletedLoopStep srv) .initial tr s) {ins : List Received}
    (hins : List.Forall₂ (Received.Shifted δ) (inputs tr) ins) :
    (∃ tr' s', LTS.Run (CompletedLoopStep srv) .initial tr' s' ∧ inputs tr' = ins) ∧
    ∀ tr' s', LTS.Run (CompletedLoopStep srv) .initial tr' s' → inputs tr' = ins →
      answers tr' = answers tr ∧ s.Shifted δ s' := by
  have hstart : ReachableCompleted srv .initial ∧ ServerState.initial.Shifted δ .initial :=
    ⟨LTS.Reachable.refl, .initial δ⟩
  have hsame := List.forall₂_map_left_iff.1 hins
  constructor
  · refine LTS.Run.exists_lockstep (fun s r => ReachableCompleted srv r ∧ s.Shifted δ r)
      (fun l : Round => Received.Shifted δ l.received) ?_ hrun hstart hsame
    rintro s l s' r input ⟨hreach, hr⟩ hstep hinput
    obtain ⟨l', r', hstep', rfl⟩ := hstep.exists_shifted hreach hr hinput
    exact ⟨l', r', hstep', rfl, hstep'.reachable hreach, (hstep.shifted hreach hr hstep' hinput).1⟩
  · rintro tr' s' hrun' rfl
    have hcopies := List.forall₂_map_right_iff.1 hsame
    have hagree := LTS.Run.lockstep_agrees (fun s r => ReachableCompleted srv r ∧ s.Shifted δ r)
      (fun l : Round => Received.Shifted δ l.received) Round.answer Round.answer ?_ hrun hstart hrun'
      hcopies
    · obtain ⟨⟨-, hlast⟩, hanswers⟩ := hagree
      refine ⟨?_, hlast⟩
      rw [answers, answers, List.flatMap_def, List.flatMap_def, hanswers]
    · rintro s l s' r l' r' ⟨hreach, hr⟩ hstep hstep' hinput
      obtain ⟨hr', hanswer⟩ := hstep.shifted hreach hr hstep' hinput
      exact ⟨⟨hstep'.reachable hreach, hr'⟩, hanswer⟩

/-- Player 7 joins at the reading 5, and again on a clock behind by 6, at the last reading before it
    wraps. -/
theorem clock_epoch_unobservable_join : ∃ tr tr' s',
    LTS.Run (CompletedLoopStep threePawns) .initial tr (opened threePawns 7 5) ∧
    LTS.Run (CompletedLoopStep threePawns) .initial tr' s' ∧
    inputs tr' = [.arrived ⟨-1, -1, .join 7⟩] ∧ answers tr' = answers tr ∧
    (opened threePawns 7 5).Shifted (-6) s' := by
  obtain ⟨out, hturn⟩ := exists_turn_opened threePawns (show (7 : UInt32) ≠ 0 by decide) 5
  have hrun := LTS.Run.single hturn
  have hins : List.Forall₂ (Received.Shifted (-6)) [.arrived ⟨5, 5, .join 7⟩]
      [.arrived ⟨-1, -1, .join 7⟩] := .cons (.arrived rfl rfl ⟨rfl, rfl⟩) .nil
  obtain ⟨⟨tr', s', hrun', hinputs⟩, hagree⟩ := clock_epoch_unobservable threePawns (-6) hrun hins
  obtain ⟨hanswers, hshifted⟩ := hagree tr' s' hrun' hinputs
  exact ⟨_, tr', s', hrun, hrun', hinputs, hanswers, hshifted⟩

end Kayles
