import Kayles.Proofs.Buffer
import Kayles.Proofs.KeepAlive
import Kayles.Proofs.Programs

set_option autoImplicit false

/-! # Idle turns

`recvfrom` gives up after a timeout, so that the loop sweeps also when nothing arrives. How often it
does is left to the system. A sweep in an idle turn evicts games sooner than the sweep before the
next datagram would, but as long as no allocation fails no player can tell:
`idle_turns_unobservable`. What carries the proof is that a handling that returns has one result
(`Handles.unique`), whatever the order of the hash map, the turns of its loops and the bytes behind
the datagram. -/

namespace Kayles

/-! ## The result of a handling -/

section Unique

variable {srv : Server} {now : UInt64} {alloc alloc' : Allocation} {d d' : Datagram}
  {s s₁ s₂ : ServerState} {out₁ out₂ : Output} {env env' : Env} {g : GameState}

theorem Allocation.Succeeds.eq (h : alloc.Succeeds) : alloc = .ok := by
  obtain ⟨templateCopy, mapNode, rowCopy⟩ := alloc
  obtain ⟨rfl, rfl, rfl⟩ := h
  rfl

/-- A move is carried out or not, and leaves one game. -/
theorem makeMove_unique {pawns : List UInt8} {p : UInt32} {a a' : Option GameState}
    (h : makeMove env pawns p g = .ok a) (h' : makeMove env' pawns p g = .ok a')
    (hnow : env'.now = env.now) : a' = a := by
  cases a with
  | none =>
      cases a' with
      | none => rfl
      | some _ =>
          obtain ⟨hturn, hlegal, -⟩ := makeMove_eq_some h'
          exact absurd ⟨hturn, hlegal⟩ (makeMove_eq_none h)
  | some _ =>
      obtain ⟨hturn, hlegal, -, rfl⟩ := makeMove_eq_some h
      cases a' with
      | none => exact absurd ⟨hturn, hlegal⟩ (makeMove_eq_none h')
      | some _ =>
          obtain ⟨-, -, -, rfl⟩ := makeMove_eq_some h'
          rw [hnow]

theorem gameAction_unique {a a' : Option GameState} (h : gameAction env d g = .ok a)
    (h' : gameAction env' d g = .ok a') (hnow : env'.now = env.now) : a' = a := by
  unfold gameAction at h h'
  by_cases hmove : d.msgType = 1 ∨ d.msgType = 2
  · rw [if_pos hmove] at h h'
    exact makeMove_unique h h' hnow
  · rw [if_neg hmove] at h h'
    rw [hnow, h] at h'
    exact (Except.ok.inj h').symm

theorem handleNamed_unique {r r' : ServerState × Output}
    (h : handleNamed d s (gameAction env d) = .ok r)
    (h' : handleNamed d s (gameAction env' d) = .ok r') (hnow : env'.now = env.now) : r' = r := by
  by_cases hfails : s.LookupFails d
  · rw [handleNamed_of_fails hfails] at h h'
    exact (Except.ok.inj h').symm.trans (Except.ok.inj h)
  · obtain ⟨g, hg, hreg⟩ := exists_of_not_lookupFails hfails
    rw [handleNamed_of_lookup hg hreg] at h h'
    obtain ⟨a, ha, rfl⟩ := Fallible.map_eq_ok_iff.1 h
    obtain ⟨a', ha', rfl⟩ := Fallible.map_eq_ok_iff.1 h'
    rw [gameAction_unique ha ha' hnow]

/-- The id a search finds does not depend on the turns it was given. -/
theorem joinReply_unique {tmpl : GameState} {order : List Entry} {fuel fuel' : ℕ}
    {r r' : ServerState × Output}
    (h : joinReply ⟨now, alloc, order, fuel⟩ tmpl d s = .ok r)
    (h' : joinReply ⟨now, alloc, order, fuel'⟩ tmpl d s = .ok r') : r' = r := by
  unfold joinReply at h h'
  cases hfind : findWaitingGame order with
  | some e =>
      simp only [hfind] at h h'
      exact (Except.ok.inj h').symm.trans (Except.ok.inj h)
  | none =>
      simp only [hfind] at h h'
      by_cases hfull : s.activeGames.keys.card ≥ uint32Max.toNat - 1
      · rw [if_pos hfull] at h h'
        exact (Except.ok.inj h').symm.trans (Except.ok.inj h)
      · rw [if_neg hfull] at h h'
        obtain ⟨id, hid, rfl⟩ := Fallible.map_eq_ok_iff.1 h
        obtain ⟨id', hid', rfl⟩ := Fallible.map_eq_ok_iff.1 h'
        rw [Loop.run_unique hid hid']
        rfl

/-- **A handling that returns has one result**: while at most one game waits and allocations succeed,
    copies of a datagram that are handled at one reading of the clock do the same. -/
theorem Handles.unique (hone : s.OneWaiting) (halloc : alloc.Succeeds) (halloc' : alloc'.Succeeds)
    (hcopy : d.SameBytes d') (h : Handles srv now alloc d s s₁ out₁)
    (h' : Handles srv now alloc' d' s s₂ out₂) : s₂ = s₁ ∧ out₂ = out₁ := by
  obtain ⟨order, fuel, horder, hdecode⟩ := h
  obtain ⟨order', fuel', horder', hdecode'⟩ := h'
  rw [decode_copy hcopy, halloc'.eq] at hdecode'
  rw [halloc.eq] at hdecode
  suffices hboth : (s₂, out₂) = (s₁, out₁) from Prod.mk.inj hboth
  by_cases hwf : d.WellFormed
  · by_cases ht : d.msgType = 0
    · rw [hone.orderIndependent srv ⟨hwf, ht⟩ now .ok fuel' order' order horder' horder,
        decode_of_join _ _ _ ⟨hwf, ht⟩] at hdecode'
      rw [decode_of_join _ _ _ ⟨hwf, ht⟩] at hdecode
      exact joinReply_unique hdecode hdecode'
    · rw [decode_of_named _ _ _ hwf ht] at hdecode hdecode'
      exact handleNamed_unique hdecode hdecode' rfl
  · rw [decode_of_malformed _ _ _ hwf] at hdecode hdecode'
    exact (Except.ok.inj hdecode').symm.trans (Except.ok.inj hdecode)

end Unique

/-! ## The two runs -/

/-- `recvfrom` timed out. -/
def Received.IsTimeout : Received → Prop
  | .timedOut _ => True
  | .arrived _ => False

/-- What a turn answers to its datagram, if it receives one. -/
def Round.answer (l : Round) : List Output :=
  match l.received with
  | .timedOut _ => []
  | .arrived _ => [l.answered]

/-- What the datagrams of a run were answered, in order. -/
def answers (tr : List (LTS.Transition ServerState Round)) : List Output :=
  tr.flatMap fun t => t.label.answer

/-- The second state is the first one without some of the games that have timed out at `t`. -/
structure SweptOf (srv : Server) (t : UInt64) (s r : ServerState) : Prop where
  reachable : ReachableCompleted srv s
  reachable' : ReachableCompleted srv r
  active : s.ActiveBy t
  nextGameId : r.nextGameId = s.nextGameId
  games : ∀ id, r.activeGames.lookup id = s.activeGames.lookup id ∨
    r.activeGames.lookup id = none ∧
      ∃ g, s.activeGames.lookup id = some g ∧ g.Expired t srv.timeoutMs

section Runs

variable {srv : Server} {s s' r r' mid mid' : ServerState} {l l' : Round} {u t : UInt64}
  {out out' : Output}

theorem SweptOf.refl (hs : ReachableCompleted srv s) (hact : s.ActiveBy t) : SweptOf srv t s s :=
  ⟨hs, hs, hact, rfl, fun _ => .inl rfl⟩

/-- A later sweep of the first state makes up for the ones it lacks. -/
theorem SweptOf.sweep_eq (h : SweptOf srv u s r) (hsweep : Sweeps srv u s mid out)
    (hsweep' : Sweeps srv u r mid' out') : mid' = mid := by
  have hgames : mid'.activeGames = mid.activeGames := by
    refine Finmap.ext_lookup fun id => ?_
    rw [hsweep.lookup, hsweep'.lookup]
    rcases h.games id with hsame | ⟨hgone, g, hg, hexp⟩
    · rw [hsame]
    · rw [hgone, hg]
      simp [Option.filter, hexp]
  have hnext : mid'.nextGameId = mid.nextGameId := by
    rw [hsweep.nextGameId, hsweep'.nextGameId, h.nextGameId]
  cases mid
  cases mid'
  simp only at hgames hnext
  rw [hgames, hnext]

/-- A sweep of the second state alone. -/
theorem SweptOf.sweep (h : SweptOf srv u s r) (hle : u ≤ t) (hr : ReachableCompleted srv r')
    (hsweep' : Sweeps srv u r r' out') : SweptOf srv t s r' where
  reachable := h.reachable
  reachable' := hr
  active := h.active.mono hle
  nextGameId := hsweep'.nextGameId.trans h.nextGameId
  games id := by
    have hlate : ∀ g, s.activeGames.lookup id = some g → g.Expired u srv.timeoutMs →
        g.Expired t srv.timeoutMs := fun g hg hexp => hexp.mono (h.active id g hg) hle
    rw [hsweep'.lookup]
    rcases h.games id with hsame | ⟨hgone, g, hg, hexp⟩
    · rw [hsame]
      cases hg : s.activeGames.lookup id with
      | none => exact .inl rfl
      | some g =>
          by_cases hexp : g.Expired u srv.timeoutMs
          · exact .inr ⟨by simp [Option.filter, hexp], g, rfl, hlate g hg hexp⟩
          · exact .inl (by simp [Option.filter, hexp])
    · rw [hgone]
      exact .inr ⟨rfl, g, hg, hlate g hg hexp⟩

/-- **A turn and its copy**, taken when the states differ by what has timed out, leave one state and
    give the same answer. -/
theorem SweptOf.copy (h : ∀ v ∈ l'.readings ++ [t], SweptOf srv v s r)
    (hord : (l'.readings ++ [t]).Pairwise (· ≤ ·)) (hstep : CompletedLoopStep srv s l s')
    (hstep' : CompletedLoopStep srv r l' r') (hcopy : l.received.Copy l'.received) :
    SweptOf srv t s' r' ∧ l'.answer = l.answer := by
  have hs' := hstep.reachable (h t (by simp)).reachable
  have hswept := h _ (List.mem_append_left _ l'.sweptAt_mem)
  obtain ⟨received, swept, answered⟩ := l
  obtain ⟨received', swept', answered'⟩ := l'
  obtain ⟨mid, hsweep, hrest⟩ := hstep
  obtain ⟨mid', hsweep', hrest'⟩ := hstep'
  cases hcopy with
  | timedOut sweptAt =>
      obtain ⟨rfl, -⟩ := hrest
      obtain ⟨rfl, -⟩ := hrest'
      obtain rfl := hswept.sweep_eq hsweep hsweep'
      have hact := hsweep.activeBy (h t (by simp)).active
      exact ⟨.refl hs' hact, rfl⟩
  | @arrived a a' ha =>
      obtain ⟨alloc, halloc, hhandles⟩ := hrest
      obtain ⟨alloc', halloc', hhandles'⟩ := hrest'
      change Sweeps srv a.sweptAt s mid swept at hsweep
      change Sweeps srv a'.sweptAt r mid' swept' at hsweep'
      change Handles srv a.handledAt alloc a.d mid s' answered at hhandles
      rw [← ha.sweptAt] at hsweep
      rw [← ha.handledAt] at hhandles
      obtain rfl := hswept.sweep_eq hsweep hsweep'
      have hstep : CompletedStep srv s ⟨.sweep a'.sweptAt, swept⟩ mid' := ⟨trivial, hsweep⟩
      have hmid : ReachableCompleted srv mid' := hswept.reachable.snoc hstep
      obtain ⟨rfl, rfl⟩ := Handles.unique hmid.oneWaiting halloc halloc' ha.d hhandles hhandles'
      obtain ⟨-, -, hlast⟩ := Arrival.readings_le hord
      have hhandled : s.ActiveBy a'.handledAt :=
        (h a'.handledAt (by simp [Round.readings, Received.readings])).active
      have hact := hhandles.handling.activeBy (hsweep.activeBy hhandled)
      exact ⟨.refl hs' (hact.mono hlast), rfl⟩

/-- **An extra turn** in which nothing arrives. -/
theorem SweptOf.idle (h : ∀ v ∈ l'.readings ++ [t], SweptOf srv v s r)
    (hord : (l'.readings ++ [t]).Pairwise (· ≤ ·)) (hstep' : CompletedLoopStep srv r l' r')
    (hidle : l'.received.IsTimeout) : SweptOf srv t s r' ∧ l'.answer = [] := by
  have hr' := hstep'.reachable (h t (by simp)).reachable'
  have hswept := h _ (List.mem_append_left _ l'.sweptAt_mem)
  obtain ⟨received', swept', answered'⟩ := l'
  obtain ⟨mid', hsweep', hrest'⟩ := hstep'
  cases received' with
  | arrived a => exact hidle.elim
  | timedOut sweptAt =>
      obtain ⟨rfl, -⟩ := hrest'
      have hle : sweptAt ≤ t := by simpa [Round.readings, Received.readings] using hord
      exact ⟨hswept.sweep hle hr' hsweep', rfl⟩

end Runs

/-- **Idle turns are not observable.** After any steps, take a run of the loop and one that receives
    the same, at the same times, and in which `recvfrom` has timed out any number of times more,
    where no allocation fails in either or before them. In clock order every datagram gets the same
    answer in both, and in the end they have the same games, but for those that have timed out and
    wait to be swept. -/
theorem idle_turns_unobservable (srv : Server) {hist : List Transition} {s : ServerState}
    (hhist : LTS.Run (CompletedStep srv) .initial hist s)
    {tr tr' : List (LTS.Transition ServerState Round)} {r r' : ServerState}
    (hrun : LTS.Run (CompletedLoopStep srv) s tr r) (hrun' : LTS.Run (CompletedLoopStep srv) s tr' r')
    (hidle : LTS.Inserts Received.Copy Received.IsTimeout (inputs tr) (inputs tr')) {t : UInt64}
    (hord : (readings hist ++ LTS.readings Round.readings tr' ++ [t]).Pairwise (· ≤ ·)) :
    answers tr' = answers tr ∧ ∀ id g, ¬ g.Expired t srv.timeoutMs →
      (r'.activeGames.lookup id = some g ↔ r.activeGames.lookup id = some g) := by
  have hinit : ∀ v, (readings hist ++ [v]).Pairwise (· ≤ ·) → SweptOf srv v s s := by
    intro v hv
    exact .refl ⟨hist, hhist⟩ (activeBy_of_run (hhist.mono fun _ _ _ hst => hst.2) hv)
  obtain ⟨hswept, hanswers⟩ := LTS.Run.inserts_observe Round.answer Round.answer hinit
    (fun _ _ _ _ _ _ _ h hle hst hst' hcopy => SweptOf.copy h hle hst hst' hcopy)
    (fun _ _ _ _ _ h hle hst' hb => SweptOf.idle h hle hst' hb) hidle hrun hrun' rfl rfl hord
  refine ⟨hanswers, fun id g hkeep => ?_⟩
  rcases hswept.games id with hsame | ⟨hgone, g₀, hg₀, hexp⟩
  · rw [hsame]
  · rw [hgone, hg₀]
    constructor
    · intro h
      exact absurd h (Option.some_ne_none g).symm
    · intro h
      obtain rfl := Option.some.inj h
      exact absurd hexp hkeep

/-- Player 7 joins, in one run right away and in the other after an idle turn. -/
theorem idle_turns_unobservable_join : ∃ tr tr' r r' t,
    LTS.Run (CompletedLoopStep threePawns) .initial tr r ∧
    LTS.Run (CompletedLoopStep threePawns) .initial tr' r' ∧ tr.length = 1 ∧ tr'.length = 2 ∧
    answers tr' = answers tr ∧ ∀ id g, ¬ g.Expired t threePawns.timeoutMs →
      (r'.activeGames.lookup id = some g ↔ r.activeGames.lookup id = some g) := by
  have hidle : CompletedLoopStep threePawns .initial ⟨.timedOut 0, {}, {}⟩ .initial :=
    ⟨.initial, sweeps_initial threePawns 0, rfl, rfl⟩
  obtain ⟨out, hturn⟩ := exists_turn_opened threePawns (show (7 : UInt32) ≠ 0 by decide) 0
  have hrun := LTS.Run.single hturn
  have hrun' := (LTS.Run.single hidle).snoc hturn
  have hcopy : Received.Copy (.arrived ⟨0, 0, .join 7⟩) (.arrived ⟨0, 0, .join 7⟩) :=
    .arrived ⟨rfl, rfl, rfl, rfl⟩
  have hins : LTS.Inserts Received.Copy Received.IsTimeout [.arrived ⟨0, 0, .join 7⟩]
      [.timedOut 0, .arrived ⟨0, 0, .join 7⟩] :=
    LTS.Inserts.copy (LTS.Inserts.insert LTS.Inserts.nil trivial) hcopy
  have hord : (readings [] ++ [0, 0, 0] ++ [(0 : UInt64)]).Pairwise (· ≤ ·) := by decide
  exact ⟨_, _, _, _, 0, hrun, hrun', rfl, rfl,
    idle_turns_unobservable threePawns .refl hrun hrun' hins hord⟩

end Kayles
