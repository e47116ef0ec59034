import Kayles.Lib.Search
import Kayles.Proofs.Matchmaking

set_option autoImplicit false

/-! # Creating games

The branch of `handle_join_game` that creates a game. Its search for an id ends wherever there is
room, at an id that no game has; until the counter wraps, the games of a run are numbered in the
order of their creation. A creation whose last allocation fails leaves an entry behind. -/

namespace Kayles

/-! ## The search for an id -/

section Search

variable {id : UInt32} {s : ServerState}

/-- The ids follow each other in `1..UINT32_MAX`. -/
theorem toNat_advanceGameId (hid : id ≠ 0) :
    (advanceGameId id).toNat = id.toNat % uint32Max.toNat + 1 := by
  have hpos : id.toNat ≠ 0 := fun h => hid (UInt32.toNat_inj.1 h)
  have hlt := id.toNat_lt
  show (advanceGameId id).toNat = id.toNat % 4294967295 + 1
  unfold advanceGameId
  by_cases h : id = uint32Max
  · rw [if_pos h, h]
    decide
  · have hne : id.toNat ≠ 4294967295 := fun hmax => h (UInt32.toNat_inj.1 hmax)
    rw [if_neg h, UInt32.toNat_add, UInt32.toNat_one]
    omega

theorem iterate_advanceGameId_ne_zero (hid : id ≠ 0) (n : ℕ) : advanceGameId^[n] id ≠ 0 := by
  cases n with
  | zero => exact hid
  | succ n =>
      rw [Function.iterate_succ_apply']
      exact advanceGameId_ne_zero _

theorem toNat_iterate_advanceGameId (hid : id ≠ 0) (n : ℕ) :
    (advanceGameId^[n] id).toNat = (id.toNat - 1 + n) % uint32Max.toNat + 1 := by
  have hpos : id.toNat ≠ 0 := fun h => hid (UInt32.toNat_inj.1 h)
  have hlt := id.toNat_lt
  show _ = (id.toNat - 1 + n) % 4294967295 + 1
  induction n with
  | zero =>
      rw [Function.iterate_zero_apply]
      omega
  | succ n ih =>
      rw [Function.iterate_succ_apply', toNat_advanceGameId (iterate_advanceGameId_ne_zero hid n), ih]
      show _ % 4294967295 + 1 = _
      omega

/-- **The search ends** when there is room, and one turn for each id is enough. -/
theorem exists_freeId (hnext : s.nextGameId ≠ 0) (hroom : s.HasRoom) :
    ∃ id, id ∉ s.activeGames ∧
      ∀ fuel, uint32Max.toNat ≤ fuel → findFreeId fuel s.activeGames s.nextGameId = .ok id := by
  have hinj : ∀ i < uint32Max.toNat, ∀ j < uint32Max.toNat,
      advanceGameId^[i] s.nextGameId = advanceGameId^[j] s.nextGameId → i = j := by
    intro i hi j hj heq
    have hnat := congrArg UInt32.toNat heq
    rw [toNat_iterate_advanceGameId hnext, toNat_iterate_advanceGameId hnext] at hnat
    change i < 4294967295 at hi
    change j < 4294967295 at hj
    change _ % 4294967295 + 1 = _ % 4294967295 + 1 at hnat
    omega
  have hcard : s.activeGames.keys.card < uint32Max.toNat := Nat.lt_of_lt_of_le hroom (Nat.sub_le _ _)
  obtain ⟨n, hn, hfree⟩ := Loop.exists_iterate_notMem hinj hcard
  have hsearch : ∃ id, id ∉ s.activeGames ∧ ∀ fuel, n < fuel →
      Loop.run .outOfFuel (findFreeIdTurn s.activeGames) fuel s.nextGameId = .ok id := by
    refine Loop.run_search ?_ ?_ n s.nextGameId fun hmem => hfree (Finmap.mem_keys.2 hmem)
    · intro id hid
      rw [findFreeIdTurn_eq, if_neg hid]
    · intro id hid
      rw [findFreeIdTurn_eq, if_pos (not_not.1 hid)]
  obtain ⟨id, hid, hrun⟩ := hsearch
  exact ⟨id, hid, fun fuel hfuel => hrun fuel (Nat.lt_of_lt_of_le hn hfuel)⟩

/-- A counter that is free is the id. -/
theorem ServerState.FreeId.eq_nextGameId (h : s.FreeId id) (hnext : s.nextGameId ∉ s.activeGames) :
    id = s.nextGameId := by
  obtain ⟨fuel, hfree⟩ := h
  cases fuel with
  | zero => simp [findFreeId, Loop.run] at hfree
  | succ fuel =>
      rw [findFreeId, Loop.run, findFreeIdTurn_eq, if_neg hnext] at hfree
      exact (Except.ok.inj hfree).symm

end Search

/-- A JOIN that reaches the search is handled as the id found and the allocations say. -/
theorem decode_of_search {env : Env} {tmpl : GameState} {s : ServerState} {d : Datagram}
    {id : UInt32} (hj : d.IsJoin) (hw : s.NoneWaiting) (hroom : s.HasRoom)
    (horder : Finmap.IsTraversal env.order s.activeGames)
    (hid : findFreeId env.fuel s.activeGames s.nextGameId = .ok id) :
    decodeAndVerifyMessage env tmpl d.buf d.len s = .ok (createReply env tmpl d s id) := by
  rw [decode_of_join _ _ _ hj, joinReply_of_search hw hroom horder hid]

/-- Whatever a creation does, it does at the id it was given. -/
theorem lookup_createReply (env : Env) (tmpl : GameState) (d : Datagram) {s : ServerState}
    {id k : UInt32} (hne : k ≠ id) :
    (createReply env tmpl d s id).1.activeGames.lookup k = s.activeGames.lookup k := by
  unfold createReply
  split_ifs
  · rfl
  · exact Finmap.lookup_insert_of_ne _ hne
  · exact Finmap.lookup_insert_of_ne _ hne

/-! ## The numbering of a run -/

/-- The creation of a JOIN that reaches the search in `s`: the search ends, at an id that is not 0 and
    that no game has, the handling ends with it, and every game stays as it is. -/
def GetsFreshId (srv : Server) (s : ServerState) (d : Datagram) : Prop :=
  ∃ id bound, id ≠ 0 ∧ id ∉ s.activeGames ∧
    ∀ env, bound ≤ env.fuel → Finmap.IsTraversal env.order s.activeGames →
      findFreeId env.fuel s.activeGames s.nextGameId = .ok id ∧
      ∃ s' out, decodeAndVerifyMessage env srv.template d.buf d.len s = .ok (s', out) ∧
        (∀ k g, s.activeGames.lookup k = some g → s'.activeGames.lookup k = some g) ∧
        (env.alloc.Succeeds → out.log = [.created id d.playerId] ∧
          s'.activeGames.lookup id = some (srv.template.open d.playerId env.now))

/-- What a completed step does to the ids. -/
inductive Numbering (s : ServerState) (l : Label) (s' : ServerState) : Prop
  | other (hlog : l.output.log.filterMap LogLine.creates = []) (hnext : s'.nextGameId = s.nextGameId)
      (hkeys : ∀ id ∈ s'.activeGames, id ∈ s.activeGames)
  | created (id : UInt32) (hlog : l.output.log.filterMap LogLine.creates = [id]) (hid : s.FreeId id)
      (hnext : s'.nextGameId = advanceGameId id)
      (hkeys : ∀ k ∈ s'.activeGames, k = id ∨ k ∈ s.activeGames)

/-- The games created by `tr`, up to the state `s`, as long as the counter has not wrapped. -/
structure Numbered (tr : List Transition) (s : ServerState) : Prop where
  ids : ∀ k id, k < uint32Max.toNat → (creations tr)[k]? = some id → id.toNat = k + 1
  next : (creations tr).length < uint32Max.toNat →
    s.nextGameId.toNat = (creations tr).length + 1
  keys : (creations tr).length < uint32Max.toNat →
    ∀ id ∈ s.activeGames, id.toNat ≤ (creations tr).length

section Numbering

variable {srv : Server} {s s' : ServerState} {l : Label} {tr : List Transition}

theorem getsFreshId (hs : Reachable srv s) {d : Datagram} (hj : d.IsJoin) (hw : s.NoneWaiting)
    (hroom : s.HasRoom) : GetsFreshId srv s d := by
  have hnext : s.nextGameId ≠ 0 := hs.nextGameId_ne
  obtain ⟨id, hid, hsearch⟩ := exists_freeId hnext hroom
  have hfree : s.FreeId id := ⟨_, hsearch _ (Nat.le_refl _)⟩
  refine ⟨id, uint32Max.toNat, hfree.ne_zero hnext, hid, ?_⟩
  intro env hfuel horder
  have hfound := hsearch env.fuel hfuel
  refine ⟨hfound, (createReply env srv.template d s id).1, (createReply env srv.template d s id).2,
    decode_of_search hj hw hroom horder hfound, ?_, ?_⟩
  · intro k g hg
    have hne : k ≠ id := by
      rintro rfl
      exact hid (Finmap.mem_of_lookup_eq_some hg)
    rw [lookup_createReply env srv.template d hne, hg]
  · intro halloc
    rw [createReply_of_succeeds halloc]
    exact ⟨rfl, Finmap.lookup_insert _⟩

/-- One step, as the numbering sees it. -/
theorem CompletedStep.numbering (h : CompletedStep srv s l s') : Numbering s l s' := by
  obtain ⟨halloc, hstep⟩ := h
  obtain ⟨event, out⟩ := l
  cases event with
  | sweep now =>
      refine .other ?_ (Sweeps.nextGameId hstep) ?_
      · refine List.filterMap_eq_nil_iff.2 fun line hline => ?_
        obtain ⟨id, rfl⟩ := Sweeps.log hstep line hline
        rfl
      · intro id hid
        obtain ⟨g, hg⟩ := Finmap.mem_iff.1 hid
        exact Finmap.mem_of_lookup_eq_some ((Sweeps.lookup_eq_some hstep).1 hg).1
  | datagram now alloc d =>
      have hinsert : ∀ {id k : UInt32} {g : GameState}, id ∈ s.activeGames →
          k ∈ s.activeGames.insert id g → k ∈ s.activeGames := by
        intro id k g hid hk
        rcases Finmap.mem_insert.1 hk with rfl | hk
        · exact hid
        · exact hk
      cases Handles.handling hstep with
      | created id hj hw hroom hid _ =>
          exact .created id rfl hid rfl fun k hk => Finmap.mem_insert.1 hk
      | unallocated _ _ _ _ _ hfail => simp [halloc.1, halloc.2.1] at hfail
      | unfinished _ _ _ _ _ hfail => simp [halloc.2.2] at hfail
      | seated id g _ hg _ =>
          exact .other rfl rfl fun k hk => hinsert (Finmap.mem_of_lookup_eq_some hg) hk
      | moved g _ hg _ _ _ =>
          exact .other rfl rfl fun k hk => hinsert (Finmap.mem_of_lookup_eq_some hg) hk
      | gaveUp g _ hg _ =>
          exact .other rfl rfl fun k hk => hinsert (Finmap.mem_of_lookup_eq_some hg) hk
      | keptAlive g _ hg _ =>
          exact .other rfl rfl fun k hk => hinsert (Finmap.mem_of_lookup_eq_some hg) hk
      | _ => exact .other rfl rfl fun k hk => hk

/-- One step keeps the numbering: as long as the counter has not wrapped it is free, so the search
    stops at it. -/
theorem Numbered.step (h : Numbered tr s) (hstep : Numbering s l s') :
    Numbered (tr ++ [⟨s, l, s'⟩]) s' := by
  have hcreations : creations (tr ++ [⟨s, l, s'⟩]) =
      creations tr ++ l.output.log.filterMap LogLine.creates := by simp [creations]
  cases hstep with
  | other hlog hnext hkeys =>
      rw [hlog, List.append_nil] at hcreations
      refine ⟨?_, ?_, ?_⟩
      · rw [hcreations]
        exact h.ids
      · rw [hcreations, hnext]
        exact h.next
      · rw [hcreations]
        exact fun hlt id hid => h.keys hlt id (hkeys id hid)
  | created id hlog hid hnext hkeys =>
      rw [hlog] at hcreations
      have hlen : (creations (tr ++ [⟨s, l, s'⟩])).length = (creations tr).length + 1 := by
        rw [hcreations, List.length_append]
        rfl
      -- before the wrap the new game gets the value of the counter
      have hnew : (creations tr).length < uint32Max.toNat → id.toNat = (creations tr).length + 1 := by
        intro hlt
        have hcounter := h.next hlt
        have hout : s.nextGameId ∉ s.activeGames := by
          intro hmem
          have hle := h.keys hlt _ hmem
          omega
        rw [hid.eq_nextGameId hout, hcounter]
      refine ⟨?_, ?_, ?_⟩
      · intro k k' hlt hk
        rw [hcreations] at hk
        rcases Nat.lt_trichotomy k (creations tr).length with hlt' | rfl | hgt
        · rw [List.getElem?_append_left hlt'] at hk
          exact h.ids k k' hlt hk
        · rw [List.getElem?_concat_length] at hk
          obtain rfl := Option.some.inj hk
          exact hnew hlt
        · rw [List.getElem?_eq_none (by rw [List.length_append]; exact hgt)] at hk
          simp at hk
      · intro hlt
        rw [hlen] at hlt ⊢
        have hid' := hnew (by omega)
        have hne : id ≠ 0 := by
          rintro rfl
          simp at hid'
        rw [hnext, toNat_advanceGameId hne, Nat.mod_eq_of_lt (by omega), hid']
      · intro hlt k hk
        rw [hlen] at hlt ⊢
        have hid' := hnew (by omega)
        rcases hkeys k hk with rfl | hk
        · omega
        · have hle := h.keys (by omega) k hk
          omega

theorem numbered_of_run (hrun : LTS.Run (CompletedStep srv) .initial tr s) : Numbered tr s := by
  induction hrun with
  | refl =>
      refine ⟨fun k id _ hk => by simp [creations] at hk, fun _ => rfl, fun _ id hid => ?_⟩
      exact absurd hid Finmap.notMem_empty
  | snoc _ hstep ih => exact ih.step (CompletedStep.numbering hstep)

end Numbering

/-- **Allocation of game ids.** In every reachable state the search of a JOIN that finds no waiting
    game and has room ends, at an id that is fresh; and the `k`-th game of a run has the id `k`,
    counting from 1 up to UINT32_MAX, so that no id comes twice before the counter wraps. -/
theorem id_allocation (srv : Server) :
    (∀ s, Reachable srv s → ∀ d : Datagram, d.IsJoin → s.NoneWaiting → s.HasRoom →
      GetsFreshId srv s d) ∧
    ∀ tr s, LTS.Run (CompletedStep srv) .initial tr s →
      (∀ k id, k < uint32Max.toNat → (creations tr)[k]? = some id → id.toNat = k + 1) ∧
      ((creations tr).take uint32Max.toNat).Nodup := by
  refine ⟨fun s hs d hj hw hroom => getsFreshId hs hj hw hroom, ?_⟩
  intro tr s hrun
  have hids := (numbered_of_run hrun).ids
  refine ⟨hids, ?_⟩
  rw [List.nodup_iff_injective_getElem]
  intro i j heq
  obtain ⟨i, hi⟩ := i
  obtain ⟨j, hj⟩ := j
  rw [List.length_take, Nat.lt_min] at hi hj
  simp only [List.getElem_take] at heq
  have hi' := hids i _ hi.1 (List.getElem?_eq_getElem hi.2)
  have hj' := hids j _ hj.1 (List.getElem?_eq_getElem hj.2)
  rw [heq] at hi'
  have hij : i = j := by omega
  exact Fin.ext hij

theorem id_allocation_started : GetsFreshId threePawns .initial (.join 7) ∧
    ∃ tr, LTS.Run (CompletedStep threePawns) .initial tr (started threePawns 7 9 0) ∧
      (creations tr).length = 1 ∧ ((creations tr).take uint32Max.toNat).Nodup := by
  have hroom : ServerState.initial.HasRoom := by decide
  obtain ⟨hsearch, hruns⟩ := id_allocation threePawns
  have hjoin : (Datagram.join 7).IsJoin := Datagram.isJoin_join (by decide)
  refine ⟨hsearch _ LTS.Reachable.refl _ hjoin noneWaiting_initial hroom, ?_⟩
  obtain ⟨tr, hrun, hjoins, hevict, hroom'⟩ :=
    exists_run_joins threePawns (p := 7) (q := 9) (by decide) (by decide) 0
  have heven := (balanced_of_run hrun hevict hroom').even fun id g hg => by
    obtain ⟨-, rfl⟩ := eq_of_lookup_singleton hg
    decide
  rw [hjoins] at heven
  refine ⟨tr, hrun, ?_, (hruns tr _ hrun).2⟩
  change 2 = 2 * (creations tr).length at heven
  omega

/-! ## Creations that fail -/

/-- A JOIN is silently ignored: its handling ends, nothing is sent, and every game stays as it is. -/
def Ignored (srv : Server) (s : ServerState) (alloc : Allocation) (d : Datagram) : Prop :=
  ∃ bound, ∀ env : Env, env.alloc = alloc → bound ≤ env.fuel →
    Finmap.IsTraversal env.order s.activeGames →
      ∃ s' out, decodeAndVerifyMessage env srv.template d.buf d.len s = .ok (s', out) ∧
        out.sent = [] ∧ s'.activeGames = s.activeGames

section Failure

variable {srv : Server} {s : ServerState} {d : Datagram} {alloc : Allocation} {id : UInt32}

theorem decode_of_full {env : Env} {tmpl : GameState} (hj : d.IsJoin) (hw : s.NoneWaiting)
    (hfull : ¬ s.HasRoom) (horder : Finmap.IsTraversal env.order s.activeGames) :
    decodeAndVerifyMessage env tmpl d.buf d.len s = .ok (s, {}) := by
  rw [decode_of_join _ _ _ hj, joinReply_of_full hw hfull horder]

/-- A creation that leaves an entry behind is not ignored. -/
theorem not_ignored_of_unfinished (hs : Reachable srv s) (hj : d.IsJoin) (hw : s.NoneWaiting)
    (hroom : s.HasRoom) (htempl : alloc.templateCopy = true) (hnode : alloc.mapNode = true)
    (hrow : alloc.rowCopy = false) : ¬ Ignored srv s alloc d := by
  intro hall
  obtain ⟨bound, hignored⟩ := hall
  have hnext : s.nextGameId ≠ 0 := hs.nextGameId_ne
  obtain ⟨id, hid, hsearch⟩ := exists_freeId hnext hroom
  obtain ⟨order, horder⟩ := Finmap.exists_isTraversal s.activeGames
  let env : Env := ⟨0, alloc, order, max bound uint32Max.toNat⟩
  obtain ⟨s', out, hdecode, -, hsame⟩ := hignored env rfl (Nat.le_max_left _ _) horder
  rw [decode_of_search hj hw hroom horder (hsearch env.fuel (Nat.le_max_right _ _)),
    createReply_of_unfinished htempl hnode hrow] at hdecode
  obtain ⟨rfl, -⟩ := Prod.mk.inj (Except.ok.inj hdecode)
  -- the id was free, and now there is a game under it
  have hmem : id ∈ s.activeGames.insert id (srv.template.unfinished d.playerId) :=
    Finmap.mem_insert.2 (.inl rfl)
  exact hid (hsame ▸ hmem)

end Failure

/-- **A failed creation** is silently ignored, unless there is room for the game and both the copy
    of the template and the node of the map could be allocated. -/
theorem failed_creation_iff (srv : Server) {s : ServerState} (hs : Reachable srv s) {d : Datagram}
    (hj : d.IsJoin) (hw : s.NoneWaiting) {alloc : Allocation} (hfail : ¬ alloc.Succeeds) :
    Ignored srv s alloc d ↔
      ¬ (s.HasRoom ∧ alloc.templateCopy = true ∧ alloc.mapNode = true) := by
  constructor
  · intro hignored hreached
    obtain ⟨hroom, htempl, hnode⟩ := hreached
    have hrow : alloc.rowCopy = false :=
      Bool.eq_false_of_not_eq_true fun hrow => hfail ⟨htempl, hnode, hrow⟩
    exact not_ignored_of_unfinished hs hj hw hroom htempl hnode hrow hignored
  · intro hno
    by_cases hroom : s.HasRoom
    · have halloc : alloc.templateCopy = false ∨ alloc.mapNode = false := by
        by_contra hboth
        rw [not_or, Bool.not_eq_false, Bool.not_eq_false] at hboth
        exact hno ⟨hroom, hboth⟩
      have hnext : s.nextGameId ≠ 0 := hs.nextGameId_ne
      obtain ⟨id, -, hsearch⟩ := exists_freeId hnext hroom
      refine ⟨uint32Max.toNat, ?_⟩
      rintro env rfl hfuel horder
      have hdecode : decodeAndVerifyMessage env srv.template d.buf d.len s = _ :=
        decode_of_search hj hw hroom horder (hsearch env.fuel hfuel)
      rw [createReply_of_unallocated halloc] at hdecode
      exact ⟨_, _, hdecode, rfl, rfl⟩
    · refine ⟨0, ?_⟩
      rintro env - - horder
      exact ⟨s, {}, decode_of_full hj hw hroom horder, rfl, rfl⟩

theorem failed_creation_iff_initial :
    Ignored threePawns .initial ⟨true, false, true⟩ (.join 7) := by
  have hfail : ¬ (⟨true, false, true⟩ : Allocation).Succeeds := fun h => Bool.noConfusion h.2.1
  refine (failed_creation_iff threePawns LTS.Reachable.refl (Datagram.isJoin_join (by decide))
    noneWaiting_initial hfail).2 ?_
  intro hreached
  obtain ⟨-, -, hnode⟩ := hreached
  exact Bool.noConfusion hnode

/-- Player 7 joins an empty server, and the copy of the row fails. -/
theorem not_all_failed_creations_ignored : ¬ ∀ (srv : Server) (s : ServerState), Reachable srv s →
    ∀ d : Datagram, d.IsJoin → s.NoneWaiting → ∀ alloc : Allocation, ¬ alloc.Succeeds →
      Ignored srv s alloc d := by
  intro hall
  have hjoin : (Datagram.join 7).IsJoin := Datagram.isJoin_join (by decide)
  have hs : Reachable threePawns .initial := LTS.Reachable.refl
  refine not_ignored_of_unfinished hs hjoin noneWaiting_initial (by decide) rfl rfl rfl
    (hall threePawns .initial hs _ hjoin noneWaiting_initial ⟨true, true, false⟩ ?_)
  exact fun h => Bool.noConfusion h.2.2

end Kayles
