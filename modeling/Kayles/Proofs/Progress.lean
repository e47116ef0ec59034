import Kayles.Proofs.Invariants

set_option autoImplicit false

/-! # Handlings that complete

The other direction of the inversion, as steps: from a reachable state every way of handling a
datagram leads to a reachable state. `started` is where two JOINs lead on any server, and the messages
of the protocol are built from their fields. -/

namespace Kayles

/-! ## Messages from their fields -/

namespace Datagram

/-- A JOIN of `p`. -/
def join (p : UInt32) : Datagram := ofBytes (0 :: htonl p) (by simp [htonl])

/-- A message of `msgType` with the fields of a move. -/
def move (msgType : UInt8) (p gameId : UInt32) (pawn : UInt8) : Datagram :=
  ofBytes (msgType :: htonl p ++ htonl gameId ++ [pawn]) (by simp [htonl])

/-- A GIVE_UP of `p`. -/
def giveUp (p gameId : UInt32) : Datagram :=
  ofBytes (4 :: htonl p ++ htonl gameId) (by simp [htonl])

/-- A KEEP_ALIVE of `p`. -/
def keepAlive (p gameId : UInt32) : Datagram :=
  ofBytes (3 :: htonl p ++ htonl gameId) (by simp [htonl])

@[simp] theorem playerId_join (p : UInt32) : (join p).playerId = p := ntohl_htonl p

@[simp] theorem playerId_move (t : UInt8) (p id : UInt32) (i : UInt8) :
    (move t p id i).playerId = p := ntohl_htonl p

@[simp] theorem gameId_move (t : UInt8) (p id : UInt32) (i : UInt8) :
    (move t p id i).gameId = id := ntohl_htonl id

@[simp] theorem playerId_giveUp (p id : UInt32) : (giveUp p id).playerId = p := ntohl_htonl p

@[simp] theorem gameId_giveUp (p id : UInt32) : (giveUp p id).gameId = id := ntohl_htonl id

@[simp] theorem playerId_keepAlive (p id : UInt32) : (keepAlive p id).playerId = p := ntohl_htonl p

theorem known_of_msgType {d : Datagram} (hlen : d.len ≠ 0) {t : UInt8} (ht : d.msgType = t)
    (hle : t ≤ 4) : d.Known := ⟨hlen, ht ▸ hle⟩

theorem isJoin_join {p : UInt32} (hp : p ≠ 0) : (join p).IsJoin := by
  have hknown : (join p).Known := known_of_msgType (Nat.succ_ne_zero _) rfl (t := 0) (by decide)
  exact ⟨⟨hknown, rfl, by simpa using hp⟩, rfl⟩

theorem isMove_move {t : UInt8} (ht : t = 1 ∨ t = 2) {p : UInt32} (hp : p ≠ 0) (id : UInt32)
    (i : UInt8) : (move t p id i).IsMove := by
  refine ⟨⟨known_of_msgType (t := t) (Nat.succ_ne_zero _) rfl ?_, ?_, by simpa using hp⟩, ht⟩
  · rcases ht with rfl | rfl <;> decide
  · rcases ht with rfl | rfl <;> rfl

theorem isGiveUp_giveUp {p : UInt32} (hp : p ≠ 0) (id : UInt32) : (giveUp p id).IsGiveUp := by
  have hknown : (giveUp p id).Known :=
    known_of_msgType (Nat.succ_ne_zero _) rfl (t := 4) (by decide)
  exact ⟨⟨hknown, rfl, by simpa using hp⟩, rfl⟩

theorem isKeepAlive_keepAlive {p : UInt32} (hp : p ≠ 0) (id : UInt32) :
    (keepAlive p id).IsKeepAlive := by
  have hknown : (keepAlive p id).Known :=
    known_of_msgType (Nat.succ_ne_zero _) rfl (t := 3) (by decide)
  exact ⟨⟨hknown, rfl, by simpa using hp⟩, rfl⟩

end Datagram

/-! ## Reachable states -/

/-- The server that `main` starts on a valid row. -/
def Server.ofRow (pawnRow : List Char) (timeoutMs : UInt64) (valid : isValidPawnRow pawnRow = true) :
    Server where
  pawnRow := pawnRow
  uninitialised := valueInitialised
  template := (initializePawnRow pawnRow valueInitialised).toOption.getD valueInitialised
  timeoutMs := timeoutMs
  valid := valid
  init := by
    obtain ⟨hpos, hmax, -⟩ := isValidPawnRow_iff.1 valid
    obtain ⟨tmpl, htmpl, -⟩ := initializePawnRow_spec hpos hmax valueInitialised
    rw [htmpl]
    rfl

/-- All allocations succeed. -/
def Allocation.ok : Allocation := ⟨true, true, true⟩

theorem Allocation.ok_succeeds : Allocation.ok.Succeeds := ⟨rfl, rfl, rfl⟩

section Reachable

variable {srv : Server} {s s' : ServerState} {now : UInt64} {alloc : Allocation} {d : Datagram}
  {out : Output}

theorem ReachableCompleted.handles (hs : ReachableCompleted srv s)
    (h : Handling srv.template now alloc d s s' out) : Handles srv now alloc d s s' out :=
  h.handles fun _ _ hg _ => (hs.gameInv hg).fits

theorem ReachableCompleted.step (hs : ReachableCompleted srv s) (halloc : alloc.Succeeds)
    (h : Handling srv.template now alloc d s s' out) :
    CompletedStep srv s ⟨.datagram now alloc d, out⟩ s' := ⟨halloc, hs.handles h⟩

theorem ReachableCompleted.handling (hs : ReachableCompleted srv s) (halloc : alloc.Succeeds)
    (h : Handling srv.template now alloc d s s' out) : ReachableCompleted srv s' :=
  hs.snoc (hs.step halloc h)

/-- The search stops at once when the counter is free. -/
theorem freeId_nextGameId (h : s.nextGameId ∉ s.activeGames) : s.FreeId s.nextGameId := by
  refine ⟨1, ?_⟩
  rw [findFreeId, Loop.run, findFreeIdTurn_eq, if_neg h]

/-- One game of `p` on the template's board, waiting for its second player. -/
def opened (srv : Server) (p : UInt32) (now : UInt64) : ServerState where
  activeGames := (∅ : ActiveGames).insert 1 (srv.template.open p now)
  nextGameId := 2

/-- One game of `p` and `q` on the template's board, at its first turn. -/
def started (srv : Server) (p q : UInt32) (now : UInt64) : ServerState where
  activeGames := (∅ : ActiveGames).insert 1 ((srv.template.open p now).seat q now)
  nextGameId := 2

theorem lookup_opened (srv : Server) (p : UInt32) (now : UInt64) :
    (opened srv p now).activeGames.lookup 1 = some (srv.template.open p now) :=
  Finmap.lookup_insert _

theorem lookup_started (srv : Server) (p q : UInt32) (now : UInt64) :
    (started srv p q now).activeGames.lookup 1 = some ((srv.template.open p now).seat q now) :=
  Finmap.lookup_insert _

/-- The first JOIN of a server creates the game 1. -/
theorem handling_opened (srv : Server) {p : UInt32} (hp : p ≠ 0) (now : UInt64) :
    Handling srv.template now .ok (.join p) .initial (opened srv p now)
      { sent := [gameStateMessage (srv.template.open p now) 1], log := [.created 1 p] } := by
  have hfree : ServerState.initial.FreeId 1 := freeId_nextGameId Finmap.notMem_empty
  have h : Handling srv.template now .ok (.join p) .initial _ _ :=
    .created 1 (Datagram.isJoin_join hp) noneWaiting_initial (by decide) hfree Allocation.ok_succeeds
  rw [Datagram.playerId_join] at h
  exact h

/-- The second JOIN of a server is seated in it. -/
theorem handling_started (srv : Server) (p : UInt32) {q : UInt32} (hq : q ≠ 0) (now : UInt64) :
    Handling srv.template now .ok (.join q) (opened srv p now) (started srv p q now)
      { sent := [gameStateMessage ((srv.template.open p now).seat q now) 1],
        log := [.joined q 1] } := by
  have h : Handling srv.template now .ok (.join q) (opened srv p now) _ _ :=
    .seated 1 _ (Datagram.isJoin_join hq) (lookup_opened srv p now) rfl
  rw [Datagram.playerId_join, opened] at h
  simp only [Finmap.insert_insert] at h
  exact h

/-- A legal move of the player on turn is carried out when its last loop ends. -/
theorem ReachableCompleted.moved (hs : ReachableCompleted srv s) {id : UInt32} {g : GameState}
    (hg : s.activeGames.lookup id = some g) (hmove : d.IsMove) (hid : d.gameId = id)
    (hturn : g.OnTurn d.playerId) (hlegal : g.Legal d.movePawns)
    (hends : (g.knock d.movePawns).MoveEnds) (now : UInt64) : ReachableCompleted srv
      { s with activeGames := s.activeGames.insert id (g.afterMove d.movePawns now) } := by
  subst hid
  have h : Handling srv.template now .ok d s _ _ := .moved g hmove hg hturn hlegal hends
  exact hs.handling Allocation.ok_succeeds h

/-- Two JOINs start a game on every server. -/
theorem reachable_started (srv : Server) {p q : UInt32} (hp : p ≠ 0) (hq : q ≠ 0) (now : UInt64) :
    ReachableCompleted srv (started srv p q now) := by
  have hinit : ReachableCompleted srv .initial := LTS.Reachable.refl
  have hone := hinit.handling Allocation.ok_succeeds (handling_opened srv hp now)
  exact hone.handling Allocation.ok_succeeds (handling_started srv p hq now)

end Reachable

/-- A server with three pawns. -/
def threePawns : Server := .ofRow ['1', '1', '1'] 1000 (by decide)

end Kayles
