import Kayles.Proofs.Journal
import Kayles.Proofs.Printing
import Kayles.Proofs.Programs

set_option autoImplicit false

/-! # The standard output of the server

The lines of the server are words between blanks, and lines and words can be told apart in the text.
So the text that the program has printed tells the lines, and, with the journal that they are, who
plays in which game: `stdout_tells_games`. -/

namespace Kayles

/-! ## Words -/

/-- The words of a line. -/
def Line.words : Line → List (List Char)
  | .runningOn port =>
    ["running".toList, "server".toList, "on".toList, "port".toList, decimal port.toNat]
  | .received len sender =>
    ["received".toList, decimal len, "bytes".toList, "from".toList,
      dotted sender.ip ++ ':' :: decimal sender.port.toNat]
  | .game (.created gameId playerId) =>
    ["game".toList, "no".toList, decimal gameId.toNat, "created.".toList, "player".toList,
      "no".toList, decimal playerId.toNat, "joined".toList, "it.".toList]
  | .game (.joined playerId gameId) =>
    ["player".toList, "no".toList, decimal playerId.toNat, "joined".toList, "game".toList,
      "no".toList, decimal gameId.toNat]
  | .game (.timedOut gameId) =>
    ["game".toList, "no".toList, decimal gameId.toNat, "timed".toList, "out".toList]

section Words

variable {line line' : Line} {c : Char} {ip ip' : UInt32} {sender sender' : SocketAddress}

theorem append_one (w x w' : List Char) :
    (w ++ (x ++ w')) ++ [' '] = w ++ (x ++ (w' ++ [' '])) := by
  simp only [List.append_assoc]

theorem append_two (w x w' y w'' : List Char) :
    (w ++ (x ++ (w' ++ (y ++ w'')))) ++ [' '] = w ++ (x ++ (w' ++ (y ++ (w'' ++ [' '])))) := by
  simp only [List.append_assoc]

theorem text_eq_words (line : Line) : line.text ++ [' '] = Tokens.write ' ' line.words := by
  cases line with
  | runningOn port =>
      simp only [Line.words, Tokens.write_cons, Tokens.write_nil]
      rfl
  | received len sender =>
      simp only [Line.words, Tokens.write_cons, Tokens.write_nil]
      exact append_one "received ".toList _ (" bytes from ".toList ++ _)
  | game line =>
      cases line with
      | created gameId playerId =>
          simp only [Line.words, Tokens.write_cons, Tokens.write_nil]
          exact append_two "game no ".toList _ " created. player no ".toList _ _
      | joined playerId gameId =>
          simp only [Line.words, Tokens.write_cons, Tokens.write_nil]
          exact append_one "player no ".toList _ (" joined game no ".toList ++ _)
      | timedOut gameId =>
          simp only [Line.words, Tokens.write_cons, Tokens.write_nil]
          exact append_one "game no ".toList _ _

/-! ## Addresses -/

theorem dotted_eq_write (ip : UInt32) :
    dotted ip ++ ['.'] = Tokens.write '.' ((htonl ip).map fun b => decimal b.toNat) := by
  have hne : ((htonl ip).map fun b => decimal b.toNat) ≠ [] := List.cons_ne_nil _ _
  exact (Tokens.write_eq_intercalate hne).symm

theorem notMem_dotted (hdigit : c.isDigit = false) (hdot : c ≠ '.') (ip : UInt32) :
    c ∉ dotted ip := by
  intro hmem
  have hwrite : c ∈ dotted ip ++ ['.'] := List.mem_append_left _ hmem
  rw [dotted_eq_write] at hwrite
  obtain ⟨token, htoken, hc⟩ := List.mem_flatMap.1 hwrite
  obtain ⟨b, -, rfl⟩ := List.mem_map.1 htoken
  rcases List.mem_append.1 hc with hc | hc
  · exact notMem_decimal hdigit _ hc
  · exact hdot (List.mem_singleton.1 hc)

theorem dotted_inj (h : dotted ip = dotted ip') : ip = ip' := by
  have hclean : ∀ ip : UInt32, Tokens.Clean '.' ((htonl ip).map fun b => decimal b.toNat) := by
    intro ip token htoken
    obtain ⟨b, -, rfl⟩ := List.mem_map.1 htoken
    exact notMem_decimal rfl _
  have hbytes := Tokens.write_inj (hclean ip) (hclean ip') (by
    rw [← dotted_eq_write, ← dotted_eq_write, h])
  have hnet : htonl ip = htonl ip' :=
    List.map_injective_iff.2 (fun b b' hb => UInt8.toNat_inj.1 (decimal_inj hb)) hbytes
  rw [← ntohl_htonl ip, hnet, ntohl_htonl]

theorem address_inj (h : dotted sender.ip ++ ':' :: decimal sender.port.toNat =
    dotted sender'.ip ++ ':' :: decimal sender'.port.toNat) : sender = sender' := by
  have hclean : ∀ sender : SocketAddress,
      Tokens.Clean ':' [dotted sender.ip, decimal sender.port.toNat] := fun sender =>
    .cons (notMem_dotted rfl (by decide) _) <| .cons (notMem_decimal rfl _) fun _ ht =>
      absurd ht List.not_mem_nil
  have hwrite := congrArg (· ++ [':']) h
  simp only [List.append_assoc, List.cons_append] at hwrite
  have hparts := Tokens.write_inj (hclean sender) (hclean sender') (by
    simpa only [Tokens.write_cons, Tokens.write_nil] using hwrite)
  simp only [List.cons.injEq, and_true] at hparts
  have hip := dotted_inj hparts.1
  have hport := UInt16.toNat_inj.1 (decimal_inj hparts.2)
  cases sender
  cases sender'
  subst hip hport
  rfl

/-! ## Lines -/

/-- No word has a blank or a line break in it. -/
theorem words_clean (hc : c = ' ' ∨ c = '\n') (line : Line) : Tokens.Clean c line.words := by
  have hnil : Tokens.Clean c [] := fun _ ht => absurd ht List.not_mem_nil
  have hnumber : ∀ n, c ∉ decimal n := by
    rcases hc with rfl | rfl <;> exact notMem_decimal rfl
  cases line with
  | runningOn port =>
      refine .cons ?_ (.cons ?_ (.cons ?_ (.cons ?_ (.cons (hnumber _) hnil))))
      all_goals rcases hc with rfl | rfl <;> decide
  | received len sender =>
      refine .cons ?_ (.cons (hnumber _) (.cons ?_ (.cons ?_ (.cons ?_ hnil))))
      · rcases hc with rfl | rfl <;> decide
      · rcases hc with rfl | rfl <;> decide
      · rcases hc with rfl | rfl <;> decide
      · intro hmem
        rcases List.mem_append.1 hmem with hmem | hmem
        · rcases hc with rfl | rfl <;> exact notMem_dotted rfl (by decide) _ hmem
        · rcases List.mem_cons.1 hmem with hcolon | hmem
          · rcases hc with rfl | rfl <;> exact absurd hcolon (by decide)
          · exact hnumber _ hmem
  | game line =>
      cases line with
      | created gameId playerId =>
          refine .cons ?_ (.cons ?_ (.cons (hnumber _) (.cons ?_ (.cons ?_ (.cons ?_
            (.cons (hnumber _) (.cons ?_ (.cons ?_ hnil))))))))
          all_goals rcases hc with rfl | rfl <;> decide
      | joined playerId gameId =>
          refine .cons ?_ (.cons ?_ (.cons (hnumber _) (.cons ?_ (.cons ?_ (.cons ?_
            (.cons (hnumber _) hnil))))))
          all_goals rcases hc with rfl | rfl <;> decide
      | timedOut gameId =>
          refine .cons ?_ (.cons ?_ (.cons (hnumber _) (.cons ?_ (.cons ?_ hnil))))
          all_goals rcases hc with rfl | rfl <;> decide

/-- Which of the five texts a line has. -/
def Line.kind : Line → ℕ
  | .runningOn _ => 0
  | .received _ _ => 1
  | .game (.created _ _) => 2
  | .game (.joined _ _) => 3
  | .game (.timedOut _) => 4

/-- The number of the words and the first of them tell the kind. -/
def kindOfWords (words : List (List Char)) : ℕ :=
  if words.length = 9 then 2
  else if words.length = 7 then 3
  else if words.head? = some "running".toList then 0
  else if words.head? = some "received".toList then 1
  else 4

theorem kindOfWords_words (line : Line) : kindOfWords line.words = line.kind := by
  cases line with
  | runningOn port => rfl
  | received len sender => rfl
  | game line => cases line <;> rfl

theorem words_inj (h : line.words = line'.words) : line = line' := by
  have hkind : line.kind = line'.kind := by rw [← kindOfWords_words, h, kindOfWords_words]
  have hword : ∀ i : ℕ, line.words[i]? = line'.words[i]? := fun i => by rw [h]
  cases line with
  | runningOn port =>
      cases line' with
      | runningOn port' =>
          have hport := decimal_inj (Option.some.inj (hword 4))
          rw [UInt16.toNat_inj.1 hport]
      | received _ _ => simp [Line.kind] at hkind
      | game line' => cases line' <;> simp [Line.kind] at hkind
  | received len sender =>
      cases line' with
      | received len' sender' =>
          rw [decimal_inj (Option.some.inj (hword 1)), address_inj (Option.some.inj (hword 4))]
      | runningOn _ => simp [Line.kind] at hkind
      | game line' => cases line' <;> simp [Line.kind] at hkind
  | game line =>
      cases line' with
      | runningOn _ => cases line <;> simp [Line.kind] at hkind
      | received _ _ => cases line <;> simp [Line.kind] at hkind
      | game line' =>
          cases line with
          | created gameId playerId =>
              cases line' with
              | created gameId' playerId' =>
                  have hgame := decimal_inj (Option.some.inj (hword 2))
                  have hplayer := decimal_inj (Option.some.inj (hword 6))
                  rw [UInt32.toNat_inj.1 hgame, UInt32.toNat_inj.1 hplayer]
              | joined _ _ | timedOut _ => simp [Line.kind] at hkind
          | joined playerId gameId =>
              cases line' with
              | joined playerId' gameId' =>
                  have hplayer := decimal_inj (Option.some.inj (hword 2))
                  have hgame := decimal_inj (Option.some.inj (hword 6))
                  rw [UInt32.toNat_inj.1 hgame, UInt32.toNat_inj.1 hplayer]
              | created _ _ | timedOut _ => simp [Line.kind] at hkind
          | timedOut gameId =>
              cases line' with
              | timedOut gameId' =>
                  have hgame := decimal_inj (Option.some.inj (hword 2))
                  rw [UInt32.toNat_inj.1 hgame]
              | created _ _ | joined _ _ => simp [Line.kind] at hkind

theorem text_injective : Function.Injective Line.text := by
  intro line line' h
  have hwrite := congrArg (· ++ [' ']) h
  simp only [text_eq_words] at hwrite
  exact words_inj (Tokens.write_inj (words_clean (.inl rfl) line) (words_clean (.inl rfl) line') hwrite)

theorem lineBreak_notMem_text (line : Line) : '\n' ∉ line.text := by
  intro hmem
  have hwrite : '\n' ∈ line.text ++ [' '] := List.mem_append_left _ hmem
  rw [text_eq_words] at hwrite
  obtain ⟨word, hword, hc⟩ := List.mem_flatMap.1 hwrite
  rcases List.mem_append.1 hc with hc | hc
  · exact words_clean (.inr rfl) line word hword hc
  · exact absurd (List.mem_singleton.1 hc) (by decide)

/-- **The text tells the lines.** -/
theorem lines_of_text {lines lines' : List Line} (h : (lines.flatMap fun line => line.text ++ ['\n']) =
    lines'.flatMap fun line => line.text ++ ['\n']) : lines = lines' := by
  have hwrite : ∀ lines : List Line, (lines.flatMap fun line => line.text ++ ['\n']) =
      Tokens.write '\n' (lines.map Line.text) := by
    intro lines
    rw [Tokens.write, List.flatMap_map]
  have hclean : ∀ lines : List Line, Tokens.Clean '\n' (lines.map Line.text) := by
    intro lines text htext
    obtain ⟨line, -, rfl⟩ := List.mem_map.1 htext
    exact lineBreak_notMem_text line
  rw [hwrite, hwrite] at h
  exact List.map_injective_iff.2 text_injective (Tokens.write_inj (hclean lines) (hclean lines') h)

end Words

/-! ## The journal in the output -/

/-- What a line says about the games, if it does. -/
def Line.game? : Line → Option LogLine
  | .game line => some line
  | _ => none

section Journal

variable {srv : Server} {c : TurnCalls} {o : TurnOutput} {l : Round} {s s' : ServerState}
  {opts : List Opt} {uninitialised : GameState} {buffer : RecvBuffer} {calls : ServerCalls}
  {m : ServerMemory}

theorem filterMap_game (log : List LogLine) : (log.map Line.game).filterMap Line.game? = log := by
  rw [List.filterMap_map]
  exact List.filterMap_some

/-- **A turn** prints what becomes of the players. -/
theorem IsRound.journal (h : IsRound c o l) (hstep : LoopStep srv s l s') :
    replay (roster s.activeGames) (o.lines.filterMap Line.game?) = roster s'.activeGames := by
  obtain ⟨mid, hsweep, hrest⟩ := hstep
  have hswept := hsweep.step.journal
  cases h with
  | timedOut _ hl hlines _ =>
      simp only [hl] at hrest
      rw [hlines, filterMap_game, hrest.1]
      exact hswept
  | received _ sender d _ hl _ hlines _ =>
      simp only [hl] at hrest
      obtain ⟨alloc, hhandles⟩ := hrest
      have hreceived : (Line.received d.len sender).game? = none := rfl
      rw [hlines, List.filterMap_cons_none hreceived, filterMap_game, replay, List.foldl_append]
      have hanswered := hhandles.step.journal
      rw [← hswept] at hanswered
      exact hanswered

/-- A program that has not ended has started. -/
theorem starts_of_result (h : (serverMain opts uninitialised buffer calls).result = .ok m) :
    ∃ config, Starts opts calls.socket config := by
  unfold serverMain at h
  split at h
  · exact absurd h (by simp)
  · next config hparse =>
      split at h
      · exact absurd h (by simp)
      · unfold runServer at h
        split at h
        · exact absurd h (by simp)
        · next port hsocket => exact ⟨config, hparse, port, hsocket⟩

/-- Before its loop the program prints nothing about games. -/
theorem filterMap_lines (opts : List Opt) (uninitialised : GameState) (buffer : RecvBuffer)
    (calls : ServerCalls) :
    (serverMain opts uninitialised buffer calls).lines.filterMap Line.game? = [] := by
  unfold serverMain
  split
  · rfl
  · split
    · rfl
    · unfold runServer
      split
      · rfl
      · next port _ => cases port <;> rfl

/-- **The program** prints what becomes of the players. -/
theorem replay_of_result (h : (serverMain opts uninitialised buffer calls).result = .ok m) :
    replay .empty (((serverMain opts uninitialised buffer calls).lines ++
      (serverMain opts uninitialised buffer calls).turns.flatMap
        TurnOutput.lines).filterMap Line.game?) = roster m.state.activeGames := by
  obtain ⟨config, hstarts⟩ := starts_of_result h
  obtain ⟨srv, hrow, rfl, hms⟩ := hstarts.exists_server uninitialised
  obtain ⟨hturns, hresult⟩ := hstarts.serverMain_eq hrow buffer
  rw [List.filterMap_append, filterMap_lines, List.nil_append, List.filterMap_flatMap, hturns]
  rw [hresult] at h
  have hinit : Reachable srv (ServerMemory.mk buffer false .initial).state := LTS.Reachable.refl
  refine Driver.run_replay (I := fun m : ServerMemory => Reachable srv m.state)
    (fun m : ServerMemory => roster m.state.activeGames) LogLine.apply
    (fun o => o.lines.filterMap Line.game?) ?_ calls.turns _ m hinit h
  intro c m m' o hm hturn
  rcases serverTurn_cases hms hm c with ⟨m₁, o₁, l, hturn', hround, hstep, -⟩ | ⟨o₁, e, herror, -⟩
  · obtain ⟨rfl, heq⟩ := Prod.mk.inj (hturn'.symm.trans hturn)
    obtain rfl := Except.ok.inj heq
    exact ⟨hstep.reachable hm, hround.journal hstep⟩
  · exact absurd (herror.symm.trans hturn) (by simp)

end Journal

/-- **The standard output tells the games.** Whatever the command lines, the memory and the answers
    of the system: if two servers that are still running have printed the same text, then the same
    players play in the same games, but for games without a row. -/
theorem stdout_tells_games {opts opts' : List Opt} {uninitialised uninitialised' : GameState}
    {buffer buffer' : RecvBuffer} {calls calls' : ServerCalls} {m m' : ServerMemory}
    (h : (serverMain opts uninitialised buffer calls).result = .ok m)
    (h' : (serverMain opts' uninitialised' buffer' calls').result = .ok m')
    (hout : (serverMain opts uninitialised buffer calls).stdout =
      (serverMain opts' uninitialised' buffer' calls').stdout) :
    roster m.state.activeGames = roster m'.state.activeGames := by
  have hlines := lines_of_text hout
  rw [← replay_of_result h, ← replay_of_result h', hlines]

/-- Player 7 joins two servers: one at the reading 0, the other, with another content of the memory
    that is not initialised, at the reading 5 and before an idle turn. -/
theorem stdout_tells_games_joins : ∃ (m m' : ServerMemory) (uninitialised : GameState),
    uninitialised ≠ valueInitialised ∧
    (serverMain serverArguments valueInitialised .zero ⟨.ok, [.join 0]⟩).result = .ok m ∧
    (serverMain serverArguments uninitialised .zero
      ⟨.ok, [.join 5, .succeeding .timedOut 6]⟩).result = .ok m' ∧
    roster m.state.activeGames 1 = some (7, none) ∧
    roster m.state.activeGames = roster m'.state.activeGames := by
  have hgame : ((serverMain serverArguments valueInitialised .zero
      ⟨.ok, [.join 0]⟩).result.toOption.map fun m => roster m.state.activeGames 1) =
        some (some (7, none)) := by decide +kernel
  have hrunning : (serverMain serverArguments { valueInitialised with lastActivity := 5 } .zero
      ⟨.ok, [.join 5, .succeeding .timedOut 6]⟩).result.toOption.isSome = true := by decide +kernel
  have hout : (serverMain serverArguments valueInitialised .zero ⟨.ok, [.join 0]⟩).stdout =
      (serverMain serverArguments { valueInitialised with lastActivity := 5 } .zero
        ⟨.ok, [.join 5, .succeeding .timedOut 6]⟩).stdout := by decide +kernel
  obtain ⟨m, hm, hroster⟩ := Option.map_eq_some_iff.1 hgame
  obtain ⟨m', hm'⟩ := Option.isSome_iff_exists.1 hrunning
  have hok := Fallible.eq_ok_of_toOption hm
  have hok' := Fallible.eq_ok_of_toOption hm'
  exact ⟨m, m', _, by decide, hok, hok', hroster, stdout_tells_games hok hok' hout⟩

end Kayles
