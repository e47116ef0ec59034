import Kayles.Lib.Fallible
import Kayles.Implementation.Client
import Kayles.Proofs.Requests

set_option autoImplicit false

/-! # The printed text

The client prints what it has received as text, and the user reads it. The echoed bytes of an error
report are printed raw, line breaks and all, and the fields of a game are separated by a character
alone; still the text tells everything that was displayed: `printed_text_injective`. -/

namespace Kayles

/-! ## What can be displayed -/

/-- A display as the client builds it: twelve echoed bytes, and pawns that stand or lie. -/
def Display.Printable : Display → Prop
  | .timeout => True
  | .wrongMessage echoed _ => echoed.length = messageLen
  | .gameState _ _ _ _ _ pawns => ∀ c ∈ pawns, c = pawnStanding ∨ c = pawnKnockedDown

/-- The first character of the text. -/
def Display.initial : Display → Char
  | .timeout => '['
  | .wrongMessage _ _ => 'W'
  | .gameState _ _ _ _ _ _ => 'G'

section Displayed

variable {recvBuffer : Bytes} {receivedLen : ℕ} {D : Display} {g : GameState} {pawns : List Char}

theorem serializePawnRow_chars (h : serializePawnRow g = .ok pawns) :
    ∀ c ∈ pawns, c = pawnStanding ∨ c = pawnKnockedDown := by
  intro c hc
  obtain ⟨i, hi, rfl⟩ := List.mem_iff_getElem.1 hc
  have hall := Fallible.mapM_eq_ok_iff.1 h
  obtain ⟨byte, -, heq⟩ := Fallible.bind_eq_ok_iff.1
    (hall.get (by rw [hall.length_eq]; exact hi) hi)
  rw [show pawns[i] = _ from (Except.ok.inj heq).symm]
  exact ite_eq_or_eq _ _ _

theorem printable_of_wrongMessage (h : displayWrongMessage recvBuffer = .ok D) : D.Printable := by
  obtain ⟨errIdx, -, h⟩ := Fallible.bind_eq_ok_iff.1 h
  obtain ⟨echoed, hechoed, h⟩ := Fallible.bind_eq_ok_iff.1 h
  obtain rfl := Except.ok.inj h
  exact (Fallible.mapM_eq_ok_iff.1 hechoed).length_eq.symm.trans List.length_range

theorem printable_of_gameState (h : displayGameState recvBuffer receivedLen = .ok D) :
    D.Printable := by
  obtain ⟨gameId, -, h⟩ := Fallible.bind_eq_ok_iff.1 h
  obtain ⟨playerA, -, h⟩ := Fallible.bind_eq_ok_iff.1 h
  obtain ⟨playerB, -, h⟩ := Fallible.bind_eq_ok_iff.1 h
  obtain ⟨status, -, h⟩ := Fallible.bind_eq_ok_iff.1 h
  obtain ⟨maxPawn, -, h⟩ := Fallible.bind_eq_ok_iff.1 h
  by_cases hpawns : 0 < UInt64.ofNat receivedLen - 14
  · simp only [if_pos hpawns] at h
    obtain ⟨pawnRow, -, h⟩ := Fallible.bind_eq_ok_iff.1 h
    obtain ⟨pawns, hrow, h⟩ := Fallible.bind_eq_ok_iff.1 h
    obtain rfl := Except.ok.inj h
    exact serializePawnRow_chars hrow
  · simp only [if_neg hpawns] at h
    obtain rfl := Except.ok.inj h
    exact fun _ hc => absurd hc List.not_mem_nil

/-- **Whatever is received**, of any length and content, is displayed as one of these. -/
theorem printable_of_receive {result : ReadResult}
    (h : receiveAndDisplayMessage recvBuffer result = .ok D) : D.Printable := by
  cases result with
  | failed => exact absurd h (by simp [receiveAndDisplayMessage])
  | timedOut =>
      obtain rfl : Display.timeout = D := Except.ok.inj h
      trivial
  | received receivedLen =>
      have hdisplay : displayMessage recvBuffer receivedLen = .ok D := by
        cases hd : displayMessage recvBuffer receivedLen with
        | error e => exact absurd h (by simp [receiveAndDisplayMessage, hd, Except.mapError])
        | ok D' => simpa [receiveAndDisplayMessage, hd, Except.mapError] using h
      obtain ⟨wrong, -, hdisplay⟩ := Fallible.bind_eq_ok_iff.1 hdisplay
      cases wrong with
      | true => exact printable_of_wrongMessage hdisplay
      | false => exact printable_of_gameState hdisplay

end Displayed

/-! ## Reading the text back -/

section Text

variable {n n' : ℕ} {pawns : List Char} {D D' : Display}

theorem decimal_inj (h : decimal n = decimal n') : n = n' := by
  rw [← (isDecimal_toDigits n).value, ← (isDecimal_toDigits n').value]
  exact congrArg (fun text => Nat.ofDigitChars 10 text 0) h

theorem head_text (D : Display) : D.text.head? = some D.initial := by
  cases D <;> rfl

theorem notMem_decimal {c : Char} (hc : c.isDigit = false) (n : ℕ) : c ∉ decimal n := fun hmem =>
  absurd (hc.symm.trans ((isDecimal_toDigits n).digits c hmem)) (by simp)

theorem ofUInt8_injective : Function.Injective Char.ofUInt8 := by
  intro b b' h
  have hval : b.toUInt32 = b'.toUInt32 := congrArg Char.val h
  exact UInt8.toUInt32_inj.1 hval

theorem cString_of_pawns (h : ∀ c ∈ pawns, c = pawnStanding ∨ c = pawnKnockedDown) :
    cString pawns = pawns := by
  refine List.takeWhile_eq_self_iff.2 fun c hc => ?_
  rcases h c hc with rfl | rfl <;> decide

/-- The line of a game: its fields, closed by a line break. -/
theorem text_gameState_inj {id a b id' a' b' : UInt32} {status max status' max' : UInt8}
    {pawns' : List Char} (hD : (Display.gameState id a b status max pawns).Printable)
    (hD' : (Display.gameState id' a' b' status' max' pawns').Printable)
    (h : (Display.gameState id a b status max pawns).text =
      (Display.gameState id' a' b' status' max' pawns').text) :
    Display.gameState id a b status max pawns = .gameState id' a' b' status' max' pawns' := by
  have hclean : ∀ (n₁ n₂ n₃ n₄ n₅ : ℕ) {pawns : List Char},
      (∀ c ∈ pawns, c = pawnStanding ∨ c = pawnKnockedDown) → Tokens.Clean '/'
        [decimal n₁, decimal n₂, decimal n₃, decimal n₄, decimal n₅, pawns] := by
    intro n₁ n₂ n₃ n₄ n₅ pawns hpawns
    have hrow : '/' ∉ pawns := by
      intro hmem
      rcases hpawns _ hmem with hc | hc <;> exact absurd hc (by decide)
    have hfield : ∀ n, '/' ∉ decimal n := notMem_decimal rfl
    exact .cons (hfield n₁) <| .cons (hfield n₂) <| .cons (hfield n₃) <| .cons (hfield n₄) <|
      .cons (hfield n₅) <| .cons hrow fun _ ht => absurd ht List.not_mem_nil
  have hline := List.append_cancel_right (List.append_cancel_left h)
  rw [cString_of_pawns hD, cString_of_pawns hD'] at hline
  have hwrite := congrArg (· ++ ['/']) hline
  simp only [← Tokens.write_eq_intercalate (List.cons_ne_nil _ _)] at hwrite
  have hfields := Tokens.write_inj (hclean _ _ _ _ _ hD) (hclean _ _ _ _ _ hD') hwrite
  simp only [List.cons.injEq, and_true] at hfields
  obtain ⟨hid, ha, hb, hstatus, hmax, rfl⟩ := hfields
  rw [UInt32.toNat_inj.1 (decimal_inj hid), UInt32.toNat_inj.1 (decimal_inj ha),
    UInt32.toNat_inj.1 (decimal_inj hb), UInt8.toNat_inj.1 (decimal_inj hstatus),
    UInt8.toNat_inj.1 (decimal_inj hmax)]

/-- The echoed bytes are as many as were meant, whatever they are. -/
theorem text_wrongMessage_inj {echoed echoed' : Bytes} {e e' : UInt8}
    (hD : (Display.wrongMessage echoed e).Printable)
    (hD' : (Display.wrongMessage echoed' e').Printable)
    (h : (Display.wrongMessage echoed e).text = (Display.wrongMessage echoed' e').text) :
    Display.wrongMessage echoed e = .wrongMessage echoed' e' := by
  have hbody := List.append_cancel_left (List.append_cancel_left h)
  have hlength : (echoed.map Char.ofUInt8).length = (echoed'.map Char.ofUInt8).length := by
    rw [List.length_map, List.length_map]
    exact Eq.trans hD (Eq.symm hD')
  obtain ⟨hechoed, hrest⟩ := List.append_inj hbody hlength
  have hindex := List.append_cancel_right (List.append_cancel_left hrest)
  rw [List.map_injective_iff.2 ofUInt8_injective hechoed, UInt8.toNat_inj.1 (decimal_inj hindex)]

end Text

/-- **The text tells what was received.** Whatever datagrams the client receives into whatever
    buffers, it prints the same text for two of them only if it displays the same: the same timeout,
    the same error report on the same bytes, or the same game with the same players, status and
    pawns. -/
theorem printed_text_injective {recvBuffer recvBuffer' : Bytes} {result result' : ReadResult}
    {D D' : Display} (h : receiveAndDisplayMessage recvBuffer result = .ok D)
    (h' : receiveAndDisplayMessage recvBuffer' result' = .ok D') (htext : D.text = D'.text) :
    D = D' := by
  have hD := printable_of_receive h
  have hD' := printable_of_receive h'
  -- the first character tells the three kinds apart
  have hhead : D.initial = D'.initial := by
    rw [← Option.some_inj, ← head_text, ← head_text, htext]
  cases D with
  | timeout =>
      cases D' with
      | timeout => rfl
      | wrongMessage _ _ | gameState _ _ _ _ _ _ => simp [Display.initial] at hhead
  | wrongMessage _ _ =>
      cases D' with
      | wrongMessage _ _ => exact text_wrongMessage_inj hD hD' htext
      | timeout | gameState _ _ _ _ _ _ => simp [Display.initial] at hhead
  | gameState _ _ _ _ _ _ =>
      cases D' with
      | gameState _ _ _ _ _ _ => exact text_gameState_inj hD hD' htext
      | timeout | wrongMessage _ _ => simp [Display.initial] at hhead

/-- Two buffers that differ behind the bytes received print the same text. -/
theorem printed_text_injective_longer :
    List.replicate 12 (10 : UInt8) ++ [255, 3, 0] ≠ List.replicate 12 10 ++ [255, 3, 47] ∧
    receiveAndDisplayMessage (List.replicate 12 10 ++ [255, 3, 0]) (.received 14) =
      receiveAndDisplayMessage (List.replicate 12 10 ++ [255, 3, 47]) (.received 14) := by
  have h : receiveAndDisplayMessage (List.replicate 12 10 ++ [255, 3, 0]) (.received 14) =
      .ok (.wrongMessage (List.replicate 12 10) 3) := rfl
  have h' : receiveAndDisplayMessage (List.replicate 12 10 ++ [255, 3, 47]) (.received 14) =
      .ok (.wrongMessage (List.replicate 12 10) 3) := rfl
  refine ⟨by decide, h.trans ?_⟩
  rw [printed_text_injective h h' rfl]
  exact h'.symm

end Kayles
