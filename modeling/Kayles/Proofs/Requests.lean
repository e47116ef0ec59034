import Kayles.Proofs.Serializers

set_option autoImplicit false

/-! # Requests

The client writes what the server reads: the number of fields, their order, their width and the
types are the same in the two programs. But the client also writes for texts that are not messages,
since its conversions stop at the first character that is no digit and its casts keep the low
bits. -/

namespace Kayles

open Client (serializeMessage fieldCount)

/-! ## The text of a request -/

/-- The numbers in the text of a message after its type. -/
def requestFields (t : UInt8) (p g : UInt32) (i : UInt8) : List ℕ :=
  match t.toNat with
  | 0 => [p.toNat]
  | 1 => [p.toNat, g.toNat, i.toNat]
  | 2 => [p.toNat, g.toNat, i.toNat]
  | _ => [p.toNat, g.toNat]

/-- The text `t/p/…` in decimal. -/
def IsRequest (m : List Char) (t : UInt8) (p g : UInt32) (i : UInt8) : Prop :=
  ∃ first texts, m = ['/'].intercalate (first :: texts) ∧ IsDecimal first t.toNat ∧
    List.Forall₂ IsDecimal texts (requestFields t p g i)

/-- The bytes of a message. -/
def requestBytes (t : UInt8) (p g : UInt32) (i : UInt8) : Bytes :=
  match t.toNat with
  | 0 => t :: htonl p
  | 1 => t :: (htonl p ++ (htonl g ++ [i]))
  | 2 => t :: (htonl p ++ (htonl g ++ [i]))
  | _ => t :: (htonl p ++ htonl g)

section Request

variable {m text : List Char} {texts : List (List Char)} {n : ℕ} {t i : UInt8} {p g : UInt32}

theorem IsDecimal.delimiter_notMem (h : IsDecimal text n) : '/' ∉ text := by
  intro hmem
  exact absurd (h.digits _ hmem) (by decide)

theorem exists_isDecimal_of_mem {ns : List ℕ}
    (h : List.Forall₂ IsDecimal texts ns) : ∀ text ∈ texts, ∃ n, IsDecimal text n := by
  induction h with
  | nil => exact fun _ hmem => absurd hmem List.not_mem_nil
  | cons htext _ ih => exact List.forall_mem_cons.2 ⟨⟨_, htext⟩, ih⟩

/-- The parts of a request are its numerals. -/
theorem IsRequest.split (h : IsRequest m t p g i) : ∃ first texts,
    splitMessage m '/' = first :: texts ∧ IsDecimal first t.toNat ∧
      List.Forall₂ IsDecimal texts (requestFields t p g i) := by
  obtain ⟨first, texts, hm, hfirst, htexts⟩ := h
  have hdecimal : ∀ text ∈ first :: texts, ∃ n, IsDecimal text n :=
    List.forall_mem_cons.2 ⟨⟨_, hfirst⟩, exists_isDecimal_of_mem htexts⟩
  refine ⟨first, texts, ?_, hfirst, htexts⟩
  refine splitMessage_intercalate (List.cons_ne_nil _ _) ?_ ?_ (.inl hm)
  · intro text htext
    obtain ⟨n, hn⟩ := hdecimal text htext
    exact hn.delimiter_notMem
  · intro text htext
    obtain ⟨n, hn⟩ := hdecimal text htext
    exact hn.ne_nil

theorem extractU32Field_of_decimal {parts : List (List Char)} {field : Client.Field}
    {val : UInt32} (hpart : parts[field.idx]? = some text) (h : IsDecimal text val.toNat) :
    Client.extractU32Field parts field = .ok val := by
  have hle : val.toNat ≤ ulongMax := Nat.le_trans (Nat.le_of_lt val.toNat_lt) (by decide)
  rw [Client.extractU32Field_of_ok hpart (h.stoul hle)]
  congr 1
  simp

/-- The serializer of a JOIN. -/
theorem serializeFields_id (usage : String) (t : UInt8) (first : List Char)
    (h : List.Forall₂ IsDecimal texts [p.toNat]) :
    Client.serializeFields 2 5 usage [⟨1, "player_id"⟩] none (first :: texts) [t] =
      .ok (t :: htonl p) := by
  obtain _ | @⟨a, _, _, _, hp, _ | _⟩ := h
  have hids : List.Forall₂ (fun field val => Client.extractU32Field [first, a] field = .ok val)
      [⟨1, "player_id"⟩] [p] :=
    .cons (extractU32Field_of_decimal rfl hp) .nil
  have hpawn : List.Forall₂ (fun field val => Client.extractU32Field [first, a] field = .ok val)
      (none : Option Client.Field).toList [] := .nil
  have hserialize := Client.serializeFields_of_ok usage t rfl rfl hids hpawn
  simpa using hserialize

/-- The serializers of the messages with two ids and nothing else. -/
theorem serializeFields_ids (usage : String) (t : UInt8) (first : List Char)
    (h : List.Forall₂ IsDecimal texts [p.toNat, g.toNat]) :
    Client.serializeFields 3 9 usage [⟨1, "player_id"⟩, ⟨2, "game_id"⟩] none (first :: texts) [t] =
      .ok (t :: (htonl p ++ htonl g)) := by
  obtain _ | @⟨a, _, _, _, hp, _ | @⟨b, _, _, _, hg, _ | _⟩⟩ := h
  have hids : List.Forall₂ (fun field val => Client.extractU32Field [first, a, b] field = .ok val)
      [⟨1, "player_id"⟩, ⟨2, "game_id"⟩] [p, g] :=
    .cons (extractU32Field_of_decimal rfl hp) (.cons (extractU32Field_of_decimal rfl hg) .nil)
  have hpawn : List.Forall₂ (fun field val => Client.extractU32Field [first, a, b] field = .ok val)
      (none : Option Client.Field).toList [] := .nil
  have hserialize := Client.serializeFields_of_ok usage t rfl rfl hids hpawn
  simpa using hserialize

/-- The serializers of the two moves. -/
theorem serializeFields_move (usage : String) (t : UInt8) (first : List Char)
    (h : List.Forall₂ IsDecimal texts [p.toNat, g.toNat, i.toNat]) :
    Client.serializeFields 4 10 usage [⟨1, "player_id"⟩, ⟨2, "game_id"⟩] (some ⟨3, "pawn_idx"⟩)
      (first :: texts) [t] = .ok (t :: (htonl p ++ (htonl g ++ [i]))) := by
  obtain _ | @⟨a, _, _, _, hp, _ | @⟨b, _, _, _, hg, _ | @⟨c, _, _, _, hi, _ | _⟩⟩⟩ := h
  have hids : List.Forall₂ (fun field val => Client.extractU32Field [first, a, b, c] field = .ok val)
      [⟨1, "player_id"⟩, ⟨2, "game_id"⟩] [p, g] :=
    .cons (extractU32Field_of_decimal rfl hp) (.cons (extractU32Field_of_decimal rfl hg) .nil)
  have hi' : IsDecimal c i.toUInt32.toNat := hi
  have hpawn : List.Forall₂ (fun field val => Client.extractU32Field [first, a, b, c] field = .ok val)
      (some (⟨3, "pawn_idx"⟩ : Client.Field)).toList [i.toUInt32] :=
    .cons (extractU32Field_of_decimal rfl hi') .nil
  have hserialize := Client.serializeFields_of_ok usage t rfl rfl hids hpawn
  simpa using hserialize

/-- **The client** writes a request field by field. -/
theorem serializeMessage_of_isRequest (ht : t ≤ 4) (h : IsRequest m t p g i) :
    serializeMessage m = .ok (requestBytes t p g i) := by
  obtain ⟨first, texts, hsplit, hfirst, htexts⟩ := h.split
  have htype : stoi first = .ok (t.toNat : Int) :=
    hfirst.stoi (Nat.le_trans (Nat.le_of_lt t.toNat_lt) (by decide))
  rcases toNat_of_le_four ht with rfl | rfl | rfl | rfl | rfl
  · rw [Client.serializeMessage_eq hsplit ht htype rfl]
    exact serializeFields_id _ 0 first htexts
  · rw [Client.serializeMessage_eq hsplit ht htype rfl]
    exact serializeFields_move _ 1 first htexts
  · rw [Client.serializeMessage_eq hsplit ht htype rfl]
    exact serializeFields_move _ 2 first htexts
  · rw [Client.serializeMessage_eq hsplit ht htype rfl]
    exact serializeFields_ids _ 3 first htexts
  · rw [Client.serializeMessage_eq hsplit ht htype rfl]
    exact serializeFields_ids _ 4 first htexts

end Request

/-! ## The server reads what the client writes -/

/-- The handler begins with the check that a message has `size` bytes. -/
def ChecksLength (handler : MessageHandler) (size : ℕ) : Prop :=
  ∃ handle : Env → GameState → Bytes → ℕ → ServerState → UInt32 →
      Except Fault (ServerState × Output),
    ∀ env tmpl buf len s, handler env tmpl buf len s =
      checkLengthAndPlayer size buf len s (handle env tmpl buf len s)

/-- The server dispatches the datagram to the handler of `t`, which finds its length right and reads
    the fields of the request. -/
structure ReadBack (t : UInt8) (p g : UInt32) (i : UInt8) (d : Datagram) : Prop where
  handled : ∃ handler size, handlers t = some handler ∧ ChecksLength handler size ∧ d.len = size ∧
    ∀ env tmpl s, decodeAndVerifyMessage env tmpl d.buf d.len s = handler env tmpl d.buf d.len s
  playerId : readU32 d.buf offPlayerId = .ok p
  gameId : t ≠ 0 → readU32 d.buf offGameId = .ok g
  pawnIdx : t = 1 ∨ t = 2 → loadByte d.buf offPawnIdx = .ok i

section ReadBack

variable {t i : UInt8} {p g : UInt32} {d : Datagram}

theorem requestBytes_playerId (t : UInt8) (p g : UInt32) (i : UInt8) :
    ∃ tail, requestBytes t p g i = [t] ++ (htonl p ++ tail) := by
  unfold requestBytes
  split
  · exact ⟨[], by rw [List.append_nil]; rfl⟩
  · exact ⟨_, rfl⟩
  · exact ⟨_, rfl⟩
  · exact ⟨_, rfl⟩

theorem requestBytes_gameId (ht : t ≠ 0) (p g : UInt32) (i : UInt8) :
    ∃ tail, requestBytes t p g i = [t] ++ htonl p ++ (htonl g ++ tail) := by
  unfold requestBytes
  split
  · rename_i hzero
    exact absurd (UInt8.toNat_inj.1 hzero) ht
  · exact ⟨_, rfl⟩
  · exact ⟨_, rfl⟩
  · exact ⟨[], by rw [List.append_nil]; rfl⟩

theorem requestBytes_pawnIdx (ht : t = 1 ∨ t = 2) (p g : UInt32) (i : UInt8) :
    requestBytes t p g i = [t] ++ htonl p ++ htonl g ++ [i] := by
  rcases ht with rfl | rfl <;> rfl

/-- The client's sizes are the server's. -/
theorem length_requestBytes (ht : t ≤ 4) (p g : UInt32) (i : UInt8) :
    (requestBytes t p g i).length = Datagram.messageSize t := by
  rcases toNat_of_le_four ht with rfl | rfl | rfl | rfl | rfl <;> rfl

theorem checksLength_handlers (ht : t ≤ 4) :
    ∃ handler, handlers t = some handler ∧ ChecksLength handler (Datagram.messageSize t) := by
  rcases toNat_of_le_four ht with rfl | rfl | rfl | rfl | rfl
  · exact ⟨handleJoinGame, rfl, _, fun _ _ _ _ _ => rfl⟩
  · exact ⟨handleMakeMoveOne, rfl, _, fun _ _ _ _ _ => rfl⟩
  · exact ⟨handleMakeMoveTwo, rfl, _, fun _ _ _ _ _ => rfl⟩
  · exact ⟨handleKeepAlive, rfl, _, fun _ _ _ _ _ => rfl⟩
  · exact ⟨handleGiveUp, rfl, _, fun _ _ _ _ _ => rfl⟩

/-- **The server** reads the fields of a request where the client has written them. -/
theorem readBack_of_bytes (ht : t ≤ 4) (hd : d.buf.take d.len = requestBytes t p g i) :
    ReadBack t p g i d := by
  have hbuf : d.buf = requestBytes t p g i ++ d.buf.drop d.len := by
    rw [← hd, List.take_append_drop]
  have hlen : d.len = Datagram.messageSize t := by
    have hle : d.len ≤ d.buf.length := by
      rw [d.buf_length]
      exact Nat.le_trans d.len_le (Nat.sub_le _ _)
    rw [← length_requestBytes ht p g i, ← hd, List.length_take_of_le hle]
  generalize d.buf.drop d.len = rest at hbuf
  refine ⟨?_, ?_, ?_, ?_⟩
  · obtain ⟨handler, hhandler, hcheck⟩ := checksLength_handlers ht
    refine ⟨handler, _, hhandler, hcheck, hlen, fun env tmpl s => ?_⟩
    have hne : d.len ≠ 0 := by
      rw [hlen, ← length_requestBytes ht p g i]
      obtain ⟨tail, htail⟩ := requestBytes_playerId t p g i
      rw [htail]
      exact Nat.succ_ne_zero _
    have htype : loadByte d.buf 0 = .ok t := by
      obtain ⟨tail, htail⟩ := requestBytes_playerId t p g i
      rw [hbuf, htail]
      rfl
    rw [decodeAndVerifyMessage, if_neg hne, htype]
    simp only [bind, Except.bind, hhandler]
  · obtain ⟨tail, htail⟩ := requestBytes_playerId t p g i
    rw [hbuf, htail, List.append_assoc, List.append_assoc]
    exact readU32_append [t] _ p offPlayerId rfl
  · intro hne
    obtain ⟨tail, htail⟩ := requestBytes_gameId hne p g i
    rw [hbuf, htail, List.append_assoc, List.append_assoc (htonl g)]
    exact readU32_append ([t] ++ htonl p) _ g offGameId rfl
  · intro hmove
    rw [hbuf, requestBytes_pawnIdx hmove, List.append_assoc]
    exact loadByte_append ([t] ++ htonl p ++ htonl g) rest i offPawnIdx rfl

end ReadBack

/-- **The request format** of the two programs agrees: the text of a request of every type and with
    all fields is written by the client, fits a datagram, and is read back by the server. -/
theorem request_round_trip {m : List Char} {t i : UInt8} {p g : UInt32} (ht : t ≤ 4)
    (hm : IsRequest m t p g i) :
    ∃ payload, serializeMessage m = .ok payload ∧ payload.length ≤ bufferSize - 1 ∧
      ∀ d : Datagram, d.buf.take d.len = payload → ReadBack t p g i d := by
  refine ⟨requestBytes t p g i, serializeMessage_of_isRequest ht hm, ?_, ?_⟩
  · rw [length_requestBytes ht]
    unfold Datagram.messageSize
    split <;> decide
  · exact fun d hd => readBack_of_bytes ht hd

theorem request_round_trip_move :
    ∃ payload, serializeMessage ['1', '/', '7', '/', '3', '/', '2', '5', '5'] = .ok payload ∧
      payload.length ≤ bufferSize - 1 ∧
      ∀ d : Datagram, d.buf.take d.len = payload → ReadBack 1 7 3 255 d := by
  refine request_round_trip (by decide) ⟨['1'], [['7'], ['3'], ['2', '5', '5']], rfl, ?_, ?_⟩
  · exact isDecimal_toDigits 1
  · exact .cons (isDecimal_toDigits 7) (.cons (isDecimal_toDigits 3)
      (.cons (isDecimal_toDigits 255) .nil))

/-! ## What the client accepts -/

/-- The text of a message of one of the five types. -/
def Grammatical (m : List Char) : Prop := ∃ t p g i, t ≤ 4 ∧ IsRequest m t p g i

/-- A text that the conversions let pass: with a delimiter at the end, with blanks and signs before
    the numbers, with other characters behind them, or with numbers that need up to 64 bits. -/
def Lenient (m : List Char) : Prop :=
  ∃ first texts, Tokens.Clean '/' (first :: texts) ∧
    (m = ['/'].intercalate (first :: texts) ∨ m = ['/'].intercalate (first :: texts) ++ ['/']) ∧
    ∃ (t : UInt8) (negative : Bool), t ≤ 4 ∧ IsNumeral first negative t.toNat ∧
      (negative = true → t = 0) ∧ texts.length = fieldCount t ∧
      ∀ text ∈ texts, ∃ negative n, IsNumeral text negative n ∧ n ≤ ulongMax

/-- The client sends a payload for the text only if it is a message, and else ends in `fatal`. -/
def SendsOnlyText (m : List Char) : Prop :=
  (∀ payload, serializeMessage m = .ok payload → Grammatical m) ∧
    (¬ Grammatical m → ∃ message, serializeMessage m = .error (.fatal message))

section Accepted

variable {m first text : List Char} {texts : List (List Char)} {t : UInt8} {negative : Bool} {n : ℕ}

theorem IsNumeral.ne_nil (h : IsNumeral text negative n) : text ≠ [] := by
  obtain ⟨blanks, sign, digits, rest, rfl, -, -, hdigits, -⟩ := h
  intro hnil
  simp only [List.append_eq_nil_iff] at hnil
  exact hdigits.ne_nil hnil.2.2.1

theorem exists_stoul_iff : (∃ val, stoul text = .ok val) ↔
    ∃ negative n, IsNumeral text negative n ∧ n ≤ ulongMax := by
  simp only [stoul_eq_ok_iff]
  constructor
  · intro hval
    obtain ⟨_, negative, n, hnumeral, hle, -⟩ := hval
    exact ⟨negative, n, hnumeral, hle⟩
  · intro hnumeral
    obtain ⟨negative, n, hnumeral, hle⟩ := hnumeral
    exact ⟨_, negative, n, hnumeral, hle, rfl⟩

theorem stoi_type_iff : stoi first = .ok (t.toNat : Int) ↔
    ∃ negative, IsNumeral first negative t.toNat ∧ (negative = true → t = 0) := by
  have hlt := t.toNat_lt
  rw [stoi_eq_ok_iff]
  constructor
  · intro htype
    obtain ⟨negative, n, hnumeral, hvalue, -⟩ := htype
    cases negative with
    | false =>
        have hn : t.toNat = n := Int.ofNat.inj hvalue
        exact ⟨false, hn ▸ hnumeral, fun h => Bool.noConfusion h⟩
    | true =>
        have hn : t.toNat = n ∧ t.toNat = 0 := by
          rw [if_pos rfl] at hvalue
          omega
        exact ⟨true, hn.1 ▸ hnumeral, fun _ => UInt8.toNat_inj.1 hn.2⟩
  · intro hnumeral
    obtain ⟨negative, hnumeral, hzero⟩ := hnumeral
    refine ⟨negative, t.toNat, hnumeral, ?_, ?_, ?_⟩
    · cases negative with
      | false => rfl
      | true =>
          rw [hzero rfl]
          rfl
    · exact Int.le_trans (by decide) (Int.natCast_nonneg t.toNat)
    · show (t.toNat : Int) ≤ 2147483647
      omega

/-- **The client** accepts exactly the lenient texts. -/
theorem exists_serializeMessage_iff (m : List Char) :
    (∃ payload, serializeMessage m = .ok payload) ↔ Lenient m := by
  constructor
  · intro haccepted
    obtain ⟨payload, hok⟩ := haccepted
    rcases Client.serializeMessage_type m with ⟨message, herror⟩ | ⟨first, texts, t, hsplit, ht, htype⟩
    · rw [hok] at herror
      simp at herror
    · obtain ⟨hcount, htexts⟩ := (Client.serializeMessage_of_type hsplit ht htype).1.1 ⟨payload, hok⟩
      obtain ⟨negative, hfirst, hzero⟩ := stoi_type_iff.1 htype
      have hwrite := write_splitMessage m '/'
      rw [show splitMessage m '/' = first :: texts from hsplit,
        Tokens.write_eq_intercalate (List.cons_ne_nil _ _)] at hwrite
      refine ⟨first, texts, hsplit ▸ clean_splitMessage m '/', ?_, t, negative, ht, hfirst, hzero,
        hcount, fun text htext => exists_stoul_iff.1 (htexts text htext)⟩
      rcases Tokens.close_eq_or '/' m with hclose | hclose
      · exact .inr (hclose.symm.trans hwrite.symm)
      · exact .inl (List.append_cancel_right (hclose.symm.trans hwrite.symm))
  · intro hlenient
    obtain ⟨first, texts, hclean, hm, t, negative, ht, hfirst, hzero, hcount, htexts⟩ := hlenient
    have hsplit : splitMessage m '/' = first :: texts := by
      refine splitMessage_intercalate (List.cons_ne_nil _ _) hclean ?_ hm
      rw [List.forall_mem_cons]
      refine ⟨hfirst.ne_nil, fun text htext => ?_⟩
      obtain ⟨_, _, hnumeral, -⟩ := htexts text htext
      exact hnumeral.ne_nil
    have htype := stoi_type_iff.2 ⟨negative, hfirst, hzero⟩
    refine (Client.serializeMessage_of_type hsplit ht htype).1.2 ⟨hcount, fun text htext => ?_⟩
    exact exists_stoul_iff.2 (htexts text htext)

/-- What the client does not accept ends in `fatal`. -/
theorem serializeMessage_error {e : Exit} (h : serializeMessage m = .error e) :
    ∃ message, e = .fatal message := by
  rcases Client.serializeMessage_type m with ⟨message, herror⟩ | ⟨first, texts, t, hsplit, ht, htype⟩
  · rw [h] at herror
    exact ⟨message, Except.error.inj herror⟩
  · exact (Client.serializeMessage_of_type hsplit ht htype).2 e h

end Accepted

/-- **The client sends only what the text says**, unless the text is lenient without being a
    message. -/
theorem sends_only_text_iff (m : List Char) :
    SendsOnlyText m ↔ ¬ (Lenient m ∧ ¬ Grammatical m) := by
  constructor
  · intro hsends hbad
    obtain ⟨hsend, -⟩ := hsends
    obtain ⟨hlenient, hno⟩ := hbad
    obtain ⟨payload, hok⟩ := (exists_serializeMessage_iff m).2 hlenient
    exact hno (hsend payload hok)
  · intro hno
    have hgram : Lenient m → Grammatical m := fun hlenient => by_contra fun h => hno ⟨hlenient, h⟩
    refine ⟨fun payload hok => hgram ((exists_serializeMessage_iff m).1 ⟨payload, hok⟩), ?_⟩
    intro hnot
    cases hresult : serializeMessage m with
    | ok payload => exact absurd (hgram ((exists_serializeMessage_iff m).1 ⟨payload, hresult⟩)) hnot
    | error e =>
        obtain ⟨message, rfl⟩ := serializeMessage_error hresult
        exact ⟨message, rfl⟩

/-- A JOIN of player 7 with a letter behind the number. -/
theorem not_all_send_only_text : ¬ ∀ m, SendsOnlyText m := by
  intro hall
  obtain ⟨hsend, -⟩ := hall ['0', '/', '7', 'x']
  have hok : serializeMessage ['0', '/', '7', 'x'] = .ok [0, 0, 0, 0, 7] := rfl
  obtain ⟨t, p, g, i, -, hm⟩ := hsend _ hok
  obtain ⟨first, texts, hsplit, -, htexts⟩ := hm.split
  have hparts : first = ['0'] ∧ texts = [['7', 'x']] := by
    have hsplit' : splitMessage ['0', '/', '7', 'x'] '/' = [['0'], ['7', 'x']] := rfl
    rw [hsplit'] at hsplit
    obtain ⟨hfirst, hrest⟩ := List.cons.inj hsplit
    exact ⟨hfirst.symm, hrest.symm⟩
  have hmem : ['7', 'x'] ∈ texts := hparts.2 ▸ List.mem_singleton.2 rfl
  obtain ⟨n, hn⟩ := exists_isDecimal_of_mem htexts _ hmem
  exact absurd (hn.digits 'x' (by decide)) (by decide)

end Kayles
