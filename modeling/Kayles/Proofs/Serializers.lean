import Kayles.Implementation.ClientMessages
import Kayles.Lib.Fallible
import Kayles.Proofs.Handlers
import Kayles.Proofs.Numerals
import Kayles.Proofs.Splitting

set_option autoImplicit false

/-! # The serializers of the client

What `serialize_message` returns: the type byte and the converted fields behind each other, if every
field is converted, and the text of a `fatal` otherwise. No write leaves the buffer. -/

namespace Kayles.Client

/-! ## Fields -/

section Fields

variable {parts : List (List Char)} {field : Field} {e : Exit}

theorem extractU32Field_of_getElem? {text : List Char} (h : parts[field.idx]? = some text) :
    (∃ val, extractU32Field parts field = .ok val) ↔ ∃ val, stoul text = .ok val := by
  rw [extractU32Field, h]
  cases hval : stoul text with
  | ok val => simp [hval]
  | error _ => simp [hval]

theorem extractU32Field_of_ok {text : List Char} {val : UInt64}
    (h : parts[field.idx]? = some text) (hval : stoul text = .ok val) :
    extractU32Field parts field = .ok val.toUInt32 := by
  rw [extractU32Field, h]
  simp [hval]

theorem extractU32Field_error (h : extractU32Field parts field = .error e) :
    ∃ message, e = .fatal message := by
  unfold extractU32Field at h
  split at h
  · exact ⟨_, (Except.error.inj h).symm⟩
  · split at h
    · simp at h
    · exact ⟨_, (Except.error.inj h).symm⟩

/-- The fields are written behind each other. -/
theorem writeFields_eq (p : List (List Char)) (fields : List Field) (out rest : Bytes) {off : ℕ}
    (hoff : off = out.length) :
    writeFields p fields (out ++ (List.replicate (4 * fields.length) 0 ++ rest)) off =
      (fields.mapM (extractU32Field p)).map fun vals =>
        (out ++ (vals.flatMap htonl ++ rest), off + 4 * fields.length) := by
  induction fields generalizing out off with
  | nil => rfl
  | cons field fields ih =>
      rw [writeFields, List.mapM_cons]
      cases extractU32Field p field with
      | error e => rfl
      | ok val =>
          have hzero : List.replicate (4 * (field :: fields).length) (0 : UInt8) ++ rest =
              0 :: 0 :: 0 :: 0 :: (List.replicate (4 * fields.length) 0 ++ rest) := rfl
          have hwrite := writeU32_append out (List.replicate (4 * fields.length) 0 ++ rest) off val hoff
          have hout : off + 4 = (out ++ htonl val).length := by
            rw [hoff, List.length_append]
            rfl
          have hrest := ih (out ++ htonl val) hout
          rw [List.append_assoc] at hrest
          simp only [hzero, bind, Except.bind, hwrite, Except.mapError, hrest]
          cases fields.mapM (extractU32Field p) with
          | error e => rfl
          | ok vals =>
              have hoff' : off + 4 + 4 * fields.length = off + 4 * (fields.length + 1) := by omega
              simp [Except.map, pure, Except.pure, List.append_assoc, hoff']

/-- The buffer of a serializer before its fields are written. -/
theorem resize_singleton (b : UInt8) (n : ℕ) : resize [b] (n + 1) = b :: List.replicate n 0 := by
  simp [resize]

theorem length_flatMap_htonl (vals : List UInt32) :
    (vals.flatMap htonl).length = 4 * vals.length := by
  induction vals with
  | nil => rfl
  | cons val vals ih =>
      rw [List.flatMap_cons, List.length_append, ih, List.length_cons, Nat.mul_succ, Nat.add_comm]
      rfl

end Fields

/-! ## Serializers -/

section Serializers

variable {expectedParts size : ℕ} {usage : String} {fields : List Field} {pawn : Option Field}
  {p : List (List Char)} {b : UInt8}

/-- **A serializer** writes the type byte, the fields of four bytes and the byte of the pawn. -/
theorem serializeFields_eq (hsize : size = 4 * fields.length + pawn.toList.length + 1)
    (hp : p.length = expectedParts) :
    serializeFields expectedParts size usage fields pawn p [b] = do
      let vals ← fields.mapM (extractU32Field p)
      let pawns ← pawn.toList.mapM (extractU32Field p)
      return b :: (vals.flatMap htonl ++ pawns.map UInt32.toUInt8) := by
  have hresize : resize [b] size = [b] ++ (List.replicate (4 * fields.length) 0 ++
      List.replicate pawn.toList.length 0) := by
    rw [hsize, resize_singleton, List.replicate_append_replicate]
    rfl
  have hwrite := writeFields_eq p fields [b] (List.replicate pawn.toList.length 0) rfl
  rw [serializeFields, if_neg (not_not.2 hp), hresize, show 1 = [b].length from rfl, hwrite]
  cases hvals : fields.mapM (extractU32Field p) with
  | error e => rfl
  | ok vals =>
      cases pawn with
      | none => simp [Except.map, bind, Except.bind, pure, Except.pure]
      | some field =>
          have hoff : [b].length + 4 * fields.length = ([b] ++ vals.flatMap htonl).length := by
            rw [List.length_append, length_flatMap_htonl,
              (Fallible.mapM_eq_ok_iff.1 hvals).length_eq]
          rw [Option.toList_some, List.mapM_cons, List.mapM_nil]
          simp only [Except.map, bind, Except.bind]
          cases extractU32Field p field with
          | error e => rfl
          | ok val =>
              have hstore : storeByte ([b] ++ (vals.flatMap htonl ++ [0]))
                  ([b].length + 4 * fields.length) val.toUInt8 =
                  .ok (b :: (vals.flatMap htonl ++ [val.toUInt8])) := by
                have happ := storeByte_append ([b] ++ vals.flatMap htonl) _ 0 val.toUInt8 [] hoff
                rwa [List.append_assoc, List.append_assoc] at happ
              exact congrArg (Except.mapError Exit.fault) hstore

theorem serializeFields_of_ok (usage : String) (b : UInt8) {vals pawns : List UInt32}
    (hsize : size = 4 * fields.length + pawn.toList.length + 1) (hp : p.length = expectedParts)
    (hvals : List.Forall₂ (fun field val => extractU32Field p field = .ok val) fields vals)
    (hpawns : List.Forall₂ (fun field val => extractU32Field p field = .ok val) pawn.toList pawns) :
    serializeFields expectedParts size usage fields pawn p [b] =
      .ok (b :: (vals.flatMap htonl ++ pawns.map UInt32.toUInt8)) := by
  rw [serializeFields_eq hsize hp, Fallible.mapM_eq_ok_iff.2 hvals, Fallible.mapM_eq_ok_iff.2 hpawns]
  rfl

/-- Which texts a serializer accepts. -/
theorem exists_serializeFields_iff (hsize : size = 4 * fields.length + pawn.toList.length + 1) :
    (∃ payload, serializeFields expectedParts size usage fields pawn p [b] = .ok payload) ↔
      p.length = expectedParts ∧
        ∀ field ∈ fields ++ pawn.toList, ∃ val, extractU32Field p field = .ok val := by
  by_cases hp : p.length = expectedParts
  · rw [serializeFields_eq hsize hp, List.forall_mem_append, ← Fallible.exists_mapM_eq_ok_iff,
      ← Fallible.exists_mapM_eq_ok_iff]
    cases fields.mapM (extractU32Field p) with
    | error e => simp [bind, Except.bind]
    | ok vals =>
        cases pawn.toList.mapM (extractU32Field p) with
        | error e => simp [bind, Except.bind]
        | ok pawns => simp [bind, Except.bind, pure, Except.pure, hp]
  · simp [serializeFields, hp]

/-- Where a serializer fails, it ends in `fatal`. -/
theorem serializeFields_error {e : Exit} (hsize : size = 4 * fields.length + pawn.toList.length + 1)
    (h : serializeFields expectedParts size usage fields pawn p [b] = .error e) :
    ∃ message, e = .fatal message := by
  by_cases hp : p.length = expectedParts
  · rw [serializeFields_eq hsize hp] at h
    cases hvals : fields.mapM (extractU32Field p) with
    | error e' =>
        rw [hvals] at h
        obtain ⟨field, -, hfield⟩ := Fallible.exists_of_mapM_eq_error hvals
        obtain rfl : e' = e := Except.error.inj h
        exact extractU32Field_error hfield
    | ok vals =>
        cases hpawns : pawn.toList.mapM (extractU32Field p) with
        | error e' =>
            rw [hvals, hpawns] at h
            obtain ⟨field, -, hfield⟩ := Fallible.exists_of_mapM_eq_error hpawns
            obtain rfl : e' = e := Except.error.inj h
            exact extractU32Field_error hfield
        | ok pawns =>
            rw [hvals, hpawns] at h
            simp [bind, Except.bind, pure, Except.pure] at h
  · rw [serializeFields, if_pos hp] at h
    exact ⟨usage, (Except.error.inj h).symm⟩

end Serializers

/-! ## Messages -/

/-- The number of fields of each type. -/
def fieldCount (type : UInt8) : ℕ :=
  match type.toNat with
  | 0 => 1
  | 1 => 3
  | 2 => 3
  | _ => 2

/-- Every type has a serializer, which takes the parts after the type in order. -/
theorem serializers_of_le {t : UInt8} (ht : t ≤ 4) : ∃ size usage fields pawn,
    serializers t = some (serializeFields (fieldCount t + 1) size usage fields pawn) ∧
      size = 4 * fields.length + pawn.toList.length + 1 ∧
      (fields ++ pawn.toList).map Field.idx = List.range' 1 (fieldCount t) := by
  rcases toNat_of_le_four ht with rfl | rfl | rfl | rfl | rfl
  · exact ⟨_, _, _, _, rfl, rfl, rfl⟩
  · exact ⟨_, _, _, _, rfl, rfl, rfl⟩
  · exact ⟨_, _, _, _, rfl, rfl, rfl⟩
  · exact ⟨_, _, _, _, rfl, rfl, rfl⟩
  · exact ⟨_, _, _, _, rfl, rfl, rfl⟩

/-- The fields of a serializer are the parts after the type. -/
theorem forall_fields_iff {fields : List Field} {first : List Char} {texts : List (List Char)}
    (hfields : fields.map Field.idx = List.range' 1 texts.length) :
    (∀ field ∈ fields, ∃ val, extractU32Field (first :: texts) field = .ok val) ↔
      ∀ text ∈ texts, ∃ val, stoul text = .ok val := by
  have hlen : fields.length = texts.length := by
    rw [← List.length_map Field.idx, hfields, List.length_range']
  have hpart : ∀ (k : ℕ) (hf : k < fields.length) (ht : k < texts.length),
      (first :: texts)[fields[k].idx]? = some texts[k] := by
    intro k hf ht
    have hidx : fields[k].idx = k + 1 := by
      have hget := congrArg (fun l : List ℕ => l[k]?) hfields
      simp [hf, ht] at hget
      omega
    rw [hidx, List.getElem?_cons_succ, List.getElem?_eq_getElem ht]
  constructor
  · intro hall text htext
    obtain ⟨k, hk, rfl⟩ := List.getElem_of_mem htext
    have hf : k < fields.length := hlen ▸ hk
    exact (extractU32Field_of_getElem? (hpart k hf hk)).1 (hall _ (List.getElem_mem hf))
  · intro hall field hfield
    obtain ⟨k, hk, rfl⟩ := List.getElem_of_mem hfield
    have ht : k < texts.length := hlen ▸ hk
    exact (extractU32Field_of_getElem? (hpart k hk ht)).2 (hall _ (List.getElem_mem ht))

section Messages

variable {m first : List Char} {texts : List (List Char)} {t : UInt8}

/-- A message either ends in `fatal` at its type or has one of the five. -/
theorem serializeMessage_type (m : List Char) :
    (∃ message, serializeMessage m = .error (.fatal message)) ∨
      ∃ (first : List Char) (texts : List (List Char)) (t : UInt8),
        splitMessage m delimiter = first :: texts ∧ t ≤ 4 ∧ stoi first = .ok (t.toNat : Int) := by
  cases hsplit : splitMessage m delimiter with
  | nil => exact .inl ⟨_, by rw [serializeMessage, hsplit]⟩
  | cons first texts =>
      cases htype : stoi first with
      | error e =>
          refine .inl ⟨"invalid message type", ?_⟩
          simp [serializeMessage, hsplit, htype]
      | ok typeRaw =>
          by_cases hrange : typeRaw < 0 ∨ 4 < typeRaw
          · refine .inl ⟨"invalid message type", ?_⟩
            simp [serializeMessage, hsplit, htype, hrange]
          · have hnat : (UInt8.ofNat typeRaw.toNat).toNat = typeRaw.toNat :=
              UInt8.toNat_ofNat_of_lt' (by show _ < 256; omega)
            refine .inr ⟨first, texts, UInt8.ofNat typeRaw.toNat, rfl, ?_, ?_⟩
            · rw [UInt8.le_iff_toNat_le, hnat]
              show _ ≤ 4
              omega
            · rw [htype, hnat, Int.toNat_of_nonneg (by omega)]

theorem serializeMessage_eq (hsplit : splitMessage m delimiter = first :: texts) (ht : t ≤ 4)
    (htype : stoi first = .ok (t.toNat : Int)) {serializer : SerializerFunction}
    (hserializer : serializers t = some serializer) :
    serializeMessage m = serializer (first :: texts) [t] := by
  have hle : t.toNat ≤ 4 := UInt8.le_iff_toNat_le.1 ht
  have hrange : ¬ ((t.toNat : Int) < minMessageType ∨ maxMessageType < (t.toNat : Int)) := by
    show ¬ ((t.toNat : Int) < 0 ∨ 4 < (t.toNat : Int))
    omega
  have hcast : UInt8.ofInt (t.toNat : Int) = t := by
    rcases toNat_of_le_four ht with rfl | rfl | rfl | rfl | rfl <;> rfl
  simp only [serializeMessage, hsplit, htype, if_neg hrange, hcast, hserializer]

/-- Which messages of a known type are accepted; the others end in `fatal`. -/
theorem serializeMessage_of_type (hsplit : splitMessage m delimiter = first :: texts) (ht : t ≤ 4)
    (htype : stoi first = .ok (t.toNat : Int)) :
    ((∃ payload, serializeMessage m = .ok payload) ↔
      texts.length = fieldCount t ∧ ∀ text ∈ texts, ∃ val, stoul text = .ok val) ∧
    ∀ e, serializeMessage m = .error e → ∃ message, e = .fatal message := by
  obtain ⟨size, usage, fields, pawn, hserializer, hsize, hfields⟩ := serializers_of_le ht
  rw [serializeMessage_eq hsplit ht htype hserializer]
  refine ⟨?_, fun e he => serializeFields_error hsize he⟩
  rw [exists_serializeFields_iff hsize, List.length_cons, Nat.add_right_cancel_iff]
  refine and_congr_right fun hlen => forall_fields_iff ?_
  rw [hfields, hlen]

end Messages

end Kayles.Client
