import Kayles.Implementation.Arguments
import Kayles.Lib.OncePerKey

set_option autoImplicit false

/-! # What the command line accepts

`parse_arguments` threads five flags and a growing configuration through the options. Each turn either
is fatal or sets one member of the configuration for the first time, so the loop reads each option at
most once, and the order of the options does not matter. -/

namespace Kayles

open Fallible OncePerKey

/-! ## Options -/

/-- The case of `parse_arguments` that an option is for. -/
def Opt.flag? : Opt → Option Flag
  | .flag opt _ => some opt
  | .unknown => none

/-- The least port of a program. -/
def minPort (isServer : Bool) : Int := if isServer then minServerPort else minClientPort

/-- The argument of an option passes its validator. -/
def Opt.Valid (isServer : Bool) : Opt → Prop
  | .flag .a _ => True
  | .flag .m _ => True
  | .flag .t optarg =>
    (validateAndConvertDouble optarg minTimeoutValue maxTimeoutValue).eq (.finite invalidValue) = false
  | .flag .r optarg => isValidPawnRow optarg = true
  | .flag .p optarg =>
    validateAndConvertNumber optarg (minPort isServer) maxPortNumber ≠ invalidValue
  | .unknown => False

instance (isServer : Bool) : (o : Opt) → Decidable (o.Valid isServer)
  | .flag .a _ => inferInstanceAs (Decidable True)
  | .flag .m _ => inferInstanceAs (Decidable True)
  | .flag .t _ => inferInstanceAs (Decidable (_ = false))
  | .flag .r _ => inferInstanceAs (Decidable (_ = true))
  | .flag .p _ => inferInstanceAs (Decidable (¬ _ = _))
  | .unknown => inferInstanceAs (Decidable False)

/-- What `getopt` can deliver for the option string of a program. -/
def Delivered (program : Program) (opts : List Opt) : Prop :=
  ∀ o ∈ opts, ∀ f ∈ o.flag?, f.letter ∈ program.allowedFlags

instance (program : Program) (opts : List Opt) : Decidable (Delivered program opts) :=
  inferInstanceAs (Decidable (∀ o ∈ opts, ∀ f ∈ o.flag?, f.letter ∈ program.allowedFlags))

/-- Each option of the option string occurs exactly once, nothing else occurs, and each argument
    passes its validator. -/
structure Acceptable (program : Program) (opts : List Opt) : Prop where
  once : ∀ f : Flag, f.letter ∈ program.allowedFlags → (opts.map Opt.flag?).count (some f) = 1
  nothingElse : ∀ o ∈ opts, ∃ f, o.flag? = some f ∧ f.letter ∈ program.allowedFlags
  valid : ∀ o ∈ opts, o.Valid program.isServer

/-! ## One turn of the loop -/

/-- The configuration after an option. -/
def AppConfig.assign (isServer : Bool) (config : AppConfig) : Opt → AppConfig
  | .flag .a optarg => { config with address := optarg }
  | .flag .m optarg => { config with message := optarg }
  | .flag .t optarg =>
    { config with timeout := validateAndConvertDouble optarg minTimeoutValue maxTimeoutValue }
  | .flag .r optarg => { config with pawnRow := optarg }
  | .flag .p optarg =>
    { config with port := validateAndConvertNumber optarg (minPort isServer) maxPortNumber }
  | .unknown => config

def ParseState.has (st : ParseState) : Flag → Bool
  | .a => st.hasAddress
  | .m => st.hasMessage
  | .t => st.hasTimeout
  | .r => st.hasPawns
  | .p => st.hasPort

/-- The flags after an option. -/
def ParseState.mark (st : ParseState) : Opt → ParseState
  | .flag .a _ => { st with hasAddress := true }
  | .flag .m _ => { st with hasMessage := true }
  | .flag .t _ => { st with hasTimeout := true }
  | .flag .r _ => { st with hasPawns := true }
  | .flag .p _ => { st with hasPort := true }
  | .unknown => st

/-- The variables after an option that is accepted. -/
def ParseState.set (isServer : Bool) (st : ParseState) (o : Opt) : ParseState :=
  { st.mark o with config := st.config.assign isServer o }

/-- The program has ended in `fatal`. -/
def IsFatal (e : Exit) : Prop := ∃ message, e = .fatal message

section Turn

variable {isServer : Bool} {st st' : ParseState} {o : Opt}

/-- Behind `ensure_not_set`, a turn goes on with an option that has not been set. -/
theorem ensureNotSet_bind {flag : Bool} {message : String} {k : Unit → Except Exit ParseState}
    {turn : Except Exit ParseState} (h : k () = turn) :
    (ensureNotSet flag message >>= k) = if flag = true then .error (.fatal message) else turn := by
  subst h
  cases flag <;> rfl

/-- **A turn**: an option that has been set is fatal, and so is one that is not valid. -/
theorem parseOption_flag (isServer : Bool) (st : ParseState) (opt : Flag) (optarg : List Char) :
    ∃ twice invalid, parseOption isServer st (.flag opt optarg) =
      if st.has opt = true then .error (.fatal twice)
      else if (Opt.flag opt optarg).Valid isServer then .ok (st.set isServer (.flag opt optarg))
      else .error (.fatal invalid) := by
  cases opt with
  | a => exact ⟨"multiple -a options provided.", "", ensureNotSet_bind (if_pos trivial).symm⟩
  | m => exact ⟨"multiple -m options provided.", "", ensureNotSet_bind (if_pos trivial).symm⟩
  | t =>
      refine ⟨"multiple -t options provided.",
        "invalid timeout value. expected a value from 1.0 to 99.0", ensureNotSet_bind ?_⟩
      by_cases hvalid : (Opt.flag .t optarg).Valid isServer
      · rw [if_pos hvalid, if_neg (Bool.eq_false_iff.1 hvalid)]
        rfl
      · rw [if_neg hvalid, if_pos (Bool.eq_true_of_not_eq_false hvalid)]
  | r =>
      refine ⟨"multiple -r options provided.",
        "invalid pawn row. expected a non-empty string of '0' and '1' with the first and last one " ++
          "being '1'", ensureNotSet_bind ?_⟩
      by_cases hvalid : (Opt.flag .r optarg).Valid isServer
      · have hrow : isValidPawnRow optarg = true := hvalid
        rw [if_pos hvalid, hrow]
        rfl
      · have hrow : isValidPawnRow optarg = false := Bool.eq_false_of_not_eq_true hvalid
        rw [if_neg hvalid, hrow]
        rfl
  | p =>
      refine ⟨"multiple -p options provided.", if isServer then
        "invalid port number. expected 0 to 65535" else "invalid port number. expected 1 to 65535",
        ensureNotSet_bind ?_⟩
      by_cases hvalid : (Opt.flag .p optarg).Valid isServer
      · have hport :
            validateAndConvertNumber optarg (minPort isServer) maxPortNumber ≠ invalidValue := hvalid
        rw [if_pos hvalid]
        exact if_neg hport
      · have hport :
            validateAndConvertNumber optarg (minPort isServer) maxPortNumber = invalidValue :=
          not_not.1 hvalid
        rw [if_neg hvalid]
        refine (if_pos hport).trans ?_
        cases isServer <;> rfl

/-- A turn accepts a valid option that has not been set, and sets it. -/
theorem parseOption_eq_ok_iff : parseOption isServer st o = .ok st' ↔
    ¬ (∃ f, o.flag? = some f ∧ st.has f = true) ∧ o.Valid isServer ∧ st' = st.set isServer o := by
  cases o with
  | unknown => simp [parseOption, Opt.Valid]
  | flag opt optarg =>
      obtain ⟨twice, invalid, hturn⟩ := parseOption_flag isServer st opt optarg
      have hseen : (∃ f, (Opt.flag opt optarg).flag? = some f ∧ st.has f = true) ↔
          st.has opt = true := by
        simp [Opt.flag?]
      rw [hturn, hseen]
      by_cases hset : st.has opt = true
      · simp [hset]
      · by_cases hvalid : (Opt.flag opt optarg).Valid isServer
        · simp [hset, hvalid, eq_comm]
        · simp [hset, hvalid]

/-- Every error of a turn is fatal. -/
theorem errorsIn_parseOption (isServer : Bool) (st : ParseState) (o : Opt) :
    ErrorsIn IsFatal (parseOption isServer st o) := by
  intro e h
  cases o with
  | unknown => exact ⟨_, (Except.error.inj h).symm⟩
  | flag opt optarg =>
      obtain ⟨twice, invalid, hturn⟩ := parseOption_flag isServer st opt optarg
      rw [hturn] at h
      split_ifs at h
      · exact ⟨twice, (Except.error.inj h).symm⟩
      · exact ⟨invalid, (Except.error.inj h).symm⟩

theorem ParseState.has_set {f : Flag} (h : o.Valid isServer) :
    (st.set isServer o).has f = true ↔ o.flag? = some f ∨ st.has f = true := by
  cases o with
  | unknown => exact absurd h not_false
  | flag opt optarg =>
      cases opt <;> cases f <;> simp [ParseState.set, ParseState.mark, ParseState.has, Opt.flag?]

/-- Options for different members commute. -/
theorem ParseState.set_comm {o' : Opt} (h : o.flag? ≠ o'.flag?) :
    (st.set isServer o).set isServer o' = (st.set isServer o').set isServer o := by
  cases o with
  | unknown => cases o' <;> rfl
  | flag opt optarg =>
      cases o' with
      | unknown => rfl
      | flag opt' optarg' =>
          cases opt <;> cases opt' <;> first | rfl | exact absurd rfl h

end Turn

/-- The loop of `parse_arguments` as one that sets each member at most once. -/
def optionReader (isServer : Bool) : Reader Opt (Option Flag) ParseState Exit where
  step := parseOption isServer
  key := Opt.flag?
  Seen st key := ∃ f, key = some f ∧ st.has f = true
  Valid := Opt.Valid isServer
  set := ParseState.set isServer
  step_eq_ok_iff _ _ _ := parseOption_eq_ok_iff
  seen_set st o key h := by
    obtain ⟨f, hf⟩ : ∃ f, o.flag? = some f := by
      cases o with
      | unknown => exact absurd h not_false
      | flag opt optarg => exact ⟨opt, rfl⟩
    constructor
    · intro h
      obtain ⟨f', rfl, hhas⟩ := h
      exact ((ParseState.has_set h).1 hhas).imp Eq.symm fun hhas => ⟨f', rfl, hhas⟩
    · rintro (rfl | ⟨f', rfl, hhas⟩)
      · exact ⟨f, hf, (ParseState.has_set h).2 (.inl hf)⟩
      · exact ⟨f', rfl, (ParseState.has_set h).2 (.inr hhas)⟩
  set_comm _ _ _ h := ParseState.set_comm h

/-! ## The whole command line -/

section Parse

variable {isServer : Bool} {opts : List Opt} {config config' : AppConfig} {allowedFlags : List Char}

theorem ensureSet_eq_ok {f : Flag} {has : Bool} {message : String} {u : Unit} :
    ensureSet allowedFlags f has message = .ok u ↔ (f.letter ∈ allowedFlags → has = true) := by
  unfold ensureSet
  by_cases hf : f.letter ∈ allowedFlags <;> cases has <;> simp [hf]

/-- The configuration after options that are accepted. -/
def finalState (isServer : Bool) (config : AppConfig) (opts : List Opt) : ParseState :=
  opts.foldl (ParseState.set isServer) { config := config }

/-- **`parse_arguments`** returns if the options are valid, none occurs twice, and each one of the
option string occurs. -/
theorem parseArguments_eq_ok_iff : parseArguments opts config allowedFlags isServer = .ok config' ↔
    (∀ o ∈ opts, o.Valid isServer) ∧ (opts.map Opt.flag?).Nodup ∧
      (∀ f : Flag, f.letter ∈ allowedFlags → some f ∈ opts.map Opt.flag?) ∧
      config' = (finalState isServer config opts).config := by
  have hunset : ∀ key : Option Flag,
      ¬ (optionReader isServer).Seen { config := config } key := by
    rintro _ ⟨f, rfl, hhas⟩
    cases f <;> exact Bool.noConfusion hhas
  have hloop : ∀ st, opts.foldlM (parseOption isServer) { config := config } = .ok st ↔
      (∀ o ∈ opts, o.Valid isServer) ∧ (opts.map Opt.flag?).Nodup ∧
        st = finalState isServer config opts := by
    intro st
    refine (foldlM_eq_ok_iff (optionReader isServer)).trans (and_congr_left fun _ => ?_)
    exact forall₂_congr fun o _ => and_iff_left (hunset _)
  have hhas : (∀ o ∈ opts, o.Valid isServer) → ∀ f : Flag,
      (finalState isServer config opts).has f = true ↔ some f ∈ opts.map Opt.flag? := by
    intro hvalid f
    have hseen := seen_foldl (optionReader isServer) (s := { config := config })
      (k := some f) hvalid
    rw [or_iff_left (hunset _)] at hseen
    refine Iff.trans ⟨fun h => ⟨f, rfl, h⟩, fun h => ?_⟩ hseen
    obtain ⟨f', hf, h⟩ := h
    exact Option.some.inj hf ▸ h
  unfold parseArguments
  simp only [bind_eq_ok_iff, ensureSet_eq_ok, hloop]
  constructor
  · intro h
    obtain ⟨st, ⟨hvalid, hnodup, rfl⟩, -, ha, -, hp, -, ht, -, hr, -, hm, hconfig⟩ := h
    refine ⟨hvalid, hnodup, fun f hf => (hhas hvalid f).1 ?_, (Except.ok.inj hconfig).symm⟩
    cases f with
    | a => exact ha hf
    | p => exact hp hf
    | t => exact ht hf
    | r => exact hr hf
    | m => exact hm hf
  · intro h
    obtain ⟨hvalid, hnodup, hset, rfl⟩ := h
    have hset' := fun f hf => (hhas hvalid f).2 (hset f hf)
    exact ⟨_, ⟨hvalid, hnodup, rfl⟩, (), hset' .a, (), hset' .p, (), hset' .t, (), hset' .r, (),
      hset' .m, rfl⟩

theorem errorsIn_ensureSet (allowedFlags : List Char) (f : Flag) (has : Bool) (message : String) :
    ErrorsIn IsFatal (ensureSet allowedFlags f has message) := by
  intro e h
  unfold ensureSet at h
  split_ifs at h
  exact ⟨message, (Except.error.inj h).symm⟩

/-- Every error of `parse_arguments` is fatal. -/
theorem errorsIn_parseArguments (opts : List Opt) (config : AppConfig) (allowedFlags : List Char)
    (isServer : Bool) : ErrorsIn IsFatal (parseArguments opts config allowedFlags isServer) := by
  refine (ErrorsIn.foldlM (errorsIn_parseOption isServer) _ _).bind fun st => ?_
  refine (errorsIn_ensureSet _ _ _ _).bind fun _ => ?_
  refine (errorsIn_ensureSet _ _ _ _).bind fun _ => ?_
  refine (errorsIn_ensureSet _ _ _ _).bind fun _ => ?_
  refine (errorsIn_ensureSet _ _ _ _).bind fun _ => ?_
  exact (errorsIn_ensureSet _ _ _ _).bind fun _ => errorsIn_pure _

theorem parseArguments_perm {opts' : List Opt} (h : opts.Perm opts') :
    parseArguments opts config allowedFlags isServer = .ok config' ↔
      parseArguments opts' config allowedFlags isServer = .ok config' := by
  have hloop : ∀ st, opts.foldlM (parseOption isServer) { config := config } = .ok st ↔
      opts'.foldlM (parseOption isServer) { config := config } = .ok st :=
    fun st => foldlM_eq_ok_perm (optionReader isServer) h
  simp only [parseArguments, bind_eq_ok_iff, hloop]

end Parse

/-- An option string has each of its options once, and names no others. -/
theorem acceptable_iff {program : Program} {opts : List Opt} (hdelivered : Delivered program opts) :
    Acceptable program opts ↔ (∀ o ∈ opts, o.Valid program.isServer) ∧
      (opts.map Opt.flag?).Nodup ∧
      ∀ f : Flag, f.letter ∈ program.allowedFlags → some f ∈ opts.map Opt.flag? := by
  constructor
  · intro h
    refine ⟨h.valid, List.nodup_iff_count_le_one.2 fun key => ?_, fun f hf => ?_⟩
    · by_cases hkey : key ∈ opts.map Opt.flag?
      · obtain ⟨o, ho, rfl⟩ := List.mem_map.1 hkey
        obtain ⟨f, hf, hletter⟩ := h.nothingElse o ho
        rw [hf]
        exact (h.once f hletter).le
      · rw [List.count_eq_zero.2 hkey]
        exact Nat.zero_le 1
    · rw [← List.count_pos_iff, h.once f hf]
      exact Nat.one_pos
  · intro h
    obtain ⟨hvalid, hnodup, hall⟩ := h
    refine ⟨fun f hf => List.count_eq_one_of_mem hnodup (hall f hf), fun o ho => ?_, hvalid⟩
    cases o with
    | unknown => exact absurd (hvalid _ ho) not_false
    | flag opt optarg => exact ⟨opt, rfl, hdelivered _ ho opt rfl⟩

/-- **Acceptance of the command line**: options that `getopt` delivers are accepted if each one of the
option string occurs exactly once, nothing else occurs, and each argument passes its validator; and
their order does not matter. -/
theorem parse_arguments_accepts (program : Program) (config : AppConfig) {opts : List Opt}
    (hdelivered : Delivered program opts) :
    ((∃ config', parseArguments opts config program.allowedFlags program.isServer = .ok config') ↔
      Acceptable program opts) ∧
    ∀ opts', opts.Perm opts' →
      (∃ config', parseArguments opts config program.allowedFlags program.isServer = .ok config' ∧
        parseArguments opts' config program.allowedFlags program.isServer = .ok config') ∨
      ∃ message message',
        parseArguments opts config program.allowedFlags program.isServer = .error (.fatal message) ∧
        parseArguments opts' config program.allowedFlags program.isServer =
          .error (.fatal message') := by
  refine ⟨?_, fun opts' hperm => ?_⟩
  · rw [acceptable_iff hdelivered]
    constructor
    · intro h
      obtain ⟨config', hok⟩ := h
      obtain ⟨hvalid, hnodup, hall, -⟩ := parseArguments_eq_ok_iff.1 hok
      exact ⟨hvalid, hnodup, hall⟩
    · intro h
      obtain ⟨hvalid, hnodup, hall⟩ := h
      exact ⟨_, parseArguments_eq_ok_iff.2 ⟨hvalid, hnodup, hall, rfl⟩⟩
  · cases hparse : parseArguments opts config program.allowedFlags program.isServer with
    | ok config' => exact .inl ⟨config', rfl, (parseArguments_perm hperm).1 hparse⟩
    | error e =>
        obtain ⟨message, rfl⟩ := errorsIn_parseArguments _ _ _ _ _ hparse
        cases hparse' : parseArguments opts' config program.allowedFlags program.isServer with
        | ok config' =>
            rw [(parseArguments_perm hperm).2 hparse'] at hparse
            simp at hparse
        | error e' =>
            obtain ⟨message', rfl⟩ := errorsIn_parseArguments _ _ _ _ _ hparse'
            exact .inr ⟨message, message', rfl, rfl⟩

/-- A server on any port. -/
def serverArguments : List Opt :=
  [.flag .r ['1', '0', '1'], .flag .a ['h'], .flag .p ['0'], .flag .t ['1', '0']]

example : parseArguments serverArguments {} Program.server.allowedFlags true =
    .ok { address := ['h'], pawnRow := ['1', '0', '1'], port := 0, timeout := .finite 10 } := by
  decide +kernel

theorem parse_arguments_accepts_server :
    ((∃ config', parseArguments serverArguments {} Program.server.allowedFlags true = .ok config') ↔
      Acceptable .server serverArguments) ∧
    ∀ opts', serverArguments.Perm opts' →
      (∃ config', parseArguments serverArguments {} Program.server.allowedFlags true = .ok config' ∧
        parseArguments opts' {} Program.server.allowedFlags true = .ok config') ∨
      ∃ message message',
        parseArguments serverArguments {} Program.server.allowedFlags true =
          .error (.fatal message) ∧
        parseArguments opts' {} Program.server.allowedFlags true = .error (.fatal message') :=
  parse_arguments_accepts .server {} (by decide)

end Kayles
