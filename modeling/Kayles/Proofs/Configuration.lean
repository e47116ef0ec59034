import Kayles.Implementation.Server
import Kayles.Proofs.Arguments
import Kayles.Proofs.Board

set_option autoImplicit false

/-! # Accepted configurations

What the two programs rely on after `parse_arguments` has returned: a row that fills the 8-bit
`max_pawn`, a port of 16 bits and a timeout between 1 and 99 seconds. The validator of the timeout
tests for values out of its range, and NaN is neither below nor above: it is the one value that gets
through. -/

namespace Kayles

open OncePerKey

/-! ## Sound configurations -/

/-- A row that `initialize_pawn_row` can be called with. -/
structure SoundRow (pawnRow : List Char) : Prop where
  length_pos : 1 ≤ pawnRow.length
  length_le : pawnRow.length ≤ 256
  first : pawnRow.head? = some pawnStanding
  last : pawnRow.getLast? = some pawnStanding
  binary : ∀ c ∈ pawnRow, c = pawnStanding ∨ c = pawnKnockedDown
  maxPawn : ∀ game, ∃ game', initializePawnRow pawnRow game = .ok game' ∧
    game'.maxPawn.toNat = pawnRow.length - 1

/-- What the programs rely on. -/
structure SoundConfig (program : Program) (config : AppConfig) : Prop where
  pawnRow : program = .server → SoundRow config.pawnRow
  port : minPort program.isServer ≤ config.port ∧ config.port ≤ 65535
  timeout : ∃ value : ℚ, config.timeout = .finite value ∧ 1 ≤ value ∧ value ≤ 99
  milliseconds : ∃ ms, timeoutMs config.timeout = some ms ∧ 1000 ≤ ms.toNat ∧ ms.toNat ≤ 99000

/-- The text names NaN, after blanks and a sign. -/
def IsNanText (text : List Char) : Prop :=
  ((scanSign (text.dropWhile isSpace)).2.take 3).map Char.toLower = ['n', 'a', 'n']

/-! ## The validators -/

section Validators

variable {text str rest : List Char} {word : List Char}

theorem dropWord_eq_some_iff : dropWord word str = some rest ↔
    (str.take word.length).map Char.toLower = word ∧ str.drop word.length = rest := by
  unfold dropWord
  by_cases h : (str.take word.length).map Char.toLower = word
  · rw [if_pos h, Option.some.injEq, and_iff_right h]
  · rw [if_neg h]
    exact iff_of_false (Option.some_ne_none rest).symm fun hword => h hword.1

/-- A word that begins otherwise is not NaN. -/
theorem not_nan_of_dropWord (h : dropWord word str = some rest)
    (hword : word.take 3 ≠ ['n', 'a', 'n']) (hlen : 3 ≤ word.length) :
    (str.take 3).map Char.toLower ≠ ['n', 'a', 'n'] := by
  intro hnan
  obtain ⟨heq, -⟩ := dropWord_eq_some_iff.1 h
  refine hword ?_
  rw [← heq, ← List.map_take, List.take_take, Nat.min_eq_left hlen, hnan]

theorem scanNumber_ne_nan {isDigit : Char → Bool} {base radix : ℕ} {letter : Char} :
    scanNumber isDigit base letter radix str ≠ some (.nan, rest) := by
  unfold scanNumber
  simp only
  split
  · exact (Option.some_ne_none _).symm
  · intro h
    exact Double.round_ne_nan _ (Prod.mk.inj (Option.some.inj h)).1

/-- Behind the sign, only the word names NaN. -/
theorem scanDouble_eq_nan_iff : (∃ rest, scanDouble str = some (.nan, rest)) ↔
    (str.take 3).map Char.toLower = ['n', 'a', 'n'] := by
  unfold scanDouble
  cases hinfinity : dropWord ['i', 'n', 'f', 'i', 'n', 'i', 't', 'y'] str with
  | some rest =>
      refine iff_of_false ?_ (not_nan_of_dropWord hinfinity (by decide) (by decide))
      intro h
      obtain ⟨_, hscan⟩ := h
      simp at hscan
  | none =>
      cases hinf : dropWord ['i', 'n', 'f'] str with
      | some rest =>
          refine iff_of_false ?_ (not_nan_of_dropWord hinf (by decide) (by decide))
          intro h
          obtain ⟨_, hscan⟩ := h
          simp at hscan
      | none =>
          cases hnan : dropWord ['n', 'a', 'n'] str with
          | some rest =>
              have hyes := (dropWord_eq_some_iff.1 hnan).1
              exact iff_of_true ⟨_, rfl⟩ hyes
          | none =>
              have hno : (str.take 3).map Char.toLower ≠ ['n', 'a', 'n'] := by
                intro hword
                have hfound : dropWord ['n', 'a', 'n'] str = some (str.drop 3) :=
                  dropWord_eq_some_iff.2 ⟨hword, rfl⟩
                rw [hfound] at hnan
                exact Option.some_ne_none _ hnan
              refine iff_of_false ?_ hno
              intro h
              obtain ⟨rest, hscan⟩ := h
              simp only [Option.map_none, Option.orElse_eq_orElse, Option.orElse_eq_or,
                Option.none_or] at hscan
              rcases Option.or_eq_some_iff.1 hscan with hhex | ⟨-, hdecimal⟩
              · obtain ⟨digits, -, hhex⟩ := Option.bind_eq_some_iff.1 hhex
                exact scanNumber_ne_nan hhex
              · exact scanNumber_ne_nan hdecimal

/-- **`strtod`** returns NaN for the texts that name it. -/
theorem strtod_eq_nan_iff : (strtod text).1 = .nan ↔ IsNanText text := by
  unfold strtod IsNanText
  rw [← scanDouble_eq_nan_iff]
  simp only
  cases scanDouble (scanSign (text.dropWhile isSpace)).2 with
  | none => simp
  | some found =>
      obtain ⟨magnitude, rest⟩ := found
      cases (scanSign (text.dropWhile isSpace)).1 <;> cases magnitude <;> simp [Double.neg]

/-- A number that is not refused is in the range. -/
theorem validateAndConvertNumber_between {minValue maxValue : Int}
    (h : validateAndConvertNumber text minValue maxValue ≠ invalidValue) :
    minValue ≤ validateAndConvertNumber text minValue maxValue ∧
      validateAndConvertNumber text minValue maxValue ≤ maxValue := by
  unfold validateAndConvertNumber at h ⊢
  simp only at h ⊢
  split_ifs at h ⊢ with hnone hrest hrange
  · exact absurd rfl h
  · exact absurd rfl h
  · exact absurd rfl h
  · omega

/-- A value that is not refused is what `strtod` returns, in the range or NaN. -/
theorem validateAndConvertDouble_cases {a b : ℚ}
    (h : (validateAndConvertDouble text (.finite a) (.finite b)).eq (.finite invalidValue) = false) :
    validateAndConvertDouble text (.finite a) (.finite b) = (strtod text).1 ∧
      ((strtod text).1 = .nan ∨
        ∃ value, (strtod text).1 = .finite value ∧ a ≤ value ∧ value ≤ b) := by
  unfold validateAndConvertDouble at h ⊢
  simp only at h ⊢
  split_ifs at h ⊢ with hrefused
  · simp [Double.eq] at h
  · simp only [not_or, Bool.not_eq_true] at hrefused
    exact ⟨rfl, Double.eq_nan_or_between hrefused.2.2.1 hrefused.2.2.2⟩

/-- A timeout in the range is as many milliseconds. -/
theorem timeoutMs_between {value : ℚ} (hmin : 1 ≤ value) (hmax : value ≤ 99) :
    ∃ ms, timeoutMs (.finite value) = some ms ∧ 1000 ≤ ms.toNat ∧ ms.toNat ≤ 99000 := by
  obtain ⟨product, hround, hlow, hhigh⟩ := Double.round_between (a := 1000) (b := 99000)
    (x := value * 1000) (by push_cast; linarith) (by push_cast; linarith) (by norm_num)
  obtain ⟨ms, hms, hle⟩ := Double.toUInt64_between (a := 1000) (b := 99000) (x := product)
    (by exact_mod_cast hlow) (by exact_mod_cast hhigh) (by decide)
  refine ⟨ms, ?_, hle⟩
  rw [timeoutMs, Double.mul, hround, hms]

/-- The 8-bit bound of a valid row is its length minus 1. -/
theorem soundRow_of_valid (h : isValidPawnRow text = true) : SoundRow text := by
  obtain ⟨hpos, hle, hfirst, hlast, hbinary⟩ := isValidPawnRow_iff.1 h
  refine ⟨hpos, hle, hfirst, hlast, hbinary, fun game => ?_⟩
  obtain ⟨game', hgame', hboard⟩ := initializePawnRow_spec hpos hle game
  exact ⟨game', hgame', hboard.maxPawn_eq⟩

end Validators

/-! ## Accepted options -/

section Accepted

variable {program : Program} {opts : List Opt} {config : AppConfig}

/-- An option that occurs has been assigned. -/
theorem exists_assign_of_mem (h : program.parse opts = .ok config) {o : Opt} (ho : o ∈ opts) :
    ∃ config₀ : AppConfig, config = config₀.assign program.isServer o := by
  obtain ⟨-, hnodup, -, rfl⟩ := parseArguments_eq_ok_iff.1 h
  obtain ⟨st, hst⟩ := exists_foldl_eq_set (optionReader program.isServer)
    (s := { config := {} }) hnodup ho
  exact ⟨st.config, congrArg ParseState.config hst⟩

/-- An option of the option string has been assigned, from an argument that is valid. -/
theorem exists_assign_of_allowed (h : program.parse opts = .ok config) {f : Flag}
    (hf : f.letter ∈ program.allowedFlags) :
    ∃ (text : List Char) (config₀ : AppConfig), .flag f text ∈ opts ∧
      (Opt.flag f text).Valid program.isServer ∧
      config = config₀.assign program.isServer (.flag f text) := by
  obtain ⟨hvalid, -, hall, -⟩ := parseArguments_eq_ok_iff.1 h
  obtain ⟨o, ho, hflag⟩ := List.mem_map.1 (hall f hf)
  cases o with
  | unknown => exact absurd hflag (Option.some_ne_none f).symm
  | flag opt text =>
      obtain rfl : opt = f := Option.some.inj hflag
      obtain ⟨config₀, hconfig⟩ := exists_assign_of_mem h ho
      exact ⟨text, config₀, ho, hvalid _ ho, hconfig⟩

/-- A configuration is sound but for a timeout that is NaN. -/
theorem soundConfig_of_parse (h : program.parse opts = .ok config)
    (hnan : ∀ text, .flag .t text ∈ opts → ¬ IsNanText text) : SoundConfig program config := by
  have hp : Flag.letter .p ∈ program.allowedFlags := by cases program <;> decide
  have ht : Flag.letter .t ∈ program.allowedFlags := by cases program <;> decide
  obtain ⟨port, _, -, hport, hconfig⟩ := exists_assign_of_allowed h hp
  obtain ⟨timeout, _, hmem, htimeout, hconfig'⟩ := exists_assign_of_allowed h ht
  obtain ⟨hvalue, hcases⟩ := validateAndConvertDouble_cases htimeout
  have hno : (strtod timeout).1 ≠ .nan := fun heq => hnan timeout hmem (strtod_eq_nan_iff.1 heq)
  obtain ⟨value, heq, hmin, hmax⟩ := hcases.resolve_left hno
  have hconfigTimeout : config.timeout = .finite value := by
    rw [hconfig']
    exact hvalue.trans heq
  refine ⟨fun hserver => ?_, ?_, ⟨value, hconfigTimeout, hmin, hmax⟩, ?_⟩
  · subst hserver
    obtain ⟨row, _, -, hrow, hconfigRow⟩ := exists_assign_of_allowed h (f := .r) (by decide)
    rw [hconfigRow]
    exact soundRow_of_valid hrow
  · rw [hconfig]
    exact validateAndConvertNumber_between hport
  · rw [hconfigTimeout]
    exact timeoutMs_between hmin hmax

/-- A timeout that is NaN gets into the configuration. -/
theorem timeout_of_nan (h : program.parse opts = .ok config) {text : List Char}
    (hmem : .flag .t text ∈ opts) (hnan : IsNanText text) : config.timeout = .nan := by
  obtain ⟨hvalid, -, -, -⟩ := parseArguments_eq_ok_iff.1 h
  obtain ⟨config₀, rfl⟩ := exists_assign_of_mem h hmem
  obtain ⟨hvalue, -⟩ := validateAndConvertDouble_cases (hvalid _ hmem)
  exact hvalue.trans (strtod_eq_nan_iff.2 hnan)

end Accepted

/-- **Accepted configurations are sound** exactly if no timeout that is NaN is accepted. -/
theorem accepted_sound_iff (program : Program) {opts : List Opt}
    (hdelivered : Delivered program opts) :
    (∀ config, program.parse opts = .ok config → SoundConfig program config) ↔
      ¬ (Acceptable program opts ∧ ∃ text, .flag .t text ∈ opts ∧ IsNanText text) := by
  constructor
  · rintro hsound ⟨hacceptable, text, hmem, hnan⟩
    obtain ⟨hvalid, hnodup, hall⟩ := (acceptable_iff hdelivered).1 hacceptable
    have hparse : program.parse opts = .ok _ :=
      parseArguments_eq_ok_iff.2 ⟨hvalid, hnodup, hall, rfl⟩
    obtain ⟨value, hvalue, -⟩ := (hsound _ hparse).timeout
    rw [timeout_of_nan hparse hmem hnan] at hvalue
    exact Double.noConfusion hvalue
  · intro hno config hparse
    obtain ⟨hvalid, hnodup, hall, -⟩ := parseArguments_eq_ok_iff.1 hparse
    have hacceptable := (acceptable_iff hdelivered).2 ⟨hvalid, hnodup, hall⟩
    exact soundConfig_of_parse hparse fun text hmem hnan => hno ⟨hacceptable, text, hmem, hnan⟩

/-- A server whose timeout is NaN. -/
def nanArguments : List Opt :=
  [.flag .r ['1', '1', '1'], .flag .a ['h'], .flag .p ['0'], .flag .t ['n', 'a', 'n']]

theorem accepted_sound_iff_nan :
    (∀ config, Program.server.parse nanArguments = .ok config → SoundConfig .server config) ↔
      ¬ (Acceptable .server nanArguments ∧ ∃ text, .flag .t text ∈ nanArguments ∧ IsNanText text) :=
  accepted_sound_iff .server (by decide)

theorem not_all_accepted_sound : ¬ ∀ program opts, Delivered program opts →
    ∀ config, program.parse opts = .ok config → SoundConfig program config := by
  intro hall
  have hparse : Program.server.parse nanArguments =
      .ok { address := ['h'], pawnRow := ['1', '1', '1'], port := 0, timeout := .nan } := rfl
  obtain ⟨value, hvalue, -⟩ := (hall .server nanArguments (by decide) _ hparse).timeout
  exact Double.noConfusion hvalue

/-! ## The server that is started -/

/-- A sound configuration starts a server. -/
theorem SoundConfig.exists_server {config : AppConfig} (h : SoundConfig .server config)
    (uninitialised : GameState) : ∃ srv : Server, srv.pawnRow = config.pawnRow ∧
      srv.uninitialised = uninitialised ∧ timeoutMs config.timeout = some srv.timeoutMs := by
  have hrow := h.pawnRow rfl
  obtain ⟨template, htemplate, -⟩ := hrow.maxPawn uninitialised
  obtain ⟨ms, hms, -⟩ := h.milliseconds
  have hvalid : isValidPawnRow config.pawnRow = true :=
    isValidPawnRow_iff.2 ⟨hrow.length_pos, hrow.length_le, hrow.first, hrow.last, hrow.binary⟩
  exact ⟨⟨config.pawnRow, uninitialised, template, ms, hvalid, htemplate⟩, rfl, rfl, hms⟩

end Kayles
