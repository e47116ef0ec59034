import Kayles.Implementation.Conversions
import Kayles.Implementation.GameLogic

set_option autoImplicit false

/-! # The command line (`common.h`, `common.cpp`)

`getopt` delivers a list of options, and `parse_arguments` reads them in turn. The two programs call
it with their own option strings; the boolean `isServer` selects the range of the port. -/

namespace Kayles

/-! ## Constants -/

/-- Returned by the validators for an invalid input. -/
abbrev invalidValue : Int := -1

/-- Bounds of the values of the options. -/
abbrev maxPortNumber : Int := 65535
abbrev minTimeoutValue : Double := .finite 1
abbrev maxTimeoutValue : Double := .finite 99
abbrev maxPawns : ℕ := 256
abbrev minServerPort : Int := 0
abbrev minClientPort : Int := 1

/-! ## Validation -/

/-- The test `text_value == endptr` is one for nothing converted. -/
def validateAndConvertNumber (textValue : List Char) (minValue maxValue : Int) : Int :=
  let (value, endptr) := strtol textValue
  if textValue = endptr then invalidValue
  else if endptr ≠ [] then invalidValue
  else if value < minValue ∨ maxValue < value then invalidValue
  else value

/-- `validate_and_convert_double`: two comparisons check the range, and a NaN passes both. -/
def validateAndConvertDouble (textValue : List Char) (minValue maxValue : Double) : Double :=
  let (value, endptr) := strtod textValue
  if textValue = endptr ∨ endptr ≠ [] ∨ value.lt minValue ∨ maxValue.lt value then
    .finite invalidValue
  else value

/-- `is_valid_pawn_row`: 1 to 256 digits of which the first and the last are pawns that stand. -/
def isValidPawnRow (pawns : List Char) : Bool :=
  if pawns.isEmpty then false
  else if maxPawns < pawns.length then false
  else if pawns.head? ≠ some pawnStanding ∨ pawns.getLast? ≠ some pawnStanding then false
  else pawns.all fun c => c == pawnStanding || c == pawnKnockedDown

/-! ## Options -/

/-- The options that `parse_arguments` has a case for. -/
inductive Flag where
  | a | m | t | r | p
  deriving DecidableEq, Repr

/-- The character of an option. -/
def Flag.letter : Flag → Char
  | .a => 'a'
  | .m => 'm'
  | .t => 't'
  | .r => 'r'
  | .p => 'p'

/-- What `getopt` delivers. -/
inductive Opt where
  | flag (opt : Flag) (optarg : List Char)
  /-- `?`: an unknown option, or one without its argument -/
  | unknown
  deriving DecidableEq, Repr

/-- Runtime configuration of the application. -/
structure AppConfig where
  address : List Char := []
  pawnRow : List Char := []
  message : List Char := []
  port : Int := invalidValue
  timeout : Double := .finite invalidValue
  deriving DecidableEq, Repr

/-- The variables of `parse_arguments`. -/
structure ParseState where
  config : AppConfig
  hasPawns : Bool := false
  hasAddress : Bool := false
  hasPort : Bool := false
  hasTimeout : Bool := false
  hasMessage : Bool := false

/-- `ensure_not_set`: no option is given twice. -/
def ensureNotSet (flag : Bool) (message : String) : Except Exit Unit :=
  if flag then .error (.fatal message) else .ok ()

/-- One turn of the loop of `parse_arguments`. -/
def parseOption (isServer : Bool) (st : ParseState) : Opt → Except Exit ParseState
  | .flag .a optarg => do
    ensureNotSet st.hasAddress "multiple -a options provided."
    return { st with config.address := optarg, hasAddress := true }
  | .flag .m optarg => do
    ensureNotSet st.hasMessage "multiple -m options provided."
    return { st with config.message := optarg, hasMessage := true }
  | .flag .t optarg => do
    ensureNotSet st.hasTimeout "multiple -t options provided."
    let timeout := validateAndConvertDouble optarg minTimeoutValue maxTimeoutValue
    if timeout.eq (.finite invalidValue) then
      .error (.fatal "invalid timeout value. expected a value from 1.0 to 99.0")
    else return { st with config.timeout := timeout, hasTimeout := true }
  | .flag .r optarg => do
    ensureNotSet st.hasPawns "multiple -r options provided."
    if !isValidPawnRow optarg then
      .error (.fatal ("invalid pawn row. expected a non-empty string of '0' and '1' with the first " ++
        "and last one being '1'"))
    else return { st with config.pawnRow := optarg, hasPawns := true }
  | .flag .p optarg => do
    ensureNotSet st.hasPort "multiple -p options provided."
    let minPort := if isServer then minServerPort else minClientPort
    let port := validateAndConvertNumber optarg minPort maxPortNumber
    if port = invalidValue then
      if isServer then .error (.fatal "invalid port number. expected 0 to 65535")
      else .error (.fatal "invalid port number. expected 1 to 65535")
    else return { st with config.port := port, hasPort := true }
  | .unknown =>
    .error (.fatal "unknown option or missing argument. expected: -a, -p, -m, -t")

/-- A flag that is present in `allowed_flags` has been set. -/
def ensureSet (allowedFlags : List Char) (flag : Flag) (has : Bool) (message : String) :
    Except Exit Unit :=
  if flag.letter ∈ allowedFlags ∧ has = false then .error (.fatal message) else .ok ()

/-- `parse_arguments`, on what the calls of `getopt` deliver. -/
def parseArguments (opts : List Opt) (config : AppConfig) (allowedFlags : List Char)
    (isServer : Bool) : Except Exit AppConfig := do
  let st ← opts.foldlM (parseOption isServer) { config := config }
  ensureSet allowedFlags .a st.hasAddress "missing required argument -a"
  ensureSet allowedFlags .p st.hasPort "missing required argument -p"
  ensureSet allowedFlags .t st.hasTimeout "missing required argument -t"
  ensureSet allowedFlags .r st.hasPawns "missing required argument -r"
  ensureSet allowedFlags .m st.hasMessage "missing required argument -m"
  return st.config

/-! ## The two programs -/

/-- The two programs of the repository. -/
inductive Program where
  | server
  | client
  deriving DecidableEq, Repr

/-- The option string that `main` passes to `parse_arguments`. -/
def Program.allowedFlags : Program → List Char
  | .server => ['r', ':', 'a', ':', 'p', ':', 't', ':']
  | .client => ['m', ':', 'a', ':', 'p', ':', 't', ':']

/-- The flag that `main` passes to `parse_arguments`. -/
def Program.isServer : Program → Bool
  | .server => true
  | .client => false

/-- The call of `parse_arguments` in `main`, on a configuration with its default values. -/
def Program.parse (program : Program) (opts : List Opt) : Except Exit AppConfig :=
  parseArguments opts {} program.allowedFlags program.isServer

end Kayles
