import Kayles.Implementation.Arguments

set_option autoImplicit false

/-! # Sockets (`kayles_server.cpp`, `kayles_client.cpp`)

The two functions that create a socket, on what the system calls answer. They compute the timeout of
the socket alike; the casts of a `double` that they make need not be defined. -/

namespace Kayles

/-- The ways a program can end other than by returning from `main`. -/
inductive ProgramEnd where
  | exit (e : Exit)
  /-- a cast of a `double` that has no value of the other type -/
  | undefined
  /-- a `std::bad_alloc` that is not caught -/
  | badAlloc
  deriving DecidableEq, Repr

/-- `struct timeval`. -/
structure Timeval where
  sec : ℤ
  usec : ℤ
  deriving DecidableEq, Repr

/-- The timeout of a socket, in seconds and microseconds. The seconds are converted back to a
    `double` for the subtraction. -/
def timeval (timeout : Double) : Option Timeval := do
  let sec ← timeout.toInt64
  let usec ← ((timeout.sub (.ofInt sec)).mul (.finite 1000000)).toInt64
  return ⟨sec, usec⟩

/-- What the system answers to the calls that create a socket. -/
structure SocketCalls where
  socket : Bool
  setsockopt : Timeval → Bool
  getaddrinfo : List Char → Bool
  /-- `bind` or `connect` -/
  attach : Bool
  /-- the port that `getsockname` tells, unless it fails -/
  getsockname : Option UInt16

/-- What both functions begin with: the socket, its timeout and the address. -/
def prepareSocket (calls : SocketCalls) (config : AppConfig) (program : String) :
    Except ProgramEnd Unit :=
  if !calls.socket then
    .error (.exit (.syserr ("unable to create socket for " ++ program ++ " socket.")))
  else
    match timeval config.timeout with
    | none => .error .undefined
    | some tv =>
      if !calls.setsockopt tv then .error (.exit (.syserr "setsockopt failed"))
      else if !calls.getaddrinfo config.address then
        .error (.exit (.fatal "invalid IP address provided."))
      else .ok ()

/-- `create_sever_socket`: the port that is printed, if it is. -/
def createSeverSocket (calls : SocketCalls) (config : AppConfig) :
    Except ProgramEnd (Option UInt16) := do
  prepareSocket calls config "server"
  if !calls.attach then
    .error (.exit (.syserr ("unable to bind to port " ++ toString config.port)))
  else return calls.getsockname

/-- `create_client_socket`: the socket is connected to the server. -/
def createClientSocket (calls : SocketCalls) (config : AppConfig) : Except ProgramEnd Unit := do
  prepareSocket calls config "client"
  if !calls.attach then .error (.exit (.syserr "connect failed"))
  else return ()

end Kayles
