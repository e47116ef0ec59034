import Kayles.Spec.Session
import Mathlib.Logic.Function.Basic

set_option autoImplicit false

/-! # A service of sessions

What the server is for: many sessions at a time, each between two players. Who joins takes the free
seat of the session that waits, or opens a new one; who plays in a session may move in it, give it
up or ask for it, and is answered with the session as it is then. The service may close a session at
any time. Players, names of sessions and pawns are of any types. -/

namespace Service

open Session (Side Phase Act)

variable {π κ ι : Type*}

/-- A session with its players. -/
structure Game (π ι : Type*) where
  playerA : π
  playerB : Option π
  session : Session.State ι

/-- Who plays on a side. -/
def Game.playerOf (g : Game π ι) : Side → Option π
  | .a => some g.playerA
  | .b => g.playerB

/-- The player has a seat. -/
def Game.Plays (g : Game π ι) (p : π) : Prop := ∃ side, g.playerOf side = some p

/-- The player has the seat of the side whose turn it is. -/
def Game.OnTurn (g : Game π ι) (p : π) : Prop :=
  ∃ side, g.session.phase = .turn side ∧ g.playerOf side = some p

/-- The sessions by their names. -/
abbrev State (π κ ι : Type*) := κ → Option (Game π ι)

/-- No session has a free seat. -/
def NoneWaiting (s : State π κ ι) : Prop := ∀ name g, s name = some g → g.session.phase ≠ .waiting

/-- What a player asks for. -/
inductive Request (π κ ι : Type*) where
  | join (player : π)
  | move (player : π) (name : κ) (pawns : Finset ι)
  | giveUp (player : π) (name : κ)
  | keepAlive (player : π) (name : κ)

/-- The session that a request is about, and the player it is from. -/
def Request.about : Request π κ ι → Option (π × κ)
  | .join _ => none
  | .move player name _ => some (player, name)
  | .giveUp player name => some (player, name)
  | .keepAlive player name => some (player, name)

/-- What a player is told: a game as it is, or why there is none to show. -/
inductive Response (π κ ι : Type*) where
  | game (name : κ) (g : Game π ι)
  | noGame
  | stranger

variable [DecidableEq κ] [DecidableEq ι]

/-- What a request makes of the sessions, and how it is answered. A new session begins with the pawns
    of `board`. -/
inductive Answer (board : Finset ι) (s : State π κ ι) :
    Request π κ ι → State π κ ι → Response π κ ι → Prop
  | seated {p : π} {name : κ} {g g' : Game π ι} (hg : s name = some g)
      (hstep : Session.Step g.session .seat g'.session) (ha : g'.playerA = g.playerA)
      (hb : g'.playerB = some p) :
      Answer board s (.join p) (Function.update s name (some g')) (.game name g')
  | opened {p : π} {name : κ} (hnone : NoneWaiting s) (hfree : s name = none) :
      Answer board s (.join p) (Function.update s name (some ⟨p, none, ⟨.waiting, board⟩⟩))
        (.game name ⟨p, none, ⟨.waiting, board⟩⟩)
  | moved {p : π} {name : κ} {pawns : Finset ι} {g : Game π ι} {a : Session.State ι}
      (hg : s name = some g) (hturn : g.OnTurn p) (hstep : Session.Step g.session (.move pawns) a) :
      Answer board s (.move p name pawns) (Function.update s name (some { g with session := a }))
        (.game name { g with session := a })
  | refusedMove {p : π} {name : κ} {pawns : Finset ι} {g : Game π ι} (hg : s name = some g)
      (hplays : g.Plays p) (hno : ¬ (g.OnTurn p ∧ ∃ a, Session.Step g.session (.move pawns) a)) :
      Answer board s (.move p name pawns) s (.game name g)
  /-- Who gives up has a seat of the side that loses. -/
  | gaveUp {p : π} {name : κ} {winner : Side} {g : Game π ι} {a : Session.State ι}
      (hg : s name = some g) (hturn : g.OnTurn p) (hloser : g.playerOf winner.other = some p)
      (hstep : Session.Step g.session (.giveUp winner) a) :
      Answer board s (.giveUp p name) (Function.update s name (some { g with session := a }))
        (.game name { g with session := a })
  | refusedGiveUp {p : π} {name : κ} {g : Game π ι} (hg : s name = some g) (hplays : g.Plays p)
      (hno : ¬ g.OnTurn p) : Answer board s (.giveUp p name) s (.game name g)
  | kept {p : π} {name : κ} {g : Game π ι} (hg : s name = some g) (hplays : g.Plays p) :
      Answer board s (.keepAlive p name) s (.game name g)
  | noGame {request : Request π κ ι} {p : π} {name : κ} (habout : request.about = some (p, name))
      (hg : s name = none) : Answer board s request s .noGame
  | stranger {request : Request π κ ι} {p : π} {name : κ} {g : Game π ι}
      (habout : request.about = some (p, name)) (hg : s name = some g) (hno : ¬ g.Plays p) :
      Answer board s request s .stranger

/-- A request that is answered, or sessions that are closed. -/
inductive Label (π κ ι : Type*) where
  | answer (request : Request π κ ι) (response : Response π κ ι)
  | close

/-- The transitions of the service. -/
inductive Step (board : Finset ι) : State π κ ι → Label π κ ι → State π κ ι → Prop
  | answer {s s' : State π κ ι} {request : Request π κ ι} {response : Response π κ ι}
      (h : Answer board s request s' response) : Step board s (.answer request response) s'
  | close {s s' : State π κ ι} (h : ∀ name, s' name = s name ∨ s' name = none) :
      Step board s .close s'

end Service
