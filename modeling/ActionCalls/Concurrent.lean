import ActionCalls.Session

/-!
# Two requests at once

Two requests may be at work on one session. Before its document is delivered, each of them takes
three steps: it stores its blacklist in the engine, it takes a copy of the blacklist that is in the
engine, and it analyzes with this copy. Between two steps of one request there may be steps of the
other, and a schedule says whose turn it is. The engine has one blacklist for both.
-/

namespace ActionCalls

/-- One of two requests. -/
inductive Side where
  | first
  | second
  deriving Repr, DecidableEq

def Side.other : Side → Side
  | .first => .second
  | .second => .first

/-- How far a request has come. -/
inductive Progress where
  | asked
  /-- The blacklist that it names, if any, is stored. -/
  | loaded
  /-- It has a copy of the blacklist. -/
  | copied (names : Blacklist)
  /-- It has its document, or has failed. -/
  | answered (result : Except CommandFailure Text)

/-- Two requests at work on a session. -/
structure Concurrent where
  session : Session
  progress : Side → Progress

namespace Concurrent

/-- The requests before their first steps. -/
def start (session : Session) : Concurrent := ⟨session, fun _ => .asked⟩

/-- The request of a side has come further. -/
def reach (state : Concurrent) (side : Side) (progress : Progress) : Concurrent :=
  { state with
    progress := fun other => if other = side then progress else state.progress other }

/-- Stores the blacklist of a request. -/
def store (state : Concurrent) (side : Side) (request : AnalysisRequest) : Concurrent :=
  match state.session.engine.loadBlacklist? state.session.disk request.blacklist with
  | .error e => state.reach side (.answered (.error e))
  | .ok engine =>
      { state with session := { state.session with engine := engine } }.reach side .loaded

/-- What a request is answered that analyzes with some blacklist. -/
def answer (session : Session) (request : AnalysisRequest) (names : Blacklist) :
    Except CommandFailure Text :=
  ((session.engine.setBlacklist names).analyze session.disk request.root).mapError
    (.attempt (.analyze request.root))

variable (requests : Side → AnalysisRequest)

/-- The next step of one request. An answered request has none. -/
def turn (state : Concurrent) (side : Side) : Concurrent :=
  match state.progress side with
  | .asked => state.store side (requests side)
  | .loaded => state.reach side (.copied state.session.engine.blacklist)
  | .copied names => state.reach side (.answered (answer state.session (requests side) names))
  | .answered _ => state

/-- The steps of a schedule, one after the other. -/
def run (state : Concurrent) (schedule : List Side) : Concurrent :=
  schedule.foldl (turn requests) state

end Concurrent

end ActionCalls
