import BitTerms.Engine
import BitTerms.SExpr.Reader
import BitTerms.Solver.Peer

/-!
# The line to the solver

Commands go out as text, answers come back as s-expressions. Every command but a question is
acknowledged before the session goes on.
-/

namespace BitTerms

/-- The connection to a solver. -/
structure Channel where
  peer : Peer := {}
  log : Array Command := #[]
deriving Inhabited

inductive Response where
  | sat
  | unsat
  | unknown
deriving DecidableEq

namespace Channel

def unexpected (answer : SExpr) : Error := .solver (.unexpected answer.text)

def send (command : Command) : Action Channel Unit :=
  modify fun channel =>
    { channel with peer := channel.peer.receive command, log := channel.log.push command }

def receive : Action Channel SExpr := do
  let (answer, unread) := SExpr.read (← get).peer.unread
  modify fun channel => { channel with peer := { channel.peer with unread } }
  match answer with
  | some answer => return answer
  | none => throw (.solver .unreadable)

def acknowledge (command : Command) : Action Channel Unit := do
  send command
  match ← receive with
  | .symbol "success" => return ()
  | answer => throw (unexpected answer)

def check : Action Channel Response := do
  send .checkSat
  match ← receive with
  | .symbol "sat" => return .sat
  | .symbol "unsat" => return .unsat
  | .symbol "unknown" => return .unknown
  | answer => throw (unexpected answer)

def pairs? : List SExpr → Option (List (SExpr × SExpr))
  | [] => some []
  | .list [term, value] :: rest => (pairs? rest).map ((term, value) :: ·)
  | _ => none

/-- The value in an answer to a question for one value: the second part of the first pair. -/
def answeredValue : SExpr → Except Error SExpr
  | .list items =>
    match pairs? items with
    | some ((_, value) :: _) => .ok value
    | _ => .error .malformedModel
  | _ => .error (.solver .unreadable)

def value (term : String) : Action Channel SExpr := do
  send (.getValue term)
  answeredValue (← receive)

/-- Makes the solver acknowledge commands and keep models. -/
def greet : Action Channel Unit := do
  acknowledge (.setOption "print-success" "true")
  acknowledge (.setOption "produce-models" "true")

end Channel

end BitTerms
