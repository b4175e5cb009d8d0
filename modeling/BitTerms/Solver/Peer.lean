import BitTerms.SmtSort

/-!
# Commands and the solver that gets them

The commands of a session, as values and as the text that is sent, and the solver at the other
end: it prints prepared replies, one for each command, and may stop in the middle of a session.
-/

namespace BitTerms

/-! ## Commands -/

/-- A command to the solver. Names and terms are given as they are written. -/
inductive Command where
  | setOption (option value : String)
  | declare (symbol : String) (sort : SmtSort)
  | assert (term : String)
  /-- Opens assertion levels; without a number, the one that the command stands for by itself. -/
  | push (levels : Option Nat)
  | pop (levels : Option Nat)
  | checkSat
  | getValue (term : String)
deriving DecidableEq

namespace Command

def head : Command → String
  | .setOption _ _ => "set-option"
  | .declare _ _ => "declare-const"
  | .assert _ => "assert"
  | .push _ => "push"
  | .pop _ => "pop"
  | .checkSat => "check-sat"
  | .getValue _ => "get-value"

def operands : Command → List String
  | .setOption option value => [":" ++ option, value]
  | .declare symbol sort => [symbol, sort.text]
  | .assert term => [term]
  | .push levels | .pop levels => levels.toList.map toString
  | .checkSat => []
  | .getValue term => ["(" ++ term ++ ")"]

def text (command : Command) : String :=
  "(" ++ " ".intercalate (command.head :: command.operands) ++ ")"

def plainReply : Command → String
  | .checkSat => "unknown"
  | _ => "success"

end Command

/-! ## The solver's side -/

/-- A solver that answers from prepared replies. -/
structure Peer where
  /-- The replies still to come, by the first word of the command they answer. -/
  replies : List (String × List String) := []
  unread : List String := []
  running : Bool := true
deriving Inhabited

namespace Peer

/-- The end-of-transmission character: a reply that ends in it is the solver's last one. -/
def lastMark : Char := '\x04'

def takeReply (head : String) :
    List (String × List String) → Option String × List (String × List String)
  | [] => (none, [])
  | (other, queue) :: rest =>
    if other = head then
      match queue with
      | [] => (none, (other, []) :: rest)
      | reply :: queue => (some reply, (other, queue) :: rest)
    else
      let (reply, rest) := takeReply head rest
      (reply, (other, queue) :: rest)

def lines (text : List Char) : List String := (text.splitOn '\n').map String.ofList

def print (reply : String) (peer : Peer) : Peer :=
  let text := reply.toList
  if text.getLast? = some lastMark then
    { peer with unread := peer.unread ++ lines text.dropLast, running := false }
  else
    { peer with unread := peer.unread ++ lines text }

def receive (command : Command) (peer : Peer) : Peer :=
  if peer.running then
    let (reply, replies) := takeReply command.head peer.replies
    { peer with replies }.print (reply.getD command.plainReply)
  else
    peer

end Peer

end BitTerms
