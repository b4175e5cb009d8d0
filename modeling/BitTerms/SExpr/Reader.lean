import BitTerms.SExpr
import BitTerms.Text.Alphanumeric
import BitTerms.Text.Blank

/-!
# Reading s-expressions

The output of a solver is read line by line until an s-expression is complete. Each line is cut
into tokens on its own: a string or a name between bars that is still open at the end of its line
is dropped, while lists stay open.
-/

namespace BitTerms.SExpr

/-! ## Tokens -/

inductive Token where
  | opening
  | closing
  | symbol (text : String)
  | string (raw : String)
deriving DecidableEq

/-- Where in a line the reader is. What has been read of a token is kept last character first. -/
inductive Mode where
  | blank
  | comment
  | symbol (read : List Char) (barred : Bool)
  | string (read : List Char) (escaped : Bool)

def isSymbolPart (character : Char) : Bool :=
  Text.isAlphanumeric character || "~!@$%^&*_-+=<>.?/".toList.contains character

def start (character : Char) : List Token × Mode :=
  match character with
  | '(' => ([.opening], .blank)
  | ')' => ([.closing], .blank)
  | ';' => ([], .comment)
  | '"' => ([], .string [] false)
  | _ =>
    if Text.isBlank character then
      ([], .blank)
    else
      ([], .symbol [character] (character == '|'))

def symbolToken (read : List Char) : Token := .symbol (String.ofList read.reverse)

def step (character : Char) : Mode → List Token × Mode
  | .blank => start character
  | .comment => ([], .comment)
  | .symbol read barred =>
    if character = '|' then
      ([], .symbol (character :: read) !barred)
    else if barred || isSymbolPart character then
      ([], .symbol (character :: read) barred)
    else
      let (tokens, mode) := start character
      (symbolToken read :: tokens, mode)
  | .string read escaped =>
    if escaped then
      ([], .string (character :: read) false)
    else if character = '"' then
      ([.string (String.ofList read.reverse)], .blank)
    else
      ([], .string (character :: read) (character == '\\'))

def finish : Mode → List Token
  | .symbol read false => [symbolToken read]
  | _ => []

def advance (state : List Token × Mode) (character : Char) : List Token × Mode :=
  let (tokens, mode) := step character state.2
  (tokens.reverse ++ state.1, mode)

def tokens (line : String) : List Token :=
  let (tokens, mode) := line.toList.foldl advance ([], .blank)
  tokens.reverse ++ finish mode

/-! ## Expressions -/

/-- The lists that are open, the innermost first, each with its items last one first. -/
abbrev OpenLists := List (List SExpr)

/-- How far the reading of an expression has come. -/
inductive Progress where
  | complete (expression : SExpr)
  | unfinished (lists : OpenLists)

/-- An item that is complete: it is the expression if no list is open, and goes into the
innermost list otherwise. -/
def place (item : SExpr) : OpenLists → Progress
  | [] => .complete item
  | items :: rest => .unfinished ((item :: items) :: rest)

/-- Takes in one token. A closing parenthesis with no list open is passed over. -/
def accept : Token → OpenLists → Progress
  | .opening, lists => .unfinished ([] :: lists)
  | .closing, [] => .unfinished []
  | .closing, items :: lists => place (.list items.reverse) lists
  | .symbol text, lists => place (.symbol text) lists
  | .string raw, lists => place (.string raw) lists

/-- Takes in the tokens of a line. The expression, once it is complete, ends the reading, and the
rest of the line is dropped. -/
def assemble (lists : OpenLists) : List Token → Progress
  | [] => .unfinished lists
  | token :: rest =>
    match accept token lists with
    | .complete expression => .complete expression
    | .unfinished lists => assemble lists rest

/-- Reads lines until an expression is complete, and gives the lines behind it. -/
def readFrom (lists : OpenLists) : List String → Option SExpr × List String
  | [] => (none, [])
  | line :: rest =>
    match assemble lists (tokens line) with
    | .complete expression => (some expression, rest)
    | .unfinished lists => readFrom lists rest

def read (lines : List String) : Option SExpr × List String := readFrom [] lines

end BitTerms.SExpr
