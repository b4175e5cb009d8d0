/-!
# Symbols

The spelling of a variable's name. Most names are written as they are; one that could be mistaken
for something else stands between bars, where anything but a bar and a backslash may be written.
-/

namespace BitTerms.Symbol

/-- The characters other than letters and digits that a symbol may hold without bars. -/
def marks : List Char := "~!@$%^&*_-+=<>.?/".toList

def isStart (character : Char) : Bool := character.isAlpha || marks.contains character

def isPart (character : Char) : Bool := character.isAlphanum || marks.contains character

/-- Whether the name needs no bars. -/
def isSimple (name : String) : Bool :=
  match name.toList with
  | [] => false
  | first :: rest => isStart first && rest.all isPart

def text (name : String) : String := if isSimple name then name else "|" ++ name ++ "|"

/-- Whether the name can be written at all. -/
def isSpellable (name : String) : Bool :=
  name.toList.all fun character => character != '|' && character != '\\'

example : text "a.b_c-1" = "a.b_c-1" := by decide +kernel

example : text "#b1" = "|#b1|" := by decide +kernel

end BitTerms.Symbol
