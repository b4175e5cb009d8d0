import BitTerms.Text.Invisible

/-!
# Quoted text

The form in which a report shows a text: in double quotes, with a backslash in front of quotes and
backslashes, short names for the common control characters, and the code point of every other
character that leaves no mark of its own.
-/

namespace BitTerms.Text

def quotedChar (character : Char) : String :=
  match character with
  | '"' => "\\\""
  | '\\' => "\\\\"
  | '\n' => "\\n"
  | '\r' => "\\r"
  | '\t' => "\\t"
  | '\x00' => "\\0"
  | _ =>
    if isInvisible character then
      "\\u\x7b" ++ String.ofList (Nat.toDigits 16 character.toNat) ++ "\x7d"
    else
      character.toString

def quoted (text : String) : String :=
  "\"" ++ String.join (text.toList.map quotedChar) ++ "\""

end BitTerms.Text
