import TableScript.Value.Text

/-!
# Tokens

The words and signs that a line of a script is made of. Keywords are names like any other; the parser
tells them apart by where they stand.
-/

namespace TableScript.Script

/-- A word or sign of a script. -/
inductive Token where
  | name (s : String)
  | int (n : Int64)
  | float (x : Float)
  | str (s : String)
  | lParen
  | rParen
  | lBracket
  | rBracket
  | lBrace
  | rBrace
  | comma
  | colon
  | dot
  | assign
  | plus
  | minus
  | star
  | slash
  | percent
  | eq
  | ne
  | lt
  | le
  | gt
  | ge
  | amp
  | pipe
  | tilde
deriving DecidableEq

/-- The token as messages show it. -/
def Token.text : Token → String
  | name s => "Name(" ++ Text.quoted s ++ ")"
  | int n => "Int(" ++ decimalText n ++ ")"
  | float x => "Float(" ++ Decimal.explicit.text x ++ ")"
  | str s => "Str(" ++ Text.quoted s ++ ")"
  | lParen => "LParen"
  | rParen => "RParen"
  | lBracket => "LBracket"
  | rBracket => "RBracket"
  | lBrace => "LBrace"
  | rBrace => "RBrace"
  | comma => "Comma"
  | colon => "Colon"
  | dot => "Dot"
  | assign => "Assign"
  | plus => "Plus"
  | minus => "Minus"
  | star => "Star"
  | slash => "Slash"
  | percent => "Percent"
  | eq => "Eq"
  | ne => "Ne"
  | lt => "Lt"
  | le => "Le"
  | gt => "Gt"
  | ge => "Ge"
  | amp => "Amp"
  | pipe => "Pipe"
  | tilde => "Tilde"

end TableScript.Script
