import TableScript.Script.Token
import TableScript.Frame

/-!
# Errors of scripts

Everything that can go wrong in a line of a script, by cause. Values are named in messages by their kind
only, so most causes carry kinds.
-/

namespace TableScript.Script

/-! ## Syntax -/

/-- Why a line is no statement. The last cause is of another kind: the reading has not come to an end
within its steps. No line has that cause (`lineStatement?_ended`). -/
inductive SyntaxError where
  | unexpectedCharacter (c : Char)
  | unterminatedString
  | invalidNumber (text : String)
  | afterStatement (found : Token)
  | expected (wanted : Token) (found : Option Token)
  | expectedName (found : Option Token)
  | positionalAfterKeyword
  | unexpected (found : Option Token)
  | notColumnOfName
  | notAssignable
  | cutOff
deriving DecidableEq

/-- The token found, or the end of the line. -/
def foundText : Option Token → String
  | some token => token.text
  | none => "end of line"

/-- The text of the error. -/
def SyntaxError.message : SyntaxError → String
  | unexpectedCharacter c => "unexpected character " ++ Text.quotedChar c
  | unterminatedString => "unterminated string literal"
  | invalidNumber text => "invalid number " ++ Text.quoted text
  | afterStatement found => "unexpected " ++ found.text ++ " after statement"
  | expected wanted found => "expected " ++ wanted.text ++ ", found " ++ foundText found
  | expectedName found => "expected a name, found " ++ foundText found
  | positionalAfterKeyword => "positional argument follows keyword argument"
  | unexpected found => "unexpected " ++ foundText found
  | notColumnOfName => "can only assign to a column of a named dataframe"
  | notAssignable => "cannot assign to expression"
  | cutOff => "not read to the end"

/-! ## Types -/

/-- The most bytes that repeating a text may make. -/
def longestText : Nat := Nat.pow 2 24

/-- Why values do not fit an operation. Kinds are given by their names. -/
inductive TypeError where
  | notCallable
  | ambiguousTruth (kind : String)
  | missingArgument (name : String)
  | argumentNotScalar (name kind : String)
  | argumentNotInt (name kind : String)
  | insertOutOfBounds (position : Int64)
  | renameNeedsColumns
  | newNameNotText (kind : String)
  | dropNeedsLabels
  | readNeedsPath
  | columnsNotDict (kind : String)
  | cannotAverage (kind : String)
  | replaceNeedsTexts
  | noLength (kind : String)
  | cannotRound (kind : String)
  | notInt (value : Value)
  | notFloat (value : Value)
  | badInverted (kind : String)
  | badOperand (kind : String)
  | seriesLengths (left right : Nat)
  | badOperands (operator left right : String)
  | textTooLong
  | cannotOrder (left right : String)
  | maskLength (mask series : Nat)
  | maskNotBool (kind : String)
  | cannotIndex (target index : String)
  | notScalar (kind : String)
  | labelNotText (kind : String)
  | labelsNotTexts
  | notLabels (kind : String)
  | notCells (kind : String)

/-- The text of the error. -/
def TypeError.message : TypeError → String
  | notCallable => "expression is not callable"
  | ambiguousTruth kind => "the truth value of a " ++ kind ++ " is ambiguous; use & or |"
  | missingArgument name => "missing required argument " ++ Text.quoted name
  | argumentNotScalar name kind =>
    "argument " ++ Text.quoted name ++ " must be a scalar, not " ++ kind
  | argumentNotInt name kind => "argument " ++ Text.quoted name ++ " must be an int, not " ++ kind
  | insertOutOfBounds position =>
    "insert location " ++ decimalText position ++ " is out of bounds"
  | renameNeedsColumns => "rename expects columns=\x7bold: new\x7d"
  | newNameNotText kind => "new column name must be a str, not " ++ kind
  | dropNeedsLabels => "drop needs column labels"
  | readNeedsPath => "read_csv expects a path"
  | columnsNotDict kind => "DataFrame expects a dict of columns, not " ++ kind
  | cannotAverage kind => "cannot average " ++ kind
  | replaceNeedsTexts => "replace expects two strings"
  | noLength kind => "object of type " ++ kind ++ " has no len()"
  | cannotRound kind => "cannot round " ++ kind
  | notInt value => "cannot convert " ++ value.explicitText ++ " to int"
  | notFloat value => "cannot convert " ++ value.explicitText ++ " to float"
  | badInverted kind => "bad operand type for ~: " ++ kind
  | badOperand kind => "bad operand type: " ++ kind
  | seriesLengths left right =>
    "series lengths differ: " ++ toString left ++ " and " ++ toString right
  | badOperands operator left right =>
    "unsupported operand types for " ++ operator ++ ": " ++ left ++ " and " ++ right
  | textTooLong => "repeated string would exceed " ++ toString longestText ++ " bytes"
  | cannotOrder left right => "cannot order " ++ left ++ " and " ++ right
  | maskLength mask series =>
    "mask has " ++ toString mask ++ " entries, series has " ++ toString series
  | maskNotBool kind => "row mask must hold bools, found " ++ kind
  | cannotIndex target index => target ++ " cannot be indexed by " ++ index
  | notScalar kind => "expected a scalar, found " ++ kind
  | labelNotText kind => "column labels must be str, not " ++ kind
  | labelsNotTexts => "column labels must be str"
  | notLabels kind => "expected column labels, found " ++ kind
  | notCells kind => "cannot store a " ++ kind ++ " in a column"

/-! ## What the language lacks -/

/-- What the script language does not have. -/
inductive Unsupported where
  | module (name : String)
  | droppingRows
  | inPlace (method : String)
  | frameMethod (method : String)
  | moduleFunction (library function : String)
  | lacksAttribute (name kind : String)
  | seriesMethod (method : String)
  | scalarMethod (kind method : String)
deriving DecidableEq

/-- The text of the error. -/
def Unsupported.message : Unsupported → String
  | module name => "module " ++ Text.quoted name
  | droppingRows => "dropping rows; pass axis=1 or columns=[...]"
  | inPlace method => "in-place DataFrame." ++ method
  | frameMethod method => "DataFrame." ++ method
  | moduleFunction library function => library ++ "." ++ function
  | lacksAttribute name kind => "attribute " ++ Text.quoted name ++ " of " ++ kind
  | seriesMethod method => "Series." ++ method
  | scalarMethod kind method => kind ++ "." ++ method

/-! ## Failures of statements and scripts -/

/-- Why a statement fails. -/
inductive StatementError where
  | malformed (cause : SyntaxError)
  | unknownName (name : String)
  | key (label : String)
  | type (cause : TypeError)
  | unsupported (what : Unsupported)
  | frame (cause : FrameError)

/-- The text of the error. -/
def StatementError.message : StatementError → String
  | malformed cause => "syntax error: " ++ cause.message
  | unknownName name => "name " ++ Text.quoted name ++ " is not defined"
  | key label => "key not found: " ++ Text.quoted label
  | type cause => "type error: " ++ cause.message
  | unsupported what => "unsupported: " ++ what.message
  | frame cause => cause.message

/-- The failure of a script: the line, counted from one, and what went wrong there. -/
structure ScriptError where
  line : Nat
  cause : StatementError

/-- The text of the error. -/
def ScriptError.message (e : ScriptError) : String :=
  "line " ++ toString e.line ++ ": " ++ e.cause.message

end TableScript.Script
