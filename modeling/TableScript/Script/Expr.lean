import TableScript.Value

/-!
# Statements and expressions

What a line of a script says. A script is a sequence of lines with at most one statement each.
-/

namespace TableScript.Script

/-- Operators between two operands. -/
inductive BinaryOp where
  | add
  | sub
  | mul
  | div
  | mod
  | eq
  | ne
  | lt
  | le
  | gt
  | ge
  | bitAnd
  | bitOr
  | and
  | or
deriving DecidableEq

/-- The operator as it is written. -/
def BinaryOp.symbol : BinaryOp → String
  | add => "+"
  | sub => "-"
  | mul => "*"
  | div => "/"
  | mod => "%"
  | eq => "=="
  | ne => "!="
  | lt => "<"
  | le => "<="
  | gt => ">"
  | ge => ">="
  | bitAnd => "&"
  | bitOr => "|"
  | and => "and"
  | or => "or"

/-- Operators before an operand. -/
inductive UnaryOp where
  | neg
  | not
  | invert
deriving DecidableEq

/-- An expression. -/
inductive Expr where
  | literal (v : Value)
  | name (s : String)
  | list (items : List Expr)
  | dict (entries : List (Expr × Expr))
  | unary (op : UnaryOp) (operand : Expr)
  | binary (op : BinaryOp) (left right : Expr)
  | index (target position : Expr)
  | member (target : Expr) (name : String)
  | call (function : Expr) (arguments : List Expr) (keywords : List (String × Expr))
deriving Inhabited

/-- The expression is just a name. -/
def Expr.isName : Expr → Bool
  | name _ => true
  | _ => false

/-- What can be assigned to or deleted. -/
inductive Target where
  | name (s : String)
  | column (frame : String) (label : Expr)

/-- A statement. -/
inductive Statement where
  | load (module shortName : String)
  | assign (target : Target) (value : Expr)
  | delete (target : Target)
  | expr (e : Expr)

/-- The statement is an expression that is just a name. -/
def Statement.isName : Statement → Bool
  | expr e => e.isName
  | _ => false

end TableScript.Script
