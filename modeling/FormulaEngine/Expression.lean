import FormulaEngine.Value
/-!
# Expressions

The tree of a formula as a reader of formulas hands it over. An operator is its symbol, which need
not be one that expressions may have, and a value can stand where an expression should.
-/
namespace FormulaEngine

inductive Expression where
  | literal (v : Value)
  | identifier (name : String)
  | call (name : String) (args : List Expression)
  | unary (op : String) (operand : Expression)
  | binary (op : String) (left right : Expression)
  /-- A value that is no expression. -/
  | foreign (v : Value)
deriving Inhabited

end FormulaEngine
