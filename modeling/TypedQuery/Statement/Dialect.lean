import TypedQuery.Text.Quoted

/-! # Dialects

    How a database writes identifiers and parameters. Unless a dialect says
    otherwise, identifiers stand between `"` and a parameter is `?`.
-/

namespace TypedQuery

/-- The lexical conventions of a database. -/
structure Dialect where
  name : String
  /-- The character on both sides of an identifier. -/
  quote : Char := '"'
  /-- The text that stands for a bound value. -/
  placeholder : String := "?"
  deriving DecidableEq, Repr

namespace Dialect

/-- MySQL puts identifiers between backticks. -/
def mysql : Dialect where
  name := "mysql"
  quote := '\x60'

/-- An identifier between quotes, the quotes in the name doubled. -/
def quoted (d : Dialect) (name : String) : String := Text.enclose d.quote name

end Dialect

end TypedQuery
