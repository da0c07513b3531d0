import ExpressLinks.Decimal.Double

/-!
# TOML values

What a TOML document says: a table of names with values.
-/

namespace ExpressLinks.Toml

/-- A value of a TOML document. A date or time is kept as it is written. -/
inductive Value where
  | text (content : String)
  | integer (value : Int)
  | float (value : Double)
  | bool (value : Bool)
  | date (content : String)
  | array (items : List Value)
  | table (entries : List (String × Value))
  deriving Repr

end ExpressLinks.Toml
