/-!
# TOML values

The values of a TOML document. Of real numbers and of dates and times only their presence matters.
-/

namespace FactStream.Toml

/-- A value of a TOML document. -/
inductive Value where
  | text (s : String)
  | int (i : Int)
  | real
  | bool (b : Bool)
  | moment
  | list (items : List Value)
  | table (entries : List (String × Value))

end FactStream.Toml
