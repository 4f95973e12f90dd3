import SimSetup.Toml.DateTime

/-!
# Configuration values

The tree of values that a TOML document stands for. A table lists its entries in the order in which
they were made; no key occurs twice in a table that was read.
-/

namespace SimSetup.Toml

inductive Value
  | string (s : String)
  | integer (n : Int)
  | float (x : Float)
  | boolean (b : Bool)
  | datetime (d : DateTime)
  | array (items : List Value)
  | table (entries : List (String × Value))

abbrev Table := List (String × Value)

def Value.isTable : Value → Bool
  | table _ => true
  | _ => false

end SimSetup.Toml
