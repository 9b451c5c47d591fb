import Mathlib

/-! # JSON values -/

/-- A JSON value as Python holds it.  A float is kept as the text Python prints for it. -/
inductive Json where
  | null
  | bool (b : Bool)
  | num (n : ℤ)
  | float (text : String)
  | str (s : String)
  | arr (items : List Json)
  | obj (entries : List (String × Json))
deriving Inhabited

namespace Json

/-- `value.get(key)` on a dictionary; `null` when the key is missing. -/
def get (value : Json) (key : String) : Json :=
  match value with
  | obj entries => (entries.lookup key).getD null
  | _ => null

/-- `bool(value)`. -/
def truthy : Json → Bool
  | null => false
  | bool b => b
  | num n => n != 0
  | float text => text != "0.0" && text != "-0.0"
  | str s => s != ""
  | arr items => !items.isEmpty
  | obj entries => !entries.isEmpty

end Json
