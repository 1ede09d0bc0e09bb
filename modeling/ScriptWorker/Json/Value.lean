/-!
# JSON values

Numbers are whole numbers or doubles, never both; an object holds its members sorted by key, each
key once.
-/

set_option autoImplicit false

namespace ScriptWorker.Json

/-- A JSON value. -/
inductive Value where
  | null
  | bool (b : Bool)
  | int (n : Int)
  | float (x : Float)
  | string (s : String)
  | array (items : List Value)
  | object (members : List (String × Value))
  deriving Inhabited

namespace Value

/-- The greatest number that is kept whole. -/
def greatestInt : Int := 0xFFFFFFFFFFFFFFFF

/-- The least number that is kept whole. -/
def leastInt : Int := -0x8000000000000000

/-- Puts a member into a list sorted by key, unless the key is there already. -/
def insertNew (key : String) (value : Value) : List (String × Value) → List (String × Value)
  | [] => [(key, value)]
  | (k, v) :: rest =>
    if key < k then (key, value) :: (k, v) :: rest
    else if key = k then (k, v) :: rest
    else (k, v) :: insertNew key value rest

/-- The object with the given members, the last of those with one key standing. -/
def ofMembers (members : List (String × Value)) : Value :=
  .object (members.foldr (fun (k, v) sorted => insertNew k v sorted) [])

end Value

end ScriptWorker.Json
