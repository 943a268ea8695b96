/-
What can go wrong with a record or a query, without any exchange with the other side.
-/
namespace ContactSync

/-- the causes, with what a message needs to name -/
inductive Fault where
  | attributeNotFound (name place : String)
  | notATree (place : String)
  | notAList (place : String)
  | indexOutOfBounds (place : String) (index size : Nat)
  | missingIdentity (kind : String)
  | notFound (kind : String)
  | notPermitted (reason : String)
  deriving DecidableEq, Repr

def Fault.message : Fault → String
  | .attributeNotFound name place => "attribute not found: '" ++ name ++ "' (at " ++ place ++ ")"
  | .notATree place => "attribute '" ++ place ++ "' is not a nested object"
  | .notAList place => "attribute '" ++ place ++ "' is not a list"
  | .indexOutOfBounds place index size =>
    "index " ++ toString index ++ " out of bounds for '" ++ place ++ "' (len: " ++ toString size ++ ")"
  | .missingIdentity kind => "missing identity: " ++ kind ++ " has no id"
  | .notFound kind => kind ++ " not found"
  | .notPermitted reason => "operation not permitted: " ++ reason

end ContactSync
