/-!
# Why a text is not the YAML that is wanted
-/

namespace Provisioning

namespace Yaml

/-- What is wrong with a text.  Lines and columns count from zero. -/
inductive Error where
  /-- A character that no text may hold. -/
  | control (code : Nat)
  /-- Characters that do not make what they begin. -/
  | malformed (what : String) (line column : Nat)
  /-- Something in a place where it cannot stand. -/
  | misplaced (what : String)
  /-- A reference to nothing. -/
  | unknownAnchor (name : String)
  /-- Collections inside one another, or references, beyond all bounds. -/
  | tooDeep
  /-- More than one document. -/
  | severalDocuments
  /-- A key that comes twice. -/
  | duplicateKey (key : String)
  /-- A key that is not known. -/
  | unknownKey (key : String)
  /-- A key that is not there. -/
  | missingKey (key : String)
  /-- A value of another type than is wanted. -/
  | wrongType (wanted : String)
deriving DecidableEq

/-- What is said of a text that is not the YAML that is wanted. -/
def Error.message : Error → String
  | control code => "control characters are not allowed (code " ++ toString code ++ ")"
  | malformed what line column =>
    "malformed " ++ what ++ " at line " ++ toString (line + 1) ++ " column "
      ++ toString (column + 1)
  | misplaced what => what ++ " is not allowed here"
  | unknownAnchor name => "unknown anchor " ++ name
  | tooDeep => "recursion limit exceeded"
  | severalDocuments => "more than one document"
  | duplicateKey key => "duplicate key " ++ key
  | unknownKey key => "unknown key " ++ key
  | missingKey key => "missing key " ++ key
  | wrongType wanted => "invalid type, expected " ++ wanted

end Yaml

end Provisioning
