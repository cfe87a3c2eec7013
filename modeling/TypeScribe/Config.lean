/-!
The settings of a conversion.
-/

namespace TypeScribe

structure Config where
  /-- Property names begin in lower case. -/
  propertiesToCamelCase : Bool := false
  /-- Postfixes taken off type and member names, the earlier ones first. -/
  trimPostfixes : List String := []
  /-- Postfixes are taken off until none fits. -/
  recursiveTrimPostfixes : Bool := false
  deriving DecidableEq, Repr, Inhabited

end TypeScribe
