/-!
# Tokens of YAML
-/

namespace UnusedMethods.Yaml

inductive Token where
  | streamEnd
  /-- A line `%YAML` with a version. -/
  | version (major minor : Nat)
  /-- A line `%TAG`: the handle stands for the start of a tag. -/
  | tagHandle (handle start : String)
  | documentStart
  | documentEnd
  | blockSequenceStart
  | blockMappingStart
  | blockEnd
  | flowSequenceStart
  | flowSequenceEnd
  | flowMappingStart
  | flowMappingEnd
  /-- The mark of an item, `-`. -/
  | blockEntry
  /-- The mark between items, `,`. -/
  | flowEntry
  | key
  | value
  | alias (name : String)
  | anchor (name : String)
  | tag (handle rest : String)
  | scalar (plain : Bool) (text : String)
deriving DecidableEq

end UnusedMethods.Yaml
