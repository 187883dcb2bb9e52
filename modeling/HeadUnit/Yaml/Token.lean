import HeadUnit.Yaml.Tag

/-!
# YAML tokens

Block collections are marked by indentation, so their tokens do not stand in the text; flow
collections are marked by brackets.
-/

namespace HeadUnit.Yaml

/-- How a scalar is written. -/
inductive Style where
  | plain
  | quoted
  | literal
  | folded
deriving DecidableEq, Repr

inductive Token where
  | versionDirective
  | tagDirective (handle : String) (address : Tag)
  | documentStart
  | documentEnd
  | beginBlockSequence
  | beginBlockMapping
  | endBlock
  | beginFlowSequence
  | endFlowSequence
  | beginFlowMapping
  | endFlowMapping
  | entry
  | comma
  | key
  | value
  | alias (name : String)
  | anchor (name : String)
  | tag (handle : String) (suffix : Tag)
  | scalar (style : Style) (text : String)
deriving DecidableEq, Repr

end HeadUnit.Yaml
