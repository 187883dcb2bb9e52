import HeadUnit.Config
import HeadUnit.Text.Lines
import HeadUnit.Yaml.Integer
import HeadUnit.Yaml.Node.Reader

/-!
# Reading a configuration

A configuration is a YAML mapping with the sections `protocol`, `limits` and `policy`. Sections
and their members may be missing; members of another name, or given twice, are refused. The text
is that of a file, which may be missing or hold something else.

## Main definitions

* `Config.ofDocument?` — the configuration of a YAML document.
* `Config.ofText` — the configuration of a text, validated.
* `Config.ofSource` — the configuration of a file.
-/

namespace HeadUnit.Config

open Yaml (Document Node)

/-- A number below `limit` under `key`, or the default. -/
def number? (d : Document) (members : List (String × Node)) (key : String)
    (limit default : Nat) : Option Nat :=
  match members.lookup key with
  | some node => (d.unsigned? node).filter (· < limit)
  | none => some default

/-- The members of the section under `key`. -/
def section? (d : Document) (members : List (String × Node)) (key : String)
    (keys : List String) : Option (List (String × Node)) :=
  match members.lookup key with
  | some node => d.members? keys node
  | none => some []

/-- The texts of the sequence under `key`. -/
def texts? (d : Document) (members : List (String × Node)) (key : String) :
    Option (List String) :=
  match members.lookup key with
  | some node => (d.items? node).bind fun items => items.mapM d.text?
  | none => some []

/-- The configuration of a YAML document. -/
def ofDocument? (d : Document) : Option Config := do
  let members ← d.members? ["version", "protocol", "limits", "policy"] d.root
  let version ← (members.lookup "version").bind d.unsigned?
  let protocol ← section? d members "protocol" ["version", "min_version"]
  let limits ← section? d members "limits" ["max_frame_bytes"]
  let policy ← section? d members "policy" ["allow"]
  let newest ← number? d protocol "version" UInt8.size 5
  let oldest ← number? d protocol "min_version" UInt8.size 1
  let frameLimit ← number? d limits "max_frame_bytes" UInt64.size 131072
  let allow ← texts? d policy "allow"
  if version < UInt32.size then
    some ⟨version.toUInt32, newest.toUInt8, oldest.toUInt8, frameLimit, allow⟩
  else none

/-- The configuration of a text, if it reads and is in order. -/
def ofText (s : String) : Except Error Config :=
  match (Yaml.document? s).bind ofDocument? with
  | none => .error (.badRequest .notYaml)
  | some config => config.validate.map fun _ => config

/-! ## Files -/

/-- Why there is no text. -/
inductive SourceFault where
  | missing
  | directory
  | notText
  | other (detail : String)
deriving DecidableEq, Repr

def SourceFault.message : SourceFault → String
  | .missing => "No such file or directory (os error 2)"
  | .directory => "Is a directory (os error 21)"
  | .notText => Text.notText
  | .other detail => detail

/-- The configuration of a file. -/
def ofSource : Except SourceFault String → Except Error Config
  | .error fault => .error (.internal ("read config failed: " ++ fault.message))
  | .ok text => ofText text

end HeadUnit.Config
