import MailTemplate.Render.Run
import MailTemplate.Style
import MailTemplate.Yaml.Document

/-!
# Configuration

The settings of a renderer, and their form as a YAML file. Every setting is optional there; unknown
and repeated ones are refused.
-/

namespace MailTemplate

structure RenderConfig where
  strict : Bool
  /-- How many iterations all loops of a render may have together. -/
  maxIterations : Option Nat
  /-- What the wrapped style sheet takes the place of. -/
  placeholder : String
  deriving Repr, DecidableEq

namespace RenderConfig

def default : RenderConfig := ⟨false, none, Style.defaultPlaceholder⟩

instance : Inhabited RenderConfig := ⟨default⟩

def options (c : RenderConfig) : RenderOptions := ⟨c.strict, c.maxIterations⟩

/-! ## Scalars as settings -/

def coreTag (name : String) : Yaml.Tag := Yaml.coreTags ++ name.toUTF8.toList

def nullTag : Yaml.Tag := coreTag "null"

def boolTag : Yaml.Tag := coreTag "bool"

def intTag : Yaml.Tag := coreTag "int"

/-- Whether a scalar may stand for a value that is no string: a plain one, or a literal block with
the tag of that value. -/
def isUntyped (tag : Yaml.Tag) (s : Yaml.Scalar) : Bool :=
  match s.style with
  | .plain => true
  | .literal => s.tag == some tag
  | _ => false

def isNullText (s : String) : Bool := s == "null" || s == "Null" || s == "NULL" || s == "~"

def toBool? (s : Yaml.Scalar) : Option Bool :=
  if isUntyped boolTag s then
    if s.text == "true" || s.text == "True" || s.text == "TRUE" then some true
    else if s.text == "false" || s.text == "False" || s.text == "FALSE" then some false
    else none
  else none

/-- The number below `2^64` that a text stands for, with an optional sign and base. In decimal it
has no zeros in front. -/
def naturalOf? (s : String) : Option Nat :=
  let cs := match s.toList with
    | '+' :: cs => cs
    | cs => cs
  let n := match cs with
    | '0' :: 'x' :: ds => Number.ofDigitsIn? 16 ds
    | '0' :: 'o' :: ds => Number.ofDigitsIn? 8 ds
    | '0' :: 'b' :: ds => Number.ofDigitsIn? 2 ds
    | '0' :: _ :: _ => none
    | cs => Number.ofDigitsIn? 10 cs
  n.filter (· < UInt64.size)

/-- An optional number; the outer option fails if the scalar is neither null nor a number. -/
def toLimit? (s : Yaml.Scalar) : Option (Option Nat) :=
  let number := if isUntyped intTag s then (naturalOf? s.text).map some else none
  match s.style, s.tag with
  | .plain, none => if s.text.isEmpty || isNullText s.text then some none else number
  | .plain, some tag =>
      if tag == nullTag then if isNullText s.text then some none else none else number
  | _, _ => number

/-! ## Settings from a file -/

def set? (c : RenderConfig) (key value : Yaml.Scalar) : Option RenderConfig :=
  match key.text with
  | "strict" => (toBool? value).map fun b => { c with strict := b }
  | "max_iterations" => (toLimit? value).map fun n => { c with maxIterations := n }
  | "placeholder" => some { c with placeholder := value.text }
  | _ => none

def ofYaml? (s : String) : Option RenderConfig :=
  match Yaml.Document.ofText? s with
  | none => none
  | some .empty => some default
  | some (.mapping entries) =>
      if (entries.map (·.1.text)).Nodup then
        entries.foldlM (fun c e => c.set? e.1 e.2) default
      else none

end RenderConfig

end MailTemplate
