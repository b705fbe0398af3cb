import MailTemplate.Yaml.Token

/-!
# Flat YAML documents

A flat document is empty or a mapping of scalars to scalars, in block or flow style. Such
documents may have directives, markers, comments, tags, anchors and aliases; whatever holds a
collection in another, is no mapping, or is malformed is refused.
-/

namespace MailTemplate.Yaml

/-- A document without nested collections. -/
inductive Document where
  | empty
  | mapping (entries : List (Scalar × Scalar))
  deriving Repr

/-! ## Nodes -/

/-- A scalar or an alias as it is written. -/
inductive Node where
  | scalar (anchor : Option String) (s : Scalar)
  | alias (name : String)
  deriving Repr

/-- The scalar of a node that is left out. -/
def emptyScalar (tag : Option Tag) : Scalar := ⟨.plain, tag, ""⟩

def Node.empty : Node := .scalar none (emptyScalar none)

structure Properties where
  anchor : Option String
  tag : Option Tag

/-- Reads a tag and an anchor, in any order. -/
def readProperties? (handles : Handles) : List Token → Option (Properties × List Token)
  | .anchor a :: .tag t :: ts | .tag t :: .anchor a :: ts =>
      (t.resolve? handles).map fun tag => (⟨some a, some tag⟩, ts)
  | .anchor a :: ts => some (⟨some a, none⟩, ts)
  | .tag t :: ts => (t.resolve? handles).map fun tag => (⟨none, some tag⟩, ts)
  | ts => some (⟨none, none⟩, ts)

def Node.ofTokens? (handles : Handles) : List Token → Option Node
  | [.alias name] => some (.alias name)
  | ts => do
      match ← readProperties? handles ts with
      | (props, []) => return .scalar props.anchor (emptyScalar props.tag)
      | (props, [.scalar style text]) =>
          return .scalar props.anchor ⟨style, props.tag, text⟩
      | _ => none

/-! ## Mappings -/

/-- The parts of a list between the elements that satisfy `p`. -/
def parts {α : Type} (p : α → Bool) : List α → List (List α)
  | [] => [[]]
  | a :: as =>
      if p a then [] :: parts p as
      else match parts p as with
        | [] => [[a]]
        | q :: qs => (a :: q) :: qs

/-- The key and value that tokens behind the announcement of a key make up. -/
def item? (handles : Handles) (ts : List Token) : Option (Node × Node) := do
  let key ← Node.ofTokens? handles (ts.takeWhile (· != .value))
  match ts.dropWhile (· != .value) with
  | [] => return (key, .empty)
  | _ :: ts => return (key, ← Node.ofTokens? handles ts)

/-- The entries of a mapping in block style: each one starts with a key. -/
def blockEntries? (handles : Handles) (ts : List Token) : Option (List (Node × Node)) :=
  match parts (· == .key) ts with
  | [] :: entries => entries.mapM (item? handles)
  | _ => none

/-- An entry of a mapping in flow style; without the announcement of a key it has no value. -/
def flowItem? (handles : Handles) : List Token → Option (Node × Node)
  | [] => none
  | .key :: ts => item? handles ts
  | ts => (Node.ofTokens? handles ts).map (·, .empty)

/-- The entries of a mapping in flow style: a comma may follow the last one. -/
def flowEntries? (handles : Handles) (ts : List Token) : Option (List (Node × Node)) :=
  let entries := parts (· == .separator) ts
  (if entries.getLast? == some [] then entries.dropLast else entries).mapM (flowItem? handles)

/-! ## Anchors -/

/-- What anchors name. An anchor is numbered by how many names are in use before it, and a number
that is given again stands for the later node in the whole document. -/
structure Anchors where
  numbers : List (String × Nat)
  /-- The latest comes first; without a scalar for a mapping. -/
  nodes : List (Nat × Option Scalar)

def Anchors.add (a : Anchors) (name : String) (s : Option Scalar) : Anchors :=
  let n := a.numbers.length
  ⟨(name, n) :: a.numbers.filter (·.1 != name), (n, s) :: a.nodes⟩

def Anchors.addFrom (a : Anchors) (anchor : Option String) (s : Option Scalar) : Anchors :=
  match anchor with
  | some name => a.add name s
  | none => a

/-- A node in which the number of an anchor has taken the place of an alias. -/
inductive Reference where
  | scalar (s : Scalar)
  | number (n : Nat)

def Anchors.note? (a : Anchors) : Node → Option (Reference × Anchors)
  | .scalar anchor s => some (.scalar s, a.addFrom anchor (some s))
  | .alias name => (a.numbers.lookup name).map fun n => (.number n, a)

def Anchors.noteAll? (a : Anchors) :
    List (Node × Node) → Option (List (Reference × Reference) × Anchors)
  | [] => some ([], a)
  | (key, value) :: entries => do
      let (key, a) ← a.note? key
      let (value, a) ← a.note? value
      let (entries, a) ← a.noteAll? entries
      return ((key, value) :: entries, a)

/-- The scalar that is meant; an alias of a mapping means none. -/
def Anchors.scalar? (a : Anchors) : Reference → Option Scalar
  | .scalar s => some s
  | .number n => (a.nodes.lookup n).join

/-- The mapping with these entries, which may have an anchor. -/
def Document.ofEntries? (anchor : Option String) (entries : List (Node × Node)) :
    Option Document := do
  let (entries, a) ← (Anchors.addFrom ⟨[], []⟩ anchor none).noteAll? entries
  let scalars ← entries.mapM fun e => do return (← a.scalar? e.1, ← a.scalar? e.2)
  return .mapping scalars

/-! ## Documents -/

/-- Reads directives: the handles that they define. -/
def readDirectives? (versioned : Bool) (handles : Handles) :
    List Token → Option (Handles × List Token)
  | .directive .version :: ts => if versioned then none else readDirectives? true handles ts
  | .directive (.tag handle start) :: ts =>
      if (handles.lookup handle).isSome then none
      else readDirectives? versioned ((handle, start) :: handles) ts
  | ts => some (handles, ts)

def readContent? (handles : Handles) (ts : List Token) : Option (Document × List Token) := do
  match ← readProperties? handles ts with
  | (props, .blockOpen :: ts) =>
      let entries ← blockEntries? handles (ts.takeWhile (· != .blockClose))
      return (← Document.ofEntries? props.anchor entries, (ts.dropWhile (· != .blockClose)).tail)
  | (props, .flowOpen :: ts) =>
      match ts.dropWhile (· != .flowClose) with
      | [] => none
      | _ :: rest =>
          let entries ← flowEntries? handles (ts.takeWhile (· != .flowClose))
          return (← Document.ofEntries? props.anchor entries, rest)
  | (_, ts) => return (.empty, ts)

/-- The document that tokens make up: directives, which a marker must follow, and the content.
Nothing but end markers may follow. -/
def Document.ofTokens? (ts : List Token) : Option Document := do
  let (handles, body) ← readDirectives? false [] ts
  let content ← match body with
    | .documentStart :: content => some content
    | .documentEnd :: _ => none
    | _ => if body.length = ts.length then some body else none
  let (document, rest) ← readContent? (handles ++ defaultHandles) content
  if rest.all (· == .documentEnd) then return document else none

/-- Reads a text that holds one flat document. -/
def Document.ofText? (s : String) : Option Document := do Document.ofTokens? (← tokens? s)

end MailTemplate.Yaml
