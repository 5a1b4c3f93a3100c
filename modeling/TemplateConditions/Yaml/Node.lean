import TemplateConditions.Yaml.Token

/-!
# Nodes

The tree that the tokens of a YAML text write.  A node is read by what stands in front of it and by
its first token; where a node is missing, an empty plain scalar takes its place.
-/

namespace TemplateConditions.Yaml

/-- What may stand in front of a node: an anchor and a tag. -/
structure Marks (α : Type) where
  anchor : Option α := none
  tag : Option Tag := none

/-- A node, in which `α` names anchors. -/
inductive Node (α : Type) where
  | alias (name : α)
  | scalar (marks : Marks α) (plain : Bool) (text : String)
  | sequence (marks : Marks α) (items : List (Node α))
  | mapping (marks : Marks α) (entries : List (Node α × Node α))
  deriving Inhabited

namespace Node

/-- What a reading finds at the front of the tokens, with the tokens that follow it. -/
abbrev Found (α : Type) := Except Fault (α × List Token)

/-- The node that takes the place of a missing one. -/
def missing {α : Type} : Node α :=
  .scalar {} true ""

/-- Where a node stands.  Block collections are for block places only, and the value or key of a
block mapping may be a sequence that is not indented further. -/
inductive Place where
  | block
  | blockPair
  | flow
  deriving DecidableEq

/-! ## Collections

Each function reads the content of a collection behind its opening token, given the reading of one
node.  Every round takes a token, so the number of tokens, passed on as `fuel`, bounds the rounds.
-/

variable (node : Place → List Token → Found (Node String))

/-- Reads a node unless a token comes first before which it is missing. -/
def orMissing (place : Place) (ends : List Token) (tokens : List Token) : Found (Node String) :=
  match tokens with
  | token :: _ => if token ∈ ends then .ok (missing, tokens) else node place tokens
  | [] => node place tokens

/-- Reads the value of a pair, which is missing without its sign. -/
def pairValue (place : Place) (ends : List Token) : List Token → Found (Node String)
  | .value :: rest => orMissing node place ends rest
  | tokens => .ok (missing, tokens)

/-- Something that is read already, in front of more of its kind. -/
def cons {α : Type} (first : Found α) (others : List Token → Found (List α)) : Found (List α) :=
  first.bind fun (x, rest) => (others rest).map fun (xs, rest) => (x :: xs, rest)

/-- A key that is read already, and the value behind it. -/
def pair (key : Found (Node String)) (value : List Token → Found (Node String)) :
    Found (Node String × Node String) :=
  key.bind fun (key, rest) => (value rest).map fun (value, rest) => ((key, value), rest)

/-- Reads the items of a block sequence. -/
def blockItems : Nat → List Token → Found (List (Node String))
  | _, .blockEnd :: rest => .ok ([], rest)
  | fuel + 1, .blockEntry :: rest =>
    cons (orMissing node .block [.blockEntry, .blockEnd] rest) (blockItems fuel)
  | _, _ => .error .grammar

/-- Reads the items of a sequence that is not indented further than the mapping around it.  No
token ends it. -/
def unindentedItems : Nat → List Token → Found (List (Node String))
  | fuel + 1, .blockEntry :: rest =>
    cons (orMissing node .block [.blockEntry, .key, .value, .blockEnd] rest)
      (unindentedItems fuel)
  | _, tokens => .ok ([], tokens)

/-- Reads a key and its value, behind the sign of the key. -/
def blockPair (tokens : List Token) : Found (Node String × Node String) :=
  pair (orMissing node .blockPair [.key, .value, .blockEnd] tokens)
    (pairValue node .blockPair [.key, .value, .blockEnd])

/-- Reads the entries of a block mapping. -/
def blockEntries : Nat → List Token → Found (List (Node String × Node String))
  | _, .blockEnd :: rest => .ok ([], rest)
  | fuel + 1, .key :: rest => cons (blockPair node rest) (blockEntries fuel)
  | _, _ => .error .grammar

/-- Reads the key of a mapping of one entry in a flow sequence.  The token in front of which it is
missing is passed, whatever it is. -/
def flowItemKey : List Token → Found (Node String)
  | .value :: rest => .ok (missing, rest)
  | .flowEntry :: rest => .ok (missing, rest)
  | .flowSequenceEnd :: rest => .ok (missing, rest)
  | tokens => node .flow tokens

/-- Reads an item of a flow sequence; behind the sign of a key it is a mapping of one entry. -/
def flowItem : List Token → Found (Node String)
  | .key :: tokens =>
    (pair (flowItemKey node tokens) (pairValue node .flow [.flowEntry, .flowSequenceEnd])).map
      fun (entry, rest) => (.mapping {} [entry], rest)
  | tokens => node .flow tokens

/-- Reads the items of a flow sequence. -/
def flowItems : Nat → List Token → Found (List (Node String))
  | _, .flowSequenceEnd :: rest => .ok ([], rest)
  | 0, _ => .error .grammar
  | fuel + 1, tokens =>
    cons (flowItem node tokens) fun
      | .flowSequenceEnd :: rest => .ok ([], rest)
      | .flowEntry :: rest => flowItems fuel rest
      | _ => .error .grammar

/-- Reads an entry of a flow mapping.  Without the sign of a key it has no value. -/
def flowPair : List Token → Found (Node String × Node String)
  | .key :: tokens =>
    pair (orMissing node .flow [.value, .flowEntry, .flowMappingEnd] tokens)
      (pairValue node .flow [.flowEntry, .flowMappingEnd])
  | tokens => (node .flow tokens).map fun (key, rest) => ((key, missing), rest)

/-- Reads the entries of a flow mapping. -/
def flowEntries : Nat → List Token → Found (List (Node String × Node String))
  | _, .flowMappingEnd :: rest => .ok ([], rest)
  | 0, _ => .error .grammar
  | fuel + 1, tokens =>
    cons (flowPair node tokens) fun
      | .flowMappingEnd :: rest => .ok ([], rest)
      | .flowEntry :: rest => flowEntries fuel rest
      | _ => .error .grammar

/-! ## Nodes -/

/-- The marks with the tag that is meant by a written one. -/
def marksWith (handles : Tag.Handles) (anchor : Option String) (written : Tag.Written)
    (rest : List Token) : Found (Marks String) :=
  match written.resolve? handles with
  | some tag => .ok (⟨anchor, some tag⟩, rest)
  | none => .error .tagHandle

/-- Reads an anchor and a tag, which stand in either order. -/
def readMarks (handles : Tag.Handles) : List Token → Found (Marks String)
  | .anchor name :: .tag written :: rest => marksWith handles (some name) written rest
  | .tag written :: .anchor name :: rest => marksWith handles (some name) written rest
  | .anchor name :: rest => .ok (⟨some name, none⟩, rest)
  | .tag written :: rest => marksWith handles none written rest
  | tokens => .ok ({}, tokens)

/-- Reads what follows the marks; the nodes in a sequence or mapping are read by `node`. -/
def readContent (fuel : Nat) (marks : Marks String) (place : Place) :
    List Token → Found (Node String)
  | .scalar plain text :: rest => .ok (.scalar marks plain text, rest)
  | .flowSequenceStart :: rest =>
    (flowItems node fuel rest).map fun (items, rest) => (.sequence marks items, rest)
  | .flowMappingStart :: rest =>
    (flowEntries node fuel rest).map fun (entries, rest) => (.mapping marks entries, rest)
  | tokens =>
    match place, tokens with
    | .blockPair, .blockEntry :: _ =>
      (unindentedItems node fuel tokens).map fun (items, rest) => (.sequence marks items, rest)
    | .flow, _ => bare tokens
    | _, .blockSequenceStart :: rest =>
      (blockItems node fuel rest).map fun (items, rest) => (.sequence marks items, rest)
    | _, .blockMappingStart :: rest =>
      (blockEntries node fuel rest).map fun (entries, rest) => (.mapping marks entries, rest)
    | _, _ => bare tokens
where
  /-- Marks alone make an empty scalar. -/
  bare (tokens : List Token) : Found (Node String) :=
    if marks.anchor.isSome || marks.tag.isSome then .ok (.scalar marks true "", tokens)
    else .error .grammar

/-- Reads a node below which fewer than `depth` others lie on one path. -/
def read (handles : Tag.Handles) (fuel depth : Nat) (place : Place) (tokens : List Token) :
    Found (Node String) :=
  match depth with
  | 0 => .error .nesting
  | depth + 1 =>
    match tokens with
    | .alias name :: rest => .ok (.alias name, rest)
    | _ =>
      match readMarks handles tokens with
      | .ok (marks, rest) => readContent (read handles fuel depth) fuel marks place rest
      | .error fault => .error fault
termination_by structural depth

/-! ## Documents -/

/-- Sequences and mappings nest at most this deep. -/
def maxDepth : Nat := 128

/-- Reads the directives of a document.  One version is allowed, and each handle once. -/
def readDirectives (version : Bool) (handles : Tag.Handles) : List Token → Found Tag.Handles
  | .version major minor :: rest =>
    if version || major != 1 || (minor != 1 && minor != 2) then .error .directive
    else readDirectives true handles rest
  | .handle name lead :: rest =>
    if (handles.lookup name).isSome then .error .directive
    else readDirectives version (handles ++ [(name, lead)]) rest
  | tokens => .ok (handles, tokens)

/-- Is this a token of the stream rather than of a document's content? -/
def isBoundary : Token → Bool
  | .version _ _ => true
  | .handle _ _ => true
  | .documentStart => true
  | .documentEnd => true
  | _ => false

/-- Reads the content of a document behind its start. -/
def readRoot (handles : Tag.Handles) (tokens : List Token) : Found (Node String) :=
  match tokens with
  | [] => .ok (missing, [])
  | token :: _ =>
    if isBoundary token then .ok (missing, tokens)
    else read (handles ++ Tag.standardHandles) tokens.length (maxDepth + 1) .block tokens

/-- Reads a document.  Directives need an explicit start behind them, and a document without
directives may begin with its content. -/
def readDocument (tokens : List Token) : Found (Node String) :=
  match readDirectives false [] tokens with
  | .ok (handles, .documentStart :: rest) => readRoot handles rest
  | .ok (_, rest) =>
    if rest.length < tokens.length then .error .directive
    else read Tag.standardHandles tokens.length (maxDepth + 1) .block tokens
  | .error fault => .error fault

/-- The only document of a text; none if the text is empty. -/
def ofTokens (tokens : List Token) : Except Fault (Option (Node String)) :=
  match tokens with
  | [] => .ok none
  | _ => do
    let (root, rest) ← readDocument tokens
    if rest.all (· == .documentEnd) then return some root else throw .manyDocuments

end Node

end TemplateConditions.Yaml
