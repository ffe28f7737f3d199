import Larder.Yaml.Token

/-!
# YAML documents

A document is a tree of scalars, sequences and mappings. A node may have an anchor, and a reference
to it may stand wherever a node may, even inside the node itself; so references stay in the tree,
and the document tells what they refer to.
-/

namespace Larder.Yaml

/-- A node of a document. -/
inductive Node where
  /-- A scalar with its tag, if it has one. -/
  | scalar (style : Style) (tag : Option String) (text : String)
  /-- A sequence. -/
  | sequence (items : List Node)
  /-- A mapping; keys may be repeated. -/
  | mapping (entries : List (Node × Node))
  /-- A reference to an anchored node, by the number of its anchor. -/
  | reference (anchor : Nat)
deriving Inhabited

/-- A node that is not written. -/
def Node.absent : Node := .scalar .plain none ""

/-- A document. -/
structure Document where
  /-- Its outermost node. -/
  root : Node
  /-- The anchored nodes by number. -/
  anchored : List (Nat × Node)

/-- The node itself, or the one that a reference refers to. -/
def Document.follow (d : Document) : Node → Node
  | .reference n => ((d.anchored.find? fun a => a.1 = n).map Prod.snd).getD .absent
  | node => node

/-- The state of reading nodes. -/
structure Composer where
  /-- The tokens ahead. -/
  tokens : List Token
  /-- The number of each anchor, the latest first. -/
  names : List (String × Nat) := []
  /-- The anchored nodes that are complete. -/
  anchored : List (Nat × Node) := []
  /-- The number of the next anchor. -/
  next : Nat := 0
  /-- What the handles of tags stand for. -/
  handles : List (String × String) := []

namespace Composer

/-- The composer behind the next token. -/
def skip (s : Composer) : Composer := { s with tokens := s.tokens.drop 1 }

/-- Whether one of some tokens is next. -/
def sees (s : Composer) (ts : List Token) : Bool :=
  match s.tokens with
  | t :: _ => ts.contains t
  | [] => false

/-- Anchor and tag in front of a node. -/
structure Properties where
  /-- The name of the anchor. -/
  anchor : Option String := none
  /-- Handle and suffix of the tag. -/
  tag : Option (String × String) := none

/-- Read the properties of a node, in either order. -/
def properties (s : Composer) : Properties × Composer :=
  match s.tokens with
  | .anchor a :: .tag h x :: rest => (⟨some a, some (h, x)⟩, { s with tokens := rest })
  | .tag h x :: .anchor a :: rest => (⟨some a, some (h, x)⟩, { s with tokens := rest })
  | .anchor a :: rest => (⟨some a, none⟩, { s with tokens := rest })
  | .tag h x :: rest => (⟨none, some (h, x)⟩, { s with tokens := rest })
  | _ => ({}, s)

/-- The tag that handle and suffix stand for. -/
def fullTag? (s : Composer) : Option (String × String) → Option (Option String)
  | none => some none
  | some (handle, suffix) =>
    if handle.isEmpty then some (some suffix)
    else (s.handles.find? fun h => h.1 = handle).map fun h => some (h.2 ++ suffix)

mutual

/-- A node. `block` says whether collections made by indentation may follow, and `bare` whether a
sequence may follow that is not indented. -/
def node? : Nat → Bool → Bool → Composer → Option (Node × Composer)
  | 0, _, _, _ => none
  | fuel + 1, block, bare, s =>
    match s.tokens with
    | .reference name :: rest =>
      (s.names.find? fun n => n.1 = name).map fun n => (.reference n.2, { s with tokens := rest })
    | _ =>
      let (p, s) := s.properties
      match s.fullTag? p.tag with
      | none => none
      | some tag =>
        match p.anchor with
        | none => content? fuel block bare p.tag.isSome tag s
        | some name =>
          let id := s.next
          let s := { s with names := (name, id) :: s.names, next := id + 1 }
          match content? fuel block bare true tag s with
          | none => none
          | some (n, s) => some (n, { s with anchored := (id, n) :: s.anchored })

/-- What a node holds. A node that has properties may be absent. -/
def content? : Nat → Bool → Bool → Bool → Option String → Composer → Option (Node × Composer)
  | 0, _, _, _, _, _ => none
  | fuel + 1, block, bare, marked, tag, s =>
    let sequence (r : Option (List Node × Composer)) : Option (Node × Composer) :=
      r.map fun p => (.sequence p.1, p.2)
    let mapping (r : Option (List (Node × Node) × Composer)) : Option (Node × Composer) :=
      r.map fun p => (.mapping p.1, p.2)
    match s.tokens with
    | .item :: _ =>
      if bare then sequence (bareItems? fuel s)
      else if marked then some (.scalar .plain tag "", s)
      else none
    | .scalar style text :: _ => some (.scalar style tag text, s.skip)
    | .flowSequence :: _ => sequence (flowItems? fuel true s.skip)
    | .flowMapping :: _ => mapping (flowEntries? fuel true s.skip)
    | t :: _ =>
      if block && t = .blockSequence then sequence (blockItems? fuel s.skip)
      else if block && t = .blockMapping then mapping (blockEntries? fuel s.skip)
      else if marked then some (.scalar .plain tag "", s)
      else none
    | [] => if marked then some (.scalar .plain tag "", s) else none

/-- The items of an indented sequence. -/
def blockItems? : Nat → Composer → Option (List Node × Composer)
  | 0, _ => none
  | fuel + 1, s =>
    match s.tokens with
    | .blockEnd :: _ => some ([], s.skip)
    | .item :: _ =>
      let s := s.skip
      match (if s.sees [.item, .blockEnd] then some (.absent, s) else node? fuel true false s) with
      | none => none
      | some (n, s) => (blockItems? fuel s).map fun p => (n :: p.1, p.2)
    | _ => none

/-- The items of a sequence as deep as the mapping around it. -/
def bareItems? : Nat → Composer → Option (List Node × Composer)
  | 0, _ => none
  | fuel + 1, s =>
    match s.tokens with
    | .item :: _ =>
      let s := s.skip
      match (if s.sees [.item, .key, .value, .blockEnd] then some (.absent, s)
          else node? fuel true false s) with
      | none => none
      | some (n, s) => (bareItems? fuel s).map fun p => (n :: p.1, p.2)
    | _ => some ([], s)

/-- The entries of an indented mapping. -/
def blockEntries? : Nat → Composer → Option (List (Node × Node) × Composer)
  | 0, _ => none
  | fuel + 1, s =>
    let part (s : Composer) : Option (Node × Composer) :=
      if s.sees [.key, .value, .blockEnd] then some (.absent, s) else node? fuel true true s
    match s.tokens with
    | .blockEnd :: _ => some ([], s.skip)
    | .key :: _ =>
      match part s.skip with
      | none => none
      | some (k, s) =>
        match (if s.sees [.value] then part s.skip else some (.absent, s)) with
        | none => none
        | some (v, s) => (blockEntries? fuel s).map fun p => ((k, v) :: p.1, p.2)
    | _ => none

/-- The items of a sequence in brackets. An item may be a mapping with one entry. -/
def flowItems? : Nat → Bool → Composer → Option (List Node × Composer)
  | 0, _, _ => none
  | fuel + 1, first, s =>
    if s.sees [.flowSequenceEnd] then some ([], s.skip)
    else if !first && !s.sees [.comma] then none
    else
      let s := if first then s else s.skip
      if s.sees [.flowSequenceEnd] then some ([], s.skip)
      else if s.sees [.key] then
        let s := s.skip
        -- a key that is not written takes the token in its place with it
        match (if s.sees [.value, .comma, .flowSequenceEnd] then some (.absent, s.skip)
            else node? fuel false false s) with
        | none => none
        | some (k, s) =>
          match (if !s.sees [.value] then some (.absent, s)
              else if s.skip.sees [.comma, .flowSequenceEnd] then some (.absent, s.skip)
              else node? fuel false false s.skip) with
          | none => none
          | some (v, s) =>
            (flowItems? fuel false s).map fun p => (.mapping [(k, v)] :: p.1, p.2)
      else
        match node? fuel false false s with
        | none => none
        | some (n, s) => (flowItems? fuel false s).map fun p => (n :: p.1, p.2)

/-- The entries of a mapping in braces. -/
def flowEntries? : Nat → Bool → Composer → Option (List (Node × Node) × Composer)
  | 0, _, _ => none
  | fuel + 1, first, s =>
    if s.sees [.flowMappingEnd] then some ([], s.skip)
    else if !first && !s.sees [.comma] then none
    else
      let s := if first then s else s.skip
      if s.sees [.flowMappingEnd] then some ([], s.skip)
      else if s.sees [.key] then
        let s := s.skip
        match (if s.sees [.value, .comma, .flowMappingEnd] then some (.absent, s)
            else node? fuel false false s) with
        | none => none
        | some (k, s) =>
          match (if !s.sees [.value] then some (.absent, s)
              else if s.skip.sees [.comma, .flowMappingEnd] then some (.absent, s.skip)
              else node? fuel false false s.skip) with
          | none => none
          | some (v, s) => (flowEntries? fuel false s).map fun p => ((k, v) :: p.1, p.2)
      else
        match node? fuel false false s with
        | none => none
        | some (k, s) => (flowEntries? fuel false s).map fun p => ((k, .absent) :: p.1, p.2)

end

/-! ## Documents -/

/-- The handles every document knows. -/
def usualHandles : List (String × String) := [("!", "!"), ("!!", "tag:yaml.org,2002:")]

/-- Whether a version can be read. -/
def knownVersion (major minor : Nat) : Bool := major = 1 && (minor = 1 || minor = 2)

/-- Read the directives of a document. Neither a version nor a handle may be given twice. -/
def directives? : List Token → Bool → List (String × String) →
    Option (List (String × String) × List Token)
  | .version major minor :: rest, versioned, handles =>
    if versioned || !knownVersion major minor then none else directives? rest true handles
  | .shorthand handle lead :: rest, versioned, handles =>
    if handles.any fun h => h.1 = handle then none
    else directives? rest versioned (handles ++ [(handle, lead)])
  | tokens, _, handles => some (handles, tokens)

/-- Whether a token stands before a document. -/
def isLeading : Token → Bool
  | .version .. | .shorthand .. | .documentStart => true
  | _ => false

/-- A document and the tokens behind it; a first document needs no mark at its start. -/
def document? (first : Bool) (tokens : List Token) : Option (Document × List Token) := do
  let marked := !first || match tokens with
    | t :: _ => isLeading t
    | [] => true
  let (handles, tokens) ← if marked then directives? tokens false [] else some ([], tokens)
  let tokens ← match marked, tokens with
    | true, .documentStart :: rest => some rest
    | true, _ => none
    | false, tokens => some tokens
  let absent := marked && match tokens with
    | t :: _ => isLeading t || t = .documentEnd
    | [] => true
  let s : Composer := { tokens := tokens, handles := handles ++ usualHandles }
  let (root, s) ← if absent then some (.absent, s)
    else node? (3 * tokens.length + 3) true false s
  return (⟨root, s.anchored⟩, match s.tokens with
    | .documentEnd :: rest => rest
    | rest => rest)

/-- All documents. -/
def documents? : Nat → Bool → List Token → Option (List Document)
  | 0, _, _ => none
  | fuel + 1, first, tokens =>
    let tokens := if first then tokens else tokens.dropWhile (· = .documentEnd)
    if tokens.isEmpty then some []
    else match document? first tokens with
      | none => none
      | some (d, rest) => (documents? fuel false rest).map (d :: ·)

end Composer

/-- The documents of a YAML text. -/
def documentsIn? (s : String) : Option (List Document) :=
  (Token.scan? s).bind fun tokens => Composer.documents? (tokens.length + 1) true tokens

end Larder.Yaml
