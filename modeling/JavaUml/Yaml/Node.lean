import JavaUml.Yaml.Tag
import JavaUml.Yaml.Tokens

/-!
# YAML nodes

The tokens of a text form one document, a graph of nodes.  Nodes have numbers,
and a sequence or a mapping names its nodes by them.  An alias stands for the
node with its anchor.  A node has its anchor from its start on, so it may stand
inside itself.
-/

namespace JavaUml.Yaml

/-- A part of a document. -/
inductive Node where
  | scalar (tag : Tag) (text : String)
  | sequence (tag : Tag) (items : List Nat)
  | mapping (tag : Tag) (entries : List (Nat × Nat))
  deriving DecidableEq, Repr

/-- The nodes of a document by number, and the number of the first. -/
structure Graph where
  nodes : Array Node
  root : Nat

/-- The tokens of a text, the nodes and anchors met so far and the tag handles. -/
structure Tree where
  scan : Scan
  nodes : Array Node
  anchors : List (String × Nat)
  handles : List (String × String)

/-- A step that reads tokens. -/
abbrev Reading := StateT Tree (Except Fault)

namespace Reading

/-- The next token. -/
def peek : Reading (Option Token) := do
  let tree ← get
  let (token, scan) ← tree.scan.peek
  set { tree with scan := scan }
  return token

/-- Go past the next token. -/
def skip : Reading Unit :=
  modify fun tree => { tree with scan := tree.scan.take }

/-- Whether the next token is one of those given. -/
def sees (tokens : List Token) : Reading Bool :=
  return match ← peek with
    | some token => tokens.contains token
    | none => false

/-- Go past the next token if it is the one given. -/
def take (token : Token) : Reading Bool := do
  let found ← sees [token]
  if found then skip
  return found

/-- Go past a token that has to stand here. -/
def expect (token : Token) : Reading Unit := do
  unless ← take token do throw .arrangement

/-- An anchor, if one is written. -/
def anchor? : Reading (Option String) := do
  match ← peek with
  | some (.anchor name) => do
      skip
      return some name
  | _ => return none

/-- A tag, if one is written. -/
def tag? : Reading (Option TagName) := do
  match ← peek with
  | some (.tag name) => do
      skip
      return some name
  | _ => return none

/-- The full name of a tag. -/
def fullTag (name : TagName) : Reading String := do
  match name.handle with
  | none => return name.suffix
  | some handle =>
      match (← get).handles.lookup handle with
      | some start => return start ++ name.suffix
      | none => throw .name

/-- An anchor and a tag in either order. -/
def properties : Reading (Option String × Option String) := do
  let (anchor, tag) ← match ← anchor? with
    | some anchor => pure (some anchor, ← tag?)
    | none => do
        match ← tag? with
        | some tag => pure (← anchor?, some tag)
        | none => pure (none, none)
  return (anchor, ← tag.mapM fullTag)

/-- The node of an alias. -/
def aliased (name : String) : Reading Nat := do
  match (← get).anchors.lookup name with
  | some node => return node
  | none => throw .anchor

/-- Add a node, under an anchor that is not in use. -/
def add (anchor : Option String) (node : Node) : Reading Nat := do
  let tree ← get
  let number := tree.nodes.size
  let anchors ← match anchor with
    | none => pure tree.anchors
    | some name =>
        if tree.anchors.any (·.1 = name) then throw .anchor
        else pure ((name, number) :: tree.anchors)
  set { tree with nodes := tree.nodes.push node, anchors := anchors }
  return number

/-- Put a node in the place of another. -/
def replace (number : Nat) (node : Node) : Reading Unit :=
  modify fun tree => { tree with nodes := tree.nodes.setIfInBounds number node }

/-- The node that stands where nothing is written. -/
def addEmpty : Reading Nat :=
  add none (.scalar .null "")

/-- A scalar behind its properties.  The tag `!` leaves the decision to the text
of any scalar. -/
def scalarNode (tag : Option String) (text : String) (isPlain : Bool) : Node :=
  match tag with
  | some "!" => .scalar (.ofPlain text) text
  | some name => .scalar (.ofName name) text
  | none => .scalar (if isPlain then .ofPlain text else .text) text

/-- The tag of a sequence or mapping. -/
def collectionTag (usual : Tag) : Option String → Tag
  | none => usual
  | some name => if name = "!" then usual else .ofName name

/-- A sequence behind its properties.  It is known before its items are read. -/
def sequenceNode (anchor tag : Option String) (items : Reading (List Nat)) : Reading Nat := do
  let tag := collectionTag .sequence tag
  let number ← add anchor (.sequence tag [])
  replace number (.sequence tag (← items))
  return number

/-- A mapping behind its properties.  It is known before its entries are read. -/
def mappingNode (anchor tag : Option String) (entries : Reading (List (Nat × Nat))) :
    Reading Nat := do
  let tag := collectionTag .mapping tag
  let number ← add anchor (.mapping tag [])
  replace number (.mapping tag (← entries))
  return number

/-- A node without content, which has to have a property. -/
def bareNode (anchor tag : Option String) : Reading Nat :=
  if anchor.isSome || tag.isSome then add anchor (scalarNode tag "" true)
  else throw .arrangement

/-- What may follow a key or value of a block without content. -/
def blockFollow : List Token := [.key, .value, .blockEnd]

mutual

/-- A node.  Blocks may open only in block context, and a sequence without
indentation only as an entry of a mapping. -/
def node (inBlock indentless : Bool) : Nat → Reading Nat
  | 0 => throw .arrangement
  | steps + 1 => do
      if let some (.aliasOf name) ← peek then
        skip
        return ← aliased name
      let (anchor, tag) ← properties
      match ← peek with
      | some .blockEntry =>
          if indentless then sequenceNode anchor tag (indentlessItems steps)
          else bareNode anchor tag
      | some (.scalar text isPlain) => do
          skip
          add anchor (scalarNode tag text isPlain)
      | some .flowSequenceStart =>
          sequenceNode anchor tag do
            skip
            flowItems true steps
      | some .flowMappingStart =>
          mappingNode anchor tag do
            skip
            flowEntries true steps
      | some .blockSequenceStart =>
          if inBlock then
            sequenceNode anchor tag do
              skip
              blockItems steps
          else bareNode anchor tag
      | some .blockMappingStart =>
          if inBlock then
            mappingNode anchor tag do
              skip
              blockEntries steps
          else bareNode anchor tag
      | _ => bareNode anchor tag

/-- The items of an indented sequence. -/
def blockItems : Nat → Reading (List Nat)
  | 0 => throw .arrangement
  | steps + 1 => do
      if ← take .blockEntry then
        let item ←
          if ← sees [.blockEntry, .blockEnd] then addEmpty else node true false steps
        return item :: (← blockItems steps)
      else do
        expect .blockEnd
        return []

/-- The items of a sequence that is indented like the mapping around it. -/
def indentlessItems : Nat → Reading (List Nat)
  | 0 => throw .arrangement
  | steps + 1 => do
      if ← take .blockEntry then
        let item ←
          if ← sees (.blockEntry :: blockFollow) then addEmpty else node true false steps
        return item :: (← indentlessItems steps)
      else return []

/-- The entries of an indented mapping. -/
def blockEntries : Nat → Reading (List (Nat × Nat))
  | 0 => throw .arrangement
  | steps + 1 => do
      if ← take .blockEnd then return []
      else do
        expect .key
        let key ← if ← sees blockFollow then addEmpty else node true true steps
        let value ←
          if ← take .value then
            if ← sees blockFollow then addEmpty else node true true steps
          else addEmpty
        return (key, value) :: (← blockEntries steps)

/-- The items of a sequence in brackets; an item with a colon is a mapping. -/
def flowItems (isFirst : Bool) : Nat → Reading (List Nat)
  | 0 => throw .arrangement
  | steps + 1 => do
      if ← take .flowSequenceEnd then return []
      else do
        unless isFirst do expect .flowEntry
        if ← sees [.key] then do
          let item ← mappingNode none none do
            skip
            let key ←
              if ← sees [.value, .flowEntry, .flowSequenceEnd] then addEmpty
              else node false false steps
            let value ← flowValue [.flowEntry, .flowSequenceEnd] steps
            return [(key, value)]
          return item :: (← flowItems false steps)
        else if ← take .flowSequenceEnd then return []
        else do
          let item ← node false false steps
          return item :: (← flowItems false steps)

/-- The value behind a key in brackets, which may be missing. -/
def flowValue (follow : List Token) : Nat → Reading Nat
  | 0 => throw .arrangement
  | steps + 1 => do
      if ← take .value then
        if ← sees follow then addEmpty else node false false steps
      else addEmpty

/-- The entries of a mapping in braces. -/
def flowEntries (isFirst : Bool) : Nat → Reading (List (Nat × Nat))
  | 0 => throw .arrangement
  | steps + 1 => do
      if ← take .flowMappingEnd then return []
      else do
        unless isFirst do expect .flowEntry
        if ← take .key then do
          let key ←
            if ← sees [.value, .flowEntry, .flowMappingEnd] then addEmpty
            else node false false steps
          let value ← flowValue [.flowEntry, .flowMappingEnd] steps
          return (key, value) :: (← flowEntries false steps)
        else if ← take .flowMappingEnd then return []
        else do
          let key ← node false false steps
          let value ← addEmpty
          return (key, value) :: (← flowEntries false steps)

end

/-- The directives in front of a document. -/
def directives : Nat → Bool → List (String × String) → Reading (List (String × String))
  | 0, _, handles => return handles
  | steps + 1, versioned, handles => do
      match ← peek with
      | some (.versionDirective major) => do
          skip
          if versioned || major ≠ 1 then throw .directive
          directives steps true handles
      | some (.tagDirective handle target) => do
          skip
          if handles.any (·.1 = handle) then throw .directive
          directives steps versioned ((handle, target) :: handles)
      | some .otherDirective => do
          skip
          directives steps versioned handles
      | _ => return handles

/-- The tag handles that need no directive. -/
def knownHandles : List (String × String) :=
  [("!", "!"), ("!!", "tag:yaml.org,2002:")]

/-- Go past marks of document ends. -/
def skipDocumentEnds : Nat → Reading Unit
  | 0 => return ()
  | steps + 1 => do
      if ← take .documentEnd then skipDocumentEnds steps

/-- Whether a token belongs to the frame of documents. -/
def isFrame : Option Token → Bool
  | none => true
  | some .documentStart => true
  | some .documentEnd => true
  | some (.versionDirective _) => true
  | some (.tagDirective _ _) => true
  | some .otherDirective => true
  | some _ => false

/-- The start of a document behind its directives. -/
def documentStart (steps : Nat) : Reading Unit := do
  let own ← directives steps false []
  modify fun tree => { tree with handles := own ++ knownHandles }
  expect .documentStart

/-- The only document of a text, if there is one. -/
def document (steps : Nat) : Reading (Option Nat) := do
  let first ← peek
  if first.isNone then return none
  let root ←
    if isFrame first && first ≠ some .documentEnd then do
      documentStart steps
      if isFrame (← peek) then addEmpty else node true false steps
    else node true false steps
  skipDocumentEnds steps
  if (← peek).isSome then
    documentStart steps
    throw .severalDocuments
  return some root

end Reading

/-- The only document of a text, if there is one. -/
def readGraph (source : Source) : Except Fault (Option Graph) := do
  let tree : Tree := ⟨.start source, #[], [], Reading.knownHandles⟩
  let (root, after) ← (Reading.document (6 * source.text.length + 20)).run tree
  return root.map fun root => ⟨after.nodes, root⟩

end JavaUml.Yaml
