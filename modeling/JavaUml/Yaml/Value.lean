import JavaUml.Config.Document
import JavaUml.Yaml.Node
import JavaUml.Yaml.ScalarValue

/-!
# Documents from YAML

The nodes of a text as the parts of a document.  The last of several entries with
one key counts, at the place and with the key of the first, and entries that are
merged into a mapping come before its own.

Scalars are built where they are met.  Sequences and mappings are filled one
after the other in the order in which they were met, so those that are nested
less deep come first, and so do their faults.
-/

namespace JavaUml.Yaml

open Config (Scalar Item Content Document)

/-- The nodes and parts of a document under way. -/
structure Building where
  /-- The nodes; merging changes mappings. -/
  nodes : Array Node
  /-- The parts, those of nodes first. -/
  parts : Config.Parts
  /-- The numbers of nodes that are parts. -/
  met : List Nat
  /-- Those of them that are not filled yet. -/
  waiting : List Nat

/-- A step of building. -/
abbrev Build := StateT Building (Except Fault)

namespace Build

/-- The node with a number. -/
def node? (number : Nat) : Build (Option Node) := do
  return (← get).nodes[number]?

/-- The tag of a node. -/
def tagOf (number : Nat) : Build Tag := do
  match ← node? number with
  | some (.scalar tag _) => return tag
  | some (.sequence tag _) => return tag
  | some (.mapping tag _) => return tag
  | none => return .other

/-- The entries of a node that is a mapping. -/
def entriesOf? (number : Nat) : Build (Option (List (Nat × Nat))) := do
  match ← node? number with
  | some (.mapping _ entries) => return some entries
  | _ => return none

/-- Put a node in the place of another. -/
def setNode (number : Nat) (node : Node) : Build Unit :=
  modify fun building => { building with nodes := building.nodes.setIfInBounds number node }

/-! ## Merging -/

/-- Set the entries of a mapping. -/
def setEntries (number : Nat) (entries : List (Nat × Nat)) : Build Unit := do
  setNode number (.mapping (← tagOf number) entries)

/-- The entries that a node merges into a mapping.  Its own merge keys are carried
out first, and of several mappings the first has the last word. -/
def mergedFrom (flatten : Nat → Build Unit) (value : Nat) : Build (List (Nat × Nat)) := do
  match ← node? value with
  | some (.mapping _ _) => do
      flatten value
      return (← entriesOf? value).getD []
  | some (.sequence _ items) => do
      let sources ← items.mapM fun item => do
        if (← entriesOf? item).isNone then throw .value
        flatten item
        return (← entriesOf? item).getD []
      return sources.reverse.flatten
  | _ => throw .value

/-- Carry out the merge keys of a mapping from an entry on; the entries to be
merged so far are given.  A merge key is dropped before the mapping behind it is
merged itself, so each is carried out once. -/
def flattenFrom : Nat → Nat → Nat → List (Nat × Nat) → Build Unit
  | 0, _, _, _ => throw .endless
  | steps + 1, number, index, merged => do
      let entries := (← entriesOf? number).getD []
      match entries[index]? with
      | none => unless merged.isEmpty do setEntries number (merged ++ entries)
      | some (key, value) =>
          match ← tagOf key with
          | .merge => do
              setEntries number (entries.eraseIdx index)
              let more ← mergedFrom (fun source => flattenFrom steps source 0 []) value
              flattenFrom steps number index (merged ++ more)
          | .defaultValue => do
              if let some (.scalar _ text) ← node? key then setNode key (.scalar .text text)
              flattenFrom steps number (index + 1) merged
          | _ => flattenFrom steps number (index + 1) merged

/-- Carry out the merge keys of a mapping. -/
def flatten (number : Nat) : Build Unit := do
  let entries := (← get).nodes.toList.flatMap fun node =>
    match node with
    | .mapping _ entries => entries
    | _ => []
  flattenFrom (4 * entries.length + 16) number 0 []

/-! ## Values -/

/-- The text of a node: that of a scalar, or of the default value of a mapping. -/
def textOf : Nat → Nat → Build String
  | 0, _ => throw .endless
  | steps + 1, number => do
      match ← node? number with
      | some (.scalar _ text) => return text
      | some (.mapping _ entries) => do
          let marked ← entries.filterM fun (key, _) => return (← tagOf key) = .defaultValue
          match marked with
          | (_, value) :: _ => textOf steps value
          | [] => throw .value
      | _ => throw .value

/-- Whether a tag is one for sequences, mappings and the like. -/
def isForParts (tag : Tag) : Bool :=
  [.sequence, .mapping, .set, .orderedMap, .pairs].contains tag

/-- The item of a node. -/
def item (number : Nat) : Build Item := do
  let tag ← tagOf number
  if isForParts tag then
    modify fun building =>
      if building.met.contains number then building
      else
        { building with
          met := number :: building.met
          waiting := building.waiting ++ [number] }
    return .part number
  else
    match tag with
    | .merge => throw .value
    | .defaultValue => throw .value
    | .other => throw .value
    | _ => do
        let text ← textOf ((← get).nodes.size + 1) number
        if tag = .timestamp && (← entriesOf? number).isSome then throw .mappingAsDate
        return .scalar (← scalarValue tag text)

/-- The key of a node.  Only a scalar can be one. -/
def key (number : Nat) : Build Scalar := do
  match ← item number with
  | .scalar value => return value
  | .part _ => throw .value

/-- The entries of a mapping. -/
def entries (number : Nat) : Build (List (Scalar × Item)) := do
  if (← entriesOf? number).isNone then throw .value
  flatten number
  ((← entriesOf? number).getD []).foldlM (fun done (keyNode, valueNode) => do
    let key ← key keyNode
    let value ← item valueNode
    return Ordered.putBy Scalar.keyForm key value done) []

/-- The pair of a node that is a mapping with one entry. -/
def pairOf (number : Nat) : Build Item := do
  match ← entriesOf? number with
  | some [(first, second)] => do
      let content : Content := .pair (← item first) (← item second)
      let parts := (← get).parts
      modify fun building => { building with parts := parts.push content }
      return .part parts.size
  | _ => throw .value

/-- What a node holds that is a part. -/
def content (number : Nat) : Build Content := do
  match ← tagOf number, ← node? number with
  | .mapping, _ => return .mapping (← entries number)
  | .set, _ => return .members ((← entries number).map (·.1))
  | .sequence, some (.sequence _ items) => return .sequence (← items.mapM item)
  | .orderedMap, some (.sequence _ items) => return .sequence (← items.mapM pairOf)
  | .pairs, some (.sequence _ items) => return .sequence (← items.mapM pairOf)
  | _, _ => throw .value

/-- Fill parts until none waits.  A node is filled once. -/
def fill : Nat → Build Unit
  | 0 => return ()
  | steps + 1 => do
      match (← get).waiting with
      | [] => return ()
      | number :: rest => do
          modify fun building => { building with waiting := rest }
          let filled ← content number
          modify fun building =>
            { building with parts := building.parts.setIfInBounds number filled }
          fill steps

end Build

/-- The document that a graph of nodes stands for. -/
def Graph.document (graph : Graph) : Except Fault Document := do
  let start : Building :=
    { nodes := graph.nodes
      parts := graph.nodes.map fun _ => .sequence []
      met := []
      waiting := [] }
  let (root, begun) ← (Build.item graph.root).run start
  let (_, done) ← (Build.fill (graph.nodes.size + 1)).run begun
  return ⟨done.parts, root⟩

/-- The document that a text holds; an empty text holds null. -/
def parse (source : Source) : Except Fault Document := do
  match ← readGraph source with
  | none => return ⟨#[], .scalar .null⟩
  | some graph => graph.document

end JavaUml.Yaml
