import JavaUml.Config.Placeholder

/-!
# Documents with shared parts

In a configuration that is a tree, each part stands in one place.  In a document
one part may stand in several places: parts have numbers, and a place holds a
scalar or the number of a part.  What is written into a mapping shows wherever
that mapping stands.  A sequence is never written into; a new one takes its
place.

A part may even stand inside itself.  Such a document has no end and cannot be
resolved, and neither can one that refers to a number which is too long to be
written.  Merging and resolving otherwise follow the rules for trees, which
suffice for a document whose parts all stand in one place.
-/

namespace JavaUml.Config

/-- What stands in a place. -/
inductive Item where
  | scalar (value : Scalar)
  | part (number : Nat)
  deriving DecidableEq, Repr

/-- What a part holds. -/
inductive Content where
  | sequence (items : List Item)
  | mapping (entries : List (Scalar × Item))
  | pair (first second : Item)
  | members (keys : List Scalar)
  deriving DecidableEq, Repr

/-- The contents of all parts, by number. -/
abbrev Parts := Array Content

/-- A configuration with shared parts. -/
structure Document where
  parts : Parts
  root : Item

/-- Why placeholders cannot be replaced. -/
inductive ResolveFault where
  /-- A part stands inside itself. -/
  | endless
  /-- A reference to a number that is too long to be written. -/
  | unwritable
  deriving DecidableEq, Repr

namespace Parts

/-- The entries of a part that is a mapping. -/
def entries? (parts : Parts) (number : Nat) : Option (List (Scalar × Item)) :=
  match parts[number]? with
  | some (.mapping entries) => some entries
  | _ => none

/-- What a key of a mapping has for a value. -/
def value? (parts : Parts) (number : Nat) (key : Scalar) : Option Item :=
  (parts.entries? number).bind (Ordered.getBy? Scalar.keyForm key)

/-- Set the value of a key in a mapping. -/
def write (number : Nat) (key : Scalar) (item : Item) (parts : Parts) : Parts :=
  match parts.entries? number with
  | some entries =>
      parts.setIfInBounds number (.mapping (Ordered.putBy Scalar.keyForm key item entries))
  | none => parts

/-! ## From trees and back -/

/-- Add a part, and give its number. -/
def add (content : Content) : StateM Parts Nat := fun parts =>
  (parts.size, parts.push content)

mutual

/-- Add the parts of a setting. -/
def addSetting : Setting → StateM Parts Item
  | .scalar value => return .scalar value
  | .sequence items => do
      let items ← addItems items
      return .part (← add (.sequence items))
  | .mapping entries => do
      let entries ← addEntries entries
      return .part (← add (.mapping entries))
  | .pair first second => do
      let first ← addSetting first
      let second ← addSetting second
      return .part (← add (.pair first second))
  | .set members => return .part (← add (.members members))

/-- Add the parts of items. -/
def addItems : List Setting → StateM Parts (List Item)
  | [] => return []
  | setting :: rest => do
      let item ← addSetting setting
      return item :: (← addItems rest)

/-- Add the parts of entries. -/
def addEntries : List (Scalar × Setting) → StateM Parts (List (Scalar × Item))
  | [] => return []
  | (key, setting) :: rest => do
      let item ← addSetting setting
      return (key, item) :: (← addEntries rest)

end

/-- Add a mapping with the given entries, and give its number. -/
def addMapping (entries : Entries) : StateM Parts Nat := do
  let entries ← addEntries entries
  add (.mapping entries)

/-- A place as a tree, down to a depth. -/
def unfold (parts : Parts) : Nat → Item → Setting
  | _, .scalar value => .scalar value
  | 0, .part _ => Setting.null
  | depth + 1, .part number =>
      match parts[number]? with
      | some (.sequence items) => .sequence (items.map (unfold parts depth))
      | some (.mapping entries) =>
          .mapping (entries.map fun (key, item) => (key, unfold parts depth item))
      | some (.pair first second) =>
          .pair (unfold parts depth first) (unfold parts depth second)
      | some (.members keys) => .set keys
      | none => Setting.null

/-- The tree below a place whose parts have not been met before.  The depth is at
least that of the tree. -/
def tree? (parts : Parts) : Nat → Item → StateT (List Nat) Option Setting
  | _, .scalar value => return .scalar value
  | 0, .part _ => failure
  | depth + 1, .part number => do
      if (← get).contains number then failure
      modify (number :: ·)
      match parts[number]? with
      | some (.sequence items) => return .sequence (← items.mapM (tree? parts depth))
      | some (.mapping entries) =>
          let entries ← entries.mapM fun (key, item) => do return (key, ← tree? parts depth item)
          return .mapping entries
      | some (.pair first second) =>
          let first ← tree? parts depth first
          return .pair first (← tree? parts depth second)
      | some (.members keys) => return .set keys
      | none => failure

/-! ## Merging -/

/-- Write one value over what a key of a mapping has.  `merge` writes the entries
of a mapping over those of another. -/
def writeOver (merge : Nat → Nat → Parts → Parts) (target : Nat) (parts : Parts)
    (entry : Scalar × Item) : Parts :=
  match parts.value? target entry.1, entry.2 with
  | some (.part old), .part new =>
      if (parts.entries? old).isSome && (parts.entries? new).isSome then merge old new parts
      else parts.write target entry.1 entry.2
  | some _, .scalar .null => parts
  | _, _ => parts.write target entry.1 entry.2

/-- Write the entries of one mapping over those of another.  The depth bounds how
far both are mappings. -/
def mergeInto : Nat → Nat → Nat → Parts → Parts
  | 0, _, _, parts => parts
  | depth + 1, target, source, parts =>
      ((parts.entries? source).getD []).foldl (writeOver (mergeInto depth) target) parts

/-! ## Placeholders -/

/-- What a path of keys leads to. -/
def at? (parts : Parts) : List String → Item → Option Item
  | [], item => some item
  | key :: path, .part number => (parts.value? number (.text key)).bind (parts.at? path)
  | _ :: _, .scalar _ => none

/-- The setting that a reference to a place stands for.  Mappings and sequences
have none. -/
def referred? (parts : Parts) : Item → Option Setting
  | .scalar value => some (.scalar value)
  | .part number =>
      match parts[number]? with
      | some (.pair _ _) => some (parts.unfold (parts.size + 1) (.part number))
      | some (.members keys) => some (.set keys)
      | _ => none

/-- The setting that a name stands for in the configuration with the given root. -/
def named? (parts : Parts) (root : Item) (name : String) : Option Setting :=
  (parts.at? (dottedPath name) root).bind parts.referred?

/-- Work on parts that may turn out to be impossible. -/
abbrev Working := StateT Parts (Except ResolveFault)

/-- Whether a text refers to a name with a property.  Taking a reference away
changes the text. -/
def refersTo (property : String → Bool) (text : List Char) : Bool :=
  substitute (fun name => if property name then some "" else none) text ≠ text

/-- A text with its references replaced. -/
def replace (root : Item) (text : String) : Working String := do
  let named := (← get).named? root
  if refersTo (fun name => (named name).any (!·.isWritable)) text.toList then throw .unwritable
  return String.ofList (substitute (fun name => (named name).map Setting.display) text.toList)

/-- One round on the values of keys in a mapping, and whether something changed.
`expand` is one round on a value. -/
def expandKeys (expand : Item → Working (Item × Bool)) (number : Nat) :
    List Scalar → Working Bool
  | [] => return false
  | key :: keys => do
      match (← get).value? number key with
      | some item => do
          let (replaced, changed) ← expand item
          modify (write number key replaced)
          return changed || (← expandKeys expand number keys)
      | none => expandKeys expand number keys

/-- One round on the items of a sequence, and whether something changed. -/
def expandItems (expand : Item → Working (Item × Bool)) : List Item → Working (List Item × Bool)
  | [] => return ([], false)
  | item :: items => do
      let (replaced, changed) ← expand item
      let (others, more) ← expandItems expand items
      return (replaced :: others, changed || more)

/-- One round on a place, with what then stands there and whether something
changed.  The depth is at least that of a document that has an end. -/
def expand (root : Item) : Nat → Item → Working (Item × Bool)
  | _, .scalar (.text value) => do
      let replaced ← replace root value
      return (.scalar (.text replaced), replaced ≠ value)
  | _, .scalar value => return (.scalar value, false)
  | 0, .part _ => throw .endless
  | depth + 1, .part number => do
      match (← get)[number]? with
      | some (.mapping entries) =>
          let changed ← expandKeys (expand root depth) number (entries.map Prod.fst)
          return (.part number, changed)
      | some (.sequence items) =>
          let (items, changed) ← expandItems (expand root depth) items
          let (number, parts) := (add (.sequence items)).run (← get)
          set parts
          return (.part number, changed)
      | _ => return (.part number, false)

end Parts

namespace Document

/-- A depth that no document without an endless part exceeds. -/
def depth (document : Document) : Nat :=
  document.parts.size + 1

/-- Whether a document counts as set. -/
def isSet (document : Document) : Bool :=
  match document.root with
  | .scalar value => value.isSet
  | .part number =>
      match document.parts[number]? with
      | some (.sequence items) => !items.isEmpty
      | some (.mapping entries) => !entries.isEmpty
      | some (.pair _ _) => true
      | some (.members keys) => !keys.isEmpty
      | none => false

/-- The number of the mapping that a document is. -/
def mapping? (document : Document) : Option Nat :=
  match document.root with
  | .part number => (document.parts.entries? number).map fun _ => number
  | .scalar _ => none

/-- The tree that a document is, if each of its parts stands in one place and
every number can be written. -/
def tree? (document : Document) : Option Setting :=
  let tree := (document.parts.tree? document.depth document.root).run []
  (tree.map (·.1)).filter Setting.isWritable

/-- A document as a tree. -/
def unfold (document : Document) : Setting :=
  document.parts.unfold document.depth document.root

/-- The mapping with the given number written over entries, which become the
root. -/
def based (entries : Entries) (document : Document) (source : Nat) : Document :=
  let (target, parts) := (Parts.addMapping entries).run document.parts
  { parts := parts.mergeInto (parts.size + 1) target source, root := .part target }

/-- Entries written over a document that is a mapping. -/
def mergeEntries (document : Document) (entries : Entries) : Document :=
  match document.root with
  | .part target =>
      let (source, parts) := (Parts.addMapping entries).run document.parts
      { document with parts := parts.mergeInto (parts.size + 1) target source }
  | .scalar _ => document

/-- One round on a document, and whether something changed. -/
def round (document : Document) : Except ResolveFault (Document × Bool) := do
  let ((root, changed), parts) ←
    (Parts.expand document.root document.depth document.root).run document.parts
  return (⟨parts, root⟩, changed)

/-- Rounds until one changes nothing, and whether that came within the number of
rounds. -/
def rounds : Nat → Document → Except ResolveFault (Document × Bool)
  | 0, document => return (document, false)
  | left + 1, document => do
      let (replaced, changed) ← document.round
      if changed then rounds left replaced else return (replaced, true)

/-- A document with its placeholders replaced, and what is logged. -/
def resolve (document : Document) : Except ResolveFault (Document × List LogEntry) := do
  let (resolved, settled) ← rounds greatestRounds document
  return (resolved, if settled then [] else [unresolvedWarning])

end Document

end JavaUml.Config
