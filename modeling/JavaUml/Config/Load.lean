import JavaUml.Config.Defaults
import JavaUml.Files.Pieces
import JavaUml.Yaml.Value

/-!
# The effective configuration

Defaults, a configuration file over them and overrides over both, with
placeholders replaced.
-/

namespace JavaUml.Config

/-- Why there is no configuration. -/
inductive LoadFault where
  | unreadable (problem : Files.PathProblem)
  | malformed (fault : Yaml.Fault)
  | notMapping (path : String)
  | unresolved (fault : ResolveFault)

/-- Whether a fault is one that configuration files are known to have.  Others
are surprises. -/
def LoadFault.isForeseen : LoadFault → Bool
  | malformed (.unknownWord _) => false
  | malformed .noNumber => false
  | malformed .notDate => false
  | malformed .mappingAsDate => false
  | malformed .codeBeyondWord => false
  | malformed .halfCharacter => false
  | malformed .endless => false
  | unresolved .endless => false
  | _ => true

/-- What is reported about a file that holds something else than a mapping. -/
def notMappingMessage (path : String) : String :=
  "Configuration file " ++ path ++ " must contain a mapping"

/-- Whether a character may occur in a configuration file. -/
def isAllowed (c : Char) : Bool :=
  let n := c.toNat
  n = 0x09 || n = 0x0A || n = 0x0D || (0x20 ≤ n && n ≤ 0x7E) || n = 0x85 ||
    (0xA0 ≤ n && n ≤ 0xD7FF) || (0xE000 ≤ n && n ≤ 0xFFFD) || 0x10000 ≤ n

/-- The number of characters that are read at first; after them pieces are read
one by one. -/
def firstRead : Nat := 2 * Files.pieceSize

/-- The characters of a text up to the piece with the first one that may not
occur, and whether there is one. -/
def allowedPieces (text : List Char) : List Char × Bool :=
  match text.findIdx? (!isAllowed ·) with
  | none => (text, true)
  | some index =>
      let readable := if index < firstRead then 0 else index / Files.pieceSize * Files.pieceSize
      (text.take readable, false)

/-- A text in pieces as it is read for a document. -/
def sourceOf (pieces : Files.Pieces) : Yaml.Source :=
  match allowedPieces pieces.text with
  | (text, true) => ⟨text, pieces.fault.map .bytes⟩
  | (text, false) => ⟨text, some .character⟩

/-- The document of a configuration file. -/
def fileDocument (files : Files.Disk) (path : String) : Except LoadFault Document := do
  let pieces ← (Files.readPieces files path).mapError .unreadable
  (Yaml.parse (sourceOf pieces)).mapError .malformed

/-- The configuration with the entries of a file and overrides. -/
def ofEntries (read overrides : Entries) : Setting × List LogEntry :=
  resolve (.mapping (mergeEntries (mergeEntries defaultSections read) overrides))

/-- The configuration with a document whose parts may be shared, and overrides. -/
def ofDocument (document : Document) (number : Nat) (overrides : Entries) :
    Except LoadFault (Setting × List LogEntry) := do
  let complete := (Document.based defaultSections document number).mergeEntries overrides
  let (resolved, log) ← complete.resolve.mapError .unresolved
  return (resolved.unfold, log)

/-- The configuration with the given file and overrides, and what is logged.  An
empty path names no file, and a document that is not set counts as an empty
mapping. -/
def load (files : Files.Disk) (path : String) (overrides : Entries) :
    Except LoadFault (Setting × List LogEntry) := do
  if path.isEmpty then return ofEntries [] overrides
  else
    let document ← fileDocument files path
    match document.mapping? with
    | some number =>
        match document.tree? with
        | some (.mapping entries) => return ofEntries entries overrides
        | _ => ofDocument document number overrides
    | none => if document.isSet then throw (.notMapping path) else return ofEntries [] overrides

end JavaUml.Config
