import JavaUml.Config.Merge
import JavaUml.Log

/-!
# Placeholders

A text may hold references `$` `{key}` to scalars of the same configuration.  A
round replaces each reference by the text of what it names, and rounds are
repeated until one of them changes nothing.

Within a round the entries of a mapping are replaced one after the other, and
each sees the entries before it as already replaced.  The items of a sequence
all see the configuration from before the sequence.  Pairs and sets stay as they
are, and so does what a pair holds.
-/

namespace JavaUml.Config

/-- Whether a character may stand in the name of a reference. -/
def isNamePart (c : Char) : Bool :=
  c ≠ '\x7b' && c ≠ '\x7d'

/-- The name and the rest of a text that follows the opening of a reference. -/
def reference? (text : List Char) : Option (List Char × List Char) :=
  match text.takeWhile isNamePart, text.dropWhile isNamePart with
  | [], _ => none
  | name, '\x7d' :: rest => some (name, rest)
  | _, _ => none

theorem length_of_reference? {text name rest : List Char}
    (found : reference? text = some (name, rest)) : rest.length < text.length := by
  have parts : text.takeWhile isNamePart ++ text.dropWhile isNamePart = text :=
    List.takeWhile_append_dropWhile
  have lengths := congrArg List.length parts
  rw [List.length_append] at lengths
  unfold reference? at found
  split at found
  · simp at found
  · rename_i after _
    simp only [Option.some.injEq, Prod.mk.injEq] at found
    obtain ⟨_, rfl⟩ := found
    rw [after, List.length_cons] at lengths
    omega
  · simp at found

/-- Whether a character cannot open a reference. -/
def isLiteral (c : Char) : Bool :=
  c ≠ '$'

theorem length_of_dropWhile_isLiteral {text after : List Char}
    (found : text.dropWhile isLiteral = '$' :: after) : after.length < text.length := by
  have parts : text.takeWhile isLiteral ++ text.dropWhile isLiteral = text :=
    List.takeWhile_append_dropWhile
  have lengths := congrArg List.length parts
  rw [List.length_append, found, List.length_cons] at lengths
  omega

/-- A reference as it is written. -/
def written (name : List Char) : List Char :=
  '$' :: '\x7b' :: name ++ ['\x7d']

/-- A text with its references replaced; a name without a value stays as it is
written. -/
def substitute (valueOf : String → Option String) (text : List Char) : List Char :=
  text.takeWhile isLiteral ++
    match found : text.dropWhile isLiteral with
    | '$' :: '\x7b' :: after =>
        have := length_of_dropWhile_isLiteral found
        match named : reference? after with
        | some (name, rest) =>
            have := length_of_reference? named
            let value := ((valueOf (String.ofList name)).map String.toList).getD (written name)
            value ++ substitute valueOf rest
        | none => '$' :: substitute valueOf ('\x7b' :: after)
    | '$' :: after =>
        have := length_of_dropWhile_isLiteral found
        '$' :: substitute valueOf after
    | _ => []
termination_by text.length
decreasing_by
  · simp only [List.length_cons] at *
    omega
  · simpa using this
  · exact this

/-- The text that a reference to a setting stands for.  Mappings and sequences
have none. -/
def Setting.referenceText? : Setting → Option String
  | .mapping _ => none
  | .sequence _ => none
  | setting => some setting.display

/-- The text that a reference to a key stands for. -/
def referenceText? (config : Setting) (key : String) : Option String :=
  (lookup? config key).bind Setting.referenceText?

mutual

/-- One round on a part of the configuration, and whether it changed something.
`inPlace` gives the whole configuration with a setting in the place of the part. -/
def expand (inPlace : Setting → Setting) : Setting → Setting × Bool
  | .mapping entries =>
      let (done, changed) := expandEntries inPlace [] entries
      (.mapping done, changed)
  | .sequence items =>
      let (done, changed) := expandItems (inPlace (.sequence items)) items
      (.sequence done, changed)
  | .scalar (.text value) =>
      let config := inPlace (.text value)
      let replaced := String.ofList (substitute (referenceText? config) value.toList)
      (.text replaced, replaced ≠ value)
  | .scalar value => (.scalar value, false)
  | .pair first second => (.pair first second, false)
  | .set members => (.set members, false)

/-- One round on the entries of a mapping that follow `done`. -/
def expandEntries (inPlace : Setting → Setting) (done : Entries) : Entries → Entries × Bool
  | [] => (done, false)
  | (key, value) :: rest =>
      let here := fun setting => inPlace (.mapping (done ++ (key, setting) :: rest))
      let (replaced, changed) := expand here value
      let (all, more) := expandEntries inPlace (done ++ [(key, replaced)]) rest
      (all, changed || more)

/-- One round on the items of a sequence; all see the same configuration. -/
def expandItems (config : Setting) : List Setting → List Setting × Bool
  | [] => ([], false)
  | item :: rest =>
      let (replaced, changed) := expand (fun _ => config) item
      let (all, more) := expandItems config rest
      (replaced :: all, changed || more)

end

/-- One round on the whole configuration. -/
def round (config : Setting) : Setting × Bool :=
  expand id config

/-- Rounds until one changes nothing, and whether that came within the number of
rounds. -/
def rounds : Nat → Setting → Setting × Bool
  | 0, config => (config, false)
  | left + 1, config =>
      let (replaced, changed) := round config
      if changed then rounds left replaced else (replaced, true)

/-- The number of rounds before the search for a fixed point is given up. -/
def greatestRounds : Nat := 20

/-- The log line about a configuration without a fixed point in reach. -/
def unresolvedWarning : LogEntry :=
  .warning "Configuration has not been fully resolved, some variables may be unresolved"

/-- A configuration in which every number can be written with its placeholders
replaced, and what is logged. -/
def resolve (config : Setting) : Setting × List LogEntry :=
  let (resolved, settled) := rounds greatestRounds config
  (resolved, if settled then [] else [unresolvedWarning])

end JavaUml.Config
