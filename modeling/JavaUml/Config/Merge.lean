import JavaUml.Config.Setting
import JavaUml.Text.Cut

/-!
# Merging and looking up

Entries written over a mapping replace what stands there.  Two mappings are
merged entry by entry, and a null leaves a value as it is.  Keys of one form are
one key, and the known one is kept.  A dotted key names a value inside nested
mappings.
-/

namespace JavaUml.Config

mutual

/-- A setting written over the one that may stand in its place. -/
def Setting.over (old : Option Setting) : Setting → Setting
  | .mapping entries =>
      match old with
      | some (.mapping known) => .mapping (mergeEntries known entries)
      | _ => .mapping entries
  | .scalar .null => old.getD Setting.null
  | .scalar value => .scalar value
  | .sequence items => .sequence items
  | .pair first second => .pair first second
  | .set members => .set members

/-- Entries written over known ones, in order. -/
def mergeEntries (known : Entries) : Entries → Entries
  | [] => known
  | (key, value) :: rest =>
      let old := Ordered.getBy? Scalar.keyForm key known
      mergeEntries (Ordered.putBy Scalar.keyForm key (value.over old) known) rest

end

/-- The value that a path of keys leads to. -/
def Setting.at? : List String → Setting → Option Setting
  | [], setting => some setting
  | key :: path, .mapping entries => (Ordered.get? (.text key) entries).bind (at? path)
  | _ :: _, _ => none

/-- The keys of a dotted key. -/
def dottedPath (key : String) : List String :=
  Text.split '.' key

/-- The value of a dotted key. -/
def lookup? (config : Setting) (key : String) : Option Setting :=
  config.at? (dottedPath key)

end JavaUml.Config
