import JavaUml.Calendar
import JavaUml.Decimal.Number
import JavaUml.Ordered
import JavaUml.Text.Numeral
import JavaUml.Text.Quoted

/-!
# Settings

A configuration is a tree of settings: scalars, sequences and mappings, and
rarely pairs and sets of scalars.  The entries of a mapping keep their order.
-/

namespace JavaUml.Config

/-- A setting without parts. -/
inductive Scalar where
  | null
  | bool (value : Bool)
  | number (value : Decimal.Number)
  | text (value : String)
  | date (value : Calendar.Date)
  | moment (value : Calendar.Moment)
  | bytes (value : List UInt8)
  deriving DecidableEq, Repr

namespace Scalar

/-- The text of a scalar inside other text. -/
def toText : Scalar → String
  | null => "None"
  | bool value => if value then "True" else "False"
  | number value => value.text
  | text value => value
  | date value => value.text
  | moment value => value.text
  | bytes value => Text.quotedBytes value

/-- A scalar as it shows inside another value: texts stand in quotes. -/
def inner : Scalar → String
  | text value => Text.quoted value
  | date value => value.inner
  | moment value => value.inner
  | value => value.toText

/-- Whether a scalar counts as set. -/
def isSet : Scalar → Bool
  | null => false
  | bool value => value
  | number value => !value.isZero
  | text value => !value.isEmpty
  | date _ => true
  | moment _ => true
  | bytes value => !value.isEmpty

/-- What a scalar counts as when it is a key: equal numbers are one key, a truth
value is one or zero, and a moment is told in universal time. -/
def keyForm : Scalar → Scalar
  | bool value => number (.whole (if value then 1 else 0))
  | number (.floating value) =>
      match value.whole? with
      | some whole => number (.whole whole)
      | none => number (.floating value)
  | moment value => moment value.universal
  | value => value

/-- Whether a scalar is a whole number with more digits than are ever written. -/
def isUnwritable : Scalar → Bool
  | number (.whole value) => Text.greatestDigits < (toString value.natAbs).length
  | _ => false

/-- A key that counts as a text is that text. -/
theorem keyForm_eq_text_iff {scalar : Scalar} {value : String} :
    scalar.keyForm = text value ↔ scalar = text value := by
  cases scalar with
  | number value =>
      cases value with
      | whole value => simp [keyForm]
      | floating value =>
          rw [keyForm]
          split <;> simp
  | _ => simp [keyForm]

/-- Among texts as keys the form of the others does not matter. -/
theorem getBy?_text {α : Type} (value : String) (entries : List (Scalar × α)) :
    Ordered.getBy? keyForm (text value) entries = Ordered.get? (text value) entries := by
  induction entries with
  | nil => rfl
  | cons entry rest ih =>
      obtain ⟨key, item⟩ := entry
      have own : (text value).keyForm = text value := rfl
      rw [Ordered.getBy?, Ordered.get?_cons, ih, own]
      simp only [keyForm_eq_text_iff]

end Scalar

/-- What is said about a number that is too long to be written. -/
def unwritableMessage : String :=
  "Exceeds the limit (" ++ toString Text.greatestDigits ++
    " digits) for integer string conversion; use sys.set_int_max_str_digits() to " ++
    "increase the limit"

/-- A configuration value. -/
inductive Setting where
  | scalar (value : Scalar)
  | sequence (items : List Setting)
  | mapping (entries : List (Scalar × Setting))
  | pair (first second : Setting)
  | set (members : List Scalar)
  deriving Repr

/-- The entries of a mapping. -/
abbrev Entries := List (Scalar × Setting)

namespace Setting

/-- The absent value. -/
def null : Setting :=
  scalar .null

instance : Inhabited Setting :=
  ⟨null⟩

/-- A text. -/
def text (value : String) : Setting :=
  scalar (.text value)

/-- A whole number. -/
def whole (value : Int) : Setting :=
  scalar (.number (.whole value))

/-- A mapping with texts as keys. -/
def fields (entries : List (String × Setting)) : Setting :=
  mapping (entries.map fun entry => (.text entry.1, entry.2))

/-- Whether a setting counts as set: null, false, zero and what is empty do not. -/
def isSet : Setting → Bool
  | scalar value => value.isSet
  | sequence items => !items.isEmpty
  | mapping entries => !entries.isEmpty
  | pair _ _ => true
  | set members => !members.isEmpty

/-- The text of a setting. -/
def text? : Setting → Option String
  | scalar (.text value) => some value
  | _ => none

/-- A set as it shows inside another setting. -/
def innerSet (members : List Scalar) : String :=
  if members.isEmpty then "set()"
  else "\x7b" ++ ", ".intercalate (members.map Scalar.inner) ++ "\x7d"

mutual

/-- A setting as it shows inside another one: texts stand in quotes. -/
def inner : Setting → String
  | scalar value => value.inner
  | sequence items => "[" ++ ", ".intercalate (innerItems items) ++ "]"
  | mapping entries => "\x7b" ++ ", ".intercalate (innerEntries entries) ++ "\x7d"
  | pair first second => "(" ++ first.inner ++ ", " ++ second.inner ++ ")"
  | set members => innerSet members

/-- Items as they show inside a sequence. -/
def innerItems : List Setting → List String
  | [] => []
  | item :: rest => item.inner :: innerItems rest

/-- Entries as they show inside a mapping. -/
def innerEntries : List (Scalar × Setting) → List String
  | [] => []
  | (key, value) :: rest =>
      (key.inner ++ ": " ++ value.inner) :: innerEntries rest

end

mutual

/-- Whether a setting can be shown: no number in it is too long to be written. -/
def isWritable : Setting → Bool
  | scalar value => !value.isUnwritable
  | sequence items => areWritable items
  | mapping entries => haveWritable entries
  | pair first second => first.isWritable && second.isWritable
  | set members => members.all (!·.isUnwritable)

/-- Whether all items can be shown. -/
def areWritable : List Setting → Bool
  | [] => true
  | item :: rest => item.isWritable && areWritable rest

/-- Whether all entries can be shown. -/
def haveWritable : List (Scalar × Setting) → Bool
  | [] => true
  | (key, value) :: rest => !key.isUnwritable && value.isWritable && haveWritable rest

end

/-- A setting as messages show it. -/
def display : Setting → String
  | scalar value => value.toText
  | setting => setting.inner

end Setting

end JavaUml.Config
