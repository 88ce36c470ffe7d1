import JavaUml.Text.Cut

/-!
# Names of Java types

Which names are primitive types, which simple names the language brings into
every compilation unit, which ones `java.util` adds on demand, and when a full
name counts as trusted.  A trusted type is never worth an edge in a diagram.
-/

namespace JavaUml.Java

/-- The primitive types, with `void` among them. -/
def primitiveNames : List String :=
  ["byte", "short", "int", "long", "float", "double", "boolean", "char", "void"]

/-- The types of `java.lang` that a simple name refers to without an import. -/
def langNames : List String :=
  ["Object", "String", "CharSequence", "StringBuilder", "StringBuffer",
    "Boolean", "Byte", "Character", "Short", "Integer", "Long", "Float", "Double",
    "Number", "Void", "Math", "System", "Class", "Enum", "Record", "Thread",
    "Runnable", "Iterable", "Comparable", "AutoCloseable", "Cloneable",
    "Throwable", "Exception", "RuntimeException", "Error",
    "IllegalArgumentException", "IllegalStateException", "NullPointerException",
    "UnsupportedOperationException", "IndexOutOfBoundsException"]

/-- The types of `java.util` that a simple name refers to once the whole
package is imported. -/
def utilNames : List String :=
  ["Collection", "List", "ArrayList", "LinkedList", "Vector", "Stack",
    "Map", "HashMap", "LinkedHashMap", "TreeMap", "SortedMap", "NavigableMap",
    "Set", "HashSet", "LinkedHashSet", "TreeSet", "SortedSet", "NavigableSet",
    "Queue", "Deque", "ArrayDeque", "PriorityQueue", "Iterator", "ListIterator",
    "Optional", "OptionalInt", "OptionalLong", "OptionalDouble",
    "Collections", "Arrays", "Objects", "Comparator", "Date", "Calendar",
    "UUID", "Random", "Scanner", "Properties", "Locale", "Currency"]

/-- The packages trusted unless others are named. -/
def defaultTrusted : List String :=
  ["java.lang.", "java.util."]

/-- Primitive types, and full names that start with a trusted text. -/
def isTrusted (trusted : List String) (name : String) : Bool :=
  primitiveNames.contains name ||
    trusted.any fun start => start.toList.isPrefixOf name.toList

/-- The full name of a type of `java.lang`, and nothing for names that need an
import. -/
def implicitName? (name : String) : Option String :=
  if langNames.contains name then some ("java.lang." ++ name) else none

/-- Whether a name has a dot in it. -/
def isDotted (name : String) : Bool :=
  name.toList.contains '.'

/-- The part of a name after its last dot. -/
def simpleName (name : String) : String :=
  String.ofList (Text.afterLast '.' name.toList)

/-- A name in a package; the unnamed package adds nothing. -/
def nameIn (package name : String) : String :=
  if package = "" then name else package ++ "." ++ name

end JavaUml.Java
