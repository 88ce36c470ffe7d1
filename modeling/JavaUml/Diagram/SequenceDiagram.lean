import JavaUml.Diagram.Lines
import JavaUml.Java.SimpleType

/-!
# Sequence diagrams

The calls that one entry method makes, in order.  Each call activates its
target, is answered with the return type and deactivates the target again.  A
call whose target is unknown goes to a participant made up for it.
-/

namespace JavaUml.Diagram

/-- The target of a call that could not be bound. -/
def unknownTarget : String :=
  "Unknown"

/-- One call made inside the body of a traced method. -/
structure Trace where
  source : String
  target : String
  method : String
  returnType : String
  depth : Int
  deriving DecidableEq, Repr

/-- Whether the target of a call is known. -/
def Trace.isResolved (trace : Trace) : Bool :=
  trace.target != unknownTarget

/-- Add underscores to a name until it is not taken.  As many attempts as names
are taken suffice. -/
def freshFrom (taken : List String) : Nat → String → String
  | 0, name => name
  | attempts + 1, name =>
      if taken.contains name then freshFrom taken attempts (name ++ "_") else name

/-- The participant in place of the unknown target of a method. -/
def placeholder (method : String) (taken : List String) : String :=
  freshFrom taken taken.length (method ++ "_Target")

/-- The four lines of one call. -/
def traceLines (taken : List String) (trace : Trace) : List String :=
  let target := if trace.isResolved then trace.target else placeholder trace.method taken
  ["activate " ++ target,
    trace.source ++ " -> " ++ target ++ " : " ++ trace.method ++ "()",
    target ++ " --> " ++ trace.source ++ " : " ++ Java.simpleType trace.returnType,
    "deactivate " ++ target]

/-- The names that a made-up participant must not have. -/
def takenNames (entryType actor : String) (traces : List Trace) : List String :=
  entryType :: actor :: (traces.filter Trace.isResolved).map Trace.target

/-- The lines of the sequence diagram. -/
def sequenceLines (entryType entryMethod actor : String) (traces : List Trace) : List String :=
  ["@startuml",
    "skinparam style strictuml",
    "actor " ++ actor,
    actor ++ " -> " ++ entryType ++ " : " ++ entryMethod ++ "()",
    "activate " ++ entryType] ++
    traces.flatMap (traceLines (takenNames entryType actor traces)) ++
    ["deactivate " ++ entryType, "@enduml"]

/-- The sequence diagram of the calls traced in one method. -/
def sequenceDiagram (entryType entryMethod actor : String) (traces : List Trace) : String :=
  textOf (sequenceLines entryType entryMethod actor traces)

end JavaUml.Diagram
