import JavaUml.Model.Index

/-!
# Type hierarchies

A type and its supertypes as far as the index knows them, breadth first: the
type itself, its superclass, its interfaces, and so on.  Each type stands there
once, whatever cycles or repetitions the declarations hold.
-/

namespace JavaUml.Resolve

open JavaUml.Model

/-- The known direct supertypes of a record, in order. -/
def parents (index : Index) (record : TypeRecord) : List TypeRecord :=
  record.supertypes.filterMap index.find?

/-- Visit the records of a queue and their supertypes, behind those visited. -/
def hierarchyFrom (index : Index) : Nat → List TypeRecord → List TypeRecord → List TypeRecord
  | 0, _, visited => visited
  | _ + 1, [], visited => visited
  | fuel + 1, current :: queue, visited =>
      if visited.any fun record => record.fullName == current.fullName then
        hierarchyFrom index fuel queue visited
      else hierarchyFrom index fuel (queue ++ parents index current) (visited ++ [current])

/-- How many records can ever enter the queue. -/
def hierarchyBound (index : Index) (record : TypeRecord) : Nat :=
  1 + ((record :: index.types.records).flatMap TypeRecord.supertypes).length

/-- A record with its supertypes. -/
def hierarchy (index : Index) (record : TypeRecord) : List TypeRecord :=
  hierarchyFrom index (hierarchyBound index record) [record] []

/-- The names that are looked up on the way through a hierarchy. -/
def hierarchyNames (index : Index) (record : TypeRecord) : List String :=
  (hierarchy index record).flatMap TypeRecord.supertypes

end JavaUml.Resolve
