import JavaUml.Model.Record

/-!
# Type maps

Type records by full name, in the order in which the names were first stored.
Storing a record under a name that is taken replaces the old record at its
position.  A record knows its full name, so a map is the list of its records
together with the fact that their full names differ.
-/

namespace JavaUml.Model

/-- Replace the record of the same full name, or add the record at the end. -/
def storeIn (record : TypeRecord) : List TypeRecord → List TypeRecord
  | [] => [record]
  | first :: rest =>
      if first.fullName = record.fullName then record :: rest
      else first :: storeIn record rest

theorem map_fullName_storeIn (record : TypeRecord) (records : List TypeRecord) :
    (storeIn record records).map TypeRecord.fullName =
      if record.fullName ∈ records.map TypeRecord.fullName then
        records.map TypeRecord.fullName
      else records.map TypeRecord.fullName ++ [record.fullName] := by
  induction records with
  | nil => simp [storeIn]
  | cons first rest ih =>
      by_cases same : first.fullName = record.fullName
      · simp [storeIn, same]
      · have other : ¬ record.fullName = first.fullName := fun h => same h.symm
        simp only [storeIn, same, if_false, List.map_cons, List.mem_cons, other, false_or, ih]
        split <;> simp

/-- Type records with distinct full names. -/
structure TypeMap where
  records : List TypeRecord
  distinct : (records.map TypeRecord.fullName).Nodup

namespace TypeMap

/-- The map without records. -/
def empty : TypeMap := ⟨[], by simp⟩

/-- The full names, in the order of first storage. -/
def keys (types : TypeMap) : List String :=
  types.records.map TypeRecord.fullName

/-- Store a record under its full name. -/
def store (types : TypeMap) (record : TypeRecord) : TypeMap where
  records := storeIn record types.records
  distinct := by
    rw [map_fullName_storeIn]
    split
    · exact types.distinct
    · rename_i absent
      rw [List.nodup_append]
      refine ⟨types.distinct, by simp, ?_⟩
      intro name mem other single
      simp only [List.mem_singleton] at single
      subst single
      exact fun same => absent (same ▸ mem)

/-- Store records one after the other. -/
def ofRecords (records : List TypeRecord) : TypeMap :=
  records.foldl store empty

/-- Whether a full name is taken. -/
def contains (types : TypeMap) (name : String) : Bool :=
  types.keys.contains name

end TypeMap

end JavaUml.Model
