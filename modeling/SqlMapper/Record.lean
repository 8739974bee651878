import SqlMapper.Value
import SqlMapper.Keyed

/-!
# Records

A record names values in order of first insertion. Its identity is the integer under `id`.
-/

namespace SqlMapper

abbrev Record := Keyed Value

/-- The name of the key column of every table. -/
def idName : String := "id"

namespace Record

def empty : Record := Keyed.empty

/-- Sets a field, at its old place or at the end. -/
def insert [ToValue α] (r : Record) (name : String) (a : α) : Record :=
  Keyed.put r name (toValue a)

/-- Takes a field out and gives its value, if it was there. -/
def remove (r : Record) (name : String) : Option Value × Record :=
  (Keyed.get? r name, Keyed.erase r name)

/-- The identity of a record, if it has one. -/
def id? (r : Record) : Option Int64 := (Keyed.get? r idName).bind Value.integer?

def ofJsonEntries (entries : Entries Json) : Record :=
  Keyed.ofList (entries.map fun entry => (entry.1, Value.ofJson entry.2))

def toJson (r : Record) : Json :=
  .object (r.entries.map fun entry => (entry.1, entry.2.toJson))

end Record

end SqlMapper
