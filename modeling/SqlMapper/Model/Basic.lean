import SqlMapper.Model.Property
import SqlMapper.Record

/-!
# Models

A model declares the properties of an entity in order and the table that it is kept in. Every
table has a key column `id`, declared or not; the other properties are its columns.
-/

namespace SqlMapper

structure Model where
  name : String
  /-- The table, if it is not named like the model. -/
  table : Option String := none
  properties : Keyed Property := Keyed.empty
  deriving DecidableEq, Repr

namespace Model

def ofName (name : String) : Model := { name }

def withTable (m : Model) (table : String) : Model := { m with table := some table }

/-- Declares a property; one that is declared again keeps its place. -/
def define (m : Model) (name : String) (p : Property) : Model :=
  { m with properties := m.properties.put name p }

def tableName (m : Model) : String := m.table.getD m.name

def get? (m : Model) (name : String) : Option Property := m.properties.get? name

/-- The properties other than the key. -/
def columns (m : Model) : Entries Property :=
  m.properties.entries.filter fun entry => entry.1 != idName

/-- The index of a property is named after the model and the property. -/
def indexName (m : Model) (property : String) : String := m.name ++ "_" ++ property

/-- The declaration of a field; an undeclared key is a number. -/
def declaration? (m : Model) (field : String) : Option Property :=
  match m.get? field with
  | some p => some p
  | none => if field = idName then some Property.number else none

end Model

end SqlMapper
