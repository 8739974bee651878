import SqlMapper.Session.Database
import SqlMapper.Text.Blank

/-!
# Scripted databases

A script stands in for a database. It lists rules, and a statement is answered by the first rule
whose text occurs in it, or with nothing special if there is none.
-/

namespace SqlMapper

structure Rule where
  /-- The text that a statement has in it. -/
  part : String
  delay : Nat := 0
  failure : Option DatabaseError := none
  result : RunResult := ⟨1, 1⟩
  rows : List Row := []

namespace Script

def rule (rules : List Rule) (sql : String) : Rule :=
  (rules.find? fun rule => Text.occursIn rule.part.toList sql.toList).getD { part := "" }

def reply (rule : Rule) (a : α) : Reply α :=
  ⟨rule.delay, match rule.failure with
    | some cause => .error cause
    | none => .ok a⟩

/-- The database that a script stands in for. -/
def database (rules : List Rule) : Database where
  run sql _ := reply (rule rules sql) (rule rules sql).result
  all sql _ := reply (rule rules sql) (rule rules sql).rows
  get sql _ := reply (rule rules sql) (rule rules sql).rows.head?
  batch _ sql := reply (rule rules sql) ()

end Script

end SqlMapper
