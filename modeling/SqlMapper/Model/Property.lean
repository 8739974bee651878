import SqlMapper.Value

/-!
# Properties

A property is declared by its kind, the size of its column, whether the column accepts null, and
what indexes it carries.
-/

namespace SqlMapper

inductive Kind
  | string
  | text
  | json
  | number
  | date
  | boolean
  deriving DecidableEq, Repr

/-- The name under which a kind is written. -/
def Kind.name : Kind → String
  | .string => "String"
  | .text => "Text"
  | .json => "JSON"
  | .number => "Number"
  | .date => "Date"
  | .boolean => "Boolean"

structure Property where
  kind : Kind
  /-- The length of a string column or the width of a number column. -/
  limit : Option UInt32 := none
  nullable : Bool := true
  unique : Bool := false
  indexed : Bool := false
  deriving DecidableEq, Repr

namespace Property

/-- A property without limit and indexes that accepts null. -/
def ofKind (kind : Kind) : Property := { kind }

def string : Property := ofKind .string

def text : Property := ofKind .text

def json : Property := ofKind .json

def number : Property := ofKind .number

def date : Property := ofKind .date

def boolean : Property := ofKind .boolean

def withLimit (p : Property) (limit : UInt32) : Property := { p with limit := some limit }

def notNull (p : Property) : Property := { p with nullable := false }

def withIndex (p : Property) : Property := { p with indexed := true }

def withUnique (p : Property) : Property := { p with unique := true }

/-- Whether the column carries an index of any kind. -/
def wantsIndex (p : Property) : Bool := p.indexed || p.unique

end Property

end SqlMapper
