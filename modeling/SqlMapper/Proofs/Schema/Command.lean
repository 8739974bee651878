import SqlMapper.Schema.Definition
import SqlMapper.Proofs.Lexis.Numeral
import SqlMapper.Proofs.Lexis.Written
import SqlMapper.Proofs.Schema.LiveTable

/-! # Definitions read back

The text of a definition is cut into tokens, and these are read as a command. A column is described
by its type and by whether it accepts null, whatever property it was written for; a list is cut at
its commas. Every definition that has something to list is read back as the command that it is meant
to be.
-/

namespace SqlMapper

open Text

/-- A change of a table that there is. -/
inductive Action
  | add (column : LiveColumn)
  /-- Gives the column of that name another type and nullability. -/
  | change (column : LiveColumn)
  | drop (column : String)
  | rename (table : String)
  deriving DecidableEq, Repr

/-- What a definition asks of a database. -/
inductive Command
  | createTable (table : String) (columns : List LiveColumn)
  | dropTable (table : String) (ifExists : Bool)
  | alterTable (table : String) (actions : List Action)
  | createIndex (table name column : String) (unique : Bool)
  /-- Drops an index of a table or, where no table is named, an index that there may be. -/
  | dropIndex (table : Option String) (name : String)
  | copyRows (source target : String) (selected inserted : List String)
  deriving DecidableEq, Repr

/-! ## Reading -/

/-- The rows of tokens between commas. -/
def Token.rows (ts : List Token) : List (List Token) := ts.splitOn (.symbol ",")

/-- Whether a column accepts null, which it does if nothing is said. -/
def readNullable? : List Token → Option Bool
  | [] => some true
  | [.word "NULL"] => some true
  | [.word "NOT", .word "NULL"] => some false
  | _ => none

def readColumn? : List Token → Option LiveColumn
  | [.name n, .word type, .word "PRIMARY", .word "KEY"] => some ⟨n, type, true, true⟩
  | .name n :: .word type :: .symbol "(" :: .number size :: .symbol ")" :: rest =>
      (readNullable? rest).map fun nullable => ⟨n, type ++ "(" ++ size ++ ")", nullable, false⟩
  | .name n :: .word type :: rest =>
      (readNullable? rest).map fun nullable => ⟨n, type, nullable, false⟩
  | _ => none

/-- A changed column must keep its name. -/
def readAction? : List Token → Option Action
  | .word "ADD" :: .word "COLUMN" :: rest => (readColumn? rest).map .add
  | .word "CHANGE" :: .word "COLUMN" :: .name n :: rest =>
      (readColumn? rest).bind fun column => if column.name = n then some (.change column) else none
  | [.word "DROP", .word "COLUMN", .name n] => some (.drop n)
  | [.word "RENAME", .word "TO", .name table] => some (.rename table)
  | _ => none

namespace Command

def readIndex? (unique : Bool) : List Token → Option Command
  | [.word "INDEX", .name n, .word "ON", .name table, .symbol "(", .name column, .word "ASC",
      .symbol ")"] => some (.createIndex table n column unique)
  | _ => none

def readCreate? : List Token → Option Command
  | .word "TABLE" :: .name table :: .symbol "(" :: rest =>
      if rest.getLast? = some (.symbol ")") then
        ((Token.rows rest.dropLast).mapM readColumn?).map (.createTable table)
      else none
  | .word "UNIQUE" :: rest => readIndex? true rest
  | rest => readIndex? false rest

def readDrop? : List Token → Option Command
  | [.word "TABLE", .name table] => some (.dropTable table false)
  | [.word "TABLE", .word "IF", .word "EXISTS", .name table] => some (.dropTable table true)
  | [.word "INDEX", .name n, .word "ON", .name table] => some (.dropIndex (some table) n)
  | [.word "INDEX", .word "IF", .word "EXISTS", .name n] => some (.dropIndex none n)
  | _ => none

def readSelection? (target : String) (inserted : List String) : List Token → Option Command
  | .word "SELECT" :: rest =>
      match readNames "," rest with
      | some (selected, [.word "FROM", .name source]) =>
          some (.copyRows source target selected inserted)
      | _ => none
  | _ => none

def readCopy? : List Token → Option Command
  | .word "INTO" :: .name target :: .symbol "(" :: rest =>
      match readNames "," rest with
      | some (inserted, .symbol ")" :: rest) => readSelection? target inserted rest
      | _ => none
  | _ => none

/-- Reads a command to its end. -/
def ofTokens? : List Token → Option Command
  | .word "CREATE" :: rest => readCreate? rest
  | .word "DROP" :: rest => readDrop? rest
  | .word "ALTER" :: .word "TABLE" :: .name table :: rest =>
      ((Token.rows rest).mapM readAction?).map (.alterTable table)
  | .word "INSERT" :: rest => readCopy? rest
  | _ => none

/-- Reads the text of a command. -/
def ofText? (d : Dialect) (text : String) : Option Command :=
  (d.tokens? text.toList).bind ofTokens?

end Command

/-! ## What is meant -/

def ColumnChange.action : ColumnChange → Action
  | .add name p => .add (p.liveColumn name)
  | .change name p => .change (p.liveColumn name)
  | .drop name => .drop name

def Alter.action : Alter → Action
  | .column change => change.action
  | .rename table => .rename table

namespace Definition

/-- The command that a definition is meant to be. -/
def command (d : Dialect) : Definition → Command
  | .createTable table columns =>
      .createTable table (keyColumn :: columns.map fun entry => entry.2.liveColumn entry.1)
  | .dropTable table ifExists => .dropTable table ifExists
  | .alterTable table changes => .alterTable table (changes.map Alter.action)
  | .createIndex table name column unique => .createIndex table name column unique
  | .dropIndex table name => .dropIndex (if d.globalIndexes then none else some table) name
  | .copyRows source target columns => .copyRows source target columns columns

/-- A definition that lists something where it has a list. -/
def Listed : Definition → Prop
  | .alterTable _ changes => changes ≠ []
  | .copyRows _ _ columns => columns ≠ []
  | _ => True

end Definition

/-! ## Columns -/

/-- A type with a size. -/
def sizedType (type : String) (size : Nat) : List Token :=
  [.word type, .symbol "(", .number (natText size), .symbol ")"]

def Property.typeTokens (p : Property) : List Token :=
  let size (standard : Nat) : Nat := (p.limit.map UInt32.toNat).getD standard
  match p.kind with
  | .string => sizedType "VARCHAR" (size 255)
  | .text => [.word "TEXT"]
  | .json => [.word "TEXT"]
  | .number => sizedType "INT" (size 11)
  | .date => [.word "DATETIME"]
  | .boolean => [.word "TINYINT", .symbol "(", .number "1", .symbol ")"]

def Property.settingTokens (p : Property) : List Token :=
  p.typeTokens ++ if p.nullable then [.word "NULL"] else [.word "NOT", .word "NULL"]

theorem readColumn?_settings (name : String) (p : Property) :
    readColumn? (.name name :: p.settingTokens) = some (p.liveColumn name) := by
  obtain ⟨kind, limit, nullable, unique, indexed⟩ := p
  cases nullable <;> cases kind <;> simp [Property.settingTokens, Property.typeTokens, sizedType,
    readColumn?, readNullable?, Property.liveColumn, Property.columnType]

namespace Dialect

variable {d : Dialect}

theorem tokens?_sized (known : d.IsKnown) {opening type : String}
    (opened : d.scan .between opening.toList = some ([.word type, .symbol "("], .between))
    (size : Nat) {back : List Char} {ts : List Token}
    (closed : d.tokens? (')' :: back) = some (.symbol ")" :: ts)) :
    d.tokens? ((opening ++ natText size ++ ")").toList ++ back) =
      some (sizedType type size ++ ts) := by
  have digits := tokens?_numeral known (isNumeral_natDigits size)
  have text : (opening ++ natText size ++ ")").toList ++ back =
      opening.toList ++ (natDigits size ++ ')' :: back) := by
    simp [natText]
  rw [text, tokens?_append_of_scan opened, tokens?_append known back digits (by decide), closed]
  rfl

theorem tokens?_columnSettings (known : d.IsKnown) (p : Property) :
    d.tokens? (columnSettings p) = some p.settingTokens := by
  have closed : d.tokens? (')' :: (if p.nullable then " NULL" else " NOT NULL").toList) =
      some (.symbol ")" :: if p.nullable then [.word "NULL"] else [.word "NOT", .word "NULL"]) := by
    rcases known with rfl | rfl <;> cases p.nullable <;> rfl
  unfold columnSettings Property.columnType Property.settingTokens Property.typeTokens
  cases p.kind with
  | string =>
    have opened : d.scan .between "VARCHAR(".toList =
        some ([.word "VARCHAR", .symbol "("], .between) := by rcases known with rfl | rfl <;> rfl
    exact tokens?_sized known opened _ closed
  | number =>
    have opened : d.scan .between "INT(".toList =
        some ([.word "INT", .symbol "("], .between) := by rcases known with rfl | rfl <;> rfl
    exact tokens?_sized known opened _ closed
  | _ =>
    dsimp only
    rcases known with rfl | rfl <;> cases p.nullable <;> rfl

end Dialect

/-! ## Definitions -/

theorem Token.commas_names (names : List String) :
    Token.commas (names.map fun name => [Token.name name]) = Token.separated "," names := by
  induction names with
  | nil => rfl
  | cons name names ih =>
    cases names with
    | nil => rfl
    | cons next names => simp_all [Token.commas, Token.separated]

/-- The key column or another one, as it is written. -/
def columnTokens : Option (String × Property) → List Token
  | none => [.name idName, .word "INTEGER", .word "PRIMARY", .word "KEY"]
  | some entry => .name entry.1 :: entry.2.settingTokens

def ColumnChange.tokens : ColumnChange → List Token
  | .add name p => .word "ADD" :: .word "COLUMN" :: .name name :: p.settingTokens
  | .change name p =>
      .word "CHANGE" :: .word "COLUMN" :: .name name :: .name name :: p.settingTokens
  | .drop name => [.word "DROP", .word "COLUMN", .name name]

def Alter.tokens : Alter → List Token
  | .column change => change.tokens
  | .rename table => [.word "RENAME", .word "TO", .name table]

def Definition.tokens (d : Dialect) : Definition → List Token
  | .createTable table columns =>
      .word "CREATE" :: .word "TABLE" :: .name table :: .symbol "(" ::
        (Token.commas ((none :: columns.map some).map columnTokens) ++ [.symbol ")"])
  | .dropTable table ifExists =>
      .word "DROP" :: .word "TABLE" ::
        ((if ifExists then [.word "IF", .word "EXISTS"] else []) ++ [.name table])
  | .alterTable table changes =>
      .word "ALTER" :: .word "TABLE" :: .name table :: Token.commas (changes.map Alter.tokens)
  | .createIndex table name column unique =>
      .word "CREATE" :: ((if unique then [.word "UNIQUE"] else []) ++ [.word "INDEX", .name name,
        .word "ON", .name table, .symbol "(", .name column, .word "ASC", .symbol ")"])
  | .dropIndex table name =>
      .word "DROP" :: .word "INDEX" ::
        if d.globalIndexes then [.word "IF", .word "EXISTS", .name name]
        else [.name name, .word "ON", .name table]
  | .copyRows source target columns =>
      .word "INSERT" :: .word "INTO" :: .name target :: .symbol "(" ::
        (Token.separated "," columns ++ .symbol ")" :: .word "SELECT" ::
          (Token.separated "," columns ++ [.word "FROM", .name source]))

namespace Dialect

variable {d : Dialect}

theorem tokens?_columnDefinition (known : d.IsKnown) (name : String) (p : Property) :
    d.tokens? (d.columnDefinition name p) = some (.name name :: p.settingTokens) := by
  rw [columnDefinition, tokens?_identifier_space known, tokens?_columnSettings known]
  rfl

/-- The text of a column of a new table. -/
def tableColumn (d : Dialect) : Option (String × Property) → List Char
  | none => d.primaryKey
  | some entry => d.columnDefinition entry.1 entry.2

theorem tokens?_tableColumn (known : d.IsKnown) (column : Option (String × Property)) :
    d.tokens? (d.tableColumn column) = some (columnTokens column) := by
  cases column with
  | none =>
    have tail : d.tokens? "INTEGER PRIMARY KEY".toList =
        some [.word "INTEGER", .word "PRIMARY", .word "KEY"] := by
      rcases known with rfl | rfl <;> rfl
    change d.tokens? (d.identifier idName ++ ' ' :: "INTEGER PRIMARY KEY".toList) = _
    rw [tokens?_identifier_space known, tail]
    rfl
  | some entry => exact tokens?_columnDefinition known entry.1 entry.2

theorem tokens?_columnChange (known : d.IsKnown) (change : ColumnChange) :
    d.tokens? (d.columnChange change) = some change.tokens := by
  cases change with
  | add name p =>
    have front : d.scan .between "ADD COLUMN ".toList =
        some ([.word "ADD", .word "COLUMN"], .between) := by rcases known with rfl | rfl <;> rfl
    change d.tokens? ("ADD COLUMN ".toList ++ d.columnDefinition name p) = _
    rw [tokens?_append_of_scan front, tokens?_columnDefinition known]
    rfl
  | change name p =>
    have front : d.scan .between "CHANGE COLUMN ".toList =
        some ([.word "CHANGE", .word "COLUMN"], .between) := by rcases known with rfl | rfl <;> rfl
    have text : d.columnChange (.change name p) = "CHANGE COLUMN ".toList ++
        (d.identifier name ++ ' ' :: d.columnDefinition name p) := List.append_assoc ..
    rw [text, tokens?_append_of_scan front, tokens?_identifier_space known,
      tokens?_columnDefinition known]
    rfl
  | drop name =>
    have front : d.scan .between "DROP COLUMN ".toList =
        some ([.word "DROP", .word "COLUMN"], .between) := by rcases known with rfl | rfl <;> rfl
    exact tokens?_append_identifier front name

theorem tokens?_alter (known : d.IsKnown) (alter : Alter) :
    d.tokens? (d.alter alter) = some alter.tokens := by
  cases alter with
  | column change => exact tokens?_columnChange known change
  | rename table =>
    have front : d.scan .between "RENAME TO ".toList =
        some ([.word "RENAME", .word "TO"], .between) := by rcases known with rfl | rfl <;> rfl
    exact tokens?_append_identifier front table

theorem tokens?_createTable (known : d.IsKnown) (table : String) (columns : Entries Property) :
    d.tokens? (d.definition (.createTable table columns)) =
      some ((Definition.createTable table columns).tokens d) := by
  have front : d.scan .between "CREATE TABLE ".toList =
      some ([.word "CREATE", .word "TABLE"], .between) := by rcases known with rfl | rfl <;> rfl
  have opened : d.scan .between "(\n  ".toList = some ([.symbol "("], .between) := by
    rcases known with rfl | rfl <;> rfl
  have closed : d.tokens? ['\n', ')'] = some [.symbol ")"] := by rcases known with rfl | rfl <;> rfl
  have separates : d.scan .between [',', '\n', ' ', ' '] = some ([.symbol ","], .between) := by
    rcases known with rfl | rfl <;> rfl
  have rows := tokens?_joinWith known separates
    (fun column _ => tokens?_tableColumn known column) (List.cons_ne_nil none (columns.map some))
  have items : d.primaryKey :: columns.map (fun entry => d.columnDefinition entry.1 entry.2) =
      (none :: columns.map some).map d.tableColumn := by
    simp [tableColumn, Function.comp_def]
  have body := tokens?_append known [')'] rows (by decide : delimits '\n')
  rw [closed, Option.map_some] at body
  change d.tokens? ("CREATE TABLE ".toList ++ d.identifier table ++ " (\n  ".toList ++
    joinWith [',', '\n', ' ', ' '] (d.primaryKey :: columns.map _) ++ ['\n', ')']) = _
  rw [items]
  simp only [List.append_assoc]
  rw [tokens?_append_of_scan front]
  change (d.tokens? (d.identifier table ++ ' ' :: ("(\n  ".toList ++ _))).map _ = _
  rw [tokens?_identifier_space known, tokens?_append_of_scan opened, body]
  rfl

theorem tokens?_dropTable (known : d.IsKnown) (table : String) (ifExists : Bool) :
    d.tokens? (d.definition (.dropTable table ifExists)) =
      some ((Definition.dropTable table ifExists).tokens d) := by
  have front : d.scan .between
      (if ifExists then "DROP TABLE IF EXISTS " else "DROP TABLE ").toList =
        some (.word "DROP" :: .word "TABLE" ::
          (if ifExists then [.word "IF", .word "EXISTS"] else []), .between) := by
    rcases known with rfl | rfl <;> cases ifExists <;> rfl
  exact tokens?_append_identifier front table

theorem tokens?_alterTable (known : d.IsKnown) (table : String) {changes : List Alter}
    (listed : changes ≠ []) : d.tokens? (d.definition (.alterTable table changes)) =
      some ((Definition.alterTable table changes).tokens d) := by
  have front : d.scan .between "ALTER TABLE ".toList =
      some ([.word "ALTER", .word "TABLE"], .between) := by rcases known with rfl | rfl <;> rfl
  have rows := tokens?_joinWith known (scan_comma known)
    (fun alter _ => tokens?_alter known alter) listed
  have text : d.definition (.alterTable table changes) = "ALTER TABLE ".toList ++
    (d.identifier table ++ ' ' :: joinWith [',', ' '] (changes.map d.alter)) :=
      List.append_assoc ..
  rw [text, tokens?_append_of_scan front, tokens?_identifier_space known, rows]
  rfl

theorem tokens?_createIndex (known : d.IsKnown) (table name column : String) (unique : Bool) :
    d.tokens? (d.definition (.createIndex table name column unique)) =
      some ((Definition.createIndex table name column unique).tokens d) := by
  have front : d.scan .between
      (if unique then "CREATE UNIQUE INDEX " else "CREATE INDEX ").toList =
        some (.word "CREATE" :: (if unique then [.word "UNIQUE"] else []) ++ [.word "INDEX"],
          .between) := by
    rcases known with rfl | rfl <;> cases unique <;> rfl
  have on : d.scan .between "ON ".toList = some ([.word "ON"], .between) := by
    rcases known with rfl | rfl <;> rfl
  have closed : d.tokens? "ASC)".toList = some [.word "ASC", .symbol ")"] := by
    rcases known with rfl | rfl <;> rfl
  have text : d.definition (.createIndex table name column unique) =
      (if unique then "CREATE UNIQUE INDEX " else "CREATE INDEX ").toList ++
        (d.identifier name ++ ' ' :: ("ON ".toList ++ (d.identifier table ++ ' ' :: (['('] ++
          (d.identifier column ++ ' ' :: "ASC)".toList))))) := by
    change _ ++ d.identifier name ++ ' ' :: "ON ".toList ++ d.identifier table ++ [' ', '('] ++
      d.identifier column ++ ' ' :: "ASC)".toList = _
    simp only [List.append_assoc, List.cons_append, List.nil_append]
  rw [text, tokens?_append_of_scan front, tokens?_identifier_space known,
    tokens?_append_of_scan on, tokens?_identifier_space known,
    tokens?_append_of_scan (scan_open known), tokens?_identifier_space known, closed]
  cases unique <;> rfl

theorem tokens?_dropIndex (known : d.IsKnown) (table name : String) :
    d.tokens? (d.definition (.dropIndex table name)) =
      some ((Definition.dropIndex table name).tokens d) := by
  rw [Definition.tokens]
  cases scope : d.globalIndexes with
  | true =>
    have front : d.scan .between "DROP INDEX IF EXISTS ".toList =
        some ([.word "DROP", .word "INDEX", .word "IF", .word "EXISTS"], .between) := by
      rcases known with rfl | rfl <;> rfl
    have text : d.definition (.dropIndex table name) =
        "DROP INDEX IF EXISTS ".toList ++ d.identifier name := if_pos scope
    rw [text]
    exact tokens?_append_identifier front name
  | false =>
    have front : d.scan .between "DROP INDEX ".toList =
        some ([.word "DROP", .word "INDEX"], .between) := by rcases known with rfl | rfl <;> rfl
    have on : d.scan .between "ON ".toList = some ([.word "ON"], .between) := by
      rcases known with rfl | rfl <;> rfl
    have text : d.definition (.dropIndex table name) = "DROP INDEX ".toList ++
        (d.identifier name ++ ' ' :: ("ON ".toList ++ d.identifier table)) := by
      have written : d.definition (.dropIndex table name) = "DROP INDEX ".toList ++
        d.identifier name ++ " ON ".toList ++ d.identifier table := if_neg (by simp [scope])
      rw [written, List.append_assoc, List.append_assoc]
      rfl
    rw [text, tokens?_append_of_scan front, tokens?_identifier_space known,
      tokens?_append_identifier on]
    rfl

theorem tokens?_copyRows (known : d.IsKnown) (source target : String) {columns : List String}
    (listed : columns ≠ []) : d.tokens? (d.definition (.copyRows source target columns)) =
      some ((Definition.copyRows source target columns).tokens d) := by
  have front : d.scan .between "INSERT INTO ".toList =
      some ([.word "INSERT", .word "INTO"], .between) := by rcases known with rfl | rfl <;> rfl
  have selects : d.scan .between (')' :: " SELECT ".toList) =
      some ([.symbol ")", .word "SELECT"], .between) := by rcases known with rfl | rfl <;> rfl
  have fromTable : d.scan .between (' ' :: "FROM ".toList) = some ([.word "FROM"], .between) := by
    rcases known with rfl | rfl <;> rfl
  have names := tokens?_joinWith known (scan_comma known)
    (fun name _ => tokens?_identifier d name) listed
  have selected := tokens?_append_between known names (by decide) fromTable
    (tokens?_identifier d source)
  have inserted := tokens?_append_between known names (by decide) selects selected
  have text : d.definition (.copyRows source target columns) = "INSERT INTO ".toList ++
      (d.identifier target ++ ' ' :: (['('] ++ (joinWith [',', ' '] (columns.map d.identifier) ++
        ')' :: (" SELECT ".toList ++ (joinWith [',', ' '] (columns.map d.identifier) ++
          ' ' :: ("FROM ".toList ++ d.identifier source)))))) := by
    change "INSERT INTO ".toList ++ d.identifier target ++ [' ', '('] ++ joinWith [',', ' '] _ ++
      ')' :: " SELECT ".toList ++ joinWith [',', ' '] _ ++ ' ' :: "FROM ".toList ++
        d.identifier source = _
    simp only [List.append_assoc, List.cons_append, List.nil_append]
  rw [text, tokens?_append_of_scan front, tokens?_identifier_space known,
    tokens?_append_of_scan (scan_open known), inserted, Token.commas_names]
  rfl

theorem tokens?_definition (known : d.IsKnown) {s : Definition} (listed : s.Listed) :
    d.tokens? (d.definition s) = some (s.tokens d) := by
  cases s with
  | createTable table columns => exact tokens?_createTable known table columns
  | dropTable table ifExists => exact tokens?_dropTable known table ifExists
  | alterTable table changes => exact tokens?_alterTable known table listed
  | createIndex table name column unique => exact tokens?_createIndex known table name column unique
  | dropIndex table name => exact tokens?_dropIndex known table name
  | copyRows source target columns => exact tokens?_copyRows known source target listed

end Dialect

/-! ## Commands -/

theorem Token.rows_commas {rows : List (List Token)} (nonempty : rows ≠ [])
    (plain : ∀ row ∈ rows, Token.symbol "," ∉ row) : Token.rows (Token.commas rows) = rows :=
  List.splitOn_intercalate _ plain nonempty

/-- Reading the parts of a list reads the list. -/
theorem mapM_read {α β γ : Type} {write : α → β} {read : β → Option γ} {mean : α → γ}
    (each : ∀ a, read (write a) = some (mean a)) (items : List α) :
    (items.map write).mapM read = some (items.map mean) := by
  induction items with
  | nil => rfl
  | cons a items ih => simp [each, ih]

theorem comma_notMem_settings (p : Property) : Token.symbol "," ∉ p.settingTokens := by
  unfold Property.settingTokens Property.typeTokens
  cases p.kind <;> cases p.nullable <;> simp [sizedType]

theorem comma_notMem_column (column : Option (String × Property)) :
    Token.symbol "," ∉ columnTokens column := by
  cases column <;> simp [columnTokens, comma_notMem_settings]

theorem comma_notMem_alter (alter : Alter) : Token.symbol "," ∉ alter.tokens := by
  rcases alter with (_ | _ | _) | _ <;>
    simp [Alter.tokens, ColumnChange.tokens, comma_notMem_settings]

/-- The column that is meant by a part of a definition. -/
def meantColumn : Option (String × Property) → LiveColumn
  | none => keyColumn
  | some entry => entry.2.liveColumn entry.1

theorem readColumn?_column (column : Option (String × Property)) :
    readColumn? (columnTokens column) = some (meantColumn column) := by
  cases column with
  | none => rfl
  | some entry => exact readColumn?_settings entry.1 entry.2

theorem readAction?_alter (alter : Alter) : readAction? alter.tokens = some alter.action := by
  rcases alter with (⟨name, p⟩ | ⟨name, p⟩ | name) | table
  · simp [Alter.tokens, ColumnChange.tokens, readAction?, readColumn?_settings, Alter.action,
      ColumnChange.action]
  · simp [Alter.tokens, ColumnChange.tokens, readAction?, readColumn?_settings, Alter.action,
      ColumnChange.action, Property.liveColumn]
  · rfl
  · rfl

/-- The tokens of a definition are read as the command that it is meant to be. -/
theorem Command.ofTokens?_definition {d : Dialect} {s : Definition} (listed : s.Listed) :
    ofTokens? (s.tokens d) = some (s.command d) := by
  cases s with
  | createTable table columns =>
    have plain : ∀ row ∈ (none :: columns.map some).map columnTokens, Token.symbol "," ∉ row := by
      rintro row member
      obtain ⟨column, _, rfl⟩ := List.mem_map.mp member
      exact comma_notMem_column column
    have rows := Token.rows_commas (by simp) plain
    have read := mapM_read readColumn?_column (none :: columns.map some)
    simp only [Definition.tokens, ofTokens?, readCreate?, List.getLast?_concat,
      List.dropLast_concat, if_true, rows, read, Option.map_some]
    simp [Definition.command, meantColumn, Function.comp_def]
  | dropTable table ifExists => cases ifExists <;> rfl
  | alterTable table changes =>
    have plain : ∀ row ∈ changes.map Alter.tokens, Token.symbol "," ∉ row := by
      rintro row member
      obtain ⟨alter, _, rfl⟩ := List.mem_map.mp member
      exact comma_notMem_alter alter
    have nonempty : changes.map Alter.tokens ≠ [] := List.map_eq_nil_iff.not.mpr listed
    simp only [Definition.tokens, ofTokens?, Token.rows_commas nonempty plain,
      mapM_read readAction?_alter, Option.map_some, Definition.command]
  | createIndex table name column unique => cases unique <;> rfl
  | dropIndex table name => cases scope : d.globalIndexes <;> simp [Definition.tokens, scope,
      ofTokens?, readDrop?, Definition.command]
  | copyRows source target columns =>
    let tail : List Token := [.word "FROM", .name source]
    let selection : List Token := .word "SELECT" :: (Token.separated "," columns ++ tail)
    have selected : readNames "," (Token.separated "," columns ++ tail) = some (columns, tail) :=
      readNames_separated "," listed (by simp [tail])
    have inserted : readNames "," (Token.separated "," columns ++ .symbol ")" :: selection) =
      some (columns, .symbol ")" :: selection) := readNames_separated "," listed (by simp)
    change readCopy? (.word "INTO" :: .name target :: .symbol "(" ::
      (Token.separated "," columns ++ .symbol ")" :: selection)) = _
    rw [readCopy?, inserted]
    change readSelection? target columns selection = _
    rw [readSelection?, selected]
    rfl

/-- The text of a definition is read as the command that it is meant to be. -/
theorem Command.ofText?_definition {d : Dialect} (known : d.IsKnown) {s : Definition}
    (listed : s.Listed) : ofText? d (s.text d) = some (s.command d) := by
  rw [ofText?, Definition.text, String.toList_ofList, d.tokens?_definition known listed,
    Option.bind_some, ofTokens?_definition listed]

end SqlMapper
