import SqlMapper.Proofs.Model.Reading
import SqlMapper.Proofs.Session.Registry

/-! # Files of models

A file is a list of models. What is wrong with a text, or with a model in it, is told first; only
where all models are read are their names compared, from the front. So a file has exactly one of
three answers: that it cannot be read as a list of models, the first name that is given again, or
its models, as they stand in it.
-/

namespace SqlMapper

open Json

/-- A text that lists models. -/
def IsModelFile (text : String) (models : List Model) : Prop :=
  ∃ items, Holds text (.array items .closed) ∧ List.Forall₂ (Model.Spells .text) items models

/-- The name of a model that is the first one to have the name of an earlier one. -/
def FirstRepeated (models : List Model) (name : String) : Prop :=
  ∃ before m after, models = before ++ m :: after ∧ m.name = name ∧
    name ∈ before.map Model.name ∧ (before.map Model.name).Nodup

/-- The entries of an object as far as they can be read. -/
def Json.Doc.entries : Doc → Entries Doc
  | .object entries _ => entries
  | _ => []

/-- The items of a list as far as they can be read. -/
def Json.Doc.items : Doc → List Doc
  | .array items _ => items
  | _ => []

/-- A text that gives two properties of a model the same name, as far as it can be read. -/
def RepeatsProperty (text : String) : Prop :=
  ∃ item ∈ (read depthLimit text.toList).found.items, ∃ declared ∈ Model.declaring item,
    ¬ declared.entries.names.Nodup

instance (text : String) : Decidable (RepeatsProperty text) :=
  inferInstanceAs (Decidable (∃ item ∈ (read depthLimit text.toList).found.items,
    ∃ declared ∈ Model.declaring item, ¬ declared.entries.names.Nodup))

section Names

variable {seen : List String} {models : List Model} {name : String}

theorem firstRepeated?_eq_none_iff : firstRepeated? seen models = none ↔
    (models.map Model.name).Nodup ∧ ∀ m ∈ models, m.name ∉ seen := by
  induction models generalizing seen with
  | nil => simp [firstRepeated?]
  | cons first rest ih =>
    rw [firstRepeated?, List.map_cons, List.nodup_cons, List.forall_mem_cons]
    split
    · next repeated => simp [repeated]
    · next new =>
      rw [ih]
      constructor
      · rintro ⟨distinct, others⟩
        refine ⟨⟨fun again => ?_, distinct⟩, new, fun m member inside => ?_⟩
        · obtain ⟨m, member, same⟩ := List.mem_map.mp again
          exact others m member (same ▸ List.mem_cons_self)
        · exact others m member (List.mem_cons_of_mem _ inside)
      · rintro ⟨⟨once, distinct⟩, _, others⟩
        refine ⟨distinct, fun m member inside => ?_⟩
        rcases List.mem_cons.mp inside with same | inside
        · exact once (same ▸ List.mem_map_of_mem member)
        · exact others m member inside

theorem firstRepeated?_eq_some_iff : firstRepeated? seen models = some name ↔
    ∃ before m after, models = before ++ m :: after ∧ m.name = name ∧
      (name ∈ seen ∨ name ∈ before.map Model.name) ∧ firstRepeated? seen before = none := by
  -- that nothing is repeated before is said by the function itself, which goes on as it began
  induction models generalizing seen with
  | nil => simp [firstRepeated?]
  | cons first rest ih =>
    rw [firstRepeated?]
    split
    · next repeated =>
      constructor
      · rintro ⟨⟩
        exact ⟨[], first, rest, rfl, rfl, .inl repeated, rfl⟩
      · rintro ⟨_ | ⟨other, before⟩, m, after, whole, rfl, again, none⟩
        · cases whole
          rfl
        · cases whole
          rw [firstRepeated?, if_pos repeated] at none
          cases none
    · next new =>
      rw [ih]
      constructor
      · rintro ⟨before, m, after, rfl, named, again, none⟩
        refine ⟨first :: before, m, after, rfl, named, ?_, ?_⟩
        · simpa [or_left_comm, or_assoc, eq_comm] using again
        · rw [firstRepeated?, if_neg new, none]
      · rintro ⟨_ | ⟨other, before⟩, m, after, whole, rfl, again, none⟩
        · cases whole
          simp [new] at again
        · cases whole
          rw [firstRepeated?, if_neg new] at none
          refine ⟨before, m, after, rfl, rfl, ?_, none⟩
          simpa [or_left_comm, or_assoc, eq_comm] using again

theorem nodup_names_iff :
    (models.map Model.name).Nodup ↔ firstRepeated? [] models = none := by
  rw [firstRepeated?_eq_none_iff]
  simp

theorem firstRepeated_iff : FirstRepeated models name ↔ firstRepeated? [] models = some name := by
  simp only [FirstRepeated, firstRepeated?_eq_some_iff, firstRepeated?_eq_none_iff]
  simp

end Names

/-- The properties of a model have the names that stand in the text, in the same order. -/
theorem Model.Spells.names_eq {origin : Origin} {doc declared : Doc} {m : Model}
    (spells : Spells origin doc m) (declares : declared ∈ declaring doc) :
    declared.entries.names = m.properties.names := by
  have spelled := spells.spellsProperties
  rw [Keyed.names]
  generalize m.properties.entries = rows at spelled
  generalize declaring doc = values at spelled declares
  cases spelled with
  | missing => cases declares
  | object each =>
    cases List.mem_singleton.mp declares
    exact names_eq_of_declares each

section Parsing

variable {path text name : String} {models : List Model}

theorem decode_models_eq_ok_iff :
    decodeText (Doc.decodeList (Model.decode .text)) text = .ok models ↔
      IsModelFile text models := by
  simp only [decodeText_eq_ok_iff, Doc.decodeList_eq_ok_iff, Model.decode_eq_ok_iff, IsModelFile]
  constructor
  · rintro ⟨_, holds, items, rfl, each⟩
    exact ⟨items, holds, each⟩
  · rintro ⟨items, holds, each⟩
    exact ⟨_, holds, items, rfl, each⟩

/-- Of the models of a text only the names are compared. -/
theorem parseModels_of_file (file : IsModelFile text models) : parseModels path text =
    (firstRepeated? [] models).elim (.ok models) fun name => .error (.duplicateModel name) := by
  rw [parseModels, decode_models_eq_ok_iff.mpr file]
  dsimp only
  cases firstRepeated? [] models <;> rfl

/-- A text that does not list models cannot be read. -/
theorem isModelFile_or_parse (path text : String) : (∃ models, IsModelFile text models) ∨
    ∃ cause, parseModels path text = .error (.parse path cause) := by
  cases decoded : decodeText (Doc.decodeList (Model.decode .text)) text with
  | error cause => exact .inr ⟨cause, by rw [parseModels, decoded]⟩
  | ok models => exact .inl ⟨models, decode_models_eq_ok_iff.mp decoded⟩

theorem exists_parse_iff : (∃ cause, parseModels path text = .error (.parse path cause)) ↔
    ¬ ∃ models, IsModelFile text models := by
  constructor
  · rintro ⟨cause, failed⟩ ⟨models, file⟩
    rw [parseModels_of_file file] at failed
    cases first : firstRepeated? [] models <;> rw [first] at failed <;> cases failed
  · exact (isModelFile_or_parse path text).resolve_left

theorem parseModels_eq_ok_iff : parseModels path text = .ok models ↔
    IsModelFile text models ∧ (models.map Model.name).Nodup := by
  rw [nodup_names_iff]
  constructor
  · intro parsed
    rcases isModelFile_or_parse path text with ⟨listed, file⟩ | ⟨cause, failed⟩
    · rw [parseModels_of_file file] at parsed
      cases first : firstRepeated? [] listed with
      | some name =>
        rw [first] at parsed
        cases parsed
      | none =>
        rw [first] at parsed
        cases parsed
        exact ⟨file, first⟩
    · cases parsed.symm.trans failed
  · rintro ⟨file, first⟩
    rw [parseModels_of_file file, first]
    rfl

theorem parseModels_eq_duplicate_iff : parseModels path text = .error (.duplicateModel name) ↔
    ∃ models, IsModelFile text models ∧ FirstRepeated models name := by
  simp only [firstRepeated_iff]
  constructor
  · intro refused
    rcases isModelFile_or_parse path text with ⟨listed, file⟩ | ⟨cause, failed⟩
    · rw [parseModels_of_file file] at refused
      cases first : firstRepeated? [] listed with
      | some other =>
        rw [first] at refused
        cases refused
        exact ⟨listed, file, first⟩
      | none =>
        rw [first] at refused
        cases refused
    · cases refused.symm.trans failed
  · rintro ⟨listed, file, first⟩
    rw [parseModels_of_file file, first]
    rfl

theorem not_isModelFile (repeats : RepeatsProperty text) : ¬ ∃ models, IsModelFile text models := by
  obtain ⟨item, member, declared, declares, again⟩ := repeats
  rintro ⟨models, items, ⟨_, read, _⟩, each⟩
  rw [read] at member
  obtain ⟨m, spells⟩ := exists_forall₂_iff.mp ⟨models, each⟩ item member
  exact again (spells.names_eq declares ▸ m.properties.distinct)

/-- Models of different names are what is registered, whatever the order. -/
theorem Session.models_defines_perm {order : List Model} (d : Dialect) (settings : Settings)
    (perm : order.Perm models) (distinct : (models.map Model.name).Nodup) :
    (order.foldl define { dialect := d, settings }).models.Perm models := by
  rw [Session.models, registry_defines]
  exact Registry.models_defines_perm perm distinct

/-- A text has models exactly if it lists them under different names, and they are the ones that it
lists, in its order. If it lists models of which two have the same name, the first name that is
repeated is reported; if it does not list models, that it cannot be read. The latter is so wherever
a model gives two properties the same name. The models of a text can be registered in any order. -/
theorem parseModels_exact (path text : String) :
    (∀ models, parseModels path text = .ok models ↔
      IsModelFile text models ∧ (models.map Model.name).Nodup) ∧
    (∀ name, parseModels path text = .error (.duplicateModel name) ↔
      ∃ models, IsModelFile text models ∧ FirstRepeated models name) ∧
    ((∃ name, parseModels path text = .error (.duplicateModel name)) ↔
      ∃ models, IsModelFile text models ∧ ¬ (models.map Model.name).Nodup) ∧
    ((∃ cause, parseModels path text = .error (.parse path cause)) ↔
      ¬ ∃ models, IsModelFile text models) ∧
    (RepeatsProperty text → ∃ cause, parseModels path text = .error (.parse path cause)) ∧
    ∀ models, parseModels path text = .ok models →
      (∀ m ∈ models, m.properties.names.Nodup) ∧
      ∀ (d : Dialect) (settings : Settings) (order : List Model), order.Perm models →
        let s := order.foldl Session.define { dialect := d, settings }
        s.models.Perm models ∧ ∀ m ∈ models, s.model m.name = .ok m := by
  refine ⟨fun _ => parseModels_eq_ok_iff, fun _ => parseModels_eq_duplicate_iff, ?_,
    exists_parse_iff, fun repeats => exists_parse_iff.mpr (not_isModelFile repeats), ?_⟩
  · simp only [parseModels_eq_duplicate_iff, firstRepeated_iff, nodup_names_iff, ← ne_eq,
      Option.ne_none_iff_exists']
    rw [exists_comm]
    simp only [exists_and_left]
  · intro models parsed
    obtain ⟨_, distinct⟩ := parseModels_eq_ok_iff.mp parsed
    refine ⟨fun m _ => m.properties.distinct, fun d settings order perm => ?_⟩
    have registered := Session.models_defines_perm d settings perm distinct
    exact ⟨registered, fun m member =>
      Session.model_eq_ok_iff.mpr ⟨registered.mem_iff.mpr member, rfl⟩⟩

/-- Two models in their two forms, registered from behind, and the second of two names that occur
twice, which is the first to be repeated. The text with a repeated property breaks off behind it. -/
theorem parseModels_exact_mixed :
    let user := ((Model.ofName "U").define "b" Property.text).define "a" Property.date
    let tag := Model.ofName "T"
    let text :=
      "[\x7b\"properties\":\x7b\"b\":[\"Text\"],\"a\":[\"Date\"]\x7d, \"name\":\"U\"\x7d, [\"T\"]]"
    let names := "[[\"A\"], [\"B\"], [\"B\"], [\"A\"]]"
    let again := "[[\"A\", null, \x7b\"a\": \x7b\"type\": \"Text\"\x7d, \"a\": []"
    let s := [tag, user].foldl Session.define { dialect := .sqlite, settings := {} }
    parseModels "models.json" text = .ok [user, tag] ∧ s.models.Perm [user, tag] ∧
      s.model "U" = .ok user ∧
      IsModelFile names (["A", "B", "B", "A"].map Model.ofName) ∧
      parseModels "models.json" names = .error (.duplicateModel "B") ∧
      RepeatsProperty again ∧
      ∃ cause, parseModels "models.json" again = .error (.parse "models.json" cause) := by
  intro user tag text names again s
  have parsed : parseModels "models.json" text = .ok [user, tag] := by
    rw [← toOption_eq_some_iff]
    decide +kernel
  have perm : [tag, user].Perm [user, tag] := .swap user tag []
  have registered := ((parseModels_exact "models.json" text).2.2.2.2.2 _ parsed).2 .sqlite {} _ perm
  have file : IsModelFile names (["A", "B", "B", "A"].map Model.ofName) := by
    rw [← decode_models_eq_ok_iff, ← toOption_eq_some_iff]
    decide +kernel
  have first : FirstRepeated (["A", "B", "B", "A"].map Model.ofName) "B" :=
    ⟨[.ofName "A", .ofName "B"], .ofName "B", [.ofName "A"], rfl, rfl, by decide, by decide⟩
  have repeats : RepeatsProperty again := by decide +kernel
  exact ⟨parsed, registered.1, registered.2 user List.mem_cons_self, file,
    ((parseModels_exact "models.json" names).2.1 "B").mpr ⟨_, file, first⟩, repeats,
    (parseModels_exact "models.json" again).2.2.2.2.1 repeats⟩

end Parsing

end SqlMapper
