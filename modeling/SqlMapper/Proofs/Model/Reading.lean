import SqlMapper.Model.Decode
import SqlMapper.Proofs.Entries
import SqlMapper.Proofs.Json.Structure

/-! # Models as they are written

A model is written as an object or as the list of its name, its table and its properties. The
properties are an object whose entries stand in the order of the declarations and have different
names. A file is a list of models, and is refused if two of them have the same name.
-/

namespace SqlMapper

open Json

namespace Model

/-! ## One model -/

/-- A declaration has the name under which its document stands. -/
def Declares (origin : Origin) (entry : String × Doc) (declared : String × Property) : Prop :=
  entry.1 = declared.1 ∧ Property.decode origin entry.2 = .ok declared.2

/-- A table that is not named, or null, or a name. -/
inductive SpellsTable : List Doc → Option String → Prop
  | missing : SpellsTable [] none
  | null : SpellsTable [.null] none
  | name (table : String) : SpellsTable [.string table] (some table)

/-- No properties, or an object of them. -/
inductive SpellsProperties (origin : Origin) : List Doc → Entries Property → Prop
  | missing : SpellsProperties origin [] []
  | object {entries : Entries Doc} {declared : Entries Property}
      (each : List.Forall₂ (Declares origin) entries declared) :
      SpellsProperties origin [.object entries .closed] declared

/-- A document that provides a name, and perhaps a table and properties. -/
inductive Spells (origin : Origin) (doc : Doc) (m : Model) : Prop
  | mk {table properties : List Doc}
      (provides : doc.Provides [["name"], ["table"], ["properties"]]
        [[.string m.name], table, properties])
      (kept : SpellsTable table m.table)
      (declared : SpellsProperties origin properties m.properties.entries)

/-- What the document of a model declares as properties, whatever else is in it or wrong with it. -/
def declaring : Doc → List Doc
  | .object entries _ => standing ["properties"] entries
  | .array items _ => items[2]?.toList
  | _ => []

section Decoding

variable {origin : Origin} {doc : Doc} {m : Model} {values : List Doc}

theorem decodeString_eq_ok_iff {s : String} : doc.decodeString = .ok s ↔ doc = .string s := by
  rw [Doc.decodeString.eq_def]
  split
  · simp
  · next other =>
    refine iff_of_false Doc.mismatch_ne_ok ?_
    rintro rfl
    exact other s rfl

/-- Every declaration comes behind those there are, and under a new name. -/
theorem decodeProperties_eq_ok_iff {declared k : Keyed Property} {entries : Entries Doc} :
    decodeProperties origin declared entries = .ok k ↔
      ∃ added, List.Forall₂ (Declares origin) entries added ∧
        k.entries = declared.entries ++ added := by
  induction entries generalizing declared with
  | nil =>
    rw [decodeProperties]
    simp only [List.forall₂_nil_left_iff]
    constructor
    · rintro ⟨⟩
      exact ⟨[], rfl, (List.append_nil _).symm⟩
    · rintro ⟨_, rfl, same⟩
      rw [List.append_nil] at same
      rw [Keyed.eq_of_entries same]
  | cons entry rest ih =>
    obtain ⟨name, doc⟩ := entry
    rw [decodeProperties]
    simp only [bind_eq_ok_iff]
    constructor
    · rintro ⟨p, decoded, last⟩
      split at last
      · cases last
      · next absent =>
        have new := (declared.contains_eq_false_iff name).mp (Bool.eq_false_iff.mpr absent)
        obtain ⟨added, each, all⟩ := ih.mp last
        rw [declared.entries_put_of_notMem name p new, List.append_assoc] at all
        exact ⟨(name, p) :: added, .cons ⟨rfl, decoded⟩ each, all⟩
    · rintro ⟨_, related, all⟩
      obtain ⟨first, added, ⟨rfl, decoded⟩, each, rfl⟩ := List.forall₂_cons_left_iff.mp related
      have new : first.1 ∉ declared.names := by
        have distinct := k.distinct
        rw [all, Entries.names, List.map_append, List.nodup_append] at distinct
        intro member
        exact distinct.2.2 _ member _ List.mem_cons_self rfl
      refine ⟨first.2, decoded, ?_⟩
      rw [if_neg (by simp [(declared.contains_eq_false_iff _).mpr new])]
      refine ih.mpr ⟨added, each, ?_⟩
      rw [declared.entries_put_of_notMem _ _ new, List.append_assoc]
      exact all

theorem names_eq_of_declares {entries : Entries Doc} {declared : Entries Property}
    (each : List.Forall₂ (Declares origin) entries declared) : entries.names = declared.names := by
  induction each with
  | nil => rfl
  | cons first rest ih => exact congrArg₂ List.cons first.1 ih

theorem decodePropertyMap_eq_ok_iff {k : Keyed Property} :
    decodePropertyMap origin doc = .ok k ↔
      ∃ entries, doc = .object entries .closed ∧
        List.Forall₂ (Declares origin) entries k.entries := by
  rw [decodePropertyMap.eq_def]
  split
  · next entries tail =>
    simp only [bind_eq_ok_iff, decodeProperties_eq_ok_iff, Tail.decode_eq_ok_iff]
    constructor
    · rintro ⟨_, ⟨added, each, all⟩, _, rfl, same⟩
      cases same
      exact ⟨entries, rfl, all ▸ each⟩
    · rintro ⟨_, whole, each⟩
      cases whole
      exact ⟨k, ⟨k.entries, each, rfl⟩, (), rfl, rfl⟩
  · simp [faulty]
  · next other _ =>
    refine iff_of_false Doc.mismatch_ne_ok ?_
    rintro ⟨entries, rfl, _⟩
    exact other entries .closed rfl

theorem decodeTable_eq_ok_iff {table : Option String} :
    doc.decodeOption Doc.decodeString = .ok table ↔ SpellsTable [doc] table := by
  rw [Doc.decodeOption.eq_def]
  split
  · constructor
    · rintro ⟨⟩
      exact .null
    · rintro ⟨⟩
      rfl
  · next other =>
    constructor
    · intro read
      obtain ⟨name, named, rfl⟩ := map_eq_ok_iff.mp read
      rw [decodeString_eq_ok_iff] at named
      exact named ▸ .name name
    · rintro (_ | _ | name)
      · exact absurd rfl other
      · rfl

/-- Nothing stands for no table. -/
theorem spellsTable_iff {table : Option String} : SpellsTable values table ↔
    ∃ part, StructField.Reads (Doc.decodeOption Doc.decodeString) values part ∧
      part.getD none = table := by
  constructor
  · intro spells
    cases values with
    | nil =>
      cases spells
      exact ⟨none, .missing, rfl⟩
    | cons doc rest =>
      obtain rfl : rest = [] := by cases spells <;> rfl
      exact ⟨some table, .present (decodeTable_eq_ok_iff.mpr spells), rfl⟩
  · rintro ⟨_, _ | read, rfl⟩
    · exact .missing
    · exact decodeTable_eq_ok_iff.mp read

/-- Nothing stands for no properties. -/
theorem spellsProperties_iff {k : Keyed Property} : SpellsProperties origin values k.entries ↔
    ∃ part, StructField.Reads (decodePropertyMap origin) values part ∧
      part.getD Keyed.empty = k := by
  constructor
  · intro spells
    generalize same : k.entries = declared at spells
    cases spells with
    | missing => exact ⟨none, .missing, (Keyed.eq_of_entries same).symm⟩
    | object each =>
      subst same
      exact ⟨some k, .present (decodePropertyMap_eq_ok_iff.mpr ⟨_, rfl, each⟩), rfl⟩
  · rintro ⟨_, _ | read, rfl⟩
    · exact .missing
    · obtain ⟨entries, rfl, each⟩ := decodePropertyMap_eq_ok_iff.mp read
      exact .object each

theorem fields_independent (origin : Origin) :
    (fields origin).Pairwise StructField.Independent := by
  simp only [fields, List.pairwise_cons, List.forall_mem_cons]
  refine ⟨⟨?_, ?_, nofun⟩, ⟨?_, nofun⟩, nofun, .nil⟩
  all_goals
    exact .of_sets (fun _ => rfl) (fun _ => rfl) (by simp [StructField.keys]) fun _ _ _ => rfl

/-- Exactly the documents that spell a model are decoded as that model. -/
theorem decode_eq_ok_iff : decode origin doc = .ok m ↔ Spells origin doc m := by
  have gathers_iff {docs : List (List Doc)} :
      StructField.Gathers (fields origin) docs (ofName "") m ↔
        ∃ names tables maps name table properties, docs = [names, tables, maps] ∧
          StructField.Reads Doc.decodeString names name ∧
          StructField.Reads (Doc.decodeOption Doc.decodeString) tables table ∧
          StructField.Reads (decodePropertyMap origin) maps properties ∧
          ⟨name.getD "", table.getD none, properties.getD Keyed.empty⟩ = m := by
    rw [fields]
    constructor
    · intro gathers
      obtain ⟨names, _, name, rfl, named, gathers⟩ :=
        (StructField.Sets.gathers_iff fun _ => rfl).mp gathers
      obtain ⟨tables, _, table, rfl, kept, gathers⟩ :=
        (StructField.Sets.gathers_iff fun _ => rfl).mp gathers
      obtain ⟨maps, _, properties, rfl, declared, gathers⟩ :=
        (StructField.Sets.gathers_iff fun _ => rfl).mp gathers
      refine ⟨names, tables, maps, name, table, properties, ?_⟩
      cases gathers
      refine ⟨rfl, named, kept, declared, ?_⟩
      cases name <;> cases table <;> cases properties <;> rfl
    · rintro ⟨names, tables, maps, name, table, properties, rfl, named, kept, declared, rfl⟩
      refine (StructField.Sets.gathers_iff fun _ => rfl).mpr ⟨_, _, name, rfl, named, ?_⟩
      refine (StructField.Sets.gathers_iff fun _ => rfl).mpr ⟨_, _, table, rfl, kept, ?_⟩
      refine (StructField.Sets.gathers_iff fun _ => rfl).mpr ⟨_, _, properties, rfl, declared, ?_⟩
      cases name <;> cases table <;> cases properties <;> exact .nil _
  rw [decode, Doc.decodeStruct_eq_ok_iff (fields_independent origin)]
  constructor
  · rintro ⟨docs, provides, complete, gathers⟩
    obtain ⟨names, tables, maps, name, table, properties, rfl, named, kept, declared, rfl⟩ :=
      gathers_iff.mp gathers
    cases named with
    | missing => exact absurd rfl ((StructField.complete_cons_iff.mp complete).1 rfl)
    | present named =>
      rw [decodeString_eq_ok_iff] at named
      subst named
      exact .mk provides (spellsTable_iff.mpr ⟨table, kept, rfl⟩)
        (spellsProperties_iff.mpr ⟨properties, declared, rfl⟩)
  · rintro ⟨provides, spellsTable, spellsProperties⟩
    obtain ⟨table, kept, sameTable⟩ := spellsTable_iff.mp spellsTable
    obtain ⟨properties, declared, sameProperties⟩ := spellsProperties_iff.mp spellsProperties
    refine ⟨_, provides, ?_,
      gathers_iff.mpr ⟨_, _, _, _, _, _, rfl, .present rfl, kept, declared, ?_⟩⟩
    · simp [fields, StructField.Complete]
    · rw [sameTable, sameProperties]
      rfl

theorem Spells.spellsProperties (spells : Spells origin doc m) :
    SpellsProperties origin (declaring doc) m.properties.entries := by
  obtain @⟨table, properties, provides, _, spelled⟩ := spells
  have third : declaring doc = properties := by
    cases doc with
    | object entries tail =>
      obtain ⟨_, docs⟩ := Doc.provides_object_iff.mp provides
      simp_all [declaring]
    | array items tail =>
      obtain ⟨_, _, docs⟩ := Doc.provides_array_iff.mp provides
      rcases items with _ | ⟨_, _ | ⟨_, _ | ⟨_, _⟩⟩⟩ <;> simp_all [declaring, inOrder]
    | _ => cases provides
  rwa [third]

/-- What a document declares it declares in one way. -/
theorem SpellsProperties.eq {one other : Entries Property}
    (spelled : SpellsProperties origin values one) (too : SpellsProperties origin values other) :
    one = other := by
  have unique : Relator.RightUnique (Declares origin) := by
    rintro entry ⟨name, p⟩ ⟨_, q⟩ ⟨rfl, decoded⟩ ⟨rfl, same⟩
    exact congrArg _ (Except.ok.inj (decoded.symm.trans same))
  cases spelled with
  | missing =>
    cases too
    rfl
  | object each =>
    cases too with
    | object again => exact unique.forall₂ each again

end Decoding

end Model

end SqlMapper
