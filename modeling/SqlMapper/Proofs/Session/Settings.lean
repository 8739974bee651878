import SqlMapper.Model.Decode
import SqlMapper.Proofs.Json.Objects
import SqlMapper.Session.Settings

/-! # Settings and properties in text

Settings and properties are written under the names under which they are read, and each part as
something that is read as this part: a missing timeout as null, a missing limit not at all, and
numbers within the bounds within which they are accepted. So what is read from the text is what was
written, and it does not depend on the order of the entries.
-/

namespace SqlMapper

open Json

namespace Settings

theorem fields_independent (origin : Origin) :
    (fields origin).Pairwise StructField.Independent := by
  simp only [fields, List.pairwise_cons, List.forall_mem_cons]
  refine ⟨⟨?_, ?_, ?_, nofun⟩, ⟨?_, ?_, nofun⟩, ⟨?_, nofun⟩, nofun, .nil⟩
  all_goals
    exact .of_sets (fun _ => rfl) (fun _ => rfl) (by simp [StructField.keys]) fun _ _ _ => rfl

theorem decodeTimeout_timeoutJson (timeout : Option UInt64) :
    decodeTimeout (Doc.ofJson (timeoutJson timeout)) = .ok timeout := by
  cases timeout with
  | none => rfl
  | some millis =>
    have read := Doc.decodeOption_int UInt64.ofNat "u64" (Nat.le_of_lt_succ millis.toNat_lt)
    rwa [UInt64.ofNat_toNat] at read

theorem decodeVariant_name (origin : Origin) (orMode : OrMode) :
    (Doc.string orMode.name).decodeVariant origin OrMode.variants = .ok orMode := by
  cases orMode <;> rfl

theorem timeoutJson_isExact (timeout : Option UInt64) : (timeoutJson timeout).IsExact := by
  cases timeout with
  | none => trivial
  | some millis =>
    have small := millis.toNat_lt
    exact ⟨by omega, by omega⟩

theorem timeoutJson_nesting (timeout : Option UInt64) : (timeoutJson timeout).nesting = 0 := by
  cases timeout <;> rfl

theorem toJson_isExact (s : Settings) : s.toJson.IsExact := by
  simp [toJson, IsExact, EntriesExact, Entries.names, timeoutJson_isExact]

theorem toJson_nesting (s : Settings) : s.toJson.nesting = 1 := by
  simp [toJson, nesting, entriesNesting, timeoutJson_nesting]

/-- Settings are read from the document that they are written as. -/
theorem decode_toJson (origin : Origin) (s : Settings) :
    decode origin (Doc.ofJson s.toJson) = .ok s := by
  refine (Doc.decodeStruct_eq_ok_iff (fields_independent origin)).mpr
    ⟨[[.string s.database], [Doc.ofJson (timeoutJson s.statementTimeout)],
      [Doc.ofJson (timeoutJson s.migrationTimeout)], [.string s.orMode.name]], .object _, ?_, ?_⟩
  · simp [fields, StructField.Complete]
  · rw [fields]
    refine .present rfl ?_
    refine StructField.Sets.gathers_present (fun _ => rfl) (decodeTimeout_timeoutJson _) ?_
    refine StructField.Sets.gathers_present (fun _ => rfl) (decodeTimeout_timeoutJson _) ?_
    refine StructField.Sets.gathers_present (fun _ => rfl) (decodeVariant_name origin _) ?_
    exact .nil s

end Settings

namespace Property

theorem fields_independent (origin : Origin) :
    (fields origin).Pairwise StructField.Independent := by
  simp only [fields, List.pairwise_cons, List.forall_mem_cons]
  refine ⟨⟨?_, ?_, ?_, ?_, nofun⟩, ⟨?_, ?_, ?_, nofun⟩, ⟨?_, ?_, nofun⟩, ⟨?_, nofun⟩, nofun, .nil⟩
  all_goals
    exact .of_sets (fun _ => rfl) (fun _ => rfl) (by simp [StructField.keys]) fun _ _ _ => rfl

theorem decode_name (origin : Origin) (kind : Kind) :
    Kind.decode origin (.string kind.name) = .ok kind := by
  cases kind <;> rfl

theorem decodeLimit_int (limit : UInt32) : decodeLimit (.int limit.toNat) = .ok (some limit) := by
  have read := Doc.decodeOption_int UInt32.ofNat "u32" (Nat.le_of_lt_succ limit.toNat_lt)
  rwa [UInt32.ofNat_toNat] at read

theorem toJson_isExact (p : Property) : p.toJson.IsExact := by
  cases limited : p.limit with
  | none => simp [toJson, limited, IsExact, EntriesExact, Entries.names]
  | some limit =>
    have small := limit.toNat_lt
    have word : (Json.int limit.toNat).IsExact := ⟨by omega, by omega⟩
    simpa [toJson, limited, IsExact, EntriesExact, Entries.names] using word

theorem toJson_nesting (p : Property) : p.toJson.nesting = 1 := by
  cases limited : p.limit <;> simp [toJson, limited, nesting, entriesNesting]

/-- A property is read from the document that it is written as. -/
theorem decode_toJson (origin : Origin) (p : Property) :
    decode origin (Doc.ofJson p.toJson) = .ok p := by
  obtain ⟨kind, limit, nullable, unique, indexed⟩ := p
  refine (Doc.decodeStruct_eq_ok_iff (fields_independent origin)).mpr
    ⟨[[.string kind.name], limit.toList.map fun limit => .int limit.toNat, [.bool nullable],
      [.bool unique], [.bool indexed]], ?_, ?_, ?_⟩
  · cases limit <;> exact .object _
  · simp [fields, StructField.Complete]
  · have flags : StructField.Gathers ((fields origin).drop 2)
        [[.bool nullable], [.bool unique], [.bool indexed]] ⟨kind, limit, true, false, false⟩
        ⟨kind, limit, nullable, unique, indexed⟩ :=
      .present rfl (.present rfl (.present rfl (.nil _)))
    refine StructField.Sets.gathers_present (fun _ => rfl) (decode_name origin kind) ?_
    cases limit with
    | none => exact .missing flags
    | some limit =>
      exact StructField.Sets.gathers_present (fun _ => rfl) (decodeLimit_int limit) flags

end Property

/-- Settings and properties come back from their texts as they were, and also if the entries of
these texts are put into any other order. -/
theorem settings_and_properties_read_back :
    (∀ s : Settings, Settings.ofText s.toJson.text = .ok s ∧
      ∃ entries, s.toJson = .object entries ∧
        ∀ order, order.Perm entries → Settings.ofText (Json.object order).text = .ok s) ∧
    ∀ p : Property, decodeText (Property.decode .text) p.toJson.text = .ok p ∧
      ∃ entries, p.toJson = .object entries ∧
        ∀ order, order.Perm entries →
          decodeText (Property.decode .text) (Json.object order).text = .ok p := by
  constructor
  · intro s
    have anyOrder (order) (perm : order.Perm _) :
        Settings.ofText (Json.object order).text = .ok s :=
      decodeText_struct_perm (Settings.fields_independent .text) s.toJson_isExact
        (s.toJson_nesting.trans_le (by decide)) perm (s.decode_toJson .text)
    exact ⟨anyOrder _ (.refl _), _, rfl, anyOrder⟩
  · intro p
    have anyOrder (order) (perm : order.Perm _) :
        decodeText (Property.decode .text) (Json.object order).text = .ok p :=
      decodeText_struct_perm (Property.fields_independent .text) p.toJson_isExact
        (p.toJson_nesting.trans_le (by decide)) perm (p.decode_toJson .text)
    exact ⟨anyOrder _ (.refl _), _, rfl, anyOrder⟩

/-- The largest numbers, a database with characters that are escaped, and entries in reverse. -/
theorem settings_and_properties_read_back_reversed :
    Settings.ofText (Json.object
      [("orMode", .string "flattened"), ("migrationTimeoutMs", .null),
        ("statementTimeoutMs", .int 18446744073709551615),
        ("database", .string "sqlite:\"a\\b\x00\né")]).text =
      .ok ⟨"sqlite:\"a\\b\x00\né", some 18446744073709551615, none, .flattened⟩ ∧
    decodeText (Property.decode .text) (Json.object
      [("index", .bool false), ("unique", .bool true), ("allowNull", .bool false),
        ("limit", .int 4294967295), ("type", .string "JSON")]).text =
      .ok ⟨.json, some 4294967295, false, true, false⟩ := by
  obtain ⟨settings, properties⟩ := settings_and_properties_read_back
  obtain ⟨_, _, written, anyOrder⟩ := settings
    ⟨"sqlite:\"a\\b\x00\né", some 18446744073709551615, none, .flattened⟩
  obtain ⟨_, _, writtenToo, anyOrderToo⟩ := properties ⟨.json, some 4294967295, false, true, false⟩
  cases written
  cases writtenToo
  have reversed := anyOrder _ (List.reverse_perm _)
  have reversedToo := anyOrderToo _ (List.reverse_perm _)
  exact ⟨reversed, reversedToo⟩

end SqlMapper
