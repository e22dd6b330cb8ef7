import Rsp.Lib.Counting
import Rsp.ResourceManager.SchemaHashes

/-!
# What the schema registry remembers

The registry after a history of advertisements, in terms of the schemas ingested, one after the other. The schema stored under a hash is the first one with it. Only such a first schema is entered for its proto file, where it takes the place of the one before.
-/

namespace Rsp.SchemaRegistry

open Proto

/-! ### First schemas -/

/-- The schema stands at the position, and none before it has its hash, which is not empty. -/
structure FirstAt (schemas : List ServiceSchema) (position : Nat) (schema : ServiceSchema) : Prop where
  stands : schemas[position]? = some schema
  hash_ne : schema.schemaHash ≠ []
  first : ∀ earlier < position, ∀ other, schemas[earlier]? = some other → other.schemaHash ≠ schema.schemaHash

/-- Of the first schemas with a proto file name, the one that stands last. -/
structure NewestAt (schemas : List ServiceSchema) (protoFile : Bytes) (position : Nat) (schema : ServiceSchema) : Prop where
  firstAt : FirstAt schemas position schema
  file : schema.protoFileName = protoFile
  last : ∀ later other, FirstAt schemas later other → other.protoFileName = protoFile → later ≤ position

variable {schemas : List ServiceSchema} {schema : ServiceSchema} {position : Nat} {protoFile : Bytes}

theorem NewestAt.unique {position' : Nat} {schema' : ServiceSchema} (h : NewestAt schemas protoFile position schema)
    (h' : NewestAt schemas protoFile position' schema') : schema = schema' := by
  have hle := h.last position' schema' h'.firstAt h'.file
  have hge := h'.last position schema h.firstAt h.file
  obtain rfl : position = position' := le_antisymm hge hle
  exact Option.some.inj (h.firstAt.stands.symm.trans h'.firstAt.stands)

theorem find?_hash_iff {hash : Bytes} (hhash : hash ≠ []) :
    schemas.find? (·.schemaHash = hash) = some schema ↔ ∃ position, FirstAt schemas position schema ∧ schema.schemaHash = hash := by
  rw [List.find?_eq_some_iff_getElem]
  constructor
  · rintro ⟨hsame, position, hlt, rfl, hfirst⟩
    have hsame : schemas[position].schemaHash = hash := by simpa using hsame
    refine ⟨position, ⟨List.getElem?_eq_getElem hlt, by rwa [hsame], ?_⟩, hsame⟩
    intro earlier hearlier other hother
    obtain ⟨hlt', rfl⟩ := List.getElem?_eq_some_iff.mp hother
    have hne := hfirst earlier hearlier
    rw [hsame]
    simpa using hne
  · rintro ⟨position, h, rfl⟩
    obtain ⟨hlt, rfl⟩ := List.getElem?_eq_some_iff.mp h.stands
    refine ⟨by simp, position, hlt, rfl, fun earlier hearlier => ?_⟩
    have hne := h.first earlier hearlier _ (List.getElem?_eq_getElem (hearlier.trans hlt))
    simpa using hne

/-- The first schemas after one more was ingested. -/
theorem firstAt_concat (last : ServiceSchema) :
    FirstAt (schemas ++ [last]) position schema ↔
      FirstAt schemas position schema ∨
        (position = schemas.length ∧ schema = last ∧ last.schemaHash ≠ [] ∧
          ∀ other ∈ schemas, other.schemaHash ≠ last.schemaHash) := by
  have hbefore {earlier : Nat} (h : earlier < schemas.length) : (schemas ++ [last])[earlier]? = schemas[earlier]? :=
    List.getElem?_append_left h
  constructor
  · intro h
    by_cases hlt : position < schemas.length
    · refine .inl ⟨(hbefore hlt).symm.trans h.stands, h.hash_ne, fun earlier hearlier other hother => ?_⟩
      exact h.first earlier hearlier other ((hbefore (hearlier.trans hlt)).trans hother)
    · have hposition : position = schemas.length := by
        have hbound := (List.getElem?_eq_some_iff.mp h.stands).1
        rw [List.length_append, List.length_singleton] at hbound
        omega
      subst hposition
      have hstands := h.stands
      rw [List.getElem?_concat_length] at hstands
      obtain rfl := Option.some.inj hstands
      refine .inr ⟨rfl, rfl, h.hash_ne, fun other hother => ?_⟩
      obtain ⟨earlier, hearlier, rfl⟩ := List.getElem_of_mem hother
      exact h.first earlier hearlier _ ((hbefore hearlier).trans (List.getElem?_eq_getElem hearlier))
  · rintro (h | ⟨rfl, rfl, hne, hnew⟩)
    · have hlt := (List.getElem?_eq_some_iff.mp h.stands).1
      refine ⟨(hbefore hlt).trans h.stands, h.hash_ne, fun earlier hearlier other hother => ?_⟩
      exact h.first earlier hearlier other ((hbefore (hearlier.trans hlt)).symm.trans hother)
    · refine ⟨List.getElem?_concat_length, hne, fun earlier hearlier other hother => ?_⟩
      rw [hbefore hearlier] at hother
      exact hnew other (List.mem_of_getElem? hother)

/-! ### The index of proto files -/

/-- The entry of each proto file is the hash of the newest first schema with its name. -/
structure Indexes (registry : SchemaRegistry) (schemas : List ServiceSchema) : Prop where
  newest : ∀ protoFile hash, registry.byProtoFile[protoFile]? = some hash →
    ∃ position schema, NewestAt schemas protoFile position schema ∧ schema.schemaHash = hash
  none : ∀ protoFile, registry.byProtoFile[protoFile]? = none →
    ∀ position schema, FirstAt schemas position schema → schema.protoFileName ≠ protoFile

theorem findByHash_ingested (schemas : List ServiceSchema) {hash : Bytes} (hhash : hash ≠ []) :
    (schemas.foldl ingestSchema {}).findByHash hash = schemas.find? (·.schemaHash = hash) := by
  have hstart : findByHash {} hash = none := by simp [findByHash]
  rw [findByHash_foldl_ingestSchema schemas hhash, hstart, Option.none_or]

theorem contains_ingested_iff (schemas : List ServiceSchema) {hash : Bytes} (hhash : hash ≠ []) :
    (schemas.foldl ingestSchema {}).byHash.contains hash = true ↔ ∃ schema ∈ schemas, schema.schemaHash = hash := by
  have hfind := findByHash_ingested schemas hhash
  rw [findByHash] at hfind
  rw [Std.TreeMap.contains_eq_isSome_getElem?, hfind, List.find?_isSome]
  simp

/-- Ignoring a schema changes nothing, as the first schemas are those from before. -/
theorem Indexes.of_same {registry : SchemaRegistry} {after : List ServiceSchema} (h : Indexes registry schemas)
    (hsame : ∀ position schema, FirstAt after position schema ↔ FirstAt schemas position schema) : Indexes registry after := by
  refine ⟨fun protoFile hash hentry => ?_, fun protoFile hentry position schema hfirst => ?_⟩
  · obtain ⟨position, schema, hnewest, hhash⟩ := h.newest protoFile hash hentry
    exact ⟨position, schema, ⟨(hsame _ _).mpr hnewest.firstAt, hnewest.file,
      fun later other hother => hnewest.last later other ((hsame _ _).mp hother)⟩, hhash⟩
  · exact h.none protoFile hentry position schema ((hsame _ _).mp hfirst)

/-- A first schema is the newest one for its proto file. -/
theorem Indexes.enter {registry : SchemaRegistry} {last : ServiceSchema} {byHash : Std.TreeMap Bytes ServiceSchema}
    (h : Indexes registry schemas) (hlast : FirstAt (schemas ++ [last]) schemas.length last) :
    Indexes ⟨byHash, registry.byProtoFile.insert last.protoFileName last.schemaHash⟩ (schemas ++ [last]) := by
  refine ⟨fun protoFile hash hentry => ?_, fun protoFile hentry position schema hfirst => ?_⟩
  · change (registry.byProtoFile.insert last.protoFileName last.schemaHash)[protoFile]? = _ at hentry
    rw [Std.TreeMap.getElem?_insert] at hentry
    split_ifs at hentry with hfile
    · obtain rfl := Option.some.inj hentry
      refine ⟨schemas.length, last, ⟨hlast, by simpa using hfile, fun later other hother _ => ?_⟩, rfl⟩
      have hbound := (List.getElem?_eq_some_iff.mp hother.stands).1
      rw [List.length_append, List.length_singleton] at hbound
      omega
    · obtain ⟨position, schema, hnewest, hhash⟩ := h.newest protoFile hash hentry
      refine ⟨position, schema, ⟨(firstAt_concat last).mpr (.inl hnewest.firstAt), hnewest.file, ?_⟩, hhash⟩
      intro later other hother hotherFile
      obtain hother | ⟨-, rfl, -⟩ := (firstAt_concat last).mp hother
      · exact hnewest.last later other hother hotherFile
      · exact absurd hotherFile (by simpa using hfile)
  · change (registry.byProtoFile.insert last.protoFileName last.schemaHash)[protoFile]? = _ at hentry
    rw [Std.TreeMap.getElem?_insert] at hentry
    split_ifs at hentry with hfile
    obtain hfirst | ⟨-, rfl, -⟩ := (firstAt_concat last).mp hfirst
    · exact h.none protoFile hentry position schema hfirst
    · simpa using hfile

theorem indexes_foldl (schemas : List ServiceSchema) : Indexes (schemas.foldl ingestSchema {}) schemas := by
  induction schemas using List.reverseRecOn with
  | nil =>
    refine ⟨fun protoFile hash h => ?_, fun protoFile _ position schema h => ?_⟩
    · simp at h
    · exact nomatch h.stands
  | append_singleton schemas last ih =>
    rw [List.foldl_concat, ingestSchema]
    split_ifs with hold
    · apply ih.of_same
      intro position schema
      rw [firstAt_concat, or_iff_left]
      rintro ⟨-, -, hne, hnew⟩
      have hempty : last.schemaHash.isEmpty = false := by simpa using hne
      rw [hempty, Bool.false_or, contains_ingested_iff schemas hne] at hold
      obtain ⟨other, hother, heq⟩ := hold
      exact hnew other hother heq
    · have hne : last.schemaHash ≠ [] := by
        intro heq
        simp [heq] at hold
      apply ih.enter
      refine (firstAt_concat last).mpr (.inr ⟨rfl, rfl, hne, fun other hother heq => hold ?_⟩)
      rw [(contains_ingested_iff schemas hne).mpr ⟨other, hother, heq⟩, Bool.or_true]

/-! ### Histories -/

/-- The registry after a history of advertisements. -/
def ofHistory (history : List ResourceAdvertisement) : SchemaRegistry := history.foldl ingest {}

/-- The schemas of a history, in the order in which they were ingested. -/
def ingested (history : List ResourceAdvertisement) : List ServiceSchema := history.flatMap (·.schemas)

theorem ofHistory_eq (history : List ResourceAdvertisement) : ofHistory history = (ingested history).foldl ingestSchema {} :=
  List.foldl_flatMap.symm

theorem findByHash_nil_ofHistory (history : List ResourceAdvertisement) : (ofHistory history).findByHash [] = none := by
  rw [ofHistory_eq]
  exact findByHash_nil_foldl_ingestSchema _ (by simp [findByHash])

theorem findByHash_ofHistory_iff (history : List ResourceAdvertisement) (hash : Bytes) :
    (ofHistory history).findByHash hash = some schema ↔
      ∃ position, FirstAt (ingested history) position schema ∧ schema.schemaHash = hash := by
  by_cases hhash : hash = []
  · subst hhash
    rw [findByHash_nil_ofHistory]
    exact ⟨fun h => (nomatch h), fun ⟨position, h, hnil⟩ => absurd hnil h.hash_ne⟩
  · rw [ofHistory_eq, findByHash_ingested _ hhash, find?_hash_iff hhash]

theorem findByProtoFile_ofHistory_iff (history : List ResourceAdvertisement) (protoFile : Bytes) :
    (ofHistory history).findByProtoFile protoFile = some schema ↔
      ∃ position, NewestAt (ingested history) protoFile position schema := by
  have hindexes := indexes_foldl (ingested history)
  rw [← ofHistory_eq] at hindexes
  have hfound {position : Nat} {schema : ServiceSchema} (h : NewestAt (ingested history) protoFile position schema) :
      (ofHistory history).findByHash schema.schemaHash = some schema :=
    (findByHash_ofHistory_iff history _).mpr ⟨position, h.firstAt, rfl⟩
  rw [findByProtoFile]
  cases hentry : (ofHistory history).byProtoFile[protoFile]? with
  | none =>
    refine ⟨fun h => (nomatch h), fun ⟨position, h⟩ => ?_⟩
    exact absurd h.file (hindexes.none protoFile hentry position schema h.firstAt)
  | some hash =>
    obtain ⟨position, newest, hnewest, rfl⟩ := hindexes.newest protoFile hash hentry
    rw [Option.bind_some, hfound hnewest]
    constructor
    · intro h
      obtain rfl := Option.some.inj h
      exact ⟨position, hnewest⟩
    · rintro ⟨position', h⟩
      rw [hnewest.unique h]

theorem findByProtoFile_ofHistory_eq_none_iff (history : List ResourceAdvertisement) (protoFile : Bytes) :
    (ofHistory history).findByProtoFile protoFile = none ↔
      ∀ position schema, FirstAt (ingested history) position schema → schema.protoFileName ≠ protoFile := by
  have hindexes := indexes_foldl (ingested history)
  rw [← ofHistory_eq] at hindexes
  constructor
  · intro hnone
    apply hindexes.none
    by_contra hentry
    obtain ⟨hash, hentry⟩ := Option.ne_none_iff_exists'.mp hentry
    obtain ⟨position, newest, hnewest, -⟩ := hindexes.newest protoFile hash hentry
    have hfound := (findByProtoFile_ofHistory_iff history protoFile).mpr ⟨position, hnewest⟩
    rw [hnone] at hfound
    cases hfound
  · intro hnone
    by_contra hfound
    obtain ⟨schema, hfound⟩ := Option.ne_none_iff_exists'.mp hfound
    obtain ⟨position, hnewest⟩ := (findByProtoFile_ofHistory_iff history protoFile).mp hfound
    exact hnone position schema hnewest.firstAt hnewest.file

/-- Each schema is stored under its own hash. -/
theorem schemaHash_of_entry {history : List ResourceAdvertisement} {hash : Bytes}
    (h : (ofHistory history).byHash[hash]? = some schema) : schema.schemaHash = hash := by
  obtain ⟨position, -, hsame⟩ := (findByHash_ofHistory_iff history hash).mp h
  exact hsame

theorem map_schemaHash_allSchemas (history : List ResourceAdvertisement) :
    (ofHistory history).allSchemas.map (·.schemaHash) = (ofHistory history).byHash.keys := by
  rw [allSchemas, Counting.values_eq_map_snd, List.map_map, ← Std.TreeMap.map_fst_toList_eq_keys]
  apply List.map_congr_left
  rintro ⟨hash, schema⟩ hentry
  exact schemaHash_of_entry (Std.TreeMap.mem_toList_iff_getElem?_eq_some.mp hentry)

/-- The registry after any history of advertisements: the first schema under each hash, the newest of them under each proto file, and one schema for each hash in all. -/
theorem registry_history (history : List ResourceAdvertisement) :
    (∀ hash schema, (ofHistory history).findByHash hash = some schema ↔
      ∃ position, FirstAt (ingested history) position schema ∧ schema.schemaHash = hash) ∧
    (∀ protoFile schema, (ofHistory history).findByProtoFile protoFile = some schema ↔
      ∃ position, NewestAt (ingested history) protoFile position schema) ∧
    (∀ protoFile, (ofHistory history).findByProtoFile protoFile = none ↔
      ∀ position schema, FirstAt (ingested history) position schema → schema.protoFileName ≠ protoFile) ∧
    ((ofHistory history).allSchemas.map (·.schemaHash)).Nodup ∧
    (∀ hash, hash ∈ (ofHistory history).allSchemas.map (·.schemaHash) ↔
      hash ≠ [] ∧ ∃ schema ∈ ingested history, schema.schemaHash = hash) ∧
    (ofHistory history).snapshot.schemas = (ofHistory history).allSchemas := by
  refine ⟨fun hash schema => findByHash_ofHistory_iff history hash,
    fun protoFile schema => findByProtoFile_ofHistory_iff history protoFile,
    findByProtoFile_ofHistory_eq_none_iff history, ?_, fun hash => ?_, rfl⟩
  · rw [map_schemaHash_allSchemas]
    exact Std.TreeMap.nodup_keys
  · rw [map_schemaHash_allSchemas, Std.TreeMap.mem_keys, ← Std.TreeMap.contains_iff_mem]
    by_cases hhash : hash = []
    · subst hhash
      have hnone := findByHash_nil_ofHistory history
      rw [findByHash] at hnone
      simp [Std.TreeMap.contains_eq_isSome_getElem?, hnone]
    · rw [ofHistory_eq, contains_ingested_iff _ hhash, and_iff_right hhash]

end Rsp.SchemaRegistry
