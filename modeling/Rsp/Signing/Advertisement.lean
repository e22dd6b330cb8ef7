import Rsp.Lib.Reader
import Rsp.Signing.Injective

/-!
# What the signed stream says about a resource advertisement

The hash of an advertisement leaves out the hash and the version of every schema and feeds nothing for a record that is neither `tcp_connect` nor `tcp_listen`. What it does feed can be read back, record by record; but since a record can be silent, the stream does not tell where the records end and the schemas begin. An advertisement is determined by its stream exactly if it has no schemas and only TCP records, and no tail of the records can be taken for schemas.
-/

namespace Rsp

open ByteCode Proto

/-! ### Records -/

instance : Short Address := ⟨fun m => Short.short m.ipv6⟩

instance : Short PortRange := ⟨fun _ => True⟩

instance : Short ResourceTCPConnect := ⟨fun m => Short.short m.nodeId ∧ Short.short m.sourceAddresses⟩

instance : Short ResourceTCPListen :=
  ⟨fun m => Short.short m.nodeId ∧ Short.short m.listenAddress ∧ Short.short m.allowedRange⟩

instance : Short ResourceSSHD := ⟨fun m => Short.short m.nodeId ∧ Short.short m.serverName⟩

instance : Short ResourceRecord where
  short
    | .notSet => True
    | .tcpConnect m => Short.short m
    | .tcpListen m => Short.short m
    | .sshd m => Short.short m

instance : Short ServiceSchema :=
  ⟨fun m => Short.short m.protoFileName ∧ Short.short m.protoFileDescriptorSet ∧ Short.short m.acceptedTypeUrls ∧
    Short.short m.schemaHash⟩

instance : Short ResourceAdvertisement := ⟨fun m => Short.short m.records ∧ Short.short m.schemas⟩

theorem reads_hashAddress : Reads hashAddress Short.short fun _ => True := by
  have hfields := (reads_be32.tagged 1).append (reads_lenPrefixed_short.tagged 2) (by simp)
  refine hfields.comap (fun m => (m.ipv4, m.ipv6)) ?_ ?_ fun _ h => ⟨trivial, h⟩
  · rintro ⟨⟩ ⟨⟩ h
    simp_all
  · intro m
    simp [hashAddress, tagged]

theorem reads_hashPortRange : Reads hashPortRange Short.short fun _ => True := by
  have hfields := (reads_be32.tagged 1).append (reads_be32.tagged 2) (by simp)
  refine hfields.comap (fun m => (m.startPort, m.endPort)) ?_ ?_ fun _ _ => ⟨trivial, trivial⟩
  · rintro ⟨⟩ ⟨⟩ h
    simp_all
  · intro m
    simp [hashPortRange, tagged]

theorem reads_addresses : Reads (tagged 2 (counted hashAddress)) Short.short fun _ => True :=
  (reads_hashAddress.counted fun _ _ _ _ => trivial).tagged 2

theorem reads_hashResourceTcpConnect : Reads hashResourceTcpConnect Short.short fun _ => True := by
  have hfields := (reads_hashNodeId.optional 1).append reads_addresses (by simp [tagged])
  refine hfields.comap (fun m => (m.nodeId, m.sourceAddresses)) ?_ ?_ fun _ h => h
  · rintro ⟨⟩ ⟨⟩ h
    simp_all
  · intro m
    simp [hashResourceTcpConnect, tagged]

theorem reads_hashResourceTcpListen : Reads hashResourceTcpListen Short.short (Avoids [3]) := by
  have hfields := (reads_hashNodeId.optional 1).append (reads_addresses.append
    (reads_hashPortRange.optionalAvoids (List.mem_singleton_self 3)) (by simp)) (by simp [tagged])
  refine hfields.comap (fun m => (m.nodeId, m.listenAddress, m.allowedRange)) ?_ ?_ fun _ h => h
  · rintro ⟨⟩ ⟨⟩ h
    simp_all
  · intro m
    simp [hashResourceTcpListen, tagged]

def isTcp : ResourceRecord → Bool
  | .tcpConnect _ | .tcpListen _ => true
  | _ => false

theorem reads_hashResourceRecord : Reads hashResourceRecord (fun record => isTcp record = true ∧ Short.short record)
    (Avoids [3]) := by
  rintro a b r s ⟨ha, hashort⟩ ⟨hb, hbshort⟩ hr hs heq
  cases a <;> cases ha <;> cases b <;> cases hb
  case tcpConnect.refl.tcpConnect.refl =>
    exact reads_hashResourceTcpConnect.kind ResourceRecord.tcpConnect hashort hbshort trivial trivial heq
  case tcpListen.refl.tcpListen.refl =>
    exact reads_hashResourceTcpListen.kind ResourceRecord.tcpListen hashort hbshort hr hs heq
  all_goals
    simp only [hashResourceRecord, List.append_assoc] at heq
    have htag := (reads_be32 trivial trivial trivial trivial heq).1
    simp at htag

theorem hashResourceRecord_of_not_isTcp {record : ResourceRecord} (h : isTcp record = false) :
    hashResourceRecord record = [] := by
  cases record <;> cases h <;> rfl

theorem flatMap_hashResourceRecord (records : List ResourceRecord) :
    records.flatMap hashResourceRecord = (records.filter isTcp).flatMap hashResourceRecord := by
  induction records with
  | nil => rfl
  | cons record records ih =>
    cases h : isTcp record with
    | true => simp [h, ih]
    | false => simp [h, ih, hashResourceRecord_of_not_isTcp h]

/-! ### Schemas -/

/-- The fields of a schema that are fed. -/
def schemaFields (m : ServiceSchema) : Bytes × Bytes × List Bytes :=
  (m.protoFileName, m.protoFileDescriptorSet, m.acceptedTypeUrls)

def schemaOfFields (p : Bytes × Bytes × List Bytes) : ServiceSchema :=
  { protoFileName := p.1, protoFileDescriptorSet := p.2.1, acceptedTypeUrls := p.2.2 }

def hashSchemaFields (p : Bytes × Bytes × List Bytes) : Bytes :=
  lenPrefixed p.1 ++ (lenPrefixed p.2.1 ++ counted lenPrefixed p.2.2)

def readSchemaFields : Reader (Bytes × Bytes × List Bytes) :=
  readBoth readLenPrefixed (readBoth readLenPrefixed (readCounted readLenPrefixed))

/-- The bytes are those of a nonempty list of schemas. -/
def isSchemaList (bytes : Bytes) : Bool :=
  match readBoth readBe32 (readCounted readSchemaFields) bytes with
  | some ((tag, schemas), rest) => tag = 2 && !schemas.isEmpty && rest.isEmpty
  | none => false

theorem hashSchemas_of_ne_nil {schemas : List ServiceSchema} (h : schemas ≠ []) :
    hashSchemas schemas = be32 2 ++ counted hashSchemaFields (schemas.map schemaFields) := by
  have hfields : hashSchemaFields ∘ schemaFields = hashSchema := by
    funext m
    simp [hashSchemaFields, schemaFields, hashSchema]
  simp [hashSchemas, h, counted, List.flatMap_map, ← hfields, Function.comp_def]

theorem inverts_readSchemaFields : Inverts readSchemaFields hashSchemaFields fun p =>
    p.1.length < 2 ^ 32 ∧ p.2.1.length < 2 ^ 32 ∧ p.2.2.length < 2 ^ 32 ∧ ∀ url ∈ p.2.2, url.length < 2 ^ 32 :=
  inverts_readLenPrefixed.readBoth (inverts_readLenPrefixed.readBoth inverts_readLenPrefixed.readCounted)

theorem short_bytes {bytes : Bytes} : Short.short bytes ↔ bytes.length < 2 ^ 32 :=
  ⟨fun h => h.1, fun h => ⟨h, fun _ _ => trivial⟩⟩

theorem isSchemaList_iff {bytes : Bytes} : isSchemaList bytes = true ↔
    ∃ schemas : List ServiceSchema, schemas ≠ [] ∧ Short.short schemas ∧ hashSchemas schemas = bytes := by
  have hinverts := inverts_readBe32.readBoth inverts_readSchemaFields.readCounted
  constructor
  · intro h
    unfold isSchemaList at h
    split at h
    · next tag fields rest hread =>
      simp only [Bool.and_eq_true, decide_eq_true_eq, Bool.not_eq_true', List.isEmpty_iff] at h
      obtain ⟨⟨rfl, hne⟩, rfl⟩ := h
      obtain ⟨⟨-, hlen, hok⟩, rfl⟩ := (hinverts _ _ _).mp hread
      have hmap : (fields.map schemaOfFields).map schemaFields = fields := by
        simp [schemaOfFields, schemaFields, Function.comp_def]
      have hne : fields ≠ [] := by simpa using hne
      refine ⟨fields.map schemaOfFields, by simpa using hne, ⟨by simpa using hlen, fun m hm => ?_⟩, ?_⟩
      · obtain ⟨p, hp, rfl⟩ := List.mem_map.mp hm
        obtain ⟨hname, hset, hurls, hurl⟩ := hok p hp
        exact ⟨short_bytes.mpr hname, short_bytes.mpr hset, ⟨hurls, fun url h => short_bytes.mpr (hurl url h)⟩,
          short_bytes.mpr (by simp [schemaOfFields])⟩
      · rw [hashSchemas_of_ne_nil (by simpa using hne), hmap, List.append_nil]
    · cases h
  · rintro ⟨schemas, hne, hshort, rfl⟩
    have hread := (hinverts (hashSchemas schemas) (2, schemas.map schemaFields) []).mpr ?_
    · simp [isSchemaList, hread, hne]
    · refine ⟨⟨trivial, by simpa using hshort.1, fun fields hfields => ?_⟩, ?_⟩
      · obtain ⟨m, hm, rfl⟩ := List.mem_map.mp hfields
        obtain ⟨hname, hset, hurls, -⟩ := hshort.2 m hm
        exact ⟨hname.1, hset.1, hurls.1, fun url hurl => (hurls.2 url hurl).1⟩
      · simp [hashSchemas_of_ne_nil hne]

/-! ### Advertisements the stream determines -/

/-- Nothing is left out of the stream, and no tail of the records reads like a list of schemas. -/
structure Determined (m : ResourceAdvertisement) : Prop where
  schemas : m.schemas = []
  records : ∀ record ∈ m.records, isTcp record = true
  tails : ∀ tail ∈ m.records.tails, isSchemaList (tail.flatMap hashResourceRecord) = false

/-- Not every TCP record is safe: this one reads like two schemas. -/
example : isSchemaList (hashResourceRecord (.tcpListen { listenAddress := [{ ipv6 := List.replicate 261 0 }] })) =
    true := by
  decide +kernel

theorem avoids_hashResourceRecord {record : ResourceRecord} (h : isTcp record = true) (r : Bytes) :
    Avoids [3] (hashResourceRecord record ++ r) := by
  cases record <;> cases h <;> simp [hashResourceRecord]

theorem avoids_hashSchemas (schemas : List ServiceSchema) : Avoids [3] (hashSchemas schemas) := by
  by_cases h : schemas = []
  · simp [h, hashSchemas]
  · simp [hashSchemas_of_ne_nil h]

theorem hashResourceRecord_ne_nil {record : ResourceRecord} (h : isTcp record = true) :
    hashResourceRecord record ≠ [] := by
  cases record <;> cases h <;> simp [hashResourceRecord, be32]

theorem eq_of_determined {m m' : ResourceAdvertisement} (h : Determined m) (hshort : Short.short m)
    (hshort' : Short.short m') (heq : hashResourceAdvertisement m' = hashResourceAdvertisement m) : m' = m := by
  have hnil : hashSchemas m.schemas = [] := by simp [h.schemas, hashSchemas]
  simp only [hashResourceAdvertisement, counted, hnil, List.append_nil, List.append_assoc,
    List.append_cancel_left_eq] at heq
  obtain ⟨hlen, hrest⟩ := reads_be32 trivial trivial trivial trivial heq
  have hlen := uint32_ofNat_inj hshort'.1.1 hshort.1.1 hlen
  -- the records that are fed come first, and a tail of the records is what remains for the schemas
  rw [flatMap_hashResourceRecord m'.records] at hrest
  obtain ⟨tail, hrecords, htail⟩ := reads_hashResourceRecord.exists_of_flatMap_append_eq
    (fun record hok => hashResourceRecord_ne_nil hok.1) (fun record r hok => avoids_hashResourceRecord hok.1 r)
    (avoids_nil_stream _)
    (fun record hrecord => ⟨(List.mem_filter.mp hrecord).2, hshort'.1.2 record (List.mem_filter.mp hrecord).1⟩)
    (fun record hrecord => ⟨h.records record hrecord, hshort.1.2 record hrecord⟩)
    (avoids_hashSchemas m'.schemas) hrest
  have hsuffix : tail <:+ m.records := ⟨_, hrecords.symm⟩
  have hschemas : m'.schemas = [] := by
    by_contra hne
    have hfalse := h.tails tail ((List.mem_tails _ _).mpr hsuffix)
    rw [isSchemaList_iff.mpr ⟨m'.schemas, hne, hshort'.2, htail.symm⟩] at hfalse
    cases hfalse
  have htail : tail = [] := by
    rw [hschemas] at htail
    rw [List.eq_nil_iff_forall_not_mem]
    intro record hrecord
    exact hashResourceRecord_ne_nil (h.records record (hsuffix.subset hrecord))
      (List.flatMap_eq_nil_iff.mp htail record hrecord)
  rw [htail, List.append_nil] at hrecords
  have hall : m'.records.filter isTcp = m'.records :=
    List.filter_eq_self.mpr (List.length_filter_eq_length_iff.mp (by rw [← hrecords, hlen]))
  exact congrArg₂ ResourceAdvertisement.mk (hrecords.trans hall).symm (hschemas.trans h.schemas.symm)

theorem exists_other_record (record : ResourceRecord) :
    ∃ other, isTcp other = false ∧ Short.short other ∧ other ≠ record := by
  by_cases hnotSet : record = .notSet
  · exact ⟨.sshd {}, rfl, ⟨nofun, nofun⟩, by simp [hnotSet]⟩
  · exact ⟨.notSet, rfl, trivial, Ne.symm hnotSet⟩

section

variable {records : List ResourceRecord} {schemas : List ServiceSchema}
  (hshort : Short.short (⟨records, schemas⟩ : ResourceAdvertisement))
  (h : ∀ m', Short.short m' → hashResourceAdvertisement m' = hashResourceAdvertisement ⟨records, schemas⟩ →
    m' = ⟨records, schemas⟩)

include hshort h

/-- Another version of the first schema is not noticed. -/
theorem schemas_eq_nil_of_eq : schemas = [] := by
  cases schemas with
  | nil => rfl
  | cons schema schemas =>
    obtain ⟨hfirst, hrest⟩ := List.forall_mem_cons.mp hshort.2.2
    have hother := h ⟨records, { schema with schemaVersion := schema.schemaVersion + 1 } :: schemas⟩
      ⟨hshort.1, hshort.2.1, List.forall_mem_cons.mpr ⟨hfirst, hrest⟩⟩ rfl
    have hversion : schema.schemaVersion + 1 = schema.schemaVersion := by
      simpa using congrArg (fun m => m.schemas.map ServiceSchema.schemaVersion) hother
    simp at hversion

/-- Neither is another silent record. -/
theorem isTcp_of_eq {record : ResourceRecord} (hrecord : record ∈ records) : isTcp record = true := by
  by_contra hsilent
  have hsilent : isTcp record = false := by simpa using hsilent
  obtain ⟨l, r, rfl⟩ := List.append_of_mem hrecord
  obtain ⟨other, hother, hotherShort, hne⟩ := exists_other_record record
  have hsame := h ⟨l ++ other :: r, schemas⟩ ⟨⟨by simpa using hshort.1.1, ?_⟩, hshort.2⟩ ?_
  · simp [hne] at hsame
  · intro x hx
    simp only [List.mem_append, List.mem_cons] at hx
    rcases hx with hx | rfl | hx
    · exact hshort.1.2 x (by simp [hx])
    · exact hotherShort
    · exact hshort.1.2 x (by simp [hx])
  · simp [hashResourceAdvertisement, counted, hashResourceRecord_of_not_isTcp hother,
      hashResourceRecord_of_not_isTcp hsilent]

/-- Nor are schemas in the place of the last records. -/
theorem isSchemaList_tail_of_eq {tail : List ResourceRecord} (htail : tail ∈ records.tails) :
    isSchemaList (tail.flatMap hashResourceRecord) = false := by
  by_contra hreads
  obtain rfl := schemas_eq_nil_of_eq hshort h
  obtain ⟨schemas, hne, hschemas, hbytes⟩ := isSchemaList_iff.mp (by simpa using hreads)
  obtain ⟨l, rfl⟩ := (List.mem_tails _ _).mp htail
  have hsame := h ⟨l ++ List.replicate tail.length .notSet, schemas⟩ ⟨⟨by simpa using hshort.1.1, ?_⟩, hschemas⟩ ?_
  · exact hne (congrArg ResourceAdvertisement.schemas hsame)
  · intro x hx
    rcases List.mem_append.mp hx with hx | hx
    · exact hshort.1.2 x (by simp [hx])
    · rw [List.eq_of_mem_replicate hx]
      trivial
  · have hsilent : (List.replicate tail.length ResourceRecord.notSet).flatMap hashResourceRecord = [] := by
      simp [List.flatMap_eq_nil_iff, hashResourceRecord]
    have hnil : hashSchemas [] = [] := rfl
    simp only [hashResourceAdvertisement, counted, List.flatMap_append, hsilent, hbytes, hnil, List.append_nil,
      List.length_append, List.length_replicate, List.append_assoc]

theorem determined_of_eq : Determined ⟨records, schemas⟩ where
  schemas := schemas_eq_nil_of_eq hshort h
  records _ hrecord := isTcp_of_eq hshort h hrecord
  tails _ htail := isSchemaList_tail_of_eq hshort h htail

end

theorem hashRSPMessage_advertisement_iff {pb : Protobuf} {m : RSPMessage} {advertisement : ResourceAdvertisement}
    {stream : Bytes} (hcore : m.coreMessage = .resourceAdvertisement advertisement)
    (hstream : hashRSPMessage pb m = .ok stream) (advertisement' : ResourceAdvertisement) :
    hashRSPMessage pb { m with coreMessage := .resourceAdvertisement advertisement' } = .ok stream ↔
      hashResourceAdvertisement advertisement' = hashResourceAdvertisement advertisement := by
  obtain ⟨beforeTrace, hbefore, h⟩ := bind_eq_ok.mp hstream
  rw [hcore] at hbefore h
  cases hbefore
  cases h
  simp [hashRSPMessage, hashCoreBeforeTrace, hashCoreBeforeNonce, hashCoreAfterTrace, hashTrailer, bind, Except.bind,
    pure, Except.pure]

/-- **When the stream determines the advertisement.** Exactly the advertisements of `Determined` are the only ones with their stream. -/
theorem advertisement_determined_iff (pb : Protobuf) {m : RSPMessage} {advertisement : ResourceAdvertisement}
    {stream : Bytes} (hcore : m.coreMessage = .resourceAdvertisement advertisement)
    (hshort : Short.short advertisement) (hstream : hashRSPMessage pb m = .ok stream) :
    (∀ advertisement', Short.short advertisement' →
      hashRSPMessage pb { m with coreMessage := .resourceAdvertisement advertisement' } = .ok stream →
      advertisement' = advertisement) ↔ Determined advertisement := by
  simp only [hashRSPMessage_advertisement_iff hcore hstream]
  exact ⟨determined_of_eq hshort, fun h advertisement' hshort' => eq_of_determined h hshort hshort'⟩

theorem advertisement_determined_tcpConnect :
    Determined { records := [.tcpConnect {}] } ∧
      ∀ advertisement : ResourceAdvertisement, Short.short advertisement →
        hashRSPMessage default { coreMessage := .resourceAdvertisement advertisement } =
          hashRSPMessage default { coreMessage := .resourceAdvertisement { records := [.tcpConnect {}] } } →
        advertisement = { records := [.tcpConnect {}] } := by
  have hdetermined : Determined { records := [.tcpConnect {}] } := ⟨rfl, by decide, by decide⟩
  have hshort : Short.short ({ records := [.tcpConnect {}] } : ResourceAdvertisement) := by
    simp [Short.short]
  refine ⟨hdetermined, fun advertisement hshort' h => ?_⟩
  exact (advertisement_determined_iff default (m := { coreMessage := .resourceAdvertisement _ }) rfl hshort rfl).mpr
    hdetermined advertisement hshort' h

def sampleAdvertisement (id : UInt8) : ResourceAdvertisement :=
  { records := [.sshd { nodeId := some ⟨[id]⟩ }]
    schemas := [{ schemaHash := [id], schemaVersion := id.toUInt32 }] }

/-- Another node for the `sshd` record, another hash and version for the schema. -/
theorem sampleAdvertisement_not_determined :
    hashRSPMessage default { coreMessage := .resourceAdvertisement (sampleAdvertisement 1) } =
        hashRSPMessage default { coreMessage := .resourceAdvertisement (sampleAdvertisement 2) } ∧
      sampleAdvertisement 1 ≠ sampleAdvertisement 2 :=
  ⟨rfl, by decide⟩

end Rsp
