import Rsp.Node.LogFilter

/-!
# Walking a field path

What `walkPath` does, stated without the loop: a path crosses the message fields that its inner segments name (`Crosses`) and ends at the field that its last segment names (`EndsAt`). The sub-message behind a crossed field is the one it holds, or the default instance of its type when it holds none, and with a schema snapshot a `google.protobuf.Any` is replaced by the message it packs. The walk aborts the process at a crossed field whose accessor may not be called, which is a repeated one; everything else about a leaf follows from the field at the end.
-/

namespace Rsp

open Reflection Proto

/-! ### One segment -/

section

variable (pb : Protobuf) (snap : Option SchemaSnapshot)

/-- With a snapshot the payload of an `Any` is walked in its place. -/
def isUnpacked (field : Field) : Bool := snap.isSome && field.descriptor.messageType = anyTypeName

/-- The pool of the dynamic messages. -/
def dynamicPool : Option Pool := snap.bind (·.ensurePool pb)

/-- From a message field to the message in which the next segment is looked up. -/
def enterField (pool : Pool) (field : Field) : Except Fault (Option (Pool × Message)) := do
  let sub ← orAbort (field.getMessage pool)
  if isUnpacked snap field then unpackAny (dynamicPool pb snap) sub else return some (pool, sub)

/-- The rest of the walk, in the message that was entered. -/
def walkEntered (held : Bool) (segments : List Bytes) : Option (Pool × Message) → Except Fault (Option WalkResult)
  | none => .ok none
  | some (pool, message) => walkPath pb snap pool held message segments

theorem walkPath_singleton (pool : Pool) (held : Bool) (current : Message) (segment : Bytes) :
    walkPath pb snap pool held current [segment] =
      .ok ((current.findFieldByName segment).map fun field => ⟨current, field, held⟩) := by
  unfold walkPath
  cases current.findFieldByName segment <;> rfl

/-- The loop body at an inner segment. -/
theorem walkPath_cons {segments : List Bytes} (hinner : segments ≠ []) (pool : Pool) (held : Bool) (current : Message)
    (segment : Bytes) {field : Field} (hfind : current.findFieldByName segment = some field)
    (htype : field.descriptor.cppType = .message) :
    walkPath pb snap pool held current (segment :: segments) =
      enterField pb snap pool field >>= walkEntered pb snap (held || isUnpacked snap field) segments := by
  have hne : segments.isEmpty = false := by simpa using hinner
  rw [walkPath, hfind]
  unfold enterField
  cases hsub : field.getMessage pool with
  | none => simp [hne, htype, hsub, orAbort, bind, Except.bind]
  | some sub =>
    cases snap with
    | none => simp [hne, htype, hsub, orAbort, bind, Except.bind, isUnpacked, pure, Except.pure, walkEntered]
    | some snap =>
      by_cases hany : field.descriptor.messageType = anyTypeName
      · simp only [hne, htype, hsub, hany, orAbort, bind, Except.bind, isUnpacked, dynamicPool, Option.isSome_some,
          Option.bind_some, decide_true, Bool.and_true, if_true, Bool.or_true, ne_eq, not_true_eq_false, if_false,
          Bool.false_eq_true]
        cases unpackAny (snap.ensurePool pb) sub with
        | error fault => rfl
        | ok entered => cases entered <;> rfl
      · simp [hne, htype, hsub, hany, orAbort, bind, Except.bind, isUnpacked, pure, Except.pure, walkEntered]

theorem walkPath_cons_of_not_message {segments : List Bytes} (hinner : segments ≠ []) (pool : Pool) (held : Bool)
    (current : Message) (segment : Bytes)
    (h : ∀ field, current.findFieldByName segment = some field → field.descriptor.cppType ≠ .message) :
    walkPath pb snap pool held current (segment :: segments) = .ok none := by
  have hne : segments.isEmpty = false := by simpa using hinner
  rw [walkPath]
  cases hfind : current.findFieldByName segment with
  | none => rfl
  | some field => simp [hne, h field hfind]

end

/-! ### Paths -/

section

variable (pb : Protobuf) (snap : Option SchemaSnapshot)

/-- The segment names a message field of `message`, behind which `next` is found in `pool'`. -/
def Enters (pool : Pool) (message : Message) (segment : Bytes) (pool' : Pool) (next : Message) : Prop :=
  ∃ field, message.findFieldByName segment = some field ∧ field.descriptor.cppType = .message ∧
    enterField pb snap pool field = .ok (some (pool', next))

/-- An inner segment of the path names the message field `field`, reached with `pool'` at hand. -/
inductive Crosses : Pool → Message → List Bytes → Pool → Field → Prop
  | here {pool : Pool} {message : Message} {segment : Bytes} {segments : List Bytes} {field : Field}
      (hfind : message.findFieldByName segment = some field) (htype : field.descriptor.cppType = .message)
      (hinner : segments ≠ []) : Crosses pool message (segment :: segments) pool field
  | later {pool pool' pool'' : Pool} {message next : Message} {segment : Bytes} {segments : List Bytes} {field : Field}
      (henter : Enters pb snap pool message segment pool' next) (hrest : Crosses pool' next segments pool'' field) :
      Crosses pool message (segment :: segments) pool'' field

/-- The last segment of the path names `field`. -/
inductive EndsAt : Pool → Message → List Bytes → Field → Prop
  | last {pool : Pool} {message : Message} {segment : Bytes} {field : Field}
      (hfind : message.findFieldByName segment = some field) : EndsAt pool message [segment] field
  | later {pool pool' : Pool} {message next : Message} {segment : Bytes} {segments : List Bytes} {field : Field}
      (henter : Enters pb snap pool message segment pool' next) (hrest : EndsAt pool' next segments field) :
      EndsAt pool message (segment :: segments) field

variable {pb snap} {pool : Pool} {message : Message} {segment : Bytes} {segments : List Bytes}

theorem EndsAt.ne_nil {field : Field} (h : EndsAt pb snap pool message segments field) : segments ≠ [] := by
  intro hnil
  subst hnil
  cases h

theorem Crosses.ne_nil {pool' : Pool} {field : Field} (h : Crosses pb snap pool message segments pool' field) :
    segments ≠ [] := by
  intro hnil
  subst hnil
  cases h

theorem Crosses.cppType {pool' : Pool} {field : Field} (h : Crosses pb snap pool message segments pool' field) :
    field.descriptor.cppType = .message := by
  induction h with
  | here _ htype _ => exact htype
  | later _ _ ih => exact ih

theorem endsAt_singleton_iff {field : Field} :
    EndsAt pb snap pool message [segment] field ↔ message.findFieldByName segment = some field := by
  constructor
  · intro h
    cases h with
    | last hfind => exact hfind
    | later _ hrest => exact absurd rfl hrest.ne_nil
  · exact .last

theorem endsAt_cons_iff (hinner : segments ≠ []) {field : Field} :
    EndsAt pb snap pool message (segment :: segments) field ↔
      ∃ pool' next, Enters pb snap pool message segment pool' next ∧ EndsAt pb snap pool' next segments field := by
  constructor
  · intro h
    cases h with
    | last _ => exact absurd rfl hinner
    | later henter hrest => exact ⟨_, _, henter, hrest⟩
  · rintro ⟨pool', next, henter, hrest⟩
    exact .later henter hrest

theorem not_crosses_singleton {pool' : Pool} {field : Field} :
    ¬ Crosses pb snap pool message [segment] pool' field := by
  intro h
  cases h with
  | here _ _ hinner => exact hinner rfl
  | later _ hrest => exact hrest.ne_nil rfl

theorem enters_iff {field : Field} (hfind : message.findFieldByName segment = some field)
    (htype : field.descriptor.cppType = .message) {pool' : Pool} {next : Message} :
    Enters pb snap pool message segment pool' next ↔ enterField pb snap pool field = .ok (some (pool', next)) := by
  constructor
  · rintro ⟨found, hfound, -, henter⟩
    rw [hfind] at hfound
    obtain rfl := Option.some.inj hfound
    exact henter
  · intro henter
    exact ⟨field, hfind, htype, henter⟩

/-- Nothing is reached behind a segment that names no message field. -/
theorem not_enters_of_not_message
    (h : ∀ field, message.findFieldByName segment = some field → field.descriptor.cppType ≠ .message)
    {pool' : Pool} {next : Message} : ¬ Enters pb snap pool message segment pool' next := by
  rintro ⟨field, hfind, htype, -⟩
  exact h field hfind htype

end

/-! ### The walk -/

section

variable {pb : Protobuf} {snap : Option SchemaSnapshot} {pool : Pool} {message : Message} {segments : List Bytes}

/-- An inner segment either names no message field, and the walk ends without a result, or it is entered. -/
theorem inner_segment_cases (message : Message) (segment : Bytes) :
    (∀ field, message.findFieldByName segment = some field → field.descriptor.cppType ≠ .message) ∨
      ∃ field, message.findFieldByName segment = some field ∧ field.descriptor.cppType = .message := by
  by_cases h : ∃ field, message.findFieldByName segment = some field ∧ field.descriptor.cppType = .message
  · exact Or.inr h
  · exact Or.inl fun field hfind htype => h ⟨field, hfind, htype⟩

/-- The walk returns the field at the end of the path. -/
theorem walkPath_eq_some_iff {held : Bool} {field : Field} :
    (∃ result, walkPath pb snap pool held message segments = .ok (some result) ∧ result.field = field) ↔
      EndsAt pb snap pool message segments field := by
  induction segments generalizing pool held message with
  | nil =>
    constructor
    · rintro ⟨result, h, -⟩
      simp [walkPath] at h
    · intro h
      exact absurd rfl h.ne_nil
  | cons segment segments ih =>
    by_cases hinner : segments = []
    · subst hinner
      rw [endsAt_singleton_iff]
      simp only [walkPath_singleton]
      cases message.findFieldByName segment <;> simp
    · rw [endsAt_cons_iff hinner]
      rcases inner_segment_cases message segment with hnone | ⟨found, hfind, htype⟩
      · rw [walkPath_cons_of_not_message pb snap hinner pool held message segment hnone]
        constructor
        · rintro ⟨result, h, -⟩
          simp at h
        · rintro ⟨pool', next, henter, -⟩
          exact absurd henter (not_enters_of_not_message hnone)
      · rw [walkPath_cons pb snap hinner pool held message segment hfind htype]
        simp only [enters_iff hfind htype]
        cases hentered : enterField pb snap pool found with
        | error fault => simp [bind, Except.bind]
        | ok entered =>
          cases entered with
          | none => simp [bind, Except.bind, walkEntered]
          | some next =>
            obtain ⟨pool', next⟩ := next
            simp only [bind, Except.bind, walkEntered, ih, Except.ok.injEq, Option.some.injEq, Prod.mk.injEq]
            constructor
            · intro h
              exact ⟨pool', next, ⟨rfl, rfl⟩, h⟩
            · rintro ⟨_, _, ⟨rfl, rfl⟩, h⟩
              exact h

/-- The walk fails exactly if a field it crosses cannot be entered. -/
theorem walkPath_eq_error_iff {held : Bool} {fault : Fault} :
    walkPath pb snap pool held message segments = .error fault ↔
      ∃ pool' field, Crosses pb snap pool message segments pool' field ∧ enterField pb snap pool' field = .error fault := by
  induction segments generalizing pool held message with
  | nil =>
    constructor
    · intro h
      simp [walkPath] at h
    · rintro ⟨_, _, hcross, -⟩
      exact absurd rfl hcross.ne_nil
  | cons segment segments ih =>
    by_cases hinner : segments = []
    · subst hinner
      simp [walkPath_singleton, not_crosses_singleton]
    · rcases inner_segment_cases message segment with hnone | ⟨found, hfind, htype⟩
      · rw [walkPath_cons_of_not_message pb snap hinner pool held message segment hnone]
        constructor
        · intro h
          simp at h
        · rintro ⟨_, _, hcross, -⟩
          cases hcross with
          | here hfind htype _ => exact absurd htype (hnone _ hfind)
          | later henter _ => exact absurd henter (not_enters_of_not_message hnone)
      · rw [walkPath_cons pb snap hinner pool held message segment hfind htype]
        constructor
        · intro h
          cases hentered : enterField pb snap pool found with
          | error fault' =>
            rw [hentered] at h
            obtain rfl := Except.error.inj h
            exact ⟨pool, found, .here hfind htype hinner, hentered⟩
          | ok entered =>
            rw [hentered] at h
            cases entered with
            | none => simp [bind, Except.bind, walkEntered] at h
            | some next =>
              obtain ⟨pool'', field, hcross, herror⟩ := ih.mp h
              exact ⟨pool'', field, .later ((enters_iff hfind htype).mpr hentered) hcross, herror⟩
        · rintro ⟨pool'', field, hcross, herror⟩
          cases hcross with
          | here hfind' _ _ =>
            rw [hfind] at hfind'
            obtain rfl := Option.some.inj hfind'
            rw [herror]
            rfl
          | later henter hrest =>
            rw [(enters_iff hfind htype).mp henter]
            exact ih.mpr ⟨pool'', field, hrest, herror⟩

end

/-! ### Fields that cannot be entered -/

/-- The computation returns: it throws nothing and does not abort the process. -/
def EndsNormally {α : Type} (result : Except Fault α) : Prop := ∃ value, result = .ok value

/-- `GetString` may be called on the two fields of an `Any`, if it declares both. -/
def AnyReadable (anyMsg : Message) : Prop :=
  ∀ typeUrl value, anyMsg.findFieldByName (ascii "type_url") = some typeUrl →
    anyMsg.findFieldByName (ascii "value") = some value → typeUrl.getString.isSome ∧ value.getString.isSome

/-- Every field the path crosses is singular, and every `Any` that is unpacked on the way is one. -/
structure CrossesSafely (pb : Protobuf) (snap : Option SchemaSnapshot) (pool : Pool) (message : Message)
    (segments : List Bytes) : Prop where
  singular : ∀ pool' field, Crosses pb snap pool message segments pool' field → field.descriptor.isRepeated = false
  anyReadable : ∀ pool' field anyMsg, Crosses pb snap pool message segments pool' field → isUnpacked snap field = true →
    field.getMessage pool' = some anyMsg → AnyReadable anyMsg

section

variable {pb : Protobuf} {snap : Option SchemaSnapshot} {pool : Pool} {message : Message} {segments : List Bytes}

theorem unpackAny_endsNormally_iff {dynamic : Option Pool} {anyMsg : Message} :
    EndsNormally (unpackAny dynamic anyMsg) ↔ AnyReadable anyMsg := by
  unfold EndsNormally AnyReadable unpackAny
  cases htype : anyMsg.findFieldByName (ascii "type_url") with
  | none => simp [pure, Except.pure]
  | some typeUrlField =>
    cases hvalue : anyMsg.findFieldByName (ascii "value") with
    | none => simp [pure, Except.pure]
    | some valueField =>
      cases hurl : typeUrlField.getString with
      | none => simp [hurl, orAbort, bind, Except.bind]
      | some typeUrl =>
        cases hbytes : valueField.getString with
        | none => simp [hurl, hbytes, orAbort, bind, Except.bind]
        | some value =>
          simp only [hurl, hbytes, orAbort, bind, Except.bind]
          cases dynamic with
          | none => simp [hurl, hbytes, pure, Except.pure]
          | some dynamic => by_cases hknown : dynamic.hasMessageType (typeNameFromUrl typeUrl) <;>
              simp [hurl, hbytes, hknown, pure, Except.pure]

theorem getMessage_isSome_iff (pool : Pool) {field : Field} (htype : field.descriptor.cppType = .message) :
    (field.getMessage pool).isSome = true ↔ field.descriptor.isRepeated = false := by
  unfold Field.getMessage
  cases hrep : field.descriptor.isRepeated with
  | true => simp
  | false =>
    simp only [htype, Bool.false_eq_true, ne_eq, not_true_eq_false, or_self, if_false, iff_true]
    split <;> rfl

theorem enterField_endsNormally_iff {field : Field} (htype : field.descriptor.cppType = .message) :
    EndsNormally (enterField pb snap pool field) ↔ field.descriptor.isRepeated = false ∧
      ∀ anyMsg, isUnpacked snap field = true → field.getMessage pool = some anyMsg → AnyReadable anyMsg := by
  rw [← getMessage_isSome_iff pool htype]
  unfold enterField
  cases hsub : field.getMessage pool with
  | none => simp [EndsNormally, orAbort, bind, Except.bind]
  | some sub =>
    simp only [orAbort, bind, Except.bind, Option.isSome_some, true_and, Option.some.injEq]
    cases hunpacked : isUnpacked snap field with
    | false => simp [EndsNormally, pure, Except.pure]
    | true =>
      simp only [if_true]
      rw [unpackAny_endsNormally_iff]
      constructor
      · rintro h _ - rfl
        exact h
      · intro h
        exact h sub trivial rfl

theorem not_endsNormally_iff {α : Type} {result : Except Fault α} :
    ¬ EndsNormally result ↔ ∃ fault, result = .error fault := by
  cases result <;> simp [EndsNormally]

/-- The walk returns exactly on the paths that call no accessor it may not call. -/
theorem walkPath_endsNormally_iff {held : Bool} :
    EndsNormally (walkPath pb snap pool held message segments) ↔ CrossesSafely pb snap pool message segments := by
  rw [← not_iff_not, not_endsNormally_iff]
  simp only [walkPath_eq_error_iff]
  constructor
  · rintro ⟨fault, pool', field, hcross, herror⟩ hsafe
    refine not_endsNormally_iff.mpr ⟨fault, herror⟩ ((enterField_endsNormally_iff hcross.cppType).mpr ?_)
    exact ⟨hsafe.singular pool' field hcross, fun anyMsg => hsafe.anyReadable pool' field anyMsg hcross⟩
  · intro hunsafe
    by_contra hnone
    have henter : ∀ pool' field, Crosses pb snap pool message segments pool' field →
        EndsNormally (enterField pb snap pool' field) := by
      intro pool' field hcross
      by_contra herror
      obtain ⟨fault, herror⟩ := not_endsNormally_iff.mp herror
      exact hnone ⟨fault, pool', field, hcross, herror⟩
    refine hunsafe ⟨fun pool' field hcross => ?_, fun pool' field anyMsg hcross => ?_⟩
    · exact ((enterField_endsNormally_iff hcross.cppType).mp (henter pool' field hcross)).1
    · exact ((enterField_endsNormally_iff hcross.cppType).mp (henter pool' field hcross)).2 anyMsg

end

/-! ### Resolved values -/

section

variable {pb : Protobuf} {snap : Option SchemaSnapshot} {pool : Pool} {message : Message} {segments : List Bytes}

/-- What `resolveFieldPath` makes of the field at the end. -/
def fieldValue (field : Field) : ResolvedValue :=
  if field.descriptor.isRepeated then .monostate
  else if field.descriptor.cppType = .message then if field.hasField then .bool true else .monostate
  else readScalar field

/-- What `resolveFieldPath` makes of the outcome of the walk. -/
def walkedValue : Option WalkResult → ResolvedValue
  | none => .monostate
  | some result => fieldValue result.field

theorem resolveFieldPath_eq :
    resolveFieldPath pb ⟨segments⟩ pool message snap =
      (walkPath pb snap pool false message segments).map walkedValue := by
  unfold resolveFieldPath
  cases walkPath pb snap pool false message segments with
  | error fault => rfl
  | ok walked =>
    cases walked with
    | none => rfl
    | some result =>
      simp only [bind, Except.bind, Except.map, walkedValue, fieldValue]
      split_ifs <;> rfl

/-- What `resolveRepeatedMessages` makes of the outcome of the walk. -/
def walkedElements : Option WalkResult → RepeatedMessages
  | none => ⟨[], false⟩
  | some result =>
    if !result.field.descriptor.isRepeated ∨ result.field.descriptor.cppType ≠ .message then ⟨[], false⟩
    else ⟨result.field.values.filterMap fun
      | .message value => some value
      | _ => none, result.inDynamicHolder⟩

theorem resolveRepeatedMessagesIn_eq :
    resolveRepeatedMessagesIn pb pool message snap ⟨segments⟩ =
      (walkPath pb snap pool false message segments).map walkedElements := by
  unfold resolveRepeatedMessagesIn
  cases walkPath pb snap pool false message segments with
  | error fault => rfl
  | ok walked =>
    cases walked with
    | none => rfl
    | some result =>
      simp only [bind, Except.bind, Except.map, walkedElements]
      split_ifs <;> rfl

theorem map_endsNormally_iff {α β : Type} {result : Except Fault α} {f : α → β} :
    EndsNormally (result.map f) ↔ EndsNormally result := by
  cases result <;> simp [EndsNormally, Except.map]

theorem resolveFieldPath_endsNormally_iff :
    EndsNormally (resolveFieldPath pb ⟨segments⟩ pool message snap) ↔ CrossesSafely pb snap pool message segments := by
  rw [resolveFieldPath_eq, map_endsNormally_iff, walkPath_endsNormally_iff]

theorem resolveRepeatedMessagesIn_endsNormally_iff :
    EndsNormally (resolveRepeatedMessagesIn pb pool message snap ⟨segments⟩) ↔
      CrossesSafely pb snap pool message segments := by
  rw [resolveRepeatedMessagesIn_eq, map_endsNormally_iff, walkPath_endsNormally_iff]

/-- A leaf that only looks at the resolved value. -/
theorem leaf_eq_map {α : Type} (f : ResolvedValue → α) (path : ERDASTFieldPath) :
    (do return f (← resolveFieldPath pb path pool message snap)) =
      (resolveFieldPath pb path pool message snap).map f := by
  cases resolveFieldPath pb path pool message snap <;> rfl

/-- **Path walking.** The resolver, and each leaf of a policy or of a log filter that resolves the path, returns exactly on the paths that cross singular message fields only; at a repeated field the singular accessor aborts the process. The second condition is on schemas that declare an `Any` of their own. -/
theorem field_paths_return_iff (pb : Protobuf) (snap : Option SchemaSnapshot) (segments : List Bytes) :
    (∀ pool message,
      (EndsNormally (resolveFieldPath pb ⟨segments⟩ pool message snap) ↔
        CrossesSafely pb snap pool message segments) ∧
      (EndsNormally (resolveRepeatedMessagesIn pb pool message snap ⟨segments⟩) ↔
        CrossesSafely pb snap pool message segments) ∧
      (EndsNormally (evaluateFilterTree pb pool message snap (.fieldExists (some ⟨segments⟩))) ↔
        CrossesSafely pb snap pool message segments) ∧
      ∀ value, EndsNormally (evaluateFilterTree pb pool message snap (.fieldEquals (some ⟨segments⟩) (some value))) ↔
        CrossesSafely pb snap pool message segments) ∧
    ∀ message : RSPMessage,
      (EndsNormally (evaluateMessageTree pb message snap (.fieldExists (some ⟨segments⟩))) ↔
        CrossesSafely pb snap pb.generated message.reflect segments) ∧
      ∀ value, EndsNormally (evaluateMessageTree pb message snap (.fieldEquals (some ⟨segments⟩) (some value))) ↔
        CrossesSafely pb snap pb.generated message.reflect segments := by
  refine ⟨fun pool message => ⟨resolveFieldPath_endsNormally_iff, resolveRepeatedMessagesIn_endsNormally_iff, ?_, ?_⟩,
    fun message => ⟨?_, ?_⟩⟩
  · rw [evaluateFilterTree, leaf_eq_map, map_endsNormally_iff]
    exact resolveFieldPath_endsNormally_iff
  · intro value
    rw [evaluateFilterTree, leaf_eq_map fun resolved => resolvedValueEquals resolved (toFieldValue value),
      map_endsNormally_iff]
    exact resolveFieldPath_endsNormally_iff
  · rw [evaluateMessageTree, leaf_eq_map, map_endsNormally_iff]
    exact resolveFieldPath_endsNormally_iff
  · intro value
    rw [evaluateMessageTree, leaf_eq_map fun resolved => resolvedValueEquals resolved value, map_endsNormally_iff]
    exact resolveFieldPath_endsNormally_iff

/-- `endorsements` is a repeated field of every message: the path through it aborts the node that evaluates a policy, and likewise a log filter whose path goes through a repeated field of the payload. -/
theorem repeated_field_aborts :
    resolveFieldPath default ⟨[ascii "endorsements", ascii "subject"]⟩ (default : Protobuf).generated
        ({} : RSPMessage).reflect none = .error .abort ∧
      evaluateFilterTree default (default : Protobuf).generated ({} : ResourceAdvertisement).reflect none
        (.fieldExists (some ⟨[ascii "schemas", ascii "schema_hash"]⟩)) = .error .abort :=
  ⟨rfl, rfl⟩

end

/-! ### Presence -/

/-- The field at the end of a path that resolves to a value: a set sub-message, or a scalar, set or not, since an unset scalar reads as its default. The last condition holds of every scalar field of a protobuf message. -/
def IsReadable (field : Field) : Prop :=
  field.descriptor.isRepeated = false ∧
    if field.descriptor.cppType = .message then field.hasField = true
    else ∀ sub, field.values.head? ≠ some (.message sub)

section

variable (pb : Protobuf) (snap : Option SchemaSnapshot) (pool : Pool) (message : Message) (segments : List Bytes)

/-- Some message field before the last segment is not set in the message that contains it. -/
def UnsetBefore : Prop := ∃ pool' field, Crosses pb snap pool message segments pool' field ∧ field.hasField = false

/-- What presence demands of the answers of the two leaves that resolve the path. -/
structure RespectsPresence {V : Type} (existsLeaf : Except Fault Bool) (equalsLeaf : V → Except Fault Bool) : Prop where
  unsetBefore : UnsetBefore pb snap pool message segments → existsLeaf = .ok false ∧ ∀ value, equalsLeaf value = .ok false
  terminal : ∀ field, EndsAt pb snap pool message segments field → field.descriptor.hasPresence = true →
    field.hasField = false → existsLeaf = .ok false

/-- A readable field at the end of the path is set if it tracks presence, and so is every field before it; and below an unset field no unusual `Any` is unpacked. -/
structure SetThroughout : Prop where
  before : ∀ field, EndsAt pb snap pool message segments field → IsReadable field →
    ¬ UnsetBefore pb snap pool message segments
  terminal : ∀ field, EndsAt pb snap pool message segments field → IsReadable field →
    field.descriptor.hasPresence = true → field.hasField = true
  anyReadable : UnsetBefore pb snap pool message segments → ∀ pool' field anyMsg,
    Crosses pb snap pool message segments pool' field → isUnpacked snap field = true →
      field.getMessage pool' = some anyMsg → AnyReadable anyMsg

end

theorem readScalar_eq_monostate_iff {field : Field} (htype : field.descriptor.cppType ≠ .message) :
    readScalar field = .monostate ↔ ∃ sub, field.values.head? = some (.message sub) := by
  unfold readScalar Field.getScalar
  cases field.values with
  | nil => cases htype' : field.descriptor.cppType <;> simp_all [CppType.defaultValue]
  | cons value values => cases value <;> simp

theorem resolvedValuePresent_fieldValue_iff (field : Field) :
    resolvedValuePresent (fieldValue field) = true ↔ IsReadable field := by
  unfold fieldValue IsReadable resolvedValuePresent
  cases hrep : field.descriptor.isRepeated with
  | true => simp
  | false =>
    by_cases htype : field.descriptor.cppType = .message
    · cases hset : field.hasField <;> simp [htype]
    · simp only [Bool.false_eq_true, if_false, htype, ne_eq, decide_eq_true_eq, true_and,
        readScalar_eq_monostate_iff htype, not_exists]

theorem resolvedValueEquals_monostate (value : ERDASTFieldValue) : resolvedValueEquals .monostate value = false := by
  cases value <;> rfl

theorem eq_monostate_of_not_present {resolved : ResolvedValue} (h : resolvedValuePresent resolved = false) :
    resolved = .monostate := by
  simpa [resolvedValuePresent] using h

section

variable {pb : Protobuf} {snap : Option SchemaSnapshot} {pool : Pool} {message : Message} {segments : List Bytes}

theorem resolveFieldPath_of_endsAt {field : Field} (h : EndsAt pb snap pool message segments field) :
    resolveFieldPath pb ⟨segments⟩ pool message snap = .ok (fieldValue field) := by
  obtain ⟨result, hwalk, rfl⟩ := walkPath_eq_some_iff.mpr h
  rw [resolveFieldPath_eq, hwalk]
  rfl

theorem resolveFieldPath_of_not_endsAt (hsafe : CrossesSafely pb snap pool message segments)
    (h : ∀ field, ¬ EndsAt pb snap pool message segments field) :
    resolveFieldPath pb ⟨segments⟩ pool message snap = .ok .monostate := by
  obtain ⟨walked, hwalk⟩ := walkPath_endsNormally_iff.mpr hsafe
  rw [resolveFieldPath_eq, hwalk]
  cases walked with
  | none => rfl
  | some result => exact absurd (walkPath_eq_some_iff.mp ⟨result, hwalk, rfl⟩) (h _)

/-- A path that ends at no readable field resolves to nothing. -/
theorem resolveFieldPath_eq_monostate (hsafe : CrossesSafely pb snap pool message segments)
    (h : ∀ field, EndsAt pb snap pool message segments field → ¬ IsReadable field) :
    resolveFieldPath pb ⟨segments⟩ pool message snap = .ok .monostate := by
  by_cases hends : ∃ field, EndsAt pb snap pool message segments field
  · obtain ⟨field, hends⟩ := hends
    rw [resolveFieldPath_of_endsAt hends]
    have habsent : resolvedValuePresent (fieldValue field) = false := by
      rw [Bool.eq_false_iff, ne_eq, resolvedValuePresent_fieldValue_iff]
      exact h field hends
    rw [eq_monostate_of_not_present habsent]
  · exact resolveFieldPath_of_not_endsAt hsafe (not_exists.mp hends)

/-- The leaves of either evaluator, as functions of the resolved value. -/
theorem respectsPresence_iff {V : Type} (toValue : V → ERDASTFieldValue)
    (hsingular : ∀ pool' field, Crosses pb snap pool message segments pool' field →
      field.descriptor.isRepeated = false) :
    RespectsPresence pb snap pool message segments
        ((resolveFieldPath pb ⟨segments⟩ pool message snap).map resolvedValuePresent)
        (fun value => (resolveFieldPath pb ⟨segments⟩ pool message snap).map (resolvedValueEquals · (toValue value))) ↔
      SetThroughout pb snap pool message segments := by
  constructor
  · intro h
    -- a readable field answers FIELD_EXISTS with true
    have hpresent : ∀ field, EndsAt pb snap pool message segments field → IsReadable field →
        (resolveFieldPath pb ⟨segments⟩ pool message snap).map resolvedValuePresent = .ok true := by
      intro field hends hreadable
      rw [resolveFieldPath_of_endsAt hends, Except.map, (resolvedValuePresent_fieldValue_iff field).mpr hreadable]
    refine ⟨fun field hends hreadable hunset => ?_, fun field hends hreadable htracked => ?_, fun hunset => ?_⟩
    · have hfalse := (h.unsetBefore hunset).1
      rw [hpresent field hends hreadable] at hfalse
      simp at hfalse
    · by_contra hnot
      have hfalse := h.terminal field hends htracked (Bool.eq_false_iff.mpr hnot)
      rw [hpresent field hends hreadable] at hfalse
      simp at hfalse
    · have hreturns : EndsNormally (resolveFieldPath pb ⟨segments⟩ pool message snap) :=
        map_endsNormally_iff.mp ⟨false, (h.unsetBefore hunset).1⟩
      exact (resolveFieldPath_endsNormally_iff.mp hreturns).anyReadable
  · intro h
    refine ⟨fun hunset => ?_, fun field hends htracked hunset => ?_⟩
    · have hsafe : CrossesSafely pb snap pool message segments := ⟨hsingular, h.anyReadable hunset⟩
      rw [resolveFieldPath_eq_monostate hsafe fun field hends hreadable => h.before field hends hreadable hunset]
      refine ⟨rfl, fun value => ?_⟩
      show Except.ok (resolvedValueEquals .monostate (toValue value)) = _
      rw [resolvedValueEquals_monostate]
    · rw [resolveFieldPath_of_endsAt hends, Except.map]
      have habsent : resolvedValuePresent (fieldValue field) = false := by
        rw [Bool.eq_false_iff, ne_eq, resolvedValuePresent_fieldValue_iff]
        intro hreadable
        rw [h.terminal field hends hreadable htracked] at hunset
        simp at hunset
      rw [habsent]

/-- **Field leaves and presence.** On a path through singular fields, the leaves of a policy respect presence exactly if the path, followed through the default instances of unset fields, does not end at a scalar (or set) field behind an unset one, nor at an unset scalar that tracks presence. -/
theorem field_leaves_respect_presence_iff {m : RSPMessage}
    (hsingular : ∀ pool' field, Crosses pb snap pb.generated m.reflect segments pool' field →
      field.descriptor.isRepeated = false) :
    RespectsPresence pb snap pb.generated m.reflect segments
        (evaluateMessageTree pb m snap (.fieldExists (some ⟨segments⟩)))
        (fun value => evaluateMessageTree pb m snap (.fieldEquals (some ⟨segments⟩) (some value))) ↔
      SetThroughout pb snap pb.generated m.reflect segments := by
  rw [← respectsPresence_iff id hsingular]
  simp only [evaluateMessageTree, leaf_eq_map, id_eq]

/-- The bytes of a message's source. -/
def sourceValue : List Bytes := [ascii "source", ascii "value"]

/-- The one field the path crosses. -/
theorem crosses_sourceValue {pool' : Pool} {field : Field} {m : RSPMessage}
    (h : Crosses pb snap pb.generated m.reflect sourceValue pool' field) : field = nodeIdField "source" 2 m.source := by
  have hsource : m.reflect.findFieldByName (ascii "source") = some (nodeIdField "source" 2 m.source) := rfl
  cases h with
  | here hfind _ _ =>
    rw [hsource] at hfind
    exact (Option.some.inj hfind).symm
  | later _ hrest => exact absurd hrest not_crosses_singleton

theorem crosses_sourceValue_singular {m : RSPMessage} (pool' : Pool) (field : Field)
    (h : Crosses pb snap pb.generated m.reflect sourceValue pool' field) : field.descriptor.isRepeated = false := by
  rw [crosses_sourceValue h]
  rfl

theorem field_leaves_respect_presence_iff_sourceValue :
    RespectsPresence default none (default : Protobuf).generated ({} : RSPMessage).reflect sourceValue
        (evaluateMessageTree default {} none (.fieldExists (some ⟨sourceValue⟩)))
        (fun value => evaluateMessageTree default {} none (.fieldEquals (some ⟨sourceValue⟩) (some value))) ↔
      SetThroughout default none (default : Protobuf).generated ({} : RSPMessage).reflect sourceValue :=
  field_leaves_respect_presence_iff crosses_sourceValue_singular

/-- In a message without a source the source's bytes exist and equal the empty string, and an optional scalar that is not set exists. -/
theorem unset_source_value_exists :
    UnsetBefore default none (default : Protobuf).generated ({} : RSPMessage).reflect sourceValue ∧
      (∀ pool' field, Crosses default none (default : Protobuf).generated ({} : RSPMessage).reflect sourceValue
        pool' field → field.descriptor.isRepeated = false) ∧
      evaluateMessageTree default {} none (.fieldExists (some ⟨sourceValue⟩)) = .ok true ∧
      evaluateMessageTree default {} none (.fieldEquals (some ⟨sourceValue⟩) (some (.bytesValue []))) = .ok true ∧
      ((({} : SchemaRequest).reflect.findFieldByName (ascii "schema_hash")).map fun field =>
        (field.descriptor.hasPresence, field.hasField)) = some (true, false) ∧
      evaluateMessageTree default { coreMessage := .schemaRequest {} } none
        (.fieldExists (some ⟨[ascii "schema_request", ascii "schema_hash"]⟩)) = .ok true :=
  ⟨⟨_, _, .here rfl rfl (by simp), rfl⟩, crosses_sourceValue_singular, rfl, rfl, rfl, rfl⟩

/-- Log filters behave alike. -/
theorem filter_leaves_respect_presence_iff
    (hsingular : ∀ pool' field, Crosses pb snap pool message segments pool' field →
      field.descriptor.isRepeated = false) :
    RespectsPresence pb snap pool message segments
        (evaluateFilterTree pb pool message snap (.fieldExists (some ⟨segments⟩)))
        (fun value => evaluateFilterTree pb pool message snap (.fieldEquals (some ⟨segments⟩) (some value))) ↔
      SetThroughout pb snap pool message segments := by
  rw [← respectsPresence_iff toFieldValue hsingular]
  simp only [evaluateFilterTree, leaf_eq_map]
  rfl

end

end Rsp
