import Rsp.Client.NameCalls
import Rsp.Client.Node
import Rsp.ResourceManager.Node
import Rsp.ResourceManager.QueryPrinting

/-!
# What a resource query is answered with

The nested loops of the query handler stop at the record limit in two places. They compute the first records of one list: the schemas of all nodes, in the order of the nodes and of their advertisements, that the query holds of.

The reply kind of the answer is set with the first of these services, so an answer without services is no query reply, and the client that waits for one goes on waiting. Integer literals are read as 64-bit numbers and cut to 32 bits.
-/

namespace Rsp

open Proto Query

namespace Directory

variable {maxRecords : UInt32} {expression : QueryExpression}

/-! ### The list behind a reply -/

/-- At most as many records as the limit; zero means no limit. -/
def limited (maxRecords : UInt32) (services : List DiscoveredService) : List DiscoveredService :=
  if maxRecords = 0 then services else services.take maxRecords.toNat

def service (nodeId : NodeID) (schema : ServiceSchema) : DiscoveredService where
  nodeId := some (toProtoNodeId nodeId)
  schema := some schema

def nodeServices (expression : QueryExpression) (nodeId : NodeID) (schemas : List ServiceSchema) : List DiscoveredService :=
  (schemas.filter fun schema => matchesExpression expression ⟨nodeId, schema⟩).map (service nodeId)

/-- The schemas that the query holds of, each with its node. -/
def matchingServices (expression : QueryExpression) (entries : List (NodeID × ResourceAdvertisement)) : List DiscoveredService :=
  entries.flatMap fun entry => nodeServices expression entry.1 entry.2.schemas

/-! ### The loops -/

theorem limitReached_iff (found : List DiscoveredService) :
    limitReached maxRecords found = true ↔ maxRecords ≠ 0 ∧ maxRecords.toNat ≤ found.length := by
  rw [limitReached, Bool.and_eq_true, decide_eq_true_eq, decide_eq_true_eq, gt_iff_lt, UInt32.pos_iff_ne_zero]

theorem length_lt_of_not_reached {found : List DiscoveredService} (h : limitReached maxRecords found = false)
    (hzero : maxRecords ≠ 0) : found.length < maxRecords.toNat := by
  by_contra hlt
  have hreached := (limitReached_iff found).mpr ⟨hzero, not_lt.mp hlt⟩
  exact Bool.false_ne_true (h.symm.trans hreached)

theorem limited_of_not_reached {found : List DiscoveredService} (h : limitReached maxRecords found = false) :
    limited maxRecords found = found := by
  unfold limited
  split_ifs with hzero
  · rfl
  · exact List.take_of_length_le (length_lt_of_not_reached h hzero).le

theorem limited_append_of_reached {found : List DiscoveredService} (h : limitReached maxRecords found = true)
    (more : List DiscoveredService) : limited maxRecords (found ++ more) = limited maxRecords found := by
  obtain ⟨hzero, hle⟩ := (limitReached_iff found).mp h
  unfold limited
  rw [if_neg hzero, if_neg hzero, List.take_append_of_le_length hle]

theorem limitReached_limited (found : List DiscoveredService) :
    limitReached maxRecords (limited maxRecords found) = limitReached maxRecords found := by
  rw [Bool.eq_iff_iff, limitReached_iff, limitReached_iff]
  unfold limited
  split_ifs with hzero
  · rfl
  · rw [List.length_take, le_min_iff]
    exact ⟨fun h => ⟨h.1, h.2.2⟩, fun h => ⟨h.1, le_rfl, h.2⟩⟩

/-- The service that reaches the limit is the last one in it. -/
theorem limited_concat {found : List DiscoveredService} (h : limitReached maxRecords found = false) (last : DiscoveredService) :
    limited maxRecords (found ++ [last]) = found ++ [last] := by
  unfold limited
  split_ifs with hzero
  · rfl
  · apply List.take_of_length_le
    rw [List.length_append, List.length_singleton]
    exact length_lt_of_not_reached h hzero

theorem matchSchemas_eq (nodeId : NodeID) (schemas : List ServiceSchema) {found : List DiscoveredService}
    (h : limitReached maxRecords found = false) :
    matchSchemas expression maxRecords nodeId schemas found =
      limited maxRecords (found ++ nodeServices expression nodeId schemas) := by
  induction schemas generalizing found with
  | nil =>
    rw [matchSchemas, nodeServices, List.filter_nil, List.map_nil, List.append_nil]
    exact (limited_of_not_reached h).symm
  | cons schema rest ih =>
    rw [matchSchemas]
    by_cases hmatch : matchesExpression expression ⟨nodeId, schema⟩ = true
    · have hservices : found ++ nodeServices expression nodeId (schema :: rest) =
          (found ++ [service nodeId schema]) ++ nodeServices expression nodeId rest := by
        rw [nodeServices, List.filter_cons, if_pos hmatch, List.map_cons, List.append_cons, nodeServices]
      rw [if_neg (by simp [hmatch]), hservices]
      change (if limitReached maxRecords (found ++ [service nodeId schema]) = true then _ else _) = _
      split_ifs with hreached
      · rw [limited_append_of_reached hreached, limited_concat h]
        rfl
      · exact ih (Bool.eq_false_of_not_eq_true hreached)
    · have hservices : nodeServices expression nodeId (schema :: rest) = nodeServices expression nodeId rest := by
        rw [nodeServices, List.filter_cons, if_neg hmatch, nodeServices]
      rw [if_pos (by simp [hmatch]), hservices]
      exact ih h

theorem matchAdvertisements_eq (entries : List (NodeID × ResourceAdvertisement)) {found : List DiscoveredService}
    (h : limitReached maxRecords found = false) :
    matchAdvertisements expression maxRecords entries found =
      limited maxRecords (found ++ matchingServices expression entries) := by
  induction entries generalizing found with
  | nil =>
    rw [matchAdvertisements, matchingServices, List.flatMap_nil, List.append_nil]
    exact (limited_of_not_reached h).symm
  | cons entry rest ih =>
    obtain ⟨nodeId, advertisement⟩ := entry
    have hservices : matchingServices expression ((nodeId, advertisement) :: rest) =
        nodeServices expression nodeId advertisement.schemas ++ matchingServices expression rest := by
      rw [matchingServices, List.flatMap_cons, matchingServices]
    rw [matchAdvertisements, hservices, ← List.append_assoc, matchSchemas_eq nodeId advertisement.schemas h]
    simp only [limitReached_limited]
    split_ifs with hreached
    · exact (limited_append_of_reached hreached _).symm
    · have hreached := Bool.eq_false_of_not_eq_true hreached
      rw [limited_of_not_reached hreached]
      exact ih hreached

theorem limited_eq_nil_iff (services : List DiscoveredService) : limited maxRecords services = [] ↔ services = [] := by
  unfold limited
  split_ifs with hzero
  · rfl
  · have hpos : maxRecords.toNat ≠ 0 := fun h => hzero (UInt32.toNat_inj.mp h)
    rw [List.take_eq_nil_iff]
    tauto

theorem answerResourceQuery_of_accepted {query : ResourceQuery} {directory : Directory}
    (haccepted : parseQueryExpression query.query = .ok expression) :
    directory.answerResourceQuery query =
      if matchingServices expression directory.resourceAdvertisements.toList = [] then .notSet
      else .resourceQueryReply ⟨limited query.maxRecords (matchingServices expression directory.resourceAdvertisements.toList)⟩ := by
  have hnone : limitReached query.maxRecords [] = false := by
    rw [← Bool.not_eq_true, limitReached_iff]
    rintro ⟨hzero, hle⟩
    exact hzero (UInt32.toNat_inj.mp (Nat.le_zero.mp hle))
  have hmatch := @matchAdvertisements_eq query.maxRecords expression directory.resourceAdvertisements.toList [] hnone
  rw [List.nil_append] at hmatch
  simp only [answerResourceQuery, haccepted]
  rw [hmatch]
  split
  · next heq => rw [if_pos ((limited_eq_nil_iff _).mp heq)]
  · next heq =>
    rw [if_neg (fun hnil => ?_), heq]
    rw [(limited_eq_nil_iff _).mpr hnil] at heq
    cases heq

/-- What a valid query of an identified sender is answered with. -/
theorem handleNodeSpecificMessage_query {m : RSPMessage} {query : ResourceQuery} {requester : NodeID} {directory : Directory}
    (hcore : m.coreMessage = .resourceQuery query) (hsender : senderNodeIdFromMessage m = some requester) :
    directory.handleNodeSpecificMessage m =
      some (directory,
        [{ destination := some (toProtoNodeId requester), coreMessage := directory.answerResourceQuery query }]) := by
  rw [handleNodeSpecificMessage, hcore, hsender]

/-- If some schema matches, the reply has the first matching services, as many as the limit allows, in the order of the nodes and of each node's advertisement. -/
theorem query_result_set {m : RSPMessage} {query : ResourceQuery} {requester : NodeID} {directory : Directory}
    (hcore : m.coreMessage = .resourceQuery query) (hsender : senderNodeIdFromMessage m = some requester)
    (haccepted : parseQueryExpression query.query = .ok expression)
    (hmatches : matchingServices expression directory.resourceAdvertisements.toList ≠ []) :
    directory.handleNodeSpecificMessage m =
        some (directory,
          [{ destination := some (toProtoNodeId requester)
             coreMessage := .resourceQueryReply
               ⟨limited query.maxRecords (matchingServices expression directory.resourceAdvertisements.toList)⟩ }]) ∧
      directory.resourceAdvertisements.toList.Pairwise (fun a b => compare a.1 b.1 = .lt) ∧
      ∀ nodeId advertisement, (nodeId, advertisement) ∈ directory.resourceAdvertisements.toList ↔
        directory.resourceAdvertisements[nodeId]? = some advertisement := by
  refine ⟨?_, Std.TreeMap.ordered_keys_toList, fun nodeId advertisement => Std.TreeMap.mem_toList_iff_getElem?_eq_some⟩
  rw [handleNodeSpecificMessage_query hcore hsender, answerResourceQuery_of_accepted haccepted, if_neg hmatches]

def sampleQuery (query : ResourceQuery) : RSPMessage where
  source := some (toProtoNodeId ⟨0, 9⟩)
  coreMessage := .resourceQuery query

/-- Two nodes advertise schemas. -/
def sampleDirectory : Directory :=
  (({} : Directory).handleResourceAdvertisement ⟨0, 2⟩ { schemas := [{ schemaVersion := 5 }] }).handleResourceAdvertisement ⟨0, 1⟩
    { schemas := [{ schemaVersion := 4 }, { schemaVersion := 5 }] }

def sampleExpression : QueryExpression := .comparison (ascii "service.schema_version") .equal (.integer 5)

def sampleText : Bytes := ascii "service.schema_version = 5"

theorem coreMessage_sampleQuery (query : ResourceQuery) : (sampleQuery query).coreMessage = .resourceQuery query := rfl

theorem senderNodeIdFromMessage_sampleQuery (query : ResourceQuery) :
    senderNodeIdFromMessage (sampleQuery query) = some ⟨0, 9⟩ := GUID.ofNative_toNative _

theorem parseQueryExpression_sampleText : parseQueryExpression sampleText = .ok sampleExpression := by decide +kernel

theorem matchingServices_sampleDirectory :
    matchingServices sampleExpression sampleDirectory.resourceAdvertisements.toList =
      [service ⟨0, 1⟩ { schemaVersion := 5 }, service ⟨0, 2⟩ { schemaVersion := 5 }] := by
  decide +kernel

theorem query_result_set_limited :
    sampleDirectory.handleNodeSpecificMessage (sampleQuery { query := sampleText, maxRecords := 1 }) =
      some (sampleDirectory,
        [{ destination := some (toProtoNodeId ⟨0, 9⟩)
           coreMessage := .resourceQueryReply ⟨[service ⟨0, 1⟩ { schemaVersion := 5 }]⟩ }]) := by
  have hne : matchingServices sampleExpression sampleDirectory.resourceAdvertisements.toList ≠ [] := by
    rw [matchingServices_sampleDirectory]
    exact List.cons_ne_nil _ _
  have hresult := (query_result_set (coreMessage_sampleQuery { query := sampleText, maxRecords := 1 })
    (senderNodeIdFromMessage_sampleQuery _) parseQueryExpression_sampleText hne).1
  rw [matchingServices_sampleDirectory] at hresult
  rw [hresult]
  rfl

/-! ### Queries without a match -/

theorem matchingServices_ne_nil_iff (directory : Directory) :
    matchingServices expression directory.resourceAdvertisements.toList ≠ [] ↔
      ∃ nodeId advertisement schema, directory.resourceAdvertisements[nodeId]? = some advertisement ∧
        schema ∈ advertisement.schemas ∧ matchesExpression expression ⟨nodeId, schema⟩ = true := by
  constructor
  · intro hne
    obtain ⟨found, hfound⟩ := List.exists_mem_of_ne_nil _ hne
    obtain ⟨⟨nodeId, advertisement⟩, hentry, hfound⟩ := List.mem_flatMap.mp hfound
    obtain ⟨schema, hschema, -⟩ := List.mem_map.mp hfound
    obtain ⟨hmem, hmatch⟩ := List.mem_filter.mp hschema
    exact ⟨nodeId, advertisement, schema, Std.TreeMap.mem_toList_iff_getElem?_eq_some.mp hentry, hmem, hmatch⟩
  · rintro ⟨nodeId, advertisement, schema, hentry, hmem, hmatch⟩
    have hfound : service nodeId schema ∈ nodeServices expression nodeId advertisement.schemas :=
      List.mem_map.mpr ⟨schema, List.mem_filter.mpr ⟨hmem, hmatch⟩, rfl⟩
    have hentry := Std.TreeMap.mem_toList_iff_getElem?_eq_some.mpr hentry
    exact List.ne_nil_of_mem (List.mem_flatMap.mpr ⟨(nodeId, advertisement), hentry, hfound⟩)

end Directory

namespace RSPClient

/-- The reply for which `handleNodeSpecificMessage` calls `handleResourceQueryReply`. -/
def queryReplyOf (m : RSPMessage) : Option ResourceQueryReply :=
  if hasServiceMessage "EndorsementDone" m || hasServiceMessage "StreamReply" m then none
  else match m.coreMessage with
    | .resourceQueryReply reply => some reply
    | _ => none

/-- A message of a resource manager comes in, as far as `resourceList` can see it. -/
def Requests.handleManagerMessage (sys : Requests) (m : RSPMessage) (drawn : Nat → NodeID) (answers : Option Nat) : Requests :=
  match queryReplyOf m with
  | some reply => sys.handleResourceQueryReply reply drawn answers
  | none => sys

/-- A call of `resourceList` has sent its query and waits. -/
structure Requests.Waits (sys : Requests) (index : Nat) (call : ReplySlot.Call (Addressed ResourceQuery)) : Prop where
  pending : sys.resources.pending = true
  at_index : sys.resources.calls[index]? = some call
  sent : call.sent = true

/-- A `resourceList` that waits when the message comes returns a result. -/
def CompletesList (m : RSPMessage) : Prop :=
  ∀ (sys : Requests) index call drawn answers, sys.Waits index call →
    ∃ slot result, (sys.handleManagerMessage m drawn answers).resources.finish index false = some slot ∧
      slot.returned = sys.resources.returned ++ [(call, some result)]

theorem completesList_of_reply {m : RSPMessage} {reply : ResourceQueryReply} (h : queryReplyOf m = some reply) :
    CompletesList m := by
  intro sys index call drawn answers hwaits
  have hreceived : (sys.handleManagerMessage m drawn answers).resources =
      { sys.resources with result := some ⟨resourceQueryResultFromReply drawn reply, answers⟩, pending := false } := by
    rw [Requests.handleManagerMessage, h]
    simp only [Requests.handleResourceQueryReply, ReplySlot.Slot.receive]
    rw [if_pos hwaits.pending, if_pos hwaits.pending]
  rw [hreceived]
  simp only [ReplySlot.Slot.finish, hwaits.at_index, Option.bind_eq_bind, Option.bind_some, hwaits.sent]
  exact ⟨_, _, rfl, rfl⟩

end RSPClient

namespace Directory

/-- A valid query of an identified sender is answered with a query reply, and so completes the client's `resourceList`, exactly if some stored schema matches. -/
theorem query_answered_as_query_iff {m : RSPMessage} {query : ResourceQuery} {requester : NodeID} {directory : Directory}
    (hcore : m.coreMessage = .resourceQuery query) (hsender : senderNodeIdFromMessage m = some requester)
    (haccepted : parseQueryExpression query.query = .ok expression) :
    (∃ answer, directory.handleNodeSpecificMessage m = some (directory, [answer]) ∧
        (∃ reply, answer.coreMessage = .resourceQueryReply reply) ∧ RSPClient.CompletesList answer) ↔
      ∃ nodeId advertisement schema, directory.resourceAdvertisements[nodeId]? = some advertisement ∧
        schema ∈ advertisement.schemas ∧ matchesExpression expression ⟨nodeId, schema⟩ = true := by
  rw [handleNodeSpecificMessage_query hcore hsender, answerResourceQuery_of_accepted haccepted, ← matchingServices_ne_nil_iff]
  constructor
  · rintro ⟨answer, hanswer, ⟨reply, hreply⟩, -⟩ hnil
    rw [if_pos hnil] at hanswer
    obtain rfl := (List.cons.inj (Prod.mk.inj (Option.some.inj hanswer)).2).1
    cases hreply
  · intro hne
    rw [if_neg hne]
    exact ⟨_, rfl, ⟨_, rfl⟩, RSPClient.completesList_of_reply rfl⟩

theorem query_answered_as_query_iff_matched :
    ∃ answer, sampleDirectory.handleNodeSpecificMessage (sampleQuery { query := sampleText }) =
        some (sampleDirectory, [answer]) ∧
      (∃ reply, answer.coreMessage = .resourceQueryReply reply) ∧ RSPClient.CompletesList answer := by
  apply (query_answered_as_query_iff (coreMessage_sampleQuery { query := sampleText }) (senderNodeIdFromMessage_sampleQuery _) parseQueryExpression_sampleText).mpr
  rw [← matchingServices_ne_nil_iff, matchingServices_sampleDirectory]
  exact List.cons_ne_nil _ _

/-- The query for everything, sent before any node has advertised: the answer is a message without content, and a client that waits for the reply gives up without a result. -/
theorem empty_directory_answers_nothing :
    parseQueryExpression [] = .ok .empty ∧
      Directory.handleNodeSpecificMessage (sampleQuery {}) {} =
        some ({}, [{ destination := some (toProtoNodeId ⟨0, 9⟩), coreMessage := .notSet }]) ∧
      ¬ RSPClient.CompletesList { destination := some (toProtoNodeId ⟨0, 9⟩), coreMessage := .notSet } := by
  refine ⟨rfl, ?_, fun h => ?_⟩
  · rw [handleNodeSpecificMessage_query (coreMessage_sampleQuery {}) (senderNodeIdFromMessage_sampleQuery _)]
    rfl
  · -- One call waits; the message leaves the slot as it is, so the call ends with the time limit.
    let call : ReplySlot.Call (RSPClient.Addressed ResourceQuery) := ⟨0, RSPClient.queryResources ⟨0, 1⟩ [] 0, true⟩
    let sys : RSPClient.Requests := { resources := { pending := true, calls := [call], begun := 1 } }
    obtain ⟨slot, result, hfinish, hreturned⟩ := h sys 0 call (fun _ => ⟨0, 0⟩) none ⟨rfl, rfl, rfl⟩
    obtain rfl := Option.some.inj hfinish
    cases hreturned

end Directory

namespace Query

/-! ### Integer literals -/

/-- The number that a string of digits is written for. -/
def literalValue (digits : Bytes) : Nat := digits.foldl (fun value digit => 10 * value + (digit.toNat - 48)) 0

theorem stoul_eq (digits : Bytes) :
    stoul digits = if 2 ^ 64 ≤ literalValue digits then .error (.exception "stoul") else .ok (literalValue digits) := rfl

theorem parseLiteral_integer {digits : Bytes} {p p' : QueryParser} (hcurrent : p.current = ⟨.integer, digits⟩)
    (hconsume : p.consume .integer = .ok p') :
    parseLiteral p =
      if 2 ^ 64 ≤ literalValue digits then .error (.exception "stoul")
      else .ok (.integer (UInt32.ofNat (literalValue digits)), p') := by
  unfold parseLiteral
  simp only [hcurrent, hconsume, stoul_eq]
  split_ifs <;> rfl

/-- The tokens of a comparison of the schema version with a literal. -/
def versionTokens (operator : QueryOperator) (digits : Bytes) : List QueryToken :=
  [⟨.identifier, ascii "service.schema_version"⟩, operator.token, ⟨.integer, digits⟩]

variable {operator : QueryOperator} {digits text : Bytes} {expression : QueryExpression}

theorem parseQueryExpression_version (hspells : Spells (versionTokens operator digits) text)
    (hvalue : literalValue digits < 2 ^ 64) :
    parseQueryExpression text =
      .ok (.comparison (ascii "service.schema_version") operator (.integer (UInt32.ofNat (literalValue digits)))) := by
  have hliteral (p p' : QueryParser) (hcurrent : p.current = ⟨.integer, digits⟩) (hconsume : p.consume .integer = .ok p') :
      parseLiteral p = .ok (.integer (UInt32.ofNat (literalValue digits)), p') := by
    rw [parseLiteral_integer hcurrent hconsume, if_neg (not_le.mpr hvalue)]
  have hunary := parses_unary_comparison (ascii "service.schema_version") operator _ hliteral
  have hor := (((hunary.mono (show 2 ≤ 10 by decide)).collects_and (List.cons_ne_nil _ _)).parses_and
    (show 3 < 11 by decide)).collects_or (List.cons_ne_nil _ _)
  exact parseQueryExpression_of_parses (hor.parses_or (show 3 < 12 by decide)) hspells (Nat.succ_pos _)

/-- A literal beyond 64 bits makes the whole query invalid. -/
theorem parseQueryExpression_version_of_le (hspells : Spells (versionTokens operator digits) text)
    (hvalue : 2 ^ 64 ≤ literalValue digits) : parseQueryExpression text = .error (.exception "stoul") := by
  obtain ⟨p, hinit, hstands⟩ := hspells.exists_stands
  have hne : text ≠ [] := by
    rintro rfl
    exact Nat.not_succ_le_zero _ hspells.length_le
  have hfirst := hstands.consume.1
  have htype : p.current.type = .identifier := by rw [hfirst]
  rw [← List.append_nil (versionTokens operator digits)] at hstands
  obtain ⟨p₂, p₃, hcurrent, hconsume, -, hparse⟩ := parseComparison_literal hstands
  rw [parseLiteral_integer hcurrent hconsume, if_pos hvalue] at hparse
  have hfuel : 8 * (text.length + 1) = 8 * text.length + 4 + 1 + 1 + 1 + 1 := by omega
  have hunary : parseUnary (8 * text.length + 4 + 1 + 1) p = .error (.exception "stoul") := by
    rw [parseUnary_of_primary (by rw [htype]; decide), parsePrimary, if_neg (by rw [htype]; decide), hparse]
    rfl
  rw [parseQueryExpression, if_neg (by simpa using hne), parse, hinit]
  change (parseOr (8 * (text.length + 1)) p >>= _) = _
  rw [hfuel, parseOr, parseAnd, hunary]
  rfl

/-- What a comparison says about numbers. -/
def QueryOperator.Says (operator : QueryOperator) (actual expected : Nat) : Prop :=
  match operator with
  | .equal => actual = expected
  | .notEqual => actual ≠ expected
  | .has => False

theorem comparisonMatches_ofNat (hoperator : operator ≠ .has) (actual : UInt32) (value : Nat) :
    comparisonMatches actual operator (UInt32.ofNat value) = true ↔ operator.Says actual.toNat (value % 2 ^ 32) := by
  have heq : actual = UInt32.ofNat value ↔ actual.toNat = value % 2 ^ 32 := by
    rw [← UInt32.toNat_inj, UInt32.toNat_ofNat']
  cases operator with
  | equal => rw [comparisonMatches, decide_eq_true_eq, heq, QueryOperator.Says]
  | notEqual => rw [comparisonMatches, decide_eq_true_eq, Ne, heq, QueryOperator.Says]
  | has => exact absurd rfl hoperator

/-- A comparison of the schema version with a literal says what it should about the numbers unless the literal is beyond 32 bits and the version is what its low 32 bits are. -/
theorem integer_comparison_exact_iff (hoperator : operator ≠ .has) (hspells : Spells (versionTokens operator digits) text)
    (haccepted : parseQueryExpression text = .ok expression) (candidate : ServiceCandidate) :
    (matchesExpression expression candidate = true ↔
        operator.Says candidate.schema.schemaVersion.toNat (literalValue digits)) ↔
      literalValue digits < 2 ^ 32 ∨ candidate.schema.schemaVersion.toNat ≠ literalValue digits % 2 ^ 32 := by
  have hvalue : literalValue digits < 2 ^ 64 := by
    by_contra hvalue
    rw [parseQueryExpression_version_of_le hspells (not_lt.mp hvalue)] at haccepted
    cases haccepted
  rw [parseQueryExpression_version hspells hvalue] at haccepted
  obtain rfl := Except.ok.inj haccepted
  have hmatch : matchesExpression
      (.comparison (ascii "service.schema_version") operator (.integer (UInt32.ofNat (literalValue digits)))) candidate =
      comparisonMatches candidate.schema.schemaVersion operator (UInt32.ofNat (literalValue digits)) := rfl
  have hbound := candidate.schema.schemaVersion.toNat_lt
  rw [hmatch, comparisonMatches_ofNat hoperator]
  cases operator with
  | equal =>
    simp only [QueryOperator.Says]
    omega
  | notEqual =>
    simp only [QueryOperator.Says]
    omega
  | has => exact absurd rfl hoperator

theorem integer_comparison_exact_iff_seven :
    (matchesExpression (.comparison (ascii "service.schema_version") .notEqual (.integer 7)) ⟨⟨0, 1⟩, { schemaVersion := 8 }⟩ =
        true ↔ QueryOperator.notEqual.Says 8 7) ↔ 7 < 2 ^ 32 ∨ 8 ≠ 7 % 2 ^ 32 := by
  have hspaceless (c : UInt8) (hc : c ∈ ([] : Bytes)) : isSpace c = true := nomatch hc
  have hspells : Spells (versionTokens .notEqual [55]) (ascii "service.schema_version!=7") :=
    .token hspaceless (.word rfl (isWord_of_all rfl rfl)) rfl
      (.token hspaceless .notEqual rfl
        (.token hspaceless (.integer (List.cons_ne_nil _ _) (List.all_eq_true.mp rfl)) rfl (.done hspaceless)))
  exact integer_comparison_exact_iff (by decide) hspells (parseQueryExpression_version hspells (by decide)) _

/-- A literal of 33 bits is taken for its low 32 bits. -/
theorem integer_comparison_wraps :
    parseQueryExpression (ascii "service.schema_version = 4294967296") =
        .ok (.comparison (ascii "service.schema_version") .equal (.integer 0)) ∧
      matchesExpression (.comparison (ascii "service.schema_version") .equal (.integer 0)) ⟨⟨0, 1⟩, { schemaVersion := 0 }⟩ = true ∧
      literalValue (ascii "4294967296") = 4294967296 := by
  refine ⟨?_, rfl, rfl⟩
  decide +kernel

end Query

end Rsp
