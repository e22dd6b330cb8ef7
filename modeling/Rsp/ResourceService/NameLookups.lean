import Rsp.Lib.SortedBy
import Rsp.ResourceService.NameLiveness

/-!
# What name lookups return

Read and query requests go through all records and sort what they find. Without a limit they return every live record that matches, once, with the value that was written last, whatever requests and threads have done to the records before. A query with a limit stops after so many records in the order of the keys, and sorts only these.
-/

namespace Rsp

open Proto

namespace NameRecords

variable {Time : Type}

/-! ### Records after a change -/

/-- Every record is an old one, with its value. -/
def KeepsValues (before after : NameRecords Time) : Prop :=
  ∀ key stored, after.find key = some stored → ∃ old, before.find key = some old ∧ old.valueBytes = stored.valueBytes

theorem KeepsValues.refl (records : NameRecords Time) : KeepsValues records records := fun _ stored h => ⟨stored, h, rfl⟩

theorem keepsValues_setExpiry (records : NameRecords Time) (key : RecordKey) (expiresAt : Time) :
    KeepsValues records (records.setExpiry key expiresAt) := by
  intro other stored h
  rw [find_setExpiry] at h
  split_ifs at h
  · obtain ⟨old, hold, rfl⟩ := Option.map_eq_some_iff.mp h
    exact ⟨old, hold, rfl⟩
  · exact ⟨stored, h, rfl⟩

theorem keepsValues_erase (records : NameRecords Time) (key : RecordKey) : KeepsValues records (records.erase key) := by
  intro other stored h
  change (records.map.erase key)[other]? = some stored at h
  rw [Std.TreeMap.getElem?_erase] at h
  split_ifs at h
  exact ⟨stored, h, rfl⟩

theorem keepsValues_filter (records : NameRecords Time) (keep : StoredRecord Time → Bool) :
    KeepsValues records (records.filter keep) := by
  intro other stored h
  change (records.map.filter fun _ stored => keep stored)[other]? = some stored at h
  rw [Std.TreeMap.getElem?_filter'] at h
  exact ⟨stored, (Option.filter_eq_some_iff.mp h).1, rfl⟩

theorem nodup_toList (records : NameRecords Time) : records.toList.Nodup := by
  have hkeys : records.toList.map StoredRecord.key = records.map.keys := by
    rw [toList, List.map_map, ← Std.TreeMap.map_fst_toList_eq_keys]
    apply List.map_congr_left
    rintro ⟨key, stored⟩ hentry
    exact records.keyed key stored (Std.TreeMap.mem_toList_iff_getElem?_eq_some.mp hentry)
  have hnodup : (records.toList.map StoredRecord.key).Nodup := hkeys ▸ Std.TreeMap.nodup_keys
  exact hnodup.of_map _

end NameRecords

theorem NamePlatform.descends_sort {Time : Type} (platform : NamePlatform Time) (records : List NameRecord) :
    SortedBy.Descends (fun record => (expiryMilliseconds record).toNat) (platform.sortByExpiresAtDescending records) :=
  (platform.sort_sorted records).imp UInt64.le_iff_toNat_le.mp

namespace NameService

/-! ### Runs with their writes -/

section

variable {Time : Type} (platform : NamePlatform Time)

/-- The key and value of a successful create or update. -/
def writes (sys : NameService Time) : Step Time → Option (RecordKey × Bytes)
  | .request now sender (.create request) =>
    let record := request.record.getD {}
    if (sys.handleCreateRequest platform now sender request).2.status = .success then
      some (makeKey record.name record.owner record.type, uuidValue record.value)
    else none
  | .request _ _ (.update request) =>
    if (sys.handleUpdateRequest request).2.status = .success then
      some (makeKey request.name request.owner request.type, uuidValue request.newValue)
    else none
  | _ => none

/-- The service, and all successful writes so far. -/
structure Recorded (Time : Type) where
  service : NameService Time := {}
  written : List (RecordKey × Bytes) := []

def recordedMachine [LinearOrder Time] : Machine (Recorded Time) (Step Time) where
  init state := state = {}
  next state step := (state.service.next platform step).map fun service =>
    ⟨service, state.written ++ (state.service.writes platform step).toList⟩

/-- The value written last under a key. -/
def latest (written : List (RecordKey × Bytes)) (key : RecordKey) : Option Bytes :=
  (written.filter fun write => write.1 = key).getLast?.map Prod.snd

theorem latest_concat_self (written : List (RecordKey × Bytes)) (key : RecordKey) (value : Bytes) :
    latest (written ++ [(key, value)]) key = some value := by
  rw [latest, List.filter_append, List.filter_cons_of_pos (by simp), List.filter_nil, List.getLast?_concat]
  rfl

theorem latest_concat_of_ne (written : List (RecordKey × Bytes)) {key other : RecordKey} (value : Bytes) (h : key ≠ other) :
    latest (written ++ [(key, value)]) other = latest written other := by
  rw [latest, List.filter_append, List.filter_cons_of_neg (by simpa using h), List.filter_nil, List.append_nil, latest]

/-- Every record has the value written last under its key. -/
def ValuesLatest (state : Recorded Time) : Prop :=
  ∀ key stored, state.service.records.find key = some stored → latest state.written key = some stored.valueBytes

theorem ValuesLatest.of_keeps {state : Recorded Time} {service : NameService Time} (h : ValuesLatest state)
    (hkeeps : state.service.records.KeepsValues service.records) : ValuesLatest ⟨service, state.written⟩ := by
  intro key stored hfind
  obtain ⟨old, hold, hvalue⟩ := hkeeps key stored hfind
  rw [← hvalue]
  exact h key old hold

/-- The record under one key gets the value of a write. -/
theorem ValuesLatest.of_write {state : Recorded Time} {service : NameService Time} {key : RecordKey} {value : Bytes}
    (h : ValuesLatest state) (hself : ∀ stored, service.records.find key = some stored → stored.valueBytes = value)
    (hothers : ∀ other, key ≠ other → service.records.find other = state.service.records.find other) :
    ValuesLatest ⟨service, state.written ++ [(key, value)]⟩ := by
  intro other stored hfind
  by_cases heq : key = other
  · subst heq
    rw [latest_concat_self, hself stored hfind]
  · rw [hothers other heq] at hfind
    rw [latest_concat_of_ne _ _ heq]
    exact h other stored hfind

/-! ### Every step -/

variable {platform}

theorem valuesLatest_create {state : Recorded Time} (h : ValuesLatest state) (now : Time) (sender : Option NodeID)
    (request : NameCreateRequest) :
    ValuesLatest ⟨(state.service.handleCreateRequest platform now sender request).1,
      state.written ++ (state.service.writes platform (.request now sender (.create request))).toList⟩ := by
  simp only [writes, handleCreateRequest]
  by_cases hfound : (state.service.records.find (makeKey (request.record.getD {}).name (request.record.getD {}).owner
      (request.record.getD {}).type)).isSome = true
  · simp only [if_pos hfound]
    rw [if_neg (by decide), Option.toList_none, List.append_nil]
    exact h.of_keeps (.refl _)
  · simp only [if_neg hfound]
    rw [if_pos trivial, Option.toList_some]
    refine h.of_write (fun stored hfind => ?_) fun other hne => ?_
    · rw [NameRecords.find_insert, if_pos (by rfl)] at hfind
      obtain rfl := Option.some.inj hfind
      rfl
    · exact (NameRecords.find_insert _).trans (if_neg hne)

theorem valuesLatest_update {state : Recorded Time} (h : ValuesLatest state) (now : Time) (sender : Option NodeID)
    (request : NameUpdateRequest) :
    ValuesLatest ⟨(state.service.handleUpdateRequest request).1,
      state.written ++ (state.service.writes platform (.request now sender (.update request))).toList⟩ := by
  simp only [writes, handleUpdateRequest]
  by_cases hfound : (state.service.records.find (makeKey request.name request.owner request.type)).isSome = true
  · simp only [if_pos hfound]
    rw [if_pos trivial, Option.toList_some]
    refine h.of_write (fun stored hfind => ?_) fun other hne => ?_
    · rw [NameRecords.find_setValue, if_pos rfl] at hfind
      obtain ⟨old, -, rfl⟩ := Option.map_eq_some_iff.mp hfind
      rfl
    · exact (NameRecords.find_setValue _ _).trans (if_neg hne)
  · simp only [if_neg hfound]
    rw [if_neg (by decide), Option.toList_none, List.append_nil]
    exact h.of_keeps (.refl _)

theorem writes_eq_none {sys : NameService Time} {step : Step Time}
    (hcreate : ∀ now sender request, step ≠ .request now sender (.create request))
    (hupdate : ∀ now sender request, step ≠ .request now sender (.update request)) : sys.writes platform step = none := by
  unfold writes
  split
  · exact absurd rfl (hcreate _ _ _)
  · exact absurd rfl (hupdate _ _ _)
  · rfl

end

section

variable {Time : Type} [LinearOrder Time] {platform : NamePlatform Time}

/-- The steps that write nothing. -/
theorem keepsValues_next {sys sys' : NameService Time} {step : Step Time} (hnext : sys.next platform step = some sys')
    (hcreate : ∀ now sender request, step ≠ .request now sender (.create request))
    (hupdate : ∀ now sender request, step ≠ .request now sender (.update request)) :
    sys.records.KeepsValues sys'.records := by
  cases step with
  | request now sender request =>
    simp only [next] at hnext
    split_ifs at hnext
    obtain rfl := Option.some.inj hnext
    cases request with
    | create request => exact absurd rfl (hcreate now sender request)
    | update request => exact absurd rfl (hupdate now sender request)
    | read request => exact .refl _
    | query request => exact .refl _
    | delete request =>
      simp only [handleRequest, handleDeleteRequest]
      split_ifs
      · exact NameRecords.keepsValues_erase _ _
      · exact .refl _
    | refresh request =>
      simp only [handleRequest, handleRefreshRequest]
      split_ifs
      · exact NameRecords.keepsValues_setExpiry _ _ _
      · exact .refl _
  | enqueueCheck =>
    obtain ⟨item, -, hnext⟩ := Option.bind_eq_some_iff.mp hnext
    obtain rfl := Option.some.inj hnext
    exact .refl _
  | sweep now =>
    obtain rfl := Option.some.inj hnext
    exact NameRecords.keepsValues_filter _ _
  | startCheck =>
    simp only [next, startCheck] at hnext
    split at hnext
    · obtain rfl := Option.some.inj hnext
      exact .refl _
    · cases hnext
  | finishCheck drawnOwner drawn answered =>
    obtain ⟨item, -, hnext⟩ := Option.bind_eq_some_iff.mp hnext
    split_ifs at hnext
    · obtain rfl := Option.some.inj hnext
      exact .refl _
    · obtain rfl := Option.some.inj hnext
      exact NameRecords.keepsValues_setExpiry _ _ _

theorem valuesLatest_next {state state' : Recorded Time} {step : Step Time} (h : ValuesLatest state)
    (hnext : (recordedMachine platform).next state step = some state') : ValuesLatest state' := by
  obtain ⟨service, hservice, rfl⟩ := Option.map_eq_some_iff.mp hnext
  by_cases hcreate : ∃ now sender request, step = .request now sender (.create request)
  · obtain ⟨now, sender, request, rfl⟩ := hcreate
    simp only [next] at hservice
    split_ifs at hservice
    obtain rfl := Option.some.inj hservice
    exact valuesLatest_create h now sender request
  by_cases hupdate : ∃ now sender request, step = .request now sender (.update request)
  · obtain ⟨now, sender, request, rfl⟩ := hupdate
    simp only [next] at hservice
    split_ifs at hservice
    obtain rfl := Option.some.inj hservice
    exact valuesLatest_update h now sender request
  have hcreate' now sender request (heq : step = .request now sender (.create request)) := hcreate ⟨now, sender, request, heq⟩
  have hupdate' now sender request (heq : step = .request now sender (.update request)) := hupdate ⟨now, sender, request, heq⟩
  rw [writes_eq_none hcreate' hupdate', Option.toList_none, List.append_nil]
  exact h.of_keeps (keepsValues_next hservice hcreate' hupdate')

theorem valuesLatest_of_reaches {state : Recorded Time} (h : (recordedMachine platform).Reaches state) : ValuesLatest state := by
  refine h.invariant (I := ValuesLatest) (fun state hinit => ?_) fun _ _ _ hinv hnext => valuesLatest_next hinv hnext
  obtain rfl := hinit
  intro key stored hfind
  simp [NameRecords.find, NameRecords.empty] at hfind

end

/-! ### Lookups without a limit -/

section

variable {Time : Type} [LinearOrder Time] {platform : NamePlatform Time}

/-- A live record that a read request asks for. -/
structure ReadWants (now : Time) (request : NameReadRequest) (stored : StoredRecord Time) : Prop where
  live : now < stored.expiresAt
  name : stored.name = request.name
  owner : ∀ owner ∈ request.owner, stored.ownerBytes = owner.value
  type : ∀ type ∈ request.type, stored.typeBytes = type.value

/-- A live record that a query asks for. -/
structure QueryWants (now : Time) (request : NameQueryRequest) (stored : StoredRecord Time) : Prop where
  live : now < stored.expiresAt
  name : ∀ namePrefix ∈ request.namePrefix, namePrefix <+: stored.name
  owner : ∀ owner ∈ request.owner, stored.ownerBytes = owner.value
  type : ∀ type ∈ request.type, stored.typeBytes = type.value

theorem readMatches_iff {now : Time} {request : NameReadRequest} {stored : StoredRecord Time} :
    readMatches now request stored = true ↔ ReadWants now request stored := by
  rw [readMatches, decide_eq_true_eq]
  simp only [Option.all_eq_true, beq_iff_eq]
  constructor
  · rintro ⟨hname, howner, htype, hlive⟩
    exact ⟨hlive, hname, howner, htype⟩
  · intro h
    exact ⟨h.name, h.owner, h.type, h.live⟩

theorem queryMatches_iff {now : Time} {request : NameQueryRequest} {stored : StoredRecord Time} :
    queryMatches now request stored = true ↔ QueryWants now request stored := by
  rw [queryMatches, decide_eq_true_eq]
  simp only [Option.all_eq_true, beq_iff_eq, List.isPrefixOf_iff_prefix]
  constructor
  · rintro ⟨hname, howner, htype, hlive⟩
    exact ⟨hlive, hname, howner, htype⟩
  · intro h
    exact ⟨h.name, h.owner, h.type, h.live⟩

variable (platform) in
/-- A reply has exactly the wanted records of the service, each once, latest expiry first. -/
def Lists (sys : NameService Time) (wanted : StoredRecord Time → Prop) (records : List NameRecord) : Prop :=
  ∃ found : List (StoredRecord Time), found.Nodup ∧
    (∀ stored, stored ∈ found ↔ sys.records.find stored.key = some stored ∧ wanted stored) ∧
    records.Perm (found.map (toProto platform)) ∧
    records.Pairwise fun a b => expiryMilliseconds b ≤ expiryMilliseconds a

omit [LinearOrder Time] in
theorem lists_filter (sys : NameService Time) {wanted : StoredRecord Time → Prop} {p : StoredRecord Time → Bool}
    (h : ∀ stored, p stored = true ↔ wanted stored) :
    sys.Lists platform wanted
      (platform.sortByExpiresAtDescending ((sys.records.toList.filter p).map (toProto platform))) := by
  refine ⟨sys.records.toList.filter p, sys.records.nodup_toList.filter _, fun stored => ?_, platform.sort_perm _,
    platform.sort_sorted _⟩
  rw [List.mem_filter, NameRecords.mem_toList, h]

/-- In every run, each record is under its key with the value written last, and reads and queries without a limit list exactly the live records that match. -/
theorem lookups_exact {state : Recorded Time} (h : (recordedMachine platform).Reaches state) (now : Time) :
    (∀ key stored, state.service.records.find key = some stored →
      stored.key = key ∧ latest state.written key = some stored.valueBytes) ∧
    (∀ request, state.service.Lists platform (ReadWants now request)
      (state.service.handleReadRequest platform now request).records) ∧
    ∀ request, state.service.Lists platform (QueryWants now request)
      (state.service.handleQueryRequest platform now { request with maxRecords := 0 }).records := by
  refine ⟨fun key stored hfind => ⟨state.service.records.keyed key stored hfind, ?_⟩, fun request => ?_, fun request => ?_⟩
  · exact valuesLatest_of_reaches h key stored hfind
  · exact lists_filter _ fun _ => readMatches_iff
  · exact lists_filter (p := queryMatches now request) _ fun _ => queryMatches_iff

end

def updatedRun : List (Step Nat) :=
  [.request 0 none (.create (createOf sampleKey (some ⟨[3]⟩))), .request 1 none (.update (updateOf sampleKey (some ⟨[4]⟩)))]

theorem lookups_exact_updated :
    ∃ state, (recordedMachine secondsPlatform).Reaches state ∧
      (state.service.records.find sampleKey).any (fun stored => stored.valueBytes == [4]) = true ∧
      latest state.written sampleKey = some [4] := by
  have hrun : ((recordedMachine secondsPlatform).run {} updatedRun).any (fun state =>
      (state.service.records.find sampleKey).any fun stored => stored.valueBytes == [4]) = true := by
    decide +kernel
  obtain ⟨state, hreaches, hstate⟩ := Machine.exists_reaches_of_run rfl hrun
  obtain ⟨stored, hfind, hvalue⟩ := (Option.any_eq_true ..).mp hstate
  refine ⟨state, hreaches, hstate, ?_⟩
  rw [((lookups_exact hreaches 0).1 sampleKey stored hfind).2, eq_of_beq hvalue]

/-! ### Queries with a limit -/

section

variable {Time : Type} [LinearOrder Time]

/-- The matching live records, in the order of the keys. -/
def queried (sys : NameService Time) (now : Time) (request : NameQueryRequest) : List (StoredRecord Time) :=
  sys.records.toList.filter (queryMatches now request)

/-- If no two matching live records expire in the same millisecond, a query with a limit gets the first records of the reply without it exactly if the records that come first in the order of the keys expire later than the others. -/
theorem limited_query_best_iff (platform : NamePlatform Time) (sys : NameService Time) (now : Time) (request : NameQueryRequest)
    (hlimit : request.maxRecords ≠ 0)
    (hdistinct : ((sys.queried now request).map fun stored => platform.milliseconds stored.expiresAt).Nodup) :
    (sys.handleQueryRequest platform now request).records =
        (sys.handleQueryRequest platform now { request with maxRecords := 0 }).records.take request.maxRecords.toNat ↔
      ∀ stored ∈ (sys.queried now request).take request.maxRecords.toNat,
        ∀ other ∈ (sys.queried now request).drop request.maxRecords.toNat,
          platform.milliseconds other.expiresAt < platform.milliseconds stored.expiresAt := by
  have hreply : (sys.handleQueryRequest platform now request).records = platform.sortByExpiresAtDescending
      (((sys.queried now request).take request.maxRecords.toNat).map (toProto platform)) := by
    simp only [handleQueryRequest, if_neg hlimit]
    rfl
  have hall : (sys.handleQueryRequest platform now { request with maxRecords := 0 }).records =
      platform.sortByExpiresAtDescending ((sys.queried now request).map (toProto platform)) := rfl
  rw [hreply, hall]
  have hkeys : (((sys.queried now request).map (toProto platform)).map fun record => (expiryMilliseconds record).toNat).Nodup := by
    have hinjective : Function.Injective UInt64.toNat := fun _ _ => UInt64.toNat_inj.mp
    have hnodup := hdistinct.map hinjective
    rw [List.map_map] at hnodup ⊢
    exact hnodup
  have hfirst := platform.sort_perm (((sys.queried now request).take request.maxRecords.toNat).map (toProto platform))
  rw [List.map_take] at hfirst ⊢
  have hiff := SortedBy.eq_take_iff hkeys hfirst (platform.descends_sort _) (platform.sort_perm _) (platform.descends_sort _)
  rw [hiff, ← List.map_take, ← List.map_drop, List.forall_mem_map]
  refine forall₂_congr fun stored _ => ?_
  rw [List.forall_mem_map]
  refine forall₂_congr fun other _ => ?_
  rw [UInt64.lt_iff_toNat_lt]
  rfl

/-- A record of the given name, which expires at the given time. -/
def namedRecord (name : Bytes) (expiresAt : Nat) : StoredRecord Nat := ⟨name, [1], [2], [], expiresAt⟩

def namedCreate (now : Nat) (name : Bytes) : Step Nat := .request now none (.create (createOf ⟨name, [1], [2]⟩ none))

theorem exists_reaches_queried {run : List (Step Nat)} {request : NameQueryRequest} {found : List (StoredRecord Nat)}
    (h : ((machine secondsPlatform).run {} run).any (fun sys => sys.queried 20 request == found) = true) :
    ∃ sys, (machine secondsPlatform).Reaches sys ∧ sys.queried 20 request = found := by
  obtain ⟨sys, hreaches, hfound⟩ := Machine.exists_reaches_of_run rfl h
  exact ⟨sys, hreaches, eq_of_beq hfound⟩

theorem limited_query_best_iff_first :
    ∃ sys, (machine secondsPlatform).Reaches sys ∧
      (sys.handleQueryRequest secondsPlatform 20 { maxRecords := 1 }).records =
        (sys.handleQueryRequest secondsPlatform 20 {}).records.take 1 := by
  have hrun : ((machine secondsPlatform).run {} [namedCreate 0 [98], namedCreate 10 [97]]).any (fun sys =>
      sys.queried 20 { maxRecords := 1 } == [namedRecord [97] 310, namedRecord [98] 300]) = true := by
    decide +kernel
  obtain ⟨sys, hreaches, hfound⟩ := exists_reaches_queried hrun
  refine ⟨sys, hreaches, (limited_query_best_iff secondsPlatform sys 20 { maxRecords := 1 } (by decide) ?_).mpr ?_⟩
  · rw [hfound]
    decide
  · rw [hfound]
    intro stored hstored other hother
    obtain rfl := List.mem_singleton.mp hstored
    obtain rfl := List.mem_singleton.mp hother
    decide

/-- Of two records, the one created first has the smaller key: a query for one record gets it, and not the one that expires later. -/
theorem limited_query_keeps_worse :
    ∃ sys, (machine secondsPlatform).Reaches sys ∧
      ((sys.queried 20 { maxRecords := 1 }).map fun stored => secondsPlatform.milliseconds stored.expiresAt).Nodup ∧
      (sys.handleQueryRequest secondsPlatform 20 { maxRecords := 1 }).records ≠
        (sys.handleQueryRequest secondsPlatform 20 {}).records.take 1 := by
  have hrun : ((machine secondsPlatform).run {} [namedCreate 0 [97], namedCreate 10 [98]]).any (fun sys =>
      sys.queried 20 { maxRecords := 1 } == [namedRecord [97] 300, namedRecord [98] 310]) = true := by
    decide +kernel
  obtain ⟨sys, hreaches, hfound⟩ := exists_reaches_queried hrun
  refine ⟨sys, hreaches, by rw [hfound]; decide, fun heq => ?_⟩
  have hone : (sys.handleQueryRequest secondsPlatform 20 { maxRecords := 1 }).records =
      secondsPlatform.sortByExpiresAtDescending (((sys.queried 20 { maxRecords := 1 }).take 1).map (toProto secondsPlatform)) := rfl
  have hall : (sys.handleQueryRequest secondsPlatform 20 {}).records =
      secondsPlatform.sortByExpiresAtDescending ((sys.queried 20 { maxRecords := 1 }).map (toProto secondsPlatform)) := rfl
  rw [hone, hall, hfound, List.map_take] at heq
  have hkeys : (([namedRecord [97] 300, namedRecord [98] 310].map (toProto secondsPlatform)).map fun record =>
      (expiryMilliseconds record).toNat).Nodup := by
    decide
  have hbetter := (SortedBy.eq_take_iff hkeys (secondsPlatform.sort_perm _) (secondsPlatform.descends_sort _)
    (secondsPlatform.sort_perm _) (secondsPlatform.descends_sort _)).mp heq _ List.mem_cons_self _ List.mem_cons_self
  exact absurd hbetter (by decide)

end

end NameService

end Rsp
