import Rsp.ResourceService.Names

/-!
# When the operations of the name service take a record to be there

Reads and queries leave out records whose time is over. The other requests only look whether the map has the key, so between the expiry of a record and the next sweep they still see it.
-/

namespace Rsp

open Proto

namespace NameService

/-! ### Requests for one key -/

def readOf (key : RecordKey) : NameReadRequest := { name := key.name, owner := some ⟨key.owner⟩, type := some ⟨key.type⟩ }

def createOf (key : RecordKey) (value : Option Uuid) : NameCreateRequest :=
  { record := some { name := key.name, owner := some ⟨key.owner⟩, type := some ⟨key.type⟩, value := value } }

def updateOf (key : RecordKey) (newValue : Option Uuid) : NameUpdateRequest :=
  { name := key.name, owner := some ⟨key.owner⟩, type := some ⟨key.type⟩, newValue := newValue }

def deleteOf (key : RecordKey) : NameDeleteRequest :=
  { name := key.name, owner := some ⟨key.owner⟩, type := some ⟨key.type⟩ }

def refreshOf (key : RecordKey) : NameRefreshRequest :=
  { name := key.name, owner := some ⟨key.owner⟩, type := some ⟨key.type⟩ }

variable {Time : Type} [LinearOrder Time]

/-- At this time either all operations take the key to be absent, or all of them take it to be there. -/
def OperationsAgree (platform : NamePlatform Time) (sys : NameService Time) (now : Time) (key : RecordKey) : Prop :=
  ∀ (sender : Option NodeID) (value newValue : Option Uuid),
    ((sys.handleReadRequest platform now (readOf key)).status = .notFound ↔
        (sys.handleCreateRequest platform now sender (createOf key value)).2.status = .success) ∧
      ((sys.handleCreateRequest platform now sender (createOf key value)).2.status = .success ↔
        (sys.handleUpdateRequest (updateOf key newValue)).2.status = .notFound) ∧
      ((sys.handleUpdateRequest (updateOf key newValue)).2.status = .notFound ↔
        (sys.handleDeleteRequest (deleteOf key)).2.status = .notFound) ∧
      ((sys.handleDeleteRequest (deleteOf key)).2.status = .notFound ↔
        (sys.handleRefreshRequest platform now (refreshOf key)).2.status = .notFound)

variable {platform : NamePlatform Time} {sys : NameService Time} {now : Time} {key : RecordKey}

/-! ### One operation each -/

omit [LinearOrder Time] in
theorem create_success_iff {sender : Option NodeID} {value : Option Uuid} :
    (sys.handleCreateRequest platform now sender (createOf key value)).2.status = .success ↔
      sys.records.find key = none := by
  change (if (sys.records.find key).isSome then _ else _ : NameService Time × NameStatusReply).2.status = _ ↔ _
  cases sys.records.find key with
  | none => simp
  | some stored =>
    simp only [Option.isSome_some, if_true, reduceCtorEq, iff_false]
    decide

omit [LinearOrder Time] in
/-- The other three requests answer by whether the record was found. -/
theorem status_notFound_iff {found : Option (StoredRecord Time)} {changed : NameService Time} :
    (if found.isSome then (changed, { status := .success }) else (sys, noMatchingRecord)).2.status = .notFound ↔
      found = none := by
  cases found with
  | none => simp [noMatchingRecord]
  | some stored =>
    simp only [Option.isSome_some, if_true, reduceCtorEq, iff_false]
    decide

omit [LinearOrder Time] in
theorem update_notFound_iff {newValue : Option Uuid} :
    (sys.handleUpdateRequest (updateOf key newValue)).2.status = .notFound ↔ sys.records.find key = none :=
  status_notFound_iff

omit [LinearOrder Time] in
theorem delete_notFound_iff :
    (sys.handleDeleteRequest (deleteOf key)).2.status = .notFound ↔ sys.records.find key = none :=
  status_notFound_iff

omit [LinearOrder Time] in
theorem refresh_notFound_iff :
    (sys.handleRefreshRequest platform now (refreshOf key)).2.status = .notFound ↔ sys.records.find key = none :=
  status_notFound_iff

theorem readMatches_readOf {stored : StoredRecord Time} :
    readMatches now (readOf key) stored ↔ stored.key = key ∧ now < stored.expiresAt := by
  obtain ⟨name, owner, type⟩ := key
  simp [readMatches, readOf, StoredRecord.key, and_assoc]

/-- A read leaves out what has expired. -/
theorem read_notFound_iff :
    (sys.handleReadRequest platform now (readOf key)).status = .notFound ↔
      ∀ stored, sys.records.find key = some stored → stored.expiresAt ≤ now := by
  have hstatus : (sys.handleReadRequest platform now (readOf key)).status = .notFound ↔
      sys.records.toList.filter (readMatches now (readOf key)) = [] := by
    rw [handleReadRequest]
    cases sys.records.toList.filter (readMatches now (readOf key)) with
    | nil => simp
    | cons first rest =>
      simp only [List.isEmpty_cons, Bool.false_eq_true, if_false, reduceCtorEq, iff_false]
      decide
  rw [hstatus, List.filter_eq_nil_iff]
  constructor
  · intro h stored hstored
    have hkey : stored.key = key := sys.records.keyed key stored hstored
    have hmem : stored ∈ sys.records.toList := NameRecords.mem_toList.mpr (hkey ▸ hstored)
    have hdead := h stored hmem
    rw [readMatches_readOf] at hdead
    exact not_lt.mp fun hlive => hdead ⟨hkey, hlive⟩
  · intro h stored hmem hmatches
    obtain ⟨rfl, hlive⟩ := readMatches_readOf.mp hmatches
    exact absurd hlive (h stored (NameRecords.mem_toList.mp hmem)).not_gt

/-- The operations agree about a key unless its record has expired and is still stored. -/
theorem operations_agree_iff (platform : NamePlatform Time) (sys : NameService Time) (now : Time) (key : RecordKey) :
    OperationsAgree platform sys now key ↔
      ∀ stored, sys.records.find key = some stored → now < stored.expiresAt := by
  unfold OperationsAgree
  simp only [create_success_iff, update_notFound_iff, delete_notFound_iff, refresh_notFound_iff, read_notFound_iff,
    and_true, forall_const]
  cases hfind : sys.records.find key with
  | none => simp
  | some stored =>
    simp only [Option.some.injEq, forall_eq', reduceCtorEq, iff_false, not_le]

/-! ### A record between its expiry and the sweep -/

/-- Times in seconds; records live for 300 of them. -/
def secondsPlatform : NamePlatform Nat where
  expiry now := now + 300
  past := 0
  milliseconds time := .ofNat (1000 * time)
  sortByExpiresAtDescending records := records.mergeSort fun a b => decide (expiryMilliseconds b ≤ expiryMilliseconds a)
  sort_perm records := records.mergeSort_perm _
  sort_sorted records := by
    refine (List.pairwise_mergeSort (fun a b c hab hbc => ?_) (fun a b => ?_) records).imp of_decide_eq_true
    · exact decide_eq_true (UInt64.le_trans (of_decide_eq_true hbc) (of_decide_eq_true hab))
    · simpa using UInt64.le_total (expiryMilliseconds b) (expiryMilliseconds a)

def sampleKey : RecordKey := ⟨[97], [1], [2]⟩

/-- A record is created at time 0; at time 300 a read does not find it and a create request finds it. -/
theorem expired_record_in_the_way :
    ∃ sys, (machine secondsPlatform).Reaches sys ∧
      (sys.handleReadRequest secondsPlatform 300 (readOf sampleKey)).status = .notFound ∧
      (sys.handleCreateRequest secondsPlatform 300 none (createOf sampleKey none)).2.status = .duplicate ∧
      ¬ OperationsAgree secondsPlatform sys 300 sampleKey := by
  have hrun : ((machine secondsPlatform).run {} [.request 0 none (.create (createOf sampleKey none))]).any (fun sys =>
      (sys.records.find sampleKey).any (·.expiresAt == 300)) = true := by
    decide +kernel
  obtain ⟨sys, hreaches, hsys⟩ := Machine.exists_reaches_of_run rfl hrun
  obtain ⟨stored, hfind, htime⟩ := (Option.any_eq_true ..).mp hsys
  refine ⟨sys, hreaches, ?_, ?_, ?_⟩
  · rw [read_notFound_iff]
    rintro other hother
    obtain rfl := Option.some.inj (hfind.symm.trans hother)
    exact (eq_of_beq htime).le
  · change (if (sys.records.find sampleKey).isSome then _ else _ : NameService Nat × NameStatusReply).2.status = _
    rw [hfind]
    rfl
  · rw [operations_agree_iff]
    intro h
    exact absurd (h stored hfind) (eq_of_beq htime).not_gt

end NameService

end Rsp
