import Rsp.Lib.MoveToFront
import Rsp.Node.IdentityCache

/-!
# The identity cache keeps the most recent identities

Over any sequence of calls the cache holds exactly the identities of a reference list, which moves each accepted identity to the front and is cut to the limit. The argument is made for the cache of `IdentityCache`, whose usage order is a list of nodes; the cache of the source, where each entry stores an iterator into a linked list, is shown to step along with it.
-/

namespace Rsp

open Proto MoveToFront

variable {C : Crypto}

/-- The keys of a map are the elements of a list without repetitions. -/
structure Lists {V : Type} (order : List NodeID) (entries : Std.TreeMap NodeID V) : Prop where
  nodup : order.Nodup
  mem_iff : ∀ {id : NodeID}, id ∈ entries ↔ id ∈ order
  size_eq : entries.size = order.length

namespace Lists

variable {V : Type} {order : List NodeID} {entries : Std.TreeMap NodeID V} {id : NodeID}

theorem empty : Lists [] (∅ : Std.TreeMap NodeID V) := ⟨List.nodup_nil, by simp, rfl⟩

theorem insert_of_mem (h : Lists order entries) (hid : id ∈ order) (v : V) :
    Lists (moveToFront id order) (entries.insert id v) where
  nodup := nodup_moveToFront h.nodup id
  mem_iff := by
    intro other
    rw [Std.TreeMap.mem_insert, Std.compare_eq_iff_eq, mem_moveToFront, h.mem_iff, eq_comm]
  size_eq := by
    rw [Std.TreeMap.size_insert, if_pos (Std.TreeMap.contains_iff_mem.mpr (h.mem_iff.mpr hid)),
      length_moveToFront_of_mem hid, h.size_eq]

theorem insert_of_notMem (h : Lists order entries) (hid : id ∉ order) (v : V) :
    Lists (id :: order) (entries.insert id v) where
  nodup := List.nodup_cons.mpr ⟨hid, h.nodup⟩
  mem_iff := by
    intro other
    rw [Std.TreeMap.mem_insert, Std.compare_eq_iff_eq, List.mem_cons, h.mem_iff, eq_comm]
  size_eq := by
    have habsent : ¬ entries.contains id = true := fun hc => hid (h.mem_iff.mp (Std.TreeMap.contains_iff_mem.mp hc))
    rw [Std.TreeMap.size_insert, if_neg habsent, h.size_eq, List.length_cons]

theorem erase_last (h : Lists (order ++ [id]) entries) : Lists order (entries.erase id) where
  nodup := h.nodup.of_append_left
  mem_iff := by
    intro other
    have hdisjoint := List.nodup_append.mp h.nodup
    rw [Std.TreeMap.mem_erase, h.mem_iff, List.mem_append, List.mem_singleton, ne_eq, Std.compare_eq_iff_eq]
    constructor
    · rintro ⟨hne, hmem | rfl⟩
      · exact hmem
      · exact absurd rfl hne
    · intro hmem
      refine ⟨?_, .inl hmem⟩
      rintro rfl
      exact hdisjoint.2.2 id hmem id (List.mem_singleton_self id) rfl
  size_eq := by
    have hmem : id ∈ entries := h.mem_iff.mpr (List.mem_append_right _ (List.mem_singleton_self id))
    rw [Std.TreeMap.size_erase, if_pos (Std.TreeMap.contains_iff_mem.mpr hmem), h.size_eq, List.length_append]
    rfl

end Lists

namespace IdentityCache

/-! ### One call -/

/-- The loop removes the least recent nodes until the rest fits. -/
theorem trimLoop_spec {order : List NodeID} {entries : Std.TreeMap NodeID Identity} (h : Lists order entries)
    (maximumEntries : Nat) :
    let trimmed := trimLoop maximumEntries order.reverse entries
    trimmed.1.reverse = order.take maximumEntries ∧ Lists (order.take maximumEntries) trimmed.2 ∧
      ∀ {id : NodeID} {identity}, trimmed.2[id]? = some identity → entries[id]? = some identity := by
  induction order using List.reverseRecOn generalizing entries with
  | nil => exact ⟨by simp [trimLoop], by simpa [trimLoop] using h, by simp [trimLoop]⟩
  | append_singleton order leastRecent ih =>
    rw [List.reverse_append, List.reverse_singleton, List.singleton_append, trimLoop]
    by_cases hfull : entries.size > maximumEntries
    · rw [if_pos hfull]
      obtain ⟨horder, hlists, hget⟩ := ih h.erase_last
      have htake : (order ++ [leastRecent]).take maximumEntries = order.take maximumEntries := by
        rw [h.size_eq, List.length_append, List.length_singleton] at hfull
        exact List.take_append_of_le_length (by omega)
      rw [htake]
      refine ⟨horder, hlists, fun {id identity} hid => ?_⟩
      have herased := hget hid
      rw [Std.TreeMap.getElem?_erase] at herased
      split_ifs at herased
      exact herased
    · rw [if_neg hfull]
      have htake : (order ++ [leastRecent]).take maximumEntries = order ++ [leastRecent] := by
        rw [h.size_eq] at hfull
        exact List.take_of_length_le (by omega)
      rw [htake]
      exact ⟨by simp, h, id⟩

/-- Entries and usage order belong together. -/
def Linked (cache : IdentityCache) : Prop := Lists cache.usageOrder cache.entries

theorem trimToLimit_spec {cache : IdentityCache} (h : cache.Linked) :
    cache.trimToLimit.usageOrder = cache.usageOrder.take cache.maximumEntries ∧ cache.trimToLimit.Linked ∧
      cache.trimToLimit.maximumEntries = cache.maximumEntries ∧
      ∀ {id : NodeID} {identity}, cache.trimToLimit.entries[id]? = some identity → cache.entries[id]? = some identity := by
  obtain ⟨horder, hlists, hget⟩ := trimLoop_spec h cache.maximumEntries
  refine ⟨horder, ?_, rfl, hget⟩
  unfold Linked
  rw [trimToLimit, horder]
  exact hlists

/-- A stored identity moves to the front, and what no longer fits goes. -/
theorem store_spec {cache : IdentityCache} (h : cache.Linked) (hbound : cache.usageOrder.length ≤ cache.maximumEntries)
    (id : NodeID) (identity : Identity) :
    (cache.store id identity).usageOrder = (moveToFront id cache.usageOrder).take cache.maximumEntries ∧
      (cache.store id identity).Linked ∧ (cache.store id identity).maximumEntries = cache.maximumEntries ∧
      ∀ {other : NodeID} {found}, (cache.store id identity).entries[other]? = some found →
        (other = id ∧ found = identity) ∨ cache.entries[other]? = some found := by
  have hinserted : ∀ {other : NodeID} {found}, (cache.entries.insert id identity)[other]? = some found →
      (other = id ∧ found = identity) ∨ cache.entries[other]? = some found := by
    intro other found hfound
    rw [Std.TreeMap.getElem?_insert] at hfound
    split_ifs at hfound with heq
    · exact .inl ⟨(Std.compare_eq_iff_eq.mp heq).symm, (Option.some.inj hfound).symm⟩
    · exact .inr hfound
  by_cases hmem : id ∈ cache.usageOrder
  · have hcontains : cache.contains id = true := Std.TreeMap.contains_iff_mem.mpr (h.mem_iff.mpr hmem)
    rw [store, if_pos hcontains]
    have hfits : (moveToFront id cache.usageOrder).length ≤ cache.maximumEntries := by
      rw [length_moveToFront_of_mem hmem]
      exact hbound
    exact ⟨(List.take_of_length_le hfits).symm, h.insert_of_mem hmem identity, rfl, hinserted⟩
  · have hcontains : ¬ cache.contains id = true := fun hc => hmem (h.mem_iff.mp (Std.TreeMap.contains_iff_mem.mp hc))
    rw [store, if_neg hcontains, moveToFront_of_notMem hmem]
    have hpushed : Linked
        { cache with entries := cache.entries.insert id identity, usageOrder := id :: cache.usageOrder } :=
      h.insert_of_notMem hmem identity
    obtain ⟨horder, hlinked, hmaximum, hget⟩ := trimToLimit_spec hpushed
    exact ⟨horder, hlinked, hmaximum, fun hfound => hinserted (hget hfound)⟩

/-- The node under which an identity is accepted from a sender. -/
def acceptedId (C : Crypto) (source : Option NodeID) (identity : Identity) : Option NodeID :=
  (nodeIdFromIdentity C identity).filter fun id => source.all (· = id)

theorem cacheIdentity_eq (cache : IdentityCache) (identity : Identity) (source : Option NodeID) :
    (cacheIdentity C cache identity source).1 =
      match acceptedId C source identity with
      | none => cache
      | some id => cache.store id (sanitizedIdentityForCache identity) := by
  unfold cacheIdentity acceptedId
  cases nodeIdFromIdentity C identity with
  | none => rfl
  | some derived =>
    cases source with
    | none => simp [Option.filter_some]
    | some sender => by_cases heq : sender = derived <;> simp [Option.filter_some, heq]

theorem nodeIdFromIdentity_sanitized (identity : Identity) :
    nodeIdFromIdentity C (sanitizedIdentityForCache identity) = nodeIdFromIdentity C identity := rfl

theorem acceptedId_eq_some {source : Option NodeID} {identity : Identity} {id : NodeID}
    (h : acceptedId C source identity = some id) :
    nodeIdFromIdentity C identity = some id ∧ (source = none ∨ source = some id) := by
  rw [acceptedId, Option.filter_eq_some_iff] at h
  refine ⟨h.1, ?_⟩
  cases source with
  | none => exact .inl rfl
  | some sender =>
    have heq : sender = id := by simpa using h.2
    exact .inr (heq ▸ rfl)

/-- What the cache holds fits. -/
structure Bounded (cache : IdentityCache) : Prop where
  linked : cache.Linked
  length_le : cache.usageOrder.length ≤ cache.maximumEntries

/-- Observing identities of one sender, one after the other. -/
theorem observe_spec {cache : IdentityCache} (h : cache.Bounded) (source : Option NodeID) (identities : List Identity) :
    let observed := identities.foldl (fun cache identity => (cacheIdentity C cache identity source).1) cache
    observed.usageOrder =
        ((identities.filterMap (acceptedId C source)).foldl (fun order id => moveToFront id order)
          cache.usageOrder).take cache.maximumEntries ∧
      observed.Bounded ∧ observed.maximumEntries = cache.maximumEntries ∧
      ∀ {id : NodeID} {found}, observed.entries[id]? = some found → cache.entries[id]? = some found ∨
        ∃ identity ∈ identities, acceptedId C source identity = some id ∧ found = sanitizedIdentityForCache identity := by
  induction identities generalizing cache with
  | nil =>
    refine ⟨?_, h, rfl, .inl⟩
    exact (List.take_of_length_le h.length_le).symm
  | cons identity identities ih =>
    rw [List.foldl_cons, cacheIdentity_eq]
    cases haccepted : acceptedId C source identity with
    | none =>
      obtain ⟨horder, hbounded, hmaximum, hget⟩ := ih h
      refine ⟨by rw [List.filterMap_cons_none haccepted]; exact horder, hbounded, hmaximum, fun hfound => ?_⟩
      refine (hget hfound).imp_right ?_
      rintro ⟨other, hother, hrest⟩
      exact ⟨other, List.mem_cons_of_mem _ hother, hrest⟩
    | some id =>
      obtain ⟨hstored, hlinked, hsame, hentries⟩ :=
        store_spec h.linked h.length_le id (sanitizedIdentityForCache identity)
      have hbounded : (cache.store id (sanitizedIdentityForCache identity)).Bounded := by
        refine ⟨hlinked, ?_⟩
        rw [hstored, hsame]
        exact List.length_take_le _ _
      obtain ⟨horder, hbounded, hmaximum, hget⟩ := ih hbounded
      refine ⟨?_, hbounded, hmaximum.trans hsame, fun hfound => ?_⟩
      · rw [List.filterMap_cons_some haccepted, List.foldl_cons]
        exact horder.trans (by rw [hstored, hsame, ← foldl_take_moveToFront, List.take_take, Nat.min_self,
          foldl_take_moveToFront])
      · rcases hget hfound with hold | ⟨other, hother, hrest⟩
        · rcases hentries hold with ⟨rfl, rfl⟩ | hold
          · exact .inr ⟨identity, List.mem_cons_self, haccepted, rfl⟩
          · exact .inl hold
        · exact .inr ⟨other, List.mem_cons_of_mem _ hother, hrest⟩

/-! ### Runs -/

inductive Call
  | observeMessage (m : RSPMessage)
  | setMaximumEntries (maximumEntries : Nat)

def call (C : Crypto) (cache : IdentityCache) : Call → IdentityCache
  | .observeMessage m => observeMessage C cache m
  | .setMaximumEntries maximumEntries => cache.setMaximumEntries maximumEntries

/-- The limit and the cached nodes, most recent first: each accepted identity moves to the front, and the list is cut to the limit. -/
def referenceStep (C : Crypto) (reference : Nat × List NodeID) : Call → Nat × List NodeID
  | .observeMessage m =>
    (reference.1, (((observedIdentities m).filterMap (acceptedId C (senderNodeIdFromMessage m))).foldl
      (fun order id => moveToFront id order) reference.2).take reference.1)
  | .setMaximumEntries maximumEntries => (maximumEntries, reference.2.take maximumEntries)

/-- The entry comes from a message of one of the calls, which has no recognizable sender or the one it is stored under. -/
def Observed (C : Crypto) (calls : List Call) (id : NodeID) (found : Identity) : Prop :=
  ∃ m identity, .observeMessage m ∈ calls ∧ identity ∈ observedIdentities m ∧
    found = sanitizedIdentityForCache identity ∧ nodeIdFromIdentity C identity = some id ∧
    (senderNodeIdFromMessage m = none ∨ senderNodeIdFromMessage m = some id)

/-- What holds after some calls of a cache with the given first limit. -/
structure Follows (C : Crypto) (maximumEntries : Nat) (calls : List Call) (cache : IdentityCache) : Prop where
  bounded : cache.Bounded
  reference : (cache.maximumEntries, cache.usageOrder) = calls.foldl (referenceStep C) (maximumEntries, [])
  observed : ∀ {id : NodeID} {found}, cache.entries[id]? = some found → Observed C calls id found

theorem Follows.empty (maximumEntries : Nat) : Follows C maximumEntries [] { maximumEntries } where
  bounded := ⟨Lists.empty, Nat.zero_le _⟩
  reference := rfl
  observed h := by simp at h

theorem Follows.call {maximumEntries : Nat} {calls : List Call} {cache : IdentityCache}
    (h : Follows C maximumEntries calls cache) (c : Call) :
    Follows C maximumEntries (calls ++ [c]) (cache.call C c) := by
  have hgrow : ∀ {id found}, Observed C calls id found → Observed C (calls ++ [c]) id found := by
    rintro id found ⟨m, identity, hm, hrest⟩
    exact ⟨m, identity, List.mem_append_left _ hm, hrest⟩
  have hreference : (calls ++ [c]).foldl (referenceStep C) (maximumEntries, []) =
      referenceStep C (cache.maximumEntries, cache.usageOrder) c := by
    rw [List.foldl_append, ← h.reference]
    rfl
  cases c with
  | observeMessage m =>
    obtain ⟨horder, hbounded, hmaximum, hget⟩ :=
      observe_spec (C := C) h.bounded (senderNodeIdFromMessage m) (observedIdentities m)
    refine ⟨hbounded, ?_, fun hfound => ?_⟩
    · rw [hreference]
      exact Prod.ext hmaximum horder
    · rcases hget hfound with hold | ⟨identity, hidentity, haccepted, rfl⟩
      · exact hgrow (h.observed hold)
      · obtain ⟨hderived, hsender⟩ := acceptedId_eq_some haccepted
        exact ⟨m, identity, List.mem_append_right _ (List.mem_singleton_self _), hidentity, rfl, hderived, hsender⟩
  | setMaximumEntries maximumEntries' =>
    have hlinked : Linked { cache with maximumEntries := maximumEntries' } := h.bounded.linked
    obtain ⟨horder, hlinked, hmaximum, hget⟩ := trimToLimit_spec hlinked
    refine ⟨⟨hlinked, ?_⟩, ?_, fun hfound => hgrow (h.observed (hget hfound))⟩
    · change (trimToLimit _).usageOrder.length ≤ (trimToLimit _).maximumEntries
      rw [horder, hmaximum]
      exact List.length_take_le _ _
    · rw [hreference]
      exact Prod.ext hmaximum horder

end IdentityCache

/-! ### The cache with its iterators -/

/-- `CacheEntry`: `usage` is the list node the stored iterator points to. -/
structure CacheEntry where
  identity : Identity
  usage : Nat

/-- The cache of the source. The nodes of the linked list `usageOrder_` stand from front to back, each with its address; addresses are not used twice. -/
structure LinkedIdentityCache where
  entries : Std.TreeMap NodeID CacheEntry := {}
  usageOrder : List (Nat × NodeID) := []
  nextNode : Nat := 0
  maximumEntries : Nat := 1024

namespace LinkedIdentityCache

/-- `std::list::erase` of the node an iterator points to. -/
def eraseNode (usage : Nat) (nodes : List (Nat × NodeID)) : List (Nat × NodeID) := nodes.eraseP (·.1 == usage)

/-- The loop of `trimToLimitLocked`, over the list nodes from the back on. -/
def trimLoop (maximumEntries : Nat) :
    List (Nat × NodeID) → Std.TreeMap NodeID CacheEntry → List (Nat × NodeID) × Std.TreeMap NodeID CacheEntry
  | [], entries => ([], entries)
  | leastRecent :: rest, entries =>
    if entries.size > maximumEntries then trimLoop maximumEntries rest (entries.erase leastRecent.2)
    else (leastRecent :: rest, entries)

def trimToLimitLocked (cache : LinkedIdentityCache) : LinkedIdentityCache :=
  let trimmed := trimLoop cache.maximumEntries cache.usageOrder.reverse cache.entries
  { cache with entries := trimmed.2, usageOrder := trimmed.1.reverse }

def setMaximumEntries (cache : LinkedIdentityCache) (maximumEntries : Nat) : LinkedIdentityCache :=
  trimToLimitLocked { cache with maximumEntries }

/-- The new cache, and whether the identity was accepted. -/
def cacheIdentity (C : Crypto) (cache : LinkedIdentityCache) (identity : Identity) (source : Option NodeID) :
    LinkedIdentityCache × Bool :=
  match nodeIdFromIdentity C identity with
  | none => (cache, false)
  | some derived =>
    if source.any (· ≠ derived) then (cache, false)
    else
      let cachedIdentity := sanitizedIdentityForCache identity
      let entries := cache.entries.insert derived ⟨cachedIdentity, cache.nextNode⟩
      match cache.entries[derived]? with
      | some existing =>
        ({ cache with
            entries
            usageOrder := (cache.nextNode, derived) :: eraseNode existing.usage cache.usageOrder
            nextNode := cache.nextNode + 1 }, true)
      | none =>
        (trimToLimitLocked
          { cache with
            entries
            usageOrder := (cache.nextNode, derived) :: cache.usageOrder
            nextNode := cache.nextNode + 1 }, true)

def observeMessage (C : Crypto) (cache : LinkedIdentityCache) (m : RSPMessage) : LinkedIdentityCache × Bool :=
  (IdentityCache.observedIdentities m).foldl
    (fun state identity =>
      let result := cacheIdentity C state.1 identity (senderNodeIdFromMessage m)
      (result.1, state.2 || result.2))
    (cache, false)

def call (C : Crypto) (cache : LinkedIdentityCache) : IdentityCache.Call → LinkedIdentityCache
  | .observeMessage m => (observeMessage C cache m).1
  | .setMaximumEntries maximumEntries => cache.setMaximumEntries maximumEntries

/-! ### Agreement of the two caches -/

/-- The same identities under the same nodes. -/
structure SameEntries (linked : Std.TreeMap NodeID CacheEntry) (entries : Std.TreeMap NodeID Identity) : Prop where
  getElem? : ∀ id : NodeID, entries[id]? = linked[id]?.map CacheEntry.identity
  size_eq : entries.size = linked.size

namespace SameEntries

variable {linked : Std.TreeMap NodeID CacheEntry} {entries : Std.TreeMap NodeID Identity}

theorem contains_eq (h : SameEntries linked entries) (id : NodeID) : entries.contains id = linked.contains id := by
  rw [Std.TreeMap.contains_eq_isSome_getElem?, Std.TreeMap.contains_eq_isSome_getElem?, h.getElem?, Option.isSome_map]

theorem erase (h : SameEntries linked entries) (id : NodeID) : SameEntries (linked.erase id) (entries.erase id) where
  getElem? other := by
    rw [Std.TreeMap.getElem?_erase, Std.TreeMap.getElem?_erase]
    split_ifs
    · rfl
    · exact h.getElem? other
  size_eq := by rw [Std.TreeMap.size_erase, Std.TreeMap.size_erase, h.contains_eq, h.size_eq]

theorem insert (h : SameEntries linked entries) (id : NodeID) (entry : CacheEntry) :
    SameEntries (linked.insert id entry) (entries.insert id entry.identity) where
  getElem? other := by
    rw [Std.TreeMap.getElem?_insert, Std.TreeMap.getElem?_insert]
    split_ifs
    · rfl
    · exact h.getElem? other
  size_eq := by rw [Std.TreeMap.size_insert, Std.TreeMap.size_insert, h.contains_eq, h.size_eq]

end SameEntries

/-- Every entry's iterator points to a list node with the entry's own NodeID. -/
def PointsInto (entries : Std.TreeMap NodeID CacheEntry) (nodes : List (Nat × NodeID)) : Prop :=
  ∀ {id : NodeID} {entry}, entries[id]? = some entry → (entry.usage, id) ∈ nodes

theorem trimLoop_same {entries : Std.TreeMap NodeID CacheEntry} {plain : Std.TreeMap NodeID Identity}
    (h : SameEntries entries plain) (maximumEntries : Nat) {nodes : List (Nat × NodeID)}
    (hpoints : PointsInto entries nodes) :
    let trimmed := trimLoop maximumEntries nodes entries
    let plainTrimmed := IdentityCache.trimLoop maximumEntries (nodes.map Prod.snd) plain
    plainTrimmed.1 = trimmed.1.map Prod.snd ∧ SameEntries trimmed.2 plainTrimmed.2 ∧
      PointsInto trimmed.2 trimmed.1 ∧ trimmed.1.Sublist nodes := by
  induction nodes generalizing entries plain with
  | nil => exact ⟨rfl, h, hpoints, .refl _⟩
  | cons leastRecent rest ih =>
    rw [List.map_cons, trimLoop, IdentityCache.trimLoop, h.size_eq]
    by_cases hfull : entries.size > maximumEntries
    · rw [if_pos hfull, if_pos hfull]
      have hrest : PointsInto (entries.erase leastRecent.2) rest := by
        intro id entry hentry
        rw [Std.TreeMap.getElem?_erase] at hentry
        split_ifs at hentry with hne
        rcases List.mem_cons.mp (hpoints hentry) with rfl | hmem
        · simp at hne
        · exact hmem
      obtain ⟨horder, hsame, hinto, hsub⟩ := ih (h.erase leastRecent.2) hrest
      exact ⟨horder, hsame, hinto, hsub.cons _⟩
    · rw [if_neg hfull, if_neg hfull]
      exact ⟨rfl, h, hpoints, .refl _⟩

/-- The linked cache is the plain one, with iterators that point where they should. -/
structure Represents (linked : LinkedIdentityCache) (cache : IdentityCache) : Prop where
  entries : SameEntries linked.entries cache.entries
  order : cache.usageOrder = linked.usageOrder.map Prod.snd
  maximum : cache.maximumEntries = linked.maximumEntries
  points : PointsInto linked.entries linked.usageOrder
  nodes : (linked.usageOrder.map Prod.fst).Nodup
  fresh : ∀ node ∈ linked.usageOrder, node.1 < linked.nextNode

theorem eraseNode_map_snd {nodes : List (Nat × NodeID)} (hnodes : (nodes.map Prod.fst).Nodup)
    (hids : (nodes.map Prod.snd).Nodup) {usage : Nat} {id : NodeID} (hmem : (usage, id) ∈ nodes) :
    (eraseNode usage nodes).map Prod.snd = (nodes.map Prod.snd).erase id := by
  induction nodes with
  | nil => cases hmem
  | cons node nodes ih =>
    rw [List.map_cons, List.nodup_cons] at hnodes hids
    rw [eraseNode]
    by_cases heq : node.1 = usage
    · have hhead : node = (usage, id) := by
        refine ((List.mem_cons.mp hmem).resolve_right fun htail => ?_).symm
        exact hnodes.1 (heq ▸ List.mem_map_of_mem htail)
      rw [List.eraseP_cons_of_pos (by simpa using heq), List.map_cons, hhead, List.erase_cons_head]
    · have htail : (usage, id) ∈ nodes := (List.mem_cons.mp hmem).resolve_left fun hhead => heq (hhead ▸ rfl)
      have hne : node.2 ≠ id := fun hid => hids.1 (hid ▸ List.mem_map_of_mem htail)
      rw [List.eraseP_cons_of_neg (by simpa using heq), List.map_cons, List.map_cons,
        List.erase_cons_tail (by simpa using hne)]
      exact congrArg _ (ih hnodes.2 hids.2 htail)

namespace Represents

variable {linked : LinkedIdentityCache} {cache : IdentityCache}

theorem trim (h : Represents linked cache) : Represents linked.trimToLimitLocked cache.trimToLimit := by
  have hpoints : PointsInto linked.entries linked.usageOrder.reverse := fun hentry =>
    List.mem_reverse.mpr (h.points hentry)
  obtain ⟨horder, hsame, hinto, hsub⟩ := trimLoop_same h.entries linked.maximumEntries hpoints
  rw [List.map_reverse, ← h.order, ← h.maximum] at horder hsame
  rw [← h.maximum] at hinto hsub
  have hsublist := List.reverse_reverse linked.usageOrder ▸ hsub.reverse
  constructor
  · rw [trimToLimitLocked, ← h.maximum]
    exact hsame
  · rw [trimToLimitLocked, ← h.maximum, List.map_reverse, ← horder]
    rfl
  · exact h.maximum
  · intro id entry hentry
    rw [trimToLimitLocked, ← h.maximum] at hentry ⊢
    exact List.mem_reverse.mpr (hinto hentry)
  · rw [trimToLimitLocked, ← h.maximum]
    exact h.nodes.sublist (hsublist.map _)
  · intro node hnode
    rw [trimToLimitLocked, ← h.maximum] at hnode
    exact h.fresh node (hsublist.subset hnode)

/-- A new front node with a fresh address. -/
theorem push (h : Represents linked cache) {id : NodeID} (identity : Identity) {order : List NodeID}
    {nodes : List (Nat × NodeID)} (horder : order = nodes.map Prod.snd) (hsub : nodes.Sublist linked.usageOrder)
    (hkept : ∀ {other : NodeID} {entry}, other ≠ id → linked.entries[other]? = some entry → (entry.usage, other) ∈ nodes) :
    Represents
      { linked with
        entries := linked.entries.insert id ⟨identity, linked.nextNode⟩
        usageOrder := (linked.nextNode, id) :: nodes
        nextNode := linked.nextNode + 1 }
      { cache with entries := cache.entries.insert id identity, usageOrder := id :: order } where
  entries := h.entries.insert id ⟨identity, linked.nextNode⟩
  order := by rw [horder, List.map_cons]
  maximum := h.maximum
  points := by
    intro other entry hentry
    simp only at hentry
    rw [Std.TreeMap.getElem?_insert] at hentry
    split_ifs at hentry with heq
    · obtain rfl := Option.some.inj hentry
      obtain rfl := Std.compare_eq_iff_eq.mp heq
      exact List.mem_cons_self
    · refine List.mem_cons_of_mem _ (hkept (fun hid => heq ?_) hentry)
      rw [hid, Std.compare_eq_iff_eq]
  nodes := by
    rw [List.map_cons, List.nodup_cons]
    refine ⟨fun hmem => ?_, h.nodes.sublist (hsub.map _)⟩
    obtain ⟨node, hnode, heq⟩ := List.mem_map.mp hmem
    have hlt := h.fresh node (hsub.subset hnode)
    omega
  fresh := by
    intro node hnode
    rcases List.mem_cons.mp hnode with rfl | hmem
    · exact Nat.lt_succ_self _
    · exact (h.fresh node (hsub.subset hmem)).trans (Nat.lt_succ_self _)

theorem cacheIdentity (h : Represents linked cache) (hlinked : cache.Linked) (identity : Identity)
    (source : Option NodeID) :
    Represents (linked.cacheIdentity C identity source).1 (IdentityCache.cacheIdentity C cache identity source).1 := by
  unfold LinkedIdentityCache.cacheIdentity IdentityCache.cacheIdentity
  cases nodeIdFromIdentity C identity with
  | none => exact h
  | some derived =>
    simp only
    by_cases hsource : source.any (· ≠ derived) = true
    · rw [if_pos hsource, if_pos hsource]
      exact h
    rw [if_neg hsource, if_neg hsource]
    have hcontains : cache.contains derived = linked.entries[derived]?.isSome := by
      rw [IdentityCache.contains, h.entries.contains_eq, Std.TreeMap.contains_eq_isSome_getElem?]
    simp only [IdentityCache.store, hcontains]
    cases hexisting : linked.entries[derived]? with
    | none =>
      exact (h.push _ h.order (.refl _) fun _ hentry => h.points hentry).trim
    | some existing =>
      have hmem := h.points hexisting
      refine h.push _ ?_ List.eraseP_sublist fun hne hentry => ?_
      · rw [h.order]
        exact (eraseNode_map_snd h.nodes (h.order ▸ hlinked.nodup) hmem).symm
      · refine (List.mem_eraseP_of_neg ?_).mpr (h.points hentry)
        intro heq
        have hsame := List.inj_on_of_nodup_map h.nodes (h.points hentry) hmem (by simpa using heq)
        exact hne (congrArg Prod.snd hsame)

theorem observe (h : Represents linked cache) (hbounded : cache.Bounded) (source : Option NodeID) (cached : Bool)
    (identities : List Identity) :
    Represents
      (identities.foldl
        (fun state identity =>
          let result := LinkedIdentityCache.cacheIdentity C state.1 identity source
          (result.1, state.2 || result.2)) (linked, cached)).1
      (identities.foldl (fun cache identity => (IdentityCache.cacheIdentity C cache identity source).1) cache) := by
  induction identities generalizing linked cache cached with
  | nil => exact h
  | cons identity identities ih =>
    rw [List.foldl_cons, List.foldl_cons]
    obtain ⟨-, hbounded', -, -⟩ := IdentityCache.observe_spec (C := C) hbounded source [identity]
    exact ih (h.cacheIdentity hbounded.linked identity source) hbounded' _

theorem call (h : Represents linked cache) (hbounded : cache.Bounded) (c : IdentityCache.Call) :
    Represents (linked.call C c) (cache.call C c) := by
  cases c with
  | observeMessage m => exact h.observe hbounded _ false _
  | setMaximumEntries maximumEntries =>
    have hlimit : Represents { linked with maximumEntries } { cache with maximumEntries } :=
      ⟨h.entries, h.order, rfl, h.points, h.nodes, h.fresh⟩
    exact hlimit.trim

end Represents

/-- The cache after a sequence of calls. -/
def afterCalls (C : Crypto) (maximumEntries : Nat) (calls : List IdentityCache.Call) : LinkedIdentityCache :=
  calls.foldl (call C) { maximumEntries }

theorem represents_afterCalls (maximumEntries : Nat) (calls : List IdentityCache.Call) :
    ∃ cache, IdentityCache.Follows C maximumEntries calls cache ∧
      Represents (afterCalls C maximumEntries calls) cache := by
  induction calls using List.reverseRecOn with
  | nil =>
    refine ⟨{ maximumEntries }, .empty maximumEntries, ⟨⟨by simp [afterCalls], rfl⟩, rfl, rfl, ?_, List.nodup_nil, ?_⟩⟩
    · intro id entry hentry
      simp [afterCalls] at hentry
    · intro node hnode
      cases hnode
  | append_singleton calls c ih =>
    obtain ⟨cache, hfollows, hrepresents⟩ := ih
    refine ⟨cache.call C c, hfollows.call c, ?_⟩
    rw [afterCalls, List.foldl_append]
    exact hrepresents.call hfollows.bounded c

/-- After any calls: entries and usage order hold the same nodes, once each, within the limit; each entry is a self-certified key observed in a message without a sender or from that very node; and the usage order is the reference list. -/
theorem identity_cache_is_lru (C : Crypto) (maximumEntries : Nat) (calls : List IdentityCache.Call) :
    let cache := afterCalls C maximumEntries calls
    let order := cache.usageOrder.map Prod.snd
    let reference := calls.foldl (IdentityCache.referenceStep C) (maximumEntries, [])
    order.Nodup ∧ (∀ id : NodeID, id ∈ cache.entries ↔ id ∈ order) ∧
      cache.entries.size ≤ cache.maximumEntries ∧
      (∀ (id : NodeID) entry, cache.entries[id]? = some entry →
        (entry.usage, id) ∈ cache.usageOrder ∧ nodeIdFromIdentity C entry.identity = some id ∧
          ∃ m identity, .observeMessage m ∈ calls ∧ identity ∈ IdentityCache.observedIdentities m ∧
            entry.identity = sanitizedIdentityForCache identity ∧
            (senderNodeIdFromMessage m = none ∨ senderNodeIdFromMessage m = some id)) ∧
      cache.maximumEntries = reference.1 ∧ order = reference.2 := by
  intro cache order reference
  obtain ⟨plain, hfollows, hrepresents⟩ := represents_afterCalls (C := C) maximumEntries calls
  have hlists := hfollows.bounded.linked
  have horder : plain.usageOrder = order := hrepresents.order
  have hreference : (plain.maximumEntries, plain.usageOrder) = reference := hfollows.reference
  refine ⟨horder ▸ hlists.nodup, fun id => ?_, ?_, fun id entry hentry => ?_, ?_, ?_⟩
  · rw [← horder, ← hlists.mem_iff, ← Std.TreeMap.contains_iff_mem, ← Std.TreeMap.contains_iff_mem,
      hrepresents.entries.contains_eq]
  · rw [← hrepresents.entries.size_eq, ← hrepresents.maximum, hlists.size_eq]
    exact hfollows.bounded.length_le
  · have hplain : plain.entries[id]? = some entry.identity := by
      rw [hrepresents.entries.getElem?, hentry]
      rfl
    obtain ⟨m, identity, hm, hidentity, hfound, hderived, hsender⟩ := hfollows.observed hplain
    refine ⟨hrepresents.points hentry, ?_, m, identity, hm, hidentity, hfound, hsender⟩
    rw [hfound, IdentityCache.nodeIdFromIdentity_sanitized, hderived]
  · rw [← hrepresents.maximum, ← hreference]
  · rw [← horder, ← hreference]

end LinkedIdentityCache

end Rsp
