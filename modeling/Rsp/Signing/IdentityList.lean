import Rsp.Lib.Runs
import Rsp.Signing.Injective

/-!
# What the signed stream says about the identities

The identities of a message are fed one after the other, with only their number in front. Every field of an identity is optional, so the stream shows the sequence of all their fields, and the field numbers within one identity ascend, but nothing else tells where one identity ends. The list is determined exactly if the cuts are at the places where the numbers do not ascend.
-/

namespace Rsp

open ByteCode Proto

/-! ### The fields of an identity -/

inductive IdentityField where
  | nonce (value : Uuid)
  | publicKey (value : PublicKey)
  | bootId (value : Uuid)
deriving DecidableEq, Repr

namespace IdentityField

def number : IdentityField → Nat
  | nonce _ => 1
  | publicKey _ => 2
  | bootId _ => 3

def hash : IdentityField → Bytes
  | nonce value => be32 1 ++ hashUuid value
  | publicKey value => be32 2 ++ hashPublicKey value
  | bootId value => be32 3 ++ hashUuid value

instance : Short IdentityField where
  short
    | nonce value => Short.short value
    | publicKey value => Short.short value
    | bootId value => Short.short value

theorem reads_hash : Reads hash Short.short fun _ => True := by
  intro a b r s ha hb _ _ heq
  cases a <;> cases b
  case nonce.nonce => exact reads_hashUuid.kind nonce ha hb trivial trivial heq
  case publicKey.publicKey => exact reads_hashPublicKey.kind publicKey ha hb trivial trivial heq
  case bootId.bootId => exact reads_hashUuid.kind bootId ha hb trivial trivial heq
  all_goals
    simp only [hash, List.append_assoc] at heq
    have htag := (reads_be32 trivial trivial trivial trivial heq).1
    simp at htag

theorem hash_ne_nil (field : IdentityField) : field.hash ≠ [] := by
  cases field <;> simp [hash, be32]

end IdentityField

def identityFields (m : Identity) : List IdentityField :=
  m.nonce.toList.map .nonce ++ m.publicKey.toList.map .publicKey ++ m.bootId.toList.map .bootId

theorem hashIdentity_eq (m : Identity) : hashIdentity m = (identityFields m).flatMap IdentityField.hash := by
  rcases m with ⟨_ | nonce, _ | publicKey, _ | bootId⟩ <;>
    simp [hashIdentity, identityFields, IdentityField.hash]

theorem identityFields_injective : Function.Injective identityFields := by
  rintro ⟨_ | _, _ | _, _ | _⟩ ⟨_ | _, _ | _, _ | _⟩ h <;> simp_all [identityFields]

theorem identityFields_isChain (m : Identity) :
    (identityFields m).IsChain fun x y => x.number < y.number := by
  rcases m with ⟨_ | nonce, _ | publicKey, _ | bootId⟩ <;> simp [identityFields, IdentityField.number]

theorem short_identityFields {m : Identity} (h : Short.short m) {field : IdentityField}
    (hfield : field ∈ identityFields m) : Short.short field := by
  obtain ⟨hnonce, hpublicKey, hbootId⟩ := h
  simp only [identityFields, List.mem_append, List.mem_map, Option.mem_toList] at hfield
  rcases hfield with (⟨value, hvalue, rfl⟩ | ⟨value, hvalue, rfl⟩) | ⟨value, hvalue, rfl⟩
  · exact hnonce value hvalue
  · exact hpublicKey value hvalue
  · exact hbootId value hvalue

/-! ### Where the cuts can be seen -/

/-- All field numbers of the first identity are below all of the second. -/
def Separated (a b : Identity) : Prop :=
  ∀ x ∈ identityFields a, ∀ y ∈ identityFields b, x.number < y.number

instance (a b : Identity) : Decidable (Separated a b) := by
  unfold Separated
  infer_instance

theorem breaks_iff_not_separated {a b : Identity} :
    Runs.Breaks (fun x y => x.number < y.number) (identityFields a) (identityFields b) ↔ ¬ Separated a b := by
  rcases a with ⟨_ | _, _ | _, _ | _⟩ <;> rcases b with ⟨_ | _, _ | _, _ | _⟩ <;>
    simp [Runs.Breaks, Separated, identityFields, IdentityField.number]

/-- The numbers of fields fall back at every cut, or there are no fields at all. -/
def Delimited (identities : List Identity) : Prop :=
  (∀ m ∈ identities, m = {}) ∨ identities.IsChain fun a b => ¬ Separated a b

instance (identities : List Identity) : Decidable (Delimited identities) := by
  unfold Delimited
  infer_instance

theorem identityFields_eq_nil {m : Identity} : identityFields m = [] ↔ m = {} := by
  rcases m with ⟨_ | _, _ | _, _ | _⟩ <;> simp [identityFields]

theorem eq_of_delimited {identities identities' : List Identity} (h : Delimited identities)
    (hlen : identities'.length = identities.length)
    (hfields : identities'.flatMap identityFields = identities.flatMap identityFields) : identities' = identities := by
  rcases h with hempty | hchain
  · have hnil : identities.flatMap identityFields = [] := by
      simpa [List.flatMap_eq_nil_iff, identityFields_eq_nil] using hempty
    have hempty' : ∀ m ∈ identities', m = {} := by
      simpa [List.flatMap_eq_nil_iff, identityFields_eq_nil] using hfields.trans hnil
    rw [List.eq_replicate_of_mem hempty, List.eq_replicate_of_mem hempty', hlen]
  · have hbreaks : (identities.map identityFields).IsChain (Runs.Breaks fun x y => x.number < y.number) :=
      (List.isChain_map _).mpr (hchain.imp fun _ _ h => breaks_iff_not_separated.mpr h)
    have hmap := Runs.eq_of_flatten_eq (q := identities'.map identityFields)
      (by simpa using fun m _ => identityFields_isChain m) hbreaks (by simpa using hlen)
      (by simpa [List.flatMap_def] using hfields)
    exact List.map_injective_iff.mpr identityFields_injective hmap

/-! ### Lists that are not determined -/

/-- The two identities in one. -/
def mergeIdentities (a b : Identity) : Identity :=
  { nonce := a.nonce.or b.nonce, publicKey := a.publicKey.or b.publicKey, bootId := a.bootId.or b.bootId }

theorem identityFields_mergeIdentities {a b : Identity} (h : Separated a b) :
    identityFields (mergeIdentities a b) = identityFields a ++ identityFields b := by
  rcases a with ⟨_ | _, _ | _, _ | _⟩ <;> rcases b with ⟨_ | _, _ | _, _ | _⟩ <;>
    simp [Separated, identityFields, mergeIdentities, IdentityField.number] at h ⊢

theorem separated_empty_left (b : Identity) : Separated {} b := nofun

theorem separated_empty_right (a : Identity) : Separated a {} := fun _ _ _ h => nomatch h

/-- In a list that is not delimited, two neighbours that are not both empty are separated. -/
theorem exists_separated {identities : List Identity} (h : ¬ Delimited identities) :
    ∃ l a b r, identities = l ++ a :: b :: r ∧ Separated a b ∧ ¬ (a = {} ∧ b = {}) := by
  simp only [Delimited, not_or] at h
  obtain ⟨hempty, hchain⟩ := h
  induction identities with
  | nil => simp at hchain
  | cons a identities ih =>
    cases identities with
    | nil => simp at hchain
    | cons b r =>
      by_cases hpair : Separated a b ∧ ¬ (a = {} ∧ b = {})
      · exact ⟨[], a, b, r, rfl, hpair⟩
      · -- the pair at the front is not it, so there is one further on
        have htail : ¬ (∀ m ∈ b :: r, m = {}) ∧ ¬ (b :: r).IsChain fun a b => ¬ Separated a b := by
          by_cases hseparated : Separated a b
          · have hboth : a = {} ∧ b = {} := by
              by_contra hboth
              exact hpair ⟨hseparated, hboth⟩
            have hrest : ¬ ∀ m ∈ b :: r, m = {} := fun hall => hempty (by simpa [hboth.1] using hall)
            refine ⟨hrest, ?_⟩
            cases r with
            | nil => exact absurd (by simpa using hboth.2) hrest
            | cons c r =>
              rw [List.isChain_cons_cons, hboth.2]
              exact fun h => h.1 (separated_empty_left c)
          · refine ⟨fun hall => hseparated ?_, fun htail => hchain (List.isChain_cons_cons.mpr ⟨hseparated, htail⟩)⟩
            rw [hall b List.mem_cons_self]
            exact separated_empty_right a
        obtain ⟨l, a', b', r', heq, hpair⟩ := ih htail.1 htail.2
        exact ⟨a :: l, a', b', r', by rw [heq]; rfl, hpair⟩

theorem short_mergeIdentities {a b : Identity} (ha : Short.short a) (hb : Short.short b) :
    Short.short (mergeIdentities a b) := by
  have hor {α : Type} [Short α] {x y : Option α} (hx : Short.short x) (hy : Short.short y) :
      Short.short (x.or y) := by
    cases x with
    | none => exact hy
    | some x => exact hx
  exact ⟨hor ha.1 hb.1, hor ha.2.1 hb.2.1, hor ha.2.2 hb.2.2⟩

/-- The fields of two separated neighbours can be divided differently. -/
theorem exists_other_division {identities : List Identity} (hshort : Short.short identities)
    (h : ¬ Delimited identities) :
    ∃ identities', Short.short identities' ∧ identities'.length = identities.length ∧
      identities'.flatMap identityFields = identities.flatMap identityFields ∧ identities' ≠ identities := by
  obtain ⟨l, a, b, r, rfl, hseparated, hnot⟩ := exists_separated h
  have hempty : Short.short ({} : Identity) := ⟨nofun, nofun, nofun⟩
  by_cases hb : b = {}
  · refine ⟨l ++ b :: a :: r, ⟨by simpa using hshort.1, fun m hm => hshort.2 m ?_⟩, by simp, ?_, ?_⟩
    · simp only [List.mem_append, List.mem_cons] at hm ⊢
      tauto
    · simp [hb, identityFields]
    · intro heq
      simp only [List.append_cancel_left_eq, List.cons.injEq] at heq
      exact hnot ⟨heq.1 ▸ hb, hb⟩
  · refine ⟨l ++ mergeIdentities a b :: {} :: r, ⟨by simpa using hshort.1, fun m hm => ?_⟩, by simp, ?_, ?_⟩
    · simp only [List.mem_append, List.mem_cons] at hm
      rcases hm with hm | rfl | rfl | hm
      · exact hshort.2 m (by simp [hm])
      · exact short_mergeIdentities (hshort.2 a (by simp)) (hshort.2 b (by simp))
      · exact hempty
      · exact hshort.2 m (by simp [hm])
    · simp [identityFields_mergeIdentities hseparated, identityFields_eq_nil.mpr rfl]
    · intro heq
      simp only [List.append_cancel_left_eq, List.cons.injEq] at heq
      exact hb heq.2.1.symm

/-! ### The stream -/

theorem counted_hashIdentity_eq_iff {identities identities' : List Identity} (h : Short.short identities)
    (h' : Short.short identities') :
    counted hashIdentity identities' = counted hashIdentity identities ↔ identities'.length = identities.length ∧
      identities'.flatMap identityFields = identities.flatMap identityFields := by
  have hfields (l : List Identity) : l.flatMap hashIdentity = (l.flatMap identityFields).flatMap IdentityField.hash := by
    rw [List.flatMap_assoc]
    exact congrArg (fun f => l.flatMap f) (funext hashIdentity_eq)
  have hshort {l : List Identity} (hl : Short.short l) : ∀ field ∈ l.flatMap identityFields, Short.short field := by
    intro field hfield
    obtain ⟨m, hm, hfield⟩ := List.mem_flatMap.mp hfield
    exact short_identityFields (hl.2 m hm) hfield
  constructor
  · intro heq
    obtain ⟨hlen, hrest⟩ := reads_be32 trivial trivial trivial trivial heq
    rw [hfields, hfields] at hrest
    exact ⟨uint32_ofNat_inj h'.1 h.1 hlen,
      IdentityField.reads_hash.flatMap_injOn IdentityField.hash_ne_nil (hshort h') (hshort h) hrest⟩
  · rintro ⟨hlen, hflat⟩
    rw [counted, counted, hfields, hfields, hlen, hflat]

theorem hashRSPMessage_identities_iff {pb : Protobuf} {m : RSPMessage} {stream : Bytes} {identities : List Identity}
    (hstream : hashRSPMessage pb m = .ok stream) :
    hashRSPMessage pb { m with identities } = .ok stream ↔
      counted hashIdentity identities = counted hashIdentity m.identities := by
  obtain ⟨beforeTrace, hbefore, h⟩ := bind_eq_ok.mp hstream
  cases h
  simp [hashRSPMessage, hbefore, hashTrailer, bind, Except.bind, pure, Except.pure]

/-- **When the stream determines the identities.** Exactly the delimited lists of identities are the only ones with their stream. -/
theorem identities_determined_iff (pb : Protobuf) {m : RSPMessage} {stream : Bytes}
    (hstream : hashRSPMessage pb m = .ok stream) (hshort : Short.short m.identities) :
    (∀ identities, Short.short identities → hashRSPMessage pb { m with identities } = .ok stream →
      identities = m.identities) ↔ Delimited m.identities := by
  constructor
  · intro hdetermined
    by_contra hnot
    obtain ⟨identities, hshort', hlen, hfields, hne⟩ := exists_other_division hshort hnot
    refine hne (hdetermined identities hshort' ?_)
    exact (hashRSPMessage_identities_iff hstream).mpr ((counted_hashIdentity_eq_iff hshort hshort').mpr ⟨hlen, hfields⟩)
  · intro hdelimited identities hshort' hstream'
    obtain ⟨hlen, hfields⟩ := (counted_hashIdentity_eq_iff hshort hshort').mp
      ((hashRSPMessage_identities_iff hstream).mp hstream')
    exact eq_of_delimited hdelimited hlen hfields

theorem identities_determined_twoNonces :
    Delimited [{ nonce := some ⟨[1]⟩ }, { nonce := some ⟨[2]⟩ }] ∧
      ∀ identities : List Identity, Short.short identities → hashRSPMessage default { identities } =
          hashRSPMessage default { identities := [{ nonce := some ⟨[1]⟩ }, { nonce := some ⟨[2]⟩ }] } →
        identities = [{ nonce := some ⟨[1]⟩ }, { nonce := some ⟨[2]⟩ }] := by
  have hdelimited : Delimited [{ nonce := some ⟨[1]⟩ }, { nonce := some ⟨[2]⟩ }] := by decide
  have hshort : Short.short ([{ nonce := some ⟨[1]⟩ }, { nonce := some ⟨[2]⟩ }] : List Identity) := by
    simp [Short.short]
  refine ⟨hdelimited, fun identities hshort' h => ?_⟩
  exact (identities_determined_iff default (m := { identities := [_, _] }) rfl hshort).mpr hdelimited identities
    hshort' h

/-- A nonce and a public key in one identity or in two. -/
theorem nonceAndKey_not_determined :
    hashRSPMessage default { identities := [{ nonce := some {} }, { publicKey := some {} }] } =
        hashRSPMessage default { identities := [{ nonce := some {}, publicKey := some {} }, {}] } ∧
      ([{ nonce := some {} }, { publicKey := some {} }] : List Identity) ≠
        [{ nonce := some {}, publicKey := some {} }, {}] :=
  ⟨rfl, by decide⟩

end Rsp
