import Mathlib.Data.List.Infix
import Mathlib.Tactic

/-!
# Byte codes that can be read back from the front of a stream

An encoder writes values one after the other into one flat byte stream, with no end markers. What makes such a stream readable is a statement about each encoder and about what may follow it: `Reads enc ok follow` says that, on values satisfying `ok` and with any rest satisfying `follow`, the value and the rest are both determined by the bytes. The combinators below build such statements for fixed-width integers, length-prefixed strings, optional tagged fields and counted lists; the follow condition of an optional field is that the rest does not begin with the field's own tag (`Avoids`).
-/

namespace ByteCode

abbrev Bytes := List UInt8

/-! ### Fixed-width integers -/

def be32 (value : UInt32) : Bytes :=
  [(value >>> 24).toUInt8, (value >>> 16).toUInt8, (value >>> 8).toUInt8, value.toUInt8]

def be64 (value : UInt64) : Bytes :=
  [(value >>> 56).toUInt8, (value >>> 48).toUInt8, (value >>> 40).toUInt8, (value >>> 32).toUInt8,
    (value >>> 24).toUInt8, (value >>> 16).toUInt8, (value >>> 8).toUInt8, value.toUInt8]

def bool8 (value : Bool) : Bytes := [if value then 1 else 0]

@[simp] theorem be32_length (value : UInt32) : (be32 value).length = 4 := rfl

@[simp] theorem be64_length (value : UInt64) : (be64 value).length = 8 := rfl

@[simp] theorem bool8_length (value : Bool) : (bool8 value).length = 1 := rfl

theorem be32_injective : Function.Injective be32 := by
  intro left right heq
  simp only [be32, List.cons.injEq, and_true, ← UInt8.toNat_inj, UInt32.toNat_toUInt8,
    UInt32.toNat_shiftRight, Nat.shiftRight_eq_div_pow, UInt32.reduceToNat, Nat.reduceMod,
    Nat.reducePow] at heq
  obtain ⟨h3, h2, h1, h0⟩ := heq
  apply UInt32.toNat_inj.mp
  have hleft := left.toNat_lt
  have hright := right.toNat_lt
  omega

theorem bool8_injective : Function.Injective bool8 := by
  intro left right heq
  cases left <;> cases right <;> simp_all [bool8]

/-! ### Reading an integer -/

def pushByte (acc : UInt64) (byte : UInt8) : UInt64 := (acc <<< 8) ||| byte.toUInt64

def readBe64 (bytes : Bytes) : UInt64 := bytes.foldl pushByte 0

def le64 (value : UInt64) : Bytes := (be64 value).reverse

def readLe64 (bytes : Bytes) : UInt64 := readBe64 bytes.reverse

theorem toNat_pushByte {acc : UInt64} (byte : UInt8) (hacc : acc.toNat < 2 ^ 56) :
    (pushByte acc byte).toNat = acc.toNat * 256 + byte.toNat := by
  have hbyte := byte.toNat_lt
  have hshift : (acc.toNat <<< 8) % 2 ^ 64 = acc.toNat <<< 8 := by
    rw [Nat.shiftLeft_eq]
    omega
  simp only [pushByte, UInt64.toNat_or, UInt64.toNat_shiftLeft, UInt64.reduceToNat, Nat.reduceMod, hshift,
    UInt8.toNat_toUInt64]
  rw [← Nat.shiftLeft_add_eq_or_of_lt (by omega), Nat.shiftLeft_eq]

/-- Up to eight bytes, pushing them is the base-256 numeral: nothing is shifted out. -/
theorem toNat_foldl_pushByte (bytes : Bytes) (acc : UInt64)
    (hfits : (acc.toNat + 1) * 256 ^ bytes.length ≤ 2 ^ 64) :
    (bytes.foldl pushByte acc).toNat = bytes.foldl (fun n byte => n * 256 + byte.toNat) acc.toNat := by
  induction bytes generalizing acc with
  | nil => rfl
  | cons byte bytes ih =>
    have hbyte := byte.toNat_lt
    have hpos : 1 ≤ 256 ^ bytes.length := Nat.one_le_pow _ _ (by norm_num)
    rw [List.length_cons, pow_succ] at hfits
    have hacc : acc.toNat < 2 ^ 56 := by nlinarith
    simp only [List.foldl_cons, ← toNat_pushByte byte hacc]
    apply ih
    rw [toNat_pushByte byte hacc]
    nlinarith

/-- One byte of a number, where `d` is the power of two that shifts it down. -/
theorem toNat_shiftRight_byte (value shift : UInt64) (d : Nat) (hd : 2 ^ (shift.toNat % 64) = d) :
    (value >>> shift).toUInt8.toNat = value.toNat / d % 256 := by
  rw [UInt64.toNat_toUInt8, UInt64.toNat_shiftRight, Nat.shiftRight_eq_div_pow, hd]

/-- The bytes above and the next byte are the bytes from there on. -/
theorem push_shiftRight_byte (value shift : UInt64) (d above : Nat) (hd : 2 ^ (shift.toNat % 64) = d)
    (habove : above = d * 256) :
    value.toNat / above * 256 + (value >>> shift).toUInt8.toNat = value.toNat / d := by
  rw [toNat_shiftRight_byte value shift d hd, habove, ← Nat.div_div_eq_div_mul]
  exact Nat.div_add_mod' (value.toNat / d) 256

@[simp] theorem readBe64_be64 (value : UInt64) : readBe64 (be64 value) = value := by
  have hvalue := value.toNat_lt
  have h7 : 0 * 256 + (value >>> 56).toUInt8.toNat = value.toNat / 2 ^ 56 := by
    rw [toNat_shiftRight_byte value 56 (2 ^ 56) (by decide)]
    omega
  have h6 : value.toNat / 2 ^ 56 * 256 + (value >>> 48).toUInt8.toNat = value.toNat / 2 ^ 48 :=
    push_shiftRight_byte value 48 (2 ^ 48) (2 ^ 56) (by decide) (by decide)
  have h5 : value.toNat / 2 ^ 48 * 256 + (value >>> 40).toUInt8.toNat = value.toNat / 2 ^ 40 :=
    push_shiftRight_byte value 40 (2 ^ 40) (2 ^ 48) (by decide) (by decide)
  have h4 : value.toNat / 2 ^ 40 * 256 + (value >>> 32).toUInt8.toNat = value.toNat / 2 ^ 32 :=
    push_shiftRight_byte value 32 (2 ^ 32) (2 ^ 40) (by decide) (by decide)
  have h3 : value.toNat / 2 ^ 32 * 256 + (value >>> 24).toUInt8.toNat = value.toNat / 2 ^ 24 :=
    push_shiftRight_byte value 24 (2 ^ 24) (2 ^ 32) (by decide) (by decide)
  have h2 : value.toNat / 2 ^ 24 * 256 + (value >>> 16).toUInt8.toNat = value.toNat / 2 ^ 16 :=
    push_shiftRight_byte value 16 (2 ^ 16) (2 ^ 24) (by decide) (by decide)
  have h1 : value.toNat / 2 ^ 16 * 256 + (value >>> 8).toUInt8.toNat = value.toNat / 2 ^ 8 :=
    push_shiftRight_byte value 8 (2 ^ 8) (2 ^ 16) (by decide) (by decide)
  apply UInt64.toNat_inj.mp
  rw [readBe64, toNat_foldl_pushByte _ _ (by simp), UInt64.toNat_zero]
  simp only [be64, List.foldl_cons, List.foldl_nil]
  rw [h7, h6, h5, h4, h3, h2, h1, UInt64.toNat_toUInt8]
  exact Nat.div_add_mod' value.toNat 256

theorem be64_injective : Function.Injective be64 := fun left right heq => by
  rw [← readBe64_be64 left, heq, readBe64_be64]

@[simp] theorem readLe64_le64 (value : UInt64) : readLe64 (le64 value) = value := by
  rw [readLe64, le64, List.reverse_reverse, readBe64_be64]

/-! ### Reading a value back from the front of a stream -/

/-- The bytes `enc a ++ r` determine both `a` and `r`, for values satisfying `ok` and rests satisfying `follow`. -/
def Reads {α : Type*} (enc : α → Bytes) (ok : α → Prop) (follow : Bytes → Prop) : Prop :=
  ∀ ⦃a b : α⦄ ⦃r s : Bytes⦄, ok a → ok b → follow r → follow s → enc a ++ r = enc b ++ s → a = b ∧ r = s

/-- The stream does not begin with any of the tags. -/
def Avoids (tags : List UInt32) (r : Bytes) : Prop := ∀ t ∈ tags, ¬ be32 t <+: r

section

variable {α β : Type*} {enc : α → Bytes} {ok : α → Prop} {follow : Bytes → Prop}

theorem Reads.mono {follow' : Bytes → Prop} (h : Reads enc ok follow) (hfollow : ∀ r, follow' r → follow r) :
    Reads enc ok follow' := fun _ _ _ _ ha hb hr hs => h ha hb (hfollow _ hr) (hfollow _ hs)

/-- Two codes one after the other, if what the second writes may follow the first. -/
theorem Reads.append {enc' : β → Bytes} {ok' : β → Prop} {follow' : Bytes → Prop} (h : Reads enc ok follow)
    (h' : Reads enc' ok' follow') (hfollow : ∀ b r, ok' b → follow' r → follow (enc' b ++ r)) :
    Reads (fun p : α × β => enc p.1 ++ enc' p.2) (fun p => ok p.1 ∧ ok' p.2) follow' := by
  rintro ⟨a, b⟩ ⟨a', b'⟩ r s ha ha' hr hs heq
  simp only [List.append_assoc] at heq
  obtain ⟨hfirst, hrest⟩ := h ha.1 ha'.1 (hfollow b r ha.2 hr) (hfollow b' s ha'.2 hs) heq
  obtain ⟨hsecond, hrest⟩ := h' ha.2 ha'.2 hr hs hrest
  exact ⟨Prod.ext hfirst hsecond, hrest⟩

/-- A code for a structure, given by the code of its fields. -/
theorem Reads.comap {enc' : β → Bytes} {ok' : β → Prop} (h : Reads enc ok follow) (f : β → α)
    (hf : Function.Injective f) (henc : ∀ b, enc' b = enc (f b)) (hok : ∀ b, ok' b → ok (f b)) :
    Reads enc' ok' follow := by
  intro a b r s ha hb hr hs heq
  rw [henc, henc] at heq
  obtain ⟨hab, hrest⟩ := h (hok a ha) (hok b hb) hr hs heq
  exact ⟨hf hab, hrest⟩

theorem reads_of_fixed_length {n : Nat} (hinj : Function.Injective enc) (hlen : ∀ a, (enc a).length = n) :
    Reads enc (fun _ => True) fun _ => True := by
  intro a b r s _ _ _ _ heq
  obtain ⟨henc, hrest⟩ := List.append_inj heq (by rw [hlen, hlen])
  exact ⟨hinj henc, hrest⟩

theorem reads_be32 : Reads be32 (fun _ => True) fun _ => True :=
  reads_of_fixed_length be32_injective be32_length

theorem reads_be64 : Reads be64 (fun _ => True) fun _ => True :=
  reads_of_fixed_length be64_injective be64_length

theorem reads_bool8 : Reads bool8 (fun _ => True) fun _ => True :=
  reads_of_fixed_length bool8_injective bool8_length

/-! ### What may follow -/

@[simp] theorem avoids_nil_stream (tags : List UInt32) : Avoids tags [] := by
  intro t _ hpre
  have := List.IsPrefix.length_le hpre
  simp at this

theorem be32_prefix_be32_append {t u : UInt32} {r : Bytes} (hpre : be32 t <+: be32 u ++ r) : t = u := by
  obtain ⟨rest, hrest⟩ := hpre
  exact (reads_be32 trivial trivial trivial trivial hrest).1

@[simp] theorem avoids_be32_append {tags : List UInt32} {t : UInt32} {r : Bytes} :
    Avoids tags (be32 t ++ r) ↔ t ∉ tags := by
  constructor
  · intro h hmem
    exact h t hmem ⟨r, rfl⟩
  · intro hnot u hu hpre
    exact hnot (be32_prefix_be32_append hpre ▸ hu)

theorem Avoids.mono {tags tags' : List UInt32} {r : Bytes} (h : Avoids tags' r) (hsub : tags ⊆ tags') :
    Avoids tags r := fun t ht => h t (hsub ht)

/-! ### Length-prefixed strings -/

def lenPrefixed (value : Bytes) : Bytes := be32 (UInt32.ofNat value.length) ++ value

theorem uint32_ofNat_inj {m n : Nat} (hm : m < 2 ^ 32) (hn : n < 2 ^ 32)
    (heq : UInt32.ofNat m = UInt32.ofNat n) : m = n := by
  have h := congrArg UInt32.toNat heq
  rwa [UInt32.toNat_ofNat_of_lt' hm, UInt32.toNat_ofNat_of_lt' hn] at h

theorem reads_lenPrefixed : Reads lenPrefixed (fun v => v.length < 2 ^ 32) fun _ => True := by
  intro a b r s ha hb _ _ heq
  simp only [lenPrefixed, List.append_assoc] at heq
  obtain ⟨hlen, hrest⟩ := reads_be32 trivial trivial trivial trivial heq
  exact List.append_inj hrest (uint32_ofNat_inj ha hb hlen)

/-! ### Tagged and optional fields -/

def tagged (t : UInt32) (enc : α → Bytes) (a : α) : Bytes := be32 t ++ enc a

/-- An optional field: its tag and value when present, nothing when absent. -/
def optional (t : UInt32) (enc : α → Bytes) : Option α → Bytes
  | none => []
  | some a => tagged t enc a

@[simp] theorem optional_none (t : UInt32) (enc : α → Bytes) : optional t enc none = [] := rfl

@[simp] theorem optional_some (t : UInt32) (enc : α → Bytes) (a : α) :
    optional t enc (some a) = be32 t ++ enc a := rfl

theorem Reads.tagged (h : Reads enc ok follow) (t : UInt32) : Reads (tagged t enc) ok follow := by
  intro a b r s ha hb hr hs heq
  simp only [ByteCode.tagged, List.append_assoc, List.append_cancel_left_eq] at heq
  exact h ha hb hr hs heq

theorem Reads.optional (h : Reads enc ok follow) (t : UInt32) :
    Reads (optional t enc) (fun o => ∀ a ∈ o, ok a) fun r => follow r ∧ Avoids [t] r := by
  intro a b r s ha hb hr hs heq
  cases a with
  | none =>
    cases b with
    | none => exact ⟨rfl, heq⟩
    | some b =>
      -- one side has the field and the other has it in the rest, which the follow condition excludes
      refine absurd ?_ (hr.2 t (List.mem_singleton_self t))
      rw [← List.nil_append r, ← optional_none t enc, heq, optional_some, List.append_assoc]
      exact List.prefix_append _ _
  | some a =>
    cases b with
    | none =>
      refine absurd ?_ (hs.2 t (List.mem_singleton_self t))
      rw [← List.nil_append s, ← optional_none t enc, ← heq, optional_some, List.append_assoc]
      exact List.prefix_append _ _
    | some b =>
      obtain ⟨hab, hrs⟩ := h.tagged t (ha a rfl) (hb b rfl) hr.1 hs.1 heq
      exact ⟨congrArg some hab, hrs⟩

/-- An optional field whose value delimits itself needs only its own tag to be avoided. -/
theorem Reads.optionalAvoids (h : Reads enc ok fun _ => True) {t : UInt32} {tags : List UInt32} (ht : t ∈ tags) :
    Reads (ByteCode.optional t enc) (fun o => ∀ a ∈ o, ok a) (Avoids tags) :=
  (h.optional t).mono fun _ hr => ⟨trivial, hr.mono (by simpa using ht)⟩

theorem avoids_optional_append {tags : List UInt32} {t : UInt32} {o : Option α} {r : Bytes}
    (ht : t ∉ tags) (hr : Avoids tags r) : Avoids tags (optional t enc o ++ r) := by
  cases o with
  | none => exact hr
  | some a => rw [optional_some, List.append_assoc]; exact avoids_be32_append.mpr ht

/-! ### Alternatives -/

theorem Reads.kind (h : Reads enc ok follow) {t : UInt32} (wrap : α → β) {a b : α} {r s : Bytes} (ha : ok a) (hb : ok b)
    (hr : follow r) (hs : follow s) (heq : be32 t ++ enc a ++ r = be32 t ++ enc b ++ s) : wrap a = wrap b ∧ r = s := by
  obtain ⟨rfl, hrest⟩ := h.tagged t ha hb hr hs heq
  exact ⟨rfl, hrest⟩

/-- A choice between kinds of values, each written with the tag of its kind, or not at all. -/
theorem reads_of_tag (tag : α → Option UInt32) {tags : List UInt32}
    (hnone : ∀ a, ok a → tag a = none → enc a = [])
    (hsome : ∀ a t, ok a → tag a = some t → t ∈ tags ∧ be32 t <+: enc a)
    (hkind : ∀ a b r s, ok a → ok b → tag a = tag b → Avoids tags r → Avoids tags s → enc a ++ r = enc b ++ s →
      a = b ∧ r = s) :
    Reads enc ok (Avoids tags) := by
  -- the tag of a value is the one its stream begins with, since the rest begins with none of them
  have tag_of_stream : ∀ a b r s, ok a → ok b → Avoids tags s → enc a ++ r = enc b ++ s → ∀ t, tag a = some t →
      tag b = some t := by
    intro a b r s ha hb hs heq t htag
    obtain ⟨hmem, hbegins⟩ := hsome a t ha htag
    have hstream : be32 t <+: enc b ++ s := heq ▸ hbegins.trans (List.prefix_append _ _)
    cases hb' : tag b with
    | none =>
      rw [hnone b hb hb'] at hstream
      exact absurd hstream (hs t hmem)
    | some u =>
      obtain ⟨body, hbody⟩ := (hsome b u hb hb').2
      rw [← hbody, List.append_assoc] at hstream
      rw [be32_prefix_be32_append hstream]
  intro a b r s ha hb hr hs heq
  refine hkind a b r s ha hb ?_ hr hs heq
  cases hta : tag a with
  | some t => exact (tag_of_stream a b r s ha hb hs heq t hta).symm
  | none =>
    cases htb : tag b with
    | none => rfl
    | some t => exact hta.symm.trans (tag_of_stream b a s r hb ha hr heq.symm t htb)

/-! ### Lists -/

def counted (enc : α → Bytes) (l : List α) : Bytes := be32 (UInt32.ofNat l.length) ++ l.flatMap enc

/-- Lists of one length, written without separators. -/
theorem Reads.flatMap (h : Reads enc ok follow) (hfollow : ∀ a r, ok a → follow r → follow (enc a ++ r)) :
    ∀ {l l' : List α} {r s : Bytes}, l.length = l'.length → (∀ a ∈ l, ok a) → (∀ a ∈ l', ok a) → follow r →
      follow s → l.flatMap enc ++ r = l'.flatMap enc ++ s → l = l' ∧ r = s
  | [], [], _, _, _, _, _, _, _, heq => ⟨rfl, heq⟩
  | a :: l, b :: l', r, s, hlen, hl, hl', hr, hs, heq => by
    simp only [List.flatMap_cons, List.append_assoc] at heq
    have rest_follows : ∀ (m : List α) (u : Bytes), (∀ x ∈ m, ok x) → follow u → follow (m.flatMap enc ++ u) := by
      intro m u hm hu
      induction m with
      | nil => exact hu
      | cons x m ih =>
        rw [List.flatMap_cons, List.append_assoc]
        exact hfollow x _ (hm x (by simp)) (ih fun y hy => hm y (by simp [hy]))
    obtain ⟨hab, hrest⟩ := h (hl a (by simp)) (hl' b (by simp))
      (rest_follows l r (fun x hx => hl x (by simp [hx])) hr)
      (rest_follows l' s (fun x hx => hl' x (by simp [hx])) hs) heq
    obtain ⟨hll, hrs⟩ := h.flatMap hfollow (by simpa using hlen) (fun x hx => hl x (by simp [hx]))
      (fun x hx => hl' x (by simp [hx])) hr hs hrest
    exact ⟨by rw [hab, hll], hrs⟩

theorem Reads.counted (h : Reads enc ok follow) (hfollow : ∀ a r, ok a → follow r → follow (enc a ++ r)) :
    Reads (counted enc) (fun l => l.length < 2 ^ 32 ∧ ∀ a ∈ l, ok a) follow := by
  intro l l' r s hl hl' hr hs heq
  simp only [ByteCode.counted, List.append_assoc] at heq
  obtain ⟨hlen, hrest⟩ := reads_be32 trivial trivial trivial trivial heq
  exact h.flatMap hfollow (uint32_ofNat_inj hl.1 hl'.1 hlen) hl.2 hl'.2 hr hs hrest

/-- Without a count: if what follows the codes is again a stream of codes, it continues the list. -/
theorem Reads.exists_of_flatMap_append_eq (h : Reads enc ok follow) (hne : ∀ a, ok a → enc a ≠ [])
    (hfollow : ∀ a r, ok a → follow (enc a ++ r)) (hnil : follow []) :
    ∀ {l l' : List α} {r : Bytes}, (∀ a ∈ l, ok a) → (∀ a ∈ l', ok a) → follow r →
      l.flatMap enc ++ r = l'.flatMap enc → ∃ tail, l' = l ++ tail ∧ tail.flatMap enc = r
  | [], l', _, _, _, _, heq => ⟨l', rfl, heq.symm⟩
  | a :: l, [], _, hl, _, _, heq => by simp [hne a (hl a List.mem_cons_self)] at heq
  | a :: l, b :: l', r, hl, hl', hr, heq => by
    have stream_follows : ∀ (m : List α) (u : Bytes), (∀ x ∈ m, ok x) → follow u → follow (m.flatMap enc ++ u) := by
      intro m u hm hu
      cases m with
      | nil => exact hu
      | cons x m =>
        rw [List.flatMap_cons, List.append_assoc]
        exact hfollow x _ (hm x List.mem_cons_self)
    simp only [List.flatMap_cons, List.append_assoc] at heq
    obtain ⟨rfl, hrest⟩ := h (hl a List.mem_cons_self) (hl' b List.mem_cons_self)
      (stream_follows l r (fun x hx => hl x (List.mem_cons_of_mem a hx)) hr)
      (by simpa using stream_follows l' [] (fun x hx => hl' x (List.mem_cons_of_mem b hx)) hnil) heq
    obtain ⟨tail, rfl, htail⟩ := h.exists_of_flatMap_append_eq hne hfollow hnil
      (fun x hx => hl x (List.mem_cons_of_mem a hx)) (fun x hx => hl' x (List.mem_cons_of_mem a hx)) hr hrest
    exact ⟨tail, rfl, htail⟩

/-- Without a count: self-delimiting nonempty codes still determine the list they are concatenated from. -/
theorem Reads.flatMap_injOn (h : Reads enc ok fun _ => True) (hne : ∀ a, enc a ≠ []) :
    ∀ {l l' : List α}, (∀ a ∈ l, ok a) → (∀ a ∈ l', ok a) → l.flatMap enc = l'.flatMap enc → l = l'
  | [], [], _, _, _ => rfl
  | [], b :: l', _, _, heq => by simp [hne] at heq
  | a :: l, [], _, _, heq => by simp [hne] at heq
  | a :: l, b :: l', hl, hl', heq => by
    simp only [List.flatMap_cons] at heq
    obtain ⟨hab, hrest⟩ := h (hl a (by simp)) (hl' b (by simp)) trivial trivial heq
    rw [hab, h.flatMap_injOn hne (fun x hx => hl x (by simp [hx])) (fun x hx => hl' x (by simp [hx])) hrest]

/-! ### Values that fit their length fields -/

/-- All strings and lists in the value are short enough for a 32-bit length. -/
class Short (α : Type*) where
  short : α → Prop

instance : Short UInt8 := ⟨fun _ => True⟩

instance [Short α] : Short (Option α) := ⟨fun o => ∀ a ∈ o, Short.short a⟩

instance [Short α] : Short (List α) := ⟨fun l => l.length < 2 ^ 32 ∧ ∀ a ∈ l, Short.short a⟩

theorem reads_lenPrefixed_short : Reads lenPrefixed Short.short fun _ => True :=
  fun _ _ _ _ ha hb => reads_lenPrefixed ha.1 hb.1

end

end ByteCode
