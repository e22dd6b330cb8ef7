import Rsp.Lib.Code

/-!
# Readers for byte codes

Executable readers for the codes of `ByteCode`. A reader inverts a code on the values satisfying `ok` if it returns exactly the values, and the rests, that the code can have written.
-/

namespace ByteCode

variable {α β : Type*}

abbrev Reader (α : Type*) := Bytes → Option (α × Bytes)

/-- The reader returns a value and a rest just if the bytes are the code of the value followed by the rest. -/
def Inverts (read : Reader α) (enc : α → Bytes) (ok : α → Prop) : Prop :=
  ∀ bytes a rest, read bytes = some (a, rest) ↔ ok a ∧ bytes = enc a ++ rest

def readBe32 : Reader UInt32
  | b₃ :: b₂ :: b₁ :: b₀ :: rest =>
    some (.ofNat (b₃.toNat * 2 ^ 24 + b₂.toNat * 2 ^ 16 + b₁.toNat * 2 ^ 8 + b₀.toNat), rest)
  | _ => none

theorem be32_ofNat (b₃ b₂ b₁ b₀ : UInt8) :
    be32 (.ofNat (b₃.toNat * 2 ^ 24 + b₂.toNat * 2 ^ 16 + b₁.toNat * 2 ^ 8 + b₀.toNat)) = [b₃, b₂, b₁, b₀] := by
  have h₃ := b₃.toNat_lt
  have h₂ := b₂.toNat_lt
  have h₁ := b₁.toNat_lt
  have h₀ := b₀.toNat_lt
  simp only [be32, List.cons.injEq, and_true, ← UInt8.toNat_inj, UInt32.toNat_toUInt8, UInt32.toNat_shiftRight,
    UInt32.toNat_ofNat', Nat.shiftRight_eq_div_pow, UInt32.reduceToNat, Nat.reduceMod, Nat.reducePow]
  omega

theorem inverts_readBe32 : Inverts readBe32 be32 fun _ => True := by
  intro bytes value rest
  constructor
  · intro h
    unfold readBe32 at h
    split at h
    · cases h
      exact ⟨trivial, by rw [be32_ofNat]; rfl⟩
    · cases h
  · rintro ⟨-, rfl⟩
    simp only [be32, List.cons_append, List.nil_append, readBe32, Option.some.injEq, Prod.mk.injEq, and_true]
    apply be32_injective
    rw [be32_ofNat]
    rfl

theorem Inverts.bind_eq_some {read : Reader α} {enc : α → Bytes} {ok : α → Prop} (h : Inverts read enc ok)
    {f : α × Bytes → Option β} {bytes : Bytes} {b : β} :
    (read bytes).bind f = some b ↔ ∃ a rest, ok a ∧ bytes = enc a ++ rest ∧ f (a, rest) = some b := by
  simp only [Option.bind_eq_some_iff, Prod.exists, h bytes, and_assoc]

def readLenPrefixed : Reader Bytes := fun bytes =>
  (readBe32 bytes).bind fun (length, rest) =>
    if length.toNat ≤ rest.length then some (rest.splitAt length.toNat) else none

theorem inverts_readLenPrefixed : Inverts readLenPrefixed lenPrefixed fun value => value.length < 2 ^ 32 := by
  intro bytes value rest
  rw [readLenPrefixed, inverts_readBe32.bind_eq_some]
  constructor
  · rintro ⟨length, tail, -, rfl, h⟩
    dsimp only at h
    split_ifs at h with hlength
    simp only [List.splitAt_eq, Option.some.injEq, Prod.mk.injEq] at h
    obtain ⟨rfl, rfl⟩ := h
    have htake : (tail.take length.toNat).length = length.toNat := by simpa using hlength
    refine ⟨lt_of_eq_of_lt htake length.toNat_lt, ?_⟩
    rw [lenPrefixed, htake, List.append_assoc, List.take_append_drop, UInt32.ofNat_toNat]
  · rintro ⟨hvalue, rfl⟩
    refine ⟨.ofNat value.length, value ++ rest, trivial, List.append_assoc .., ?_⟩
    simp [UInt32.toNat_ofNat_of_lt' hvalue]

/-- The given number of values, one after the other. -/
def readMany (read : Reader α) : Nat → Reader (List α)
  | 0, bytes => some ([], bytes)
  | n + 1, bytes => (read bytes).bind fun (a, rest) => (readMany read n rest).map fun (l, rest) => (a :: l, rest)

theorem Inverts.readMany {read : Reader α} {enc : α → Bytes} {ok : α → Prop} (h : Inverts read enc ok) (n : Nat) :
    Inverts (readMany read n) (fun l => l.flatMap enc) fun l => l.length = n ∧ ∀ a ∈ l, ok a := by
  induction n with
  | zero =>
    intro bytes l rest
    cases l <;> simp [ByteCode.readMany, eq_comm]
  | succ n ih =>
    intro bytes l rest
    rw [ByteCode.readMany, h.bind_eq_some]
    constructor
    · rintro ⟨a, tail, ha, rfl, hmany⟩
      obtain ⟨⟨l', rest'⟩, hread, heq⟩ := Option.map_eq_some_iff.mp hmany
      cases heq
      obtain ⟨⟨hlen, hok⟩, rfl⟩ := (ih tail l' rest).mp hread
      simp_all
    · rintro ⟨⟨hlen, hok⟩, rfl⟩
      cases l with
      | nil => simp at hlen
      | cons a l =>
        have hread := (ih (l.flatMap enc ++ rest) l rest).mpr
          ⟨⟨by simpa using hlen, fun b hb => hok b (List.mem_cons_of_mem a hb)⟩, rfl⟩
        exact ⟨a, l.flatMap enc ++ rest, hok a List.mem_cons_self, by simp, by simp [hread]⟩

def readCounted (read : Reader α) : Reader (List α) := fun bytes =>
  (readBe32 bytes).bind fun (length, rest) => readMany read length.toNat rest

theorem Inverts.readCounted {read : Reader α} {enc : α → Bytes} {ok : α → Prop} (h : Inverts read enc ok) :
    Inverts (readCounted read) (counted enc) fun l => l.length < 2 ^ 32 ∧ ∀ a ∈ l, ok a := by
  intro bytes l rest
  rw [ByteCode.readCounted, inverts_readBe32.bind_eq_some]
  constructor
  · rintro ⟨length, tail, -, rfl, hread⟩
    obtain ⟨⟨hlen, hok⟩, rfl⟩ := (h.readMany _ tail l rest).mp hread
    refine ⟨⟨hlen ▸ length.toNat_lt, hok⟩, ?_⟩
    rw [counted, hlen, UInt32.ofNat_toNat, List.append_assoc]
  · rintro ⟨⟨hlen, hok⟩, rfl⟩
    refine ⟨.ofNat l.length, l.flatMap enc ++ rest, trivial, List.append_assoc .., ?_⟩
    dsimp only
    rw [UInt32.toNat_ofNat_of_lt' hlen]
    exact (h.readMany _ _ l rest).mpr ⟨⟨rfl, hok⟩, rfl⟩

def readBoth (first : Reader α) (second : Reader β) : Reader (α × β) := fun bytes =>
  (first bytes).bind fun (a, rest) => (second rest).map fun (b, rest) => ((a, b), rest)

theorem Inverts.readBoth {first : Reader α} {second : Reader β} {enc : α → Bytes} {enc' : β → Bytes} {ok : α → Prop}
    {ok' : β → Prop} (h : Inverts first enc ok) (h' : Inverts second enc' ok') :
    Inverts (readBoth first second) (fun p => enc p.1 ++ enc' p.2) fun p => ok p.1 ∧ ok' p.2 := by
  rintro bytes ⟨a, b⟩ rest
  rw [ByteCode.readBoth, h.bind_eq_some]
  constructor
  · rintro ⟨a', tail, ha, rfl, hsecond⟩
    obtain ⟨⟨b', rest'⟩, hread, heq⟩ := Option.map_eq_some_iff.mp hsecond
    cases heq
    obtain ⟨hb, rfl⟩ := (h' tail b rest).mp hread
    exact ⟨⟨ha, hb⟩, by simp⟩
  · rintro ⟨⟨ha, hb⟩, rfl⟩
    have hread := (h' (enc' b ++ rest) b rest).mpr ⟨hb, rfl⟩
    exact ⟨a, enc' b ++ rest, ha, by simp, by simp [hread]⟩

/-! ### Words put together from bytes -/

/-- Eight bytes are the code of the word they spell. -/
theorem be64_readBe64 {bytes : Bytes} (h : bytes.length = 8) : be64 (readBe64 bytes) = bytes := by
  match bytes, h with
  | [b₇, b₆, b₅, b₄, b₃, b₂, b₁, b₀], _ =>
    have hvalue := toNat_foldl_pushByte [b₇, b₆, b₅, b₄, b₃, b₂, b₁, b₀] 0 (by simp)
    have h₇ := b₇.toNat_lt
    have h₆ := b₆.toNat_lt
    have h₅ := b₅.toNat_lt
    have h₄ := b₄.toNat_lt
    have h₃ := b₃.toNat_lt
    have h₂ := b₂.toNat_lt
    have h₁ := b₁.toNat_lt
    have h₀ := b₀.toNat_lt
    rw [← readBe64] at hvalue
    simp only [List.foldl_cons, List.foldl_nil] at hvalue
    simp only [be64, List.cons.injEq, and_true, ← UInt8.toNat_inj, UInt64.toNat_toUInt8, UInt64.toNat_shiftRight,
      hvalue, Nat.shiftRight_eq_div_pow, UInt64.reduceToNat, Nat.reduceMod, Nat.reducePow]
    omega

/-- Four bytes put together by shifts. -/
def joinBytes (b₃ b₂ b₁ b₀ : UInt8) : UInt32 :=
  b₃.toUInt32 <<< 24 ||| b₂.toUInt32 <<< 16 ||| b₁.toUInt32 <<< 8 ||| b₀.toUInt32

theorem joinBytes_eq (b₃ b₂ b₁ b₀ : UInt8) :
    joinBytes b₃ b₂ b₁ b₀ = .ofNat (b₃.toNat * 2 ^ 24 + b₂.toNat * 2 ^ 16 + b₁.toNat * 2 ^ 8 + b₀.toNat) := by
  have h₃ := b₃.toNat_lt
  have h₂ := b₂.toNat_lt
  have h₁ := b₁.toNat_lt
  have h₀ := b₀.toNat_lt
  apply UInt32.toNat_inj.mp
  -- no two of the shifted bytes have a bit in common
  have hor (high low shift : Nat) (hlow : low < 2 ^ shift) : high * 2 ^ shift ||| low = high * 2 ^ shift + low := by
    rw [← Nat.shiftLeft_eq, Nat.shiftLeft_add_eq_or_of_lt hlow]
  have hfirst := hor b₃.toNat (b₂.toNat * 2 ^ 16) 24 (by omega)
  have hsecond := hor (b₃.toNat * 2 ^ 8 + b₂.toNat) (b₁.toNat * 2 ^ 8) 16 (by omega)
  have hthird := hor (b₃.toNat * 2 ^ 16 + b₂.toNat * 2 ^ 8 + b₁.toNat) b₀.toNat 8 (by omega)
  have hshift (b : UInt8) (shift : Nat) (hs : shift ≤ 24) : b.toNat <<< shift % 2 ^ 32 = b.toNat * 2 ^ shift := by
    have hb := b.toNat_lt
    have hpow : 2 ^ shift ≤ 2 ^ 24 := Nat.pow_le_pow_right (by omega) hs
    rw [Nat.shiftLeft_eq]
    exact Nat.mod_eq_of_lt (by nlinarith)
  simp only [joinBytes, UInt32.toNat_or, UInt32.toNat_shiftLeft, UInt8.toNat_toUInt32, UInt32.reduceToNat, Nat.reduceMod,
    hshift _ 24 (by omega), hshift _ 16 (by omega), hshift _ 8 (by omega), UInt32.toNat_ofNat', hfirst]
  rw [show b₃.toNat * 2 ^ 24 + b₂.toNat * 2 ^ 16 = (b₃.toNat * 2 ^ 8 + b₂.toNat) * 2 ^ 16 by ring, hsecond,
    show (b₃.toNat * 2 ^ 8 + b₂.toNat) * 2 ^ 16 + b₁.toNat * 2 ^ 8 =
      (b₃.toNat * 2 ^ 16 + b₂.toNat * 2 ^ 8 + b₁.toNat) * 2 ^ 8 by ring, hthird]
  exact (Nat.mod_eq_of_lt (by omega)).symm

theorem getD_of_length_four {bytes : Bytes} (h : bytes.length = 4) :
    [bytes.getD 0 0, bytes.getD 1 0, bytes.getD 2 0, bytes.getD 3 0] = bytes := by
  match bytes, h with
  | [b₃, b₂, b₁, b₀], _ => rfl

theorem be32_joinBytes (b₃ b₂ b₁ b₀ : UInt8) : be32 (joinBytes b₃ b₂ b₁ b₀) = [b₃, b₂, b₁, b₀] := by
  rw [joinBytes_eq, be32_ofNat]

end ByteCode
