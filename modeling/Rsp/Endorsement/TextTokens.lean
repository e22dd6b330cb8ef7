import Mathlib.Data.FinEnum
import Rsp.Endorsement.Text

/-!
# Tokens of the requirement language

What the parser reads from what the printer writes, for punctuation, hexadecimal digits, UUIDs, field paths and field values; and which UUIDs, paths and values the parser can return.
-/

namespace Rsp.ErdText

open RecursiveDescent Proto

/-! ### Punctuation -/

/-- Nothing is asked of the text that follows. -/
abbrev Anything (_ : Bytes) : Prop := True

/-- The text that follows begins with `c`. -/
def Next (c : UInt8) (rest : Bytes) : Prop := rest.head? = some c

theorem accepts_skipWhitespace : Accepts skipWhitespace [] () (Stops isspace) :=
  accepts_skipWhile (List.forall_mem_nil _)

theorem stops_cons {test : UInt8 → Bool} {c : UInt8} {rest : Bytes} (h : test c = false) : Stops test (c :: rest) := by
  intro x hx
  obtain rfl := Option.some.inj hx
  exact h

theorem Next.stops {test : UInt8 → Bool} {c : UInt8} {rest : Bytes} (h : Next c rest) (htest : test c = false) :
    Stops test rest := by
  intro x hx
  rw [h] at hx
  exact Option.some.inj hx ▸ htest

theorem accepts_peek {c : UInt8} : Accepts peek [] c (Next c) := by
  intro pos rest hrest
  have hpeek : peek ⟨pos, rest⟩ = .ok (rest.head?.getD 0, ⟨pos, rest⟩) := rfl
  rw [List.nil_append, hpeek, hrest]
  rfl

theorem accepts_expect_space {w : Bytes} {x : UInt8} (hw : ∀ y ∈ w, isspace y) (hx : isspace x = false) :
    Accepts (expect x) (w ++ [x]) () Anything := by
  refine (accepts_skipWhile hw).bind ?_ fun rest _ => stops_cons hx
  refine accepts_peek.bind_nil ?_ fun rest _ => rfl
  rw [if_neg (not_not_intro rfl)]
  exact accepts_advance

theorem accepts_expect {c : UInt8} (hc : isspace c = false) : Accepts (expect c) [c] () Anything :=
  accepts_expect_space (w := []) (List.forall_mem_nil _) hc

theorem accepts_closeWith_space {w : Bytes} {c : UInt8} (hw : ∀ x ∈ w, isspace x) (hc : isspace c = false) :
    Accepts (closeWith c) (w ++ [c]) () Anything :=
  (accepts_skipWhile hw).bind (accepts_expect hc) fun _ _ => stops_cons hc

theorem accepts_closeWith {c : UInt8} (hc : isspace c = false) : Accepts (closeWith c) [c] () Anything :=
  accepts_closeWith_space (w := []) (List.forall_mem_nil _) hc

/-- White space before what a parser would skip white space for anyway. -/
theorem accepts_space_append {α : Type} {p : Parser α} {w s : Bytes} {a : α} {next : Bytes → Prop}
    (hw : ∀ x ∈ w, isspace x) (h : Accepts (do skipWhitespace; p) s a next) :
    Accepts (do skipWhitespace; p) (w ++ s) a next := by
  intro pos rest hrest
  have hskip : skipWhitespace ⟨pos, w ++ s ++ rest⟩ = skipWhitespace ⟨pos + w.length, s ++ rest⟩ := by
    have hrun (c : Cursor UInt8) :
      skipWhitespace c = .ok ((), c.advance (c.rest.takeWhile isspace).length) := rfl
    rw [hrun, hrun, List.append_assoc, List.takeWhile_append_of_pos hw]
    simp only [Cursor.advance, List.length_append, List.drop_length_add_append, Nat.add_assoc]
  have hbind (c : Cursor UInt8) : (do skipWhitespace; p) c = (skipWhitespace c >>= fun result => p result.2) := rfl
  rw [hbind, hskip, ← hbind, h (pos + w.length) rest hrest, List.length_append, Nat.add_assoc]

/-! ### Hexadecimal digits -/

theorem hexPair_digits (b : UInt8) :
    ∃ high low, hexPair b = [high, low] ∧ isHexChar high ∧ isHexChar low ∧ high ≠ char '-' ∧ low ≠ char '-' ∧
      hexDigit high = some (b >>> 4) ∧ hexDigit low = some (b &&& 0x0F) ∧ ((b >>> 4) <<< 4) ||| (b &&& 0x0F) = b := by
  refine ⟨_, _, rfl, ?_⟩
  revert b
  decide +kernel

theorem isspace_of_isHexChar {c : UInt8} (h : isHexChar c = true) : isspace c = false := by
  revert c
  decide +kernel

theorem hexPairs_pairs (bytes : Bytes) : uuidToBytes.pairs (bytesToHex bytes) = .ok bytes := by
  induction bytes with
  | nil => rfl
  | cons b bytes ih =>
    obtain ⟨high, low, hpair, -, -, -, -, hhigh, hlow, hvalue⟩ := hexPair_digits b
    have hcons : bytesToHex (b :: bytes) = high :: low :: bytesToHex bytes := by
      rw [bytesToHex, List.flatMap_cons, hpair]
      rfl
    rw [hcons, uuidToBytes.pairs, ih, uuidToBytes.pairs.hexVal, uuidToBytes.pairs.hexVal, hhigh, hlow]
    exact congrArg (fun b => Except.ok (b :: bytes)) hvalue

theorem length_bytesToHex (bytes : Bytes) : (bytesToHex bytes).length = 2 * bytes.length := by
  induction bytes with
  | nil => rfl
  | cons b bytes ih =>
    rw [bytesToHex] at ih ⊢
    rw [List.flatMap_cons, List.length_append, ih, List.length_cons]
    have hpair : (hexPair b).length = 2 := rfl
    omega

theorem isHexChar_of_mem_bytesToHex {bytes : Bytes} {c : UInt8} (h : c ∈ bytesToHex bytes) :
    isHexChar c ∧ c ≠ char '-' := by
  obtain ⟨b, -, hc⟩ := List.mem_flatMap.mp h
  obtain ⟨high, low, hpair, hhigh, hlow, hhighDash, hlowDash, -⟩ := hexPair_digits b
  rw [hpair, List.mem_pair] at hc
  rcases hc with rfl | rfl
  · exact ⟨hhigh, hhighDash⟩
  · exact ⟨hlow, hlowDash⟩

theorem accepts_parseHexBytes (bytes : Bytes) : Accepts parseHexBytes (bytesToHex bytes) bytes (Stops isHexChar) := by
  intro pos rest hrest
  have hloop : ∀ pos, parseHexBytes.pairs pos (bytesToHex bytes ++ rest) =
      .ok (bytes, ⟨pos + (bytesToHex bytes).length, rest⟩) := by
    induction bytes with
    | nil =>
      intro pos
      cases rest with
      | nil => rfl
      | cons c rest =>
        have hstop : isHexChar c = false := hrest c rfl
        have hnil : bytesToHex [] ++ c :: rest = c :: rest := rfl
        rw [hnil, parseHexBytes.pairs.eq_def]
        dsimp only
        rw [hstop]
        rfl
    | cons b bytes ih =>
      intro pos
      obtain ⟨high, low, hpair, hhighHex, hlowHex, -, -, hhigh, hlow, hvalue⟩ := hexPair_digits b
      have hcons : bytesToHex (b :: bytes) = high :: low :: bytesToHex bytes := by
        rw [bytesToHex, List.flatMap_cons, hpair]
        rfl
      have hpos : pos + 2 + (bytesToHex bytes).length = pos + (high :: low :: bytesToHex bytes).length := by
        rw [List.length_cons, List.length_cons]
        omega
      rw [hcons, List.cons_append, List.cons_append, parseHexBytes.pairs.eq_def]
      dsimp only
      rw [hhighHex, hlowHex, hexValue, hexValue, hhigh, hlow, ih (pos + 2), ← hpos]
      exact congrArg (fun b => Except.ok (b :: bytes, _)) hvalue
  exact hloop pos

/-! ### UUIDs -/

theorem hexGroups_cons (size : Nat) (sizes : List Nat) (bytes : Bytes) :
    hexGroups (size :: sizes) bytes = bytesToHex (bytes.take size) :: hexGroups sizes (bytes.drop size) := rfl


/-- The dashes stand where the parser looks for them, and between them are digits. -/
theorem isUUID_hexGroups (sizes : List Nat) (bytes rest : Bytes) (hsizes : sizes ≠ []) (hlength : bytes.length = sizes.sum) :
    isUUID.groups (sizes.map (2 * ·)) (List.intercalate (ascii "-") (hexGroups sizes bytes) ++ rest) = true := by
  induction sizes generalizing bytes with
  | nil => exact absurd rfl hsizes
  | cons size sizes ih =>
    rw [List.sum_cons] at hlength
    have htake : (bytesToHex (bytes.take size)).length = 2 * size := by
      rw [length_bytesToHex, List.length_take]
      omega
    have hhex : (bytesToHex (bytes.take size)).all isHexChar := by
      rw [List.all_eq_true]
      exact fun c hc => (isHexChar_of_mem_bytesToHex hc).1
    rw [List.map_cons, hexGroups_cons, isUUID.groups]
    cases sizes with
    | nil =>
      have hsingle : hexGroups [] (bytes.drop size) = [] := rfl
      rw [hsingle, List.intercalate_singleton, ← htake, List.take_left, hhex]
      simp
    | cons next sizes =>
      have hdrop : (bytes.drop size).length = (next :: sizes).sum := by
        rw [List.length_drop]
        omega
      have hrest := ih (bytes.drop size) (List.cons_ne_nil _ _) hdrop
      rw [hexGroups_cons, List.intercalate_cons_cons, ← hexGroups_cons, List.append_assoc, List.append_assoc, ← htake,
        List.take_left, hhex, List.drop_left, ← List.drop_drop, List.drop_left]
      have hdash (tail : Bytes) : (ascii "-" ++ tail).head? = some (char '-') ∧ (ascii "-" ++ tail).drop 1 = tail :=
        ⟨rfl, rfl⟩
      rw [(hdash _).1, (hdash _).2, hrest]
      simp

theorem filter_hexGroups (sizes : List Nat) (bytes : Bytes) (hlength : bytes.length = sizes.sum) :
    (List.intercalate (ascii "-") (hexGroups sizes bytes)).filter (· ≠ char '-') = bytesToHex bytes := by
  have hkeep (part : Bytes) : (bytesToHex part).filter (· ≠ char '-') = bytesToHex part := by
    rw [List.filter_eq_self]
    exact fun c hc => decide_eq_true (isHexChar_of_mem_bytesToHex hc).2
  induction sizes generalizing bytes with
  | nil =>
    obtain rfl := List.length_eq_zero_iff.mp hlength
    rfl
  | cons size sizes ih =>
    rw [List.sum_cons] at hlength
    have hdrop : (bytes.drop size).length = sizes.sum := by
      rw [List.length_drop]
      omega
    have hsplit : bytesToHex (bytes.take size) ++ bytesToHex (bytes.drop size) = bytesToHex bytes := by
      rw [bytesToHex, bytesToHex, ← List.flatMap_append, List.take_append_drop, bytesToHex]
    have hrest := ih (bytes.drop size) hdrop
    rw [hexGroups_cons]
    cases sizes with
    | nil =>
      obtain hnil := List.length_eq_zero_iff.mp hdrop
      rw [hnil] at hsplit
      have hsingle : hexGroups [] (bytes.drop size) = [] := rfl
      rw [hsingle, List.intercalate_singleton, hkeep, ← hsplit]
      exact (List.append_nil _).symm
    | cons next sizes =>
      rw [hexGroups_cons, List.intercalate_cons_cons, ← hexGroups_cons, List.filter_append, List.filter_append, hkeep,
        hrest, ← hsplit]
      exact congrArg (· ++ _) (List.append_nil _)

theorem length_hexGroups (sizes : List Nat) (bytes : Bytes) (hlength : bytes.length = sizes.sum) :
    (List.intercalate (ascii "-") (hexGroups sizes bytes)).length = 2 * bytes.length + (sizes.length - 1) := by
  induction sizes generalizing bytes with
  | nil =>
    obtain rfl := List.length_eq_zero_iff.mp hlength
    rfl
  | cons size sizes ih =>
    rw [List.sum_cons] at hlength
    have hdrop : (bytes.drop size).length = sizes.sum := by
      rw [List.length_drop]
      omega
    have hrest := ih (bytes.drop size) hdrop
    rw [hexGroups_cons]
    cases sizes with
    | nil =>
      have hsingle : hexGroups [] (bytes.drop size) = [] := rfl
      rw [hsingle, List.intercalate_singleton, length_bytesToHex, List.length_take]
      simp only [List.sum_nil] at hlength
      simp only [List.length_cons, List.length_nil]
      omega
    | cons next sizes =>
      rw [hexGroups_cons, List.intercalate_cons_cons, ← hexGroups_cons, List.length_append, List.length_append, hrest,
        length_bytesToHex, List.length_take, List.length_drop]
      have hdash : (ascii "-").length = 1 := rfl
      simp only [List.length_cons]
      omega

/-- A UUID begins with a digit. -/
theorem stops_of_isUUID {text : Bytes} (h : isUUID text = true) : Stops isspace text := by
  have hgroup : 8 ≤ text.length ∧ (text.take 8).all isHexChar = true := by
    rw [isUUID, kGroups, isUUID.groups, decide_eq_true_eq] at h
    exact ⟨h.1, h.2.1⟩
  cases text with
  | nil => exact absurd hgroup.1 (by decide)
  | cons c text =>
    have hc : isHexChar c = true := List.all_eq_true.mp hgroup.2 c (List.mem_cons_self)
    exact stops_cons (isspace_of_isHexChar hc)

theorem accepts_parseUUIDBytes {bytes : Bytes} (h : bytes.length = 16) :
    ∃ text, bytesToUUID bytes = .ok text ∧ (∀ rest, Stops isspace (text ++ rest)) ∧
      Accepts parseUUIDBytes text bytes Anything := by
  refine ⟨List.intercalate (ascii "-") (hexGroups kGroupSizes bytes), if_neg (not_not_intro h), ?_, ?_⟩
  · exact fun rest => stops_of_isUUID (isUUID_hexGroups kGroupSizes bytes rest (List.cons_ne_nil _ _) h)
  have hlength := length_hexGroups kGroupSizes bytes h
  have hfilter := filter_hexGroups kGroupSizes bytes h
  have hgroups := fun rest => isUUID_hexGroups kGroupSizes bytes rest (List.cons_ne_nil _ _) h
  generalize List.intercalate (ascii "-") (hexGroups kGroupSizes bytes) = text at hlength hfilter hgroups
  have htext : text.length = 36 := by
    rw [hlength, h]
    rfl
  intro pos rest _
  have hisUUID : isUUID (text ++ rest) = true := hgroups rest
  have hbytes : uuidToBytes text = .ok bytes := by
    have hcount : ¬ (bytesToHex bytes).length ≠ 32 := by
      rw [length_bytesToHex, h]
      simp
    rw [uuidToBytes, hfilter, if_neg hcount, hexPairs_pairs]
  have hrun : parseUUIDBytes ⟨pos, text ++ rest⟩ =
      (uuidToBytes ((text ++ rest).take 36) >>= fun b => .ok (b, Cursor.advance ⟨pos, text ++ rest⟩ 36)) := by
    unfold parseUUIDBytes
    rw [bind_of_ok (rfl : Parser.rest _ = .ok (text ++ rest, _)), hisUUID]
    rfl
  rw [hrun, ← htext, List.take_left, hbytes, Cursor.advance]
  dsimp only
  rw [List.drop_left]
  rfl

theorem pairs_length {hex bytes : Bytes} (h : uuidToBytes.pairs hex = .ok bytes) : bytes.length = hex.length / 2 := by
  induction hex using uuidToBytes.pairs.induct generalizing bytes with
  | case1 high low hex ih =>
    rw [uuidToBytes.pairs] at h
    obtain ⟨x, -, h⟩ := bind_eq_ok.mp h
    obtain ⟨y, -, h⟩ := bind_eq_ok.mp h
    obtain ⟨tail, htail, h⟩ := bind_eq_ok.mp h
    obtain rfl := Except.ok.inj h
    rw [List.length_cons, ih htail, List.length_cons, List.length_cons]
    omega
  | case2 hex hshort =>
    rw [uuidToBytes.pairs.eq_def] at h
    split at h
    · exact absurd rfl (hshort _ _ _)
    · obtain rfl := Except.ok.inj h
      rcases hex with _ | ⟨c, _ | ⟨d, hex⟩⟩
      · rfl
      · simp
      · exact absurd rfl (hshort c d hex)

theorem ensures_parseUUIDBytes : Ensures parseUUIDBytes fun bytes => bytes.length = 16 := by
  refine ensures_bind fun text => ?_
  split_ifs with hisUUID
  · exact ensures_fail_bind
  · refine ensures_bind fun _ => ?_
    intro c bytes c' h
    obtain ⟨result, hresult, hpure⟩ := bind_eq_ok.mp h
    obtain ⟨rfl, -⟩ := Prod.mk.inj (Except.ok.inj hpure)
    rw [uuidToBytes] at hresult
    split_ifs at hresult with hcount
    rw [pairs_length hresult, not_not.mp hcount]

/-! ### Field paths -/

/-- The characters of a segment. -/
def isSegmentChar (c : UInt8) : Bool := c ≠ char '.' ∧ endsPath c = false

def IsSegment (segment : Bytes) : Prop := segment ≠ [] ∧ ∀ c ∈ segment, isSegmentChar c

/-- The paths that a text can hold: the first character ends the white space before the path. -/
structure IsPath (path : ERDASTFieldPath) : Prop where
  nonempty : path.segments ≠ []
  segment : ∀ segment ∈ path.segments, IsSegment segment
  start : Stops isspace path.segments.flatten

theorem loop_segmentChar {segments : List Bytes} {segment text : Bytes} {c : UInt8} (h : isSegmentChar c) (pos : Nat) :
    parseFieldPath.loop segments segment pos (c :: text) =
      parseFieldPath.loop segments (segment ++ [c]) (pos + 1) text := by
  obtain ⟨hdot, hends⟩ := of_decide_eq_true h
  rw [parseFieldPath.loop, if_neg hdot, hends, if_neg Bool.false_ne_true]

theorem loop_dot {segments : List Bytes} {segment text : Bytes} (h : segment ≠ []) (pos : Nat) :
    parseFieldPath.loop segments segment pos (char '.' :: text) =
      parseFieldPath.loop (segments ++ [segment]) [] (pos + 1) text := by
  rw [parseFieldPath.loop, if_pos rfl, if_neg]
  rwa [List.isEmpty_iff]

theorem loop_ends {segments : List Bytes} {segment rest : Bytes} (h : Stops (fun c => !endsPath c) rest) (pos : Nat) :
    parseFieldPath.loop segments segment pos rest = .ok ((segments, segment), ⟨pos, rest⟩) := by
  cases rest with
  | nil => rfl
  | cons c rest =>
    have hends : endsPath c = true := by simpa using h c rfl
    have hdot : c ≠ char '.' := by
      rintro rfl
      exact absurd hends (by decide)
    rw [parseFieldPath.loop, if_neg hdot, if_pos hends]

theorem loop_segment {segments : List Bytes} {segment s : Bytes} (hs : ∀ c ∈ s, isSegmentChar c) (pos : Nat)
    (text : Bytes) :
    parseFieldPath.loop segments segment pos (s ++ text) =
      parseFieldPath.loop segments (segment ++ s) (pos + s.length) text := by
  induction s generalizing segment pos with
  | nil => rw [List.nil_append, List.append_nil, List.length_nil, Nat.add_zero]
  | cons c s ih =>
    rw [List.forall_mem_cons] at hs
    rw [List.cons_append, loop_segmentChar hs.1, ih hs.2, List.append_assoc, List.length_cons, List.cons_append,
      List.nil_append, Nat.add_right_comm, Nat.add_assoc]

/-- What is printed for the segments is read up to the last of them, which the end of the path will close. -/
theorem loop_intercalate (segment : Bytes) (others : List Bytes) (hsegments : ∀ s ∈ segment :: others, IsSegment s)
    {rest : Bytes} (hrest : Stops (fun c => !endsPath c) rest) (before : List Bytes) (pos : Nat) :
    ∃ init last, before ++ segment :: others = init ++ [last] ∧ last ≠ [] ∧
      parseFieldPath.loop before [] pos (List.intercalate (ascii ".") (segment :: others) ++ rest) =
        .ok ((init, last), ⟨pos + (List.intercalate (ascii ".") (segment :: others)).length, rest⟩) := by
  induction others generalizing segment before pos with
  | nil =>
    obtain ⟨hne, hchars⟩ := hsegments segment List.mem_cons_self
    refine ⟨before, segment, rfl, hne, ?_⟩
    rw [List.intercalate_singleton, loop_segment hchars, List.nil_append, loop_ends hrest]
  | cons next others ih =>
    rw [List.forall_mem_cons] at hsegments
    obtain ⟨⟨hne, hchars⟩, hothers⟩ := hsegments
    obtain ⟨init, last, hsplit, hlast, hloop⟩ := ih next hothers (before ++ [segment]) (pos + segment.length + 1)
    refine ⟨init, last, ?_, hlast, ?_⟩
    · rw [← hsplit, List.append_assoc]
      rfl
    · have hdot (tail : Bytes) : ascii "." ++ tail = char '.' :: tail := rfl
      rw [List.intercalate_cons_cons, List.append_assoc, List.append_assoc, loop_segment hchars, List.nil_append, hdot,
        loop_dot hne, hloop, List.append_assoc, hdot, List.length_append, List.length_cons]
      simp only [Except.ok.injEq, Prod.mk.injEq, true_and, Cursor.mk.injEq, and_true]
      omega

theorem head?_intercalate {sep segment : Bytes} {others : List Bytes} (h : segment ≠ []) :
    (List.intercalate sep (segment :: others)).head? = (segment :: others).flatten.head? := by
  obtain ⟨c, segment, rfl⟩ := List.exists_cons_of_ne_nil h
  cases others with
  | nil => rw [List.intercalate_singleton, List.flatten_cons, List.flatten_nil, List.append_nil]
  | cons next others =>
    rw [List.intercalate_cons_cons, List.flatten_cons]
    rfl

theorem accepts_parseFieldPath {path : ERDASTFieldPath} (h : IsPath path) :
    Accepts parseFieldPath (appendFieldPath path) path (Stops fun c => !endsPath c) := by
  obtain ⟨hnonempty, hsegments, hstart⟩ := h
  obtain ⟨segment, others, hpath⟩ := List.exists_cons_of_ne_nil hnonempty
  obtain ⟨segments⟩ := path
  dsimp only at hpath hsegments hstart
  subst hpath
  have hne : segment ≠ [] := (hsegments segment List.mem_cons_self).1
  have hstops (rest : Bytes) : Stops isspace (appendFieldPath ⟨segment :: others⟩ ++ rest) := by
    have hhead : (appendFieldPath ⟨segment :: others⟩ ++ rest).head? = (segment :: others).flatten.head? := by
      rw [appendFieldPath, List.head?_append, head?_intercalate hne]
      obtain ⟨c, segment, rfl⟩ := List.exists_cons_of_ne_nil hne
      rfl
    intro x hx
    rw [hhead] at hx
    exact hstart x hx
  refine accepts_skipWhitespace.bind_nil ?_ fun rest _ => hstops rest
  intro pos rest hrest
  obtain ⟨init, last, hsplit, hlast, hloop⟩ := loop_intercalate segment others hsegments hrest [] pos
  rw [List.nil_append] at hsplit
  have hlast' : last.isEmpty = false := by
    rw [Bool.eq_false_iff, ne_eq, List.isEmpty_iff]
    exact hlast
  rw [bind_of_ok hloop, hsplit]
  dsimp only
  rw [hlast', if_neg Bool.false_ne_true, if_neg (by simp)]
  rfl

/-- What the loop has read, with the dots left out. -/
theorem loop_flatten {segments result : List Bytes} {segment last text : Bytes} {pos : Nat} {c' : Cursor UInt8}
    (h : parseFieldPath.loop segments segment pos text = .ok ((result, last), c')) :
    result.flatten ++ last =
      segments.flatten ++ segment ++ (text.takeWhile (fun c => !endsPath c)).filter (· ≠ char '.') := by
  induction text generalizing segments segment pos with
  | nil =>
    obtain ⟨hpair, -⟩ := Prod.mk.inj (Except.ok.inj h)
    obtain ⟨rfl, rfl⟩ := Prod.mk.inj hpair
    exact (List.append_nil _).symm
  | cons c text ih =>
    rw [parseFieldPath.loop] at h
    by_cases hdot : c = char '.'
    · rw [if_pos hdot] at h
      split_ifs at h
      have hends : (!endsPath c) = true := by rw [hdot]; decide
      rw [ih h, List.takeWhile_cons_of_pos (p := fun c => !endsPath c) hends, List.filter_cons_of_neg (by simpa using hdot), List.flatten_append,
        List.flatten_singleton, List.append_nil]
    · rw [if_neg hdot] at h
      by_cases hends : endsPath c = true
      · rw [if_pos hends] at h
        obtain ⟨hpair, -⟩ := Prod.mk.inj (Except.ok.inj h)
        obtain ⟨rfl, rfl⟩ := Prod.mk.inj hpair
        rw [List.takeWhile_cons_of_neg (by simpa using hends)]
        exact (List.append_nil _).symm
      · rw [if_neg hends] at h
        rw [ih h, List.takeWhile_cons_of_pos (by simpa using hends), List.filter_cons_of_pos (by simpa using hdot),
          List.append_assoc, List.append_assoc, List.append_assoc]
        rfl

theorem loop_segments {segments result : List Bytes} {segment last text : Bytes} {pos : Nat} {c' : Cursor UInt8}
    (h : parseFieldPath.loop segments segment pos text = .ok ((result, last), c'))
    (hsegments : ∀ s ∈ segments, IsSegment s) (hsegment : ∀ c ∈ segment, isSegmentChar c) :
    (∀ s ∈ result, IsSegment s) ∧ ∀ c ∈ last, isSegmentChar c := by
  induction text generalizing segments segment pos with
  | nil =>
    obtain ⟨hpair, -⟩ := Prod.mk.inj (Except.ok.inj h)
    obtain ⟨rfl, rfl⟩ := Prod.mk.inj hpair
    exact ⟨hsegments, hsegment⟩
  | cons c text ih =>
    rw [parseFieldPath.loop] at h
    split_ifs at h with hdot hempty hends
    · refine ih h ?_ (List.forall_mem_nil _)
      rw [List.forall_mem_append, List.forall_mem_singleton]
      exact ⟨hsegments, fun hnil => hempty (List.isEmpty_iff.mpr hnil), hsegment⟩
    · obtain ⟨hpair, -⟩ := Prod.mk.inj (Except.ok.inj h)
      obtain ⟨rfl, rfl⟩ := Prod.mk.inj hpair
      exact ⟨hsegments, hsegment⟩
    · refine ih h hsegments ?_
      rw [List.forall_mem_append, List.forall_mem_singleton]
      exact ⟨hsegment, decide_eq_true ⟨hdot, by simpa using hends⟩⟩

/-- A path does not begin with a dot, and white space before it has been skipped. -/
theorem loop_start {result : List Bytes} {last text : Bytes} {pos : Nat} {c' : Cursor UInt8}
    (h : parseFieldPath.loop [] [] pos text = .ok ((result, last), c')) (htext : Stops isspace text) :
    Stops isspace (result.flatten ++ last) := by
  rw [loop_flatten h]
  cases text with
  | nil => exact fun x hx => by cases hx
  | cons c text =>
    intro x hx
    by_cases hdot : c = char '.'
    · rw [parseFieldPath.loop, if_pos hdot] at h
      cases h
    by_cases hends : (!endsPath c) = true
    · rw [List.takeWhile_cons_of_pos (p := fun c => !endsPath c) hends, List.filter_cons_of_pos (by simpa using hdot)] at hx
      obtain rfl := Option.some.inj hx
      exact htext c rfl
    · rw [List.takeWhile_cons_of_neg (p := fun c => !endsPath c) hends] at hx
      cases hx

theorem stops_skipWhitespace {c c' : Cursor UInt8} {u : Unit} (h : skipWhitespace c = .ok (u, c')) :
    Stops isspace c'.rest := by
  have hrun : skipWhitespace c = .ok ((), c.advance (c.rest.takeWhile isspace).length) := rfl
  obtain ⟨-, rfl⟩ := Prod.mk.inj (Except.ok.inj (hrun.symm.trans h))
  exact stops_drop_takeWhile isspace c.rest

theorem ensures_parseFieldPath : Ensures parseFieldPath IsPath := by
  intro c path c' h
  obtain ⟨_, start, hskip, h⟩ := bind_ok.mp h
  obtain ⟨⟨segments, last⟩, stop, hloop, h⟩ := bind_ok.mp h
  obtain ⟨hsegments, hlast⟩ := loop_segments hloop (List.forall_mem_nil _) (List.forall_mem_nil _)
  have hstart := loop_start hloop (stops_skipWhitespace hskip)
  dsimp only at h
  by_cases hempty : last = []
  · subst hempty
    rw [List.isEmpty_nil, if_pos rfl] at h
    split_ifs at h with hnil
    · exact absurd h (by rintro ⟨⟩)
    · obtain ⟨rfl, -⟩ := pure_ok.mp h
      rw [List.append_nil] at hstart
      exact ⟨fun heq => hnil (List.isEmpty_iff.mpr heq), hsegments, hstart⟩
  · have hpath : (if last.isEmpty then segments else segments ++ [last]) = segments ++ [last] :=
      if_neg fun hnil => hempty (List.isEmpty_iff.mp hnil)
    rw [hpath, if_neg (by simp)] at h
    obtain ⟨rfl, -⟩ := pure_ok.mp h
    refine ⟨by simp, ?_, ?_⟩
    · rw [List.forall_mem_append, List.forall_mem_singleton]
      exact ⟨hsegments, hempty, hlast⟩
    · rwa [List.flatten_append, List.flatten_singleton]

/-! ### Numbers -/

/-- The number that a string of decimal digits denotes. -/
def digitsValue (digits : Bytes) : Nat := digits.foldl (fun n c => 10 * n + (c - char '0').toNat) 0

theorem toNat_char {c : Char} (h : c.isDigit) : (char c).toNat = c.toNat := by
  obtain ⟨-, hle⟩ := Char.isDigit_iff_toNat.mp h
  exact UInt8.toNat_ofNat_of_lt' (lt_of_le_of_lt hle (by decide))

theorem isdigit_char {c : Char} (h : c.isDigit) : isdigit (char c) ∧ (char c - char '0').toNat = c.toNat - '0'.toNat := by
  obtain ⟨hge, hle⟩ := Char.isDigit_iff_toNat.mp h
  have hzero : '0'.toNat = 48 := rfl
  have hnine : '9'.toNat = 57 := rfl
  have hchar := toNat_char h
  have hlow : char '0' ≤ char c := by
    rw [UInt8.le_iff_toNat_le, hchar]
    exact hge
  refine ⟨decide_eq_true ⟨hlow, ?_⟩, ?_⟩
  · rw [UInt8.le_iff_toNat_le, hchar]
    exact hle
  · rw [UInt8.toNat_sub_of_le _ _ hlow, hchar]
    rfl

theorem isdigit_of_mem_decimal {n : Nat} {c : UInt8} (h : c ∈ decimal n) : isdigit c := by
  obtain ⟨d, hd, rfl⟩ := List.mem_map.mp h
  exact (isdigit_char (Nat.isDigit_of_mem_toDigits (by omega) (by omega) hd)).1

theorem decimal_ne_nil (n : Nat) : decimal n ≠ [] := by
  rw [decimal, ne_eq, List.map_eq_nil_iff]
  exact Nat.toDigits_ne_nil

theorem digitsValue_decimal (n : Nat) : digitsValue (decimal n) = n := by
  have hdigits : ∀ c ∈ Nat.toDigits 10 n, c.isDigit := fun c hc =>
    Nat.isDigit_of_mem_toDigits (by omega) (by omega) hc
  have hvalue : Nat.ofDigitChars 10 (Nat.toDigits 10 n) 0 = n := Nat.ofDigitChars_toDigits (by omega) (by omega)
  rw [digitsValue, decimal, List.foldl_map]
  conv_rhs => rw [← hvalue, Nat.ofDigitChars]
  refine List.foldl_ext _ _ _ ?_
  intro sofar c hc
  rw [(isdigit_char (hdigits c hc)).2]

/-- The machine integers follow the natural numbers. -/
theorem foldl_uint64 (digits : Bytes) :
    digits.foldl (fun (n : UInt64) c => n * 10 + (c - char '0').toUInt64) 0 = .ofNat (digitsValue digits) := by
  refine List.foldl_hom UInt64.ofNat ?_
  intro n c
  have hten : UInt64.ofNat 10 = 10 := rfl
  have hdigit : UInt64.ofNat (c - char '0').toNat = (c - char '0').toUInt64 := UInt64.ofNat_uInt8ToNat _
  rw [UInt64.ofNat_add, UInt64.ofNat_mul, hten, UInt64.mul_comm, hdigit]

theorem foldl_int64 (digits : Bytes) :
    digits.foldl (fun (n : Int64) c => n * 10 + .ofNat (c - char '0').toNat) 0 = .ofNat (digitsValue digits) := by
  refine List.foldl_hom Int64.ofNat ?_
  intro n c
  have hten : Int64.ofNat 10 = 10 := rfl
  rw [Int64.ofNat_add, Int64.ofNat_mul, hten, Int64.mul_comm]

def sign (negative : Bool) : Bytes := if negative then [char '-'] else []

def signed (negative : Bool) (n : Nat) : Int := if negative then -n else n

theorem toInt64_signed (negative : Bool) (n : Nat) :
    (if negative then -(UInt64.ofNat n).toInt64 else (UInt64.ofNat n).toInt64) = .ofInt (signed negative n) := by
  have hcast : (UInt64.ofNat n).toInt64 = .ofInt n := by
    rw [Int64.ofInt_eq_ofNat]
    rfl
  rw [hcast]
  cases negative with
  | true => rw [if_pos rfl, ← Int64.ofInt_neg, signed, if_pos rfl]
  | false => rw [if_neg Bool.false_ne_true, signed, if_neg Bool.false_ne_true]

theorem accepts_parseSign (negative : Bool) :
    Accepts parseSign (sign negative) negative (fun rest => negative = false → rest.head? ≠ some (char '-')) := by
  cases negative with
  | true =>
    intro pos rest _
    rfl
  | false =>
    intro pos rest hrest
    show parseSign ⟨pos, rest⟩ = _
    unfold parseSign
    rw [bind_of_ok (rfl : Parser.rest _ = .ok (rest, ⟨pos, rest⟩)), if_neg (hrest rfl)]
    rfl

/-! ### Field values -/

/-- The values that a text can hold: a string literal cannot contain a quote. -/
def IsValue : ERDASTFieldValue → Prop
  | .notSet => False
  | .stringValue value => char '"' ∉ value
  | _ => True

theorem accepts_parseString {value : Bytes} (h : char '"' ∉ value) :
    Accepts parseString (ascii "\"" ++ value ++ ascii "\"") (.stringValue value) Anything := by
  have hquote : Accepts (Parser.advance 1 : Parser Unit) (ascii "\"") () Anything := accepts_advance
  have hbody : Accepts (Parser.takeWhile (· ≠ char '"') : Parser Bytes) value value (Stops (· ≠ char '"')) := by
    refine accepts_takeWhile fun x hx => decide_eq_true ?_
    rintro rfl
    exact h hx
  rw [List.append_assoc]
  refine hquote.bind (hbody.bind ?_ fun rest _ => stops_cons (by decide)) fun _ _ => trivial
  refine accepts_rest_bind fun rest _ => ?_
  have hrest : (ascii "\"" ++ rest).isEmpty = false := rfl
  rw [hrest, if_neg Bool.false_ne_true]
  exact hquote.bind_end accepts_pure fun _ _ => trivial

theorem not_of_isdigit {c : UInt8} (h : isdigit c) :
    isspace c = false ∧ c ≠ char '-' ∧ c ≠ char '"' ∧ c ≠ char 'x' ∧ c ≠ char 'X' ∧ c ≠ char 'e' ∧
      toupper c ≠ char 'T' ∧ toupper c ≠ char 'F' := by
  revert c
  decide +kernel

section

variable {digits : Bytes} (hne : digits ≠ []) (hdigits : ∀ c ∈ digits, isdigit c)

include hdigits in
theorem accepts_digits : Accepts (Parser.takeWhile isdigit : Parser Bytes) digits digits (Stops isdigit) :=
  accepts_takeWhile hdigits

include hne hdigits in
theorem head?_digits_append (rest : Bytes) :
    (digits ++ rest).head? ≠ some (char '-') ∧ (digits ++ rest).head?.any isdigit = true ∧
      Stops isspace (digits ++ rest) := by
  obtain ⟨c, more, rfl⟩ := List.exists_cons_of_ne_nil hne
  have hc := hdigits c List.mem_cons_self
  obtain ⟨hspace, hminus, -⟩ := not_of_isdigit hc
  exact ⟨fun heq => hminus (Option.some.inj heq), hc, stops_cons hspace⟩

include hne hdigits in
theorem stops_sign_append (negative : Bool) (rest : Bytes) : Stops isspace (sign negative ++ digits ++ rest) := by
  cases negative with
  | true => exact stops_cons (by decide)
  | false => exact (head?_digits_append hne hdigits rest).2.2

include hne hdigits in
/-- The number of an `enum(N)`, reduced to 32 bits. -/
theorem accepts_parseEnum_digits (negative : Bool) :
    Accepts parseEnum (ascii "enum(" ++ (sign negative ++ digits) ++ ascii ")")
      (.enumValue (.ofInt (signed negative (digitsValue digits)))) Anything := by
  have hopen : Accepts (Parser.advance 5 : Parser Unit) (ascii "enum(") () Anything := accepts_advance
  have hclose : Accepts (closeWith (char ')')) (ascii ")") () Anything := accepts_closeWith (by decide)
  have hcast : (Int64.ofNat (digitsValue digits)).toInt32 = .ofInt (digitsValue digits) := by
    rw [← Int64.ofInt_eq_ofNat, Int64.toInt32_ofInt]
  rw [List.append_assoc]
  refine hopen.bind (accepts_skipWhitespace.bind_nil ?_ fun rest _ => ?_) fun _ _ => trivial
  · rw [List.append_assoc]
    refine (accepts_parseSign negative).bind ((accepts_digits hdigits).bind ?_ fun _ _ => stops_cons (by decide))
      fun rest _ _ => ?_
    · refine hclose.bind_end (accepts_pure_of_eq ?_) fun _ _ => trivial
      rw [foldl_int64]
      cases negative with
      | true => rw [if_pos rfl, Int64.toInt32_neg, hcast, ← Int32.ofInt_neg, signed, if_pos rfl]
      | false => rw [if_neg Bool.false_ne_true, hcast, signed, if_neg Bool.false_ne_true]
    · rw [List.append_assoc]
      exact (head?_digits_append hne hdigits _).1
  · rw [List.append_assoc]
    exact stops_sign_append hne hdigits negative _

/-- What follows a signed number: no further digit, and no suffix if it has no sign. -/
def EndsNumber (negative : Bool) (rest : Bytes) : Prop :=
  Stops isdigit rest ∧ (negative = false → rest.head? ≠ some (char 'u') ∧ rest.head? ≠ some (char 'U'))

theorem endsNumber_of_not_alnum {rest : Bytes} (h : Stops isalnum rest) (negative : Bool) : EndsNumber negative rest := by
  refine ⟨fun c hc => ?_, fun _ => ⟨fun hu => ?_, fun hU => ?_⟩⟩
  · have hnot := h c hc
    simp only [isalnum, Bool.decide_or, Bool.or_eq_false_iff] at hnot
    simpa using hnot.1
  · exact absurd (h _ hu) (by decide)
  · exact absurd (h _ hU) (by decide)

include hne hdigits in
/-- A signed number, reduced to 64 bits. -/
theorem accepts_parseInteger_digits (negative : Bool) :
    Accepts parseInteger (sign negative ++ digits) (.intValue (.ofInt (signed negative (digitsValue digits))))
      (EndsNumber negative) := by
  refine accepts_get_bind fun start => ?_
  refine (accepts_parseSign negative).bind (accepts_rest_bind fun rest hrest => ?_) fun rest _ _ =>
    (head?_digits_append hne hdigits rest).1
  rw [(head?_digits_append hne hdigits rest).2.1, Bool.not_true, if_neg Bool.false_ne_true]
  refine (accepts_digits hdigits).bind_end (accepts_rest_bind fun rest' heq => ?_) fun _ heq => heq ▸ hrest.1
  subst heq
  rw [List.nil_append, foldl_uint64, toInt64_signed, if_neg]
  · exact accepts_pure
  · rw [Bool.and_eq_true, Bool.or_eq_true, decide_eq_true_eq, decide_eq_true_eq, Bool.not_eq_true']
    rintro ⟨hpositive, hu | hU⟩
    · exact (hrest.2 hpositive).1 hu
    · exact (hrest.2 hpositive).2 hU

include hne hdigits in
/-- A number that ends in `u`, reduced to 64 bits. -/
theorem accepts_parseInteger_suffix {suffix : UInt8} (hsuffix : suffix = char 'u' ∨ suffix = char 'U') :
    Accepts parseInteger (digits ++ [suffix]) (.uintValue (.ofNat (digitsValue digits))) Anything := by
  have hskip : Accepts (Parser.advance 1 : Parser Unit) [suffix] () Anything := accepts_advance
  refine accepts_get_bind fun start => ?_
  refine (accepts_parseSign false).bind_nil (accepts_rest_bind fun rest _ => ?_) fun rest _ _ => ?_
  · rw [List.append_assoc, (head?_digits_append hne hdigits _).2.1, Bool.not_true, if_neg Bool.false_ne_true]
    refine (accepts_digits hdigits).bind (accepts_rest_bind fun rest _ => ?_) fun _ _ => stops_cons ?_
    · have hnext : (!false && (decide (([suffix] ++ rest).head? = some (char 'u')) ||
          decide (([suffix] ++ rest).head? = some (char 'U')))) = true := by
        rcases hsuffix with rfl | rfl <;> rfl
      rw [if_pos hnext]
      exact hskip.bind_end (accepts_pure_of_eq (by rw [foldl_uint64])) fun _ _ => trivial
    · rcases hsuffix with rfl | rfl <;> decide
  · rw [List.append_assoc]
    exact (head?_digits_append hne hdigits _).1

end

theorem signedDecimal_eq (n : Int) : signedDecimal n = sign (decide (n < 0)) ++ decimal n.natAbs := by
  unfold signedDecimal sign
  by_cases hneg : n < 0
  · rw [if_pos hneg, decide_eq_true hneg, if_pos rfl]
    rfl
  · rw [if_neg hneg, decide_eq_false hneg, if_neg Bool.false_ne_true]
    rfl

theorem signed_natAbs (n : Int) : signed (decide (n < 0)) n.natAbs = n := by
  unfold signed
  by_cases hneg : n < 0
  · rw [decide_eq_true hneg, if_pos rfl]
    omega
  · rw [decide_eq_false hneg, if_neg Bool.false_ne_true]
    omega

theorem startsWithCI_of_ne {w c : UInt8} {word text : Bytes} (h : toupper c ≠ toupper w) :
    startsWithCI (w :: word) (c :: text) = false := by
  simp [startsWithCI, h]

theorem startsWithCI_of_map {word s : Bytes} (h : s.map toupper = word.map toupper) (rest : Bytes) :
    startsWithCI word (s ++ rest) = true := by
  have hlength : s.length = word.length := by
    rw [← List.length_map toupper, h, List.length_map]
  rw [startsWithCI, ← hlength, List.take_left, h]
  simp

theorem startsWithCI_append (word rest : Bytes) : startsWithCI word (word ++ rest) = true :=
  startsWithCI_of_map rfl rest

/-- The first letter of a constant, in either case. -/
theorem ne_of_toupper {x : UInt8} (h : toupper x = char 'T' ∨ toupper x = char 'F') :
    x ≠ char '"' ∧ x ≠ char '0' ∧ isspace x = false ∧ x ≠ char ')' := by
  revert x
  decide +kernel

theorem startsWithWord_of_ne {w c : UInt8} {word text : Bytes} (h : toupper c ≠ toupper w) :
    startsWithWord (w :: word) (c :: text) = false := by
  rw [startsWithWord, startsWithCI_of_ne h]
  simp

theorem startsWithWord_append (word : Bytes) {rest : Bytes} (h : Next (char ')') rest) :
    startsWithWord word (word ++ rest) = true := by
  have hhead : rest.head? = some (char ')') := h
  have hnot : isalnum (char ')') = false := rfl
  rw [startsWithWord, startsWithCI_append, List.drop_left, hhead]
  simpa using hnot

theorem not_isPrefixOf_of_ne {w x : UInt8} {word text : Bytes} (h : x ≠ w) :
    (w :: word).isPrefixOf (x :: text) = false := by
  have hbeq : (w == x) = false := beq_eq_false_iff_ne.mpr (Ne.symm h)
  rw [List.isPrefixOf, hbeq, Bool.false_and]

/-- A number is not mistaken for another literal: a keyword has a letter where it has a sign or a digit. -/
theorem number_not_keyword {c : UInt8} (hc : c = char '-' ∨ isdigit c) (text : Bytes) :
    (c :: text).head? ≠ some (char '"') ∧ startsWithWord (ascii "true") (c :: text) = false ∧
      startsWithWord (ascii "false") (c :: text) = false ∧ (ascii "enum(").isPrefixOf (c :: text) = false := by
  have hfirst : c ≠ char '"' ∧ c ≠ char 'e' ∧ toupper c ≠ char 'T' ∧ toupper c ≠ char 'F' := by
    rcases hc with rfl | hc
    · decide
    · obtain ⟨-, -, hquote, -, -, he, ht, hf⟩ := not_of_isdigit hc
      exact ⟨hquote, he, ht, hf⟩
  obtain ⟨hquote, he, ht, hf⟩ := hfirst
  exact ⟨fun heq => hquote (Option.some.inj heq), startsWithWord_of_ne ht, startsWithWord_of_ne hf,
    not_isPrefixOf_of_ne he⟩

/-- The text begins like a hexadecimal literal. -/
def startsHex (text : Bytes) : Bool := (ascii "0x").isPrefixOf text || (ascii "0X").isPrefixOf text

theorem startsHex_cons (c : UInt8) (text : Bytes) :
    startsHex (c :: text) = true ↔ c = char '0' ∧ (text.head? = some (char 'x') ∨ text.head? = some (char 'X')) := by
  have hprefix (x : UInt8) : [char '0', x].isPrefixOf (c :: text) = true ↔ c = char '0' ∧ text.head? = some x := by
    cases text with
    | nil => simp [List.isPrefixOf]
    | cons d text =>
      have hcons : [char '0', x].isPrefixOf (c :: d :: text) = (char '0' == c && (x == d && true)) := rfl
      rw [hcons, Bool.and_true, Bool.and_eq_true, beq_iff_eq, beq_iff_eq]
      exact ⟨fun h => ⟨h.1.symm, congrArg some h.2.symm⟩, fun h => ⟨h.1.symm, (Option.some.inj h.2).symm⟩⟩
  have hx : (ascii "0x").isPrefixOf (c :: text) = true ↔ _ := hprefix (char 'x')
  have hX : (ascii "0X").isPrefixOf (c :: text) = true ↔ _ := hprefix (char 'X')
  rw [startsHex, Bool.or_eq_true, hx, hX, and_or_left]

theorem not_startsHex {c : UInt8} {more rest : Bytes} (hmore : ∀ d ∈ more, isdigit d)
    (hrest : rest.head? ≠ some (char 'x') ∧ rest.head? ≠ some (char 'X')) : startsHex (c :: more ++ rest) = false := by
  rw [Bool.eq_false_iff, List.cons_append, ne_eq, startsHex_cons, not_and, not_or]
  intro _
  cases more with
  | nil => exact hrest
  | cons d more =>
    obtain ⟨-, -, -, hx, hX, -⟩ := not_of_isdigit (hmore d List.mem_cons_self)
    exact ⟨fun heq => hx (Option.some.inj heq), fun heq => hX (Option.some.inj heq)⟩

theorem exists_sign_append {digits : Bytes} (hne : digits ≠ []) (hdigits : ∀ c ∈ digits, isdigit c) (negative : Bool) :
    ∃ c more, sign negative ++ digits = c :: more ∧ (c = char '-' ∨ isdigit c) ∧ ∀ d ∈ more, isdigit d := by
  cases negative with
  | true => exact ⟨char '-', digits, rfl, .inl rfl, hdigits⟩
  | false =>
    obtain ⟨c, more, rfl⟩ := List.exists_cons_of_ne_nil hne
    rw [List.forall_mem_cons] at hdigits
    exact ⟨c, more, rfl, .inr hdigits.1, hdigits.2⟩

/-- `parseFieldValue` behind the white space. -/
def parseLiteral (rest : Bytes) : Parser ERDASTFieldValue := do
  if rest.isEmpty then throw (.runtimeError "expected field value at end of input")
  if rest.head? = some (char '"') then parseString
  else if startsHex rest then
    Parser.advance 2
    return .bytesValue (← parseHexBytes)
  else if startsWithWord (ascii "true") rest then
    Parser.advance 4
    return .boolValue true
  else if startsWithWord (ascii "false") rest then
    Parser.advance 5
    return .boolValue false
  else if (ascii "enum(").isPrefixOf rest then parseEnum
  else parseInteger

theorem parseLiteral_number {c : UInt8} {text : Bytes} (hc : c = char '-' ∨ isdigit c)
    (hhex : startsHex (c :: text) = false) : parseLiteral (c :: text) = parseInteger := by
  obtain ⟨hquote, htrue, hfalse, henum⟩ := number_not_keyword hc text
  have hempty : (c :: text).isEmpty = false := rfl
  rw [parseLiteral, hempty, hhex, htrue, hfalse, henum, if_neg Bool.false_ne_true, if_neg hquote]
  rfl

/-- A literal that begins with a sign or a digit is left to `parseInteger`. -/
theorem accepts_number {c : UInt8} {text : Bytes} {value : ERDASTFieldValue} {next : Bytes → Prop}
    (hc : c = char '-' ∨ isdigit c) (hhex : ∀ rest, next rest → startsHex (c :: text ++ rest) = false)
    (h : Accepts parseInteger (c :: text) value next) : Accepts parseFieldValue (c :: text) value next := by
  have hspace : isspace c = false := by
    rcases hc with rfl | hc
    · decide
    · exact (not_of_isdigit hc).1
  refine accepts_skipWhitespace.bind_nil (accepts_rest_bind fun rest hrest => ?_) fun rest _ => stops_cons hspace
  have hliteral : parseLiteral (c :: text ++ rest) = parseInteger := parseLiteral_number hc (hhex rest hrest)
  show Accepts (parseLiteral (c :: text ++ rest)) _ _ _
  rw [hliteral]
  exact h.mono fun _ heq => heq ▸ hrest

/-! Numbers of any size are accepted and reduced to the width of their type. -/

section

variable {digits : Bytes} (hne : digits ≠ []) (hdigits : ∀ c ∈ digits, isdigit c)

include hne hdigits in
theorem accepts_signed (negative : Bool) :
    Accepts parseFieldValue (sign negative ++ digits) (.intValue (.ofInt (signed negative (digitsValue digits))))
      (Stops isalnum) := by
  have hinteger := (accepts_parseInteger_digits hne hdigits negative).mono fun rest hrest =>
    endsNumber_of_not_alnum hrest negative
  obtain ⟨c, more, hcons, hc, hmore⟩ := exists_sign_append hne hdigits negative
  rw [hcons] at hinteger ⊢
  refine accepts_number hc (fun rest hrest => not_startsHex hmore ⟨fun hx => ?_, fun hX => ?_⟩) hinteger
  · exact absurd (hrest _ hx) (by decide)
  · exact absurd (hrest _ hX) (by decide)

include hne hdigits in
theorem accepts_unsigned {suffix : UInt8} (hsuffix : suffix = char 'u' ∨ suffix = char 'U') :
    Accepts parseFieldValue (digits ++ [suffix]) (.uintValue (.ofNat (digitsValue digits))) Anything := by
  have hinteger := accepts_parseInteger_suffix hne hdigits hsuffix
  obtain ⟨c, more, hcons, hc, hmore⟩ := exists_sign_append hne hdigits false
  have hcons' : digits = c :: more := hcons
  rw [hcons', List.cons_append] at hinteger ⊢
  refine accepts_number hc (fun rest _ => ?_) hinteger
  rw [← List.cons_append, List.append_assoc]
  refine not_startsHex hmore ?_
  have hhead : ([suffix] ++ rest).head? = some suffix := rfl
  rw [hhead]
  rcases hsuffix with rfl | rfl <;> decide

include hne hdigits in
theorem accepts_enum (negative : Bool) :
    Accepts parseFieldValue (ascii "enum(" ++ (sign negative ++ digits) ++ ascii ")")
      (.enumValue (.ofInt (signed negative (digitsValue digits)))) Anything := by
  refine accepts_skipWhitespace.bind_nil (accepts_rest_bind fun rest hrest => ?_) fun _ _ => stops_cons (by decide)
  exact (accepts_parseEnum_digits hne hdigits negative).mono fun _ _ => trivial

end

theorem accepts_parseFieldValue {value : ERDASTFieldValue} (h : IsValue value) :
    Accepts parseFieldValue (appendFieldValue value) value (Next (char ')')) := by
  cases value with
  | notSet => exact h.elim
  | bytesValue value =>
    refine accepts_skipWhitespace.bind_nil (accepts_rest_bind fun rest hrest => ?_) fun _ _ => stops_cons (by decide)
    have hopen : Accepts (Parser.advance 2 : Parser Unit) (ascii "0x") () Anything := accepts_advance
    have hbytes := (accepts_parseHexBytes value).mono fun rest' (heq : rest' = rest) =>
      heq ▸ hrest.stops (by decide)
    exact hopen.bind (hbytes.bind_end accepts_pure fun _ heq => heq) fun _ _ => trivial
  | stringValue value =>
    refine accepts_skipWhitespace.bind_nil (accepts_rest_bind fun rest hrest => ?_) fun _ _ => stops_cons (by decide)
    exact (accepts_parseString h).mono fun _ _ => trivial
  | intValue value =>
    have h := accepts_signed (decimal_ne_nil value.toInt.natAbs) (fun _ hc => isdigit_of_mem_decimal hc)
      (decide (value.toInt < 0))
    rw [digitsValue_decimal, signed_natAbs, Int64.ofInt_toInt, ← signedDecimal_eq] at h
    exact h.mono fun rest hrest => hrest.stops (by decide)
  | uintValue value =>
    have h := accepts_unsigned (decimal_ne_nil value.toNat) (fun _ hc => isdigit_of_mem_decimal hc)
      (Or.inl rfl : char 'u' = char 'u' ∨ char 'u' = char 'U')
    rw [digitsValue_decimal, UInt64.ofNat_toNat] at h
    exact h.mono fun _ _ => trivial
  | boolValue value =>
    refine accepts_skipWhitespace.bind_nil (accepts_rest_bind fun rest hrest => ?_) fun rest _ => ?_
    · cases value with
      | true =>
        have hopen : Accepts (Parser.advance 4 : Parser Unit) (ascii "true") () Anything := accepts_advance
        have hword : startsWithWord (ascii "true") (appendFieldValue (.boolValue true) ++ rest) = true :=
          startsWithWord_append (ascii "true") hrest
        rw [hword]
        exact hopen.bind_end accepts_pure fun _ _ => trivial
      | false =>
        have hopen : Accepts (Parser.advance 5 : Parser Unit) (ascii "false") () Anything := accepts_advance
        have hnot : startsWithWord (ascii "true") (appendFieldValue (.boolValue false) ++ rest) = false :=
          startsWithWord_of_ne (by decide)
        have hword : startsWithWord (ascii "false") (appendFieldValue (.boolValue false) ++ rest) = true :=
          startsWithWord_append (ascii "false") hrest
        rw [hnot, hword]
        exact hopen.bind_end accepts_pure fun _ _ => trivial
    · cases value <;> exact stops_cons (by decide)
  | enumValue value =>
    have h := accepts_enum (decimal_ne_nil value.toInt.natAbs) (fun _ hc => isdigit_of_mem_decimal hc)
      (decide (value.toInt < 0))
    rw [digitsValue_decimal, signed_natAbs, Int32.ofInt_toInt, ← signedDecimal_eq] at h
    exact h.mono fun _ _ => trivial

theorem ensures_parseString : Ensures parseString IsValue := by
  refine ensures_bind fun _ => Ensures.bind ensures_takeWhile fun s hs => ensures_bind fun rest => ?_
  refine ensures_ite ensures_throw_bind (ensures_bind fun _ => ensures_pure ?_)
  exact fun hmem => absurd (hs _ hmem) (by decide)

theorem ensures_parseEnum : Ensures parseEnum IsValue :=
  ensures_bind fun _ => ensures_bind fun _ => ensures_bind fun _ => ensures_bind fun _ => ensures_bind fun _ =>
    ensures_pure trivial

theorem ensures_parseInteger : Ensures parseInteger IsValue := by
  refine ensures_bind fun start => ensures_bind fun negative => ensures_bind fun rest => ?_
  refine ensures_ite ensures_fail_bind (ensures_bind fun digits => ensures_bind fun rest => ?_)
  exact ensures_ite (ensures_bind fun _ => ensures_pure trivial) (ensures_pure trivial)

theorem ensures_parseFieldValue : Ensures parseFieldValue IsValue := by
  refine ensures_bind fun _ => ensures_bind fun rest => ?_
  refine ensures_ite ensures_throw_bind (ensures_ite ensures_parseString ?_)
  refine ensures_ite (ensures_bind fun _ => ensures_bind fun _ => ensures_pure trivial) ?_
  refine ensures_ite (ensures_bind fun _ => ensures_pure trivial) ?_
  refine ensures_ite (ensures_bind fun _ => ensures_pure trivial) ?_
  exact ensures_ite ensures_parseEnum ensures_parseInteger

/-! ### Arguments in parentheses -/

theorem accepts_argument {α : Type} {p : Parser α} {s : Bytes} {a : α} {next : Bytes → Prop} (h : Accepts p s a next)
    (hnext : ∀ rest, next (ascii ")" ++ rest)) (hs : ∀ rest, Stops isspace (s ++ (ascii ")" ++ rest))) :
    Accepts (argument p) (s ++ ascii ")") a Anything := by
  have hclose : Accepts (closeWith (char ')')) (ascii ")") () Anything := accepts_closeWith (by decide)
  refine accepts_skipWhitespace.bind_nil (h.bind ?_ fun rest _ => hnext rest) fun rest _ => ?_
  · exact hclose.bind_end accepts_pure fun _ _ => trivial
  · rw [List.append_assoc]
    exact hs rest

theorem ensures_argument {α : Type} {p : Parser α} {post : α → Prop} (h : Ensures p post) :
    Ensures (argument p) post :=
  ensures_bind fun _ => h.bind fun _ ha => ensures_bind fun _ => ensures_pure ha

/-! ### Tokens move forward -/

theorem shrinks_expect (c : UInt8) : Shrinks (expect c) := by
  refine shrinks_skipWhile.bind fun _ => Shrinks.bind (shrinks_rest.bind fun _ => shrinks_pure) fun _ => ?_
  exact shrinks_ite shrinks_fail_bind shrinks_advance

theorem shrinks_closeWith (c : UInt8) : Shrinks (closeWith c) := shrinks_skipWhile.bind fun _ => shrinks_expect c

theorem shrinks_peek : Shrinks peek := shrinks_rest.bind fun _ => shrinks_pure

end Rsp.ErdText
