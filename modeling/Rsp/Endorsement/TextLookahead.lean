import Rsp.Endorsement.TextTokens

/-!
# How far the parser looks

No token is read differently because of what comes later in the text: a token looks at most at the symbol after it, and one that ends in a parenthesis or a quote not even at that. So the text of an expression means the same wherever it stands.
-/

namespace Rsp.ErdText

open RecursiveDescent Proto

/-! ### Punctuation -/

/-- White space. -/
abbrev Space := { w : Bytes // ∀ x ∈ w, isspace x }

theorem skipWhitespace_ok {c c' : Cursor UInt8} {u : Unit} (h : skipWhitespace c = .ok (u, c')) :
    ∃ space : Space, c.rest = space.1 ++ c'.rest := by
  obtain ⟨-, rfl⟩ := Prod.mk.inj (Except.ok.inj h)
  exact ⟨⟨c.rest.takeWhile isspace, List.all_eq_true.mp List.all_takeWhile⟩, takeWhile_append_drop isspace c.rest⟩

/-- The zero that `peek` returns at the end is never looked for. -/
theorem cons_of_peek {c : Cursor UInt8} {x : UInt8} (hzero : x ≠ 0) (h : c.rest.head?.getD 0 = x) :
    c.rest = [x] ++ (c.advance 1).rest := by
  show c.rest = x :: c.rest.drop 1
  cases hrest : c.rest with
  | nil =>
    rw [hrest] at h
    exact absurd h.symm hzero
  | cons y tail =>
    rw [hrest] at h
    obtain rfl : y = x := h
    rfl

theorem expect_ok {x : UInt8} (hzero : x ≠ 0) {c c' : Cursor UInt8} {u : Unit} (h : expect x c = .ok (u, c')) :
    ∃ space : Space, c.rest = space.1 ++ [x] ++ c'.rest := by
  obtain ⟨_, start, hskip, h⟩ := bind_ok.mp h
  obtain ⟨space, hspace⟩ := skipWhitespace_ok hskip
  rw [bind_of_ok (rfl : peek start = .ok (start.rest.head?.getD 0, start))] at h
  by_cases hhead : start.rest.head?.getD 0 = x
  · rw [if_neg (not_not_intro hhead)] at h
    obtain ⟨-, rfl⟩ := Prod.mk.inj (Except.ok.inj h)
    refine ⟨space, ?_⟩
    rw [List.append_assoc, ← cons_of_peek hzero hhead]
    exact hspace
  · rw [if_pos hhead] at h
    cases h

theorem delimited_expect {x : UInt8} (hx : isspace x = false) (hzero : x ≠ 0) : Delimited (expect x) := by
  intro c u c' h
  obtain ⟨space, hrest⟩ := expect_ok hzero h
  exact ⟨space.1 ++ [x], by simp, hrest, accepts_expect_space space.2 hx⟩

theorem delimited_closeWith {x : UInt8} (hx : isspace x = false) (hzero : x ≠ 0) : Delimited (closeWith x) :=
  peeks_skipWhile.bind_delimited fun _ => delimited_expect hx hzero

theorem closeWith_ok {x : UInt8} (hzero : x ≠ 0) {c c' : Cursor UInt8} {u : Unit} (h : closeWith x c = .ok (u, c')) :
    ∃ space : Space, c.rest = space.1 ++ [x] ++ c'.rest := by
  obtain ⟨_, start, hskip, h⟩ := bind_ok.mp h
  obtain ⟨space, hspace⟩ := skipWhitespace_ok hskip
  obtain ⟨space', hrest⟩ := expect_ok hzero h
  refine ⟨⟨space.1 ++ space'.1, List.forall_mem_append.mpr ⟨space.2, space'.2⟩⟩, ?_⟩
  rw [hspace, hrest]
  simp only [List.append_assoc]

theorem delimited_comma : Delimited (closeWith (char ',')) := delimited_closeWith (by decide) (by decide)

theorem delimited_close : Delimited (closeWith (char ')')) := delimited_closeWith (by decide) (by decide)

theorem delimited_argument {α : Type} {p : Parser α} (h : Peeks p) : Delimited (argument p) :=
  peeks_skipWhile.bind_delimited fun _ => h.bind_delimited fun _ => delimited_close.map

/-! ### UUIDs and hexadecimal digits -/

/-- The symbols in the groups and the dashes between them. -/
def groupsWidth : List Nat → Nat
  | [] => 0
  | size :: sizes => size + if sizes = [] then 0 else 1 + groupsWidth sizes

/-- The groups are recognised by the symbols they take up. -/
theorem isUUID_groups_append {sizes : List Nat} {text : Bytes} (h : isUUID.groups sizes text = true) :
    ∃ s rest, text = s ++ rest ∧ s.length = groupsWidth sizes ∧ ∀ rest', isUUID.groups sizes (s ++ rest') = true := by
  induction sizes generalizing text with
  | nil => exact ⟨[], text, rfl, rfl, fun _ => rfl⟩
  | cons size sizes ih =>
    rw [isUUID.groups, decide_eq_true_eq] at h
    obtain ⟨hlength, hhex, hmore⟩ := h
    have htake : (text.take size).length = size := List.length_take_of_le hlength
    have hfirst (rest : Bytes) : (text.take size ++ rest).take size = text.take size := by
      rw [List.take_append_of_le_length (Nat.le_of_eq htake.symm), List.take_take, Nat.min_self]
    have hskip (rest : Bytes) : (text.take size ++ rest).drop size = rest := by
      rw [List.drop_append_of_le_length (Nat.le_of_eq htake.symm), List.drop_take_self]
      rfl
    by_cases hlast : sizes = []
    · subst hlast
      refine ⟨text.take size, text.drop size, (List.take_append_drop size text).symm, ?_, fun rest => ?_⟩
      · rw [htake, groupsWidth, if_pos rfl, Nat.add_zero]
      · rw [isUUID.groups, decide_eq_true_eq, hfirst]
        refine ⟨?_, hhex, Or.inl rfl⟩
        rw [List.length_append, htake]
        omega
    · obtain ⟨hdash, hgroups⟩ := hmore.resolve_left hlast
      obtain ⟨s, rest, hrest, hwidth, hagain⟩ := ih hgroups
      have hdrop : text.drop size = char '-' :: (s ++ rest) := by
        rw [← hrest, ← List.drop_drop]
        cases hcons : text.drop size with
        | nil =>
          rw [hcons] at hdash
          cases hdash
        | cons c tail =>
          rw [hcons] at hdash
          rw [Option.some.inj hdash]
          rfl
      refine ⟨text.take size ++ char '-' :: s, rest, ?_, ?_, fun rest' => ?_⟩
      · conv_lhs => rw [← List.take_append_drop size text, hdrop]
        rw [List.append_assoc]
        rfl
      · rw [List.length_append, htake, List.length_cons, hwidth, groupsWidth, if_neg hlast, Nat.add_comm 1]
      · rw [isUUID.groups, decide_eq_true_eq, List.append_assoc, hfirst, hskip, ← List.drop_drop, hskip]
        refine ⟨?_, hhex, Or.inr ⟨rfl, hagain rest'⟩⟩
        rw [List.length_append, htake]
        omega

theorem delimited_parseUUIDBytes : Delimited parseUUIDBytes := by
  intro c bytes c' h
  have hrun (c : Cursor UInt8) (hc : isUUID c.rest = true) :
      parseUUIDBytes c = (uuidToBytes (c.rest.take 36) >>= fun b => .ok (b, c.advance 36)) := by
    unfold parseUUIDBytes
    rw [bind_of_ok (rfl : Parser.rest c = .ok (c.rest, c)), hc]
    rfl
  by_cases hisUUID : isUUID c.rest = true
  · rw [hrun c hisUUID] at h
    obtain ⟨result, hresult, hok⟩ := bind_eq_ok.mp h
    obtain ⟨rfl, rfl⟩ := Prod.mk.inj (Except.ok.inj hok)
    obtain ⟨s, rest, hrest, hwidth, hagain⟩ := isUUID_groups_append hisUUID
    have hlength : s.length = 36 := hwidth
    have htake (rest : Bytes) : (s ++ rest).take 36 = s := by rw [← hlength, List.take_left]
    have hdrop (rest : Bytes) : (s ++ rest).drop 36 = rest := by rw [← hlength, List.drop_left]
    have hafter : (c.advance 36).rest = rest := by
      show c.rest.drop 36 = rest
      rw [hrest, hdrop]
    refine ⟨s, fun hnil => by simp [hnil] at hlength, by rw [hafter]; exact hrest, fun pos rest' _ => ?_⟩
    rw [hrest, htake] at hresult
    rw [hrun ⟨pos, s ++ rest'⟩ (hagain rest')]
    show (uuidToBytes ((s ++ rest').take 36) >>= fun b => .ok (b, Cursor.mk (pos + 36) ((s ++ rest').drop 36))) = _
    rw [htake, hdrop, hresult, hlength]
    rfl
  · have hfail : parseUUIDBytes c = .error (.runtimeError s!"expected UUID at position {c.pos}") := by
      unfold parseUUIDBytes
      rw [bind_of_ok (rfl : Parser.rest c = .ok (c.rest, c)), Bool.eq_false_iff.mpr hisUUID]
      rfl
    rw [hfail] at h
    cases h

theorem hexValue_ok {pos : Nat} {c value : UInt8} (h : hexValue pos c = .ok value) (pos' : Nat) :
    hexValue pos' c = .ok value := by
  unfold hexValue at h ⊢
  cases hdigit : hexDigit c with
  | none => simp [hdigit] at h
  | some digit => simpa [hdigit] using h

theorem peeks_parseHexBytes : Peeks parseHexBytes := by
  intro c bytes c' h
  obtain ⟨pos, text⟩ := c
  have hpairs : parseHexBytes.pairs pos text = .ok (bytes, c') := h
  have hloop : ∃ s, text = s ++ c'.rest ∧ ∀ pos rest, rest.head? = c'.rest.head? →
      parseHexBytes.pairs pos (s ++ rest) = .ok (bytes, ⟨pos + s.length, rest⟩) := by
    clear h
    induction pos, text using parseHexBytes.pairs.induct generalizing bytes with
    | case1 pos =>
      obtain ⟨rfl, rfl⟩ := Prod.mk.inj (Except.ok.inj hpairs)
      refine ⟨[], rfl, fun pos rest hrest => ?_⟩
      rw [List.head?_eq_none_iff.mp hrest]
      rfl
    | case2 pos c text hc =>
      rw [parseHexBytes.pairs.eq_def] at hpairs
      dsimp only at hpairs
      rw [if_pos hc] at hpairs
      obtain ⟨rfl, rfl⟩ := Prod.mk.inj (Except.ok.inj hpairs)
      refine ⟨[], rfl, fun pos rest hrest => ?_⟩
      obtain ⟨rest, rfl⟩ := List.head?_eq_some_iff.mp hrest
      rw [List.nil_append, parseHexBytes.pairs.eq_def]
      dsimp only
      rw [if_pos hc]
      rfl
    | case3 pos c hc =>
      rw [parseHexBytes.pairs.eq_def] at hpairs
      dsimp only at hpairs
      rw [if_neg hc] at hpairs
      cases hpairs
    | case4 pos c hc d text hd =>
      rw [parseHexBytes.pairs.eq_def] at hpairs
      dsimp only at hpairs
      rw [if_neg hc, if_pos hd] at hpairs
      cases hpairs
    | case5 pos c hc d text hd ih =>
      rw [parseHexBytes.pairs.eq_def] at hpairs
      dsimp only at hpairs
      rw [if_neg hc, if_neg hd] at hpairs
      obtain ⟨high, hhigh, hpairs⟩ := bind_eq_ok.mp hpairs
      obtain ⟨low, hlow, hpairs⟩ := bind_eq_ok.mp hpairs
      obtain ⟨⟨tail, cursor⟩, htail, hpairs⟩ := bind_eq_ok.mp hpairs
      obtain ⟨rfl, rfl⟩ := Prod.mk.inj (Except.ok.inj hpairs)
      obtain ⟨s, hs, hagain⟩ := ih tail htail
      refine ⟨c :: d :: s, by rw [hs]; rfl, fun pos' rest hrest => ?_⟩
      have hpos : pos' + 2 + s.length = pos' + (c :: d :: s).length := by
        rw [List.length_cons, List.length_cons]
        omega
      rw [List.cons_append, List.cons_append, parseHexBytes.pairs.eq_def]
      dsimp only
      rw [if_neg hc, if_neg hd, hexValue_ok hhigh, hexValue_ok hlow, hagain (pos' + 2) rest hrest, hpos]
      rfl
  obtain ⟨s, hs, hagain⟩ := hloop
  exact ⟨s, hs, hagain⟩

/-! ### Field paths -/

theorem loop_peeks {segments : List Bytes} {segment text : Bytes} {result : List Bytes × Bytes} {pos : Nat}
    {c' : Cursor UInt8} (h : parseFieldPath.loop segments segment pos text = .ok (result, c')) :
    ∃ s, text = s ++ c'.rest ∧ ∀ pos rest, rest.head? = c'.rest.head? →
      parseFieldPath.loop segments segment pos (s ++ rest) = .ok (result, ⟨pos + s.length, rest⟩) := by
  have hstep {c : UInt8} {s : Bytes} (pos : Nat) : pos + 1 + s.length = pos + (c :: s).length := by
    rw [List.length_cons]
    omega
  induction text generalizing segments segment pos with
  | nil =>
    obtain ⟨rfl, rfl⟩ := Prod.mk.inj (Except.ok.inj h)
    refine ⟨[], rfl, fun pos rest hrest => ?_⟩
    rw [List.head?_eq_none_iff.mp hrest]
    rfl
  | cons c text ih =>
    rw [parseFieldPath.loop] at h
    split_ifs at h with hdot hempty hends
    · obtain ⟨s, hs, hagain⟩ := ih h
      refine ⟨c :: s, by rw [hs]; rfl, fun pos rest hrest => ?_⟩
      rw [List.cons_append, parseFieldPath.loop, if_pos hdot, if_neg hempty, hagain _ rest hrest, hstep]
    · obtain ⟨rfl, rfl⟩ := Prod.mk.inj (Except.ok.inj h)
      refine ⟨[], rfl, fun pos rest hrest => ?_⟩
      obtain ⟨rest, rfl⟩ := List.head?_eq_some_iff.mp hrest
      rw [List.nil_append, parseFieldPath.loop, if_neg hdot, if_pos hends]
      rfl
    · obtain ⟨s, hs, hagain⟩ := ih h
      refine ⟨c :: s, by rw [hs]; rfl, fun pos rest hrest => ?_⟩
      rw [List.cons_append, parseFieldPath.loop, if_neg hdot, if_neg hends, hagain _ rest hrest, hstep]

theorem peeks_parseFieldPath : Peeks parseFieldPath := by
  refine peeks_skipWhile.bind fun _ => Peeks.bind ?_ fun result => ?_
  · intro c result c' h
    obtain ⟨s, hs, hagain⟩ := loop_peeks h
    exact ⟨s, hs, hagain⟩
  · exact peeks_ite peeks_fail_bind peeks_pure

/-! ### Field values -/

/-- A keyword that is passed after it has been recognised. -/
theorem accepts_after_keyword {α : Type} {keyword : Bytes} {p : Parser α} {next : Bytes → Prop} {c c' : Cursor UInt8}
    {a : α} (hkeyword : keyword <+: c.rest) (h : (do Parser.advance keyword.length; p) c = .ok (a, c'))
    (hp : ∀ c, p c = .ok (a, c') → ∃ s, c.rest = s ++ c'.rest ∧ Accepts p s a next) :
    ∃ s, c.rest = keyword ++ s ++ c'.rest ∧ Accepts (do Parser.advance keyword.length; p) (keyword ++ s) a next := by
  obtain ⟨tail, htail⟩ := hkeyword
  obtain ⟨_, middle, hadvance, h⟩ := bind_ok.mp h
  obtain ⟨-, rfl⟩ := Prod.mk.inj (Except.ok.inj hadvance)
  obtain ⟨s, hs, haccepts⟩ := hp _ h
  have hrest : tail = s ++ c'.rest := by
    rw [← hs]
    show tail = c.rest.drop keyword.length
    rw [← htail, List.drop_left]
  have hskip : Accepts (Parser.advance keyword.length : Parser Unit) keyword () Anything := accepts_advance
  exact ⟨s, by rw [← htail, hrest, List.append_assoc], hskip.bind haccepts fun _ _ => trivial⟩

/-- The sign that has been read, and what comes after no sign. -/
theorem parseSign_ok {c c' : Cursor UInt8} {negative : Bool} (h : parseSign c = .ok (negative, c')) :
    c.rest = sign negative ++ c'.rest ∧ (negative = false → c'.rest.head? ≠ some (char '-')) := by
  have hrun : parseSign c =
      (if c.rest.head? = some (char '-') then (do Parser.advance 1; return true : Parser Bool) else return false) c := rfl
  rw [hrun] at h
  by_cases hminus : c.rest.head? = some (char '-')
  · rw [if_pos hminus] at h
    obtain ⟨rfl, rfl⟩ := Prod.mk.inj (Except.ok.inj h)
    obtain ⟨tail, hcons⟩ := List.head?_eq_some_iff.mp hminus
    refine ⟨?_, fun htrue => by cases htrue⟩
    show c.rest = char '-' :: c.rest.drop 1
    rw [hcons]
    rfl
  · rw [if_neg hminus] at h
    obtain ⟨rfl, rfl⟩ := pure_ok.mp h
    exact ⟨rfl, fun _ => hminus⟩

theorem peeks_parseSign : Peeks parseSign := by
  intro c negative c' h
  obtain ⟨hrest, hnext⟩ := parseSign_ok h
  refine ⟨sign negative, hrest, (accepts_parseSign negative).mono fun rest hhead hpositive => ?_⟩
  rw [hhead]
  exact hnext hpositive

theorem takeWhile_ok {test : UInt8 → Bool} {c c' : Cursor UInt8} {s : Bytes}
    (h : (Parser.takeWhile test : Parser Bytes) c = .ok (s, c')) :
    (∀ x ∈ s, test x) ∧ c.rest = s ++ c'.rest ∧ Stops test c'.rest := by
  obtain ⟨rfl, rfl⟩ := Prod.mk.inj (Except.ok.inj h)
  exact ⟨List.all_eq_true.mp List.all_takeWhile, takeWhile_append_drop test c.rest, stops_drop_takeWhile test c.rest⟩

/-- A text up to a symbol that was found. -/
theorem takeUntil_ok {x : UInt8} {c c' : Cursor UInt8} {s : Bytes}
    (h : (Parser.takeWhile (· ≠ x) : Parser Bytes) c = .ok (s, c')) (hne : ¬ c'.rest.isEmpty) :
    x ∉ s ∧ c.rest = s ++ [x] ++ (c'.advance 1).rest := by
  obtain ⟨hs, hsplit, hstops⟩ := takeWhile_ok h
  refine ⟨fun hmem => absurd (hs _ hmem) (by simp), ?_⟩
  show c.rest = s ++ [x] ++ c'.rest.drop 1
  cases hrest : c'.rest with
  | nil =>
    rw [hrest] at hne
    exact absurd rfl hne
  | cons y rest =>
    have hy := hstops y (by rw [hrest]; rfl)
    obtain rfl : y = x := by simpa using hy
    rw [hsplit, hrest, List.append_assoc]
    rfl

/-- A string literal ends at its second quote. -/
theorem parseString_ok {c c' : Cursor UInt8} {value : ERDASTFieldValue} (hquote : c.rest.head? = some (char '"'))
    (h : parseString c = .ok (value, c')) :
    ∃ s, c.rest = char '"' :: s ++ c'.rest ∧ Accepts parseString (char '"' :: s) value Anything := by
  obtain ⟨tail, htail⟩ := List.head?_eq_some_iff.mp hquote
  obtain ⟨_, start, hadvance, h⟩ := bind_ok.mp h
  obtain ⟨-, rfl⟩ := Prod.mk.inj (Except.ok.inj hadvance)
  obtain ⟨s, stop, htake, h⟩ := bind_ok.mp h
  rw [bind_of_ok (rfl : Parser.rest stop = .ok (stop.rest, stop))] at h
  by_cases hempty : stop.rest.isEmpty
  · rw [if_pos hempty] at h
    cases h
  rw [if_neg hempty] at h
  obtain ⟨hs, hsplit⟩ := takeUntil_ok htake hempty
  obtain ⟨rfl, rfl⟩ := Prod.mk.inj (Except.ok.inj h)
  refine ⟨s ++ [char '"'], ?_, accepts_parseString hs⟩
  have htext : tail = s ++ [char '"'] ++ (stop.advance 1).rest := by
    rw [← hsplit]
    show tail = c.rest.drop 1
    rw [htail]
    rfl
  rw [htail, htext]
  rfl

/-- A number begins with a sign or a digit. -/
theorem parseInteger_ok {c c' : Cursor UInt8} {value : ERDASTFieldValue} (h : parseInteger c = .ok (value, c')) :
    ∃ x s, (x = char '-' ∨ isdigit x) ∧ c.rest = x :: s ++ c'.rest ∧
      Accepts parseInteger (x :: s) value (fun rest => rest.head? = c'.rest.head?) := by
  obtain ⟨_, start, hget, h⟩ := bind_ok.mp h
  obtain ⟨-, rfl⟩ := Prod.mk.inj (Except.ok.inj hget)
  obtain ⟨negative, middle, hsign, h⟩ := bind_ok.mp h
  obtain ⟨hc, -⟩ := parseSign_ok hsign
  rw [bind_of_ok (rfl : Parser.rest middle = .ok (middle.rest, middle))] at h
  by_cases hdigit : middle.rest.head?.any isdigit = true
  · rw [hdigit, Bool.not_true, if_neg Bool.false_ne_true] at h
    obtain ⟨digits, stop, htake, h⟩ := bind_ok.mp h
    obtain ⟨hdigits, hmiddle, hstops⟩ := takeWhile_ok htake
    have hne : digits ≠ [] := by
      rintro rfl
      rw [hmiddle, List.nil_append] at hdigit
      cases hhead : stop.rest.head? with
      | none =>
        rw [hhead] at hdigit
        cases hdigit
      | some d =>
        rw [hhead] at hdigit
        exact absurd (hstops d hhead) (Bool.eq_false_iff.not_left.mpr hdigit)
    rw [bind_of_ok (rfl : Parser.rest stop = .ok (stop.rest, stop)), foldl_uint64, toInt64_signed] at h
    by_cases hsuffix : (!negative && (decide (stop.rest.head? = some (char 'u')) ||
        decide (stop.rest.head? = some (char 'U')))) = true
    · rw [if_pos hsuffix] at h
      obtain ⟨rfl, rfl⟩ := Prod.mk.inj (Except.ok.inj h)
      rw [Bool.and_eq_true, Bool.or_eq_true, decide_eq_true_eq, decide_eq_true_eq, Bool.not_eq_true'] at hsuffix
      obtain ⟨rfl, hu⟩ := hsuffix
      obtain ⟨suffix, hhead, hu⟩ : ∃ suffix, stop.rest.head? = some suffix ∧ (suffix = char 'u' ∨ suffix = char 'U') :=
        hu.elim (fun hu => ⟨_, hu, .inl rfl⟩) fun hU => ⟨_, hU, .inr rfl⟩
      obtain ⟨tail, htail⟩ := List.head?_eq_some_iff.mp hhead
      have haccepts := (accepts_parseInteger_suffix hne hdigits hu).mono fun rest
        (_ : rest.head? = (stop.advance 1).rest.head?) => trivial
      obtain ⟨x, more, rfl⟩ := List.exists_cons_of_ne_nil hne
      refine ⟨x, more ++ [suffix], Or.inr (hdigits x List.mem_cons_self), ?_, haccepts⟩
      show c.rest = x :: more ++ [suffix] ++ stop.rest.drop 1
      rw [hc, hmiddle, htail, List.append_assoc]
      rfl
    · rw [if_neg hsuffix] at h
      obtain ⟨rfl, rfl⟩ := pure_ok.mp h
      have haccepts := accepts_parseInteger_digits hne hdigits negative
      obtain ⟨x, more, hcons, hx, -⟩ := exists_sign_append hne hdigits negative
      rw [hcons] at haccepts
      refine ⟨x, more, hx, by rw [hc, hmiddle, ← hcons, List.append_assoc],
        haccepts.mono fun rest hhead => ⟨fun d hd => ?_, fun hpositive => ?_⟩⟩
      · rw [hhead] at hd
        exact hstops d hd
      · rw [hhead]
        refine ⟨fun hu => hsuffix ?_, fun hU => hsuffix ?_⟩
        · rw [hpositive, hu]
          rfl
        · rw [hpositive, hU]
          rfl
  · rw [Bool.eq_false_iff.mpr hdigit, Bool.not_false, if_pos rfl] at h
    cases h

/-- A word is recognised by its letters and the symbol after them. -/
theorem startsWithWord_ok {word text : Bytes} (hne : word ≠ []) (h : startsWithWord word text = true) :
    ∃ x s, text = x :: s ++ text.drop word.length ∧ (x :: s).length = word.length ∧
      (word.map toupper).head? = some (toupper x) ∧
      ∀ rest, rest.head? = (text.drop word.length).head? → startsWithWord word (x :: s ++ rest) = true := by
  rw [startsWithWord, decide_eq_true_eq, startsWithCI, decide_eq_true_eq] at h
  obtain ⟨⟨hlength, hupper⟩, hnext⟩ := h
  have hsplit := (List.take_append_drop word.length text).symm
  have htake : (text.take word.length).length = word.length := List.length_take_of_le hlength
  generalize text.take word.length = taken at hsplit htake hupper
  cases taken with
  | nil => exact absurd (List.length_eq_zero_iff.mp htake.symm) hne
  | cons x s =>
    refine ⟨x, s, hsplit, htake, by rw [← hupper]; rfl, fun rest hrest => ?_⟩
    rw [startsWithWord, decide_eq_true_eq, startsWithCI, decide_eq_true_eq, ← htake, List.take_left, List.drop_left,
      hrest]
    exact ⟨⟨by rw [List.length_append]; omega, hupper⟩, hnext⟩

/-- A literal that begins with a letter of `true` or `false`. -/
theorem parseLiteral_letter {x : UInt8} (h : toupper x = char 'T' ∨ toupper x = char 'F') (text : Bytes) :
    ¬ (x :: text).head? = some (char '"') ∧ ¬ startsHex (x :: text) = true := by
  obtain ⟨hquote, hzero, -⟩ := ne_of_toupper h
  refine ⟨fun heq => hquote (Option.some.inj heq), fun hhex => hzero ?_⟩
  exact ((startsHex_cons x text).mp hhex).1

theorem accepts_skipped {α : Type} {s : Bytes} {n : Nat} {value : α} {next : Bytes → Prop} (h : s.length = n) :
    Accepts (do Parser.advance n; return value : Parser α) s value next := by
  have hskip : Accepts (Parser.advance s.length : Parser Unit) s () next := accepts_advance
  rw [← h]
  exact hskip.bind_end accepts_pure fun _ hrest => hrest

theorem peeks_parseFieldValue : Peeks parseFieldValue := by
  refine peeks_skipWhile.bind fun _ c value c' h => ?_
  rw [bind_of_ok (rfl : Parser.rest c = .ok (c.rest, c))] at h
  change parseLiteral c.rest c = _ at h
  suffices hliteral : ∃ s, c.rest = s ++ c'.rest ∧ ∀ rest, rest.head? = c'.rest.head? →
      Accepts (parseLiteral (s ++ rest)) s value (· = rest) by
    obtain ⟨s, hs, haccepts⟩ := hliteral
    exact ⟨s, hs, accepts_rest_bind haccepts⟩
  have hempty : ¬ c.rest.isEmpty := by
    intro hempty
    rw [parseLiteral, if_pos hempty] at h
    cases h
  rw [parseLiteral, if_neg hempty] at h
  by_cases hquote : c.rest.head? = some (char '"')
  · rw [if_pos hquote] at h
    obtain ⟨s, hs, haccepts⟩ := parseString_ok hquote h
    exact ⟨char '"' :: s, hs, fun rest _ => haccepts.mono fun _ _ => trivial⟩
  rw [if_neg hquote] at h
  by_cases hhex : startsHex c.rest = true
  · rw [if_pos hhex] at h
    obtain ⟨x, hx, tail, htail⟩ : ∃ x, (x = char 'x' ∨ x = char 'X') ∧ [char '0', x] <+: c.rest := by
      rw [startsHex, Bool.or_eq_true, List.isPrefixOf_iff_prefix, List.isPrefixOf_iff_prefix] at hhex
      exact hhex.elim (fun hx => ⟨_, .inl rfl, hx⟩) fun hX => ⟨_, .inr rfl, hX⟩
    obtain ⟨s, hs, haccepts⟩ := accepts_after_keyword ⟨tail, htail⟩ h fun c hbytes =>
      (peeks_parseHexBytes.bind fun bytes => peeks_pure) c value c' hbytes
    refine ⟨[char '0', x] ++ s, hs, fun rest hrest => ?_⟩
    have hagain : startsHex ([char '0', x] ++ s ++ rest) = true :=
      (startsHex_cons _ _).mpr ⟨rfl, hx.imp (congrArg some) (congrArg some)⟩
    rw [parseLiteral, hagain]
    exact haccepts.mono fun _ heq => heq ▸ hrest
  rw [if_neg hhex] at h
  by_cases htrue : startsWithWord (ascii "true") c.rest = true
  · rw [if_pos htrue] at h
    obtain ⟨x, s, hs, hlength, hhead, hagain⟩ := startsWithWord_ok (by decide) htrue
    obtain ⟨rfl, rfl⟩ := Prod.mk.inj (Except.ok.inj h)
    have hupper : toupper x = char 'T' := (Option.some.inj hhead).symm
    refine ⟨x :: s, hs, fun rest hrest => ?_⟩
    obtain ⟨hquote', hhex'⟩ := parseLiteral_letter (.inl hupper) (s ++ rest)
    rw [← List.cons_append] at hquote' hhex'
    rw [parseLiteral, if_neg hquote', if_neg hhex', if_pos (hagain rest hrest)]
    exact accepts_skipped hlength
  rw [if_neg htrue] at h
  by_cases hfalse : startsWithWord (ascii "false") c.rest = true
  · rw [if_pos hfalse] at h
    obtain ⟨x, s, hs, hlength, hhead, hagain⟩ := startsWithWord_ok (by decide) hfalse
    obtain ⟨rfl, rfl⟩ := Prod.mk.inj (Except.ok.inj h)
    have hupper : toupper x = char 'F' := (Option.some.inj hhead).symm
    refine ⟨x :: s, hs, fun rest hrest => ?_⟩
    obtain ⟨hquote', hhex'⟩ := parseLiteral_letter (.inr hupper) (s ++ rest)
    have htrue' : startsWithWord (ascii "true") (x :: s ++ rest) = false :=
      startsWithWord_of_ne (by rw [hupper]; decide)
    rw [← List.cons_append] at hquote' hhex'
    rw [parseLiteral, if_neg hquote', if_neg hhex', htrue', if_pos (hagain rest hrest)]
    exact accepts_skipped hlength
  rw [if_neg hfalse] at h
  by_cases henum : (ascii "enum(").isPrefixOf c.rest = true
  · rw [if_pos henum] at h
    obtain ⟨s, hs, haccepts⟩ := accepts_after_keyword (List.isPrefixOf_iff_prefix.mp henum) h fun c hbody =>
      (peeks_skipWhile.bind fun _ => peeks_parseSign.bind fun _ => peeks_takeWhile.bind fun _ =>
        delimited_close.peeks.bind fun _ => peeks_pure) c value c' hbody
    refine ⟨ascii "enum(" ++ s, hs, fun rest hrest => ?_⟩
    exact haccepts.mono fun _ heq => heq ▸ hrest
  rw [if_neg henum] at h
  obtain ⟨x, s, hx, hs, haccepts⟩ := parseInteger_ok h
  refine ⟨x :: s, hs, fun rest hrest => ?_⟩
  have hnot : startsHex (x :: s ++ rest) = false := by
    rw [hs] at hhex
    rw [Bool.eq_false_iff, ne_eq]
    rw [List.cons_append, startsHex_cons] at hhex ⊢
    rwa [head?_append_congr hrest]
  have hliteral : parseLiteral (x :: s ++ rest) = parseInteger := parseLiteral_number hx hnot
  rw [hliteral]
  exact haccepts.mono fun _ heq => heq ▸ hrest

/-! ### Leaves -/

theorem delimited_parseFieldEquals : Delimited parseFieldEquals :=
  peeks_parseFieldPath.bind_delimited fun _ => delimited_comma.peeks.bind_delimited fun _ =>
    peeks_parseFieldValue.bind_delimited fun _ => delimited_close.map

theorem delimited_parseFieldExists : Delimited parseFieldExists :=
  peeks_parseFieldPath.bind_delimited fun _ => delimited_close.map

theorem delimited_parseFieldContains : Delimited parseFieldContains :=
  peeks_parseFieldPath.bind_delimited fun _ => delimited_comma.peeks.bind_delimited fun _ =>
    peeks_parseFieldPath.bind_delimited fun _ => delimited_comma.peeks.bind_delimited fun _ =>
      peeks_parseFieldValue.bind_delimited fun _ => delimited_close.map

end Rsp.ErdText
