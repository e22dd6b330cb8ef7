import Rsp.Base
import Rsp.Lib.Talk

/-!
# Reading and writing a connection

The two loops of `transport.cpp` over the virtual `recv` and `send` of a connection, and what they do however the transport cuts the bytes.
-/

namespace Rsp

namespace Connection

/-- `Connection::readExact`. Every round but the last gets at least one byte, so that there are at most `length` rounds. -/
def readExact (length : Nat) : Talk (Option Bytes) := loop length length []
where
  loop : Nat → Nat → Bytes → Talk (Option Bytes)
    | 0, remaining, read => .done (if remaining = 0 then some read else none)
    | rounds + 1, remaining, read =>
      if remaining = 0 then .done (some read)
      else .recv remaining fun chunk =>
        if chunk.isEmpty then .done none else loop rounds (remaining - chunk.length) (read ++ chunk)

/-- `Connection::sendAll`. -/
def sendAll (data : Bytes) : Talk Bool := loop data.length data
where
  loop : Nat → Bytes → Talk Bool
    | 0, rest => .done rest.isEmpty
    | rounds + 1, rest =>
      if rest.isEmpty then .done true
      else .send rest fun count => if count = 0 then .done false else loop rounds (rest.drop count)

open Talk

variable {taken given : Bytes}

/-! ### What the loops do in every run -/

theorem trace_readExact_loop {rounds remaining : Nat} {read : Bytes} {q : Talk (Option Bytes)}
    (h : Trace (readExact.loop rounds remaining read) taken given q) (hrounds : remaining ≤ rounds) :
    given = [] ∧ ∀ data, q = .done (some data) → taken.length = remaining ∧ data = read ++ taken := by
  induction rounds generalizing remaining read taken with
  | zero =>
    obtain rfl : remaining = 0 := Nat.le_zero.mp hrounds
    obtain ⟨rfl, rfl, rfl⟩ := h.done_inv
    refine ⟨rfl, fun data hdata => ?_⟩
    cases hdata
    exact ⟨rfl, (List.append_nil _).symm⟩
  | succ rounds ih =>
    rw [readExact.loop] at h
    by_cases hremaining : remaining = 0
    · rw [if_pos hremaining] at h
      obtain ⟨rfl, rfl, rfl⟩ := h.done_inv
      refine ⟨rfl, fun data hdata => ?_⟩
      cases hdata
      exact ⟨hremaining.symm, (List.append_nil _).symm⟩
    · rw [if_neg hremaining] at h
      rcases h.recv_inv with ⟨rfl, rfl, rfl⟩ | ⟨chunk, later, hchunk, rfl, hnext⟩
      · exact ⟨rfl, by simp⟩
      · by_cases hempty : chunk.isEmpty
        · rw [if_pos hempty] at hnext
          obtain ⟨rfl, rfl, rfl⟩ := hnext.done_inv
          exact ⟨rfl, by simp⟩
        · rw [if_neg hempty] at hnext
          have hpos : 0 < chunk.length := by
            rw [List.isEmpty_iff] at hempty
            exact List.length_pos_iff.mpr hempty
          obtain ⟨hgiven, hdone⟩ := ih hnext (by omega)
          refine ⟨hgiven, fun data hdata => ?_⟩
          obtain ⟨hlength, rfl⟩ := hdone data hdata
          rw [List.length_append]
          exact ⟨by omega, List.append_assoc ..⟩

/-- `readExact` sends nothing, and if it succeeds it has read exactly `length` bytes. -/
theorem trace_readExact {length : Nat} {q : Talk (Option Bytes)} (h : Trace (readExact length) taken given q) :
    given = [] ∧ ∀ data, q = .done (some data) → taken.length = length ∧ data = taken :=
  trace_readExact_loop h le_rfl

theorem trace_sendAll_loop {rounds : Nat} {rest : Bytes} {q : Talk Bool}
    (h : Trace (sendAll.loop rounds rest) taken given q) (hrounds : rest.length ≤ rounds) :
    taken = [] ∧ given <+: rest ∧ (q = .done true ↔ given = rest) := by
  induction rounds generalizing rest given with
  | zero =>
    obtain rfl : rest = [] := List.eq_nil_of_length_eq_zero (Nat.le_zero.mp hrounds)
    obtain ⟨rfl, rfl, rfl⟩ := h.done_inv
    exact ⟨rfl, List.prefix_refl _, by simp⟩
  | succ rounds ih =>
    rw [sendAll.loop] at h
    by_cases hempty : rest.isEmpty
    · rw [if_pos hempty] at h
      obtain ⟨rfl, rfl, rfl⟩ := h.done_inv
      rw [List.isEmpty_iff] at hempty
      exact ⟨rfl, List.nil_prefix, by simp [hempty]⟩
    · rw [if_neg hempty] at h
      rw [List.isEmpty_iff] at hempty
      have hlength : 0 < rest.length := List.length_pos_iff.mpr hempty
      rcases h.send_inv with ⟨rfl, rfl, rfl⟩ | ⟨count, later, hcount, rfl, hnext⟩
      · exact ⟨rfl, List.nil_prefix, by simp [Ne.symm hempty]⟩
      · by_cases hzero : count = 0
        · rw [if_pos hzero] at hnext
          obtain ⟨rfl, rfl, rfl⟩ := hnext.done_inv
          exact ⟨rfl, by simp [hzero], by simp [hzero, Ne.symm hempty]⟩
        · rw [if_neg hzero] at hnext
          obtain ⟨htaken, hgiven, hdone⟩ := ih hnext (by rw [List.length_drop]; omega)
          have hrest : rest.take count ++ rest.drop count = rest := List.take_append_drop ..
          refine ⟨htaken, ?_, ?_⟩
          · conv_rhs => rw [← hrest]
            exact (List.prefix_append_right_inj _).mpr hgiven
          · rw [hdone]
            conv_rhs => rhs; rw [← hrest]
            rw [List.append_cancel_left_eq]

/-- `sendAll` reads nothing and sends a part of its data from the front, all of it exactly if it succeeds. -/
theorem trace_sendAll {data : Bytes} {q : Talk Bool} (h : Trace (sendAll data) taken given q) :
    taken = [] ∧ given <+: data ∧ (q = .done true ↔ given = data) :=
  trace_sendAll_loop h le_rfl

/-! ### Reading to the end -/

theorem eval_readExact_loop (sizes : Nat → Nat) (rounds remaining : Nat) (read input : Bytes) (call : Nat)
    (hrounds : remaining ≤ rounds) (hinput : remaining ≤ input.length) :
    ∃ call', (readExact.loop rounds remaining read).eval (fun i => some (sizes i)) call input =
      ⟨some (read ++ input.take remaining), call', input.drop remaining, []⟩ := by
  induction rounds generalizing remaining read input call with
  | zero =>
    obtain rfl : remaining = 0 := Nat.le_zero.mp hrounds
    exact ⟨call, by simp [readExact.loop, eval]⟩
  | succ rounds ih =>
    rw [readExact.loop]
    by_cases hremaining : remaining = 0
    · rw [if_pos hremaining, hremaining]
      exact ⟨call, by simp [eval]⟩
    · rw [if_neg hremaining]
      simp only [eval]
      have hpiece : (input.take (min remaining (sizes call + 1))).length = min remaining (sizes call + 1) := by
        rw [List.length_take]
        omega
      generalize hcount : min remaining (sizes call + 1) = count at hpiece ⊢
      have hne : ¬ (input.take count).isEmpty = true := by
        rw [List.isEmpty_iff_length_eq_zero]
        omega
      rw [if_neg hne, hpiece]
      obtain ⟨call', heval⟩ := ih (remaining - count) (read ++ input.take count) (input.drop count) (call + 1) (by omega)
        (by rw [List.length_drop]; omega)
      refine ⟨call', ?_⟩
      have hcut : count + (remaining - count) = remaining := by omega
      rw [heval, List.append_assoc, ← List.take_add, List.drop_drop, hcut]

/-- As long as no call fails, `readExact` gets its bytes if they are there, whatever the pieces. -/
theorem eval_readExact (sizes : Nat → Nat) (length : Nat) (input : Bytes) (call : Nat) (hinput : length ≤ input.length) :
    ∃ call', (readExact length).eval (fun i => some (sizes i)) call input =
      ⟨some (input.take length), call', input.drop length, []⟩ :=
  eval_readExact_loop sizes length length [] input call le_rfl hinput

end Connection

end Rsp
