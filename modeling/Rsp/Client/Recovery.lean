import Rsp.Client.Reconnect

/-!
# Lost connections and who re-establishes them

A connection is stranded when its current encoding has lost the connection and nothing is left that would start `doReconnect`. The callback of a new encoding is installed after its read loop has started, and it is ignored while `inProgress` is set; so a loss during the set-up can strand the connection, and so can an attempt that the client gives up.
-/

namespace Rsp

open Counting

/-- The next step of the thread is to start the new encoding. -/
def ReconnectPhase.isChecked : ReconnectPhase → Bool
  | .checked _ => true
  | _ => false

namespace ReconnectState

/-- The read loop has a callback that starts `doReconnect`: it is inside it, or still has to fetch it and it is installed or installed next. -/
def CallsBack (sys : ReconnectState) (index : Nat) (encoding : EncodingThread) : Prop :=
  encoding.loop = .triggering ∨ encoding.loop = .comparing ∨ encoding.loop = .claimed ∨
    (encoding.loop = .lost ∧ (encoding.disconnectCallback = true ∨ sys.setup = .enabled index))

/-- A registered connection that is lost and that nobody re-establishes. -/
def Stranded (sys : ReconnectState) : Prop :=
  sys.registered = true ∧ sys.stopping = false ∧
    (∃ encoding, sys.encodings[sys.current]? = some encoding ∧ encoding.connectionLost = true) ∧
    (∀ phase ∈ sys.threads, phase = .finished) ∧
    ∀ (index : Nat) (encoding : EncodingThread), sys.encodings[index]? = some encoding → ¬ sys.CallsBack index encoding

/-- Transport `reconnect()` does not return null. -/
def ReconnectsTransport (sys : ReconnectState) : Step → Prop
  | .doReconnect index _ succeeded => sys.threads[index]? = some .connecting → succeeded = true
  | _ => True

/-- Moreover a read loop that has lost the connection finds the callback installed and `inProgress` reset, the handshake queue takes every attempt, the lightweight client's attempts succeed, and new encodings start. -/
def SetsUpInTime (kind : ClientKind) (sys : ReconnectState) : Step → Prop
  | .readLoop index => ∀ encoding ∈ sys.encodings[index]?,
      (encoding.loop = .lost → encoding.disconnectCallback = true) ∧ (encoding.loop = .comparing → sys.inProgress = false)
  | .doReconnect index accepted succeeded =>
    (sys.threads[index]? = some .connecting → succeeded = true) ∧
      (sys.threads[index]? = some .attempting → accepted = true ∧ (kind = .lightweight → succeeded = true)) ∧
      ((sys.threads[index]?).any ReconnectPhase.isChecked = true → succeeded = true)
  | _ => True

instance (sys : ReconnectState) (step : Step) : Decidable (sys.ReconnectsTransport step) := by
  cases step <;> unfold ReconnectsTransport <;> infer_instance

instance (kind : ClientKind) (sys : ReconnectState) (step : Step) : Decidable (sys.SetsUpInTime kind step) := by
  cases step <;> unfold SetsUpInTime <;> infer_instance

/-- The connection is in use, and nobody has asked to remove it. -/
def Live (sys : ReconnectState) : Prop := sys.registered = true ∧ sys.stopping = false

end ReconnectState

/-- A read loop that has lost the connection has not yet given up. -/
def EncodingThread.Reacts (encoding : EncodingThread) : Prop :=
  encoding.connectionLost = true →
    encoding.loop = .lost ∨ encoding.loop = .triggering ∨ encoding.loop = .comparing ∨ encoding.loop = .claimed

namespace ReconnectState

/-- What a thread of `doReconnect` can rely on in each phase. -/
def Carries (sys : ReconnectState) : ReconnectPhase → Prop
  | .established new | .checked new =>
    ∀ encoding ∈ sys.encodings[new]?, encoding.loop = .idle ∧ encoding.connectionLost = false
  | .started new => sys.Live → ∀ encoding ∈ sys.encodings[new]?, encoding.Reacts
  | .discarding _ => ¬ sys.Live
  | .swapped new _ | .stoppedOld new _ | .joinedOld new =>
    sys.Live → sys.current = new ∧ ∀ encoding ∈ sys.encodings[new]?, encoding.Reacts
  | .returning => sys.Live → ∀ encoding ∈ sys.encodings[sys.current]?,
      encoding.Reacts ∧ encoding.disconnectCallback = true
  | _ => True

/-- Before `enableReconnect` is done nothing can trigger a reconnection. -/
structure SettingUp (sys : ReconnectState) : Prop where
  threads : sys.threads = []
  inProgress : sys.inProgress = false
  encoding : ∀ encoding ∈ sys.encodings, encoding.disconnectCallback = false ∧
    (encoding.loop = .idle ∨ encoding.loop = .reading ∨ encoding.loop = .lost ∨ encoding.loop = .ended) ∧
    (encoding.connectionLost = true → encoding.loop = .lost)
  fresh : sys.setup = .established → sys.encodings = [{}]
  unregistered : sys.setup = .established ∨ sys.setup = .started ∨ sys.setup = .failed → sys.registered = false
  disabled : sys.setup = .established ∨ sys.setup = .started ∨ sys.setup = .registered ∨ sys.setup = .failed →
    sys.stopping = true
  enabled : ∀ index, sys.setup = .enabled index → index = sys.current

structure Recovering (sys : ReconnectState) : Prop where
  owner : sys.threads.countP (fun phase => phase ≠ .finished) +
    sys.encodings.countP (fun encoding => encoding.loop = .claimed) = if sys.inProgress then 1 else 0
  settingUp : sys.setup ≠ .done → sys.SettingUp
  current : sys.current < sys.encodings.length
  covered : sys.Live → sys.inProgress = false → sys.setup = .done → ∀ encoding ∈ sys.encodings[sys.current]?,
    encoding.Reacts ∧ encoding.disconnectCallback = true
  thread : ∀ phase ∈ sys.threads, sys.Carries phase

/-- With the invariant the connection is not stranded. -/
theorem Recovering.not_stranded {sys : ReconnectState} (h : sys.Recovering) : ¬ sys.Stranded := by
  rintro ⟨hregistered, hstopping, ⟨encoding, hget, hlost⟩, hfinished, hsilent⟩
  have hnot := hsilent sys.current encoding hget
  by_cases hsetup : sys.setup = .done
  · cases hprogress : sys.inProgress with
    | false =>
      obtain ⟨hreacts, hcallback⟩ := h.covered ⟨hregistered, hstopping⟩ hprogress hsetup encoding hget
      rcases hreacts hlost with hloop | hloop | hloop | hloop
      · exact hnot (.inr (.inr (.inr ⟨hloop, .inl hcallback⟩)))
      · exact hnot (.inl hloop)
      · exact hnot (.inr (.inl hloop))
      · exact hnot (.inr (.inr (.inl hloop)))
    | true =>
      -- the owner of the flag is a thread, which is finished, or a loop about to start one
      have howner := h.owner
      have hthreads : sys.threads.countP (fun phase => phase ≠ .finished) = 0 :=
        List.countP_eq_zero.mpr fun phase hphase => by simp [hfinished phase hphase]
      rw [hthreads, hprogress, if_pos rfl] at howner
      have hpos : 0 < sys.encodings.countP (fun encoding => encoding.loop = .claimed) := by omega
      obtain ⟨claimed, hmem, hclaimed⟩ := List.countP_pos_iff.mp hpos
      obtain ⟨index, hindex⟩ := List.getElem?_of_mem hmem
      exact hsilent index claimed hindex (.inr (.inr (.inl (by simpa using hclaimed))))
  · have hsettingUp := h.settingUp hsetup
    obtain ⟨-, -, hloop⟩ := hsettingUp.encoding encoding (List.mem_of_getElem? hget)
    cases hphase : sys.setup with
    | done => exact hsetup hphase
    | enabled index =>
      obtain rfl := hsettingUp.enabled index hphase
      exact hnot (.inr (.inr (.inr ⟨hloop hlost, .inr hphase⟩)))
    | established | started | registered | failed =>
      have := hsettingUp.disabled (by simp [hphase])
      rw [hstopping] at this
      cases this

/-! ### Steps -/

variable {kind : ClientKind} {sys sys' : ReconnectState}

theorem getElem?_setEncoding {index : Nat} {old new : EncodingThread} (h : sys.encodings[index]? = some old) (j : Nat) :
    (sys.setEncoding index new).encodings[j]? = if j = index then some new else sys.encodings[j]? := by
  have hlt : index < sys.encodings.length := (List.getElem?_eq_some_iff.mp h).1
  by_cases heq : j = index
  · rw [if_pos heq, heq]
    exact List.getElem?_set_self hlt
  · rw [if_neg heq]
    exact List.getElem?_set_ne (Ne.symm heq)

theorem reacts_setEncoding {index j : Nat} {old new : EncodingThread} (hget : sys.encodings[index]? = some old)
    (hreacts : old.Reacts → new.Reacts) (h : ∀ encoding ∈ sys.encodings[j]?, encoding.Reacts) :
    ∀ encoding ∈ (sys.setEncoding index new).encodings[j]?, encoding.Reacts := by
  intro encoding hencoding
  rw [getElem?_setEncoding hget] at hencoding
  split_ifs at hencoding with heq
  · rw [← Option.mem_some.mp hencoding]
    exact hreacts (h old (heq ▸ hget))
  · exact h encoding hencoding

namespace Recovering

/-- While a thread is running no other one is, and no read loop is about to start one. -/
theorem alone (h : sys.Recovering) {index : Nat} {phase : ReconnectPhase} (hphase : sys.threads[index]? = some phase)
    (hactive : phase ≠ .finished) :
    sys.inProgress = true ∧ (∀ other ∈ sys.threads.eraseIdx index, other = .finished) ∧
      ∀ encoding ∈ sys.encodings, encoding.loop ≠ .claimed := by
  have howner := h.owner
  rw [(perm_of_getElem? hphase).countP_eq, List.countP_cons, if_pos (by simpa using hactive)] at howner
  cases hprogress : sys.inProgress with
  | false =>
    rw [hprogress] at howner
    simp at howner
  | true =>
    rw [hprogress, if_pos rfl] at howner
    have hthreads : (sys.threads.eraseIdx index).countP (fun phase => phase ≠ .finished) = 0 := by omega
    have hloops : sys.encodings.countP (fun encoding => encoding.loop = .claimed) = 0 := by omega
    refine ⟨rfl, fun other hother => ?_, fun encoding hencoding => ?_⟩
    · simpa using List.countP_eq_zero.mp hthreads other hother
    · simpa using List.countP_eq_zero.mp hloops encoding hencoding

theorem finished_of_not_inProgress (h : sys.Recovering) (hprogress : sys.inProgress = false) :
    (∀ phase ∈ sys.threads, phase = .finished) ∧ ∀ encoding ∈ sys.encodings, encoding.loop ≠ .claimed := by
  have howner := h.owner
  rw [hprogress, if_neg (by simp)] at howner
  have hthreads : sys.threads.countP (fun phase => phase ≠ .finished) = 0 := by omega
  have hloops : sys.encodings.countP (fun encoding => encoding.loop = .claimed) = 0 := by omega
  refine ⟨fun phase hphase => ?_, fun encoding hencoding => ?_⟩
  · simpa using List.countP_eq_zero.mp hthreads phase hphase
  · simpa using List.countP_eq_zero.mp hloops encoding hencoding

/-- A thread goes on. Only what it relies on has to be shown. -/
theorem moveThread (h : sys.Recovering) {index : Nat} {phase after : ReconnectPhase}
    (hphase : sys.threads[index]? = some phase) (hactive : phase ≠ .finished) (hafter : after ≠ .finished)
    (hthreads : sys'.threads = sys.threads.set index after) (hprogress : sys'.inProgress = sys.inProgress)
    (hsetup : sys'.setup = sys.setup) (hloops : ∀ encoding ∈ sys'.encodings, encoding.loop ≠ .claimed)
    (hcurrent : sys'.current < sys'.encodings.length) (hcarries : sys'.Carries after) : sys'.Recovering := by
  obtain ⟨hinProgress, hothers, -⟩ := h.alone hphase hactive
  have hmem : ∀ p ∈ sys'.threads, p = after ∨ p = .finished := by
    intro p hp
    rw [hthreads] at hp
    rcases mem_replaceAt hphase (some after) hp with heq | hother
    · exact .inl (Option.mem_some.mp heq).symm
    · exact .inr (hothers p hother)
  refine ⟨?_, fun hne => ?_, hcurrent, fun _ hfalse => ?_, fun p hp => ?_⟩
  · have hcount := countP_replaceAt hphase (some after) fun phase => phase ≠ .finished
    have howner := h.owner
    have hnone : sys'.encodings.countP (fun encoding => encoding.loop = .claimed) = 0 :=
      List.countP_eq_zero.mpr fun encoding hencoding => by simpa using hloops encoding hencoding
    rw [if_pos (by simpa using hactive), Option.toList_some, List.countP_singleton, if_pos (by simpa using hafter)] at hcount
    rw [hnone, hprogress, hthreads]
    simp only [replaceAt] at hcount
    rw [hinProgress, if_pos rfl] at howner ⊢
    have hpos : 0 < sys.threads.countP (fun phase => phase ≠ .finished) :=
      List.countP_pos_iff.mpr ⟨phase, List.mem_of_getElem? hphase, by simpa using hactive⟩
    omega
  · have hempty := (h.settingUp (hsetup ▸ hne)).threads
    rw [hempty] at hphase
    cases hphase
  · rw [hprogress, hinProgress] at hfalse
    cases hfalse
  · rcases hmem p hp with rfl | rfl
    · exact hcarries
    · trivial

/-- The thread ends. -/
theorem finish (h : sys.Recovering) {index : Nat} (hphase : sys.threads[index]? = some .returning) :
    Recovering { sys.setThread index .finished with inProgress := false } := by
  obtain ⟨hinProgress, hothers, hloops⟩ := h.alone hphase (by simp)
  have hfinished : ∀ p ∈ sys.threads.set index .finished, p = .finished := by
    intro p hp
    rcases mem_replaceAt hphase (some .finished) hp with heq | hother
    · exact (Option.mem_some.mp heq).symm
    · exact hothers p hother
  refine ⟨?_, fun hne => ?_, h.current, fun hlive _ _ => ?_, fun p hp => ?_⟩
  · have hthreads : (sys.threads.set index .finished).countP (fun phase => phase ≠ .finished) = 0 :=
      List.countP_eq_zero.mpr fun p hp => by simp [hfinished p hp]
    have hnone : sys.encodings.countP (fun encoding => encoding.loop = .claimed) = 0 :=
      List.countP_eq_zero.mpr fun encoding hencoding => by simpa using hloops encoding hencoding
    simp only [setThread, hthreads, hnone]
    rfl
  · have hempty := (h.settingUp hne).threads
    rw [hempty] at hphase
    cases hphase
  · exact h.thread .returning (List.mem_of_getElem? hphase) hlive
  · rw [hfinished p hp]
    trivial

/-- A thread goes on and changes nothing else. -/
theorem goOn (h : sys.Recovering) {index : Nat} {phase after : ReconnectPhase}
    (hphase : sys.threads[index]? = some phase) (hactive : phase ≠ .finished) (hafter : after ≠ .finished)
    (hcarries : sys.Carries after) : (sys.setThread index after).Recovering := by
  obtain ⟨-, -, hloops⟩ := h.alone hphase hactive
  refine h.moveThread hphase hactive hafter rfl rfl rfl hloops h.current ?_
  cases after <;> exact hcarries

/-- A thread changes one encoding, whose read loop does not claim the flag by that. -/
theorem changeEncoding (h : sys.Recovering) {index new : Nat} {phase after : ReconnectPhase}
    {old encoding : EncodingThread} (hphase : sys.threads[index]? = some phase) (hactive : phase ≠ .finished)
    (hafter : after ≠ .finished) (hget : sys.encodings[new]? = some old)
    (hloop : encoding.loop = old.loop ∨ encoding.loop = .reading)
    (hcarries : (sys.setEncoding new encoding).Carries after) :
    ((sys.setEncoding new encoding).setThread index after).Recovering := by
  obtain ⟨-, -, hloops⟩ := h.alone hphase hactive
  refine h.moveThread hphase hactive hafter rfl rfl rfl (fun other hother => ?_) ?_ ?_
  · rcases List.mem_or_eq_of_mem_set hother with hold | rfl
    · exact hloops other hold
    · rcases hloop with hloop | hloop
      · rw [hloop]
        exact hloops old (List.mem_of_getElem? hget)
      · rw [hloop]
        simp
  · simpa [setThread, setEncoding] using h.current
  · cases after <;> exact hcarries

/-- A thread takes a step. -/
theorem nextThread (h : sys.Recovering) {index : Nat} {accepted succeeded : Bool} {phase : ReconnectPhase}
    (hphase : sys.threads[index]? = some phase) (hallowed : sys.SetsUpInTime kind (.doReconnect index accepted succeeded))
    (hstep : sys.nextThread kind index accepted succeeded phase = some sys') : sys'.Recovering := by
  obtain ⟨hconnects, hattempts, hstarts⟩ := hallowed
  have hcarried := h.thread phase (List.mem_of_getElem? hphase)
  -- a thread that finds the connection removed has nothing to show
  have hunregistered : ¬ sys.registered = true → sys.Carries .returning := fun hnot hlive => absurd hlive.1 hnot
  have hstopped : sys.stopping = true → sys.Carries .returning := by
    intro hstopping hlive
    rw [hlive.2] at hstopping
    cases hstopping
  cases phase with
  | finished => cases hstep
  | returning =>
    obtain rfl := Option.some.inj hstep
    exact h.finish hphase
  | lookup =>
    obtain rfl := Option.some.inj hstep
    split_ifs with hregistered
    · exact h.goOn hphase (by simp) (by simp) trivial
    · exact h.goOn hphase (by simp) (by simp) (hunregistered hregistered)
  | found =>
    obtain rfl := Option.some.inj hstep
    split_ifs with hstopping
    · exact h.goOn hphase (by simp) (by simp) (hstopped hstopping)
    · exact h.goOn hphase (by simp) (by simp) trivial
    · exact h.goOn hphase (by simp) (by simp) trivial
  | loopTop =>
    obtain rfl := Option.some.inj hstep
    split_ifs with hstopping
    · exact h.goOn hphase (by simp) (by simp) (hstopped hstopping)
    · exact h.goOn hphase (by simp) (by simp) trivial
  | connecting =>
    obtain rfl := Option.some.inj hstep
    rw [hconnects hphase, Bool.not_true, Bool.false_or]
    split_ifs with hstopping
    · exact h.goOn hphase (by simp) (by simp) (hstopped hstopping)
    · exact h.goOn hphase (by simp) (by simp) trivial
  | attempting =>
    obtain ⟨-, -, hloops⟩ := h.alone hphase (by simp)
    obtain ⟨rfl, hlightweight⟩ := hattempts hphase
    simp only [ReconnectState.nextThread, Bool.not_true, Bool.false_eq_true, if_false] at hstep
    split_ifs at hstep with hsucceeded hkind
    · obtain rfl := Option.some.inj hstep
      refine h.moveThread hphase (by simp) (by simp) rfl rfl rfl (fun encoding hencoding => ?_) ?_ ?_
      · rcases List.mem_append.mp hencoding with hold | hnew
        · exact hloops encoding hold
        · rw [List.mem_singleton.mp hnew]
          simp
      · have := h.current
        simp only [setThread, List.length_append, List.length_singleton]
        omega
      · intro encoding hencoding
        rw [List.getElem?_concat_length, Option.mem_some] at hencoding
        rw [← hencoding]
        exact ⟨rfl, rfl⟩
    · obtain rfl := Option.some.inj hstep
      exact h.goOn hphase (by simp) (by simp) trivial
    · cases kind with
      | lightweight => exact absurd (hlightweight rfl) hsucceeded
      | full => exact absurd rfl hkind
  | delaying | woken =>
    simp only [ReconnectState.nextThread] at hstep
    split_ifs at hstep
    all_goals
      obtain rfl := Option.some.inj hstep
      exact h.goOn hphase (by simp) (by simp) trivial
  | waiting =>
    obtain rfl := Option.some.inj hstep
    exact h.goOn hphase (by simp) (by simp) trivial
  | established new =>
    obtain rfl := Option.some.inj hstep
    split_ifs with hstopping
    · exact h.goOn hphase (by simp) (by simp) (hstopped hstopping)
    · exact h.goOn hphase (by simp) (by simp) hcarried
  | checked new =>
    obtain ⟨encoding, hget, rfl⟩ := Option.map_eq_some_iff.mp hstep
    rw [if_pos (hstarts (by rw [hphase]; rfl))]
    refine h.changeEncoding hphase (by simp) (by simp) hget (.inr rfl) fun _ other hother => ?_
    rw [getElem?_setEncoding hget, if_pos rfl, Option.mem_some] at hother
    rw [← hother]
    intro hlost
    have hfresh := (hcarried encoding hget).2
    simp only [hfresh, Bool.false_eq_true] at hlost
  | started new =>
    obtain ⟨encoding, hget, rfl⟩ := Option.map_eq_some_iff.mp hstep
    obtain ⟨-, -, hloops⟩ := h.alone hphase (by simp)
    split_ifs with hremoved
    · refine h.changeEncoding hphase (by simp) (by simp) hget (.inl rfl) ?_
      rintro ⟨hregistered, hstopping⟩
      simp only [setEncoding] at hregistered hstopping
      simp [hregistered, hstopping] at hremoved
    · refine h.moveThread hphase (by simp) (by simp) rfl rfl rfl hloops ?_ fun hlive => ⟨rfl, hcarried hlive⟩
      exact (List.getElem?_eq_some_iff.mp hget).1
  | discarding new =>
    obtain ⟨encoding, -, hstep⟩ := Option.bind_eq_some_iff.mp hstep
    split_ifs at hstep
    obtain rfl := Option.some.inj hstep
    exact h.goOn hphase (by simp) (by simp) fun hlive => absurd hlive hcarried
  | swapped new old =>
    obtain ⟨encoding, hget, rfl⟩ := Option.map_eq_some_iff.mp hstep
    refine h.changeEncoding hphase (by simp) (by simp) hget (.inl rfl) fun hlive => ?_
    obtain ⟨hcurrent, hreacts⟩ := hcarried hlive
    exact ⟨hcurrent, reacts_setEncoding hget (fun hreacts => hreacts) hreacts⟩
  | stoppedOld new old =>
    obtain ⟨encoding, -, hstep⟩ := Option.bind_eq_some_iff.mp hstep
    split_ifs at hstep
    obtain rfl := Option.some.inj hstep
    exact h.goOn hphase (by simp) (by simp) hcarried
  | joinedOld new =>
    obtain ⟨encoding, hget, rfl⟩ := Option.map_eq_some_iff.mp hstep
    refine h.changeEncoding hphase (by simp) (by simp) hget (.inl rfl) fun hlive other hother => ?_
    obtain ⟨hcurrent, hreacts⟩ := hcarried hlive
    simp only [setEncoding, hcurrent] at hother
    rw [List.getElem?_set_self (List.getElem?_eq_some_iff.mp hget).1, Option.mem_some] at hother
    rw [← hother]
    exact ⟨hreacts encoding hget, rfl⟩

/-- A read loop goes on without claiming the flag or letting it go. -/
theorem changeLoop (h : sys.Recovering) {index : Nat} {old new : EncodingThread}
    (hget : sys.encodings[index]? = some old) (hidle : old.loop ≠ .idle)
    (hcallback : new.disconnectCallback = old.disconnectCallback) (hclaimed : new.loop ≠ .claimed)
    (hclaimed' : old.loop ≠ .claimed) (hreacts : sys.Live → old.Reacts → new.Reacts)
    (hsettingUp : sys.setup ≠ .done →
      (new.loop = .lost ∨ new.loop = .ended) ∧ (new.connectionLost = true → new.loop = .lost)) :
    (sys.setEncoding index new).Recovering := by
  refine ⟨?_, fun hne => ?_, ?_, fun hlive hprogress hdone => ?_, fun phase hphase => ?_⟩
  · have howner := h.owner
    have hcount := countP_replaceAt hget (some new) fun encoding => encoding.loop = .claimed
    simp only [hclaimed, hclaimed', decide_false, Bool.false_eq_true, if_false, Option.toList_some, List.countP_singleton,
      replaceAt] at hcount
    refine Eq.trans ?_ howner
    simp only [setEncoding]
    omega
  · obtain ⟨hloop, hlost⟩ := hsettingUp hne
    have hsetting := h.settingUp hne
    refine { hsetting with encoding := fun encoding hmem => ?_, fresh := fun hfresh => ?_ }
    · rcases List.mem_or_eq_of_mem_set hmem with hold | rfl
      · exact hsetting.encoding encoding hold
      · obtain ⟨hnone, -, -⟩ := hsetting.encoding old (List.mem_of_getElem? hget)
        exact ⟨hcallback.trans hnone, hloop.elim (fun h => .inr (.inr (.inl h))) fun h => .inr (.inr (.inr h)), hlost⟩
    · -- the first encoding is not started yet, so it is idle
      have hold := List.mem_of_getElem? hget
      rw [hsetting.fresh hfresh, List.mem_singleton] at hold
      rw [hold] at hidle
      exact absurd rfl hidle
  · simpa [setEncoding] using h.current
  · intro encoding hencoding
    have hcurrent := h.covered hlive hprogress hdone
    rw [getElem?_setEncoding hget] at hencoding
    split_ifs at hencoding with heq
    · obtain ⟨hreacts', hcallback'⟩ := hcurrent old (heq ▸ hget)
      rw [← Option.mem_some.mp hencoding]
      exact ⟨hreacts hlive hreacts', hcallback.trans hcallback'⟩
    · exact hcurrent encoding hencoding
  · have hcarries := h.thread phase hphase
    cases phase with
    | established other | checked other =>
      intro encoding hencoding
      rw [getElem?_setEncoding hget] at hencoding
      split_ifs at hencoding with heq
      · exact absurd (hcarries old (heq ▸ hget)).1 hidle
      · exact hcarries encoding hencoding
    | started other =>
      intro hlive
      exact reacts_setEncoding hget (hreacts hlive) (hcarries hlive)
    | swapped other _ | stoppedOld other _ | joinedOld other =>
      intro hlive
      exact ⟨(hcarries hlive).1, reacts_setEncoding hget (hreacts hlive) (hcarries hlive).2⟩
    | returning =>
      intro hlive encoding hencoding
      simp only [setEncoding] at hencoding
      change encoding ∈ (sys.setEncoding index new).encodings[sys.current]? at hencoding
      rw [getElem?_setEncoding hget] at hencoding
      split_ifs at hencoding with heq
      · obtain ⟨hreacts', hcallback'⟩ := hcarries hlive old (heq ▸ hget)
        rw [← Option.mem_some.mp hencoding]
        exact ⟨hreacts hlive hreacts', hcallback.trans hcallback'⟩
      · exact hcarries hlive encoding hencoding
    | discarding => exact hcarries
    | lookup | found | loopTop | connecting | attempting | delaying | waiting | woken | finished => trivial

/-- A read loop sets the flag. -/
theorem claim (h : sys.Recovering) {index : Nat} {encoding : EncodingThread}
    (hget : sys.encodings[index]? = some encoding) (hloop : encoding.loop = .comparing) (hprogress : sys.inProgress = false) :
    Recovering { sys.setEncoding index { encoding with loop := .claimed } with inProgress := true } := by
  obtain ⟨hthreads, hloops⟩ := h.finished_of_not_inProgress hprogress
  refine ⟨?_, fun hne => ?_, ?_, fun _ hfalse => ?_, fun phase hphase => ?_⟩
  · have howner := h.owner
    have hcount := countP_replaceAt hget (some { encoding with loop := .claimed }) fun encoding => encoding.loop = .claimed
    simp only [hloop, reduceCtorEq, decide_false, decide_true, Bool.false_eq_true, if_false, if_true, Option.toList_some,
      List.countP_singleton, replaceAt] at hcount
    rw [hprogress] at howner
    simp only [setEncoding, Bool.false_eq_true, if_false, if_true] at howner ⊢
    omega
  · obtain ⟨-, hloop', -⟩ := (h.settingUp hne).encoding encoding (List.mem_of_getElem? hget)
    simp [hloop] at hloop'
  · simpa [setEncoding] using h.current
  · cases hfalse
  · rw [hthreads phase hphase]
    trivial

/-- A read loop that has set the flag starts the thread. -/
theorem spawn (h : sys.Recovering) {index : Nat} {encoding : EncodingThread}
    (hget : sys.encodings[index]? = some encoding) (hloop : encoding.loop = .claimed) :
    Recovering { sys.setEncoding index { encoding with loop := .ended } with threads := sys.threads ++ [.lookup] } := by
  have howner := h.owner
  have hcount := countP_replaceAt hget (some { encoding with loop := .ended }) fun encoding => encoding.loop = .claimed
  have hpos : 0 < sys.encodings.countP (fun encoding => encoding.loop = .claimed) :=
    List.countP_pos_iff.mpr ⟨encoding, List.mem_of_getElem? hget, by simpa using hloop⟩
  simp only [hloop, reduceCtorEq, decide_false, decide_true, Bool.false_eq_true, if_false, if_true, Option.toList_some,
    List.countP_singleton, replaceAt] at hcount
  have hprogress : sys.inProgress = true := by
    cases hfalse : sys.inProgress with
    | true => rfl
    | false =>
      rw [hfalse] at howner
      simp only [Bool.false_eq_true, if_false] at howner
      omega
  rw [hprogress, if_pos rfl] at howner
  have hnone : sys.threads.countP (fun phase => phase ≠ .finished) = 0 := by omega
  refine ⟨?_, fun hne => ?_, ?_, fun _ hfalse => ?_, fun phase hphase => ?_⟩
  · simp only [setEncoding, List.countP_append, List.countP_singleton, hprogress, if_true, ne_eq, reduceCtorEq,
      not_false_eq_true, decide_true] at hnone ⊢
    omega
  · obtain ⟨-, hloop', -⟩ := (h.settingUp hne).encoding encoding (List.mem_of_getElem? hget)
    simp [hloop] at hloop'
  · simpa [setEncoding] using h.current
  · exact absurd (hprogress.symm.trans hfalse) (by simp)
  · rcases List.mem_append.mp hphase with hold | hnew
    · have hfinished : phase = .finished := by simpa using List.countP_eq_zero.mp hnone phase hold
      rw [hfinished]
      trivial
    · rw [List.mem_singleton.mp hnew]
      trivial

/-- A read loop takes a step. -/
theorem nextReadLoop (h : sys.Recovering) {index : Nat} {encoding : EncodingThread}
    (hget : sys.encodings[index]? = some encoding) (hallowed : sys.SetsUpInTime kind (.readLoop index))
    (hstep : sys.nextReadLoop index encoding = some sys') : sys'.Recovering := by
  obtain ⟨hfetches, hcompares⟩ := hallowed encoding hget
  have hsetting := fun hne => (h.settingUp hne).encoding encoding (List.mem_of_getElem? hget)
  cases hloop : encoding.loop with
  | idle | ended => simp [ReconnectState.nextReadLoop, hloop] at hstep
  | reading =>
    simp only [ReconnectState.nextReadLoop, hloop] at hstep
    split_ifs at hstep
    · obtain rfl := Option.some.inj hstep
      exact h.changeLoop hget (by simp [hloop]) rfl (by simp) (by simp [hloop]) (fun _ _ _ => .inl rfl)
        fun _ => ⟨.inl rfl, fun _ => rfl⟩
    · -- stopped from outside: the connection was not lost
      have hnotLost : encoding.Reacts → encoding.connectionLost = false := by
        intro hreacts
        cases hlost : encoding.connectionLost with
        | false => rfl
        | true => simpa [hloop] using hreacts hlost
      obtain rfl := Option.some.inj hstep
      refine h.changeLoop hget (by simp [hloop]) rfl (by simp) (by simp [hloop]) (fun _ hreacts hlost => ?_)
        fun hne => ⟨.inr rfl, fun hlost => ?_⟩
      · simp [hnotLost hreacts] at hlost
      · have hlost' := (hsetting hne).2.2 hlost
        rw [hloop] at hlost'
        cases hlost'
  | lost =>
    simp only [ReconnectState.nextReadLoop, hloop, hfetches hloop, if_true] at hstep
    obtain rfl := Option.some.inj hstep
    refine h.changeLoop hget (by simp [hloop]) (hfetches hloop).symm (by simp) (by simp [hloop])
      (fun _ _ _ => .inr (.inl rfl)) fun hne => ?_
    have hnone := (hsetting hne).1
    rw [hfetches hloop] at hnone
    cases hnone
  | triggering =>
    simp only [ReconnectState.nextReadLoop, hloop] at hstep
    obtain rfl := Option.some.inj hstep
    refine h.changeLoop hget (by simp [hloop]) rfl ?_ (by simp [hloop]) (fun hlive _ _ => ?_) fun hne => ?_
    · split_ifs <;> simp
    · rw [hlive.2]
      exact .inr (.inr (.inl rfl))
    · have hloop' := (hsetting hne).2.1
      simp [hloop] at hloop'
  | comparing =>
    have hprogress := hcompares hloop
    simp only [ReconnectState.nextReadLoop, hloop, hprogress, Bool.false_eq_true, if_false] at hstep
    obtain rfl := Option.some.inj hstep
    exact h.claim hget hloop hprogress
  | claimed =>
    simp only [ReconnectState.nextReadLoop, hloop] at hstep
    split_ifs at hstep
    obtain rfl := Option.some.inj hstep
    exact h.spawn hget hloop

/-- The remover only makes the connection less alive. -/
theorem retract (h : sys.Recovering) {registered stopping : Bool} {remover : RemoverPhase}
    (hregistered : registered = true → sys.registered = true) (hstopping : stopping = false → sys.stopping = false) :
    Recovering { sys with registered, stopping, remover } := by
  have hlive : Live { sys with registered, stopping, remover } → sys.Live := fun hlive =>
    ⟨hregistered hlive.1, hstopping hlive.2⟩
  refine ⟨h.owner, fun hne => ?_, h.current, fun hlive' => h.covered (hlive hlive'), fun phase hphase => ?_⟩
  · have hsetting := h.settingUp hne
    refine { hsetting with unregistered := fun hearly => ?_, disabled := fun hearly => ?_ }
    · have hfalse := hsetting.unregistered hearly
      cases hr : registered with
      | false => rfl
      | true =>
        rw [hregistered hr] at hfalse
        cases hfalse
    · have htrue := hsetting.disabled hearly
      cases hs : stopping with
      | true => rfl
      | false =>
        rw [hstopping hs] at htrue
        cases htrue
  · have hcarries := h.thread phase hphase
    cases phase with
    | established | checked => exact hcarries
    | started | swapped | stoppedOld | joinedOld | returning => exact fun hlive' => hcarries (hlive hlive')
    | discarding => exact fun hlive' => hcarries (hlive hlive')
    | lookup | found | loopTop | connecting | attempting | delaying | waiting | woken | finished => trivial

theorem nextRemover (h : sys.Recovering) (hstep : sys.nextRemover = some sys') : sys'.Recovering := by
  unfold ReconnectState.nextRemover at hstep
  cases hremover : sys.remover with
  | idle =>
    simp only [hremover] at hstep
    split_ifs at hstep with hregistered
    obtain rfl := Option.some.inj hstep
    exact h.retract (fun hfalse => by cases hfalse) id
  | erased =>
    simp only [hremover] at hstep
    obtain rfl := Option.some.inj hstep
    exact h.retract id fun hfalse => by cases hfalse
  | stopping | transportStopped =>
    simp only [hremover] at hstep
    obtain rfl := Option.some.inj hstep
    exact h.retract id id
  | joining =>
    simp only [hremover] at hstep
    split_ifs at hstep
    obtain rfl := Option.some.inj hstep
    exact h.retract id id
  | joined => simp [hremover] at hstep

/-- Setting the connection up. -/
theorem nextSetup (h : sys.Recovering) {succeeded : Bool} (hstep : sys.nextSetup succeeded = some sys') :
    sys'.Recovering := by
  unfold ReconnectState.nextSetup at hstep
  cases hsetup : sys.setup with
  | done | failed => simp [hsetup] at hstep
  | established =>
    have hsetting := h.settingUp (by simp [hsetup])
    have hfresh := hsetting.fresh hsetup
    have hget : sys.encodings[0]? = some ({} : EncodingThread) := by rw [hfresh]; rfl
    simp only [hsetup, hget, Option.map_some] at hstep
    obtain rfl := Option.some.inj hstep
    split_ifs
    · refine ⟨?_, fun _ => ?_, ?_, fun hlive => ?_, fun phase hphase => ?_⟩
      · simp [setEncoding, hsetting.threads, hsetting.inProgress, hfresh]
      · refine { hsetting with
          encoding := fun encoding hmem => ?_, fresh := (nomatch ·), disabled := fun _ => hsetting.disabled (.inl hsetup),
          unregistered := fun _ => hsetting.unregistered (.inl hsetup), enabled := fun _ heq => (nomatch heq) }
        rw [setEncoding, hfresh] at hmem
        rw [List.mem_singleton.mp hmem]
        exact ⟨rfl, .inr (.inl rfl), fun hlost => by cases hlost⟩
      · simpa [setEncoding] using h.current
      · exact absurd hlive.1 (by simp [setEncoding, hsetting.unregistered (.inl hsetup)])
      · simp [setEncoding, hsetting.threads] at hphase
    · refine ⟨h.owner, fun _ => ?_, h.current, fun _ _ hdone => (nomatch hdone), h.thread⟩
      exact { hsetting with
        fresh := (nomatch ·), disabled := fun _ => hsetting.disabled (.inl hsetup),
        unregistered := fun _ => hsetting.unregistered (.inl hsetup), enabled := fun _ heq => (nomatch heq) }
  | started =>
    have hsetting := h.settingUp (by simp [hsetup])
    simp only [hsetup] at hstep
    obtain rfl := Option.some.inj hstep
    refine ⟨h.owner, fun _ => ?_, h.current, fun _ _ hdone => (nomatch hdone), fun phase hphase => ?_⟩
    · exact { hsetting with
        fresh := (nomatch ·), disabled := fun _ => rfl, unregistered := by simp, enabled := fun _ heq => (nomatch heq) }
    · simp [hsetting.threads] at hphase
  | registered =>
    have hsetting := h.settingUp (by simp [hsetup])
    simp only [hsetup] at hstep
    split_ifs at hstep with hregistered
    · obtain rfl := Option.some.inj hstep
      refine ⟨h.owner, fun _ => ?_, h.current, fun _ _ hdone => (nomatch hdone), fun phase hphase => ?_⟩
      · exact { hsetting with
          fresh := (nomatch ·), disabled := by simp, unregistered := by simp,
          enabled := fun _ heq => (SetupPhase.enabled.inj heq).symm }
      · simp [hsetting.threads] at hphase
    · obtain rfl := Option.some.inj hstep
      refine ⟨h.owner, fun hne => absurd rfl hne, h.current, fun hlive => absurd hlive.1 hregistered, fun phase hphase => ?_⟩
      simp [hsetting.threads] at hphase
  | enabled index =>
    have hsetting := h.settingUp (by simp [hsetup])
    obtain rfl := hsetting.enabled index hsetup
    simp only [hsetup] at hstep
    obtain ⟨encoding, hget, rfl⟩ := Option.map_eq_some_iff.mp hstep
    obtain ⟨-, hloop, hlost⟩ := hsetting.encoding encoding (List.mem_of_getElem? hget)
    refine ⟨?_, fun hne => absurd rfl hne, ?_, fun _ _ _ => ?_, fun phase hphase => ?_⟩
    · have hcount := countP_replaceAt hget (some { encoding with disconnectCallback := true })
        fun encoding => encoding.loop = .claimed
      have howner := h.owner
      simp only [replaceAt, Option.toList_some, List.countP_singleton] at hcount
      refine Eq.trans ?_ howner
      simp only [setEncoding]
      omega
    · simpa [setEncoding] using h.current
    · intro other hother
      change other ∈ (sys.setEncoding sys.current _).encodings[sys.current]? at hother
      rw [getElem?_setEncoding hget, if_pos rfl, Option.mem_some] at hother
      rw [← hother]
      exact ⟨fun hlost' => .inl (hlost hlost'), rfl⟩
    · simp [setEncoding, hsetting.threads] at hphase

theorem next (h : sys.Recovering) {step : Step} (hallowed : sys.SetsUpInTime kind step)
    (hstep : sys.next kind step = some sys') : sys'.Recovering := by
  cases step with
  | setup succeeded => exact h.nextSetup hstep
  | readLoop index =>
    obtain ⟨encoding, hget, hstep⟩ := Option.bind_eq_some_iff.mp hstep
    exact h.nextReadLoop hget hallowed hstep
  | doReconnect index accepted succeeded =>
    obtain ⟨phase, hphase, hstep⟩ := Option.bind_eq_some_iff.mp hstep
    exact h.nextThread hphase hallowed hstep
  | remove => exact h.nextRemover hstep

theorem init : Recovering {} := by
  refine ⟨rfl, fun _ => ?_, by simp, fun hlive => absurd hlive.1 (by simp), by simp⟩
  refine ⟨rfl, rfl, fun encoding hmem => ?_, fun _ => rfl, fun _ => rfl, fun _ => rfl, fun _ heq => (nomatch heq)⟩
  rw [List.mem_singleton.mp hmem]
  exact ⟨rfl, .inl rfl, fun hlost => by cases hlost⟩

end Recovering

end ReconnectState

open ReconnectState in
/-- When every set-up finishes before its encoding reports a loss and no attempt is given up, a lost connection is always being re-established, in both clients. -/
theorem lost_connection_recovers {kind : ClientKind} {sys : ReconnectState}
    (h : ((reconnectMachine kind).restrict (SetsUpInTime kind)).Reaches sys) : ¬ sys.Stranded := by
  refine Recovering.not_stranded (h.invariant (I := Recovering) (fun sys hinit => ?_) fun sys step sys' hrecovering hstep => ?_)
  · obtain rfl : sys = {} := hinit
    exact .init
  · obtain ⟨hallowed, hstep⟩ := Machine.restrict_next hstep
    exact hrecovering.next hallowed hstep

namespace ReconnectState

def isStranded (sys : ReconnectState) : Bool :=
  sys.registered && !sys.stopping && sys.encodings[sys.current]?.any EncodingThread.connectionLost &&
    sys.threads.all (· = .finished) && sys.encodings.all fun encoding => encoding.loop = .ended

theorem stranded_of_isStranded {sys : ReconnectState} (h : sys.isStranded = true) : sys.Stranded := by
  simp only [isStranded, Bool.and_eq_true, Bool.not_eq_true', Option.any_eq_true, List.all_eq_true,
    decide_eq_true_eq] at h
  obtain ⟨⟨⟨⟨hregistered, hstopping⟩, hlost⟩, hthreads⟩, hloops⟩ := h
  refine ⟨hregistered, hstopping, hlost, hthreads, fun index encoding hget hcalls => ?_⟩
  have hended := hloops encoding (List.mem_of_getElem? hget)
  simp [CallsBack, hended] at hcalls

/-- The connection is set up and lost, the thread gets a new connection through the handshake, and the new encoding is started. -/
def restartedSteps (kind : ClientKind) : List Step :=
  ([.setup true, .setup true, .setup true, .setup true, .readLoop 0, .readLoop 0, .readLoop 0, .readLoop 0, .readLoop 0,
    .doReconnect 0 true true, .doReconnect 0 true true] : List Step) ++
  ((if kind = .full then [.doReconnect 0 true true] else []) : List Step) ++
  ([.doReconnect 0 true true, .doReconnect 0 true true, .doReconnect 0 true true, .doReconnect 0 true true] : List Step)

/-- The rest of `doReconnect`. -/
def swapSteps : List Step :=
  [.doReconnect 0 true true, .doReconnect 0 true true, .doReconnect 0 true true, .doReconnect 0 true true,
    .doReconnect 0 true true]

/-- The new encoding loses the connection, and its loop has ended, before the callback is installed. -/
def strandedRun (kind : ClientKind) : Option ReconnectState :=
  ((reconnectMachine kind).restrict ReconnectsTransport).run {}
    (restartedSteps kind ++ [.readLoop 1, .readLoop 1] ++ swapSteps)

/-- The new encoding loses the connection when everything is in place. -/
def recoveringRun (kind : ClientKind) : Option ReconnectState :=
  ((reconnectMachine kind).restrict (SetsUpInTime kind)).run {} (restartedSteps kind ++ swapSteps ++ [.readLoop 1])

theorem exists_stranded {kind : ClientKind} (h : ((strandedRun kind).any isStranded) = true) :
    ∃ sys, ((reconnectMachine kind).restrict ReconnectsTransport).Reaches sys ∧ sys.Stranded := by
  obtain ⟨sys, hsys, hstranded⟩ := Option.any_eq_true _ _ |>.mp h
  exact ⟨sys, .run (.start rfl) hsys, stranded_of_isStranded hstranded⟩

end ReconnectState

open ReconnectState in
theorem lost_connection_recovers_late : ∃ sys,
    ((reconnectMachine .full).restrict (SetsUpInTime .full)).Reaches sys ∧ sys.registered = true ∧ sys.stopping = false ∧
      (sys.encodings[sys.current]?.any EncodingThread.connectionLost) = true ∧ ¬ sys.Stranded := by
  have hrun : (((recoveringRun .full).any fun sys => sys.registered && !sys.stopping &&
      sys.encodings[sys.current]?.any EncodingThread.connectionLost)) = true := by
    decide +kernel
  obtain ⟨sys, hreaches, hsys⟩ := Machine.exists_reaches_of_run rfl hrun
  simp only [Bool.and_eq_true, Bool.not_eq_true'] at hsys
  exact ⟨sys, hreaches, hsys.1.1, hsys.1.2, hsys.2, lost_connection_recovers hreaches⟩

open ReconnectState in
theorem lost_connection_stranded :
    (∃ sys, ((reconnectMachine .full).restrict ReconnectsTransport).Reaches sys ∧ sys.Stranded) ∧
      ∃ sys, ((reconnectMachine .lightweight).restrict ReconnectsTransport).Reaches sys ∧ sys.Stranded :=
  ⟨exists_stranded (by decide +kernel), exists_stranded (by decide +kernel)⟩

end Rsp
