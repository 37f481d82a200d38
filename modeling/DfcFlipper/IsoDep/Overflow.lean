/-
  DfcFlipper.IsoDep.Overflow — a chain too long for `iso_dep_command`.

  The overflow branch drops what was collected and answers R(NAK), but leaves the expected
  number where it was, so the next block of the chain that bears it starts a fresh command.
  (A single I-block that is too long is answered 91 7E: that one is refused as a whole.)
  `overflow_tail_executed` is a chain whose refused last block, sent again as R(NAK) asks,
  is run as a command of its own.

  `Completes s rx` says when a frame ends a command that goes to the engine; it is about the
  state before the frame. `oversized_iff`: over any blocks of an oversized chain sent after
  the refusal, the engine is not called exactly when none of them completes a command.
-/

import DfcFlipper.IsoDep.Frames
import DfcFlipper.IsoDep.Invariant

namespace DfcFlipper.IsoDep

open DfcFlipper.Lib.Bytes DfcFlipper.Lib.Run

variable {L : Limits} {σ : Type} {E : Engine L σ}

/-! ## Engine calls -/

def Effect.engineCall : Effect → Prop
  | .select _ => True
  | .command _ => True
  | _ => False

instance (e : Effect) : Decidable e.engineCall := by
  unfold Effect.engineCall; cases e <;> infer_instance

/-- The APDU is answered with a length error: it is longer than the scratch buffer, or it is
    ISO-wrapped with an Lc that does not fit. -/
def lengthRefused (L : Limits) (apdu : Octets) : Prop :=
  L.workerMaxBufferSize < apdu.length ∨ (5 ≤ apdu.length ∧ apdu.headD 0 = iso7816ClaWrapper ∧ badLc L apdu)

def Calls (out : List Effect) : Prop := ∃ e ∈ out, e.engineCall

theorem calls_append (a b : List Effect) : Calls (a ++ b) ↔ Calls a ∨ Calls b := by
  simp only [Calls, List.mem_append, or_and_right, exists_or]

theorem calls_cons {e : Effect} {out : List Effect} (he : ¬e.engineCall) : Calls (e :: out) ↔ Calls out := by
  simp only [Calls, List.mem_cons, or_and_right, exists_or, exists_eq_left, he, false_or]

theorem not_calls_sendFrame (frame : Octets) : ¬Calls (sendFrame L frame) := by
  unfold sendFrame
  split
  · rintro ⟨e, he, hc⟩
    obtain rfl := List.mem_singleton.mp he
    exact hc
  · rintro ⟨e, he, _⟩; cases he

theorem not_calls_sendControl (pcb : UInt8) (u : Bool) (c : UInt8) : ¬Calls (sendControl L pcb u c) :=
  not_calls_sendFrame _

theorem not_calls_sendNextIResponse (s : Listener L σ) : ¬Calls (sendNextIResponse s).2 := by
  unfold sendNextIResponse
  simp only
  split
  · rintro ⟨e, he, _⟩; cases he
  · exact not_calls_sendFrame _

theorem not_calls_sendIResponse (s : Listener L σ) : ¬Calls (sendIResponse s).2 := by
  unfold sendIResponse
  split
  · rintro ⟨e, he, _⟩; cases he
  · simp only
    rw [calls_cons id]
    exact not_calls_sendNextIResponse _

theorem handleCommand_calls (st : σ) (apdu : Octets) (tx : DfcByteBuf L) : Calls (handleCommand E st apdu tx).effects :=
  ⟨_, List.mem_append_left _ (List.mem_cons_self ..), trivial⟩

/-- An APDU goes to the engine unless it is refused for its length. -/
theorem handleApdu_calls (st : σ) (off : Nat) (apdu : Octets) (tx : DfcByteBuf L) :
    Calls (handleApdu E st off apdu tx).effects ↔ ¬lengthRefused L apdu := by
  unfold handleApdu lengthRefused
  by_cases hlong : L.workerMaxBufferSize < apdu.length
  · simp [hlong, lengthError, Calls]
  rw [if_neg hlong]
  by_cases hstd : 4 ≤ apdu.length ∧ apdu.headD 0 = iso7816ClaStandard
  · have hw : apdu.headD 0 ≠ iso7816ClaWrapper := by rw [hstd.2]; decide
    have hsel : ∀ out : List Effect, Calls (.select apdu :: out) := fun out => ⟨_, List.mem_cons_self .., trivial⟩
    rw [if_pos hstd]
    simp only [hlong, hw, false_and, and_false, or_false, not_false_eq_true, iff_true]
    split <;> exact hsel _
  · rw [if_neg hstd, handleNative]
    by_cases hw : 5 ≤ apdu.length ∧ apdu.headD 0 = iso7816ClaWrapper
    · rw [if_pos hw]
      by_cases hlc : badLc L apdu
      · have href : L.workerMaxBufferSize < apdu.length ∨
            (5 ≤ apdu.length ∧ apdu.headD 0 = iso7816ClaWrapper ∧ badLc L apdu) := Or.inr ⟨hw.1, hw.2, hlc⟩
        rw [if_pos hlc]
        exact ⟨fun ⟨_, he, _⟩ => (by cases he), fun hn => absurd href hn⟩
      · rw [if_neg hlc]
        simp only [hlong, hlc, and_false, or_false, not_false_eq_true, iff_true]
        exact handleCommand_calls _ _ _
    · rw [if_neg hw]
      have : ¬(5 ≤ apdu.length ∧ apdu.headD 0 = iso7816ClaWrapper ∧ badLc L apdu) := fun h => hw ⟨h.1, h.2.1⟩
      simp only [hlong, this, or_false, not_false_eq_true, iff_true]
      exact handleCommand_calls _ _ _

theorem dispatch_calls (s : Listener L σ) (header apdu : Octets) :
    Calls (dispatch E s header apdu).2 ↔ ¬lengthRefused L apdu := by
  unfold dispatch
  simp only
  rw [List.cons_append, calls_cons id, calls_append, handleApdu_calls]
  exact or_iff_left (not_calls_sendIResponse _)

/-! ## Completing a command -/

/-- The frame ends a command that goes to the engine: an expected I-block without chaining,
    no response pending, whose INF fits behind what was collected. -/
inductive Completes (s : Listener L σ) (rx : Octets) : Prop
  | last {pcb : UInt8} {u : Bool} {c : UInt8} : Expected s rx pcb u c → s.responseOffset = 0 →
      headerLen u < rx.length → chaining pcb = false →
      (s.commandLen = 0 ∨ (rx.drop (headerLen u)).length ≤ L.workerMaxBufferSize - s.commandLen) →
      ¬lengthRefused L (s.command.take s.commandLen ++ rx.drop (headerLen u)) → Completes s rx

theorem rx_calls {s s' : Listener L σ} {rx : Octets} {out : List Effect} (h : Sized s) (hr : Rx E s rx s' out)
    (hc : Calls out) : Completes s rx := by
  cases hr with
  | ignored => obtain ⟨_, he, _⟩ := hc; cases he
  | pps => exact absurd hc (not_calls_sendControl _ _ _)
  | replayR => exact absurd hc (not_calls_sendFrame _)
  | nextBlock => exact absurd hc (not_calls_sendNextIResponse _)
  | ackR => exact absurd hc (not_calls_sendControl _ _ _)
  | deselect =>
    rcases (calls_append _ _).mp hc with hc | hc
    · exact absurd hc (not_calls_sendFrame _)
    · obtain ⟨e, he, hc⟩ := hc
      obtain rfl := List.mem_singleton.mp he
      cases hc
  | replayI => exact absurd hc (not_calls_sendFrame _)
  | ackI => exact absurd hc (not_calls_sendControl _ _ _)
  | nakI => exact absurd hc (not_calls_sendControl _ _ _)
  | refused => exact absurd hc (not_calls_sendControl _ _ _)
  | overflow => exact absurd hc (not_calls_sendControl _ _ _)
  | chained => exact absurd ((calls_cons id).mp hc) (not_calls_sendControl _ _ _)
  | @lastBlock _ u c he ho hl hfit hm _ _ _ hd =>
    refine .last he ho hl hm (Or.inr hfit) ?_
    have hcd : Calls (dispatch E (dropChain (appendInf (bindCid s u c) (rx.drop (headerLen u)))) (rx.take (headerLen u))
        ((appendInf s (rx.drop (headerLen u))).command.take (appendInf s (rx.drop (headerLen u))).commandLen)).2 := by
      rw [hd]; exact (calls_cons id).mp hc
    rwa [dispatch_calls, take_appendInf h] at hcd
  | @single _ u c he ho hl hm hclosed _ _ hd =>
    refine .last he ho hl hm (Or.inl hclosed) ?_
    have hcd : Calls (dispatch E (bindCid s u c) (rx.take (headerLen u)) (rx.drop (headerLen u))).2 := by
      rw [hd]; exact hc
    rw [hclosed]
    exact (dispatch_calls _ _ _).mp hcd

theorem completes_calls {s : Listener L σ} {rx : Octets} (h : Sized s) (hc : Completes s rx) :
    Calls (receivedData E s rx).2 := by
  cases hc with
  | @last pcb u c he ho hl hm hfit hlen =>
    by_cases hclosed : s.commandLen = 0
    · rw [receivedData_single he ho hl hm hclosed, dispatch_calls]
      rw [hclosed] at hlen
      exact hlen
    · rw [receivedData_lastBlock he ho hl (hfit.resolve_left hclosed) hm hclosed]
      simp only
      rw [calls_cons id, dispatch_calls, take_appendInf h]
      exact hlen

/-- A frame makes the listener call the engine exactly when it completes a command. -/
theorem receivedData_calls_iff {s : Listener L σ} (h : Sized s) (rx : Octets) :
    Calls (receivedData E s rx).2 ↔ Completes s rx :=
  ⟨rx_calls h (receivedData_rx s rx), completes_calls h⟩

/-! ## Chains -/

/-- A command as the reader splits it: the number of its first block, the CID, the INFs. -/
structure Chain where
  number : Bool
  cid : Option UInt8
  chunks : List Octets
  nonempty : ∀ chunk ∈ chunks, chunk ≠ []

namespace Chain

variable (C : Chain)

def chunk (i : Nat) : Octets := C.chunks.getD i []

def frame (i : Nat) : Octets := iFrame (numberAt C.number i) (i + 1 < C.chunks.length) C.cid (C.chunk i)

def send (is : List Nat) : List Event := is.map fun i => .receivedData (C.frame i)

def size (n : Nat) : Nat := (C.chunks.take n).flatten.length

theorem chunk_eq {i : Nat} (h : i < C.chunks.length) : C.chunk i = C.chunks[i] := by
  simp [chunk, h]

theorem size_succ {i : Nat} (h : i < C.chunks.length) : C.size (i + 1) = C.size i + (C.chunk i).length := by
  rw [size, List.take_add_one, List.getElem?_eq_getElem h, List.flatten_append, List.length_append, C.chunk_eq h]
  simp [size]

theorem size_mono {i j : Nat} (h : i ≤ j) : C.size i ≤ C.size j := by
  obtain ⟨t, ht⟩ := List.take_prefix_take_left (l := C.chunks) h
  rw [size, size, ← ht, List.flatten_append, List.length_append]
  omega

theorem chunk_pos {i : Nat} (h : i < C.chunks.length) : 0 < (C.chunk i).length := by
  rw [C.chunk_eq h]
  exact List.length_pos_iff.mpr (C.nonempty _ (List.getElem_mem h))

end Chain

structure Ready (C : Chain) (i : Nat) (s : Listener L σ) : Prop where
  sized : Sized s
  expected : s.expectedPcdBlock = numberAt C.number i
  offset : s.responseOffset = 0
  addressed : cidMismatch s C.cid.isSome (C.cid.getD 0) = true → s.lastResponseValid = false ∧ s.commandLen = 0

structure Collecting (C : Chain) (n i : Nat) (s : Listener L σ) : Prop extends Ready C i s where
  commandLen : s.commandLen = n + C.size i

theorem Ready.block {C : Chain} {i : Nat} {s : Listener L σ} (h : Ready C i s) :
    Expected s (C.frame i) (iPcb (numberAt C.number i) (i + 1 < C.chunks.length) C.cid.isSome) C.cid.isSome (C.cid.getD 0) :=
  { iFrame_iBlock (numberAt C.number i) (i + 1 < C.chunks.length) C.cid (C.chunk i) with
    addressed := h.addressed
    number := by rw [iPcb_number, h.expected] }

theorem Chain.frame_inf (C : Chain) (i : Nat) : (C.frame i).drop (headerLen C.cid.isSome) = C.chunk i := iFrame_inf _ _ _ _

theorem Chain.frame_long (C : Chain) {i : Nat} (h : i < C.chunks.length) : headerLen C.cid.isSome < (C.frame i).length := by
  have hpos := C.chunk_pos h
  rw [Chain.frame, length_iFrame]; omega

/-- A block that is not the chain's last and fits is collected; the engine is not called. -/
theorem Collecting.step {C : Chain} {n i : Nat} {s : Listener L σ} (h : Collecting C n i s)
    (hi : i + 1 < C.chunks.length) (hfit : n + C.size (i + 1) ≤ L.workerMaxBufferSize) :
    Collecting C n (i + 1) (receivedData E s (C.frame i)).1 ∧ ¬Calls (receivedData E s (C.frame i)).2 := by
  have hlt : i < C.chunks.length := by omega
  have hsize := C.size_succ hlt
  have hlen := h.commandLen
  have hroom : (C.chunk i).length ≤ L.workerMaxBufferSize - s.commandLen := by omega
  rw [receivedData_chained h.block h.offset (C.frame_long hlt) (by rw [C.frame_inf]; exact hroom) (by simp [hi]),
    C.frame_inf]
  have hb : Sized (appendInf (bindCid s C.cid.isSome (C.cid.getD 0)) (C.chunk i)) :=
    sized_appendInf (sized_bindCid h.sized _ _) (by rw [bindCid_commandLen]; exact hroom)
  refine ⟨⟨⟨⟨hb.frame_size, hb.command_size, hb.command_le⟩, ?_, ?_, ?_⟩, ?_⟩, ?_⟩
  · simp [toggleExpected, appendInf, h.expected, numberAt_succ]
  · simp [toggleExpected, appendInf, h.offset]
  · intro hm
    have hno : cidMismatch (bindCid s C.cid.isSome (C.cid.getD 0)) C.cid.isSome (C.cid.getD 0) = true := hm
    rw [cidMismatch_bindCid] at hno
    cases hno
  · simp [toggleExpected, appendInf]; omega
  · rw [calls_cons id]; exact not_calls_sendControl _ _ _

/-- The block that is too much completes nothing. -/
theorem Collecting.refused {C : Chain} {n i : Nat} {s : Listener L σ} (h : Collecting C n i s)
    (hi : i < C.chunks.length) (hbig : L.workerMaxBufferSize < n + C.size (i + 1)) : ¬Completes s (C.frame i) := by
  intro hc
  cases hc with
  | @last pcb u c he _ hl hm hfit hlen =>
    obtain ⟨_, rfl, _⟩ := he.toHeader.unique h.block.toHeader
    rw [C.frame_inf] at hfit hlen
    have hsize := C.size_succ hi
    have hcl := h.commandLen
    have hle := h.sized.command_le
    rcases hfit with h0 | hfit
    · refine hlen (Or.inl ?_)
      rw [h0, List.take_zero, List.nil_append]; omega
    · omega

/-- The first `i` blocks of a chain, none of them too much. -/
theorem collecting_run {C : Chain} {s : Listener L σ} {n : Nat} (h : Collecting C n 0 s) :
    ∀ i, i < C.chunks.length → n + C.size i ≤ L.workerMaxBufferSize →
      Collecting C n i (run (workerListenerCallback E) s (C.send (List.range i))).1 ∧
        ¬Calls (run (workerListenerCallback E) s (C.send (List.range i))).2 := by
  intro i
  induction i with
  | zero => intro _ _; exact ⟨h, fun ⟨_, he, _⟩ => by cases he⟩
  | succ i ih =>
    intro hi hfit
    have hmono : C.size i ≤ C.size (i + 1) := C.size_mono (Nat.le_succ i)
    obtain ⟨hcol, hno⟩ := ih (by omega) (by omega)
    obtain ⟨hstep, hcalls⟩ := hcol.step (E := E) hi hfit
    rw [List.range_succ, Chain.send, List.map_append]
    show Collecting C n (i + 1) (run _ s (C.send (List.range i) ++ [.receivedData (C.frame i)])).1 ∧
      ¬Calls (run _ s (C.send (List.range i) ++ [.receivedData (C.frame i)])).2
    rw [run_snoc]
    exact ⟨hstep, fun hc => ((calls_append _ _).mp hc).elim hno hcalls⟩

/-! ## After the refusal -/

def NotCompleted (s : Listener L σ) : Event → Prop
  | .receivedData rx => ¬Completes s rx
  | _ => True

theorem run_calls_iff (evs : List Event) : ∀ s : Listener L σ, Sized s →
    (¬Calls (run (workerListenerCallback E) s evs).2 ↔
      Along (fun s ev => (workerListenerCallback E s ev).1) NotCompleted s evs) := by
  induction evs with
  | nil => intro s _; exact ⟨fun _ => trivial, fun _ ⟨_, he, _⟩ => by cases he⟩
  | cons ev evs ih =>
    intro s h
    have hev : ¬Calls (workerListenerCallback E s ev).2 ↔ NotCompleted s ev := by
      cases ev with
      | receivedData rx => exact not_congr (receivedData_calls_iff h rx)
      | halted => simp [NotCompleted, workerListenerCallback, activationLost, Calls, Effect.engineCall]
      | fieldOff => simp [NotCompleted, workerListenerCallback, activationLost, Calls, Effect.engineCall]
    rw [run_cons, calls_append, not_or, hev, ih _ (sized_callback E s ev h)]
    exact Iff.rfl

/-- From any reachable state that takes the chain's blocks: let block `k` be the first that
    is too much for `iso_dep_command`. Whatever blocks of the chain (`js`) come after the
    refusal, the engine is never called exactly when none of them completes a command. -/
theorem oversized_iff {st : σ} {s : Listener L σ} (hs : ListenerReachable E st s) (C : Chain)
    (hnum : C.number = s.expectedPcdBlock) (ho : s.responseOffset = 0)
    (ha : cidMismatch s C.cid.isSome (C.cid.getD 0) = true → s.lastResponseValid = false ∧ s.commandLen = 0)
    {k : Nat} (hk : k < C.chunks.length) (hfit : s.commandLen + C.size k ≤ L.workerMaxBufferSize)
    (hbig : L.workerMaxBufferSize < s.commandLen + C.size (k + 1)) (js : List Nat) :
    ¬Calls (run (workerListenerCallback E) s (C.send (List.range (k + 1) ++ js))).2 ↔
      Along (fun s ev => (workerListenerCallback E s ev).1) NotCompleted
        (run (workerListenerCallback E) s (C.send (List.range (k + 1)))).1 (C.send js) := by
  have h0 : Collecting C s.commandLen 0 s :=
    ⟨⟨sized_reachable hs, by simp [numberAt, hnum], ho, ha⟩, by simp [Chain.size]⟩
  obtain ⟨hcol, hno⟩ := collecting_run (E := E) h0 k hk hfit
  have hfirst : ¬Calls (run (workerListenerCallback E) s (C.send (List.range (k + 1)))).2 := by
    rw [List.range_succ, Chain.send, List.map_append]
    show ¬Calls (run _ s (C.send (List.range k) ++ [.receivedData (C.frame k)])).2
    rw [run_snoc, calls_append, not_or]
    exact ⟨hno, mt (receivedData_calls_iff hcol.sized _).mp (hcol.refused hk hbig)⟩
  have hsized := sized_reachable (hs.run (C.send (List.range (k + 1))))
  rw [Chain.send, List.map_append]
  show ¬Calls (run _ s (C.send (List.range (k + 1)) ++ C.send js)).2 ↔ _
  rw [run_append, calls_append, not_or, run_calls_iff _ _ hsized]
  exact and_iff_right hfirst

/-- The refused block leaves the listener ready for it, with nothing collected. -/
theorem Collecting.overflowed {C : Chain} {n i : Nat} {s : Listener L σ} (h : Collecting C n i s)
    (hi : i < C.chunks.length) (hbig : L.workerMaxBufferSize < n + C.size (i + 1))
    (hm : i + 1 < C.chunks.length ∨ 0 < n + C.size i) :
    Ready C i (receivedData E s (C.frame i)).1 ∧ (receivedData E s (C.frame i)).1.commandLen = 0 := by
  have hsize := C.size_succ hi
  have hlen := h.commandLen
  have hle := h.sized.command_le
  have hmany : chaining (iPcb (numberAt C.number i) (i + 1 < C.chunks.length) C.cid.isSome) = true ∨ s.commandLen ≠ 0 := by
    rcases hm with hm | hm
    · exact Or.inl (by simp [hm])
    · exact Or.inr (by omega)
  rw [receivedData_overflow h.block h.offset (C.frame_long hi) (by rw [C.frame_inf]; omega) hmany]
  refine ⟨⟨sized_dropChain (sized_bindCid h.sized _ _), ?_, ?_, ?_⟩, rfl⟩
  · simpa [dropChain] using h.expected
  · simpa [dropChain] using h.offset
  · intro hc
    have hno : cidMismatch (bindCid s C.cid.isSome (C.cid.getD 0)) C.cid.isSome (C.cid.getD 0) = true := hc
    rw [cidMismatch_bindCid] at hno
    cases hno

/-- The defect in general: whenever it is the last block that is too much, and it does not
    have a bad Lc, repeating it runs it as a command. -/
theorem refused_last_executed {st : σ} {s : Listener L σ} (hs : ListenerReachable E st s) (C : Chain)
    (hnum : C.number = s.expectedPcdBlock) (ho : s.responseOffset = 0)
    (ha : cidMismatch s C.cid.isSome (C.cid.getD 0) = true → s.lastResponseValid = false ∧ s.commandLen = 0)
    {k : Nat} (hk : k + 1 = C.chunks.length) (hfit : s.commandLen + C.size k ≤ L.workerMaxBufferSize)
    (hbig : L.workerMaxBufferSize < s.commandLen + C.size (k + 1)) (hpos : 0 < s.commandLen + C.size k)
    (hlast : ¬lengthRefused L (C.chunk k)) :
    Calls (run (workerListenerCallback E) s (C.send (List.range (k + 1) ++ [k]))).2 := by
  have h0 : Collecting C s.commandLen 0 s :=
    ⟨⟨sized_reachable hs, by simp [numberAt, hnum], ho, ha⟩, by simp [Chain.size]⟩
  obtain ⟨hcol, _⟩ := collecting_run (E := E) h0 k (by omega) hfit
  obtain ⟨hready, hclosed⟩ := hcol.overflowed (E := E) (by omega) hbig (Or.inr hpos)
  have hcomp : Completes (receivedData E (run (workerListenerCallback E) s (C.send (List.range k))).1 (C.frame k)).1
      (C.frame k) := by
    refine .last hready.block hready.offset (C.frame_long (by omega)) (by simp [hk]) (Or.inl hclosed) ?_
    rw [hclosed, List.take_zero, List.nil_append, C.frame_inf]
    exact hlast
  have hsend : C.send (List.range (k + 1) ++ [k]) =
      C.send (List.range k) ++ [.receivedData (C.frame k)] ++ [.receivedData (C.frame k)] := by
    simp [Chain.send, List.range_succ]
  rw [hsend, run_snoc, run_snoc, calls_append]
  exact Or.inr ((receivedData_calls_iff hready.sized _).mpr hcomp)

/-- A write of 131 octets in blocks of 61, 61, 5 and 4, for an `iso_dep_command` of 128: its
    last four octets, data to be written, read as SelectApplication. -/
def longWrite : Chain where
  number := false
  cid := none
  chunks := [0x3D :: List.replicate 60 0xEE, List.replicate 61 0xEE, List.replicate 5 0xEE, [0x5A, 0, 0, 0]]
  nonempty := by decide

/-- After the refusal of the last block only the blocks before it are sent again. -/
theorem oversized_iff_longWrite :
    ¬Calls (run (workerListenerCallback piccEngine) (listenerInit smallLimits false)
        (longWrite.send (List.range (3 + 1) ++ [0, 1, 2]))).2 ↔
      Along (fun s ev => (workerListenerCallback piccEngine s ev).1) NotCompleted
        (run (workerListenerCallback piccEngine) (listenerInit smallLimits false) (longWrite.send (List.range (3 + 1)))).1
        (longWrite.send [0, 1, 2]) :=
  oversized_iff (Reachable.init _) longWrite rfl rfl (fun _ => ⟨rfl, rfl⟩) (by decide) (by decide +kernel)
    (by decide +kernel) _

/-- The reader repeats the refused block: its four octets are executed. -/
theorem overflow_tail_executed :
    longWrite.size 4 = 131 ∧ smallLimits.workerMaxBufferSize = 128 ∧
      .command [0x5A, 0, 0, 0] ∈ (run (workerListenerCallback piccEngine) (listenerInit smallLimits false)
        (longWrite.send (List.range 4 ++ [3]))).2 := by
  refine ⟨by decide +kernel, rfl, ?_⟩
  decide +kernel

end DfcFlipper.IsoDep
