/-
  DfcFlipper.IsoDep.Activation — an activation observes nothing of the one before it.

  An activation ends with an accepted S(DESELECT), a Halted or a FieldOff event. The three
  clear different fields, and none clears the arrays or the response buffer. `s.leave l`
  is `s` with other leftovers `l`, and `Unread s l` says that no path reads what differs
  before it is rewritten: the cached frame while no response was sent, the command bytes
  past the command length, the CID while none is bound, the response buffer while no
  response is pending. `alike_bisim`: two states so related answer every event alike and
  stay related, for any engine. So after an ending the listener is a freshly started one
  (`activation_fresh`).
-/

import DfcFlipper.IsoDep.Invariant

namespace DfcFlipper.IsoDep

open DfcFlipper.Lib.Bytes DfcFlipper.Lib.Run

variable {L : Limits} {σ : Type} {E : Engine L σ}

/-! ## Leftovers -/

/-- The fields an ending does not clear. -/
structure Leftover (L : Limits) where
  lastFrame : Octets
  lastFrameLen : Nat
  command : Octets
  cid : UInt8
  txBuffer : DfcByteBuf L

def Listener.leave (s : Listener L σ) (l : Leftover L) : Listener L σ :=
  { s with
    lastFrame := l.lastFrame
    lastFrameLen := l.lastFrameLen
    command := l.command
    cid := l.cid
    txBuffer := l.txBuffer }

/-- Where `s.leave l` differs from `s`, nothing looks. -/
structure Unread (s : Listener L σ) (l : Leftover L) : Prop where
  sized : Sized s
  frame_size : l.lastFrame.length = isoDepFrameMax
  command_size : l.command.length = L.workerMaxBufferSize
  cached : s.lastResponseValid = true → cachedFrame s = l.lastFrame.take l.lastFrameLen
  command : s.command.take s.commandLen = l.command.take s.commandLen
  cid : s.cidValid = true → s.cid = l.cid
  txBuffer : s.responseOffset ≠ 0 → s.txBuffer = l.txBuffer

def Alike (s t : Listener L σ) : Prop := ∃ l, t = s.leave l ∧ Unread s l

def Agree (p q : Listener L σ × List Effect) : Prop := p.2 = q.2 ∧ Alike p.1 q.1

section Fields

variable (s : Listener L σ) (l : Leftover L)

@[simp] theorem leave_lastResponseValid : (s.leave l).lastResponseValid = s.lastResponseValid := rfl
@[simp] theorem leave_expectedPcdBlock : (s.leave l).expectedPcdBlock = s.expectedPcdBlock := rfl
@[simp] theorem leave_piccBlock : (s.leave l).piccBlock = s.piccBlock := rfl
@[simp] theorem leave_commandLen : (s.leave l).commandLen = s.commandLen := rfl
@[simp] theorem leave_responseOffset : (s.leave l).responseOffset = s.responseOffset := rfl
@[simp] theorem leave_cidValid : (s.leave l).cidValid = s.cidValid := rfl
@[simp] theorem leave_engine : (s.leave l).engine = s.engine := rfl

end Fields

theorem Unread.alike {s : Listener L σ} {l : Leftover L} (h : Unread s l) : Alike s (s.leave l) := ⟨l, rfl, h⟩

theorem Unread.agree {s : Listener L σ} {l : Leftover L} (h : Unread s l) (out : List Effect) :
    Agree (s, out) (s.leave l, out) := ⟨rfl, h.alike⟩

/-- Both sides take the same branch. -/
theorem Agree.ite {p q : Prop} [Decidable p] [Decidable q] {a b a' b' : Listener L σ × List Effect} (hpq : p ↔ q)
    (ht : p → Agree a b) (he : ¬p → Agree a' b') : Agree (if p then a else a') (if q then b else b') := by
  by_cases hp : p
  · rw [if_pos hp, if_pos (hpq.mp hp)]; exact ht hp
  · rw [if_neg hp, if_neg (mt hpq.mpr hp)]; exact he hp

/-! ## Sending -/

/-- Once both hold the same response buffer, the next block and its cached copy are the same. -/
theorem sendNextIResponse_agree {s : Listener L σ} {l : Leftover L} (h : Unread s l) (htx : s.txBuffer = l.txBuffer) :
    Agree (sendNextIResponse s) (sendNextIResponse (s.leave l)) := by
  have hb : (s.leave l).txBuffer = s.txBuffer := htx.symm
  by_cases hw : prefixLen s.txBuffer.data ≤ s.txBuffer.data.length
  · have hlen := length_blockAt s.piccBlock s.responseOffset hw
    obtain ⟨_, hs⟩ := nextFrame_eq s.piccBlock s.responseOffset h.sized.frame_size hw
    obtain ⟨hf, hl⟩ := nextFrame_eq s.piccBlock s.responseOffset h.frame_size hw
    have hz := sized_sendNextIResponse h.sized
    rw [sendNextIResponse_eq s h.sized.frame_size hw] at hz ⊢
    rw [sendNextIResponse_eq (s.leave l) h.frame_size (by rw [hb]; exact hw), hb]
    refine ⟨rfl, { l with
      lastFrame := nextFrame s.txBuffer.data l.lastFrame s.piccBlock s.responseOffset
      lastFrameLen := (blockAt s.txBuffer.data s.piccBlock s.responseOffset).length
      txBuffer := s.txBuffer }, rfl, ?_⟩
    refine ⟨hz, hf, h.command_size, fun _ => ?_, h.command, h.cid, fun _ => rfl⟩
    show (nextFrame _ s.lastFrame _ _).take _ = (nextFrame _ l.lastFrame _ _).take _
    rw [hlen, hs, hl]
  · rw [sendNextIResponse, sendNextIResponse, hb, if_pos (by omega), if_pos (by omega)]
    exact h.agree []

theorem sendIResponse_agree {s : Listener L σ} {l : Leftover L} (h : Unread s l) (htx : s.txBuffer = l.txBuffer) :
    Agree (sendIResponse s) (sendIResponse (s.leave l)) := by
  obtain ⟨frame, frameLen, command, cid, tx⟩ := l
  subst htx
  refine .ite Iff.rfl (fun _ => h.agree []) fun _ => ?_
  have h1 : Unread { s with
      piccBlock := s.expectedPcdBlock
      expectedPcdBlock := !s.expectedPcdBlock
      responseOffset := prefixLen s.txBuffer.data } ⟨frame, frameLen, command, cid, s.txBuffer⟩ :=
    ⟨⟨h.sized.frame_size, h.sized.command_size, h.sized.command_le⟩, h.frame_size, h.command_size, h.cached,
      h.command, h.cid, fun _ => rfl⟩
  obtain ⟨ho, ha⟩ := sendNextIResponse_agree h1 rfl
  exact ⟨congrArg (Effect.answer s.txBuffer.data :: ·) ho, ha⟩

theorem dispatch_agree {s : Listener L σ} {l : Leftover L} (h : Unread s l) (header apdu : Octets) :
    Agree (dispatch E s header apdu) (dispatch E (s.leave l) header apdu) := by
  let r := handleApdu E s.engine header.length apdu (s.txBuffer.reset.appendBytes header)
  have h1 : Unread { s with engine := r.state, txBuffer := r.txBuffer } { l with txBuffer := r.txBuffer } :=
    ⟨⟨h.sized.frame_size, h.sized.command_size, h.sized.command_le⟩, h.frame_size, h.command_size, h.cached,
      h.command, h.cid, fun _ => rfl⟩
  obtain ⟨ho, ha⟩ := sendIResponse_agree h1 rfl
  exact ⟨congrArg (Effect.dispatch apdu :: r.effects ++ ·) ho, ha⟩

/-! ## Receiving -/

theorem cidMismatch_leave {s : Listener L σ} {l : Leftover L} (h : Unread s l) (u : Bool) (c : UInt8) :
    cidMismatch s u c = cidMismatch (s.leave l) u c := by
  unfold cidMismatch
  cases hv : s.cidValid with
  | true => simp [hv, h.cid hv, Listener.leave]
  | false => cases u <;> simp [hv]

theorem bindCid_alike {s : Listener L σ} {l : Leftover L} (h : Unread s l) (u : Bool) (c : UInt8) :
    Alike (bindCid s u c) (bindCid (s.leave l) u c) := by
  have hz := sized_bindCid h.sized u c
  unfold bindCid at hz ⊢
  rw [← cidMismatch_leave h]
  by_cases hm : cidMismatch s u c = true
  · rw [if_pos hm] at hz
    rw [if_pos hm, if_pos hm]
    exact ⟨{ l with cid := c }, rfl, hz, h.frame_size, h.command_size, h.cached, h.command, fun _ => rfl, h.txBuffer⟩
  · rw [if_neg hm, if_neg hm]
    exact h.alike

/-- The cached frame is replayed alike. -/
theorem replay_agree {s : Listener L σ} {l : Leftover L} (h : Unread s l) (hv : s.lastResponseValid = true) :
    Agree (s, sendFrame L (s.lastFrame.take s.lastFrameLen))
      (s.leave l, sendFrame L ((s.leave l).lastFrame.take (s.leave l).lastFrameLen)) :=
  ⟨congrArg (sendFrame L) (h.cached hv), h.alike⟩

/-- The endings clear what tells the two states apart. -/
theorem endActivation_alike {s : Listener L σ} {l : Leftover L} (h : Unread s l) :
    Alike (endActivation E s) (endActivation E (s.leave l)) :=
  ⟨l, rfl, sized_endActivation h.sized, h.frame_size, h.command_size, fun hv => by simp [endActivation] at hv, rfl,
    fun hv => by simp [endActivation] at hv, fun ho => absurd rfl ho⟩

theorem receivedRBlock_agree {s : Listener L σ} {l : Leftover L} (h : Unread s l) (rx : Octets) (pcb : UInt8) (u : Bool)
    (c : UInt8) : Agree (receivedRBlock s rx pcb u c) (receivedRBlock (s.leave l) rx pcb u c) := by
  unfold receivedRBlock
  refine .ite Iff.rfl (fun _ => h.agree []) fun _ => ?_
  refine .ite (by rw [cidMismatch_leave h]) (fun _ => h.agree []) fun _ => ?_
  refine .ite Iff.rfl (fun hv => replay_agree h hv.1) fun _ => ?_
  refine .ite Iff.rfl (fun ho => ?_) fun _ => .ite Iff.rfl (fun _ => h.agree _) fun _ => h.agree []
  have h1 : Unread { s with piccBlock := !s.piccBlock } l :=
    ⟨⟨h.sized.frame_size, h.sized.command_size, h.sized.command_le⟩, h.frame_size, h.command_size, h.cached,
      h.command, h.cid, h.txBuffer⟩
  obtain ⟨heff, l', hl', hu⟩ := sendNextIResponse_agree h1 (h.txBuffer ho.1)
  have hl : sendNextIResponse { s.leave l with piccBlock := !(s.leave l).piccBlock } =
      sendNextIResponse (Listener.leave { s with piccBlock := !s.piccBlock } l) := rfl
  rw [hl]
  refine ⟨heff, l', ?_, ?_⟩
  · simp only [hl']; rfl
  · exact ⟨⟨hu.sized.frame_size, hu.sized.command_size, hu.sized.command_le⟩, hu.frame_size, hu.command_size,
      hu.cached, hu.command, hu.cid, hu.txBuffer⟩

theorem receivedSBlock_agree {s : Listener L σ} {l : Leftover L} (h : Unread s l) (rx : Octets) (pcb : UInt8) (u : Bool)
    (c : UInt8) : Agree (receivedSBlock E s rx pcb u c) (receivedSBlock E (s.leave l) rx pcb u c) := by
  unfold receivedSBlock
  exact .ite (by rw [cidMismatch_leave h]) (fun _ => ⟨rfl, endActivation_alike h⟩) fun _ => h.agree []

def Leftover.appendInf (l : Leftover L) (off : Nat) (inf : Octets) : Leftover L :=
  { l with command := writeAt l.command off inf }

/-- Appending the same INF to two commands that agree so far. -/
theorem appendInf_unread {s : Listener L σ} {l : Leftover L} (h : Unread s l) {inf : Octets}
    (hl : inf.length ≤ L.workerMaxBufferSize - s.commandLen) :
    Unread (appendInf s inf) (l.appendInf s.commandLen inf) := by
  have hle := h.sized.command_le
  have hroom : s.commandLen + inf.length ≤ l.command.length := by rw [h.command_size]; omega
  refine ⟨sized_appendInf h.sized hl, h.frame_size, ?_, h.cached, ?_, h.cid, h.txBuffer⟩
  · show (writeAt l.command s.commandLen inf).length = _
    rw [length_writeAt hroom, h.command_size]
  · show (writeAt s.command s.commandLen inf).take (s.commandLen + inf.length) =
      (writeAt l.command s.commandLen inf).take (s.commandLen + inf.length)
    rw [take_writeAt (by rw [h.sized.command_size]; exact hle), take_writeAt (by omega), h.command]

theorem dropChain_unread {s : Listener L σ} {l : Leftover L} (h : Unread s l) : Unread (dropChain s) l :=
  ⟨sized_dropChain h.sized, h.frame_size, h.command_size, h.cached, rfl, h.cid, h.txBuffer⟩

theorem toggleExpected_unread {s : Listener L σ} {l : Leftover L} (h : Unread s l) : Unread (toggleExpected s) l :=
  ⟨⟨h.sized.frame_size, h.sized.command_size, h.sized.command_le⟩, h.frame_size, h.command_size, h.cached, h.command,
    h.cid, h.txBuffer⟩

theorem acceptIBlock_agree {s : Listener L σ} {l : Leftover L} (h : Unread s l) (rx : Octets) (pcb : UInt8) (u : Bool)
    (c : UInt8) : Agree (acceptIBlock E s rx pcb u c) (acceptIBlock E (s.leave l) rx pcb u c) := by
  unfold acceptIBlock
  refine .ite Iff.rfl (fun _ => ?_) fun _ => dispatch_agree h _ _
  refine .ite Iff.rfl (fun _ => ⟨rfl, (dropChain_unread h).alike⟩) fun hfit => ?_
  have ha : Unread (appendInf s (rx.drop (headerLen u))) (l.appendInf s.commandLen (rx.drop (headerLen u))) :=
    appendInf_unread h (by omega)
  refine .ite Iff.rfl (fun _ => ⟨rfl, (toggleExpected_unread ha).alike⟩) fun _ => ?_
  have hd : Agree
      (dispatch E (dropChain (appendInf s (rx.drop (headerLen u)))) (rx.take (headerLen u))
        ((appendInf s (rx.drop (headerLen u))).command.take (appendInf s (rx.drop (headerLen u))).commandLen))
      (dispatch E ((dropChain (appendInf s (rx.drop (headerLen u)))).leave (l.appendInf s.commandLen (rx.drop (headerLen u))))
        (rx.take (headerLen u)) ((l.appendInf s.commandLen (rx.drop (headerLen u))).command.take
          (appendInf s (rx.drop (headerLen u))).commandLen)) := by
    rw [← ha.command]
    exact dispatch_agree (dropChain_unread ha) _ _
  exact ⟨congrArg (Effect.append (rx.drop (headerLen u)) :: ·) hd.1, hd.2⟩

theorem addressedIBlock_agree {s : Listener L σ} {l : Leftover L} (h : Unread s l) (rx : Octets) (pcb : UInt8) (u : Bool)
    (c : UInt8) : Agree (addressedIBlock E s rx pcb u c) (addressedIBlock E (s.leave l) rx pcb u c) := by
  unfold addressedIBlock
  refine .ite Iff.rfl (fun _ => ?_) fun _ => ?_
  · exact .ite Iff.rfl (fun hv => replay_agree h hv.1) fun _ => h.agree _
  · refine .ite Iff.rfl (fun _ => h.agree _) fun _ => ?_
    exact .ite Iff.rfl (fun _ => h.agree _) fun _ => acceptIBlock_agree h rx pcb u c

theorem receivedIBlock_agree {s : Listener L σ} {l : Leftover L} (h : Unread s l) (rx : Octets) (pcb : UInt8) (u : Bool)
    (c : UInt8) : Agree (receivedIBlock E s rx pcb u c) (receivedIBlock E (s.leave l) rx pcb u c) := by
  unfold receivedIBlock
  refine .ite Iff.rfl (fun _ => h.agree []) fun _ => ?_
  refine .ite (by rw [cidMismatch_leave h]; rfl) (fun _ => h.agree []) fun _ => ?_
  obtain ⟨l', hl', hu⟩ := bindCid_alike h u c
  rw [hl']
  exact addressedIBlock_agree hu rx pcb u c

theorem receivedData_agree {s : Listener L σ} {l : Leftover L} (h : Unread s l) (rx : Octets) :
    Agree (receivedData E s rx) (receivedData E (s.leave l) rx) := by
  cases rx with
  | nil => exact h.agree []
  | cons pcb rest =>
    refine .ite Iff.rfl (fun _ => h.agree []) fun _ => ?_
    refine .ite Iff.rfl (fun _ => h.agree _) fun _ => ?_
    refine .ite Iff.rfl (fun _ => receivedRBlock_agree h _ _ _ _) fun _ => ?_
    exact .ite Iff.rfl (fun _ => receivedSBlock_agree h _ _ _ _) fun _ => receivedIBlock_agree h _ _ _ _

theorem activationLost_agree {s : Listener L σ} {l : Leftover L} (h : Unread s l) :
    Agree (activationLost E s) (activationLost E (s.leave l)) :=
  ⟨rfl, { l with lastFrameLen := 0 }, rfl, ⟨h.sized.frame_size, h.sized.command_size, Nat.zero_le _⟩, h.frame_size,
    h.command_size, fun hv => by simp [activationLost, endActivation] at hv, rfl,
    fun hv => by simp [activationLost, endActivation] at hv, fun ho => absurd rfl ho⟩

/-- States that differ only in unread leftovers answer every event alike and stay so. -/
theorem alike_bisim (E : Engine L σ) : Bisim (workerListenerCallback E) Alike := by
  intro s t e ⟨l, ht, h⟩
  subst ht
  cases e with
  | receivedData rx => exact receivedData_agree h rx
  | halted => exact activationLost_agree h
  | fieldOff => exact activationLost_agree h

/-! ## The three endings -/

/-- The event ends the activation: the field goes or the listener is halted, or a bare
    S(DESELECT) with the right addressing is accepted. -/
inductive Ends (s : Listener L σ) : Event → Prop
  | deselect {rx : Octets} {pcb : UInt8} {u : Bool} {c : UInt8} : Header rx pcb u c → pcb &&& ~~~cidMask = 0xC2 →
      rx.length = headerLen u → cidMismatch s u c = false → Ends s (.receivedData rx)
  | halted : Ends s .halted
  | fieldOff : Ends s .fieldOff

/-- After an ending only leftovers tell the listener from one just started. -/
theorem ends_alike {s : Listener L σ} {e : Event} (h : Sized s) (he : Ends s e) :
    Alike (listenerInit L (E.resetActivation s.engine)) (workerListenerCallback E s e).1 := by
  have hinit := sized_init L (E.resetActivation s.engine)
  have hunread : ∀ n, Unread (listenerInit L (E.resetActivation s.engine)) ⟨s.lastFrame, n, s.command, s.cid, s.txBuffer⟩ :=
    fun n => ⟨hinit, h.frame_size, h.command_size, fun hv => by simp [listenerInit] at hv, rfl,
      fun hv => by simp [listenerInit] at hv, fun ho => absurd rfl ho⟩
  cases he with
  | deselect hh hp hl hm =>
    show Alike _ (receivedData E s _).1
    rw [receivedData_deselect hh hp hl hm]
    exact ⟨_, rfl, hunread s.lastFrameLen⟩
  | halted => exact ⟨_, rfl, hunread 0⟩
  | fieldOff => exact ⟨_, rfl, hunread 0⟩

/-- From any reachable state, after any of the three endings, every later sequence of
    events is answered as a freshly started listener answers it. -/
theorem activation_fresh (E : Engine L σ) {st : σ} {s : Listener L σ} {e : Event} (hs : ListenerReachable E st s)
    (he : Ends s e) (evs : List Event) :
    (run (workerListenerCallback E) (workerListenerCallback E s e).1 evs).2 =
      (run (workerListenerCallback E) (listenerInit L (E.resetActivation s.engine)) evs).2 :=
  (run_bisim (alike_bisim E) evs _ _ (ends_alike (sized_reachable hs) he)).symm

/-- The field goes in the middle of a chained command; the rest of the chain comes after it. -/
theorem activation_fresh_mid_chain :
    (run (workerListenerCallback piccEngine)
        (workerListenerCallback piccEngine
          (run (workerListenerCallback piccEngine) (listenerInit smallLimits false)
            [.receivedData [0x02, 0x5A, 0, 0, 0], .receivedData [0x13, 0x5A, 0]]).1 .fieldOff).1
        [.receivedData [0x02, 0, 0]]).2 =
      (run (workerListenerCallback piccEngine) (listenerInit smallLimits false) [.receivedData [0x02, 0, 0]]).2 :=
  activation_fresh piccEngine ⟨_, rfl⟩ .fieldOff [.receivedData [0x02, 0, 0]]

end DfcFlipper.IsoDep
