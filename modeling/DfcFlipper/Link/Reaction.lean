/-
  DfcFlipper.Link.Reaction — the listener as the reader's protocol sees it.

  A `View` keeps four things of the listener: the expected number, its own number, whether
  it holds a response, and the octets collected of a chained command. `Reacts` is an abstract
  listener on views: what a block may do to it and which answer comes back.
  `callback_reacts`: the listener of the code, seen through `view`, reacts like that to
  every block a reader sends. The two link results are proved on `Reacts` alone.
-/

import DfcFlipper.Link.Reader

namespace DfcFlipper.Link

open DfcFlipper.Lib.Bytes DfcFlipper.Lib.Run DfcFlipper.IsoDep

variable {L : Limits} {σ : Type} {E : Engine L σ}

/-! ## Marks -/

/-- What may happen at most once for a block. -/
inductive Mark where
  | append
  | dispatch
  | select
  | command
  deriving DecidableEq, Repr

def mark? : Effect → Option Mark
  | .append _ => some .append
  | .dispatch _ => some .dispatch
  | .select _ => some .select
  | .command _ => some .command
  | _ => none

def Silent (out : List Effect) : Prop := ∀ e ∈ out, mark? e = none

def count (m : Mark) (out : List Effect) : Nat := out.countP fun e => mark? e = some m

def dispatched (out : List Effect) : List Octets :=
  out.filterMap fun | .dispatch apdu => some apdu | _ => none

theorem count_append (m : Mark) (a b : List Effect) : count m (a ++ b) = count m a + count m b := List.countP_append ..

theorem count_silent {out : List Effect} (h : Silent out) (m : Mark) : count m out = 0 := by
  rw [count, List.countP_eq_zero]
  intro e he
  simp [h e he]

theorem dispatched_append (a b : List Effect) : dispatched (a ++ b) = dispatched a ++ dispatched b :=
  List.filterMap_append ..

@[simp] theorem dispatched_cons_append (inf : Octets) (out : List Effect) :
    dispatched (.append inf :: out) = dispatched out := rfl

theorem dispatched_silent {out : List Effect} (h : Silent out) : dispatched out = [] := by
  rw [dispatched, List.filterMap_eq_nil_iff]
  intro e he
  have := h e he
  cases e <;> first | rfl | cases this

theorem silent_sendFrame (frame : Octets) : Silent (sendFrame L frame) := by
  intro e he
  unfold sendFrame at he
  split at he
  · obtain rfl := List.mem_singleton.mp he; rfl
  · cases he

theorem silent_sendControl (pcb : UInt8) (u : Bool) (c : UInt8) : Silent (sendControl L pcb u c) := silent_sendFrame _

theorem count_cons (m : Mark) (e : Effect) (out : List Effect) :
    count m (e :: out) = count m out + if mark? e = some m then 1 else 0 := by
  simp [count, List.countP_cons]

def Once (out : List Effect) : Prop := ∀ m, count m out ≤ 1

theorem once_silent {out : List Effect} (h : Silent out) : Once out := fun m => by rw [count_silent h]; exact Nat.zero_le 1

/-- One more mark of a kind that was not there. -/
theorem once_cons {e : Effect} {m : Mark} {out : List Effect} (h : Once out) (he : mark? e = some m) (h0 : count m out = 0) :
    Once (e :: out) := by
  intro m'
  rw [count_cons, he]
  have := h m'
  by_cases hm : m = m'
  · subst hm; simp [h0]
  · simp [hm, this]

/-- The events posted with an engine call carry no mark. -/
theorem silent_notify (b : Bool) (ev : DfcCustomEvent) : Silent (if b = true then [] else [.notify ev]) ∧
    Silent (if b = true then [.notify ev] else []) := by
  cases b <;> exact ⟨by simp [Silent, mark?], by simp [Silent, mark?]⟩

theorem handleCommand_once (st : σ) (apdu : Octets) (tx : DfcByteBuf L) :
    Once (handleCommand E st apdu tx).effects ∧ count .select (handleCommand E st apdu tx).effects = 0 := by
  have hs : Silent ((E.handleCommand st apdu tx).notified.map .notify ++
      if (E.handleCommand st apdu tx).handled then [] else [.notify .emulate]) := by
    intro e he
    rcases List.mem_append.mp he with he | he
    · obtain ⟨_, _, rfl⟩ := List.mem_map.mp he; rfl
    · exact (silent_notify _ _).1 e he
  have heff : (handleCommand E st apdu tx).effects = .command apdu ::
      ((E.handleCommand st apdu tx).notified.map .notify ++
        if (E.handleCommand st apdu tx).handled then [] else [.notify .emulate]) := rfl
  rw [heff]
  refine ⟨once_cons (once_silent hs) rfl (count_silent hs _), ?_⟩
  rw [count_cons, count_silent hs]; rfl

theorem handleNative_once (st : σ) (off : Nat) (apdu : Octets) (tx : DfcByteBuf L) :
    Once (handleNative E st off apdu tx).effects ∧ count .select (handleNative E st off apdu tx).effects = 0 := by
  unfold handleNative
  split
  · split
    · exact ⟨once_silent fun e he => (by cases he), rfl⟩
    · exact handleCommand_once st _ tx
  · exact handleCommand_once st _ tx

/-- For one APDU each of the engine's two functions is called at most once. -/
theorem handleApdu_once (st : σ) (off : Nat) (apdu : Octets) (tx : DfcByteBuf L) :
    Once (handleApdu E st off apdu tx).effects := by
  unfold handleApdu
  split
  · exact once_silent fun e he => (by cases he)
  · split
    · simp only
      split
      · have hs := (silent_notify (E.handleIso7816Select st apdu tx off).appSelected .appSelected).2
        exact once_cons (once_silent hs) rfl (count_silent hs _)
      · obtain ⟨ho, h0⟩ := handleNative_once (E := E) (E.handleIso7816Select st apdu tx off).state off apdu
          (E.handleIso7816Select st apdu tx off).txBuffer
        exact once_cons ho rfl h0
    · exact (handleNative_once _ _ _ _).1

theorem count_engineSide {out : List Effect} (h : ∀ e ∈ out, e.engineSide) :
    count .append out = 0 ∧ count .dispatch out = 0 ∧ dispatched out = [] := by
  refine ⟨?_, ?_, ?_⟩
  · rw [count, List.countP_eq_zero]
    intro e he
    have := h e he
    cases e <;> first | exact absurd this id | simp [mark?]
  · rw [count, List.countP_eq_zero]
    intro e he
    have := h e he
    cases e <;> first | exact absurd this id | simp [mark?]
  · rw [dispatched, List.filterMap_eq_nil_iff]
    intro e he
    have := h e he
    cases e <;> first | rfl | cases this

/-! ## Answers -/

theorem answerOf_sendFrame {frame : Octets} (h : frame.length ≤ L.bytebufMax) :
    answerOf (sendFrame L frame) = some (decodePcb (frame.headD 0)) := by
  rw [sendFrame, if_pos h]; rfl

theorem decodePcb_cid : ∀ pcb : UInt8, decodePcb (pcb ||| cidMask) = decodePcb pcb :=
  forall_octet (by decide +kernel)

theorem answerOf_sendControl (pcb : UInt8) (u : Bool) (c : UInt8) :
    answerOf (sendControl L pcb u c) = some (decodePcb pcb) := by
  have := L.prefix_fits
  cases u with
  | false => exact answerOf_sendFrame (by simp; omega)
  | true =>
    rw [← decodePcb_cid]
    exact answerOf_sendFrame (by simpa using this)

theorem decodePcb_ack : ∀ n : Bool, decodePcb (0xA2 ||| n.toUInt8) = .rAck n ∧ decodePcb (0xB2 ||| n.toUInt8) = .other := by
  decide

theorem decodePcb_ack_pcb : ∀ pcb : UInt8, decodePcb (0xA2 ||| (pcb &&& 1)) = .rAck (blockNumber pcb) :=
  forall_octet (by decide +kernel)

theorem decodePcb_pps : ∀ pcb : UInt8, pcb &&& 0xF0 = 0xD0 → decodePcb pcb = .other :=
  forall_octet (by decide +kernel)

theorem answerOf_tx {frame : Octets} (h : isIPcb (frame.headD 0)) :
    answerOf [.tx frame] = some (.iBlock (blockNumber (frame.headD 0)) (chaining (frame.headD 0))) := by
  show some (decodePcb (frame.headD 0)) = _
  rw [decodePcb, if_pos h]

/-- A block of a response, as the reader decodes it. -/
theorem answerOf_blockAt {resp : Octets} (h : isIPcb (resp.headD 0)) (number : Bool) (off : Nat) :
    answerOf [.tx (blockAt resp number off)] = some (.iBlock number (moreAt resp off)) := by
  rw [answerOf_tx (blockAt_isIPcb h number off)]
  show some (Answer.iBlock (blockNumber (headerByte _ _ _)) (chaining (headerByte _ _ _))) = _
  rw [headerByte_number, headerByte_chaining]

theorem answerOf_append {a b : List Effect} (h : ∀ e ∈ a, e.frame? = none) : answerOf (a ++ b) = answerOf b := by
  have ha : a.findSome? Effect.frame? = none := List.findSome?_eq_none_iff.mpr h
  rw [answerOf, List.findSome?_append, ha]; rfl

/-! ## The abstract listener -/

structure View where
  expected : Bool
  picc : Bool
  valid : Bool
  collected : Octets

def view (s : Listener L σ) : View :=
  ⟨s.expectedPcdBlock, s.piccBlock, s.lastResponseValid, s.command.take s.commandLen⟩

/-- What a block may do: view before, block, view after, effects, answer. `max` is the
    room for a command. -/
inductive Reacts (max : Nat) (v : View) : Sent → View → List Effect → Option Answer → Prop
  | idle {f : Sent} {out : List Effect} {a : Option Answer} : Silent out → a = none ∨ a = some .other → Reacts max v f v out a
  | replayR {f : Sent} {n more : Bool} {out : List Effect} : f = .nak n ∨ f = .ack n → Silent out → v.valid = true →
      n = v.picc → Reacts max v f v out (some (.iBlock v.picc more))
  | acked {n : Bool} {out : List Effect} : Silent out → ¬(v.valid = true ∧ n = v.picc) →
      Reacts max v (.nak n) v out (some (.rAck v.picc))
  | next {n more : Bool} {out : List Effect} : Silent out → v.valid = true → n ≠ v.picc →
      Reacts max v (.ack n) { v with picc := !v.picc, expected := v.picc } out (some (.iBlock (!v.picc) more))
  | replayI {n m more : Bool} {inf : Octets} {out : List Effect} : Silent out → n ≠ v.expected → v.valid = true →
      v.collected = [] → Reacts max v (.iBlock n m inf) v out (some (.iBlock v.picc more))
  | again {n m : Bool} {inf : Octets} {out : List Effect} : Silent out → n ≠ v.expected → v.collected ≠ [] →
      Reacts max v (.iBlock n m inf) v out (some (.rAck n))
  | dropped {n m : Bool} {inf : Octets} {out : List Effect} : Silent out → n = v.expected →
      max < v.collected.length + inf.length →
      Reacts max v (.iBlock n m inf) { v with collected := [] } out (some .other)
  | collected {n : Bool} {inf : Octets} {out : List Effect} : Silent out → n = v.expected → inf ≠ [] →
      Reacts max v (.iBlock n true inf) { v with expected := !v.expected, collected := v.collected ++ inf }
        (.append inf :: out) (some (.rAck n))
  | executed {n more : Bool} {inf : Octets} {out : List Effect} : Once out → dispatched out = [v.collected ++ inf] →
      (∀ x, Effect.append x ∈ out → x = inf) → n = v.expected →
      Reacts max v (.iBlock n false inf) ⟨!v.expected, v.expected, true, []⟩ out (some (.iBlock n more))

/-! ### Which frame it was -/

def Sent.pcb (u : Bool) : Sent → UInt8
  | .iBlock number more _ => iPcb number more u
  | .nak number => rPcb true number u
  | .ack number => rPcb false number u

theorem encode_header (cid : Option UInt8) (f : Sent) :
    Header (f.encode cid) (f.pcb cid.isSome) cid.isSome (cid.getD 0) := by
  cases f with
  | iBlock n m inf => exact (iFrame_iBlock n m cid inf).toHeader
  | nak n => exact (rFrame_rBlock true n cid).toHeader
  | ack n => exact (rFrame_rBlock false n cid).toHeader

theorem iPcb_not_rBlock : ∀ n m u : Bool, iPcb n m u &&& 0xE6 ≠ 0xA2 := by decide

theorem rPcb_not_iBlock : ∀ nak n u : Bool, ¬isIPcb (rPcb nak n u) := by decide

theorem pcb_not_deselect (u : Bool) (f : Sent) : f.pcb u &&& ~~~cidMask ≠ 0xC2 := by
  have hi : ∀ n m u : Bool, iPcb n m u &&& ~~~cidMask ≠ 0xC2 := by decide
  have hr : ∀ nak n u : Bool, rPcb nak n u &&& ~~~cidMask ≠ 0xC2 := by decide
  cases f with
  | iBlock n m _ => exact hi n m u
  | nak n => exact hr true n u
  | ack n => exact hr false n u

theorem rBlock_sent {cid : Option UInt8} {f : Sent} {pcb : UInt8} {u : Bool} {c : UInt8}
    (h : RBlock (f.encode cid) pcb u c) :
    (f = .nak (blockNumber pcb) ∧ pcb &&& 0x10 ≠ 0) ∨ (f = .ack (blockNumber pcb) ∧ pcb &&& 0x10 = 0) := by
  obtain ⟨rfl, _, _⟩ := h.toHeader.unique (encode_header cid f)
  cases f with
  | iBlock n m _ => exact absurd h.kind (iPcb_not_rBlock n m _)
  | nak n =>
    refine Or.inl ⟨by rw [Sent.pcb, rPcb_number], ?_⟩
    rw [Sent.pcb, ne_eq, rPcb_nak]; simp
  | ack n => exact Or.inr ⟨by rw [Sent.pcb, rPcb_number], (rPcb_nak _ _ _).mpr rfl⟩

theorem iBlock_sent {cid : Option UInt8} {f : Sent} {pcb : UInt8} {u : Bool} {c : UInt8}
    (h : IBlock (f.encode cid) pcb u c) : f = .iBlock (blockNumber pcb) (chaining pcb) ((f.encode cid).drop (headerLen u)) := by
  obtain ⟨rfl, rfl, _⟩ := h.toHeader.unique (encode_header cid f)
  cases f with
  | iBlock n m inf =>
    show Sent.iBlock n m inf = Sent.iBlock (blockNumber (iPcb n m _)) (chaining (iPcb n m _)) ((iFrame n m cid inf).drop _)
    rw [iPcb_number, iPcb_chaining, iFrame_inf]
  | nak n => exact absurd h.kind (rPcb_not_iBlock true n _)
  | ack n => exact absurd h.kind (rPcb_not_iBlock false n _)

/-! ### The code's listener reacts like that -/

@[simp] theorem view_bindCid (s : Listener L σ) (u : Bool) (c : UInt8) : view (bindCid s u c) = view s := by
  simp [view]

theorem collected_length {s : Listener L σ} (h : Sized s) : (view s).collected.length = s.commandLen := by
  have := h.command_le
  simp [view, h.command_size, this]

theorem collected_eq_nil {s : Listener L σ} (h : Sized s) : (view s).collected = [] ↔ s.commandLen = 0 := by
  rw [← List.length_eq_zero_iff, collected_length h]

/-- A block of a chain, as the abstract listener collects it. -/
theorem view_collected {s : Listener L σ} (h : Sized s) (u : Bool) (c : UInt8) (inf : Octets) :
    view (toggleExpected (appendInf (bindCid s u c) inf)) =
      { view s with expected := !(view s).expected, collected := (view s).collected ++ inf } := by
  have htake := take_appendInf h inf
  simp only [appendInf] at htake
  simp [view, toggleExpected, appendInf, htake]

/-- An answered APDU: one dispatch, the engine's functions once each, one I-block back. -/
theorem answered_once {s s' : Listener L σ} {header apdu : Octets} {out : List Effect}
    (h : Answered E s header apdu s' out) (hi : isIPcb (s'.txBuffer.data.headD 0)) :
    Once out ∧ count .append out = 0 ∧ dispatched out = [apdu] ∧
      ∃ more, answerOf out = some (.iBlock s.expectedPcdBlock more) := by
  let eff := (handleApdu E s.engine header.length apdu (s.txBuffer.reset.appendBytes header)).effects
  have hside : ∀ e ∈ eff, e.engineSide := handleApdu_engineSide _ _ _ _
  obtain ⟨ha, hd, hdis⟩ := count_engineSide hside
  have htail : Silent [.answer s'.txBuffer.data, .tx (blockAt s'.txBuffer.data s.expectedPcdBlock header.length)] := by
    simp [Silent, mark?]
  have hout : out = .dispatch apdu :: (eff ++
      [.answer s'.txBuffer.data, .tx (blockAt s'.txBuffer.data s.expectedPcdBlock header.length)]) := h.out_eq
  have hcount : ∀ m, count m (eff ++ _) = count m eff := fun m => by rw [count_append, count_silent htail, Nat.add_zero]
  rw [hout]
  refine ⟨once_cons (fun m => ?_) rfl ?_, ?_, ?_, ?_⟩
  · rw [hcount]; exact handleApdu_once _ _ _ _ m
  · rw [hcount, hd]
  · rw [count_cons, hcount, ha]; rfl
  · show apdu :: dispatched (eff ++ _) = _
    rw [dispatched_append, hdis, dispatched_silent htail]; rfl
  · refine ⟨moreAt s'.txBuffer.data header.length, ?_⟩
    have hsilent : ∀ e ∈ Effect.dispatch apdu :: (eff ++ [.answer s'.txBuffer.data]), e.frame? = none := by
      intro e he
      rcases List.mem_cons.mp he with rfl | he
      · rfl
      rcases List.mem_append.mp he with he | he
      · have := hside e he
        cases e <;> first | rfl | exact absurd this id
      · obtain rfl := List.mem_singleton.mp he; rfl
    have hsplit : Effect.dispatch apdu :: (eff ++
        [.answer s'.txBuffer.data, .tx (blockAt s'.txBuffer.data s.expectedPcdBlock header.length)]) =
        (.dispatch apdu :: (eff ++ [.answer s'.txBuffer.data])) ++
          [.tx (blockAt s'.txBuffer.data s.expectedPcdBlock header.length)] := by simp
    rw [hsplit, answerOf_append hsilent, answerOf_blockAt hi]

theorem not_mem_of_count_append {out : List Effect} (h : count .append out = 0) (x : Octets) : Effect.append x ∉ out := by
  intro hx
  rw [count, List.countP_eq_zero] at h
  exact h _ hx (by simp [mark?])

/-- After an answer the numbers have moved on, and nothing is collected. -/
theorem view_answered {s s' : Listener L σ} {header apdu : Octets} {out : List Effect} (h : Answered E s header apdu s' out)
    (h0 : s.commandLen = 0) : view s' = ⟨!s.expectedPcdBlock, s.expectedPcdBlock, true, []⟩ := by
  rw [view, h.expected, h.picc, h.valid, h.commandLen, h0]
  rfl

theorem rx_reacts (hk : E.KeepsPrefix) {s s' : Listener L σ} {out : List Effect} (h : Inv s) {cid : Option UInt8} {f : Sent}
    (hr : Rx E s (f.encode cid) s' out) :
    Reacts L.workerMaxBufferSize (view s) f (view s') out (answerOf out) := by
  have hreplay : s.lastResponseValid = true → ∃ more, Silent (sendFrame L (cachedFrame s)) ∧
      answerOf (sendFrame L (cachedFrame s)) = some (.iBlock s.piccBlock more) := by
    intro hv
    obtain ⟨hi, off, _, hc, _⟩ := h.cached hv
    refine ⟨moreAt s.txBuffer.data off, silent_sendFrame _, ?_⟩
    rw [(sendFrame_cached h hv).1, hc]
    exact answerOf_blockAt hi _ _
  have hnak : ∀ (u : Bool) (c : UInt8), Reacts L.workerMaxBufferSize (view s) f (view (bindCid s u c))
      (sendControl L (0xB2 ||| s.expectedPcdBlock.toUInt8) u c)
      (answerOf (sendControl L (0xB2 ||| s.expectedPcdBlock.toUInt8) u c)) := by
    intro u c
    rw [view_bindCid]
    refine .idle (silent_sendControl _ _ _) (Or.inr ?_)
    rw [answerOf_sendControl, (decodePcb_ack _).2]
  cases hr with
  | ignored => exact .idle (fun _ he => (by cases he)) (Or.inl rfl)
  | pps pcb hp =>
    refine .idle (silent_sendControl _ _ _) (Or.inr ?_)
    rw [answerOf_sendControl, decodePcb_pps pcb hp]
  | @replayR pcb _ _ hb _ hv hn =>
    obtain ⟨more, hs, ha⟩ := hreplay hv
    rw [ha]
    exact .replayR ((rBlock_sent hb).imp And.left And.left) hs hv hn
  | @nextBlock pcb _ _ hb _ hno ho hack =>
    obtain ⟨hv, hc, _⟩ := h.busy ho
    rcases rBlock_sent hb with ⟨_, hnak⟩ | ⟨hf, _⟩
    · exact absurd hack hnak
    have hview : view (nextSent s) = { view s with picc := !(view s).picc, expected := (view s).picc } := by
      rw [(nextSent_eq h ho).1]
      simp [view, hv]
    rw [hview, (nextSent_eq h ho).2, answerOf_blockAt (h.cached hv).1, hf]
    exact .next (by simp [Silent, mark?]) hv fun hn => hno ⟨hv, hn⟩
  | @ackR pcb _ _ hb _ hno hnak =>
    rcases rBlock_sent hb with ⟨hf, _⟩ | ⟨_, hack⟩
    · rw [answerOf_sendControl, (decodePcb_ack _).1, hf]
      exact .acked (silent_sendControl _ _ _) hno
    · exact absurd hack hnak
  | deselect hh hp =>
    obtain ⟨rfl, _, _⟩ := hh.unique (encode_header cid f)
    exact absurd hp (pcb_not_deselect _ f)
  | @replayI pcb u _ hb _ hn hv hc =>
    obtain ⟨more, hs, ha⟩ := hreplay hv
    rw [ha, iBlock_sent hb]
    exact .replayI hs hn hv ((collected_eq_nil h.toSized).mpr hc)
  | ackI hb _ hn hc =>
    rw [answerOf_sendControl, decodePcb_ack_pcb, iBlock_sent hb]
    exact .again (silent_sendControl _ _ _) hn (mt (collected_eq_nil h.toSized).mp hc)
  | nakI => exact hnak _ _
  | refused => exact hnak _ _
  | @overflow pcb u c he _ _ _ hbig =>
    rw [answerOf_sendControl, (decodePcb_ack _).2, iBlock_sent he.toIBlock]
    have hview : view (dropChain (bindCid s u c)) = { view s with collected := [] } := by simp [view, dropChain]
    rw [hview]
    refine .dropped (silent_sendControl _ _ _) he.number ?_
    rw [collected_length h.toSized]
    have := h.command_le
    omega
  | @chained pcb u c he ho hl hfit hm =>
    have ha : answerOf (Effect.append ((f.encode cid).drop (headerLen u)) :: sendControl L (0xA2 ||| (pcb &&& 1)) u c) =
        some (.rAck (blockNumber pcb)) := by
      rw [← List.singleton_append, answerOf_append (by simp [Effect.frame?]), answerOf_sendControl, decodePcb_ack_pcb]
    have hne : (f.encode cid).drop (headerLen u) ≠ [] := by
      intro hnil
      have := congrArg List.length hnil
      simp at this
      omega
    have hf := iBlock_sent he.toIBlock
    rw [ha, view_collected h.toSized]
    generalize (f.encode cid).drop (headerLen u) = inf at hf hne ⊢
    rw [hf, hm]
    exact .collected (silent_sendControl _ _ _) he.number hne
  | @lastBlock pcb u c he ho _ hfit hm _ _ _ hd =>
    obtain ⟨hans, hinv⟩ := answered_lastBlock hk h he ho hfit hd
    obtain ⟨honce, happ, hdis, more, hanswer⟩ := answered_once hans (hinv.cached hans.valid).1
    have hexp : (dropChain (appendInf (bindCid s u c) ((f.encode cid).drop (headerLen u)))).expectedPcdBlock =
        s.expectedPcdBlock := by simp [dropChain, appendInf]
    have hview := view_answered hans rfl
    have hf := iBlock_sent he.toIBlock
    rw [take_appendInf h.toSized] at hdis
    rw [hexp] at hanswer hview
    rw [← List.singleton_append, answerOf_append (by simp [Effect.frame?]), hanswer, hview]
    generalize (f.encode cid).drop (headerLen u) = inf at hf hdis ⊢
    rw [hf, hm, he.number]
    refine .executed ?_ hdis ?_ rfl
    · exact once_cons honce rfl happ
    · intro x hx
      rcases List.mem_cons.mp hx with hx | hx
      · injection hx
      · exact absurd hx (not_mem_of_count_append happ x)
  | @single pcb u c he ho _ hm hc _ _ hd =>
    obtain ⟨hans, hinv⟩ := answered_single hk h he hc hd
    obtain ⟨honce, happ, hdis, more, hanswer⟩ := answered_once hans (hinv.cached hans.valid).1
    have hview := view_answered hans (by simpa using hc)
    have hf := iBlock_sent he.toIBlock
    have hnil : (view s).collected = [] := (collected_eq_nil h.toSized).mpr hc
    rw [bindCid_expectedPcdBlock] at hanswer hview
    rw [hanswer, hview]
    generalize (f.encode cid).drop (headerLen u) = inf at hf hdis ⊢
    rw [hf, hm, he.number]
    refine .executed honce ?_ (fun x hx => absurd hx (not_mem_of_count_append happ x)) rfl
    rw [hnil, hdis]; rfl

/-- The listener of the code, seen through `view`, reacts to a reader's block as `Reacts` allows. -/
theorem callback_reacts (hk : E.KeepsPrefix) {s : Listener L σ} (h : Inv s) (cid : Option UInt8) (f : Sent) :
    let r := workerListenerCallback E s (.receivedData (f.encode cid))
    Reacts L.workerMaxBufferSize (view s) f (view r.1) r.2 (answerOf r.2) :=
  rx_reacts hk h (receivedData_rx s (f.encode cid))

end DfcFlipper.Link
