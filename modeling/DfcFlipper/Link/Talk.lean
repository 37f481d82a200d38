/-
  DfcFlipper.Link.Talk — a reader's commands over a lossy link are calls of the engine.

  What the card is for: `outcomes E st cmds`, the engine given the commands one after the
  other, without any block. Below it, `call` with its blocks, repetitions and losses.

  `Stage c s ans rest` says how far client and listener are, in five cases: the block is still
  to come (`fresh`), a block of a chain was taken (`chained`), the last one was and its answer
  waits from the first block on (`answered`), the client asks for more and the listener
  has sent the next block (`behind`) or not (`level`). In every case what the listener
  answered (`ans`) is what the client has, and what it is still to get of one response.

  One turn of the listener (`turn`) keeps the stage, spends the engine's outcomes in order and,
  unless the client is stuck, lowers the number of exchanges left (`cost`).
-/

import DfcFlipper.Link.Turns

namespace DfcFlipper.Link

open DfcFlipper.Lib.Bytes DfcFlipper.Lib.Run DfcFlipper.IsoDep

variable {L : Limits} {σ : Type} {E : Engine L σ}

/-! ## The engine alone -/

def outcomes (E : Engine L σ) : σ → List Octets → List (Outcome σ)
  | _, [] => []
  | st, apdu :: rest => handledOutcome E st [] apdu :: outcomes E (handledOutcome E st [] apdu).engine rest

/-- Behind a prefix of `k` octets there is room for each answer. -/
def Roomy (E : Engine L σ) (k : Nat) : σ → List Octets → Prop
  | _, [] => True
  | st, apdu :: rest => IsoDep.Room E k st apdu ∧ Roomy E k (handledOutcome E st [] apdu).engine rest

def collected (s : Listener L σ) : Octets := s.command.take s.commandLen

/-- What the engine will do of the commands in `rest`, behind what the listener has collected. -/
def ahead (E : Engine L σ) (s : Listener L σ) (rest : List Block) : List (Outcome σ) :=
  outcomes E s.engine (assemble (collected s) rest)

def engineAfter (st : σ) (done : List (Outcome σ)) : σ := done.foldl (fun _ o => o.engine) st

structure Agrees (E : Engine L σ) (k : Nat) (s s' : Listener L σ) (rest rest' : List Block) (out : List Effect)
    (done : List (Outcome σ)) : Prop where
  spends : ahead E s rest = done ++ ahead E s' rest'
  payloads : heard out = done.map (·.payload)
  calls : engineCalls out = done.flatMap (·.calls)
  engine : s'.engine = engineAfter s.engine done
  roomy : Roomy E k s'.engine (assemble (collected s') rest')
  room : Room L.workerMaxBufferSize s'.commandLen rest'

structure Ready (E : Engine L σ) (k : Nat) (s : Listener L σ) (rest : List Block) : Prop where
  roomy : Roomy E k s.engine (assemble (collected s) rest)
  room : Room L.workerMaxBufferSize s.commandLen rest

/-- Neither the engine nor the open command is touched. -/
theorem agrees_quiet {k : Nat} {s s' : Listener L σ} {rest : List Block} {out : List Effect} (h : Ready E k s rest)
    (he : s'.engine = s.engine) (hc : collected s' = collected s) (hl : s'.commandLen = s.commandLen) (hp : Plain out) :
    Agrees E k s s' rest rest out [] := by
  refine ⟨?_, hp.2, hp.1, he, ?_, ?_⟩
  · rw [ahead, ahead, he, hc]; rfl
  · rw [he, hc]; exact h.roomy
  · rw [hl]; exact h.room

theorem agrees_same {k : Nat} {s : Listener L σ} {rest : List Block} {out : List Effect} (h : Ready E k s rest)
    (hp : Plain out) : Agrees E k s s rest rest out [] :=
  agrees_quiet h rfl rfl rfl hp

/-- A dispatched APDU is the engine's next outcome. -/
theorem dispatch_outcome (hk : E.KeepsPrefix) (hb : E.PrefixBlind) {s : Listener L σ} {header apdu : Octets}
    (hf : s.lastFrame.length = isoDepFrameMax) (hh : prefixLen header = header.length)
    (hroom : IsoDep.Room E header.length s.engine apdu) :
    let o := handledOutcome E s.engine [] apdu
    let r := dispatch E s header apdu
    heard r.2 = [payload r.1.txBuffer.data] ∧ payload r.1.txBuffer.data = o.payload ∧ engineCalls r.2 = o.calls ∧
      r.1.engine = o.engine := by
  intro o r
  have hle := prefixLen_le header
  have ha := dispatch_answered hk s header apdu hf hh
  obtain ⟨heng, hcalls⟩ := dispatch_engine E s header apdu
  have ho : handledOutcome E s.engine header apdu = o := (handledOutcome_blind hb (by omega) hroom).1
  have hpos := prefixLen_pos header
  have hne : header ≠ [] := by
    intro e
    rw [e] at hh
    simp [prefixLen] at hh
  have hheard : heard r.2 = [payload r.1.txBuffer.data] := by
    rw [ha.out_eq, ← List.singleton_append, heard_append, heard_append, heard_engineSide (handleApdu_engineSide _ _ _ _)]
    rfl
  have hpay : payload r.1.txBuffer.data = r.1.txBuffer.data.drop header.length := by
    rw [payload, prefixLen_of_starts hne ha.starts, hh]
  refine ⟨hheard, ?_, ?_, ?_⟩
  · rw [hpay, ha.response, ← ho]
    rfl
  · rw [hcalls, ← ho]
    rfl
  · rw [heng, ← ho]
    rfl

/-! ## Stages -/

inductive Stage (c : Client) (s : Listener L σ) (ans : List Octets) : List Block → Prop
  | fresh : c.reader.phase ≠ .ack → s.expectedPcdBlock = c.reader.number → s.responseOffset = 0 → c.got = [] →
      ans = c.responses → Stage c s ans c.reader.todo
  | chained {b : Block} {rest : List Block} : c.reader.phase ≠ .ack → c.reader.todo = b :: rest → b.more = true →
      s.expectedPcdBlock = (!c.reader.number) → s.commandLen ≠ 0 → s.responseOffset = 0 → c.got = [] →
      ans = c.responses → Stage c s ans rest
  | answered {b : Block} {rest : List Block} {cur tail : Octets} : c.reader.phase ≠ .ack → c.reader.todo = b :: rest →
      b.more = false → Standing s cur tail → s.piccBlock = c.reader.number → c.got = [] →
      ans = c.responses ++ [cur ++ tail] → Stage c s ans rest
  | behind {b : Block} {rest : List Block} {cur tail : Octets} : c.reader.phase = .ack → c.reader.todo = b :: rest →
      Standing s cur tail → s.piccBlock = c.reader.number → ans = c.responses ++ [c.got ++ (cur ++ tail)] →
      Stage c s ans rest
  | level {b : Block} {rest : List Block} {cur tail : Octets} : c.reader.phase = .ack → c.reader.todo = b :: rest →
      Standing s cur tail → s.piccBlock = (!c.reader.number) → tail ≠ [] → ans = c.responses ++ [c.got ++ tail] →
      Stage c s ans rest

/-- Asking again is no way on. -/
theorem Stage.asks {c : Client} {s : Listener L σ} {ans : List Octets} {rest : List Block} {p : Phase} (h : Stage c s ans rest)
    (hp : c.reader.phase ≠ .ack) (hp' : p ≠ .ack) : Stage { c with reader := { c.reader with phase := p } } s ans rest := by
  cases h with
  | fresh _ he ho hg ha => exact .fresh hp' he ho hg ha
  | chained _ ht hm he hc ho hg ha => exact .chained hp' ht hm he hc ho hg ha
  | answered _ ht hm hs hn hg ha => exact .answered hp' ht hm hs hn hg ha
  | behind hack => exact absurd hack hp
  | level hack => exact absurd hack hp

theorem Stage.other {c : Client} {s : Listener L σ} {ans : List Octets} {rest : List Block} {b : Block} {frame : Option Octets}
    (h : Stage c s ans rest) (ha : answerTo frame = none ∨ answerTo frame = some .other) :
    Stage (c.receive b frame) s ans rest := by
  rw [Client.receive_other ha]
  by_cases hp : c.reader.phase = .ack
  · rw [if_pos hp, ← hp]; exact h
  · rw [if_neg hp]; exact h.asks hp (by simp)

/-- Past a block the next one is still to come. -/
theorem stage_advance {c : Client} {s : Listener L σ} {ans got : List Octets} {b : Block} {rest : List Block}
    (ht : c.reader.todo = b :: rest) (he : s.expectedPcdBlock = (!c.reader.number)) (ho : s.responseOffset = 0)
    (ha : ans = got) : Stage ⟨c.reader.advance, [], got⟩ s ans rest := by
  have hf : Stage ⟨c.reader.advance, [], got⟩ s ans c.reader.advance.todo := .fresh (by simp [Reader.advance]) he ho rfl ha
  have htail : c.reader.advance.todo = rest := by simp [Reader.advance, ht]
  rwa [htail] at hf

/-! ## Exchanges left -/

def cost (c : Client) (s : Listener L σ) : Nat :=
  match c.reader.todo with
  | [] => 0
  | _ :: rest => rest.length * (L.bytebufMax + 4) + match c.reader.phase with
    | .block => L.bytebufMax + 2
    | .nak => L.bytebufMax + 3
    | .ack => if s.piccBlock = c.reader.number then L.bytebufMax + 1 else s.txBuffer.data.length - s.responseOffset

theorem cost_advance (r : Reader) (got : Octets) (responses : List Octets) (s : Listener L σ) {b : Block} {rest : List Block}
    (ht : r.todo = b :: rest) : cost ⟨r.advance, got, responses⟩ s ≤ rest.length * (L.bytebufMax + 4) := by
  have htodo : (⟨r.advance, got, responses⟩ : Client).reader.todo = rest := by simp [Reader.advance, ht]
  unfold cost
  rw [htodo]
  cases rest with
  | nil => exact Nat.zero_le _
  | cons b' rest' =>
    simp only [Reader.advance, List.length_cons, Nat.succ_mul]
    omega

theorem cost_cons {c : Client} {s : Listener L σ} {b : Block} {rest : List Block} (ht : c.reader.todo = b :: rest) :
    cost c s = rest.length * (L.bytebufMax + 4) + match c.reader.phase with
      | .block => L.bytebufMax + 2
      | .nak => L.bytebufMax + 3
      | .ack => if s.piccBlock = c.reader.number then L.bytebufMax + 1 else s.txBuffer.data.length - s.responseOffset := by
  unfold cost
  rw [ht]

theorem Standing.tail_le {s : Listener L σ} {cur tail : Octets} (h : Standing s cur tail) : tail.length ≤ L.bytebufMax := by
  by_cases ht : tail = []
  · rw [ht]; exact Nat.zero_le _
  · have := h.left ht
    have := s.txBuffer.fits
    omega

/-- The block the client waits for: it takes it, and asks for more or is done with the response. -/
theorem stage_shown {c : Client} {s : Listener L σ} {ans : List Octets} {b : Block} {rest : List Block} {cur tail f : Octets}
    (ht : c.reader.todo = b :: rest) (hw : c.reader.phase = .ack ∨ b.more = false) (hs : Standing s cur tail)
    (hn : s.piccBlock = c.reader.number) (hf : Shows f c.reader.number cur tail)
    (ha : ans = c.responses ++ [c.got ++ (cur ++ tail)]) :
    Stage (c.receive b (some f)) s ans rest ∧ (c.receive b (some f)).reader.phase ≠ .nak ∧
      cost (c.receive b (some f)) s ≤ rest.length * (L.bytebufMax + 4) + tail.length := by
  rw [Client.receive_block hf.pcb hw, hf.inf]
  by_cases hnil : tail = []
  · subst hnil
    have ho : s.responseOffset = 0 := Decidable.byContradiction fun ho => hs.offset.mp ho rfl
    exact ⟨stage_advance ht (by rw [hs.turned, hn]) ho (by rw [ha, List.append_nil]), by simp [Reader.advance],
      cost_advance _ _ _ s ht⟩
  · rw [if_pos (by rw [List.isEmpty_eq_false_iff.mpr hnil]; rfl)]
    refine ⟨.level rfl ht hs (by simp [hn, Reader.takeResponse]) hnil (by rw [ha, List.append_assoc]),
      by simp [Reader.takeResponse], ?_⟩
    have htodo : (⟨c.reader.takeResponse true, c.got ++ cur, c.responses⟩ : Client).reader.todo = b :: rest := ht
    rw [cost_cons htodo, ← hs.left hnil]
    simp [Reader.takeResponse, hn]

/-! ## One turn -/

/-- The client asks with R(NAK) and gets, for ever, an answer it cannot use. -/
def StuckAt (r : Reader) (s : Listener L σ) (cid : Option UInt8) (b : Block) : Prop :=
  r.phase = .nak ∧ (unbound s cid = true ∨
    (s.piccBlock = r.number ∧ (s.expectedPcdBlock = r.number ∨ (b.more = true ∧ s.lastResponseValid = true))))

structure Turn (E : Engine L σ) (cid : Option UInt8) (c : Client) (b : Block) (s : Listener L σ) (ans : List Octets)
    (rest : List Block) (r : Listener L σ × List Effect) (rest' : List Block) : Prop where
  agrees : ∃ done, Agrees E (headerLen cid.isSome) s r.1 rest rest' r.2 done
  bound : Bound r.1 cid
  binds : unbound r.1 cid = true → r.1 = s ∧ c.reader.phase = .nak
  waits : Stage c r.1 (ans ++ heard r.2) rest'
  moves : ¬Mistakes c.reader (view s) b → Stage (c.receive b (frameOf r.2)) r.1 (ans ++ heard r.2) rest'
  cheaper : ¬StuckAt c.reader s cid b →
    cost (c.receive b (frameOf r.2)) r.1 < cost c s ∧ (c.receive b (frameOf r.2)).reader.phase ≠ .nak
  stuck : StuckAt c.reader s cid b → ¬Mistakes c.reader (view s) b → c.receive b (frameOf r.2) = c ∧ r.1 = s

variable {cid : Option UInt8} {c : Client} {b : Block} {s : Listener L σ} {ans : List Octets} {tail : List Block}

theorem answerTo_frameOf (out : List Effect) : answerTo (frameOf out) = answerOf out := rfl

theorem bound_of_same (h : unbound s cid = false) : Bound s cid := fun hu => by rw [h] at hu; cases hu

/-- The client's I-block is expected, and a chain goes on behind it. -/
theorem turn_chained (hi : Inv s) (hb : Bound s cid) (hp : c.reader.phase = .block) (ht : c.reader.todo = b :: tail)
    (hm : b.more = true) (he : s.expectedPcdBlock = c.reader.number) (ho : s.responseOffset = 0) (hg : c.got = [])
    (ha : ans = c.responses) (hr : Ready E (headerLen cid.isSome) s (b :: tail)) :
    Turn E cid c b s ans (b :: tail) (listen E cid s (c.reader.sends b)) tail := by
  obtain ⟨hinf, hfit, hroom⟩ := hr.room
  have hsend : c.reader.sends b = .iBlock s.expectedPcdBlock true b.inf := by rw [Reader.sends, hp, hm, he]
  have hplain := plain_chained (L := L) b.inf (0xA2 ||| (IsoDep.iPcb s.expectedPcdBlock true cid.isSome &&& 1)) cid.isSome
    (cid.getD 0)
  have hne : c.reader.phase ≠ .ack := by rw [hp]; simp
  have hlen : b.inf.length ≠ 0 := by simpa using hinf
  have hanswer : answerTo (frameOf (Effect.append b.inf ::
      sendControl L (0xA2 ||| (IsoDep.iPcb s.expectedPcdBlock true cid.isSome &&& 1)) cid.isSome (cid.getD 0))) =
      some (.rAck c.reader.number) := by
    rw [answerTo_frameOf, ← List.singleton_append, answerOf_append (by simp [Effect.frame?]), answerOf_sendControl,
      decodePcb_ack_pcb, iPcb_number, he]
  have hcol : collected (toggleExpected (appendInf (bindCid s cid.isSome (cid.getD 0)) b.inf)) = collected s ++ b.inf := by
    have htake := take_appendInf hi.toSized b.inf
    simpa [collected, toggleExpected, appendInf] using htake
  have hlen' : (toggleExpected (appendInf (bindCid s cid.isSome (cid.getD 0)) b.inf)).commandLen = s.commandLen + b.inf.length := by
    simp [toggleExpected, appendInf]
  have heng : (toggleExpected (appendInf (bindCid s cid.isSome (cid.getD 0)) b.inf)).engine = s.engine := by
    simp [toggleExpected, appendInf]
  have hoff : (toggleExpected (appendInf (bindCid s cid.isSome (cid.getD 0)) b.inf)).responseOffset = 0 := by
    simpa [toggleExpected, appendInf] using ho
  have hexp : (toggleExpected (appendInf (bindCid s cid.isSome (cid.getD 0)) b.inf)).expectedPcdBlock = (!c.reader.number) := by
    simp [toggleExpected, appendInf, he]
  have hasm : assemble (collected s) (b :: tail) = assemble (collected s ++ b.inf) tail := by rw [assemble, if_pos hm]
  have hmove : c.receive b (frameOf (Effect.append b.inf ::
      sendControl L (0xA2 ||| (IsoDep.iPcb s.expectedPcdBlock true cid.isSome &&& 1)) cid.isSome (cid.getD 0))) =
      { c with reader := c.reader.advance } := by
    rw [Client.receive_rAck hanswer hne, if_pos rfl, if_pos hm]
  have hroomy := hr.roomy
  rw [hasm] at hroomy
  rw [hsend, listen_chained E hb ho hinf hfit]
  have hbound : unbound (toggleExpected (appendInf (bindCid s cid.isSome (cid.getD 0)) b.inf)) cid = false :=
    cidMismatch_bindCid s _ _
  refine ⟨⟨[], ?_, hplain.2, hplain.1, heng, ?_, ?_⟩, bound_of_same hbound, fun hu => ?_, ?_, fun _ => ?_,
    fun _ => ⟨?_, ?_⟩, fun hst => ?_⟩
  · rw [ahead, ahead, heng, hcol, hasm]; rfl
  · rw [heng, hcol]; exact hroomy
  · rw [hlen']; simpa [hm] using hroom
  · rw [hbound] at hu; cases hu
  · rw [hplain.2, List.append_nil]
    exact .chained hne ht hm hexp (by rw [hlen']; omega) hoff hg ha
  · rw [hmove, hplain.2, List.append_nil]
    have hst := stage_advance (c := c) ht hexp hoff ha
    rwa [← hg] at hst
  · have hle := cost_advance (L := L) c.reader c.got c.responses
      (toggleExpected (appendInf (bindCid s cid.isSome (cid.getD 0)) b.inf)) ht
    rw [hmove, cost_cons ht, hp]
    simp only
    omega
  · rw [hmove]; simp [Reader.advance]
  · have := hst.1
    rw [hp] at this
    cases this

/-- The client's I-block is expected, and ends its command. -/
theorem turn_whole (hk : E.KeepsPrefix) (hbl : E.PrefixBlind) (hi : Inv s) (hb : Bound s cid) (hp : c.reader.phase = .block)
    (ht : c.reader.todo = b :: tail) (hm : b.more = false) (he : s.expectedPcdBlock = c.reader.number)
    (ho : s.responseOffset = 0) (hg : c.got = []) (ha : ans = c.responses)
    (hr : Ready E (headerLen cid.isSome) s (b :: tail)) :
    Turn E cid c b s ans (b :: tail) (listen E cid s (c.reader.sends b)) tail := by
  obtain ⟨hinf, hfit, hroom⟩ := hr.room
  have hsend : c.reader.sends b = .iBlock s.expectedPcdBlock false b.inf := by rw [Reader.sends, hp, hm, he]
  have hne : c.reader.phase ≠ .ack := by rw [hp]; simp
  obtain ⟨s0, apdu, front, hw, hplain, hfront, hlisten⟩ := listen_whole E hi.toSized hb ho hinf hfit
  generalize hhead : (iFrame s.expectedPcdBlock false cid b.inf).take (headerLen cid.isSome) = header at hlisten
  have hheader := (iFrame_iBlock s.expectedPcdBlock false cid b.inf)
  have hpre : prefixLen header = header.length := by rw [← hhead]; exact prefixLen_take_header hheader.toHeader
  have hlen : header.length = headerLen cid.isSome := by rw [← hhead]; exact length_take_header hheader.toHeader
  have hkind : isIPcb (header.headD 0) := by
    rw [← hhead, headD_take_header hheader.toHeader]; exact hheader.kind
  have hasm : assemble (collected s) (b :: tail) = apdu :: assemble [] tail := by
    rw [assemble, if_neg (by simp [hm]), hw.apdu_eq, iFrame_inf]; rfl
  have hroomy := hr.roomy
  rw [hasm] at hroomy
  have hsize := hw.sized.frame_size
  obtain ⟨hheard, hpayload, hcalls, hengine⟩ := dispatch_outcome hk hbl hsize hpre (by rw [hlen, hw.engine]; exact hroomy.1)
  have hans := dispatch_answered hk s0 header apdu hsize hpre
  obtain ⟨cur, rest, f, hpay, hstand, hframe, hshow⟩ := answered_standing hans hkind hpre hw.closed
  rw [hw.engine] at hpayload hcalls hengine
  rw [hsend, hlisten]
  generalize dispatch E s0 header apdu = r at hheard hpayload hcalls hengine hans hstand hframe hshow hpay ⊢
  have hheard' : heard (front ++ r.2) = [cur ++ rest] := by
    rw [heard_append, hplain.2, hheard, hpay]; rfl
  have hframe' : frameOf (front ++ r.2) = some f := by
    rw [frameOf, List.findSome?_append, show front.findSome? Effect.frame? = none from hfront]
    exact hframe
  have hpicc : r.1.piccBlock = c.reader.number := by rw [hans.picc, hw.number, he]
  have hshown := stage_shown ht (Or.inr hm) hstand hpicc
    (by rw [← he, ← hw.number]; exact hshow) (show ans ++ heard (front ++ r.2) = _ from by rw [hheard', ha, hg, List.nil_append])
  have hcol : collected r.1 = [] := by rw [collected, hstand.closed, List.take_zero]
  have hbound : unbound r.1 cid = false := by
    have hbound := hw.bound
    rw [cidMismatch] at hbound
    rw [unbound, cidMismatch, hans.cidValid, hans.cid]
    exact hbound
  refine ⟨⟨[handledOutcome E s.engine [] apdu], ?_, ?_, ?_, hengine, ?_, ?_⟩, bound_of_same hbound, fun hu => ?_, ?_,
    fun _ => ?_, fun _ => ⟨?_, ?_⟩, fun hst => ?_⟩
  · rw [ahead, ahead, hasm, hcol, hengine]; rfl
  · rw [heard_append, hplain.2, hheard, hpayload]; rfl
  · rw [engineCalls_append, hplain.1, hcalls]; simp
  · rw [hcol, hengine]; exact hroomy.2
  · rw [hstand.closed]; simpa [hm] using hroom
  · rw [hbound] at hu; cases hu
  · exact .answered hne ht hm hstand hpicc hg (by rw [hheard', ha])
  · rw [hframe']; exact hshown.1
  · have hle := hshown.2.2
    have htail := hstand.tail_le
    rw [hframe', cost_cons ht, hp]
    simp only
    omega
  · rw [hframe']; exact hshown.2.1
  · have := hst.1
    rw [hp] at this
    cases this

/-- A turn that leaves the listener as it was. -/
theorem turn_same {rest : List Block} {out : List Effect} (hr : Ready E (headerLen cid.isSome) s rest) (hb : Bound s cid)
    (hst : Stage c s ans rest) (hp : Plain out)
    (hbinds : unbound s cid = true → c.reader.phase = .nak)
    (hmoves : ¬Mistakes c.reader (view s) b → Stage (c.receive b (frameOf out)) s ans rest)
    (hcheap : ¬StuckAt c.reader s cid b →
      cost (c.receive b (frameOf out)) s < cost c s ∧ (c.receive b (frameOf out)).reader.phase ≠ .nak)
    (hstuck : StuckAt c.reader s cid b → ¬Mistakes c.reader (view s) b → c.receive b (frameOf out) = c) :
    Turn E cid c b s ans rest (s, out) rest := by
  refine ⟨⟨[], agrees_same hr hp⟩, hb, fun hu => ⟨rfl, hbinds hu⟩, ?_, fun hm => ?_, hcheap, fun h hm => ⟨hstuck h hm, rfl⟩⟩
  · rw [hp.2, List.append_nil]; exact hst
  · rw [hp.2, List.append_nil]; exact hmoves hm

theorem cost_asks {c : Client} {s : Listener L σ} {b : Block} {rest : List Block} (ht : c.reader.todo = b :: rest)
    (hp : c.reader.phase = .nak) : cost { c with reader := { c.reader with phase := .block } } s < cost c s := by
  have htodo : ({ c with reader := { c.reader with phase := .block } } : Client).reader.todo = b :: rest := ht
  rw [cost_cons ht, cost_cons htodo, hp]
  simp only
  omega

theorem client_nak (h : c.reader.phase = .nak) : ({ c with reader := { c.reader with phase := .nak } } : Client) = c := by
  obtain ⟨⟨n, p, i, t⟩, g, rs⟩ := c
  simp only at h
  rw [h]

theorem answerTo_rAck (n : Bool) (u : Bool) (o : UInt8) :
    answerTo (frameOf (sendControl L (0xA2 ||| n.toUInt8) u o)) = some (.rAck n) := by
  rw [answerTo_frameOf, answerOf_sendControl, (decodePcb_ack _).1]

/-- The cached frame is an I-block under the listener's own number. -/
theorem answerTo_cached (hi : Inv s) (hv : s.lastResponseValid = true) :
    ∃ more, answerTo (frameOf (sendFrame L (cachedFrame s))) = some (.iBlock s.piccBlock more) := by
  obtain ⟨hhead, off, _, hc, _⟩ := hi.cached hv
  refine ⟨moreAt s.txBuffer.data off, ?_⟩
  rw [answerTo_frameOf, (sendFrame_cached hi hv).1, hc, answerOf_blockAt hhead]

/-- The client's R(NAK) and a listener that has not taken the block. -/
theorem turn_fresh_nak (hi : Inv s) (hb : Bound s cid) (hp : c.reader.phase = .nak) (ht : c.reader.todo = b :: tail)
    (he : s.expectedPcdBlock = c.reader.number) (hst : Stage c s ans (b :: tail))
    (hr : Ready E (headerLen cid.isSome) s (b :: tail)) :
    Turn E cid c b s ans (b :: tail) (listen E cid s (c.reader.sends b)) (b :: tail) := by
  have hsend : c.reader.sends b = .nak c.reader.number := by rw [Reader.sends, hp]
  have hne : c.reader.phase ≠ .ack := by rw [hp]; simp
  rw [hsend]
  cases hu : unbound s cid with
  | true =>
    have hlisten : listen E cid s (.nak c.reader.number) = (s, []) := listen_unbound E true c.reader.number hu
    have hnone : c.receive b (frameOf []) = c := by
      rw [Client.receive_other (Or.inl rfl), if_neg hne, client_nak hp]
    rw [hlisten]
    exact turn_same hr hb hst plain_nil (fun _ => hp) (fun _ => hst.other (Or.inl rfl))
      (fun hns => absurd ⟨hp, Or.inl hu⟩ hns) fun _ _ => hnone
  | false =>
    rw [listen_nak E c.reader.number hu]
    by_cases hv : s.lastResponseValid = true ∧ c.reader.number = s.piccBlock
    · rw [if_pos hv]
      have hstuck : StuckAt c.reader s cid b := ⟨hp, Or.inr ⟨hv.2.symm, Or.inl he⟩⟩
      obtain ⟨more, hanswer⟩ := answerTo_cached hi hv.1
      have hsame : ¬Mistakes c.reader (view s) b → c.receive b (frameOf (sendFrame L (cachedFrame s))) = c := by
        intro hmis
        have hm : b.more = true := by
          cases hm : b.more with
          | true => rfl
          | false => exact absurd ⟨hp, he, hv.2.symm, by rw [hm, show (view s).valid = true from hv.1]; rfl⟩ hmis
        rw [Client.receive_chained hanswer hne hm, client_nak hp]
      refine turn_same hr hb hst (plain_sendFrame _) (fun _ => hp) (fun hmis => ?_) (fun hns => absurd hstuck hns) fun _ => hsame
      rw [hsame hmis]
      exact hst
    · rw [if_neg hv]
      have hanswer := answerTo_rAck (L := L) s.piccBlock cid.isSome (cid.getD 0)
      have hmove := Client.receive_rAck (b := b) hanswer hne
      refine turn_same hr hb hst (plain_sendFrame _) (fun _ => hp) ?_ ?_ ?_
      · intro hmis
        rw [hmove]
        by_cases hn : s.piccBlock = c.reader.number
        · have hval : s.lastResponseValid = false := by
            cases hval : s.lastResponseValid with
            | false => rfl
            | true => exact absurd ⟨hval, hn.symm⟩ hv
          have hm : b.more = false := by
            cases hm : b.more with
            | false => rfl
            | true => exact absurd ⟨hp, he, hn, by rw [hm, show (view s).valid = false from hval]; rfl⟩ hmis
          rw [if_pos hn, hm]
          exact hst.asks hne (by simp)
        · rw [if_neg hn]
          exact hst.asks hne (by simp)
      · intro hns
        have hn : s.piccBlock ≠ c.reader.number := fun hn => hns ⟨hp, Or.inr ⟨hn, Or.inl he⟩⟩
        rw [hmove, if_neg hn]
        exact ⟨cost_asks ht hp, by simp⟩
      · intro hs hmis
        have hn : s.piccBlock = c.reader.number := by
          rcases hs.2 with hu' | hn
          · rw [hu] at hu'; cases hu'
          · exact hn.1
        have hval : s.lastResponseValid = false := by
          cases hval : s.lastResponseValid with
          | false => rfl
          | true => exact absurd ⟨hval, hn.symm⟩ hv
        have hm : b.more = false := by
          cases hm : b.more with
          | false => rfl
          | true => exact absurd ⟨hp, he, hn, by rw [hm, show (view s).valid = false from hval]; rfl⟩ hmis
        rw [hmove, if_pos hn, hm]
        exact client_nak hp

/-- A block of a chain taken before: sent again, or asked for. -/
theorem turn_again (hi : Inv s) (hb : Bound s cid) (hne : c.reader.phase ≠ .ack) (ht : c.reader.todo = b :: tail)
    (hm : b.more = true) (he : s.expectedPcdBlock = (!c.reader.number)) (hc : s.commandLen ≠ 0) (ho : s.responseOffset = 0)
    (hg : c.got = []) (ha : ans = c.responses) (hr : Ready E (headerLen cid.isSome) s tail) :
    Turn E cid c b s ans tail (listen E cid s (c.reader.sends b)) tail := by
  have hu := hb.same (Or.inr hc)
  have hst : Stage c s ans tail := .chained hne ht hm he hc ho hg ha
  have hnot : ¬c.reader.number = s.expectedPcdBlock := by rw [he]; cases c.reader.number <;> simp
  have hon : Stage { c with reader := c.reader.advance } s ans tail := by
    have hadv := stage_advance (c := c) ht he ho ha
    rwa [← hg] at hadv
  have hcost : cost { c with reader := c.reader.advance } s < cost c s ∧ c.reader.advance.phase ≠ .nak := by
    refine ⟨?_, by simp [Reader.advance]⟩
    have hle := cost_advance (L := L) c.reader c.got c.responses s ht
    rw [cost_cons ht]
    cases hp : c.reader.phase with
    | ack => exact absurd hp hne
    | block => simp only; omega
    | nak => simp only; omega
  cases hp : c.reader.phase with
  | ack => exact absurd hp hne
  | block =>
    have hsend : c.reader.sends b = .iBlock c.reader.number b.more b.inf := by rw [Reader.sends, hp]
    have hanswer : answerTo (frameOf (sendControl L (0xA2 ||| (IsoDep.iPcb c.reader.number b.more cid.isSome &&& 1))
        cid.isSome (cid.getD 0))) = some (.rAck c.reader.number) := by
      rw [answerTo_frameOf, answerOf_sendControl, decodePcb_ack_pcb, iPcb_number]
    have hmove := Client.receive_rAck (b := b) hanswer hne
    rw [if_pos rfl, if_pos hm] at hmove
    rw [hsend, listen_repeated E hu hnot (Or.inr hc), if_neg hc]
    have hsame : unbound s cid ≠ true := by rw [hu]; simp
    refine turn_same hr hb hst (plain_sendFrame _) (fun hu' => absurd hu' hsame) (fun _ => by rw [hmove]; exact hon)
      (fun _ => by rw [hmove]; exact hcost) fun hs => ?_
    rw [hs.1] at hp
    cases hp
  | nak =>
    have hsend : c.reader.sends b = .nak c.reader.number := by rw [Reader.sends, hp]
    rw [hsend, listen_nak E c.reader.number hu]
    by_cases hv : s.lastResponseValid = true ∧ c.reader.number = s.piccBlock
    · rw [if_pos hv]
      obtain ⟨more, hanswer⟩ := answerTo_cached hi hv.1
      have hsame : c.receive b (frameOf (sendFrame L (cachedFrame s))) = c := by
        rw [Client.receive_chained hanswer hne hm, client_nak hp]
      exact turn_same hr hb hst (plain_sendFrame _) (fun _ => hp) (fun _ => by rw [hsame]; exact hst)
        (fun hns => absurd ⟨hp, Or.inr ⟨hv.2.symm, Or.inr ⟨hm, hv.1⟩⟩⟩ hns) fun _ _ => hsame
    · rw [if_neg hv]
      have hanswer := answerTo_rAck (L := L) s.piccBlock cid.isSome (cid.getD 0)
      have hmove := Client.receive_rAck (b := b) hanswer hne
      have hgo : let c' := c.receive b (frameOf (sendControl L (0xA2 ||| s.piccBlock.toUInt8) cid.isSome (cid.getD 0)))
          Stage c' s ans tail ∧ cost c' s < cost c s ∧ c'.reader.phase ≠ .nak := by
        simp only
        rw [hmove]
        by_cases hn : s.piccBlock = c.reader.number
        · rw [if_pos hn, if_pos hm]
          exact ⟨hon, hcost⟩
        · rw [if_neg hn]
          exact ⟨hst.asks hne (by simp), cost_asks ht hp, by simp⟩
      refine turn_same hr hb hst (plain_sendFrame _) (fun _ => hp) (fun _ => hgo.1) (fun _ => hgo.2) fun hs => ?_
      rcases hs.2 with hu' | ⟨hn, hex | ⟨_, hval⟩⟩
      · rw [hu] at hu'; cases hu'
      · exact absurd hex.symm hnot
      · exact absurd ⟨hval, hn.symm⟩ hv

/-- The current block of a response, shown once more. -/
theorem turn_shown {rest : List Block} {cur left f : Octets} (hb : Bound s cid) (ht : c.reader.todo = b :: rest)
    (hw : c.reader.phase = .ack ∨ b.more = false) (hst : Stage c s ans rest) (hs : Standing s cur left)
    (hn : s.piccBlock = c.reader.number) (hf : Shows f s.piccBlock cur left)
    (ha : ans = c.responses ++ [c.got ++ (cur ++ left)]) (hr : Ready E (headerLen cid.isSome) s rest)
    (hout : sendFrame L (cachedFrame s) = [.tx f]) :
    Turn E cid c b s ans rest (s, sendFrame L (cachedFrame s)) rest := by
  have hshown := stage_shown ht hw hs hn (by rw [← hn]; exact hf) ha
  have hframe : frameOf (sendFrame L (cachedFrame s)) = some f := by rw [hout]; rfl
  have hsame : unbound s cid ≠ true := by rw [hb.same (Or.inl hs.valid)]; simp
  refine turn_same hr hb hst (plain_sendFrame _) (fun hu => absurd hu hsame) (fun _ => by rw [hframe]; exact hshown.1)
    (fun _ => ⟨?_, by rw [hframe]; exact hshown.2.1⟩) ?_
  · have hle := hshown.2.2
    have htail := hs.tail_le
    rw [hframe, cost_cons ht]
    cases hp : c.reader.phase with
    | ack => simp only; rw [if_pos hn]; omega
    | block => simp only; omega
    | nak => simp only; omega
  · intro hstuck hmis
    have hu := hb.same (Or.inl hs.valid)
    have hexp := hs.turned
    rcases hstuck.2 with hu' | ⟨_, hex | ⟨hm, _⟩⟩
    · rw [hu] at hu'; cases hu'
    · rw [hexp, hn] at hex
      cases hr : c.reader.number <;> rw [hr] at hex <;> cases hex
    · rcases hw with hack | hl
      · rw [hstuck.1] at hack; cases hack
      · rw [hm] at hl; cases hl

/-- The client's R(ACK) makes the listener send the next block. -/
theorem turn_next {cur left : Octets} (hi : Inv s) (hb : Bound s cid) (hp : c.reader.phase = .ack)
    (ht : c.reader.todo = b :: tail) (hs : Standing s cur left) (hn : s.piccBlock = (!c.reader.number)) (hl : left ≠ [])
    (ha : ans = c.responses ++ [c.got ++ left]) (hr : Ready E (headerLen cid.isSome) s tail) :
    Turn E cid c b s ans tail (listen E cid s (c.reader.sends b)) tail := by
  have hsend : c.reader.sends b = .ack c.reader.number := by rw [Reader.sends, hp]
  have hu := hb.same (Or.inl hs.valid)
  have hnot : c.reader.number ≠ s.piccBlock := by rw [hn]; cases c.reader.number <;> simp
  have ho := hs.offset.mpr hl
  obtain ⟨cur', left', f, hsplit, hcur, hstand, hpicc, hout, hshow⟩ := hs.next hi hl
  have hplain := plain_sendNextIResponse { s with piccBlock := !s.piccBlock }
  have hnum : (nextSent s).piccBlock = c.reader.number := by rw [hpicc, hn, Bool.not_not]
  have hans : ans = c.responses ++ [c.got ++ (cur' ++ left')] := by rw [ha, hsplit]
  have hshown := stage_shown ht (Or.inl hp) hstand hnum (by rw [← hnum, hpicc]; exact hshow) hans
  have hns := (nextSent_eq hi ho).1
  rw [hsend, listen_ack_next E hu hnot ho]
  have hframe : frameOf (sendNextIResponse { s with piccBlock := !s.piccBlock }).2 = some f := by rw [hout]; rfl
  have hbound : unbound (nextSent s) cid = false := by rw [hns]; exact hu
  refine ⟨⟨[], ?_⟩, bound_of_same hbound, fun hu' => ?_, ?_, fun _ => ?_, fun _ => ⟨?_, by rw [hframe]; exact hshown.2.1⟩,
    fun hst => ?_⟩
  · exact agrees_quiet hr (by rw [hns]) (by rw [hns]; rfl) (by rw [hns]) hplain
  · rw [hbound] at hu'; cases hu'
  · rw [hplain.2, List.append_nil]
    exact .behind hp ht hstand hnum hans
  · rw [hplain.2, List.append_nil, hframe]
    exact hshown.1
  · have hle := hshown.2.2
    have hlen := congrArg List.length hsplit
    rw [List.length_append] at hlen
    have hpos := List.length_pos_iff.mpr hcur
    have hleft := hs.left hl
    rw [hframe, cost_cons ht, hp]
    simp only
    rw [if_neg (Ne.symm hnot)]
    omega
  · have := hst.1
    rw [hp] at this
    cases this

/-- Every turn. -/
theorem turn (hk : E.KeepsPrefix) (hbl : E.PrefixBlind) {rest : List Block} (hi : Inv s) (hb : Bound s cid)
    (ht : c.reader.todo = b :: tail) (hst : Stage c s ans rest) (hr : Ready E (headerLen cid.isSome) s rest) :
    ∃ rest', Turn E cid c b s ans rest (listen E cid s (c.reader.sends b)) rest' := by
  cases hst with
  | fresh hne he ho hg ha =>
    have hst : Stage c s ans c.reader.todo := .fresh hne he ho hg ha
    rw [ht] at hr hst ⊢
    cases hp : c.reader.phase with
    | ack => exact absurd hp hne
    | nak => exact ⟨_, turn_fresh_nak hi hb hp ht he hst hr⟩
    | block =>
      cases hm : b.more with
      | true => exact ⟨_, turn_chained hi hb hp ht hm he ho hg ha hr⟩
      | false => exact ⟨_, turn_whole hk hbl hi hb hp ht hm he ho hg ha hr⟩
  | chained hne ht' hm he hc ho hg ha =>
    obtain ⟨rfl, rfl⟩ := List.cons.inj (ht.symm.trans ht')
    exact ⟨_, turn_again hi hb hne ht hm he hc ho hg ha hr⟩
  | answered hne ht' hm hs hn hg ha =>
    obtain ⟨rfl, rfl⟩ := List.cons.inj (ht.symm.trans ht')
    have hst : Stage c s ans tail := .answered hne ht hm hs hn hg ha
    have hu := hb.same (Or.inl hs.valid)
    obtain ⟨f, hout, hshow⟩ := hs.replay
    have hturn := turn_shown hb ht (Or.inr hm) hst hs hn hshow (by rw [ha, hg, List.nil_append]) hr hout
    cases hp : c.reader.phase with
    | ack => exact absurd hp hne
    | block =>
      have hsend : c.reader.sends b = .iBlock c.reader.number b.more b.inf := by rw [Reader.sends, hp]
      have hnot : c.reader.number ≠ s.expectedPcdBlock := by
        rw [hs.turned, hn]; cases c.reader.number <;> simp
      rw [hsend, listen_repeated E hu hnot (Or.inl hs.valid), if_pos hs.closed]
      exact ⟨_, hturn⟩
    | nak =>
      have hsend : c.reader.sends b = .nak c.reader.number := by rw [Reader.sends, hp]
      rw [hsend, listen_nak E c.reader.number hu, if_pos ⟨hs.valid, hn.symm⟩]
      exact ⟨_, hturn⟩
  | behind hp ht' hs hn ha =>
    obtain ⟨rfl, rfl⟩ := List.cons.inj (ht.symm.trans ht')
    have hsend : c.reader.sends b = .ack c.reader.number := by rw [Reader.sends, hp]
    obtain ⟨f, hout, hshow⟩ := hs.replay
    rw [hsend, listen_ack_same E (hb.same (Or.inl hs.valid)) hs.valid hn.symm]
    exact ⟨_, turn_shown hb ht (Or.inl hp) (.behind hp ht hs hn ha) hs hn hshow ha hr hout⟩
  | level hp ht' hs hn hl ha =>
    obtain ⟨rfl, rfl⟩ := List.cons.inj (ht.symm.trans ht')
    exact ⟨_, turn_next hi hb hp ht hs hn hl ha hr⟩

end DfcFlipper.Link
