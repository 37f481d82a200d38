/-
  DfcFlipper.Link.Rpc — what a reader gets over a lossy link, and whether it gets there.

  - `responses_in_order`: in a run without an exchange that skips a block, the engine has
    done the reader's first `n` commands, each once and in order, and the responses the
    reader has are the payloads of those, but for the last one at most.
  - `finishes_unless_stuck`: from such a state, exchanges without loss bring the rest, as
    many as there are blocks left, times `DFC_BYTEBUF_MAX + 4` at most; unless the reader is
    stuck with an R(NAK), and then no number of them changes anything.
  - `one_block_commands`: with every command in one block, and with no CID or a first frame
    that arrives, no block is ever skipped and the reader is never stuck.
-/

import DfcFlipper.Link.AtMostOnce
import DfcFlipper.Link.Talk

namespace DfcFlipper.Link

open DfcFlipper.Lib.Bytes DfcFlipper.Lib.Run DfcFlipper.IsoDep

variable {L : Limits} {σ : Type} {E : Engine L σ} {cid : Option UInt8} {st : σ}

/-! ## Runs -/

/-- The engine has done `done`; the listener has still to take `rest`. -/
structure Gone (E : Engine L σ) (cid : Option UInt8) (st : σ) (commands : List Octets) (x : Call L σ) (out : List Effect)
    (rest : List Block) (done : List (Outcome σ)) : Prop where
  inv : Inv x.listener
  bound : Bound x.listener cid
  stage : Stage x.client x.listener (heard out) rest
  ready : Ready E (headerLen cid.isSome) x.listener rest
  spends : outcomes E st commands = done ++ ahead E x.listener rest
  payloads : heard out = done.map (·.payload)
  calls : engineCalls out = done.flatMap (·.calls)
  engine : x.listener.engine = engineAfter st done

def Talking (E : Engine L σ) (cid : Option UInt8) (st : σ) (commands : List Octets) (a : Call L σ × List (Nat × Effect)) : Prop :=
  ∃ rest done, Gone E cid st commands a.1 (a.2.map Prod.snd) rest done

theorem talking_init {cmds : List (List Octets)} (h : Commands L.workerMaxBufferSize cmds)
    (hr : Roomy E (headerLen cid.isSome) st (cmds.map List.flatten)) :
    Talking E cid st (cmds.map List.flatten) (callInit L st cmds, []) := by
  obtain ⟨hasm, hroom⟩ := h.blocks
  have hahead : ahead E (callInit L st cmds).listener (callInit L st cmds).client.reader.todo =
      outcomes E st (cmds.map List.flatten) := by
    show outcomes E st (assemble [] (cmds.flatMap toBlocks)) = _
    rw [hasm]
  refine ⟨_, [], { inv := inv_init L st, bound := fun _ => ⟨rfl, rfl⟩, stage := .fresh (by simp [callInit, linkInit]) rfl rfl rfl rfl,
                   ready := ⟨?_, hroom⟩, spends := hahead.symm, payloads := rfl, calls := rfl, engine := rfl }⟩
  show Roomy E (headerLen cid.isSome) st (assemble [] (cmds.flatMap toBlocks))
  rw [hasm]
  exact hr

theorem engineAfter_append (st : σ) (a b : List (Outcome σ)) : engineAfter st (a ++ b) = engineAfter (engineAfter st a) b :=
  List.foldl_append ..

theorem call_heard (E : Engine L σ) (cid : Option UInt8) {x : Call L σ} {b : Block} {tail : List Block} {loss : Loss}
    (ht : x.client.reader.todo = b :: tail) (hd : loss.down = false) :
    let r := listen E cid x.listener (x.client.reader.sends b)
    call E cid x loss = (⟨x.client.receive b (if loss.up then none else frameOf r.2), r.1⟩,
      r.2.map fun e => (x.client.reader.index, e)) := by
  unfold call
  rw [ht]
  simp only
  rw [if_neg (by rw [hd]; simp)]
  rfl

theorem call_lost (E : Engine L σ) (cid : Option UInt8) {x : Call L σ} {b : Block} {tail : List Block} {loss : Loss}
    (ht : x.client.reader.todo = b :: tail) (hd : loss.down = true) :
    call E cid x loss = ({ x with client := x.client.receive b none }, []) := by
  unfold call
  rw [ht]
  simp only
  rw [if_pos hd]

theorem call_done (E : Engine L σ) (cid : Option UInt8) {x : Call L σ} (ht : x.client.reader.todo = []) (loss : Loss) :
    call E cid x loss = (x, []) := by
  unfold call
  rw [ht]

/-- A turn, and whatever the client makes of it. -/
theorem Gone.turned {commands : List Octets} {x : Call L σ} {out : List Effect} {rest rest' : List Block}
    {done : List (Outcome σ)} (h : Gone E cid st commands x out rest done) {b : Block} {r : Listener L σ × List Effect}
    (hinv : Inv r.1) (ht : Turn E cid x.client b x.listener (heard out) rest r rest') {c : Client}
    (hc : Stage c r.1 (heard out ++ heard r.2) rest') : ∃ done', Gone E cid st commands ⟨c, r.1⟩ (out ++ r.2) rest' done' := by
  obtain ⟨more, hagree⟩ := ht.agrees
  refine ⟨done ++ more, { inv := hinv, bound := ht.bound, stage := ?_, ready := ⟨hagree.roomy, hagree.room⟩, spends := ?_,
                          payloads := ?_, calls := ?_, engine := ?_ }⟩
  · rw [heard_append]; exact hc
  · rw [h.spends, hagree.spends, List.append_assoc]
  · rw [heard_append, h.payloads, hagree.payloads, List.map_append]
  · rw [engineCalls_append, h.calls, hagree.calls, List.flatMap_append]
  · rw [engineAfter_append, ← h.engine]; exact hagree.engine

theorem mistakes_skips {x : Ends L σ} {b : Block} {tail : List Block} (ht : x.reader.todo = b :: tail)
    (h : Mistakes x.reader (view x.listener) b) : Skips x ⟨false, false⟩ := by
  refine ⟨rfl, ?_⟩
  rw [ht]
  exact h

theorem talking_call (hk : E.KeepsPrefix) (hbl : E.PrefixBlind) {commands : List Octets} {a : Call L σ × List (Nat × Effect)}
    (h : Talking E cid st commands a) {loss : Loss} (hs : ¬Skips a.1.link loss) :
    Talking E cid st commands (logged (call E cid) a loss) := by
  obtain ⟨⟨c, s⟩, out⟩ := a
  obtain ⟨rest, done, h⟩ := h
  unfold logged
  simp only
  cases ht : c.reader.todo with
  | nil =>
    rw [call_done E cid ht, List.append_nil]
    exact ⟨rest, done, h⟩
  | cons b tail =>
    cases hd : loss.down with
    | true =>
      have hst : Stage (c.receive b none) s (heard (out.map Prod.snd)) rest := h.stage.other (Or.inl rfl)
      rw [call_lost E cid ht hd, List.append_nil]
      exact ⟨rest, done, { h with stage := hst }⟩
    | false =>
      obtain ⟨rest', hturn⟩ := turn hk hbl h.inv h.bound ht h.stage h.ready
      have hinv := inv_callback hk s (.receivedData ((c.reader.sends b).encode cid)) h.inv
      rw [call_heard E cid ht hd]
      simp only
      rw [Talking]
      simp only [List.map_append, List.map_map]
      rw [show (Prod.snd ∘ fun e : Effect => (c.reader.index, e)) = id from rfl, List.map_id]
      cases hu : loss.up with
      | true =>
        obtain ⟨done', hgone⟩ := h.turned hinv hturn (hturn.waits.other (b := b) (show answerTo none = none ∨ _ from Or.inl rfl))
        exact ⟨rest', done', hgone⟩
      | false =>
        have hclear : loss = ⟨false, false⟩ := by
          obtain ⟨d, u⟩ := loss
          simp only at hd hu
          rw [hd, hu]
        have hmis : ¬Mistakes c.reader (view s) b := fun hm => hs (hclear ▸ mistakes_skips (x := ⟨c.reader, s⟩) ht hm)
        obtain ⟨done', hgone⟩ := h.turned hinv hturn (hturn.moves hmis)
        exact ⟨rest', done', hgone⟩

/-! ## In order -/

theorem length_outcomes (E : Engine L σ) (st : σ) (cmds : List Octets) : (outcomes E st cmds).length = cmds.length := by
  induction cmds generalizing st with
  | nil => rfl
  | cons apdu rest ih => rw [outcomes, List.length_cons, List.length_cons, ih]

/-- With nothing left to send every response is there. -/
theorem Gone.finished {commands : List Octets} {x : Call L σ} {out : List Effect} {rest : List Block}
    {done : List (Outcome σ)} (h : Gone E cid st commands x out rest done) (ht : x.client.reader.todo = []) :
    done = outcomes E st commands ∧ x.client.responses = done.map (·.payload) := by
  have hst := h.stage
  have hpay := h.payloads
  have hspends := h.spends
  cases hst with
  | fresh _ _ _ _ ha =>
    rw [ahead, ht, assemble, outcomes, List.append_nil] at hspends
    exact ⟨hspends.symm, by rw [← ha, hpay]⟩
  | chained _ ht' => rw [ht] at ht'; cases ht'
  | answered _ ht' => rw [ht] at ht'; cases ht'
  | behind _ ht' => rw [ht] at ht'; cases ht'
  | level _ ht' => rw [ht] at ht'; cases ht'

/-- What was answered is what the client has, and one response more at most. -/
theorem Stage.one_more {c : Client} {s : Listener L σ} {ans : List Octets} {rest : List Block} (h : Stage c s ans rest) :
    ans = c.responses ∨ ∃ last, ans = c.responses ++ [last] := by
  cases h with
  | fresh _ _ _ _ ha => exact Or.inl ha
  | chained _ _ _ _ _ _ _ ha => exact Or.inl ha
  | answered _ _ _ _ _ _ ha => exact Or.inr ⟨_, ha⟩
  | behind _ _ _ _ ha => exact Or.inr ⟨_, ha⟩
  | level _ _ _ _ _ ha => exact Or.inr ⟨_, ha⟩

theorem talking_run (hk : E.KeepsPrefix) (hbl : E.PrefixBlind) {cmds : List (List Octets)}
    (h : Commands L.workerMaxBufferSize cmds) (hr : Roomy E (headerLen cid.isSome) st (cmds.map List.flatten))
    (losses : List Loss) (hgood : Along (logged (call E cid)) (fun a loss => ¬Skips a.1.link loss) (callInit L st cmds, []) losses) :
    Talking E cid st (cmds.map List.flatten) (run (call E cid) (callInit L st cmds) losses) :=
  foldl_inv (Talking E cid st (cmds.map List.flatten)) (fun _ _ h hs => talking_call hk hbl h hs) losses _
    (talking_init h hr) hgood

/-- For every list of commands, every split, every CID and every loss of frames: in a run
    without an exchange that skips a block, for some `n` the engine has done the first `n`
    commands and nothing else, and the responses the reader has are their payloads, the
    last one perhaps still on its way; and when the reader is done they are all there. -/
theorem responses_in_order (hk : E.KeepsPrefix) (hbl : E.PrefixBlind) (st : σ) (cid : Option UInt8)
    {cmds : List (List Octets)} (h : Commands L.workerMaxBufferSize cmds)
    (hr : Roomy E (headerLen cid.isSome) st (cmds.map List.flatten)) (losses : List Loss)
    (hgood : Along (logged (call E cid)) (fun a loss => ¬Skips a.1.link loss) (callInit L st cmds, []) losses) :
    let x := run (call E cid) (callInit L st cmds) losses
    let all := outcomes E st (cmds.map List.flatten)
    ∃ n, n ≤ cmds.length ∧ engineCalls (x.2.map Prod.snd) = (all.take n).flatMap (·.calls) ∧
      x.1.listener.engine = engineAfter st (all.take n) ∧
      ((all.take n).map (·.payload) = x.1.client.responses ∨
        ∃ last, (all.take n).map (·.payload) = x.1.client.responses ++ [last]) ∧
      (x.1.client.reader.todo = [] → n = cmds.length ∧ x.1.client.responses = all.map (·.payload)) := by
  intro x all
  obtain ⟨rest, done, hgone⟩ := talking_run hk hbl h hr losses hgood
  have hspends : all = done ++ ahead E x.1.listener rest := hgone.spends
  have htake : all.take done.length = done := by rw [hspends, List.take_left]
  have hlen : all.length = cmds.length := by rw [length_outcomes, List.length_map]
  have hle : done.length ≤ cmds.length := by rw [← hlen, hspends, List.length_append]; omega
  refine ⟨done.length, hle, ?_, ?_, ?_, fun ht => ?_⟩
  · rw [htake]; exact hgone.calls
  · rw [htake]; exact hgone.engine
  · rw [htake, ← hgone.payloads]; exact hgone.stage.one_more
  · obtain ⟨hdone, hresp⟩ := hgone.finished ht
    have hall : done = all := hdone
    exact ⟨by rw [hall]; exact hlen, by rw [← hall]; exact hresp⟩

/-- SelectApplication in two blocks and an unknown command; the answer to the second block is lost
and asked for by R(NAK), and so is the third block on its way. -/
theorem responses_in_order_select :
    let cmds : List (List Octets) := [[[0x5A], [0, 0, 0]], [[0x60]]]
    let x := run (call piccEngine none) (callInit smallLimits false cmds)
      [⟨false, false⟩, ⟨false, true⟩, ⟨false, false⟩, ⟨true, false⟩]
    let all := outcomes piccEngine false (cmds.map List.flatten)
    ∃ n, n ≤ 2 ∧ engineCalls (x.2.map Prod.snd) = (all.take n).flatMap (·.calls) ∧
      x.1.listener.engine = engineAfter false (all.take n) ∧
      ((all.take n).map (·.payload) = x.1.client.responses ∨
        ∃ last, (all.take n).map (·.payload) = x.1.client.responses ++ [last]) ∧
      (x.1.client.reader.todo = [] → n = 2 ∧ x.1.client.responses = all.map (·.payload)) :=
  responses_in_order piccEngine_keepsPrefix piccEngine_prefixBlind false none
    (show Commands smallLimits.workerMaxBufferSize [[[0x5A], [0, 0, 0]], [[0x60]]] from ⟨by decide, by decide⟩)
    ⟨show 1 + 1 ≤ 256 by decide, show 1 + 1 ≤ 256 by decide, trivial⟩ _ (by decide +kernel)

/-! ## To the end -/

def Stuck (cid : Option UInt8) (x : Call L σ) : Prop :=
  match x.client.reader.todo with
  | [] => False
  | b :: _ => StuckAt x.client.reader x.listener cid b

theorem stuck_iff {x : Call L σ} {b : Block} {tail : List Block} (ht : x.client.reader.todo = b :: tail) :
    Stuck cid x ↔ StuckAt x.client.reader x.listener cid b := by
  unfold Stuck
  rw [ht]

theorem not_stuck_done {x : Call L σ} (ht : x.client.reader.todo = []) : ¬Stuck cid x := by
  unfold Stuck
  rw [ht]
  exact id

theorem not_stuck {x : Call L σ} (hp : x.client.reader.phase ≠ .nak) : ¬Stuck cid x := by
  intro hs
  cases ht : x.client.reader.todo with
  | nil => exact not_stuck_done ht hs
  | cons b tail => exact hp ((stuck_iff ht).mp hs).1

/-- Only a stuck reader is misled. -/
theorem stuckAt_of_mistakes {r : Reader} {s : Listener L σ} {b : Block} (h : Mistakes r (view s) b) : StuckAt r s cid b :=
  ⟨h.1, Or.inr ⟨h.2.2.1, Or.inl h.2.1⟩⟩

theorem skips_stuck {x : Call L σ} {loss : Loss} (h : Skips x.link loss) : Stuck cid x := by
  obtain ⟨_, hm⟩ := h
  have hm : match x.client.reader.todo with
    | [] => False
    | b :: _ => Mistakes x.client.reader (view x.listener) b := hm
  cases ht : x.client.reader.todo with
  | nil => rw [ht] at hm; exact hm.elim
  | cons b tail =>
    rw [ht] at hm
    exact (stuck_iff ht).mpr (stuckAt_of_mistakes hm)

def clear : Loss := ⟨false, false⟩

/-- An exchange without loss, unless the reader is stuck: one less is left, and it is not stuck after it. -/
theorem call_clear (hk : E.KeepsPrefix) (hbl : E.PrefixBlind) {commands : List Octets} {a : Call L σ × List (Nat × Effect)}
    (h : Talking E cid st commands a) (hs : ¬Stuck cid a.1) :
    Talking E cid st commands (logged (call E cid) a clear) ∧ ¬Stuck cid (logged (call E cid) a clear).1 ∧
      cost (logged (call E cid) a clear).1.client (logged (call E cid) a clear).1.listener ≤
        cost a.1.client a.1.listener - 1 := by
  refine ⟨talking_call hk hbl h (fun hskip => hs (skips_stuck hskip)), ?_⟩
  obtain ⟨⟨c, s⟩, out⟩ := a
  obtain ⟨rest, done, h⟩ := h
  unfold logged
  simp only
  cases ht : c.reader.todo with
  | nil =>
    rw [call_done E cid ht]
    refine ⟨not_stuck_done ht, ?_⟩
    have hzero : cost c s = 0 := by unfold cost; rw [ht]
    simp only
    omega
  | cons b tail =>
    obtain ⟨rest', hturn⟩ := turn hk hbl h.inv h.bound ht h.stage h.ready
    obtain ⟨hcost, hphase⟩ := hturn.cheaper fun hstuck => hs ((stuck_iff ht).mpr hstuck)
    rw [call_heard E cid ht rfl]
    exact ⟨not_stuck hphase, Nat.le_sub_one_of_lt hcost⟩

theorem cost_le (c : Client) (s : Listener L σ) : cost c s ≤ c.reader.todo.length * (L.bytebufMax + 4) := by
  have hfits := s.txBuffer.fits
  cases ht : c.reader.todo with
  | nil => unfold cost; rw [ht]; exact Nat.zero_le _
  | cons b tail =>
    rw [cost_cons ht, List.length_cons, Nat.succ_mul]
    cases c.reader.phase with
    | block => simp only; omega
    | nak => simp only; omega
    | ack => simp only; split <;> omega

/-- Every block costs at least one exchange. -/
theorem todo_le_cost {c : Client} {s : Listener L σ} {ans : List Octets} {rest : List Block} (h : Stage c s ans rest)
    (hc : cost c s = 0) : c.reader.todo = [] := by
  cases ht : c.reader.todo with
  | nil => rfl
  | cons b tail =>
    rw [cost_cons ht] at hc
    cases h with
    | fresh hne => cases hp : c.reader.phase <;> rw [hp] at hc <;> first | exact absurd hp hne | (simp at hc)
    | chained hne => cases hp : c.reader.phase <;> rw [hp] at hc <;> first | exact absurd hp hne | (simp at hc)
    | answered hne => cases hp : c.reader.phase <;> rw [hp] at hc <;> first | exact absurd hp hne | (simp at hc)
    | behind hp _ _ hn =>
      rw [hp] at hc
      simp only at hc
      rw [if_pos hn] at hc
      omega
    | level hp _ hs hn hl =>
      rw [hp] at hc
      simp only at hc
      rw [if_neg (by rw [hn]; cases c.reader.number <;> simp), hs.left hl] at hc
      have := List.length_pos_iff.mpr hl
      omega

/-- Without loss, from a state in which the reader is not stuck. -/
theorem talking_clear (hk : E.KeepsPrefix) (hbl : E.PrefixBlind) {commands : List Octets} {a : Call L σ × List (Nat × Effect)}
    (h : Talking E cid st commands a) (hs : ¬Stuck cid a.1) {n : Nat}
    (hn : a.1.client.reader.todo.length * (L.bytebufMax + 4) ≤ n) :
    Talking E cid st commands ((List.replicate n clear).foldl (logged (call E cid)) a) ∧
      ((List.replicate n clear).foldl (logged (call E cid)) a).1.client.reader.todo = [] := by
  have hstep : ∀ (a : Call L σ × List (Nat × Effect)) (loss : Loss), Talking E cid st commands a ∧ ¬Stuck cid a.1 →
      loss = clear → (Talking E cid st commands (logged (call E cid) a loss) ∧ ¬Stuck cid (logged (call E cid) a loss).1) ∧
        cost (logged (call E cid) a loss).1.client (logged (call E cid) a loss).1.listener ≤
          cost a.1.client a.1.listener - 1 := by
    intro a loss hi hl
    subst hl
    obtain ⟨h1, h2, h3⟩ := call_clear hk hbl hi.1 hi.2
    exact ⟨⟨h1, h2⟩, h3⟩
  obtain ⟨⟨htalk, _⟩, hcost⟩ := foldl_drains (fun a => Talking E cid st commands a ∧ ¬Stuck cid a.1)
    (fun a => cost a.1.client a.1.listener) (fun loss => loss = clear) hstep (List.replicate n clear) a ⟨h, hs⟩
    fun _ hl => (List.mem_replicate.mp hl).2
  have hle := cost_le a.1.client a.1.listener
  rw [List.length_replicate] at hcost
  refine ⟨htalk, ?_⟩
  obtain ⟨_, _, hgone⟩ := htalk
  exact todo_le_cost hgone.stage (Nat.eq_zero_of_le_zero (Nat.le_trans hcost (by omega)))

/-- The end: everything is done and everything is there. -/
theorem finish (hk : E.KeepsPrefix) (hbl : E.PrefixBlind) {commands : List Octets} {a : Call L σ × List (Nat × Effect)}
    (h : Talking E cid st commands a) (hs : ¬Stuck cid a.1) {n : Nat}
    (hn : a.1.client.reader.todo.length * (L.bytebufMax + 4) ≤ n) :
    let y := (List.replicate n clear).foldl (logged (call E cid)) a
    y.1.client.reader.todo = [] ∧ y.1.client.responses = (outcomes E st commands).map (·.payload) ∧
      engineCalls (y.2.map Prod.snd) = (outcomes E st commands).flatMap (·.calls) := by
  obtain ⟨⟨rest, done, hgone⟩, hdone⟩ := talking_clear hk hbl h hs hn
  obtain ⟨hall, hresp⟩ := hgone.finished hdone
  have hcalls := hgone.calls
  rw [hall] at hresp hcalls
  exact ⟨hdone, hresp, hcalls⟩

/-- A stuck reader: the exchange changes neither side. -/
theorem call_stuck (hk : E.KeepsPrefix) (hbl : E.PrefixBlind) {commands : List Octets} {a : Call L σ × List (Nat × Effect)}
    (h : Talking E cid st commands a) (hs : Stuck cid a.1) (hm : ¬Skips a.1.link clear) :
    (call E cid a.1 clear).1 = a.1 := by
  obtain ⟨⟨c, s⟩, out⟩ := a
  obtain ⟨rest, done, h⟩ := h
  cases ht : c.reader.todo with
  | nil => exact absurd hs (not_stuck_done ht)
  | cons b tail =>
    obtain ⟨rest', hturn⟩ := turn hk hbl h.inv h.bound ht h.stage h.ready
    have hmis : ¬Mistakes c.reader (view s) b := fun hm' => hm (mistakes_skips (x := ⟨c.reader, s⟩) ht hm')
    obtain ⟨hc, hl⟩ := hturn.stuck ((stuck_iff ht).mp hs) hmis
    rw [call_heard E cid ht rfl]
    simp only at hc hl ⊢
    rw [show clear.up = false from rfl, if_neg Bool.false_ne_true, hc, hl]

theorem run_stuck (hk : E.KeepsPrefix) (hbl : E.PrefixBlind) {commands : List Octets} (n : Nat) :
    ∀ a : Call L σ × List (Nat × Effect), Talking E cid st commands a → Stuck cid a.1 → ¬Skips a.1.link clear →
      ((List.replicate n clear).foldl (logged (call E cid)) a).1 = a.1 := by
  induction n with
  | zero => intro a _ _ _; rfl
  | succ n ih =>
    intro a h hs hm
    have hsame : (logged (call E cid) a clear).1 = a.1 := call_stuck hk hbl h hs hm
    rw [List.replicate_succ, List.foldl_cons]
    have hrest := ih (logged (call E cid) a clear) (talking_call hk hbl h hm) (by rw [hsame]; exact hs) (by rw [hsame]; exact hm)
    rw [hrest, hsame]

/-- From any state that a run without a skipped block leads to: when the reader is not stuck,
    as many exchanges without loss as it has blocks left, times `DFC_BYTEBUF_MAX + 4`, bring
    every response, every command done once and in order; when it is stuck, no number of
    exchanges without loss changes the reader or the listener (unless the next one skips a block). -/
theorem finishes_unless_stuck (hk : E.KeepsPrefix) (hbl : E.PrefixBlind) (st : σ) (cid : Option UInt8)
    {cmds : List (List Octets)} (h : Commands L.workerMaxBufferSize cmds)
    (hr : Roomy E (headerLen cid.isSome) st (cmds.map List.flatten)) (losses : List Loss)
    (hgood : Along (logged (call E cid)) (fun a loss => ¬Skips a.1.link loss) (callInit L st cmds, []) losses) :
    let x := run (call E cid) (callInit L st cmds) losses
    let all := outcomes E st (cmds.map List.flatten)
    (¬Stuck cid x.1 → ∀ n, x.1.client.reader.todo.length * (L.bytebufMax + 4) ≤ n →
      let y := run (call E cid) (callInit L st cmds) (losses ++ List.replicate n clear)
      y.1.client.reader.todo = [] ∧ y.1.client.responses = all.map (·.payload) ∧
        engineCalls (y.2.map Prod.snd) = all.flatMap (·.calls)) ∧
    (Stuck cid x.1 → ¬Skips x.1.link clear →
      ∀ n, (run (call E cid) (callInit L st cmds) (losses ++ List.replicate n clear)).1 = x.1) := by
  intro x all
  have htalk := talking_run hk hbl h hr losses hgood
  constructor
  · intro hs n hn y
    have hy : y = (List.replicate n clear).foldl (logged (call E cid)) x := List.foldl_append ..
    rw [hy]
    exact finish hk hbl htalk hs hn
  · intro hs hm n
    rw [run, List.foldl_append]
    exact run_stuck hk hbl n x htalk hs hm

/-- Two commands, a chained one behind another. The answer to the second block of the second
    command is lost; its R(NAK) is answered with the response to the first command. -/
theorem finishes_unless_stuck_select :
    let cmds : List (List Octets) := [[[0x60]], [[0x5A], [0], [0, 0]]]
    let losses : List Loss := [clear, clear, ⟨false, true⟩]
    let x := run (call piccEngine none) (callInit smallLimits false cmds) losses
    let all := outcomes piccEngine false (cmds.map List.flatten)
    (¬Stuck none x.1 → ∀ n, x.1.client.reader.todo.length * (256 + 4) ≤ n →
      let y := run (call piccEngine none) (callInit smallLimits false cmds) (losses ++ List.replicate n clear)
      y.1.client.reader.todo = [] ∧ y.1.client.responses = all.map (·.payload) ∧
        engineCalls (y.2.map Prod.snd) = all.flatMap (·.calls)) ∧
    (Stuck none x.1 → ¬Skips x.1.link clear →
      ∀ n, (run (call piccEngine none) (callInit smallLimits false cmds) (losses ++ List.replicate n clear)).1 = x.1) :=
  finishes_unless_stuck piccEngine_keepsPrefix piccEngine_prefixBlind false none
    (show Commands smallLimits.workerMaxBufferSize [[[0x60]], [[0x5A], [0], [0, 0]]] from ⟨by decide, by decide⟩)
    ⟨show 1 + 1 ≤ 256 by decide, show 1 + 1 ≤ 256 by decide, trivial⟩ [clear, clear, ⟨false, true⟩] (by decide +kernel)

instance (r : Reader) (s : Listener L σ) (cid : Option UInt8) (b : Block) : Decidable (StuckAt r s cid b) :=
  inferInstanceAs (Decidable (_ ∧ _))

instance (cid : Option UInt8) (x : Call L σ) : Decidable (Stuck cid x) := by
  unfold Stuck
  cases x.client.reader.todo <;> infer_instance

/-- In that run the reader is stuck. -/
example : Stuck none (run (call piccEngine none) (callInit smallLimits false [[[0x60]], [[0x5A], [0], [0, 0]]])
    [clear, clear, ⟨false, true⟩]).1 := by decide +kernel

/-! ## One block a command -/

def View.Unchained (v : View) : Prop := v.expected = !v.picc ∧ v.collected = []

structure Plainly (blocks : List Block) (x : Call L σ) : Prop where
  inv : Inv x.listener
  unchained : (view x.listener).Unchained
  todo : x.client.reader.todo <:+ blocks

theorem todo_receive (r : Reader) (b : Block) (a : Option Answer) : (r.receive b a).todo <:+ r.todo := by
  have hm := r.receive_moves b a
  generalize r.receive b a = r' at hm
  cases hm with
  | waits => exact List.suffix_rfl
  | asks => exact List.suffix_rfl
  | acked => exact List.tail_suffix _
  | @takes more =>
    cases more with
    | true => exact List.suffix_rfl
    | false => exact List.tail_suffix _

/-- Only a block of a chain opens one. -/
theorem Reacts.unchained {max : Nat} {v v' : View} {f : Sent} {out : List Effect} {a : Option Answer}
    (h : Reacts max v f v' out a) (hv : v.Unchained) (hf : ∀ n inf, f ≠ .iBlock n true inf) : v'.Unchained := by
  obtain ⟨hturned, hclosed⟩ := hv
  cases h with
  | idle => exact ⟨hturned, hclosed⟩
  | replayR => exact ⟨hturned, hclosed⟩
  | acked => exact ⟨hturned, hclosed⟩
  | next => exact ⟨(Bool.not_not _).symm, hclosed⟩
  | replayI => exact ⟨hturned, hclosed⟩
  | again => exact ⟨hturned, hclosed⟩
  | dropped => exact ⟨hturned, rfl⟩
  | collected => exact absurd rfl (hf _ _)
  | executed => exact ⟨rfl, rfl⟩

theorem plainly_call (hk : E.KeepsPrefix) {blocks : List Block} (hb : ∀ b ∈ blocks, b.more = false) {x : Call L σ}
    (h : Plainly blocks x) (loss : Loss) : Plainly blocks (call E cid x loss).1 := by
  obtain ⟨c, s⟩ := x
  cases ht : c.reader.todo with
  | nil => rw [call_done E cid ht]; exact h
  | cons b tail =>
    have htodo : ∀ frame, (c.receive b frame).reader.todo <:+ blocks := by
      intro frame
      rw [Client.receive_reader]
      exact (todo_receive c.reader b _).trans h.todo
    cases hd : loss.down with
    | true =>
      rw [call_lost E cid ht hd]
      exact ⟨h.inv, h.unchained, htodo none⟩
    | false =>
      rw [call_heard E cid ht hd]
      have hmore : b.more = false := hb b (h.todo.subset (by rw [ht]; exact List.mem_cons_self ..))
      have hreact := callback_reacts hk h.inv cid (c.reader.sends b)
      refine ⟨inv_callback hk s _ h.inv, hreact.unchained h.unchained ?_, htodo _⟩
      intro n inf hsend
      have hm := (sends_eq_iBlock hsend).2.2.1
      rw [hmore] at hm
      cases hm

theorem plainly_not_mistaken {blocks : List Block} {x : Call L σ} (h : Plainly blocks x) (loss : Loss) : ¬Skips x.link loss := by
  rintro ⟨_, hm⟩
  have hm : match x.client.reader.todo with
    | [] => False
    | b :: _ => Mistakes x.client.reader (view x.listener) b := hm
  cases ht : x.client.reader.todo with
  | nil => rw [ht] at hm; exact hm
  | cons b tail =>
    rw [ht] at hm
    obtain ⟨_, he, hp, _⟩ := hm
    have he : x.listener.expectedPcdBlock = x.client.reader.number := he
    have hp : x.listener.piccBlock = x.client.reader.number := hp
    have hturn : x.listener.expectedPcdBlock = !x.listener.piccBlock := h.unchained.1
    rw [he, hp] at hturn
    cases hr : x.client.reader.number <;> rw [hr] at hturn <;> cases hturn

theorem plainly_not_stuck {blocks : List Block} (hb : ∀ b ∈ blocks, b.more = false) {x : Call L σ} (h : Plainly blocks x)
    (hu : unbound x.listener cid = false) : ¬Stuck cid x := by
  intro hs
  cases ht : x.client.reader.todo with
  | nil => exact not_stuck_done ht hs
  | cons b tail =>
    have hmore : b.more = false := hb b (h.todo.subset (by rw [ht]; exact List.mem_cons_self ..))
    rcases ((stuck_iff ht).mp hs).2 with hu' | ⟨hp, he | ⟨hm, _⟩⟩
    · rw [hu] at hu'; cases hu'
    · have hturn : x.listener.expectedPcdBlock = !x.listener.piccBlock := h.unchained.1
      rw [he, hp] at hturn
      cases hr : x.client.reader.number <;> rw [hr] at hturn <;> cases hturn
    · rw [hmore] at hm; cases hm

/-- A listener the CID is bound to stays bound to it. -/
theorem bound_call (hk : E.KeepsPrefix) (hbl : E.PrefixBlind) {commands : List Octets} {a : Call L σ × List (Nat × Effect)}
    (h : Talking E cid st commands a) (loss : Loss)
    (hu : unbound a.1.listener cid = false ∨
      (a.1.client.reader.phase = .block ∧ loss.down = false ∧ a.1.client.reader.todo ≠ [])) :
    unbound (call E cid a.1 loss).1.listener cid = false := by
  obtain ⟨⟨c, s⟩, out⟩ := a
  obtain ⟨rest, done, h⟩ := h
  cases ht : c.reader.todo with
  | nil =>
    rw [call_done E cid ht]
    exact hu.resolve_right fun hn => hn.2.2 ht
  | cons b tail =>
    cases hd : loss.down with
    | true =>
      rw [call_lost E cid ht hd]
      exact hu.resolve_right fun hn => by rw [hd] at hn; cases hn.2.1
    | false =>
      obtain ⟨rest', hturn⟩ := turn hk hbl h.inv h.bound ht h.stage h.ready
      rw [call_heard E cid ht hd]
      show unbound (listen E cid s (c.reader.sends b)).1 cid = false
      cases hb : unbound (listen E cid s (c.reader.sends b)).1 cid with
      | false => rfl
      | true =>
        obtain ⟨hsame, hnak⟩ := hturn.binds hb
        rcases hu with hu | hu
        · rw [hsame] at hb
          exact hb.symm.trans hu
        · have hp : c.reader.phase = .block := hu.1
          rw [hp] at hnak
          cases hnak

theorem toBlocks_single {cmds : List (List Octets)} (h : ∀ cmd ∈ cmds, cmd.length = 1) :
    (cmds.flatMap toBlocks).length = cmds.length ∧ ∀ b ∈ cmds.flatMap toBlocks, b.more = false := by
  induction cmds with
  | nil => exact ⟨rfl, fun b hb => (by cases hb)⟩
  | cons cmd cmds ih =>
    obtain ⟨hlen, hmore⟩ := ih fun c hc => h c (List.mem_cons_of_mem _ hc)
    obtain ⟨inf, rfl⟩ := List.length_eq_one_iff.mp (h cmd (List.mem_cons_self ..))
    refine ⟨by simp [toBlocks, hlen], fun b hb => ?_⟩
    rw [List.flatMap_cons] at hb
    rcases List.mem_append.mp hb with hb | hb
    · obtain rfl := List.mem_singleton.mp hb; rfl
    · exact hmore b hb

theorem bound_run (hk : E.KeepsPrefix) (hbl : E.PrefixBlind) {commands : List Octets} (losses : List Loss) :
    ∀ a : Call L σ × List (Nat × Effect), Talking E cid st commands a → unbound a.1.listener cid = false →
      Along (logged (call E cid)) (fun a loss => ¬Skips a.1.link loss) a losses →
      unbound (losses.foldl (logged (call E cid)) a).1.listener cid = false := by
  intro a h hu hgood
  have hinv := foldl_inv (fun a => Talking E cid st commands a ∧ unbound a.1.listener cid = false)
    (fun a loss hi hs => ⟨talking_call hk hbl hi.1 hs, bound_call hk hbl hi.1 loss (Or.inl hi.2)⟩) losses a ⟨h, hu⟩ hgood
  exact hinv.2

/-- Up to any time, what the engine has done and what the reader has got is the beginning of what they are to do and to get. -/
theorem Talking.so_far {commands : List Octets} {a : Call L σ × List (Nat × Effect)} (h : Talking E cid st commands a) :
    a.1.client.responses <+: (outcomes E st commands).map (·.payload) ∧
      engineCalls (a.2.map Prod.snd) <+: (outcomes E st commands).flatMap (·.calls) := by
  obtain ⟨rest, done, hgone⟩ := h
  have hresp : a.1.client.responses <+: done.map (·.payload) := by
    rw [← hgone.payloads]
    rcases hgone.stage.one_more with hs | ⟨last, hs⟩
    · exact hs ▸ List.prefix_rfl
    · rw [hs]; exact List.prefix_append _ _
  rw [hgone.spends, List.map_append, List.flatMap_append]
  exact ⟨hresp.trans (List.prefix_append _ _), _, congrArg (· ++ _) hgone.calls⟩

/-- From a state without a chain no block is skipped, and no chain is opened. -/
theorem plainly_run (hk : E.KeepsPrefix) {blocks : List Block} (hb : ∀ b ∈ blocks, b.more = false)
    {a : Call L σ × List (Nat × Effect)} (h : Plainly blocks a.1) (losses : List Loss) :
    Along (logged (call E cid)) (fun a loss => ¬Skips a.1.link loss) a losses ∧
      Plainly blocks (losses.foldl (logged (call E cid)) a).1 := by
  have hstep : ∀ (a : Call L σ × List (Nat × Effect)) (loss : Loss), Plainly blocks a.1 →
      Plainly blocks (logged (call E cid) a loss).1 := fun a loss hi => plainly_call hk hb hi loss
  constructor
  · exact along_of_inv (Q := fun _ _ => True) (fun a => Plainly blocks a.1) (fun a loss hi => plainly_not_mistaken hi loss)
      (fun a loss hi _ => hstep a loss hi) losses _ h ((along_iff _ _).mpr fun _ _ _ => trivial)
  · exact foldl_inv (P := fun _ _ => True) (fun a : Call L σ × List (Nat × Effect) => Plainly blocks a.1)
      (fun a loss hi _ => hstep a loss hi) losses _ h ((along_iff _ _).mpr fun _ _ _ => trivial)

/-- A run with single blocks: no block is skipped and no number is left behind. -/
theorem single_run (hk : E.KeepsPrefix) (hbl : E.PrefixBlind) {cmds : List (List Octets)}
    (h : Commands L.workerMaxBufferSize cmds) (hone : ∀ cmd ∈ cmds, cmd.length = 1)
    (hr : Roomy E (headerLen cid.isSome) st (cmds.map List.flatten)) (losses : List Loss) :
    Along (logged (call E cid)) (fun a loss => ¬Skips a.1.link loss) (callInit L st cmds, []) losses ∧
    Talking E cid st (cmds.map List.flatten) (run (call E cid) (callInit L st cmds) losses) ∧
    Plainly (cmds.flatMap toBlocks) (run (call E cid) (callInit L st cmds) losses).1 := by
  have hplain : Plainly (cmds.flatMap toBlocks) (callInit L st cmds) :=
    ⟨inv_init L st, ⟨rfl, rfl⟩, List.suffix_rfl⟩
  obtain ⟨hgood, hend⟩ := plainly_run (a := (callInit L st cmds, [])) hk (toBlocks_single hone).2 hplain losses
  exact ⟨hgood, talking_run hk hbl h hr losses hgood, hend⟩

/-- From any state of such a run, exchanges without loss bring the rest. -/
theorem single_finishes (hk : E.KeepsPrefix) (hbl : E.PrefixBlind) {cmds : List (List Octets)}
    (h : Commands L.workerMaxBufferSize cmds) (hone : ∀ cmd ∈ cmds, cmd.length = 1)
    (hr : Roomy E (headerLen cid.isSome) st (cmds.map List.flatten)) (losses : List Loss)
    (hfirst : cid = none ∨ ∃ loss rest, losses = loss :: rest ∧ loss.down = false) {n : Nat}
    (hn : cmds.length * (L.bytebufMax + 4) ≤ n) :
    let y := run (call E cid) (callInit L st cmds) (losses ++ List.replicate n clear)
    y.1.client.reader.todo = [] ∧ y.1.client.responses = (outcomes E st (cmds.map List.flatten)).map (·.payload) ∧
      engineCalls (y.2.map Prod.snd) = (outcomes E st (cmds.map List.flatten)).flatMap (·.calls) := by
  obtain ⟨hlen, hmore⟩ := toBlocks_single hone
  obtain ⟨hgood, htalk, hplain⟩ := single_run hk hbl h hone hr losses
  have hs : ¬Stuck cid (run (call E cid) (callInit L st cmds) losses).1 := by
    by_cases hnil : (callInit L st cmds).client.reader.todo = []
    · have hsuf := hplain.todo
      rw [show cmds.flatMap toBlocks = [] from hnil] at hsuf
      exact not_stuck_done (List.suffix_nil.mp hsuf)
    · refine plainly_not_stuck hmore hplain ?_
      rcases hfirst with hc | ⟨loss, rest, hl, hd⟩
      · subst hc
        exact bound_run hk hbl losses _ (talking_init h hr) rfl hgood
      · -- the first block binds the CID
        subst hl
        refine bound_run hk hbl rest _ (talking_call hk hbl (talking_init h hr) hgood.1) ?_ hgood.2
        exact bound_call hk hbl (talking_init h hr) loss (Or.inr ⟨rfl, hd, hnil⟩)
  have hle : (run (call E cid) (callInit L st cmds) losses).1.client.reader.todo.length * (L.bytebufMax + 4) ≤ n := by
    refine Nat.le_trans (Nat.mul_le_mul_right _ ?_) hn
    rw [← hlen]
    exact hplain.todo.length_le
  have hrun : run (call E cid) (callInit L st cmds) (losses ++ List.replicate n clear) =
      (List.replicate n clear).foldl (logged (call E cid)) (run (call E cid) (callInit L st cmds) losses) :=
    List.foldl_append ..
  rw [hrun]
  exact finish hk hbl htalk hs hle

/-- For every list of commands that fit one block each, and every loss of frames, the first
    frame apart when there is a CID: what the engine has done and what the reader has got are
    a prefix of what they are to do and to get, and from any time on, as many exchanges without
    loss as there are commands, times `DFC_BYTEBUF_MAX + 4`, bring all of it, each command
    done once. -/
theorem one_block_commands (hk : E.KeepsPrefix) (hbl : E.PrefixBlind) (st : σ) (cid : Option UInt8)
    {cmds : List (List Octets)} (h : Commands L.workerMaxBufferSize cmds) (hone : ∀ cmd ∈ cmds, cmd.length = 1)
    (hr : Roomy E (headerLen cid.isSome) st (cmds.map List.flatten)) (losses : List Loss)
    (hfirst : cid = none ∨ ∃ loss rest, losses = loss :: rest ∧ loss.down = false) :
    let x := run (call E cid) (callInit L st cmds) losses
    let all := outcomes E st (cmds.map List.flatten)
    x.1.client.responses <+: all.map (·.payload) ∧ engineCalls (x.2.map Prod.snd) <+: all.flatMap (·.calls) ∧
    ∀ n, cmds.length * (L.bytebufMax + 4) ≤ n →
      let y := run (call E cid) (callInit L st cmds) (losses ++ List.replicate n clear)
      y.1.client.reader.todo = [] ∧ y.1.client.responses = all.map (·.payload) ∧
        engineCalls (y.2.map Prod.snd) = all.flatMap (·.calls) := by
  intro x all
  obtain ⟨_, htalk, _⟩ := single_run hk hbl h hone hr losses
  obtain ⟨hresp, hcalls⟩ := htalk.so_far
  exact ⟨hresp, hcalls, fun n hn => single_finishes hk hbl h hone hr losses hfirst hn⟩

/-- Two commands with CID 1; the second's response and the first R(NAK) for it are lost. -/
theorem one_block_commands_picc :
    let cmds : List (List Octets) := [[[0x5A, 0, 0, 0]], [[0x60]]]
    let losses : List Loss := [clear, ⟨false, true⟩, ⟨true, false⟩]
    let x := run (call piccEngine (some 1)) (callInit smallLimits false cmds) losses
    let all := outcomes piccEngine false (cmds.map List.flatten)
    x.1.client.responses <+: all.map (·.payload) ∧ engineCalls (x.2.map Prod.snd) <+: all.flatMap (·.calls) ∧
    ∀ n, 2 * (256 + 4) ≤ n →
      let y := run (call piccEngine (some 1)) (callInit smallLimits false cmds) (losses ++ List.replicate n clear)
      y.1.client.reader.todo = [] ∧ y.1.client.responses = all.map (·.payload) ∧
        engineCalls (y.2.map Prod.snd) = all.flatMap (·.calls) :=
  one_block_commands piccEngine_keepsPrefix piccEngine_prefixBlind false (some 1)
    (show Commands smallLimits.workerMaxBufferSize [[[0x5A, 0, 0, 0]], [[0x60]]] from ⟨by decide, by decide⟩)
    (by decide) ⟨show 2 + 1 ≤ 256 by decide, show 2 + 1 ≤ 256 by decide, trivial⟩
    [clear, ⟨false, true⟩, ⟨true, false⟩] (Or.inr ⟨_, _, rfl, rfl⟩)

end DfcFlipper.Link
