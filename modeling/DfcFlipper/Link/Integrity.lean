/-
  DfcFlipper.Link.Integrity — over a lossy link the engine gets the reader's commands.

  `assemble` puts blocks together again, the collected octets first. The invariant
  (`Intact`): what was dispatched, and what the listener will assemble from the blocks it
  has still to take, are the reader's commands. Where those blocks begin follows from the
  expected number (`Position`): with the reader's number they begin with the reader's
  current block, with the other one right after it.

  As built, the branch that collects a chained block leaves the listener's own number and
  the cached frame as they were (the branch that answers updates both). An R(NAK) for a
  block that was lost may then be answered as if it had arrived: with R(ACK) to a chained
  block, or with the cached answer of an earlier command to a last one (`Skips`). The reader
  goes on without the block (`chunk_skipped`). Without such an exchange every run is intact
  (`commands_intact`).
-/

import DfcFlipper.Link.Reaction

namespace DfcFlipper.Link

open DfcFlipper.Lib.Bytes DfcFlipper.Lib.Run DfcFlipper.IsoDep

variable {L : Limits} {σ : Type} {E : Engine L σ}

/-! ## Commands from blocks -/

def assemble (acc : Octets) : List Block → List Octets
  | [] => []
  | b :: rest => if b.more then assemble (acc ++ b.inf) rest else (acc ++ b.inf) :: assemble [] rest

/-- Every INF is non-empty and fits behind what is collected before it. -/
def Room (max : Nat) : Nat → List Block → Prop
  | _, [] => True
  | n, b :: rest => b.inf ≠ [] ∧ n + b.inf.length ≤ max ∧ Room max (if b.more then n + b.inf.length else 0) rest

theorem assemble_toBlocks (rest : List Block) : ∀ (cmd : List Octets) (acc : Octets), cmd ≠ [] →
    assemble acc (toBlocks cmd ++ rest) = (acc ++ cmd.flatten) :: assemble [] rest
  | [], _, h => absurd rfl h
  | [inf], acc, _ => by simp [toBlocks, assemble]
  | inf :: inf' :: cmd, acc, _ => by
    have ih := assemble_toBlocks rest (inf' :: cmd) (acc ++ inf) (by simp)
    simp only [toBlocks, List.cons_append, assemble, if_true, ih]
    simp

theorem room_toBlocks {max : Nat} {rest : List Block} (hr : Room max 0 rest) : ∀ (cmd : List Octets) (n : Nat), cmd ≠ [] →
    (∀ inf ∈ cmd, inf ≠ []) → n + cmd.flatten.length ≤ max → Room max n (toBlocks cmd ++ rest)
  | [], _, h, _, _ => absurd rfl h
  | [inf], n, _, hne, hfit => ⟨hne inf (by simp), by simpa using hfit, hr⟩
  | inf :: inf' :: cmd, n, _, hne, hfit => by
    have hlen : (inf :: inf' :: cmd).flatten.length = inf.length + (inf' :: cmd).flatten.length := by simp
    have hinf : n + inf.length ≤ max := by omega
    refine ⟨hne inf (by simp), hinf, ?_⟩
    exact room_toBlocks hr (inf' :: cmd) (n + inf.length) (by simp) (fun i hi => hne i (List.mem_cons_of_mem _ hi))
      (by omega)

structure Commands (max : Nat) (cmds : List (List Octets)) : Prop where
  split : ∀ cmd ∈ cmds, cmd ≠ [] ∧ ∀ inf ∈ cmd, inf ≠ []
  fits : ∀ cmd ∈ cmds, cmd.flatten.length ≤ max

theorem Commands.tail {max : Nat} {cmd : List Octets} {cmds : List (List Octets)} (h : Commands max (cmd :: cmds)) :
    Commands max cmds :=
  ⟨fun c hc => h.split c (List.mem_cons_of_mem _ hc), fun c hc => h.fits c (List.mem_cons_of_mem _ hc)⟩

/-- Put together again, the blocks of the commands are the commands, and there is room for them. -/
theorem Commands.blocks {max : Nat} {cmds : List (List Octets)} (h : Commands max cmds) :
    assemble [] (cmds.flatMap toBlocks) = cmds.map List.flatten ∧ Room max 0 (cmds.flatMap toBlocks) := by
  induction cmds with
  | nil => exact ⟨rfl, trivial⟩
  | cons cmd cmds ih =>
    obtain ⟨hasm, hroom⟩ := ih h.tail
    obtain ⟨hne, hinf⟩ := h.split cmd (List.mem_cons_self ..)
    have hfit := h.fits cmd (List.mem_cons_self ..)
    rw [List.flatMap_cons, assemble_toBlocks _ _ _ hne, hasm]
    exact ⟨rfl, room_toBlocks hroom cmd 0 hne hinf (by omega)⟩

/-! ## Where the listener stands -/

/-- The blocks the listener has still to take: the reader's own, or those after the
    reader's current block, which it took already. -/
inductive Position (r : Reader) (v : View) : List Block → Prop
  | fresh : r.phase ≠ .ack → v.expected = r.number → Position r v r.todo
  | taken {b : Block} {rest : List Block} : r.phase ≠ .ack → r.todo = b :: rest → v.expected = !r.number →
      (b.more = true → v.collected ≠ []) → (b.more = false → v.valid = true ∧ v.picc = r.number ∧ v.collected = []) →
      Position r v rest
  | asking {b : Block} {rest : List Block} : r.phase = .ack → r.todo = b :: rest → v.valid = true →
      v.expected = !v.picc → v.collected = [] → Position r v rest

/-- The reader asks with R(NAK) for the answer to a block the listener has not taken (its
    number is still expected), and the listener's own number is the reader's: it answers
    R(ACK) when it holds no response, its last response when it holds one, and that is what
    the reader waits for. -/
def Mistakes (r : Reader) (v : View) (b : Block) : Prop :=
  r.phase = .nak ∧ v.expected = r.number ∧ v.picc = r.number ∧ b.more = !v.valid

/-- A last block taken: the reader asks for more of the response, or is done with it. -/
theorem position_response {r : Reader} {v : View} {b : Block} {rest : List Block} (ht : r.todo = b :: rest)
    (hv : v.valid = true) (hp : v.picc = r.number) (he : v.expected = !r.number) (hc : v.collected = []) (more : Bool) :
    Position (r.takeResponse more) v rest := by
  cases more with
  | true => exact .asking rfl ht hv (by rw [hp]; exact he) hc
  | false =>
    have hf : Position r.advance v r.advance.todo := .fresh (by simp [Reader.advance]) he
    have htail : r.advance.todo = rest := by simp [Reader.advance, ht]
    rwa [htail] at hf

/-- Past a chained block: the next block is the first to take. -/
theorem position_advance {r : Reader} {v : View} {b : Block} {rest : List Block} (ht : r.todo = b :: rest)
    (he : v.expected = !r.number) : Position r.advance v rest := by
  have hf : Position r.advance v r.advance.todo := .fresh (by simp [Reader.advance]) he
  have htail : r.advance.todo = rest := by simp [Reader.advance, ht]
  rwa [htail] at hf

/-! ## One block -/

/-- After the listener's step, and after whatever the reader makes of the answer `a`. -/
structure Kept (max : Nat) (r : Reader) (b : Block) (v v' : View) (rest rest' : List Block) (out : List Effect)
    (a : Option Answer) : Prop where
  position : Position r v' rest'
  room : Room max v'.collected.length rest'
  same : dispatched out ++ assemble v'.collected rest' = assemble v.collected rest
  moves : ¬Mistakes r v b → ∀ r', r.Moves b a r' → Position r' v' rest'

/-- The reader waits on, or asks again. -/
theorem Position.stay {r r' : Reader} {v : View} {b : Block} {rest : List Block} {a : Option Answer}
    (h : Position r v rest) (hm : r.Moves b a r') (ha : a = none ∨ a = some .other) : Position r' v rest := by
  cases hm with
  | waits _ => exact h
  | asks hp hp' =>
    cases h with
    | fresh _ he => exact .fresh hp' he
    | taken _ ht he hm hl => exact .taken hp' ht he hm hl
    | asking hack => exact absurd hack hp
  | acked => rcases ha with ha | ha <;> cases ha
  | takes => rcases ha with ha | ha <;> cases ha

/-- The listener is not moved and its answer cannot be taken. -/
theorem kept_idle {max : Nat} {r : Reader} {b : Block} {v : View} {rest : List Block} {out : List Effect}
    {a : Option Answer} (h : Position r v rest) (hroom : Room max v.collected.length rest) (hs : Silent out)
    (ha : a = none ∨ a = some .other) : Kept max r b v v rest rest out a :=
  ⟨h, hroom, by rw [dispatched_silent hs]; rfl, fun _ _ hm => h.stay hm ha⟩

theorem Position.asks {r : Reader} {v : View} {rest : List Block} {p : Phase} (h : Position r v rest) (hp : r.phase ≠ .ack)
    (hp' : p ≠ .ack) : Position { r with phase := p } v rest :=
  h.stay (b := ⟨false, []⟩) (.asks hp hp') (Or.inl rfl)

/-- The reader's I-block meets a listener that expects it. -/
theorem kept_fresh_block {max : Nat} {r : Reader} {b : Block} {v v' : View} {rest : List Block} {out : List Effect}
    {a : Option Answer} (hp : r.phase = .block) (ht : r.todo = b :: rest) (he : v.expected = r.number)
    (hroom : Room max v.collected.length (b :: rest)) (hr : Reacts max v (.iBlock r.number b.more b.inf) v' out a) :
    ∃ rest', Kept max r b v v' (b :: rest) rest' out a := by
  have hne : r.phase ≠ .ack := by rw [hp]; simp
  have hpos : Position r v (b :: rest) := by rw [← ht]; exact .fresh hne he
  obtain ⟨hinf, hfit, hnext⟩ := hroom
  cases hm : b.more <;> rw [hm] at hr
  · cases hr with
    | idle hs ha => exact ⟨_, kept_idle hpos ⟨hinf, hfit, hnext⟩ hs ha⟩
    | replayR hf => rcases hf with hf | hf <;> cases hf
    | replayI _ hn => exact absurd he.symm hn
    | again _ hn => exact absurd he.symm hn
    | dropped _ _ hbig => omega
    | executed ho hd _ hn =>
      have htaken : Position r ⟨!v.expected, v.expected, true, []⟩ rest :=
        .taken hne ht (by rw [← he]) (fun h => by rw [hm] at h; cases h) fun _ => ⟨rfl, he, rfl⟩
      refine ⟨rest, htaken, by simpa [hm] using hnext, ?_, fun _ r' hmv => ?_⟩
      · rw [hd, assemble, hm]; rfl
      · cases hmv with
        | waits hack => exact absurd hack hne
        | asks _ hp' => exact htaken.asks hne hp'
        | takes _ => exact position_response ht rfl he (by rw [← he]) rfl _
  · cases hr with
    | idle hs ha => exact ⟨_, kept_idle hpos ⟨hinf, hfit, hnext⟩ hs ha⟩
    | replayR hf => rcases hf with hf | hf <;> cases hf
    | replayI _ hn => exact absurd he.symm hn
    | again _ hn => exact absurd he.symm hn
    | dropped _ _ hbig => omega
    | collected hs hn _ =>
      have htaken : Position r { v with expected := !v.expected, collected := v.collected ++ b.inf } rest :=
        .taken hne ht (by rw [← he]) (fun _ => by simp [hinf]) fun h => by rw [hm] at h; cases h
      refine ⟨rest, htaken, by simpa [hm] using hnext, ?_, fun _ r' hmv => ?_⟩
      · rw [dispatched_cons_append, dispatched_silent hs, assemble, hm]; rfl
      · cases hmv with
        | waits hack => exact absurd hack hne
        | asks _ hp' => exact htaken.asks hne hp'
        | acked => exact position_advance ht (by rw [← he])

/-- The reader's R(NAK) meets a listener that has not taken the block. -/
theorem kept_fresh_nak {max : Nat} {r : Reader} {b : Block} {v v' : View} {rest : List Block} {out : List Effect}
    {a : Option Answer} (hp : r.phase = .nak) (ht : r.todo = b :: rest) (he : v.expected = r.number)
    (hroom : Room max v.collected.length (b :: rest)) (hr : Reacts max v (.nak r.number) v' out a) :
    ∃ rest', Kept max r b v v' (b :: rest) rest' out a := by
  have hne : r.phase ≠ .ack := by rw [hp]; simp
  have hpos : Position r v (b :: rest) := by rw [← ht]; exact .fresh hne he
  cases hr with
  | idle hs ha => exact ⟨_, kept_idle hpos hroom hs ha⟩
  | replayR hf hs hv hn =>
    have hn : r.number = v.picc := by
      rcases hf with hf | hf
      · injection hf with hf; rw [hf]; exact hn
      · cases hf
    refine ⟨_, hpos, hroom, by rw [dispatched_silent hs]; rfl, fun hmis r' hmv => ?_⟩
    generalize ha : some (Answer.iBlock v.picc _) = a at hmv
    cases hmv with
    | waits hack => exact absurd hack hne
    | asks _ hp' => exact hpos.asks hne hp'
    | acked => cases ha
    | takes hl =>
      rcases hl with hack | hl
      · exact absurd hack hne
      · exact absurd ⟨hp, he, hn.symm, by rw [hl, hv]; rfl⟩ hmis
  | acked hs hno =>
    refine ⟨_, hpos, hroom, by rw [dispatched_silent hs]; rfl, fun hmis r' hmv => ?_⟩
    generalize ha : some (Answer.rAck v.picc) = a at hmv
    cases hmv with
    | waits hack => exact absurd hack hne
    | asks _ hp' => exact hpos.asks hne hp'
    | acked _ hl =>
      injection ha with ha
      injection ha with ha
      have hv : v.valid = false := by
        cases hv : v.valid with
        | false => rfl
        | true => exact absurd ⟨hv, ha.symm⟩ hno
      exact absurd ⟨hp, he, ha, by rw [hl, hv]; rfl⟩ hmis
    | takes => cases ha

/-- The reader's I-block meets a listener that took it already. -/
theorem kept_taken_block {max : Nat} {r : Reader} {b : Block} {v v' : View} {rest : List Block} {out : List Effect}
    {a : Option Answer} (hp : r.phase = .block) (ht : r.todo = b :: rest) (he : v.expected = !r.number)
    (hmore : b.more = true → v.collected ≠ [])
    (hlast : b.more = false → v.valid = true ∧ v.picc = r.number ∧ v.collected = [])
    (hroom : Room max v.collected.length rest) (hr : Reacts max v (.iBlock r.number b.more b.inf) v' out a) :
    ∃ rest', Kept max r b v v' rest rest' out a := by
  have hne : r.phase ≠ .ack := by rw [hp]; simp
  have hpos : Position r v rest := .taken hne ht he hmore hlast
  have hother : r.number ≠ v.expected := by rw [he]; cases r.number <;> simp
  generalize hf : Sent.iBlock r.number b.more b.inf = f at hr
  cases hr with
  | idle hs ha => exact ⟨_, kept_idle hpos hroom hs ha⟩
  | replayR hf' => rcases hf' with rfl | rfl <;> cases hf
  | acked => cases hf
  | next => cases hf
  | dropped _ hn _ => cases hf; exact absurd hn hother
  | collected _ hn _ => injection hf with hf; exact absurd (hf.trans hn) hother
  | executed _ _ _ hn => injection hf with hf; exact absurd (hf.trans hn) hother
  | replayI hs _ _ hc =>
    have hl : b.more = false := by
      cases hm : b.more with
      | false => rfl
      | true => exact absurd hc (hmore hm)
    obtain ⟨hv, hpicc, hnil⟩ := hlast hl
    refine ⟨_, hpos, hroom, by rw [dispatched_silent hs]; rfl, fun _ r' hmv => ?_⟩
    generalize ha : some (Answer.iBlock v.picc _) = a at hmv
    cases hmv with
    | waits hack => exact absurd hack hne
    | asks _ hp' => exact hpos.asks hne hp'
    | acked => cases ha
    | takes _ => exact position_response ht hv hpicc he hnil _
  | again hs _ hc =>
    refine ⟨_, hpos, hroom, by rw [dispatched_silent hs]; rfl, fun _ r' hmv => ?_⟩
    generalize ha : some (Answer.rAck _) = a at hmv
    cases hmv with
    | waits hack => exact absurd hack hne
    | asks _ hp' => exact hpos.asks hne hp'
    | acked => exact position_advance ht he
    | takes => cases ha

/-- The reader's R(NAK) meets a listener that took the block already. -/
theorem kept_taken_nak {max : Nat} {r : Reader} {b : Block} {v v' : View} {rest : List Block} {out : List Effect}
    {a : Option Answer} (hp : r.phase = .nak) (ht : r.todo = b :: rest) (he : v.expected = !r.number)
    (hmore : b.more = true → v.collected ≠ [])
    (hlast : b.more = false → v.valid = true ∧ v.picc = r.number ∧ v.collected = [])
    (hroom : Room max v.collected.length rest) (hr : Reacts max v (.nak r.number) v' out a) :
    ∃ rest', Kept max r b v v' rest rest' out a := by
  have hne : r.phase ≠ .ack := by rw [hp]; simp
  have hpos : Position r v rest := .taken hne ht he hmore hlast
  cases hr with
  | idle hs ha => exact ⟨_, kept_idle hpos hroom hs ha⟩
  | replayR _ hs =>
    refine ⟨_, hpos, hroom, by rw [dispatched_silent hs]; rfl, fun _ r' hmv => ?_⟩
    generalize ha : some (Answer.iBlock v.picc _) = a at hmv
    cases hmv with
    | waits hack => exact absurd hack hne
    | asks _ hp' => exact hpos.asks hne hp'
    | acked => cases ha
    | takes hl =>
      obtain ⟨hv, hpicc, hnil⟩ := hlast (hl.resolve_left hne)
      exact position_response ht hv hpicc he hnil _
  | acked hs _ =>
    refine ⟨_, hpos, hroom, by rw [dispatched_silent hs]; rfl, fun _ r' hmv => ?_⟩
    generalize ha : some (Answer.rAck v.picc) = a at hmv
    cases hmv with
    | waits hack => exact absurd hack hne
    | asks _ hp' => exact hpos.asks hne hp'
    | acked => exact position_advance ht he
    | takes => cases ha

/-- The reader's R(ACK) asks for more of a response. -/
theorem kept_asking {max : Nat} {r : Reader} {b : Block} {v v' : View} {rest : List Block} {out : List Effect}
    {a : Option Answer} (hp : r.phase = .ack) (ht : r.todo = b :: rest) (hv : v.valid = true) (he : v.expected = !v.picc)
    (hc : v.collected = []) (hroom : Room max v.collected.length rest) (hr : Reacts max v (.ack r.number) v' out a) :
    ∃ rest', Kept max r b v v' rest rest' out a := by
  have hpos : Position r v rest := .asking hp ht hv he hc
  cases hr with
  | idle hs ha => exact ⟨_, kept_idle hpos hroom hs ha⟩
  | replayR hf hs _ hn =>
    have hn : r.number = v.picc := by
      rcases hf with hf | hf
      · cases hf
      · injection hf with hf; rw [hf]; exact hn
    refine ⟨_, hpos, hroom, by rw [dispatched_silent hs]; rfl, fun _ r' hmv => ?_⟩
    generalize ha : some (Answer.iBlock v.picc _) = a at hmv
    cases hmv with
    | waits _ => exact hpos
    | asks hne _ => exact absurd hp hne
    | acked => cases ha
    | takes _ => exact position_response ht hv hn.symm (by rw [he, hn]) hc _
  | next hs _ hn =>
    have hpicc : (!v.picc) = r.number := by
      cases hr : r.number <;> cases hv : v.picc <;> simp_all
    have hpos' : Position r { v with picc := !v.picc, expected := v.picc } rest := .asking hp ht hv (by simp) hc
    refine ⟨_, hpos', hroom, by rw [dispatched_silent hs]; rfl, fun _ r' hmv => ?_⟩
    generalize ha : some (Answer.iBlock (!v.picc) _) = a at hmv
    cases hmv with
    | waits _ => exact hpos'
    | asks hne _ => exact absurd hp hne
    | acked => cases ha
    | takes _ =>
      exact position_response (v := { v with picc := !v.picc, expected := v.picc }) ht hv hpicc (by simp [← hpicc]) hc _

/-- Every block of the reader keeps the listener in position. -/
theorem kept_sends {max : Nat} {r : Reader} {b : Block} {v v' : View} {rest tail : List Block} {out : List Effect}
    {a : Option Answer} (h : Position r v rest) (ht : r.todo = b :: tail) (hroom : Room max v.collected.length rest)
    (hr : Reacts max v (r.sends b) v' out a) : ∃ rest', Kept max r b v v' rest rest' out a := by
  cases h with
  | fresh hne he =>
    rw [ht] at hroom ⊢
    cases hp : r.phase with
    | block => exact kept_fresh_block hp ht he hroom (by rw [Reader.sends, hp] at hr; exact hr)
    | nak => exact kept_fresh_nak hp ht he hroom (by rw [Reader.sends, hp] at hr; exact hr)
    | ack => exact absurd hp hne
  | taken hne ht' he hmore hlast =>
    obtain ⟨rfl, rfl⟩ := List.cons.inj (ht'.symm.trans ht)
    cases hp : r.phase with
    | block => exact kept_taken_block hp ht he hmore hlast hroom (by rw [Reader.sends, hp] at hr; exact hr)
    | nak => exact kept_taken_nak hp ht he hmore hlast hroom (by rw [Reader.sends, hp] at hr; exact hr)
    | ack => exact absurd hp hne
  | asking hp ht' hv he hc =>
    obtain ⟨rfl, rfl⟩ := List.cons.inj (ht'.symm.trans ht)
    exact kept_asking hp ht hv he hc hroom (by rw [Reader.sends, hp] at hr; exact hr)

/-! ## Runs -/

/-- An exchange in which neither frame is lost and the reader mistakes the answer. -/
def Skips (x : Ends L σ) (loss : Loss) : Prop :=
  loss = ⟨false, false⟩ ∧ match x.reader.todo with
    | [] => False
    | b :: _ => Mistakes x.reader (view x.listener) b

instance (r : Reader) (v : View) (b : Block) : Decidable (Mistakes r v b) := inferInstanceAs (Decidable (_ ∧ _ ∧ _ ∧ _))

instance (x : Ends L σ) (loss : Loss) : Decidable (Skips x loss) := by
  unfold Skips
  cases x.reader.todo <;> infer_instance

/-- What was dispatched and what is still to be assembled are the commands. -/
structure Intact (commands : List Octets) (x : Ends L σ) (out : List (Nat × Effect)) : Prop where
  inv : Inv x.listener
  kept : ∃ rest, Position x.reader (view x.listener) rest ∧
    Room L.workerMaxBufferSize (view x.listener).collected.length rest ∧
    dispatched (out.map Prod.snd) ++ assemble (view x.listener).collected rest = commands

theorem intact_init (st : σ) {cmds : List (List Octets)} (h : Commands L.workerMaxBufferSize cmds) :
    Intact (cmds.map List.flatten) (linkInit L st cmds) [] := by
  obtain ⟨hasm, hroom⟩ := h.blocks
  refine ⟨inv_init L st, _, .fresh (by simp [linkInit]) rfl, ?_, ?_⟩
  · simpa [view, linkInit, listenerInit] using hroom
  · simpa [view, linkInit, listenerInit, dispatched] using hasm

theorem intact_exchange (hk : E.KeepsPrefix) (cid : Option UInt8) {commands : List Octets} {x : Ends L σ}
    {out : List (Nat × Effect)} (h : Intact commands x out) {loss : Loss} (hs : ¬Skips x loss) :
    Intact commands (exchange E cid x loss).1 (out ++ (exchange E cid x loss).2) := by
  obtain ⟨r, s⟩ := x
  obtain ⟨hinv, rest, hpos, hroom, hsame⟩ := h
  simp only at hinv hpos hroom hsame
  unfold exchange
  cases hb : r.todo with
  | nil =>
    simp only
    rw [List.append_nil]
    exact ⟨hinv, rest, hpos, hroom, hsame⟩
  | cons b tail =>
    by_cases hd : loss.down = true
    · simp only [if_pos hd, List.append_nil]
      exact ⟨hinv, rest, hpos.stay (r.receive_moves b none) (Or.inl rfl), hroom, hsame⟩
    · simp only [if_neg hd]
      obtain ⟨rest', hk'⟩ := kept_sends hpos hb hroom (callback_reacts hk hinv cid (r.sends b))
      refine ⟨inv_callback hk s _ hinv, rest', ?_, hk'.room, ?_⟩
      · by_cases hu : loss.up = true
        · rw [if_pos hu]
          exact hk'.position.stay (r.receive_moves b none) (Or.inl rfl)
        · rw [if_neg hu]
          refine hk'.moves (fun hm => hs ⟨?_, ?_⟩) _ (r.receive_moves b _)
          · obtain ⟨d, u⟩ := loss
            simp only [Bool.not_eq_true] at hd hu
            rw [hd, hu]
          · simp only [hb]; exact hm
      · rw [List.map_append, dispatched_append, List.map_map]
        rw [show Prod.snd ∘ (fun e : Effect => (r.index, e)) = id from rfl, List.map_id, List.append_assoc, hk'.same]
        exact hsame

/-- With nothing left to send, the listener has nothing left to take. -/
theorem Position.done {r : Reader} {v : View} {rest : List Block} (h : Position r v rest) (ht : r.todo = []) : rest = [] := by
  cases h with
  | fresh => exact ht
  | taken _ ht' => rw [ht] at ht'; cases ht'
  | asking _ ht' => rw [ht] at ht'; cases ht'

/-- For every list of commands, every split, every CID and every loss of frames: in a run
    without an exchange that skips a block, the byte strings handed to the engine side are
    the reader's commands, whole and in order, up to the last one handed over; and when
    the reader is done they are all of them. -/
theorem commands_intact (hk : E.KeepsPrefix) (st : σ) (cid : Option UInt8) {cmds : List (List Octets)}
    (h : Commands L.workerMaxBufferSize cmds) (losses : List Loss)
    (hgood : Along (logged (exchange E cid)) (fun a loss => ¬Skips a.1 loss) (linkInit L st cmds, []) losses) :
    let x := run (exchange E cid) (linkInit L st cmds) losses
    dispatched (x.2.map Prod.snd) <+: cmds.map List.flatten ∧
      (x.1.reader.todo = [] → dispatched (x.2.map Prod.snd) = cmds.map List.flatten) := by
  have hrun := foldl_inv (fun a : Ends L σ × List (Nat × Effect) => Intact (cmds.map List.flatten) a.1 a.2)
    (fun a loss h hs => intact_exchange hk cid h hs) losses _ (intact_init st h) hgood
  obtain ⟨rest, hpos, _, hsame⟩ := hrun.kept
  refine ⟨⟨_, hsame⟩, fun hdone => ?_⟩
  rw [hpos.done hdone, assemble, List.append_nil] at hsame
  exact hsame

/-- SelectApplication in two blocks; the first answer is lost, the R(NAK) is answered again. -/
theorem commands_intact_select :
    let x := run (exchange piccEngine none) (linkInit smallLimits false [[[0x5A], [0, 0, 0]]])
      [⟨false, true⟩, ⟨false, false⟩, ⟨false, false⟩, ⟨false, false⟩]
    dispatched (x.2.map Prod.snd) <+: [[[0x5A], [0, 0, 0]]].map List.flatten ∧
      (x.1.reader.todo = [] → dispatched (x.2.map Prod.snd) = [[[0x5A], [0, 0, 0]]].map List.flatten) :=
  commands_intact piccEngine_keepsPrefix false none ⟨by decide, by decide⟩ _ (by decide +kernel)

/-- A first command in four blocks whose second is lost on the way. R(NAK) with number 1 is
    answered R(ACK) with number 1 (the listener's own number at the start), so the reader
    goes on; the third block, with a number not expected, is acknowledged as a repetition;
    the fourth is expected. The engine gets the first and the fourth. -/
theorem chunk_skipped :
    let cmds : List (List Octets) := [[[0x5A], [0xEE], [0xEE], [0, 0, 0]]]
    let losses : List Loss := [⟨false, false⟩, ⟨true, false⟩, ⟨false, false⟩, ⟨false, false⟩, ⟨false, false⟩]
    Commands smallLimits.workerMaxBufferSize cmds ∧
      dispatched ((run (exchange piccEngine none) (linkInit smallLimits false cmds) losses).2.map Prod.snd) =
        [[0x5A, 0, 0, 0]] ∧
      ¬dispatched ((run (exchange piccEngine none) (linkInit smallLimits false cmds) losses).2.map Prod.snd) <+:
        cmds.map List.flatten := by
  refine ⟨⟨by decide, by decide⟩, by decide +kernel, by decide +kernel⟩

end DfcFlipper.Link
