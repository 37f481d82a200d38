/-
  DfcFlipper.Link.AtMostOnce — over a lossy link no block is taken twice.

  The listener's only defence against a repeated block is the expected number. The
  invariant: once something was done for the reader's current block, the expected number is
  not the reader's until the reader moves on (`OnceInv.current`). A repetition then finds
  the wrong number, R(NAK) and R(ACK) are never taken for commands, and when the reader moves
  on its index does too. So for every block each mark is set at most once, whatever is lost
  (`at_most_once`).
-/

import DfcFlipper.Link.Reaction

namespace DfcFlipper.Link

open DfcFlipper.Lib.Bytes DfcFlipper.Lib.Run DfcFlipper.IsoDep

variable {L : Limits} {σ : Type} {E : Engine L σ}

/-! ## Marks by block -/

def countAt (i : Nat) (m : Mark) (out : List (Nat × Effect)) : Nat :=
  out.countP fun p => p.1 = i ∧ mark? p.2 = some m

theorem countAt_append (i : Nat) (m : Mark) (a b : List (Nat × Effect)) :
    countAt i m (a ++ b) = countAt i m a + countAt i m b := List.countP_append ..

theorem countAt_map (i j : Nat) (m : Mark) (out : List Effect) :
    countAt i m (out.map fun e => (j, e)) = if j = i then count m out else 0 := by
  rw [countAt, List.countP_map, count]
  by_cases h : j = i
  · rw [if_pos h]
    congr 1
    funext e
    simp [h]
  · rw [if_neg h, List.countP_eq_zero]
    intro e _
    simp [h]

/-- Nothing is marked beyond the reader's index. -/
theorem countAt_eq_zero {out : List (Nat × Effect)} {i : Nat} {m : Mark}
    (h : ∀ p ∈ out, p.1 = i → mark? p.2 = none) : countAt i m out = 0 := by
  rw [countAt, List.countP_eq_zero]
  intro p hp
  simp only [decide_eq_true_eq, not_and]
  intro hi hm
  rw [h p hp hi] at hm
  cases hm

/-! ## The invariant -/

structure OnceInv (blocks : List Block) (x : Ends L σ) (out : List (Nat × Effect)) : Prop where
  inv : Inv x.listener
  todo : x.reader.todo = blocks.drop x.reader.index
  past : ∀ i m, countAt i m out ≤ 1
  future : ∀ p ∈ out, p.1 ≤ x.reader.index
  /-- What was done for the current block moved the expected number past it. -/
  current : x.reader.phase ≠ .ack → (∃ p ∈ out, p.1 = x.reader.index ∧ mark? p.2 ≠ none) →
    x.listener.expectedPcdBlock = !x.reader.number
  own : ∀ i inf, (i, Effect.append inf) ∈ out → ∃ b, blocks[i]? = some b ∧ inf = b.inf

/-- The reader moves on an answer. -/
theorem OnceInv.move {blocks : List Block} {r r' : Reader} {t : Listener L σ} {b : Block} {a : Option Answer}
    {out : List (Nat × Effect)} (h : OnceInv blocks ⟨r, t⟩ out) (hr : r.Moves b a r') : OnceInv blocks ⟨r', t⟩ out := by
  have hadv : OnceInv blocks ⟨r.advance, t⟩ out := by
    refine ⟨h.inv, ?_, h.past, fun p hp => Nat.le_succ_of_le (h.future p hp), ?_, h.own⟩
    · show r.todo.tail = blocks.drop (r.index + 1)
      have htodo : r.todo = blocks.drop r.index := h.todo
      rw [htodo, List.tail_drop]
    · rintro _ ⟨p, hp, hi, _⟩
      have hle : p.1 ≤ r.index := h.future p hp
      have hi' : p.1 = r.index + 1 := hi
      omega
  cases hr with
  | waits hp => exact h
  | asks hp _ => exact ⟨h.inv, h.todo, h.past, h.future, fun _ => h.current hp, h.own⟩
  | acked => exact hadv
  | @takes more =>
    cases more with
    | true => exact ⟨h.inv, h.todo, h.past, h.future, fun hp => absurd rfl hp, h.own⟩
    | false => exact hadv

theorem once_init (st : σ) (cmds : List (List Octets)) :
    OnceInv (cmds.flatMap toBlocks) (linkInit L st cmds) [] :=
  ⟨inv_init L st, rfl, fun _ _ => Nat.zero_le 1, fun _ h => (by cases h), fun _ ⟨_, h, _⟩ => (by cases h),
    fun _ _ h => (by cases h)⟩

/-- A block that marks nothing leaves the expected number, unless it was the reader's R(ACK). -/
theorem Reacts.once {max : Nat} {v v' : View} {f : Sent} {out : List Effect} {a : Option Answer}
    (h : Reacts max v f v' out a) :
    (Silent out ∧ ((∃ n, f = .ack n) ∨ v'.expected = v.expected)) ∨
      (∃ more inf, f = .iBlock v.expected more inf ∧ Once out ∧ v'.expected = !v.expected ∧
        ∀ x, Effect.append x ∈ out → x = inf) := by
  cases h with
  | idle hs _ => exact Or.inl ⟨hs, Or.inr rfl⟩
  | replayR _ hs _ _ => exact Or.inl ⟨hs, Or.inr rfl⟩
  | acked hs _ => exact Or.inl ⟨hs, Or.inr rfl⟩
  | next hs _ _ => exact Or.inl ⟨hs, Or.inl ⟨_, rfl⟩⟩
  | replayI hs _ _ _ => exact Or.inl ⟨hs, Or.inr rfl⟩
  | again hs _ _ => exact Or.inl ⟨hs, Or.inr rfl⟩
  | dropped hs _ _ => exact Or.inl ⟨hs, Or.inr rfl⟩
  | collected hs hn _ =>
    subst hn
    refine Or.inr ⟨_, _, rfl, once_cons (once_silent hs) rfl (count_silent hs _), rfl, fun x hx => ?_⟩
    rcases List.mem_cons.mp hx with hx | hx
    · injection hx
    · have := hs _ hx; cases this
  | executed ho _ happ hn =>
    subst hn
    exact Or.inr ⟨_, _, rfl, ho, rfl, happ⟩

/-- What the reader sends is an R(ACK) only while it asks for more of a response. -/
theorem sends_eq_ack {r : Reader} {b : Block} {n : Bool} (h : r.sends b = .ack n) : r.phase = .ack := by
  unfold Reader.sends at h
  cases hp : r.phase with
  | ack => rfl
  | block => rw [hp] at h; cases h
  | nak => rw [hp] at h; cases h

theorem sends_eq_iBlock {r : Reader} {b : Block} {n more : Bool} {inf : Octets} (h : r.sends b = .iBlock n more inf) :
    r.phase = .block ∧ n = r.number ∧ more = b.more ∧ inf = b.inf := by
  unfold Reader.sends at h
  cases hp : r.phase with
  | block =>
    rw [hp] at h
    injection h with h1 h2 h3
    exact ⟨rfl, h1.symm, h2.symm, h3.symm⟩
  | nak => rw [hp] at h; cases h
  | ack => rw [hp] at h; cases h

/-- The listener takes a block of the reader: nothing is marked, or the block's first marks are. -/
theorem OnceInv.listen {blocks : List Block} {r : Reader} {s t : Listener L σ} {b : Block} {rest : List Block}
    {out : List (Nat × Effect)} {eff : List Effect} (h : OnceInv blocks ⟨r, s⟩ out) (hb : r.todo = b :: rest) (ht : Inv t)
    {a : Option Answer} (hr : Reacts L.workerMaxBufferSize (view s) (r.sends b) (view t) eff a) :
    OnceInv blocks ⟨r, t⟩ (out ++ eff.map fun e => (r.index, e)) := by
  have hfuture : ∀ p ∈ out ++ eff.map (fun e => (r.index, e)), p.1 ≤ r.index := by
    intro p hp
    rcases List.mem_append.mp hp with hp | hp
    · exact h.future p hp
    · obtain ⟨_, _, rfl⟩ := List.mem_map.mp hp
      exact Nat.le_refl _
  rcases hr.once with ⟨hs, hexp⟩ | ⟨more, inf, hf, honce, hexp, happ⟩
  · refine ⟨ht, h.todo, ?_, hfuture, ?_, ?_⟩
    · intro i m
      rw [countAt_append, countAt_map, count_silent hs, ite_self, Nat.add_zero]
      exact h.past i m
    · rintro hp ⟨p, hm, hi, hmark⟩
      have hold : t.expectedPcdBlock = s.expectedPcdBlock := by
        rcases hexp with ⟨n, hn⟩ | hexp
        · exact absurd (sends_eq_ack hn) hp
        · exact hexp
      rcases List.mem_append.mp hm with hm | hm
      · exact hold.trans (h.current hp ⟨p, hm, hi, hmark⟩)
      · obtain ⟨e, he, rfl⟩ := List.mem_map.mp hm
        exact absurd (hs e he) hmark
    · intro i x hx
      rcases List.mem_append.mp hx with hx | hx
      · exact h.own i x hx
      · obtain ⟨e, he, heq⟩ := List.mem_map.mp hx
        injection heq with _ heq
        subst heq
        have := hs _ he
        cases this
  · obtain ⟨hphase, hnum, _, hinf⟩ := sends_eq_iBlock hf
    have hnum : s.expectedPcdBlock = r.number := hnum
    -- the block still bears the expected number, so nothing was done for it yet
    have hfresh : ∀ p ∈ out, p.1 = r.index → mark? p.2 = none := by
      intro p hp hi
      by_cases hm : mark? p.2 = none
      · exact hm
      · have hcur : s.expectedPcdBlock = !r.number := h.current (by rw [hphase]; simp) ⟨p, hp, hi, hm⟩
        rw [hnum] at hcur
        cases hr : r.number <;> rw [hr] at hcur <;> cases hcur
    refine ⟨ht, h.todo, ?_, hfuture, ?_, ?_⟩
    · intro i m
      rw [countAt_append, countAt_map]
      by_cases hi : r.index = i
      · subst hi
        rw [countAt_eq_zero hfresh, if_pos rfl, Nat.zero_add]
        exact honce m
      · rw [if_neg hi]
        exact h.past i m
    · intro _ _
      show (view t).expected = _
      rw [hexp]
      exact congrArg _ hnum
    · intro i x hx
      rcases List.mem_append.mp hx with hx | hx
      · exact h.own i x hx
      · obtain ⟨e, he, heq⟩ := List.mem_map.mp hx
        injection heq with hi heq
        subst hi heq
        refine ⟨b, ?_, (happ x he).trans hinf⟩
        have htodo : r.todo = blocks.drop r.index := h.todo
        rw [hb] at htodo
        have := congrArg List.head? htodo
        simpa [List.head?_drop] using this.symm

theorem once_exchange (hk : E.KeepsPrefix) (cid : Option UInt8) {blocks : List Block} {x : Ends L σ}
    {out : List (Nat × Effect)} (h : OnceInv blocks x out) (loss : Loss) :
    OnceInv blocks (exchange E cid x loss).1 (out ++ (exchange E cid x loss).2) := by
  obtain ⟨r, s⟩ := x
  unfold exchange
  cases hb : r.todo with
  | nil => rw [List.append_nil]; exact h
  | cons b rest =>
    by_cases hd : loss.down = true
    · simp only [if_pos hd, List.append_nil]
      exact h.move (r.receive_moves b none)
    · simp only [if_neg hd]
      have hinv := inv_callback hk s (.receivedData ((r.sends b).encode cid)) h.inv
      exact (h.listen hb hinv (callback_reacts hk h.inv cid (r.sends b))).move (r.receive_moves b _)

/-- For every list of commands, every split, every CID and every loss of frames: for each
    block `i` the reader composes, its INF is appended, an APDU dispatched and each of the
    engine's two functions called at most once, and only its own INF is appended. -/
theorem at_most_once (hk : E.KeepsPrefix) (st : σ) (cid : Option UInt8) (cmds : List (List Octets)) (losses : List Loss)
    (i : Nat) (m : Mark) :
    countAt i m (run (exchange E cid) (linkInit L st cmds) losses).2 ≤ 1 ∧
      ∀ inf, (i, Effect.append inf) ∈ (run (exchange E cid) (linkInit L st cmds) losses).2 →
        ∃ b, (cmds.flatMap toBlocks)[i]? = some b ∧ inf = b.inf := by
  have hrun := run_outputs_inv (fun a : Ends L σ × List (Nat × Effect) => OnceInv (cmds.flatMap toBlocks) a.1 a.2)
    (fun _ loss h => once_exchange hk cid h loss) losses (linkInit L st cmds, []) (once_init st cmds)
  exact ⟨hrun.past i m, hrun.own i⟩

/-- SelectApplication in two blocks: the answers to the first are lost twice, the third
    attempt gets through; the second block is answered at once. -/
theorem at_most_once_select :
    countAt 0 .append (run (exchange piccEngine none) (linkInit smallLimits false [[[0x5A], [0, 0, 0]]])
        [⟨false, true⟩, ⟨false, true⟩, ⟨false, false⟩, ⟨false, false⟩]).2 ≤ 1 ∧
      ∀ inf, (0, Effect.append inf) ∈ (run (exchange piccEngine none) (linkInit smallLimits false [[[0x5A], [0, 0, 0]]])
        [⟨false, true⟩, ⟨false, true⟩, ⟨false, false⟩, ⟨false, false⟩]).2 →
        ∃ b, ([[[0x5A], [0, 0, 0]]].flatMap toBlocks)[0]? = some b ∧ inf = b.inf :=
  at_most_once piccEngine_keepsPrefix false none _ _ 0 .append

end DfcFlipper.Link
