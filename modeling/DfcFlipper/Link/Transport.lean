/-
  DfcFlipper.Link.Transport — sending commands one after the other, over a transport that may
  give up.

  A `Transport` is what one call with a command returns and leaves; it stands for what is below
  the SDK's `iso14443_4a_poller_send_block`, which is not modelled. `Carries` is what is asked
  of it: an answer is the engine's and its command was done once, and behind an error the
  command was done once or not at all.

  - `carried`: commands sent in order are the engine's own outcomes, up to the first error.
  - `client_carries`: a client that follows the protocol over a link that loses frames, and gives up
    whenever it likes, is such a transport to the listener.
-/

import DfcFlipper.Link.Rpc

namespace DfcFlipper.Link

open DfcFlipper.Lib.Bytes DfcFlipper.Lib.Run DfcFlipper.IsoDep

variable {L : Limits} {σ ρ : Type} {E : Engine L σ} {cid : Option UInt8} {st : σ}

/-! ## Transports -/

structure Transport (ρ σ : Type) where
  /-- What a call returns, unless it is an error. -/
  sendBlock : ρ → Octets → Option Octets × ρ
  /-- The engine at the other end. -/
  engine : ρ → σ
  /-- What that engine has done. -/
  calls : ρ → List Effect

/-- Commands that are not empty and fit `iso_dep_command`. -/
def Sendable (L : Limits) (commands : List Octets) : Prop :=
  ∀ cmd ∈ commands, cmd ≠ [] ∧ cmd.length ≤ L.workerMaxBufferSize

namespace Transport

variable (T : Transport ρ σ)

structure Did (s s' : ρ) (done : List (Outcome σ)) : Prop where
  engine : T.engine s' = engineAfter (T.engine s) done
  calls : T.calls s' = T.calls s ++ done.flatMap (·.calls)

/-- In any state between two calls, of a command that can be sent and whose answer has room behind `k` octets. -/
structure Carries (E : Engine L σ) (k : Nat) (Between : ρ → Prop) : Prop where
  answered : ∀ {s cmd answer s'}, Between s → Sendable L [cmd] → IsoDep.Room E k (T.engine s) cmd →
    T.sendBlock s cmd = (some answer, s') →
    answer = (handledOutcome E (T.engine s) [] cmd).payload ∧ T.Did s s' [handledOutcome E (T.engine s) [] cmd] ∧ Between s'
  failed : ∀ {s cmd s'}, Between s → Sendable L [cmd] → IsoDep.Room E k (T.engine s) cmd →
    T.sendBlock s cmd = (none, s') →
    T.Did s s' [] ∨ T.Did s s' [handledOutcome E (T.engine s) [] cmd]

def after (s : ρ) (sent : List Octets) : ρ := sent.foldl (fun s cmd => (T.sendBlock s cmd).2) s

/-- What comes back for the last of these commands. -/
def card (s : ρ) (sent : List Octets) : Option Octets :=
  sent.getLast?.bind fun cmd => (T.sendBlock (T.after s sent.dropLast) cmd).1

variable {T} {s s' s'' : ρ}

theorem card_cons (cmd : Octets) {sent : List Octets} (h : sent ≠ []) :
    T.card s (cmd :: sent) = T.card (T.sendBlock s cmd).2 sent := by
  obtain ⟨front, last, rfl⟩ : ∃ front last, sent = front ++ [last] := ⟨_, _, (List.dropLast_concat_getLast h).symm⟩
  rw [card, card, ← List.cons_append, List.getLast?_concat, List.getLast?_concat, List.dropLast_concat, List.dropLast_concat]
  rfl

theorem Did.none (s : ρ) : T.Did s s [] := ⟨rfl, by simp⟩

theorem Did.append {done done' : List (Outcome σ)} (h : T.Did s s' done) (h' : T.Did s' s'' done') :
    T.Did s s'' (done ++ done') := by
  constructor
  · rw [h'.engine, h.engine, engineAfter_append]
  · rw [h'.calls, h.calls, List.flatMap_append, List.append_assoc]

end Transport

/-! ## Commands in order -/

def engineCard (E : Engine L σ) (st : σ) : List Octets → Option Octets := fun sent =>
  ((outcomes E st sent).map (·.payload)).getLast?

theorem engineCard_cons (E : Engine L σ) (st : σ) (cmd : Octets) {sent : List Octets} (h : sent ≠ []) :
    engineCard E st (cmd :: sent) = engineCard E (handledOutcome E st [] cmd).engine sent := by
  obtain ⟨c, rest, rfl⟩ := List.exists_cons_of_ne_nil h
  rw [engineCard, engineCard, outcomes, List.map_cons, outcomes, List.map_cons, List.getLast?_cons_cons]

/-- As far as `card` is asked `frames`, `card'` answers the first `k` of them like it and the next one not. -/
def Echoes (k : Nat) (frames : List Octets) (card card' : List Octets → Option Octets) : Prop :=
  ∀ before, before <+: frames → before ≠ [] → before.length ≤ k + 1 →
    card' before = if before.length ≤ k then card before else none

theorem Echoes.cons {k : Nat} {frames : List Octets} {cmd : Octets} {card card' card₁ card₁' : List Octets → Option Octets}
    (h : Echoes k frames card₁ card₁') (hcard : ∀ sent, sent ≠ [] → card (cmd :: sent) = card₁ sent)
    (hcard' : ∀ sent, sent ≠ [] → card' (cmd :: sent) = card₁' sent) (hfirst : card' [cmd] = card [cmd]) :
    Echoes (k + 1) (cmd :: frames) card card' := by
  intro before hp hne hlen
  obtain ⟨c, sent, rfl⟩ := List.exists_cons_of_ne_nil hne
  obtain ⟨rfl, hp'⟩ := List.cons_prefix_cons.mp hp
  by_cases hnil : sent = []
  · subst hnil
    rw [if_pos (by simp), hfirst]
  · rw [List.length_cons] at hlen
    rw [hcard sent hnil, hcard' sent hnil, h sent hp' hnil (by omega)]
    simp only [List.length_cons, Nat.add_le_add_iff_right]

/-- Commands sent in order are answered as by the engine alone and are each done once, up to the first error; the command
of that one may have been done too. -/
theorem carried {T : Transport ρ σ} {k : Nat} {Between : ρ → Prop} (hT : T.Carries E k Between) (frames : List Octets) :
    ∀ s, Between s → Sendable L frames → Roomy E k (T.engine s) frames → ∃ n ≤ frames.length,
      Echoes n frames (engineCard E (T.engine s)) (T.card s) ∧
      T.Did s (T.after s (frames.take n)) ((outcomes E (T.engine s) frames).take n) ∧
      (T.Did s (T.after s (frames.take (n + 1))) ((outcomes E (T.engine s) frames).take n) ∨
        T.Did s (T.after s (frames.take (n + 1))) ((outcomes E (T.engine s) frames).take (n + 1))) := by
  induction frames with
  | nil =>
    intro s _ _ _
    refine ⟨0, Nat.le_refl 0, fun before hp hne => ?_, .none s, Or.inl (.none s)⟩
    exact absurd (List.prefix_nil.mp hp) hne
  | cons cmd frames ih =>
    intro s hs hsend hroomy
    have hone : Sendable L [cmd] := fun c hc => hsend c (List.mem_cons.mpr (Or.inl (List.mem_singleton.mp hc)))
    rcases hb : T.sendBlock s cmd with ⟨_ | answer, s'⟩
    · refine ⟨0, Nat.zero_le _, fun before hp hne hlen => ?_, .none s, ?_⟩
      · obtain ⟨c, sent, rfl⟩ := List.exists_cons_of_ne_nil hne
        obtain ⟨rfl, _⟩ := List.cons_prefix_cons.mp hp
        obtain rfl : sent = [] := List.length_eq_zero_iff.mp (by rw [List.length_cons] at hlen; omega)
        rw [if_neg (by simp)]
        show (T.sendBlock s c).1 = none
        rw [hb]
      · have hafter : T.after s ((cmd :: frames).take (0 + 1)) = s' := congrArg Prod.snd hb
        rw [hafter]
        exact hT.failed hs hone hroomy.1 hb
    · obtain ⟨rfl, hdid, hs'⟩ := hT.answered hs hone hroomy.1 hb
      have heng : T.engine s' = (handledOutcome E (T.engine s) [] cmd).engine := hdid.engine
      obtain ⟨n, hn, hecho, hdone, hnext⟩ := ih s' hs' (fun c hc => hsend c (List.mem_cons_of_mem _ hc))
        (by rw [heng]; exact hroomy.2)
      have hafter : ∀ m, T.after s ((cmd :: frames).take (m + 1)) = T.after s' (frames.take m) := by
        intro m
        show T.after (T.sendBlock s cmd).2 (frames.take m) = _
        rw [hb]
      have hout : ∀ m, (outcomes E (T.engine s) (cmd :: frames)).take (m + 1) =
          [handledOutcome E (T.engine s) [] cmd] ++ (outcomes E (T.engine s') frames).take m := by
        intro m
        rw [heng]
        rfl
      refine ⟨n + 1, Nat.succ_le_succ hn, ?_, ?_, ?_⟩
      · refine hecho.cons (fun sent hne => ?_) (fun sent hne => ?_) ?_
        · rw [engineCard_cons E _ cmd hne, heng]
        · rw [Transport.card_cons cmd hne, hb]
        · show (T.sendBlock s cmd).1 = _
          rw [hb]
          rfl
      · rw [hafter, hout]
        exact hdid.append hdone
      · rw [hafter, hout, hout]
        exact hnext.imp hdid.append hdid.append

/-! ## A client that gives up -/

/-- A client of the protocol and the listener, with what will be lost of the exchanges of each call; behind the last of
them the client gives up. -/
structure Radio (L : Limits) (σ : Type) where
  number : Bool
  listener : Listener L σ
  losses : Nat → List Loss
  calls : List Effect

def Radio.call (s : Radio L σ) (cmd : Octets) : Call L σ :=
  ⟨⟨⟨s.number, .block, 0, [⟨false, cmd⟩]⟩, [], []⟩, s.listener⟩

def client (E : Engine L σ) (cid : Option UInt8) : Transport (Radio L σ) σ where
  sendBlock s cmd :=
    let x := run (call E cid) (s.call cmd) (s.losses 0)
    (x.1.client.responses.head?,
      ⟨x.1.client.reader.number, x.1.listener, fun i => s.losses (i + 1), s.calls ++ engineCalls (x.2.map Prod.snd)⟩)
  engine s := s.listener.engine
  calls := Radio.calls

/-- The listener expects the client's next block, and has nothing left to answer. -/
structure Radio.Between (cid : Option UInt8) (s : Radio L σ) : Prop where
  inv : Inv s.listener
  bound : Bound s.listener cid
  unchained : (view s.listener).Unchained
  expected : s.listener.expectedPcdBlock = s.number
  idle : s.listener.responseOffset = 0

theorem between_init (cid : Option UInt8) (st : σ) (losses : Nat → List Loss) :
    (⟨false, listenerInit L st, losses, []⟩ : Radio L σ).Between cid :=
  ⟨inv_init L st, fun _ => ⟨rfl, rfl⟩, ⟨rfl, rfl⟩, rfl, rfl⟩

theorem talking_next {s : Radio L σ} (h : s.Between cid) {cmd : Octets} (hs : Sendable L [cmd])
    (hr : IsoDep.Room E (headerLen cid.isSome) s.listener.engine cmd) :
    Talking E cid s.listener.engine [cmd] (s.call cmd, []) := by
  obtain ⟨hne, hlen⟩ := hs cmd (List.mem_singleton.mpr rfl)
  have hzero : s.listener.commandLen = 0 := (collected_eq_nil h.inv.toSized).mp h.unchained.2
  have hasm : assemble (collected s.listener) [⟨false, cmd⟩] = [cmd] := by
    rw [show collected s.listener = [] from h.unchained.2]
    rfl
  refine ⟨[⟨false, cmd⟩], [], { inv := h.inv, bound := h.bound, stage := .fresh (by simp [Radio.call]) h.expected h.idle rfl rfl,
                                ready := ⟨?_, ?_⟩, spends := ?_, payloads := rfl, calls := rfl, engine := rfl }⟩
  · show Roomy E _ s.listener.engine (assemble (collected s.listener) [⟨false, cmd⟩])
    rw [hasm]
    exact ⟨hr, trivial⟩
  · show Room _ s.listener.commandLen _
    rw [hzero]
    exact ⟨hne, by rw [Nat.zero_add]; exact hlen, trivial⟩
  · rw [ahead]
    show _ = [] ++ outcomes E s.listener.engine (assemble (collected s.listener) [⟨false, cmd⟩])
    rw [hasm, List.nil_append]

/-- Of one command, all or nothing is done. -/
theorem Gone.single {cmd : Octets} {x : Call L σ} {out : List Effect} {rest : List Block} {done : List (Outcome σ)}
    (h : Gone E cid st [cmd] x out rest done) : done = [] ∨ done = [handledOutcome E st [] cmd] := by
  have hspends : [handledOutcome E st [] cmd] = done ++ ahead E x.listener rest := h.spends
  cases done with
  | nil => exact Or.inl rfl
  | cons o done =>
    obtain ⟨rfl, hnil⟩ := List.cons.inj hspends
    exact Or.inr (by rw [(List.append_eq_nil_iff.mp hnil.symm).1])

theorem Gone.done_single {cmd : Octets} {x : Call L σ} {out : List Effect} {rest : List Block} {done : List (Outcome σ)}
    (h : Gone E cid st [cmd] x out rest done) : (heard out).length ≤ 1 := by
  rw [h.payloads, List.length_map]
  rcases h.single with rfl | rfl
  · exact Nat.zero_le 1
  · exact Nat.le_refl 1

/-- With the response to one command, and no chain, both sides are ready for the next. -/
theorem Gone.answered {cmd answer : Octets} {more : List Octets} {x : Call L σ} {out : List Effect} {rest : List Block}
    {done : List (Outcome σ)} (h : Gone E cid st [cmd] x out rest done) (hu : (view x.listener).Unchained)
    (hr : x.client.responses = answer :: more) :
    (done = [handledOutcome E st [] cmd] ∧ answer = (handledOutcome E st [] cmd).payload) ∧
      x.listener.expectedPcdBlock = x.client.reader.number ∧ x.listener.responseOffset = 0 := by
  have hlen := h.done_single
  have hzero := (collected_eq_nil h.inv.toSized).mp hu.2
  cases h.stage with
  | fresh _ he ho _ ha =>
    have hpay := h.payloads
    rw [ha, hr] at hpay
    refine ⟨?_, he, ho⟩
    rcases h.single with rfl | rfl
    · cases hpay
    · exact ⟨rfl, (List.cons.inj hpay).1⟩
  | chained _ _ _ _ hc => exact absurd hzero hc
  | answered _ _ _ _ _ _ ha =>
    rw [ha, hr] at hlen
    simp at hlen
  | behind _ _ _ _ ha =>
    rw [ha, hr] at hlen
    simp at hlen
  | level _ _ _ _ _ ha =>
    rw [ha, hr] at hlen
    simp at hlen

/-- All that a call does is the run of one command. -/
theorem Radio.Between.run {s : Radio L σ} (hs : s.Between cid) (hk : E.KeepsPrefix) (hbl : E.PrefixBlind) {cmd : Octets}
    (hsend : Sendable L [cmd]) (hroom : IsoDep.Room E (headerLen cid.isSome) s.listener.engine cmd) (losses : List Loss) :
    let x := Lib.Run.run (Link.call E cid) (s.call cmd) losses
    Along (logged (Link.call E cid)) (fun a loss => ¬Skips a.1.link loss) (s.call cmd, []) losses ∧
      Plainly [⟨false, cmd⟩] x.1 ∧ Talking E cid s.listener.engine [cmd] x := by
  have hplain : Plainly [⟨false, cmd⟩] (s.call cmd) := ⟨hs.inv, hs.unchained, List.suffix_rfl⟩
  have hboth : Along (logged (Link.call E cid)) (fun a loss => ¬Skips a.1.link loss) (s.call cmd, []) losses ∧
      Plainly [⟨false, cmd⟩] (losses.foldl (logged (Link.call E cid)) (s.call cmd, [])).1 :=
    plainly_run hk (fun b hb => by rw [List.mem_singleton.mp hb]) hplain losses
  obtain ⟨hgood, hend⟩ := hboth
  exact ⟨hgood, hend, foldl_inv (Talking E cid s.listener.engine [cmd]) (fun _ _ h hs => talking_call hk hbl h hs) _ _
    (talking_next hs hsend hroom) hgood⟩

/-- A client over a lossy link, giving up at any time, is a transport to the engine. -/
theorem client_carries (hk : E.KeepsPrefix) (hbl : E.PrefixBlind) (cid : Option UInt8) :
    (client E cid).Carries E (headerLen cid.isSome) (Radio.Between cid) := by
  constructor
  · intro s cmd answer s' hs hsend hroom hb
    obtain ⟨_, hplain, rest, done, hgone⟩ := hs.run hk hbl hsend hroom (s.losses 0)
    obtain ⟨hhead, rfl⟩ := Prod.mk.inj hb
    obtain ⟨more, hresp⟩ := List.head?_eq_some_iff.mp hhead
    obtain ⟨⟨rfl, rfl⟩, hexp, hidle⟩ := hgone.answered hplain.unchained hresp
    exact ⟨rfl, ⟨hgone.engine, congrArg (s.calls ++ ·) hgone.calls⟩, hgone.inv, hgone.bound, hplain.unchained, hexp,
      hidle⟩
  · intro s cmd s' hs hsend hroom hb
    obtain ⟨_, _, rest, done, hgone⟩ := hs.run hk hbl hsend hroom (s.losses 0)
    obtain rfl := (Prod.mk.inj hb).2
    have hdid : (client E cid).Did s ((client E cid).sendBlock s cmd).2 done :=
      ⟨hgone.engine, congrArg (s.calls ++ ·) hgone.calls⟩
    rcases hgone.single with rfl | rfl
    · exact Or.inl hdid
    · exact Or.inr hdid

/-- The exchanges of every call end with enough of them without loss, and the CID is the listener's. -/
structure Radio.Persists (cid : Option UInt8) (s : Radio L σ) : Prop where
  clears : ∀ i, ∃ front n, s.losses i = front ++ List.replicate n clear ∧ L.bytebufMax + 4 ≤ n
  bound : unbound s.listener cid = false

theorem client_answers (hk : E.KeepsPrefix) (hbl : E.PrefixBlind) {s : Radio L σ} {cmd : Octets} (hs : s.Between cid)
    (hp : s.Persists cid) (hsend : Sendable L [cmd])
    (hroom : IsoDep.Room E (headerLen cid.isSome) s.listener.engine cmd) :
    ∃ answer s', (client E cid).sendBlock s cmd = (some answer, s') ∧ s'.Persists cid := by
  obtain ⟨front, n, hl, hn⟩ := hp.clears 0
  obtain ⟨hgood, hplain, htalk⟩ := hs.run hk hbl hsend hroom front
  have hstart := talking_next hs hsend hroom
  have hu := bound_run hk hbl front _ hstart hp.bound hgood
  have hstuck := plainly_not_stuck (fun b hb => by rw [List.mem_singleton.mp hb]) hplain hu
  have htodo : (run (call E cid) (s.call cmd) front).1.client.reader.todo.length ≤ 1 := hplain.todo.length_le
  obtain ⟨⟨rest, done, hgone⟩, hdone⟩ := talking_clear hk hbl htalk hstuck (n := n)
    (Nat.le_trans (Nat.mul_le_mul_right _ htodo) (by omega))
  obtain ⟨rfl, hresp⟩ := hgone.finished hdone
  have hrun : run (call E cid) (s.call cmd) (s.losses 0) =
      (List.replicate n clear).foldl (logged (call E cid)) (run (call E cid) (s.call cmd) front) := by
    rw [hl]
    exact List.foldl_append ..
  refine ⟨(handledOutcome E s.listener.engine [] cmd).payload, ((client E cid).sendBlock s cmd).2, Prod.ext ?_ rfl,
    fun i => hp.clears (i + 1), ?_⟩
  · show (run (call E cid) (s.call cmd) (s.losses 0)).1.client.responses.head? = _
    rw [hrun, hresp]
    rfl
  · exact bound_run hk hbl (s.losses 0) _ hstart hp.bound (hs.run hk hbl hsend hroom (s.losses 0)).1

/-- A client that persists is always answered. -/
theorem client_never_fails (hk : E.KeepsPrefix) (hbl : E.PrefixBlind) (frames : List Octets) :
    ∀ s : Radio L σ, s.Between cid → s.Persists cid → Sendable L frames →
      Roomy E (headerLen cid.isSome) s.listener.engine frames →
      ∀ before, before <+: frames → before ≠ [] → (client E cid).card s before ≠ none := by
  induction frames with
  | nil => exact fun s _ _ _ _ before hp hne => absurd (List.prefix_nil.mp hp) hne
  | cons cmd frames ih =>
    intro s hs hp hsend hroomy before hprefix hne
    have hone : Sendable L [cmd] := fun c hc => hsend c (List.mem_cons.mpr (Or.inl (List.mem_singleton.mp hc)))
    obtain ⟨answer, s', hb, hp'⟩ := client_answers hk hbl hs hp hone hroomy.1
    obtain ⟨_, hdid, hs'⟩ := (client_carries hk hbl cid).answered hs hone hroomy.1 hb
    have heng : s'.listener.engine = (handledOutcome E s.listener.engine [] cmd).engine := hdid.engine
    obtain ⟨c, sent, rfl⟩ := List.exists_cons_of_ne_nil hne
    obtain ⟨rfl, hprefix'⟩ := List.cons_prefix_cons.mp hprefix
    by_cases hnil : sent = []
    · subst hnil
      show ((client E cid).sendBlock s c).1 ≠ none
      rw [hb]
      exact Option.some_ne_none answer
    · rw [Transport.card_cons c hnil, hb]
      exact ih s' hs' hp' (fun c hc => hsend c (List.mem_cons_of_mem _ hc)) (by rw [heng]; exact hroomy.2) sent hprefix' hnil

end DfcFlipper.Link
