/-
  DfcFlipper.IsoDep.Address — which frames the listener reacts to, and the one address an
  activation is meant to have.

  `ineffective`: a frame that is none of the four well formed blocks, or that is addressed
  otherwise than the activation is bound, does nothing at all.

  The binding is made on every I-block that differs from it while no response was sent and
  no chain is open, not once. Before the first I-block is accepted that is what lets the
  reader choose; but a chain that overflows is closed without a response, and the next
  I-block may bring another CID (`overflow_rebinds`). `one_address_iff`: an activation keeps
  its address exactly when no such I-block comes in after one was accepted, and none can
  come in unless a chain has overflowed before the first response.
-/

import DfcFlipper.IsoDep.Frames
import DfcFlipper.IsoDep.Sent

namespace DfcFlipper.IsoDep

open DfcFlipper.Lib.Bytes DfcFlipper.Lib.Run

variable {L : Limits} {σ : Type} {E : Engine L σ}

/-! ## Frames without effect -/

inductive Pps : Octets → Prop
  | short {pcb : UInt8} : pcb &&& 0xF0 = 0xD0 → Pps [pcb, 0x01]
  | long {pcb : UInt8} : pcb &&& 0xF0 = 0xD0 → Pps [pcb, 0x11, 0x00]

structure Deselect (rx : Octets) (pcb : UInt8) (useCid : Bool) (cid : UInt8) : Prop
    extends Header rx pcb useCid cid where
  kind : pcb &&& ~~~cidMask = 0xC2
  bare : rx.length = headerLen useCid

inductive WellFormed (rx : Octets) : Prop
  | iBlock {pcb : UInt8} {u : Bool} {c : UInt8} : IBlock rx pcb u c → WellFormed rx
  | rBlock {pcb : UInt8} {u : Bool} {c : UInt8} : RBlock rx pcb u c → WellFormed rx
  | deselect {pcb : UInt8} {u : Bool} {c : UInt8} : Deselect rx pcb u c → WellFormed rx
  | pps : Pps rx → WellFormed rx

/-- The CID, or its absence, is not that of the activation. An I-block may still choose it
    before the first response, while no chain is open. -/
inductive Misaddressed (s : Listener L σ) (rx : Octets) : Prop
  | rBlock {pcb : UInt8} {u : Bool} {c : UInt8} : RBlock rx pcb u c → cidMismatch s u c = true → Misaddressed s rx
  | deselect {pcb : UInt8} {u : Bool} {c : UInt8} : Deselect rx pcb u c → cidMismatch s u c = true → Misaddressed s rx
  | iBlock {pcb : UInt8} {u : Bool} {c : UInt8} : IBlock rx pcb u c → cidMismatch s u c = true →
      s.lastResponseValid = true ∨ s.commandLen ≠ 0 → Misaddressed s rx

theorem receivedPps_none {rx : Octets} {pcb : UInt8} (hh : rx.head? = some pcb) (hp : pcb &&& 0xF0 = 0xD0)
    (hn : ¬Pps rx) : receivedPps (L := L) rx pcb = [] := by
  unfold receivedPps
  refine if_neg fun h => hn ?_
  cases rx with
  | nil => cases hh
  | cons a rest =>
    obtain rfl : a = pcb := by simpa using hh
    rcases h with ⟨hl, h1⟩ | ⟨hl, h1, h2⟩
    · obtain ⟨b, rfl⟩ : ∃ b, rest = [b] := List.length_eq_one_iff.mp (by simpa using hl)
      simp at h1; subst h1
      exact .short hp
    · cases rest with
      | nil => simp at hl
      | cons b rest =>
        obtain ⟨c, rfl⟩ : ∃ c, rest = [c] := List.length_eq_one_iff.mp (by simpa using hl)
        simp at h1 h2; subst h1 h2
        exact .long hp

/-- A frame that is not well formed is dropped. -/
theorem receivedData_malformed (s : Listener L σ) {rx : Octets} (h : ¬WellFormed rx) : receivedData E s rx = (s, []) := by
  cases rx with
  | nil => rfl
  | cons pcb rest =>
    by_cases hlong : headerLen (pcb &&& cidMask != 0) ≤ (pcb :: rest).length
    · have hd : Header (pcb :: rest) pcb (pcb &&& cidMask != 0)
          (if (pcb &&& cidMask != 0) = true then (pcb :: rest).getD 1 0 else 0) := ⟨rfl, rfl, hlong, rfl⟩
      rw [receivedData_header hd]
      split
      · rename_i hp
        rw [receivedPps_none rfl hp fun hpps => h (.pps hpps)]
      split
      · rw [receivedRBlock, if_pos]
        by_cases hk : pcb &&& 0xE6 = 0xA2
        · exact Or.inr fun hl => h (.rBlock { hd with kind := hk, bare := hl })
        · exact Or.inl hk
      split
      · rw [receivedSBlock, if_neg]
        intro hs
        exact h (.deselect { hd with kind := hs.1, bare := hs.2.1 })
      · rw [receivedIBlock, if_pos]
        by_cases hk : pcb &&& 0xE2 = 0x02
        · exact Or.inr fun hn => h (.iBlock { hd with kind := hk, noNad := hn })
        · exact Or.inl hk
    · simp only [receivedData]
      rw [if_pos (by omega)]

/-- A frame for another address is dropped. -/
theorem receivedData_misaddressed {s : Listener L σ} {rx : Octets} (h : Misaddressed s rx) :
    receivedData E s rx = (s, []) := by
  cases h with
  | @rBlock pcb u _ hb hm =>
    have hk : ¬(pcb &&& 0xE6 ≠ 0xA2 ∨ rx.length ≠ headerLen u) := by simp [hb.kind, hb.bare]
    rw [receivedData_rBlock hb, receivedRBlock, if_neg hk, if_pos hm]
  | deselect hb hm =>
    obtain ⟨hpps, hr, hs⟩ := deselect_kind _ hb.kind
    rw [receivedData_header hb.toHeader, if_neg hpps, if_neg hr, if_pos hs, receivedSBlock, if_neg]
    intro hs
    exact hs.2.2 hm
  | iBlock hb hm ho =>
    rw [receivedData_iBlock hb, receivedIBlock]
    split
    · rfl
    · rw [if_pos ⟨hm, ho⟩]

/-- A PPS is answered or dropped; it changes nothing. -/
theorem receivedData_pps (s : Listener L σ) {rx : Octets} (h : Pps rx) : (receivedData E s rx).1 = s := by
  have key : ∀ (pcb : UInt8) (rest : Octets), rest ≠ [] → pcb &&& 0xF0 = 0xD0 →
      (receivedData E s (pcb :: rest)).1 = s := by
    intro pcb rest hne hp
    have hpos := List.length_pos_iff.mpr hne
    have hl : headerLen (pcb &&& cidMask != 0) ≤ (pcb :: rest).length := by
      unfold headerLen; simp only [List.length_cons]; split <;> omega
    rw [receivedData_header ⟨rfl, rfl, hl, rfl⟩, if_pos hp]
  cases h with
  | short hp => exact key _ _ (by simp) hp
  | long hp => exact key _ _ (by simp) hp

/-- Only well formed blocks with the right address have any effect, and a PPS changes no field. -/
theorem ineffective (E : Engine L σ) (s : Listener L σ) (rx : Octets) :
    (¬WellFormed rx ∨ Misaddressed s rx → workerListenerCallback E s (.receivedData rx) = (s, [])) ∧
    (Pps rx → (workerListenerCallback E s (.receivedData rx)).1 = s) := by
  refine ⟨fun h => ?_, receivedData_pps s⟩
  rcases h with h | h
  · exact receivedData_malformed s h
  · exact receivedData_misaddressed h

/-! ## The address of an activation -/

def address (rx : Octets) : Option UInt8 := if rx.headD 0 &&& cidMask = 0 then none else some (rx.getD 1 0)

def binding (s : Listener L σ) : Option UInt8 := if s.cidValid then some s.cid else none

def Event.address : Event → Option UInt8
  | .receivedData rx => IsoDep.address rx
  | _ => none

/-- An INF is taken: appended to the command, or a whole APDU. -/
def Effect.takes : Effect → Bool
  | .append _ => true
  | .dispatch _ => true
  | _ => false

def takes (out : List Effect) : Bool := out.any Effect.takes

/-- The address of the I-blocks accepted in this activation, the last one of them. -/
def acceptedAfter (m : Option (Option UInt8)) (ev : Event) (out : List Effect) : Option (Option UInt8) :=
  if resets out then none else if takes out then some ev.address else m

def tracked (E : Engine L σ) (a : Listener L σ × Option (Option UInt8)) (ev : Event) : Listener L σ × Option (Option UInt8) :=
  let r := workerListenerCallback E a.1 ev
  (r.1, acceptedAfter a.2 ev r.2)

/-- Once a block was accepted, the binding stands until the reset, and no block with another address is accepted. -/
def KeepsAddress (E : Engine L σ) (a : Listener L σ × Option (Option UInt8)) (ev : Event) : Prop :=
  ∀ b ∈ a.2, resets (workerListenerCallback E a.1 ev).2 = false →
    (workerListenerCallback E a.1 ev).1.cidValid = a.1.cidValid ∧ (workerListenerCallback E a.1 ev).1.cid = a.1.cid ∧
      (takes (workerListenerCallback E a.1 ev).2 = true → ev.address = b)

/-- The I-block has another address than the activation, in which no response was sent and no chain is open. -/
inductive Rebinds (s : Listener L σ) : Event → Prop
  | block {rx : Octets} {pcb : UInt8} {u : Bool} {c : UInt8} : IBlock rx pcb u c → cidMismatch s u c = true →
      s.lastResponseValid = false → s.commandLen = 0 → Rebinds s (.receivedData rx)

def NoRebind (a : Listener L σ × Option (Option UInt8)) (ev : Event) : Prop := a.2 ≠ none → ¬Rebinds a.1 ev

/-- A chain overflows only after a response was sent. -/
def OverflowAnswered (a : Listener L σ × Option (Option UInt8)) : Event → Prop
  | .receivedData rx => Overflows a.1 rx → a.1.lastResponseValid = true
  | _ => True

/-! ### The CID fields -/

theorem sendNextIResponse_cid (s : Listener L σ) :
    (sendNextIResponse s).1.cidValid = s.cidValid ∧ (sendNextIResponse s).1.cid = s.cid := by
  unfold sendNextIResponse; simp only; split <;> exact ⟨rfl, rfl⟩

theorem dispatch_cid (s : Listener L σ) (header apdu : Octets) :
    (dispatch E s header apdu).1.cidValid = s.cidValid ∧ (dispatch E s header apdu).1.cid = s.cid := by
  simp only [dispatch, sendIResponse]
  split
  · exact ⟨rfl, rfl⟩
  · exact sendNextIResponse_cid _

theorem acceptIBlock_cid (s : Listener L σ) (rx : Octets) (pcb : UInt8) (u : Bool) (c : UInt8) :
    (acceptIBlock E s rx pcb u c).1.cidValid = s.cidValid ∧ (acceptIBlock E s rx pcb u c).1.cid = s.cid := by
  simp only [acceptIBlock]
  by_cases hmany : pcb &&& 0x10 ≠ 0 ∨ s.commandLen ≠ 0
  · rw [if_pos hmany]
    by_cases hbig : L.workerMaxBufferSize - s.commandLen < (rx.drop (headerLen u)).length
    · rw [if_pos hbig]; exact ⟨rfl, rfl⟩
    · rw [if_neg hbig]
      by_cases hm : pcb &&& 0x10 ≠ 0
      · rw [if_pos hm]; exact ⟨rfl, rfl⟩
      · rw [if_neg hm]; exact dispatch_cid _ _ _
  · rw [if_neg hmany]; exact dispatch_cid _ _ _

theorem addressedIBlock_cid (s : Listener L σ) (rx : Octets) (pcb : UInt8) (u : Bool) (c : UInt8) :
    (addressedIBlock E s rx pcb u c).1.cidValid = s.cidValid ∧ (addressedIBlock E s rx pcb u c).1.cid = s.cid := by
  unfold addressedIBlock
  split
  · split <;> exact ⟨rfl, rfl⟩
  split
  · exact ⟨rfl, rfl⟩
  split
  · exact ⟨rfl, rfl⟩
  · exact acceptIBlock_cid _ _ _ _ _

/-- An I-block that is not dropped for its address leaves the activation bound to that. -/
theorem receivedData_bound {s : Listener L σ} {rx : Octets} {pcb : UInt8} {u : Bool} {c : UInt8} (h : IBlock rx pcb u c)
    (ha : cidMismatch s u c = true → s.lastResponseValid = false ∧ s.commandLen = 0) :
    (receivedData E s rx).1.cidValid = (bindCid s u c).cidValid ∧ (receivedData E s rx).1.cid = (bindCid s u c).cid := by
  have hk : ¬(pcb &&& 0xE2 ≠ 0x02 ∨ pcb &&& nadMask ≠ 0) := by
    have hkind : pcb &&& 0xE2 = 0x02 := h.kind
    simp [hkind, h.noNad]
  rw [receivedData_iBlock h, receivedIBlock, if_neg hk, if_neg]
  · exact addressedIBlock_cid _ _ _ _ _
  · intro hm
    obtain ⟨hv, hc⟩ := ha hm.1
    simp [hv, hc] at hm

theorem bindCid_changes {s : Listener L σ} {u : Bool} {c : UInt8} (h : cidMismatch s u c = true) :
    ¬((bindCid s u c).cidValid = s.cidValid ∧ (bindCid s u c).cid = s.cid) := by
  intro he
  rw [bindCid, if_pos h] at he
  simp only [cidMismatch, ← he.1, ← he.2] at h
  simp at h

/-- The address of a frame is the one its header was read from. -/
theorem address_header {rx : Octets} {pcb : UInt8} {u : Bool} {c : UInt8} (h : Header rx pcb u c) :
    address rx = if u then some c else none := by
  have hh : rx.headD 0 = pcb := by
    have := h.head
    cases rx with
    | nil => cases this
    | cons a r => simpa using this
  rw [address, hh, h.useCid_eq, h.cid_eq, h.useCid_eq]
  by_cases hp : pcb &&& cidMask = 0 <;> simp [hp]

theorem binding_of_match {s : Listener L σ} {u : Bool} {c : UInt8} (h : cidMismatch s u c = false) :
    binding s = if u then some c else none := by
  simp only [cidMismatch, Bool.or_eq_false_iff, bne_eq_false_iff_eq, Bool.and_eq_false_imp] at h
  rw [binding, h.1]
  split
  · rename_i hu; rw [h.2 hu]
  · rfl

/-! ### One event -/

theorem takes_append (a b : List Effect) : takes (a ++ b) = (takes a || takes b) := List.any_append

theorem takes_sendFrame (frame : Octets) : takes (sendFrame L frame) = false := by
  unfold sendFrame; split <;> rfl

theorem takes_sendControl (pcb : UInt8) (u : Bool) (c : UInt8) : takes (sendControl L pcb u c) = false :=
  takes_sendFrame _

theorem takes_sendNextIResponse (s : Listener L σ) : takes (sendNextIResponse s).2 = false := by
  unfold sendNextIResponse
  simp only
  split
  · rfl
  · exact takes_sendFrame _

/-- A frame that takes an INF is an expected I-block. -/
theorem rx_takes {s s' : Listener L σ} {rx : Octets} {out : List Effect} (h : Rx E s rx s' out) (ht : takes out = true) :
    ∃ pcb u c, Expected s rx pcb u c := by
  cases h with
  | ignored => cases ht
  | pps => rw [takes_sendControl] at ht; cases ht
  | replayR => rw [takes_sendFrame] at ht; cases ht
  | nextBlock => rw [takes_sendNextIResponse] at ht; cases ht
  | ackR => rw [takes_sendControl] at ht; cases ht
  | deselect => rw [takes_append, takes_sendFrame] at ht; cases ht
  | replayI => rw [takes_sendFrame] at ht; cases ht
  | ackI => rw [takes_sendControl] at ht; cases ht
  | nakI => rw [takes_sendControl] at ht; cases ht
  | refused => rw [takes_sendControl] at ht; cases ht
  | overflow => rw [takes_sendControl] at ht; cases ht
  | chained he => exact ⟨_, _, _, he⟩
  | lastBlock he => exact ⟨_, _, _, he⟩
  | single he => exact ⟨_, _, _, he⟩

/-- Apart from I-blocks, only the end of an activation touches the CID. -/
theorem rx_cid {s s' : Listener L σ} {rx : Octets} {out : List Effect} (h : Rx E s rx s' out) (hr : resets out = false)
    (hn : ∀ pcb u c, ¬IBlock rx pcb u c) : s'.cidValid = s.cidValid ∧ s'.cid = s.cid := by
  cases h with
  | ignored => exact ⟨rfl, rfl⟩
  | pps => exact ⟨rfl, rfl⟩
  | replayR => exact ⟨rfl, rfl⟩
  | nextBlock => exact sendNextIResponse_cid _
  | ackR => exact ⟨rfl, rfl⟩
  | deselect => simp [resets, Effect.resets] at hr
  | replayI hb => exact absurd hb (hn _ _ _)
  | ackI hb => exact absurd hb (hn _ _ _)
  | nakI hb => exact absurd hb (hn _ _ _)
  | refused he => exact absurd he.toIBlock (hn _ _ _)
  | overflow he => exact absurd he.toIBlock (hn _ _ _)
  | chained he => exact absurd he.toIBlock (hn _ _ _)
  | lastBlock he => exact absurd he.toIBlock (hn _ _ _)
  | single he => exact absurd he.toIBlock (hn _ _ _)

theorem iBlock_not_deselect : ∀ pcb : UInt8, isIPcb pcb → ¬pcb &&& ~~~cidMask = 0xC2 :=
  forall_octet (by decide +kernel)

/-- Only S(DESELECT) ends an activation by a frame. -/
theorem rx_resets {s s' : Listener L σ} {rx : Octets} {out : List Effect} (h : Rx E s rx s' out) (hr : resets out = true) :
    ∃ pcb u c, Deselect rx pcb u c := by
  cases h with
  | ignored => cases hr
  | pps => rw [resets_sendControl] at hr; cases hr
  | replayR => rw [resets_sendFrame] at hr; cases hr
  | nextBlock => rw [resets_sendNextIResponse] at hr; cases hr
  | ackR => rw [resets_sendControl] at hr; cases hr
  | deselect hd hk hl => exact ⟨_, _, _, { hd with kind := hk, bare := hl }⟩
  | replayI => rw [resets_sendFrame] at hr; cases hr
  | ackI => rw [resets_sendControl] at hr; cases hr
  | nakI => rw [resets_sendControl] at hr; cases hr
  | refused => rw [resets_sendControl] at hr; cases hr
  | overflow => rw [resets_sendControl] at hr; cases hr
  | chained => rw [resets_cons rfl, resets_sendControl] at hr; cases hr
  | lastBlock _ _ _ _ _ _ hd => rw [resets_cons rfl, resets_dispatch hd] at hr; cases hr
  | single _ _ _ _ _ hd => rw [resets_dispatch hd] at hr; cases hr

theorem iBlock_not_resets {s s' : Listener L σ} {rx : Octets} {out : List Effect} {pcb : UInt8} {u : Bool} {c : UInt8}
    (h : Rx E s rx s' out) (hb : IBlock rx pcb u c) : resets out = false := by
  rw [Bool.eq_false_iff]
  intro hr
  obtain ⟨pcb', u', c', hd⟩ := rx_resets h hr
  obtain ⟨rfl, _, _⟩ := hd.toHeader.unique hb.toHeader
  exact iBlock_not_deselect _ hb.kind hd.kind

/-! ### Every run -/

def Bound (a : Listener L σ × Option (Option UInt8)) : Prop := ∀ b, a.2 = some b → binding a.1 = b

theorem resets_activationLost (s : Listener L σ) : resets (activationLost E s).2 = true := rfl

/-- An I-block that does not bind the activation anew leaves the binding, and is for it if it is taken. -/
theorem keeps_of_noRebind {s : Listener L σ} {rx : Octets} (hn : ¬Rebinds s (.receivedData rx))
    (hr : resets (receivedData E s rx).2 = false) :
    ((receivedData E s rx).1.cidValid = s.cidValid ∧ (receivedData E s rx).1.cid = s.cid) ∧
      (takes (receivedData E s rx).2 = true → address rx = binding s) := by
  have hrx := receivedData_rx (E := E) s rx
  -- the frame has the address of the activation, unless it is dropped
  have hsame : ∀ {pcb u c}, IBlock rx pcb u c →
      (cidMismatch s u c = true → s.lastResponseValid = false ∧ s.commandLen = 0) → cidMismatch s u c = false := by
    intro pcb u c hb ha
    rw [Bool.eq_false_iff]
    intro hm
    exact hn (.block hb hm (ha hm).1 (ha hm).2)
  refine ⟨?_, fun ht => ?_⟩
  · by_cases hb : ∃ pcb u c, IBlock rx pcb u c
    · obtain ⟨pcb, u, c, hb⟩ := hb
      by_cases ha : cidMismatch s u c = true → s.lastResponseValid = false ∧ s.commandLen = 0
      · have hbound := receivedData_bound (E := E) hb ha
        rwa [bindCid_eq (hsame hb ha)] at hbound
      · rw [Classical.not_imp, Classical.not_and_iff_not_or_not] at ha
        have hmis : Misaddressed s rx := .iBlock hb ha.1 (by simpa using ha.2)
        rw [receivedData_misaddressed hmis]
        exact ⟨rfl, rfl⟩
    · exact rx_cid hrx hr fun pcb u c h => hb ⟨pcb, u, c, h⟩
  · obtain ⟨pcb, u, c, he⟩ := rx_takes hrx ht
    rw [address_header he.toHeader, binding_of_match (hsame he.toIBlock he.addressed)]

/-- An I-block that binds the activation anew changes its CID fields. -/
theorem Rebinds.changes {s : Listener L σ} {rx : Octets} (h : Rebinds s (.receivedData rx)) :
    resets (receivedData E s rx).2 = false ∧
      ¬((receivedData E s rx).1.cidValid = s.cidValid ∧ (receivedData E s rx).1.cid = s.cid) := by
  cases h with
  | block hb hm hv hc =>
    obtain ⟨h1, h2⟩ := receivedData_bound (E := E) hb fun _ => ⟨hv, hc⟩
    refine ⟨iBlock_not_resets (receivedData_rx s rx) hb, ?_⟩
    rw [h1, h2]
    exact bindCid_changes hm

theorem keepsAddress_iff (a : Listener L σ × Option (Option UInt8)) (ev : Event) (h : Bound a) :
    NoRebind a ev ↔ KeepsAddress E a ev := by
  have hlost : ∀ {ev}, resets (workerListenerCallback E a.1 ev).2 = true → KeepsAddress E a ev := by
    intro ev hl b _ hr
    rw [hl] at hr; cases hr
  have hno : ∀ {ev}, (∀ rx, ev ≠ .receivedData rx) → NoRebind a ev := by
    intro ev hev _ hreb
    cases hreb
    exact hev _ rfl
  cases ev with
  | receivedData rx =>
    constructor
    · intro hn b hb hr
      have hb' : a.2 = some b := hb
      obtain ⟨⟨h1, h2⟩, ht⟩ := keeps_of_noRebind (E := E) (hn (by rw [hb']; simp)) hr
      exact ⟨h1, h2, fun htk => (ht htk).trans (h b hb')⟩
    · intro hk hm hreb
      obtain ⟨b, hb⟩ := Option.ne_none_iff_exists'.mp hm
      obtain ⟨hr, hch⟩ := hreb.changes (E := E)
      obtain ⟨h1, h2, _⟩ := hk b hb hr
      exact hch ⟨h1, h2⟩
  | halted => exact ⟨fun _ => hlost (resets_activationLost a.1), fun _ => hno (by simp)⟩
  | fieldOff => exact ⟨fun _ => hlost (resets_activationLost a.1), fun _ => hno (by simp)⟩

theorem binding_congr {s t : Listener L σ} (h1 : t.cidValid = s.cidValid) (h2 : t.cid = s.cid) : binding t = binding s := by
  rw [binding, h1, h2, binding]

theorem tracked_receivedData (a : Listener L σ × Option (Option UInt8)) (rx : Octets) :
    tracked E a (.receivedData rx) =
      ((receivedData E a.1 rx).1, acceptedAfter a.2 (.receivedData rx) (receivedData E a.1 rx).2) := rfl

theorem tracked_bound (a : Listener L σ × Option (Option UInt8)) (ev : Event) (h : Bound a) (hn : NoRebind a ev) :
    Bound (tracked E a ev) := by
  have hlost : ∀ {ev}, resets (workerListenerCallback E a.1 ev).2 = true → Bound (tracked E a ev) := by
    intro ev hl b hb
    simp only [tracked, acceptedAfter, hl, if_true] at hb
    cases hb
  cases ev with
  | receivedData rx =>
    intro b hb
    rw [tracked_receivedData] at hb ⊢
    simp only [acceptedAfter] at hb ⊢
    by_cases hr : resets (receivedData E a.1 rx).2 = true
    · rw [if_pos hr] at hb; cases hb
    rw [if_neg hr] at hb
    by_cases ht : takes (receivedData E a.1 rx).2 = true
    · rw [if_pos ht] at hb
      obtain ⟨pcb, u, c, he⟩ := rx_takes (receivedData_rx a.1 rx) ht
      obtain ⟨h1, h2⟩ := receivedData_bound (E := E) he.toIBlock he.addressed
      rw [← Option.some.inj hb, binding_congr h1 h2, binding_of_match (cidMismatch_bindCid _ _ _)]
      exact (address_header he.toHeader).symm
    · rw [if_neg ht] at hb
      obtain ⟨⟨h1, h2⟩, _⟩ := keeps_of_noRebind (E := E) (hn (by rw [hb]; simp)) (by simpa using hr)
      rw [binding_congr h1 h2]
      exact h b hb
  | halted => exact hlost (resets_activationLost a.1)
  | fieldOff => exact hlost (resets_activationLost a.1)

/-- Once a block was accepted, a response was sent or a chain is open. -/
structure Settled (a : Listener L σ × Option (Option UInt8)) : Prop where
  inv : Inv a.1
  busy : a.2 ≠ none → a.1.lastResponseValid = true ∨ a.1.commandLen ≠ 0

theorem Settled.noRebind {a : Listener L σ × Option (Option UInt8)} (h : Settled a) (ev : Event) : NoRebind a ev := by
  intro hm hreb
  cases hreb with
  | block _ _ hv hc =>
    rcases h.busy hm with h | h
    · rw [hv] at h; cases h
    · exact h hc

/-- Every branch that accepts a block leaves a response or an open chain, and only an
    overflow closes a chain without a response. -/
theorem settled_rx (hk : E.KeepsPrefix) {s s' : Listener L σ} {rx : Octets} {out : List Effect}
    {m : Option (Option UInt8)} (h : Settled (s, m)) (hr : Rx E s rx s' out)
    (ho : Overflows s rx → s.lastResponseValid = true) (hm : acceptedAfter m (.receivedData rx) out ≠ none) :
    s'.lastResponseValid = true ∨ s'.commandLen ≠ 0 := by
  have hinv : Inv s := h.inv
  have hkept : takes out = false → s.lastResponseValid = true ∨ s.commandLen ≠ 0 := by
    intro ht
    rw [acceptedAfter, ht] at hm
    refine h.busy ?_
    split at hm
    · exact absurd rfl hm
    · exact hm
  cases hr with
  | ignored => exact hkept rfl
  | pps => exact hkept (takes_sendControl _ _ _)
  | replayR => exact hkept (takes_sendFrame _)
  | nextBlock _ _ _ ho => rw [(nextSent_eq hinv ho).1]; exact Or.inl rfl
  | ackR => exact hkept (takes_sendControl _ _ _)
  | deselect =>
    rw [acceptedAfter, resets_append, resets_sendFrame] at hm
    exact absurd rfl hm
  | replayI => exact hkept (takes_sendFrame _)
  | ackI => exact hkept (takes_sendControl _ _ _)
  | nakI => simpa using hkept (takes_sendControl _ _ _)
  | refused => simpa using hkept (takes_sendControl _ _ _)
  | overflow he ho' hl hc hbig =>
    have hv := ho (.block he ho' hl hc hbig)
    exact Or.inl (by simpa [dropChain] using hv)
  | chained _ _ hl =>
    refine Or.inr ?_
    simp only [toggleExpected, appendInf, List.length_drop]
    omega
  | @lastBlock _ u c he ho hl hfit _ _ _ _ hd =>
    exact Or.inl (answered_lastBlock hk hinv he ho hfit hd).1.valid
  | @single _ u c he _ _ _ hc _ _ hd =>
    exact Or.inl (answered_single hk hinv he hc hd).1.valid

theorem tracked_settled (hk : E.KeepsPrefix) (a : Listener L σ × Option (Option UInt8)) (ev : Event) (h : Settled a)
    (ho : OverflowAnswered a ev) : Settled (tracked E a ev) := by
  refine ⟨inv_callback hk a.1 ev h.inv, fun hm => ?_⟩
  cases ev with
  | receivedData rx => exact settled_rx hk h (receivedData_rx a.1 rx) ho hm
  | halted => exact absurd rfl hm
  | fieldOff => exact absurd rfl hm

/-- In exactly the runs in which no I-block binds an activation anew after one of another
    address was accepted in it, every activation keeps its one address; and in every run in which
    a chain overflows only after a response was sent. -/
theorem one_address_iff (hk : E.KeepsPrefix) (st : σ) (evs : List Event) :
    (Along (tracked E) NoRebind (listenerInit L st, none) evs ↔
      Along (tracked E) (KeepsAddress E) (listenerInit L st, none) evs) ∧
    (Along (tracked E) OverflowAnswered (listenerInit L st, none) evs →
      Along (tracked E) (KeepsAddress E) (listenerInit L st, none) evs) := by
  have hiff : Along (tracked E) NoRebind (listenerInit L st, none) evs ↔
      Along (tracked E) (KeepsAddress E) (listenerInit L st, none) evs :=
    along_congr Bound keepsAddress_iff tracked_bound evs (listenerInit L st, none) fun _ h => by cases h
  refine ⟨hiff, fun ho => hiff.mp ?_⟩
  have hsettled : Settled (listenerInit L st, (none : Option (Option UInt8))) :=
    ⟨inv_init L st, fun h => absurd rfl h⟩
  exact along_of_inv Settled (fun a ev h => h.noRebind ev) (tracked_settled hk) evs _ hsettled ho

/-- SelectApplication in two blocks, with CID 1. -/
theorem one_address_iff_select :
    (Along (tracked piccEngine) NoRebind (listenerInit smallLimits false, none)
        [.receivedData [0x1A, 1, 0x5A], .receivedData [0x0B, 1, 0, 0, 0]] ↔
      Along (tracked piccEngine) (KeepsAddress piccEngine) (listenerInit smallLimits false, none)
        [.receivedData [0x1A, 1, 0x5A], .receivedData [0x0B, 1, 0, 0, 0]]) ∧
    (Along (tracked piccEngine) OverflowAnswered (listenerInit smallLimits false, none)
        [.receivedData [0x1A, 1, 0x5A], .receivedData [0x0B, 1, 0, 0, 0]] →
      Along (tracked piccEngine) (KeepsAddress piccEngine) (listenerInit smallLimits false, none)
        [.receivedData [0x1A, 1, 0x5A], .receivedData [0x0B, 1, 0, 0, 0]]) :=
  one_address_iff piccEngine_keepsPrefix false _

/-- A chain with CID 1 overflows in its second block. The next I-block has CID 2, and is executed. -/
theorem overflow_rebinds :
    let first : Event := .receivedData (0x1A :: 1 :: List.replicate 100 0xEE)
    let second : Event := .receivedData (0x1B :: 1 :: List.replicate 100 0xEE)
    let other : Event := .receivedData [0x0B, 2, 0x5A, 0, 0, 0]
    let a := [first, second].foldl (tracked piccEngine) (listenerInit smallLimits false, none)
    (a.2 = some (some 1) ∧ a.1.cidValid = true ∧ a.1.cid = 1) ∧
    ((tracked piccEngine a other).2 = some (some 2) ∧ (tracked piccEngine a other).1.cid = 2 ∧
      .command [0x5A, 0, 0, 0] ∈ (workerListenerCallback piccEngine a.1 other).2) ∧
    ¬Along (tracked piccEngine) (KeepsAddress piccEngine) (listenerInit smallLimits false, none) [first, second, other] := by
  intro first second other a
  have hfirst : a.2 = some (some 1) ∧ a.1.cidValid = true ∧ a.1.cid = 1 := by decide +kernel
  have hother : (tracked piccEngine a other).2 = some (some 2) ∧ (tracked piccEngine a other).1.cid = 2 ∧
      .command [0x5A, 0, 0, 0] ∈ (workerListenerCallback piccEngine a.1 other).2 := by decide +kernel
  have hres : resets (workerListenerCallback piccEngine a.1 other).2 = false := by decide +kernel
  refine ⟨hfirst, hother, fun h => ?_⟩
  have hkeep : KeepsAddress piccEngine a other := h.2.2.1
  obtain ⟨_, hcid, _⟩ := hkeep (some 1) hfirst.1 hres
  have hnew : (workerListenerCallback piccEngine a.1 other).1.cid = 2 := hother.2.1
  rw [hnew, hfirst.2.2] at hcid
  exact absurd hcid (by decide)

end DfcFlipper.IsoDep
