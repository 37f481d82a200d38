/-
  DfcFlipper.Link.Client — the reader of `Link.Reader` with what it gets.

  `Reader` follows the protocol and drops the INF of what it takes. A `Client` keeps it: the
  octets of the response it is at, and the responses it has whole. `call` is one exchange
  of a client with the listener; without the client's octets it is `exchange`
  (`call_link`, `run_call`), so what is proved of `exchange` holds of `call`.
-/

import DfcFlipper.Link.Integrity

namespace DfcFlipper.Link

open DfcFlipper.Lib.Bytes DfcFlipper.Lib.Run DfcFlipper.IsoDep

variable {L : Limits} {σ : Type} {E : Engine L σ}

/-! ## The client -/

structure Client where
  reader : Reader
  /-- The INFs taken of the response the reader is at. -/
  got : Octets
  responses : List Octets
  deriving DecidableEq, Repr

/-- Whether the reader takes an answer as a block of its response, and whether more follows. -/
def Reader.taken (r : Reader) (b : Block) : Option Answer → Option Bool
  | some (.iBlock n more) => if n = r.number ∧ (r.phase = .ack ∨ b.more = false) then some more else none
  | _ => none

def answerTo (frame : Option Octets) : Option Answer := frame.map fun f => decodePcb (f.headD 0)

def Client.receive (c : Client) (b : Block) (frame : Option Octets) : Client :=
  let reader := c.reader.receive b (answerTo frame)
  let got := c.got ++ inf (frame.getD [])
  match c.reader.taken b (answerTo frame) with
  | some true => ⟨reader, got, c.responses⟩
  | some false => ⟨reader, [], c.responses ++ [got]⟩
  | none => ⟨reader, c.got, c.responses⟩

theorem Client.receive_reader (c : Client) (b : Block) (frame : Option Octets) :
    (c.receive b frame).reader = c.reader.receive b (answerTo frame) := by
  unfold Client.receive
  simp only
  split <;> rfl

/-- An answer that is not taken leaves the octets. -/
theorem Client.receive_untaken {c : Client} {b : Block} {frame : Option Octets}
    (h : c.reader.taken b (answerTo frame) = none) :
    c.receive b frame = ⟨c.reader.receive b (answerTo frame), c.got, c.responses⟩ := by
  unfold Client.receive
  simp only
  rw [h]

/-- A block of the response: the reader moves on, its octets are kept. -/
theorem Client.receive_block {c : Client} {b : Block} {f : Octets} {more : Bool}
    (hf : decodePcb (f.headD 0) = .iBlock c.reader.number more) (ht : c.reader.phase = .ack ∨ b.more = false) :
    c.receive b (some f) = if more then ⟨c.reader.takeResponse true, c.got ++ inf f, c.responses⟩
      else ⟨c.reader.advance, [], c.responses ++ [c.got ++ inf f]⟩ := by
  have ha : answerTo (some f) = some (.iBlock c.reader.number more) := congrArg some hf
  have htaken : c.reader.taken b (answerTo (some f)) = some more := by
    rw [ha, Reader.taken, if_pos ⟨rfl, ht⟩]
  have hreader : c.reader.receive b (answerTo (some f)) = c.reader.takeResponse more := by
    rw [ha]
    cases hp : c.reader.phase with
    | ack => simp [Reader.receive, hp]
    | block => simp [Reader.receive, hp, ht.resolve_left (by rw [hp]; simp)]
    | nak => simp [Reader.receive, hp, ht.resolve_left (by rw [hp]; simp)]
  unfold Client.receive
  simp only
  rw [htaken, hreader]
  cases more with
  | true => rfl
  | false => rfl

/-- No answer, or one the reader can make nothing of: it asks, or it waits. -/
theorem Client.receive_other {c : Client} {b : Block} {frame : Option Octets}
    (h : answerTo frame = none ∨ answerTo frame = some .other) :
    c.receive b frame = { c with reader := { c.reader with phase := if c.reader.phase = .ack then .ack else .nak } } := by
  have htaken : c.reader.taken b (answerTo frame) = none := by rcases h with h | h <;> rw [h] <;> rfl
  have hreader : c.reader.receive b (answerTo frame) =
      { c.reader with phase := if c.reader.phase = .ack then .ack else .nak } := by
    obtain ⟨⟨n, p, i, t⟩, g, rs⟩ := c
    rcases h with h | h <;> rw [h] <;> cases p <;> rfl
  rw [receive_untaken htaken, hreader]

/-- An R(ACK) outside the response. -/
theorem Client.receive_rAck {c : Client} {b : Block} {frame : Option Octets} {n : Bool}
    (h : answerTo frame = some (.rAck n)) (hp : c.reader.phase ≠ .ack) :
    c.receive b frame = { c with reader :=
      if n = c.reader.number then if b.more then c.reader.advance else { c.reader with phase := .nak }
      else { c.reader with phase := .block } } := by
  have htaken : c.reader.taken b (answerTo frame) = none := by rw [h]; rfl
  rw [receive_untaken htaken, h]
  cases hph : c.reader.phase with
  | ack => exact absurd hph hp
  | block => simp [Reader.receive, hph]
  | nak => simp [Reader.receive, hph]

/-- An I-block for a chained block is not taken. -/
theorem Client.receive_chained {c : Client} {b : Block} {frame : Option Octets} {n more : Bool}
    (h : answerTo frame = some (.iBlock n more)) (hp : c.reader.phase ≠ .ack) (hb : b.more = true) :
    c.receive b frame = { c with reader := { c.reader with phase := .nak } } := by
  have htaken : c.reader.taken b (answerTo frame) = none := by
    rw [h, Reader.taken, if_neg]
    rintro ⟨_, hack | hlast⟩
    · exact hp hack
    · rw [hb] at hlast; cases hlast
  rw [receive_untaken htaken, h]
  cases hph : c.reader.phase with
  | ack => exact absurd hph hp
  | block => simp [Reader.receive, hph, hb]
  | nak => simp [Reader.receive, hph, hb]

/-! ## A call -/

structure Call (L : Limits) (σ : Type) where
  client : Client
  listener : Listener L σ

def Call.link (x : Call L σ) : Ends L σ := ⟨x.client.reader, x.listener⟩

/-- One exchange, as `exchange`; the listener's frame reaches the client whole. -/
def call (E : Engine L σ) (cid : Option UInt8) (x : Call L σ) (loss : Loss) : Call L σ × List (Nat × Effect) :=
  match x.client.reader.todo with
  | [] => (x, [])
  | b :: _ =>
    if loss.down then ({ x with client := x.client.receive b none }, [])
    else
      let r := workerListenerCallback E x.listener (.receivedData ((x.client.reader.sends b).encode cid))
      let frame := if loss.up then none else r.2.findSome? Effect.frame?
      (⟨x.client.receive b frame, r.1⟩, r.2.map fun e => (x.client.reader.index, e))

def callInit (L : Limits) (st : σ) (cmds : List (List Octets)) : Call L σ :=
  ⟨⟨(linkInit L st cmds).reader, [], []⟩, (linkInit L st cmds).listener⟩

/-- But for the octets a call is an exchange. -/
theorem call_link (E : Engine L σ) (cid : Option UInt8) (x : Call L σ) (loss : Loss) :
    ((call E cid x loss).1.link, (call E cid x loss).2) = exchange E cid x.link loss := by
  obtain ⟨c, s⟩ := x
  unfold call exchange Call.link
  simp only
  cases c.reader.todo with
  | nil => rfl
  | cons b rest =>
    simp only
    by_cases hd : loss.down = true
    · rw [if_pos hd, if_pos hd]
      simp only [Client.receive_reader]
      rfl
    · rw [if_neg hd, if_neg hd]
      simp only [Client.receive_reader]
      by_cases hu : loss.up = true
      · rw [if_pos hu, if_pos hu]; rfl
      · rw [if_neg hu, if_neg hu]; rfl

theorem logged_call (E : Engine L σ) (cid : Option UInt8) (a : Call L σ × List (Nat × Effect)) (loss : Loss) :
    ((logged (call E cid) a loss).1.link, (logged (call E cid) a loss).2) =
      logged (exchange E cid) (a.1.link, a.2) loss := by
  have h := call_link E cid a.1 loss
  have h1 := congrArg Prod.fst h
  have h2 := congrArg Prod.snd h
  simp only at h1 h2
  simp only [logged]
  rw [← h1, ← h2]

/-- So is every run. -/
theorem run_call (E : Engine L σ) (cid : Option UInt8) (x : Call L σ) (losses : List Loss) :
    ((run (call E cid) x losses).1.link, (run (call E cid) x losses).2) = run (exchange E cid) x.link losses := by
  have h : ∀ (losses : List Loss) (a : Call L σ × List (Nat × Effect)),
      ((losses.foldl (logged (call E cid)) a).1.link, (losses.foldl (logged (call E cid)) a).2) =
        losses.foldl (logged (exchange E cid)) (a.1.link, a.2) := by
    intro losses
    induction losses with
    | nil => intro a; rfl
    | cons loss losses ih => intro a; rw [List.foldl_cons, List.foldl_cons, ← logged_call]; exact ih _
  exact h losses (x, [])

end DfcFlipper.Link
