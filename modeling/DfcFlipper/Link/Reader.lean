/-
  DfcFlipper.Link.Reader — an ISO/IEC 14443-4 reader against the listener, over a link that
  loses frames either way.

  The reader sends its commands block by block. Its number starts at 0 and toggles when it
  takes an R(ACK) with its number for a chained block, or an I-block with its number for a
  last block or for its R(ACK). Without a block it can take it sends R(NAK); an R(ACK)
  with the other number makes it repeat its I-block; while the response is chained it sends
  R(ACK), again until the next block comes.

  One exchange (`exchange`) is one frame of the reader and the listener's answer to it; the
  two flags of a `Loss` lose the one or the other. Each effect of the listener is recorded
  with the index of the block the reader was at.
-/

import DfcFlipper.IsoDep.Frames
import DfcFlipper.IsoDep.Sent

namespace DfcFlipper.Link

open DfcFlipper.Lib.Bytes DfcFlipper.Lib.Run DfcFlipper.IsoDep

/-! ## The reader -/

structure Block where
  more : Bool
  inf : Octets
  deriving DecidableEq, Repr

/-- What the reader sends: its I-block, R(NAK) for a missing answer, R(ACK) for more of the
    response. -/
inductive Phase where
  | block
  | nak
  | ack
  deriving DecidableEq, Repr

structure Reader where
  number : Bool
  phase : Phase
  /-- Blocks finished so far. -/
  index : Nat
  todo : List Block
  deriving DecidableEq, Repr

inductive Sent where
  | iBlock (number more : Bool) (inf : Octets)
  | nak (number : Bool)
  | ack (number : Bool)
  deriving DecidableEq, Repr

def Sent.encode (cid : Option UInt8) : Sent → Octets
  | .iBlock number more inf => iFrame number more cid inf
  | .nak number => rFrame true number cid
  | .ack number => rFrame false number cid

inductive Answer where
  | iBlock (number more : Bool)
  | rAck (number : Bool)
  | other
  deriving DecidableEq, Repr

def decodePcb (pcb : UInt8) : Answer :=
  if isIPcb pcb then .iBlock (blockNumber pcb) (chaining pcb)
  else if pcb &&& 0xF6 = 0xA2 then .rAck (blockNumber pcb)
  else .other

namespace Reader

def sends (r : Reader) (b : Block) : Sent :=
  match r.phase with
  | .block => .iBlock r.number b.more b.inf
  | .nak => .nak r.number
  | .ack => .ack r.number

def advance (r : Reader) : Reader := ⟨!r.number, .block, r.index + 1, r.todo.tail⟩

def takeResponse (r : Reader) (more : Bool) : Reader :=
  if more then { r with number := !r.number, phase := .ack } else r.advance

/-- The answer to the reader's block `b`, or `none` when none arrives. -/
def receive (r : Reader) (b : Block) (answer : Option Answer) : Reader :=
  match r.phase, answer with
  | .ack, some (.iBlock n more) => if n = r.number then r.takeResponse more else r
  | .ack, _ => r
  | _, some (.rAck n) =>
    if n = r.number then if b.more then r.advance else { r with phase := .nak } else { r with phase := .block }
  | _, some (.iBlock n more) => if n = r.number ∧ b.more = false then r.takeResponse more else { r with phase := .nak }
  | _, _ => { r with phase := .nak }

inductive Moves (r : Reader) (b : Block) : Option Answer → Reader → Prop
  | waits {a : Option Answer} : r.phase = .ack → Moves r b a r
  | asks {a : Option Answer} {p : Phase} : r.phase ≠ .ack → p ≠ .ack → Moves r b a { r with phase := p }
  | acked : r.phase ≠ .ack → b.more = true → Moves r b (some (.rAck r.number)) r.advance
  | takes {more : Bool} : r.phase = .ack ∨ b.more = false → Moves r b (some (.iBlock r.number more)) (r.takeResponse more)

theorem receive_moves (r : Reader) (b : Block) (a : Option Answer) : Moves r b a (r.receive b a) := by
  have hask : ∀ a p, r.phase ≠ .ack → p ≠ .ack → Moves r b a { r with phase := p } := fun _ _ h hp => .asks h hp
  unfold receive
  split
  · rename_i n more hp
    by_cases hn : n = r.number
    · rw [if_pos hn, hn]; exact .takes (Or.inl hp)
    · rw [if_neg hn]; exact .waits hp
  · rename_i hp _
    exact .waits hp
  · rename_i n hp
    by_cases hn : n = r.number
    · rw [if_pos hn, hn]
      by_cases hm : b.more = true
      · rw [if_pos hm]; exact .acked hp hm
      · rw [if_neg hm]; exact hask _ _ hp (by simp)
    · rw [if_neg hn]; exact hask _ _ hp (by simp)
  · rename_i n more hp
    by_cases hn : n = r.number ∧ b.more = false
    · rw [if_pos hn, hn.1]; exact .takes (Or.inr hn.2)
    · rw [if_neg hn]; exact hask _ _ hp (by simp)
  · rename_i hp _
    exact hask _ _ hp (by simp)

end Reader

def toBlocks : List Octets → List Block
  | [] => []
  | [inf] => [⟨false, inf⟩]
  | inf :: rest => ⟨true, inf⟩ :: toBlocks rest

/-! ## The link -/

variable {L : Limits} {σ : Type}

structure Ends (L : Limits) (σ : Type) where
  reader : Reader
  listener : Listener L σ

structure Loss where
  /-- The reader's frame is lost. -/
  down : Bool
  /-- The listener's answer is lost. -/
  up : Bool
  deriving DecidableEq, Repr

def answerOf (out : List Effect) : Option Answer := (out.findSome? Effect.frame?).map fun f => decodePcb (f.headD 0)

def exchange (E : Engine L σ) (cid : Option UInt8) (x : Ends L σ) (loss : Loss) : Ends L σ × List (Nat × Effect) :=
  match x.reader.todo with
  | [] => (x, [])
  | b :: _ =>
    if loss.down then ({ x with reader := x.reader.receive b none }, [])
    else
      let r := workerListenerCallback E x.listener (.receivedData ((x.reader.sends b).encode cid))
      let answer := if loss.up then none else answerOf r.2
      (⟨x.reader.receive b answer, r.1⟩, r.2.map fun e => (x.reader.index, e))

def linkInit (L : Limits) (st : σ) (cmds : List (List Octets)) : Ends L σ :=
  ⟨⟨false, .block, 0, cmds.flatMap toBlocks⟩, listenerInit L st⟩

end DfcFlipper.Link
