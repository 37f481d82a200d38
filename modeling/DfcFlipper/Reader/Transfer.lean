/-
  DfcFlipper.Reader.Transfer — a card copied from one Flipper to another: the reader
  (dfc_reader.c) before the emulator (dfc_emulator_listener.c), with a transport between them.

  The engine of the emulator is `lib/core`'s; of it no more is asked than that it answers the
  frames of this read as the card it emulates does (`Plays`). `Air` brings the read over the
  transport, `Peer` says what a read of the card leaves.

  `copied_over_link`: so while the transport answers, the credential becomes the image of the
  emulated card, with one Success, and the engine has done each command of the read once; when
  it fails there is one Error, and no command has been done twice or out of its turn.
-/

import DfcFlipper.Reader.Air
import DfcFlipper.Reader.Peer

namespace DfcFlipper.Reader.Mutual

open DfcFlipper.Lib.Bytes DfcFlipper.Lib.Cbc DfcFlipper.Lib.Run
open DfcFlipper.IsoDep (Limits Engine DfcByteBuf headerLen smallLimits listenerInit iso7816ClaStandard iso7816ClaWrapper
  handledOutcome handleApdu handleNative handleCommand NativeRoom appending appending_keepsPrefix appending_prefixBlind)
open DfcFlipper.Link

variable {σ κ : Type} {n : Nat} {L : Limits} {τ : Type}

/-! ## The copy -/

section Copy

variable {C : Core σ} {K : CardCore κ} {G : Octets → Equiv.Perm (Block n)} {p : Peer} {R : σ → κ → Prop} {d : Device}
  {c : Credential} {ρ : Type} {E : Engine L τ} {T : Transport ρ τ} {k : Nat} {Between : ρ → Prop} {s : ρ}

/-- What the callback makes of a session that was cut off. -/
theorem ready_of_cut {card : Card} (hd : d.readerAlloc = true)
    (hret : (session C card d ⟨captureUid d.uid c, none, []⟩).ret = .commandStop)
    (hposts : (session C card d ⟨captureUid d.uid c, none, []⟩).posts = []) :
    (pollerCallback C card d c .ready).posts = [.pollerError] := by
  have ho : pollerCallback C card d c .ready = stateMachine C card d (captureUid d.uid c) := rfl
  rw [ho, stateMachine, if_neg (by rw [hd]; decide)]
  simp only [hret, hposts, if_true, List.nil_append]

/-- For every card, every engine that plays it and every transport: the read has brought in the
    files of the card, and the engine has done each of its commands once and in order; or a send
    has failed, the read ends in an Error, and the engine has done the commands before, and the
    one that was sent last at most. -/
theorem copied_over_link (hT : T.Carries E k Between) (hs : Between s) (hC : CipherCore C p.cipher G) (hR : Paired C K R)
    (hL : PoolLaws C) (hB : p.rndB.length = n) (hA : (d.random n).length = n) (hd : d.readerAlloc = true)
    (hc : Describes C p c) (hfits : Fits C p c.files.zipIdx c.pool) :
    let sent := (session C (peerCard C K G p) d ⟨captureUid d.uid c, none, []⟩).reader.sent
    Plays E (T.engine s) (peerCard C K G p) sent → Sendable L sent → Roomy E k (T.engine s) sent →
      let all := outcomes E (T.engine s) sent
      let o := pollerCallback C (T.card s) d c .ready
      (o.posts = [.pollerSuccess] ∧ o.credential = (captureUid d.uid c).setPool (imaged p c.files.zipIdx c.pool) ∧
        T.Did s (T.after s sent) all) ∨
      ∃ m < sent.length, T.card s (sent.take (m + 1)) = none ∧ o.posts = [.pollerError] ∧
        (T.Did s (T.after s (sent.take (m + 1))) (all.take m) ∨
          T.Did s (T.after s (sent.take (m + 1))) (all.take (m + 1))) := by
  intro sent hplays hsend hroom all o
  obtain ⟨_, hfiles, hpool⟩ := captureUid_leaves d.uid c
  obtain ⟨r', hsession, hcred⟩ := peer_session (d := d) hC hR hL hB hA (hc.captured d.uid)
    (by rw [hfiles, hpool]; exact hfits)
  rw [hfiles, hpool] at hcred
  rcases session_carried hT hs hplays rfl hsend hroom with ⟨hsame, hdid⟩ | ⟨m, hlt, hnone, _, hret, hposts, hdid⟩
  · have ho : o = ⟨.commandStop, [.pollerSuccess], r'.credential⟩ := ready_of_session hd (hsame.trans hsession)
    rw [ho]
    exact Or.inl ⟨rfl, hcred, hdid⟩
  · exact Or.inr ⟨m, hlt, hnone, ready_of_cut hd hret hposts, hdid⟩

end Copy

/-! ## An emulator that is the card -/

def Native (frame : Octets) : Prop :=
  frame.length ≤ smallLimits.workerMaxBufferSize ∧ ¬(4 ≤ frame.length ∧ frame.headD 0 = iso7816ClaStandard) ∧
    ¬(5 ≤ frame.length ∧ frame.headD 0 = iso7816ClaWrapper)

instance (frame : Octets) : Decidable (Native frame) := inferInstanceAs (Decidable (_ ∧ _))

def replies (answer : τ → Octets → τ × Octets) : τ → List Octets → List Octets
  | _, [] => []
  | st, frame :: rest => (answer st frame).2 :: replies answer (answer st frame).1 rest

section Machine

variable {answer : τ → Octets → τ × Octets} {initial : τ} {k : Nat}

theorem replies_append (before after : List Octets) :
    ∀ st, replies answer st (before ++ after) =
      replies answer st before ++ replies answer (before.foldl (fun st frame => (answer st frame).1) st) after := by
  induction before with
  | nil => exact fun _ => rfl
  | cons frame before ih => exact fun st => congrArg ((answer st frame).2 :: ·) (ih (answer st frame).1)

theorem appendBytes_empty {data : Octets} (h : data.length ≤ smallLimits.bytebufMax) :
    ((DfcByteBuf.empty : DfcByteBuf smallLimits).appendBytes data).data = data :=
  DfcByteBuf.appendBytes_data (b := .empty) (show 0 + data.length ≤ smallLimits.bytebufMax by rwa [Nat.zero_add])

/-- The engine made of a machine answers a native frame as the machine does, where there is room. -/
theorem appending_handled {frame : Octets} (hn : Native frame) (st : τ)
    (hfit : (answer st frame).2.length ≤ smallLimits.bytebufMax) :
    (handledOutcome (appending answer initial) st [] frame).engine = (answer st frame).1 ∧
      (handledOutcome (appending answer initial) st [] frame).payload = (answer st frame).2 := by
  obtain ⟨hlen, hstd, hwrap⟩ := hn
  have hnil : (DfcByteBuf.empty.appendBytes [] : DfcByteBuf smallLimits) = .empty := dif_pos (Nat.zero_le _)
  simp only [handledOutcome, handleApdu, if_neg (Nat.not_lt.mpr hlen), if_neg hstd, handleNative, if_neg hwrap, handleCommand,
    appending, hnil, List.length_nil, List.drop_zero, appendBytes_empty hfit, and_self]

theorem appending_room {frame : Octets} (hn : Native frame) (st : τ)
    (hfit : k + (answer st frame).2.length ≤ smallLimits.bytebufMax) : IsoDep.Room (appending answer initial) k st frame := by
  obtain ⟨hlen, hstd, hwrap⟩ := hn
  simp only [IsoDep.Room, if_neg (Nat.not_lt.mpr hlen), if_neg hstd, NativeRoom, if_neg hwrap, appending,
    appendBytes_empty (Nat.le_trans (Nat.le_add_left _ k) hfit)]
  exact hfit

theorem appending_outcomes (initial : τ) (frames : List Octets) (hn : ∀ frame ∈ frames, Native frame) :
    ∀ st, (∀ reply ∈ replies answer st frames, k + reply.length ≤ smallLimits.bytebufMax) →
      (outcomes (appending answer initial) st frames).map (·.payload) = replies answer st frames ∧
        Roomy (appending answer initial) k st frames := by
  induction frames with
  | nil => exact fun _ _ => ⟨rfl, trivial⟩
  | cons frame frames ih =>
    intro st hfit
    have hroom := hfit _ (List.mem_cons_self ..)
    have hnative := hn frame (List.mem_cons_self ..)
    obtain ⟨hst, hpay⟩ := appending_handled hnative st (Nat.le_trans (Nat.le_add_left _ k) hroom)
    obtain ⟨hrest, hrooms⟩ := ih (fun x hx => hn x (List.mem_cons_of_mem _ hx)) (answer st frame).1
      fun x hx => hfit x (List.mem_cons_of_mem _ hx)
    refine ⟨?_, appending_room hnative st hroom, by rw [hst]; exact hrooms⟩
    rw [outcomes, List.map_cons, hst, hpay, hrest, replies]

end Machine

def playing (C : Core σ) (K : CardCore κ) (G : Octets → Equiv.Perm (Block n)) (p : Peer) :
    Engine smallLimits (PeerState κ) :=
  appending (peerStep C K G p) .idle

/-- It plays the card wherever the frames are native and the answers have room. -/
theorem playing_plays (C : Core σ) (K : CardCore κ) (G : Octets → Equiv.Perm (Block n)) (p : Peer) {k : Nat}
    {frames : List Octets} (hn : ∀ frame ∈ frames, Native frame)
    (hfit : ∀ reply ∈ replies (peerStep C K G p) .idle frames, k + reply.length ≤ smallLimits.bytebufMax) :
    Plays (playing C K G p) .idle (peerCard C K G p) frames ∧ Roomy (playing C K G p) k .idle frames := by
  refine ⟨fun before hp hne => ?_, (appending_outcomes PeerState.idle frames hn PeerState.idle hfit).2⟩
  obtain ⟨rest, rfl⟩ := hp
  obtain ⟨houtcomes, _⟩ := appending_outcomes PeerState.idle before (fun frame hm => hn frame (List.mem_append_left _ hm))
    PeerState.idle fun reply hm => hfit reply (by rw [replies_append]; exact List.mem_append_left _ hm)
  have hlast : engineCard (playing C K G p) .idle before = (replies (peerStep C K G p) .idle before).getLast? :=
    congrArg List.getLast? houtcomes
  obtain ⟨front, last, rfl⟩ : ∃ front last, before = front ++ [last] := ⟨_, _, (List.dropLast_concat_getLast hne).symm⟩
  rw [hlast, replies_append, replies, replies, List.getLast?_concat, peerCard_snoc]
  rfl

def twoFilesDevice : Device := ⟨true, seventeens, some [4, 1, 2, 3, 4, 5, 6]⟩

/-- The selection, the authentication and two reads. -/
def copyFrames : List Octets :=
  [[0x5A, 1, 2, 3], [cmdAuthenticateAes, 0],
    cmdAdditionalFrame :: (List.replicate 16 0x33 ++ [17, 16, 19, 18, 21, 20, 23, 22, 25, 24, 27, 26, 29, 28, 31, 30]),
    [cmdReadData, 1, 0, 0, 0, 0, 0, 0], [cmdReadData, 2, 0, 0, 0, 0, 0, 0]]

theorem copyFrames_eq : (session mixingCore (peerCard mixingCore mixingCard (keyXor 16) twoFiles) twoFilesDevice
    ⟨captureUid twoFilesDevice.uid twoFilesCredential, none, []⟩).reader.sent = copyFrames := by decide +kernel

theorem copyFrames_played :
    Plays (playing mixingCore mixingCard (keyXor 16) twoFiles) .idle (peerCard mixingCore mixingCard (keyXor 16) twoFiles)
      copyFrames ∧
      Roomy (playing mixingCore mixingCard (keyXor 16) twoFiles) (headerLen (none : Option UInt8).isSome) .idle copyFrames :=
  playing_plays mixingCore mixingCard (keyXor 16) twoFiles (by decide) (by decide +kernel)

theorem copyFrames_sendable : Sendable smallLimits copyFrames :=
  show ∀ cmd ∈ copyFrames, cmd ≠ [] ∧ cmd.length ≤ 128 by decide

def copying (losses : Nat → List Loss) : Radio smallLimits (PeerState (Octets × Option Octets)) :=
  ⟨false, listenerInit smallLimits .idle, losses, []⟩

theorem copying_engine (losses : Nat → List Loss) :
    (client (playing mixingCore mixingCard (keyXor 16) twoFiles) none).engine (copying losses) = .idle := rfl

def copiedLosing (losses : Nat → List Loss) : Outcome :=
  pollerCallback mixingCore ((client (playing mixingCore mixingCard (keyXor 16) twoFiles) none).card (copying losses))
    twoFilesDevice twoFilesCredential .ready

/-- A client that persists copies the card. With one that gives up the read ends in an Error. -/
theorem copied_over_link_two_files :
    ((copiedLosing unlucky).posts = [.pollerSuccess] ∧
      (copiedLosing unlucky).credential = (captureUid twoFilesDevice.uid twoFilesCredential).setPool
        (imaged twoFiles twoFilesCredential.files.zipIdx twoFilesCredential.pool)) ∧
    (copiedLosing givenUp).posts = [.pollerError] := by
  have hk : (playing mixingCore mixingCard (keyXor 16) twoFiles).KeepsPrefix := appending_keepsPrefix _ _
  have hbl : (playing mixingCore mixingCard (keyXor 16) twoFiles).PrefixBlind := appending_prefixBlind _ _
  have hposts : (copiedLosing givenUp).posts ≠ [.pollerSuccess] := by decide +kernel
  unfold copiedLosing at hposts ⊢
  constructor
  · have hover := copied_over_link (n := 16) (p := twoFiles) (d := twoFilesDevice) (c := twoFilesCredential)
      (s := copying unlucky) (T := client (playing mixingCore mixingCard (keyXor 16) twoFiles) none) (client_carries hk hbl none)
      (between_init none PeerState.idle unlucky) mixingCore_aes mixingCore_paired mixingCore_laws rfl rfl rfl twoFiles_described
      twoFiles_fit
    simp only [copying_engine, copyFrames_eq] at hover
    rcases hover copyFrames_played.1 copyFrames_sendable copyFrames_played.2 with ⟨hsuccess, hcopy, _⟩ | ⟨n, _, hnone, _⟩
    · exact ⟨hsuccess, hcopy⟩
    · exact absurd hnone (client_never_fails hk hbl copyFrames (copying unlucky) (between_init none _ unlucky)
        ⟨fun i => ⟨_, 260, rfl, by decide⟩, rfl⟩ copyFrames_sendable copyFrames_played.2 (copyFrames.take (n + 1))
        (List.take_prefix _ _) (List.cons_ne_nil _ _))
  · have hover := copied_over_link (n := 16) (p := twoFiles) (d := twoFilesDevice) (c := twoFilesCredential)
      (s := copying givenUp) (T := client (playing mixingCore mixingCard (keyXor 16) twoFiles) none) (client_carries hk hbl none)
      (between_init none PeerState.idle givenUp) mixingCore_aes mixingCore_paired mixingCore_laws rfl rfl rfl twoFiles_described
      twoFiles_fit
    simp only [copying_engine, copyFrames_eq] at hover
    rcases hover copyFrames_played.1 copyFrames_sendable copyFrames_played.2 with ⟨hsuccess, _⟩ | ⟨n, _, _, herror, _⟩
    · exact absurd hsuccess hposts
    · exact herror

end DfcFlipper.Reader.Mutual
