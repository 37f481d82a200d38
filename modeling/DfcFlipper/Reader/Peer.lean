/-
  DfcFlipper.Reader.Peer — a card at the other end of the reader, and what a read of it leaves
  (dfc_state_machine in dfc_reader.c, over dfc_reader_select_application,
  dfc_reader_authenticate and dfc_reader_read_file).

  The card is a state machine of its own: it is selected, challenged, and then in a session,
  which either side goes through with secure messaging of its own. It checks the reader's
  proof with the key it holds; a frame out of turn sends it back to the start.

  That what one end of a session wraps the other unwraps is asked of `lib/core` (`Paired`);
  the rest, from the first frame to the last file, is what is proved here.

  `peer_read`: the credential of a card becomes its image. Every file of application 0 holds
  what the card holds of it, all others and the rest of the credential are left alone, and one
  Success is posted; whichever the cipher, the random numbers and the contents.
-/

import DfcFlipper.Reader.Failed
import DfcFlipper.Reader.Mutual

namespace DfcFlipper.Reader.Mutual

open DfcFlipper.Lib.Bytes DfcFlipper.Lib.Cbc

variable {σ κ : Type} {n : Nat}

/-! ## The card -/

structure CardFile where
  commSettings : CommSettings
  contents : Octets

structure Peer where
  aid : Octets
  cipher : UInt8
  key : Octets
  rndB : Octets
  /-- By file number. -/
  files : UInt8 → Option CardFile

/-- The card's own end of `lib/core`. -/
structure CardCore (κ : Type) where
  /-- The file a ReadData frame asks for. -/
  fileNumber : Octets → Option UInt8
  /-- The session of a key, with its first chaining value. -/
  start : UInt8 → Octets → Option Octets → κ
  /-- The session goes on, behind this frame and this answer. -/
  wrap : κ → Octets → CardFile → κ × Octets

inductive PeerState (κ : Type) where
  | idle
  | selected
  | challenged
  | session (k : κ)

def refused (κ : Type) : PeerState κ × Octets := (.idle, [0xAE])

section Card

variable (C : Core σ) (K : CardCore κ) (E : Octets → Equiv.Perm (Block n)) (p : Peer)

def opening : Octets := (encryptOctets (E p.key) (zeros n) p.rndB).1

/-- The reader's proof is decrypted; when it holds RndB turned it is answered. -/
def checkProof (cryptogram : Octets) : PeerState κ × Octets :=
  let d := decryptOctets (E p.key) (chained (n := n) p.cipher (opening E p)) cryptogram
  if cryptogram.length = n + n ∧ d.1.drop n = rotated p.rndB then
    let rndA := d.1.take n
    let encA := (encryptOctets (E p.key) (chained (n := n) p.cipher d.2) (rotated rndA)).1
    (.session (K.start p.cipher (C.deriveSessionKey p.cipher p.key rndA p.rndB) (initialIv p.cipher encA)), statusOk :: encA)
  else refused κ

def peerStep (s : PeerState κ) (frame : Octets) : PeerState κ × Octets :=
  match s with
  | .idle => if frame = C.buildSelectApplicationFrame p.aid then (.selected, [statusOk]) else refused κ
  | .selected => if frame = firstFrame p.cipher 0 then (.challenged, cmdAdditionalFrame :: opening E p) else refused κ
  | .challenged => if frame.headD 0 = cmdAdditionalFrame then checkProof C K E p (frame.drop 1) else refused κ
  | .session k =>
    match (K.fileNumber frame).bind p.files with
    | none => refused κ
    | some file => (.session (K.wrap k frame file).1, statusOk :: (K.wrap k frame file).2)

def peerAfter (sent : List Octets) : PeerState κ := sent.foldl (fun s frame => (peerStep C K E p s frame).1) .idle

def peerCard : Card := fun sent => sent.getLast?.map fun frame => (peerStep C K E p (peerAfter C K E p sent.dropLast) frame).2

theorem peerCard_snoc (sent : List Octets) (frame : Octets) :
    peerCard C K E p (sent ++ [frame]) = some (peerStep C K E p (peerAfter C K E p sent) frame).2 := by
  simp [peerCard]

theorem peerAfter_snoc (sent : List Octets) (frame : Octets) :
    peerAfter C K E p (sent ++ [frame]) = (peerStep C K E p (peerAfter C K E p sent) frame).1 := by
  simp [peerAfter]

end Card

/-! ## Both ends -/

/-- The two ends of a session belong together (`R`): they do when it is opened, and what the card
wraps the reader unwraps, and then they still do. -/
structure Paired (C : Core σ) (K : CardCore κ) (R : σ → κ → Prop) : Prop where
  fileNumber : ∀ number, K.fileNumber (C.buildReadDataFrame number 0 0) = some number
  start : ∀ cipher key iv, ∃ sm, C.secureMessagingAlloc cipher key iv = some sm ∧ R (C.asPcd sm) (K.start cipher key iv)
  ev1 : ∀ {sm k}, R sm k → C.appliesEv1 sm cmdReadData = true → ∀ frame (file : CardFile),
    let u := C.unwrapEv1Response (C.updateEv1Command sm cmdReadData (frame.drop 1)) statusOk (K.wrap k frame file).2
    u.2 = some file.contents ∧ R u.1 (K.wrap k frame file).1
  legacy : ∀ {sm k}, R sm k → C.appliesEv1 sm cmdReadData = false → ∀ frame (file : CardFile),
    let u := C.unwrap sm file.commSettings statusOk (K.wrap k frame file).2
    u.2 = file.contents ∧ R u.1 (K.wrap k frame file).1

/-- The credential is one of this card: its application, its key, and files it has. -/
structure Describes (C : Core σ) (p : Peer) (c : Credential) : Prop where
  application : ∃ app, c.application = some app ∧ app.aid = p.aid ∧ app.authCommand = p.cipher ∧ 0 < app.numKeys ∧
    app.key 0 = some p.key
  /-- An empty file that is not plain reads as a failure. -/
  files : ∀ file ∈ c.files, file.appIndex = 0 → ∃ f, p.files file.number = some f ∧ f.commSettings = file.commSettings ∧
    f.contents.length ≤ C.maxFileData ∧ (f.contents ≠ [] ∨ f.commSettings = .plain)

def contentsOf (p : Peer) (file : DfcFile) : Octets := ((p.files file.number).map CardFile.contents).getD []

def imaged (p : Peer) (files : List (DfcFile × Nat)) (pool : Pool) : Pool :=
  files.foldl (fun pool entry =>
    if entry.1.appIndex = 0 then Function.update pool entry.2 (contentsOf p entry.1) else pool) pool

/-- Every file of application 0 finds room in the pool, behind those before it. -/
def Fits (C : Core σ) (p : Peer) : List (DfcFile × Nat) → Pool → Prop
  | [], _ => True
  | (file, i) :: rest, pool =>
    (file.appIndex = 0 → HasRoom C pool i (contentsOf p file).length) ∧ Fits C p rest (imaged p [(file, i)] pool)

theorem contentsOf_file {p : Peer} {file : DfcFile} {f : CardFile} (hf : p.files file.number = some f) :
    contentsOf p file = f.contents := by
  rw [contentsOf, hf]
  rfl

theorem imaged_read {p : Peer} {file : DfcFile} {f : CardFile} (ha : file.appIndex = 0) (hf : p.files file.number = some f) (i : Nat)
    (rest : List (DfcFile × Nat)) (pool : Pool) :
    imaged p ((file, i) :: rest) pool = imaged p rest (Function.update pool i f.contents) := by
  rw [imaged, List.foldl_cons, if_pos ha, contentsOf_file hf]
  rfl

theorem imaged_other {p : Peer} {file : DfcFile} (ha : file.appIndex ≠ 0) (i : Nat) (rest : List (DfcFile × Nat)) (pool : Pool) :
    imaged p ((file, i) :: rest) pool = imaged p rest pool := by
  rw [imaged, List.foldl_cons, if_neg ha]
  rfl

/-- The UID plays no part in that. -/
theorem Describes.captured {C : Core σ} {p : Peer} {c : Credential} (h : Describes C p c) (uid : Option Octets) :
    Describes C p (captureUid uid c) := by
  obtain ⟨happ, hfiles, _⟩ := captureUid_leaves uid c
  refine ⟨?_, ?_⟩
  · rw [happ]
    exact h.application
  · rw [hfiles]
    exact h.files

section Read

variable {C : Core σ} {K : CardCore κ} {E : Octets → Equiv.Perm (Block n)} {p : Peer} {R : σ → κ → Prop} {c : Credential}
  {r : DfcReader σ}

def InSession (C : Core σ) (K : CardCore κ) (E : Octets → Equiv.Perm (Block n)) (p : Peer) (R : σ → κ → Prop)
    (r : DfcReader σ) : Prop :=
  ∃ sm k, r.secureMessaging = some sm ∧ R sm k ∧ peerAfter C K E p r.sent = .session k

/-! ## One file -/

theorem session_answers (hR : Paired C K R) {k : κ} (hk : peerAfter C K E p r.sent = .session k) {file : DfcFile} {f : CardFile}
    (hf : p.files file.number = some f) :
    let frame := C.buildReadDataFrame file.number 0 0
    peerCard C K E p (r.sent ++ [frame]) = some (statusOk :: (K.wrap k frame f).2) ∧
      peerAfter C K E p (r.sent ++ [frame]) = .session (K.wrap k frame f).1 := by
  intro frame
  have hnum : (K.fileNumber frame).bind p.files = some f := by rw [hR.fileNumber, Option.bind_some, hf]
  rw [peerCard_snoc, peerAfter_snoc, hk]
  simp only [peerStep, hnum, and_self]

/-- A file of the card is fetched as it is, and the session goes on. -/
theorem fetch_peer (hR : Paired C K R) (h : InSession C K E p R r) {file : DfcFile} {f : CardFile}
    (hf : p.files file.number = some f) (hc : f.commSettings = file.commSettings) (hl : f.contents.length ≤ C.maxFileData)
    (hne : f.contents ≠ [] ∨ f.commSettings = .plain) :
    (fetch C (peerCard C K E p) r file).1 = some f.contents ∧
      InSession C K E p R (fetch C (peerCard C K E p) r file).2 := by
  obtain ⟨sm, k, hsm, hpair, hk⟩ := h
  obtain ⟨hcard, hafter⟩ := session_answers (p := p) hR hk hf
  have hlong : ¬f.contents.length > C.maxFileData := by omega
  cases hev : C.appliesEv1 sm cmdReadData with
  | true =>
    obtain ⟨hplain, hpair'⟩ := hR.ev1 hpair hev (C.buildReadDataFrame file.number 0 0) f
    simp only [fetch, hsm, exchange, hev, if_true, hcard]
    simp only [List.length_cons, List.headD_cons, ne_eq, not_true_eq_false, if_false, List.drop_one, List.tail_cons,
      Nat.not_lt.mpr (Nat.le_add_left 1 _)]
    simp only [List.drop_one] at hplain hpair'
    simp only [hplain, if_neg hlong]
    exact ⟨trivial, _, _, rfl, hpair', hafter⟩
  | false =>
    obtain ⟨hplain, hpair'⟩ := hR.legacy hpair hev (C.buildReadDataFrame file.number 0 0) f
    rw [hc] at hplain hpair' hne
    have hfine : ¬(f.contents.length = 0 ∧ (K.wrap k (C.buildReadDataFrame file.number 0 0) f).2.length > 0 ∧
        file.commSettings ≠ .plain) := by
      rintro ⟨hz, _, hnp⟩
      exact hne.elim (fun hne => hne (List.length_eq_zero_iff.mp hz)) hnp
    simp only [fetch, hsm, exchange, hev, Bool.false_eq_true, if_false, hcard]
    simp only [List.length_cons, List.headD_cons, ne_eq, not_true_eq_false, if_false, List.drop_one, List.tail_cons,
      Nat.not_lt.mpr (Nat.le_add_left 1 _)]
    simp only [hplain]
    rw [if_neg hfine, if_neg hlong]
    exact ⟨rfl, _, _, rfl, hpair', hafter⟩

theorem readFile_peer (hR : Paired C K R) (hL : PoolLaws C) (h : InSession C K E p R r) {file : DfcFile}
    {f : CardFile} (hf : p.files file.number = some f) (hc : f.commSettings = file.commSettings)
    (hl : f.contents.length ≤ C.maxFileData) (hne : f.contents ≠ [] ∨ f.commSettings = .plain) {i : Nat}
    (hroom : HasRoom C r.credential.pool i f.contents.length) :
    ∃ r', readFile C (peerCard C K E p) r file i = (.commandContinue, r') ∧
      r'.credential = r.credential.setPool (Function.update r.credential.pool i f.contents) ∧ InSession C K E p R r' := by
  obtain ⟨hplain, hsession⟩ := fetch_peer hR h hf hc hl hne
  simp only [readFile, hplain, fetch_credential, commit_roomy hL hroom]
  exact ⟨_, rfl, rfl, hsession⟩

/-! ## All files -/

theorem setPool_setPool (c : Credential) (pool pool' : Pool) : (c.setPool pool).setPool pool' = c.setPool pool' := rfl

/-- The loop over the files brings all of them in. -/
theorem readFiles_peer (hR : Paired C K R) (hL : PoolLaws C) (files : List (DfcFile × Nat))
    (hfiles : ∀ entry ∈ files, entry.1.appIndex = 0 → ∃ f, p.files entry.1.number = some f ∧
      f.commSettings = entry.1.commSettings ∧ f.contents.length ≤ C.maxFileData ∧
      (f.contents ≠ [] ∨ f.commSettings = .plain)) :
    ∀ r : DfcReader σ, InSession C K E p R r → Fits C p files r.credential.pool →
      ∃ r', readFiles C (peerCard C K E p) .commandContinue r files = ⟨true, .commandContinue, r'⟩ ∧
        r'.credential = r.credential.setPool (imaged p files r.credential.pool) := by
  induction files with
  | nil => intro r _ _; exact ⟨r, rfl, rfl⟩
  | cons entry rest ih =>
    rintro r h ⟨hroom, hfits⟩
    obtain ⟨file, i⟩ := entry
    have hrest := fun entry hm => hfiles entry (List.mem_cons_of_mem _ hm)
    by_cases ha : file.appIndex = 0
    · obtain ⟨f, hf, hc, hl, hne⟩ := hfiles (file, i) List.mem_cons_self ha
      have hroom := hroom ha
      rw [contentsOf_file hf] at hroom
      rw [imaged_read ha hf] at hfits
      obtain ⟨r₁, hread, hcred, hsession⟩ := readFile_peer hR hL h hf hc hl hne hroom
      obtain ⟨r₂, hall, hcred'⟩ := ih hrest r₁ hsession (by rw [hcred]; exact hfits)
      refine ⟨r₂, ?_, ?_⟩
      · simp only [readFiles, ha, not_true_eq_false, if_false, ne_eq, hread]
        exact hall
      · rw [hcred', hcred, setPool_setPool, Credential.setPool_pool, imaged_read ha hf]
    · rw [imaged_other ha] at hfits
      obtain ⟨r₂, hall, hcred'⟩ := ih hrest r h hfits
      refine ⟨r₂, ?_, ?_⟩
      · simp only [readFiles, ne_eq, ha, not_false_eq_true, if_true]
        exact hall
      · rw [hcred', imaged_other ha]

/-! ## From the first frame -/

variable {random : Nat → Octets} {d : Device}

theorem length_opening (hB : p.rndB.length = n) : (opening E p).length = n := by
  rw [opening, length_encryptOctets, hB]
  exact Nat.div_mul_cancel (Nat.dvd_refl n)

theorem challenge_opening (hn : 0 < n) (hB : p.rndB.length = n) : challenge E p.key (opening E p) = p.rndB := by
  rw [challenge, opening, decryptOctets_encryptOctets (E p.key) hn _ ⟨1, by rw [Nat.mul_one, hB]⟩]

/-- The card finds its RndB in the reader's proof, and answers as the reader expects. -/
theorem checkProof_proof (hn : 0 < n) (hB : p.rndB.length = n) {rndA : Octets} (hA : rndA.length = n) :
    checkProof C K E p (proof E p.cipher p.key (opening E p) rndA).1 =
      (.session (K.start p.cipher (C.deriveSessionKey p.cipher p.key rndA p.rndB)
        (initialIv p.cipher (answer E p.cipher p.key (opening E p) rndA))),
        statusOk :: answer E p.cipher p.key (opening E p) rndA) := by
  have hplain : (rndA ++ rotated p.rndB).length = n + n := by rw [List.length_append, length_rotated, hA, hB]
  have hdvd : n ∣ (rndA ++ rotated p.rndB).length := hplain ▸ Nat.dvd_add (Nat.dvd_refl n) (Nat.dvd_refl n)
  have hproof : proof E p.cipher p.key (opening E p) rndA =
      encryptOctets (E p.key) (chained (n := n) p.cipher (opening E p)) (rndA ++ rotated p.rndB) := by
    rw [proof, challenge_opening hn hB]
  have hdec := decryptOctets_encryptOctets (E p.key) hn (chained (n := n) p.cipher (opening E p)) hdvd
  rw [← hproof] at hdec
  have hlen : (proof E p.cipher p.key (opening E p) rndA).1.length = n + n := by
    rw [hproof, length_encryptOctets, Nat.div_mul_cancel hdvd, hplain]
  simp only [checkProof, hdec, hlen, List.take_left' hA, List.drop_left' hA, and_self, if_true]
  rfl

/-- The reader selects the card and they open a session. -/
theorem opens_peer (hC : CipherCore C p.cipher E) (hR : Paired C K R) (hB : p.rndB.length = n) (hA : (d.random n).length = n)
    (hc : Describes C p c) : ∃ r, Opens C (peerCard C K E p) d c r ∧ InSession C K E p R r := by
  obtain ⟨app, happ, haid, hcipher, hnum, hkey⟩ := hc.application
  obtain ⟨sm, halloc, hpair⟩ := hR.start p.cipher (C.deriveSessionKey p.cipher p.key (d.random n) p.rndB)
    (initialIv p.cipher (answer E p.cipher p.key (opening E p) (d.random n)))
  have hchecked := checkProof_proof (C := C) (K := K) (E := E) (p := p) hC.pos hB hA
  let select := C.buildSelectApplicationFrame p.aid
  let first := firstFrame p.cipher 0
  let second := secondFrame E p.cipher p.key (opening E p) (d.random n)
  -- The card, frame by frame.
  have hselected : peerAfter C K E p [select] = .selected := by simp [peerAfter, peerStep, select]
  have hchallenged : peerAfter C K E p [select, first] = .challenged := by
    rw [show [select, first] = [select] ++ [first] from rfl, peerAfter_snoc, hselected]
    simp [peerStep, first]
  have hsecond : peerStep C K E p .challenged second =
      checkProof C K E p (proof E p.cipher p.key (opening E p) (d.random n)).1 := by
    simp [peerStep, second, secondFrame]
  have h₀ : peerCard C K E p [select] = some [statusOk] := by simp [peerCard, peerAfter, peerStep, select]
  have h₁ : peerCard C K E p ([select] ++ [first]) = some (cmdAdditionalFrame :: (opening E p ++ [])) := by
    rw [peerCard_snoc, hselected, List.append_nil]
    simp [peerStep, first]
  have h₂ : peerCard C K E p ([select] ++ [first] ++ [second]) =
      some (statusOk :: (answer E p.cipher p.key (opening E p) (d.random n) ++ [])) := by
    rw [peerCard_snoc, show [select] ++ [first] = [select, first] from rfl, hchallenged, hsecond, hchecked, List.append_nil]
  have hsel : selectApplication C (peerCard C K E p) ⟨c, none, []⟩ app.aid = (.commandContinue, ⟨c, none, [select]⟩) := by
    rw [haid]
    simp only [selectApplication, exchange, List.nil_append]
    rw [h₀]
    rfl
  have hproved : Proved C E (peerCard C K E p) d.random ⟨c, none, [select]⟩ 0 p.cipher _ :=
    .intro app p.key (opening E p) [] _ [] sm happ hnum hkey (length_opening hB) h₁ h₂ rfl
      (by rw [challenge_opening hC.pos hB]; exact halloc) rfl
  have hauth := authenticate_of hC hA hproved
  rw [← hcipher] at hauth
  refine ⟨_, ⟨app, _, happ, hsel, hauth⟩, _, _, rfl, hpair, ?_⟩
  simp only [hcipher]
  rw [peerAfter_snoc, show [select] ++ [first] = [select, first] from rfl, hchallenged, hsecond, hchecked]

/-- A session with the card brings in every file. -/
theorem peer_session (hC : CipherCore C p.cipher E) (hR : Paired C K R) (hL : PoolLaws C)
    (hB : p.rndB.length = n) (hA : (d.random n).length = n) (hc : Describes C p c) (hfits : Fits C p c.files.zipIdx c.pool) :
    ∃ r', session C (peerCard C K E p) d ⟨c, none, []⟩ = ⟨.commandContinue, [.pollerSuccess], r'⟩ ∧
      r'.credential = c.setPool (imaged p c.files.zipIdx c.pool) := by
  obtain ⟨r, hopens, hsession⟩ := opens_peer (d := d) hC hR hB hA hc
  have hfiles : ∀ entry ∈ c.files.zipIdx, entry.1.appIndex = 0 → ∃ f, p.files entry.1.number = some f ∧
      f.commSettings = entry.1.commSettings ∧ f.contents.length ≤ C.maxFileData ∧
      (f.contents ≠ [] ∨ f.commSettings = .plain) :=
    fun entry hm => hc.files entry.1 (List.fst_mem_of_mem_zipIdx hm)
  obtain ⟨r', hall, hcred⟩ := readFiles_peer hR hL _ hfiles r hsession (by rw [hopens.credential]; exact hfits)
  rw [hopens.credential] at hcred
  refine ⟨r', ?_, hcred⟩
  rcases session_cases C (peerCard C K E p) d c with ⟨r₂, hopens', hs⟩ | ⟨hno, _⟩
  · obtain rfl := hopens.unique hopens'
    rw [hs, afterOpen, hall]
    rfl
  · exact absurd hopens (hno r)

/-- What the callback makes of a session that brings in every file. -/
theorem ready_of_session {card : Card} {r' : DfcReader σ} (hd : d.readerAlloc = true)
    (h : session C card d ⟨captureUid d.uid c, none, []⟩ = ⟨.commandContinue, [.pollerSuccess], r'⟩) :
    pollerCallback C card d c .ready = ⟨.commandStop, [.pollerSuccess], r'.credential⟩ := by
  have ho : pollerCallback C card d c .ready = stateMachine C card d (captureUid d.uid c) := rfl
  rw [ho, stateMachine, if_neg (by rw [hd]; decide), h]
  rfl

end Read

/-! ## A card with two files -/

def mixingCard : CardCore (Octets × Option Octets) where
  fileNumber frame := frame[1]?
  start _ key iv := (key, iv)
  wrap k _ file := (k, if k.2.isSome then file.contents ++ [k.1.headD 0] else file.contents)

theorem mixingCore_paired : Paired mixingCore mixingCard Eq := by
  refine ⟨fun _ => rfl, fun _ key iv => ⟨(key, iv), rfl, rfl⟩, ?_, ?_⟩
  · rintro sm k rfl hev frame file
    have hsome : sm.2.isSome = true := hev
    simp [mixingCore, mixingCard, hsome]
  · rintro sm k rfl hev frame file
    have hnone : sm.2.isSome = false := hev
    simp [mixingCore, mixingCard, hnone]

theorem mixingCore_laws : PoolLaws mixingCore := boundedResize_laws rfl

/-- A plain file and one under a MAC. -/
def twoFiles : Peer :=
  ⟨[1, 2, 3], cmdAuthenticateAes, aesKey, List.replicate 16 0x22,
    fun number => if number = 1 then some ⟨.plain, [7, 8, 9]⟩ else if number = 2 then some ⟨.maced, [10]⟩ else none⟩

/-- The file between the two is not of application 0. -/
def twoFilesCredential : Credential := aesCredential [⟨1, 0, .plain⟩, ⟨1, 1, .plain⟩, ⟨2, 0, .maced⟩]

theorem twoFiles_described : Describes mixingCore twoFiles twoFilesCredential := by
  refine ⟨⟨_, rfl, rfl, rfl, by decide, rfl⟩, ?_⟩
  intro file hm ha
  simp only [twoFilesCredential, aesCredential, List.mem_cons, List.not_mem_nil, or_false] at hm
  rcases hm with rfl | rfl | rfl
  · exact ⟨_, rfl, rfl, by decide, Or.inr rfl⟩
  · cases ha
  · exact ⟨_, rfl, rfl, by decide, Or.inl (by decide)⟩

theorem twoFiles_fit : Fits mixingCore twoFiles twoFilesCredential.files.zipIdx twoFilesCredential.pool :=
  ⟨fun _ => by decide +kernel, fun h => absurd h (by decide), fun _ => by decide +kernel, trivial⟩

/-- The files of application 0 are there, the other is not touched. -/
example : (imaged twoFiles twoFilesCredential.files.zipIdx twoFilesCredential.pool) 0 = [7, 8, 9] ∧
    (imaged twoFiles twoFilesCredential.files.zipIdx twoFilesCredential.pool) 1 = [] ∧
    (imaged twoFiles twoFilesCredential.files.zipIdx twoFilesCredential.pool) 2 = [10] := by decide

end DfcFlipper.Reader.Mutual
