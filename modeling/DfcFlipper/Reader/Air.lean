/-
  DfcFlipper.Reader.Air — the card reader (dfc_reader.c) and the emulator
  (dfc_emulator_listener.c), with a transport between them that may fail.

  The reader waits for each answer before it sends the next frame, and stops when there is none.
  With a card that stops answering a read is the read with the card, or ends behind the first
  frame that is not answered (`Cut`, from `ask_cut` for one exchange to `session_cut`).

  `read_over_link`: so whatever the transport does, the reader does the read it would do with
  the engine before it, or the beginning of it, and the engine does each command of that once.
-/

import DfcFlipper.Link.Transport
import DfcFlipper.Reader.Failed
import DfcFlipper.Reader.Plan

namespace DfcFlipper.Reader

open DfcFlipper.Lib.Bytes DfcFlipper.Lib.Run
open DfcFlipper.IsoDep (Limits Engine DfcByteBuf headerLen smallLimits piccEngine listenerInit appending_keepsPrefix
  appending_prefixBlind)
open DfcFlipper.Link

variable {σ : Type} {C : Core σ} {card card' : Card} {r : DfcReader σ} {k : Nat} {frames : List Octets}

/-! ## A card that stops answering -/

/-- `y` is `x`, or cut off at the first frame that is not answered. -/
def Cut {ρ : Type} (k : Nat) (sent : ρ → List Octets) (Stops : ρ → Prop) (x y : ρ) : Prop :=
  (y = x ∧ (sent x).length ≤ k) ∨ (k < (sent x).length ∧ sent y = (sent x).take (k + 1) ∧ Stops y)

theorem Cut.ends {ρ : Type} {sent : ρ → List Octets} {Stops : ρ → Prop} {x y : ρ} {before : List Octets}
    (hlen : before.length = k + 1) (hp : before <+: sent x) (hy : sent y = before) (hs : Stops y) : Cut k sent Stops x y := by
  refine Or.inr ⟨?_, ?_, hs⟩
  · have h := hp.length_le
    omega
  · rw [hy, ← hlen]
    exact List.prefix_iff_eq_take.mp hp

/-- What is cut off stays cut off, whatever would have come after. -/
theorem Cut.later {ρ : Type} {sent : ρ → List Octets} {Stops : ρ → Prop} {x y : ρ} {before : List Octets}
    (hlt : k < before.length) (hp : before <+: sent x) (hy : sent y = before.take (k + 1)) (hs : Stops y) :
    Cut k sent Stops x y :=
  Cut.ends (by rw [List.length_take]; omega) ((List.take_prefix _ _).trans hp) hy hs

/-- A frame is answered as by the card, or is the last. -/
theorem echo_cases (he : Echoes k frames card card') (hk : r.sent.length ≤ k) {data : Octets}
    (hp : r.sent ++ [data] <+: frames) :
    ((r.sent ++ [data]).length ≤ k ∧ card' (r.sent ++ [data]) = card (r.sent ++ [data])) ∨
    ((r.sent ++ [data]).length = k + 1 ∧ card' (r.sent ++ [data]) = none) := by
  have h := he (r.sent ++ [data]) hp (by simp) (by rw [List.length_append, List.length_singleton]; omega)
  by_cases hle : (r.sent ++ [data]).length ≤ k
  · rw [if_pos hle] at h
    exact Or.inl ⟨hle, h⟩
  · rw [if_neg hle] at h
    refine Or.inr ⟨?_, h⟩
    rw [List.length_append, List.length_singleton] at hle ⊢
    omega

/-! ## One exchange -/

def ask {ρ : Type} (card : Card) (r : DfcReader σ) (data : Octets) (failed : DfcReader σ → ρ)
    (made : Octets → DfcReader σ → ρ) : ρ :=
  let x := exchange card r data
  match x.1 with
  | none => failed x.2
  | some rx => made rx x.2

section Ask

variable {ρ : Type} (sent : ρ → List Octets) {Stops : ρ → Prop} {data : Octets} {failed : DfcReader σ → ρ}
  {made made' : Octets → DfcReader σ → ρ}

theorem ask_sent (hf : ∀ r', sent (failed r') = r'.sent) (hm : ∀ rx r', r'.sent <+: sent (made rx r')) :
    r.sent ++ [data] <+: sent (ask card r data failed made) := by
  simp only [ask, exchange]
  split
  · exact ⟨[], by rw [List.append_nil, hf]⟩
  · rename_i rx _
    exact hm rx ⟨r.credential, r.secureMessaging, r.sent ++ [data]⟩

/-- When what is made of the answers is cut off alike, so is the whole. -/
theorem ask_cut (he : Echoes k frames card card') (hk : r.sent.length ≤ k) (hf : ∀ r', sent (failed r') = r'.sent)
    (hs : ∀ r', Stops (failed r')) (hm : ∀ rx r', r'.sent <+: sent (made rx r'))
    (hp : sent (ask card r data failed made) <+: frames)
    (hmade : ∀ rx r', r'.sent.length ≤ k → sent (made rx r') <+: frames → Cut k sent Stops (made rx r') (made' rx r')) :
    Cut k sent Stops (ask card r data failed made) (ask card' r data failed made') := by
  have hsent : r.sent ++ [data] <+: sent (ask card r data failed made) := ask_sent sent hf hm
  rcases echo_cases he hk (hsent.trans hp) with ⟨hle, hsame⟩ | ⟨hlen, hnone⟩
  · simp only [ask, exchange] at hp ⊢
    rw [hsame]
    cases hc : card (r.sent ++ [data]) with
    | none => exact Or.inl ⟨rfl, by rw [hf]; exact hle⟩
    | some rx =>
      rw [hc] at hp
      exact hmade rx _ hle hp
  · refine Cut.ends hlen hsent ?_ ?_
    · simp only [ask, exchange, hnone, hf]
    · simp only [ask, exchange, hnone]
      exact hs _

end Ask

/-! ## The functions of the reader -/

theorem selectApplication_eq (C : Core σ) (card : Card) (r : DfcReader σ) (aid : Octets) :
    selectApplication C card r aid = ask card r (C.buildSelectApplicationFrame aid) (fun r' => (.commandStop, r'))
      fun rx r' => if rx.length < 1 ∨ rx.headD 0 ≠ statusOk then (.commandStop, r') else (.commandContinue, r') := rfl

theorem selectApplication_cut (he : Echoes k frames card card') (hk : r.sent.length ≤ k) {aid : Octets}
    (hp : (selectApplication C card r aid).2.sent <+: frames) :
    Cut k (fun x => x.2.sent) (fun x => x.1 = .commandStop) (selectApplication C card r aid)
      (selectApplication C card' r aid) := by
  rw [selectApplication_eq] at hp
  rw [selectApplication_eq, selectApplication_eq]
  refine ask_cut (fun x : NfcCommand × DfcReader σ => x.2.sent) he hk (fun _ => rfl) (fun _ => rfl) (fun rx r' => ?_) hp
    fun rx r' hle _ => Or.inl ⟨rfl, ?_⟩
  · split <;> exact List.prefix_rfl
  · split <;> exact hle

/-- The second exchange of an authentication, and the session it opens. -/
def proves (C : Core σ) (card : Card) (rndA key rx : Octets) (cipher : UInt8) (r : DfcReader σ) : NfcCommand × DfcReader σ :=
  let blockSize := C.blockSizeForCipher cipher
  let encRndB := (rx.drop 1).take blockSize
  let rndB := (cbcDecrypt C cipher key (zeros blockSize) encRndB).1
  let iv := if cipher = cmdAuthenticateLegacy then zeros blockSize else encRndB
  let encrypted := cbcEncrypt C cipher key iv (rndA ++ C.rotateLeft rndB)
  ask card r (cmdAdditionalFrame :: encrypted.1) (fun r' => (.commandStop, r')) fun ry r' =>
    if ry.length < 1 + blockSize ∨ ry.headD 0 ≠ statusOk then (.commandStop, r')
    else
      let encRndARot := (ry.drop 1).take blockSize
      let iv := if cipher = cmdAuthenticateLegacy then zeros blockSize else encrypted.2
      let rndARot := cbcDecrypt C cipher key iv encRndARot
      if rndARot.1 ≠ C.rotateLeft rndA then (.commandStop, r')
      else
        let sessionKey := C.deriveSessionKey cipher key rndA rndB
        let initialIv := if cipher = cmdAuthenticateLegacy then none else some rndARot.2
        match C.secureMessagingAlloc cipher sessionKey initialIv with
        | none => (.commandStop, ⟨r'.credential, none, r'.sent⟩)
        | some sm => (.commandContinue, ⟨r'.credential, some (C.asPcd sm), r'.sent⟩)

/-- An authentication with a key is two exchanges. -/
theorem authenticate_eq (card : Card) (random : Nat → Octets) {keyNo : UInt8} (cipher : UInt8) {app : Application} {key : Octets}
    (happ : r.credential.application = some app) (hnum : keyNo.toNat < app.numKeys) (hkey : app.key keyNo.toNat = some key) :
    authenticate C card random r keyNo cipher = ask card r [cipher, keyNo] (fun r' => (.commandStop, r')) fun rx r' =>
      if rx.length < 1 + C.blockSizeForCipher cipher ∨ rx.headD 0 ≠ cmdAdditionalFrame then (.commandStop, r')
      else proves C card (random (C.blockSizeForCipher cipher)) key rx cipher r' := by
  simp only [authenticate, happ, if_neg (Nat.not_le.mpr hnum), hkey]
  rfl

theorem proves_sent (rndA key rx : Octets) (cipher : UInt8) : r.sent <+: (proves C card rndA key rx cipher r).2.sent := by
  simp only [proves]
  refine (List.prefix_append r.sent [_]).trans (ask_sent (fun x : NfcCommand × DfcReader σ => x.2.sent) (fun _ => rfl) ?_)
  intro ry r'
  repeat' split
  all_goals exact List.prefix_rfl

theorem proves_cut (he : Echoes k frames card card') (hk : r.sent.length ≤ k) {rndA key rx : Octets} {cipher : UInt8}
    (hp : (proves C card rndA key rx cipher r).2.sent <+: frames) :
    Cut k (fun x => x.2.sent) (fun x => x.1 = .commandStop) (proves C card rndA key rx cipher r)
      (proves C card' rndA key rx cipher r) := by
  simp only [proves] at hp ⊢
  refine ask_cut (fun x : NfcCommand × DfcReader σ => x.2.sent) he hk (fun _ => rfl) (fun _ => rfl) (fun ry r' => ?_) hp
    fun ry r' hle _ => Or.inl ⟨rfl, ?_⟩
  · repeat' split
    all_goals exact List.prefix_rfl
  · repeat' split
    all_goals exact hle

/-- Without a key nothing is sent. -/
theorem authenticate_keyless (card : Card) (random : Nat → Octets) {keyNo : UInt8} (cipher : UInt8)
    (h : ∀ app key, r.credential.application = some app → keyNo.toNat < app.numKeys → app.key keyNo.toNat ≠ some key) :
    authenticate C card random r keyNo cipher = (.commandStop, r) := by
  simp only [authenticate]
  split
  · rfl
  rename_i app happ
  split
  · rfl
  rename_i hnum
  split
  · rfl
  rename_i key hkey
  exact absurd hkey (h app key happ (Nat.not_le.mp hnum))

theorem authenticate_cut (he : Echoes k frames card card') (hk : r.sent.length ≤ k) {random : Nat → Octets}
    {keyNo cipher : UInt8} (hp : (authenticate C card random r keyNo cipher).2.sent <+: frames) :
    Cut k (fun x => x.2.sent) (fun x => x.1 = .commandStop) (authenticate C card random r keyNo cipher)
      (authenticate C card' random r keyNo cipher) := by
  by_cases hkeyed : ∃ app key, r.credential.application = some app ∧ keyNo.toNat < app.numKeys ∧ app.key keyNo.toNat = some key
  · obtain ⟨app, key, happ, hnum, hkey⟩ := hkeyed
    rw [authenticate_eq card random cipher happ hnum hkey] at hp
    rw [authenticate_eq card random cipher happ hnum hkey, authenticate_eq card' random cipher happ hnum hkey]
    refine ask_cut (fun x : NfcCommand × DfcReader σ => x.2.sent) he hk (fun _ => rfl) (fun _ => rfl) (fun rx r' => ?_) hp
      fun rx r' hle hp' => ?_
    · split
      · exact List.prefix_rfl
      · exact proves_sent ..
    · split
      · exact Or.inl ⟨rfl, hle⟩
      · rename_i hgood
        rw [if_neg hgood] at hp'
        exact proves_cut he hle hp'
  · have hno : ∀ app key, r.credential.application = some app → keyNo.toNat < app.numKeys → app.key keyNo.toNat ≠ some key :=
      fun app key happ hnum hkey => hkeyed ⟨app, key, happ, hnum, hkey⟩
    rw [authenticate_keyless card random cipher hno, authenticate_keyless card' random cipher hno]
    exact Or.inl ⟨rfl, hk⟩

/-- What `fetch` makes of the answer. -/
def takes (C : Core σ) (file : DfcFile) (ev1 : Bool) (sm : σ) (rx : Octets) (r : DfcReader σ) : Option Octets × DfcReader σ :=
  if rx.length < 1 then (none, r)
  else
    let status := rx.headD 0
    if status ≠ statusOk then (none, r)
    else
      let wrapped := rx.drop 1
      if ev1 then
        let u := C.unwrapEv1Response sm status wrapped
        let r : DfcReader σ := ⟨r.credential, some u.1, r.sent⟩
        match u.2 with
        | none => (none, r)
        | some plain => if plain.length > C.maxFileData then (none, r) else (some plain, r)
      else
        let u := C.unwrap sm file.commSettings status wrapped
        let r : DfcReader σ := ⟨r.credential, some u.1, r.sent⟩
        if u.2.length = 0 ∧ wrapped.length > 0 ∧ file.commSettings ≠ .plain then (none, r)
        else if u.2.length > C.maxFileData then (none, r)
        else (some u.2, r)

theorem takes_sent (file : DfcFile) (ev1 : Bool) (sm : σ) (rx : Octets) : (takes C file ev1 sm rx r).2.sent = r.sent := by
  simp only [takes]
  repeat' split
  all_goals rfl

theorem fetch_eq (card : Card) (file : DfcFile) {sm : σ} (hsm : r.secureMessaging = some sm) :
    fetch C card r file =
      let frame := C.buildReadDataFrame file.number 0 0
      let ev1 := C.appliesEv1 sm cmdReadData
      let sm := if ev1 then C.updateEv1Command sm cmdReadData (frame.drop 1) else sm
      ask card ⟨r.credential, some sm, r.sent⟩ frame (fun r' => (none, r')) (takes C file ev1 sm) := by
  simp only [fetch, hsm]
  rfl

theorem fetch_cut (he : Echoes k frames card card') (hk : r.sent.length ≤ k) {file : DfcFile}
    (hp : (fetch C card r file).2.sent <+: frames) :
    Cut k (fun x => x.2.sent) (fun x => x.1 = none) (fetch C card r file) (fetch C card' r file) := by
  cases hsm : r.secureMessaging with
  | none =>
    simp only [fetch, hsm]
    exact Or.inl ⟨rfl, hk⟩
  | some sm =>
    rw [fetch_eq card file hsm] at hp
    rw [fetch_eq card file hsm, fetch_eq card' file hsm]
    refine ask_cut (fun x : Option Octets × DfcReader σ => x.2.sent) he hk (fun _ => rfl) (fun _ => rfl) (fun rx r' => ?_)
      hp fun rx r' hle _ => Or.inl ⟨rfl, ?_⟩
    · exact ⟨[], by rw [List.append_nil, takes_sent]⟩
    · simp only [takes_sent]
      exact hle

theorem readFile_sent_eq (card : Card) (file : DfcFile) (i : Nat) :
    (readFile C card r file i).2.sent = (fetch C card r file).2.sent := by
  simp only [readFile]
  split <;> rfl

theorem readFile_cut (he : Echoes k frames card card') (hk : r.sent.length ≤ k) {file : DfcFile} {i : Nat}
    (hp : (readFile C card r file i).2.sent <+: frames) :
    Cut k (fun x => x.2.sent) (fun x => x.1 = .commandStop) (readFile C card r file i) (readFile C card' r file i) := by
  rw [readFile_sent_eq] at hp
  rcases fetch_cut he hk hp with ⟨hsame, hle⟩ | ⟨hlt, hsent, hnone⟩
  · refine Or.inl ⟨by simp only [readFile, hsame], ?_⟩
    simp only [readFile_sent_eq]
    exact hle
  · refine Or.inr ⟨?_, ?_, ?_⟩
    · simp only [readFile_sent_eq]
      exact hlt
    · simp only [readFile_sent_eq]
      exact hsent
    · simp only [readFile, hnone]

theorem readFile_grows (card : Card) (file : DfcFile) (i : Nat) : r.sent <+: (readFile C card r file i).2.sent := by
  rw [readFile_sent_eq]
  cases hsm : r.secureMessaging with
  | none =>
    simp only [fetch, hsm]
    exact List.prefix_rfl
  | some sm =>
    rw [(fetch_sent (by rw [hsm]; exact Option.some_ne_none _) file).1]
    exact List.prefix_append _ _

theorem readFiles_grows (card : Card) (files : List (DfcFile × Nat)) :
    ∀ (r : DfcReader σ) (ret : NfcCommand), r.sent <+: (readFiles C card ret r files).reader.sent := by
  induction files with
  | nil => exact fun r _ => List.prefix_rfl
  | cons entry rest ih =>
    intro r ret
    obtain ⟨file, i⟩ := entry
    simp only [readFiles]
    split
    · exact ih r ret
    split
    · exact readFile_grows card file i
    · exact (readFile_grows card file i).trans (ih _ _)

theorem readFiles_cut (he : Echoes k frames card card') (files : List (DfcFile × Nat)) :
    ∀ (r : DfcReader σ) (ret : NfcCommand), r.sent.length ≤ k → (readFiles C card ret r files).reader.sent <+: frames →
      Cut k (fun x => x.reader.sent) (fun x => x.ok = false ∧ x.ret = .commandStop)
        (readFiles C card ret r files) (readFiles C card' ret r files) := by
  induction files with
  | nil => exact fun r _ hk _ => Or.inl ⟨rfl, hk⟩
  | cons entry rest ih =>
    intro r ret hk hp
    obtain ⟨file, i⟩ := entry
    by_cases ha : file.appIndex ≠ 0
    · simp only [readFiles, if_pos ha] at hp ⊢
      exact ih r ret hk hp
    · have hfile : (readFile C card r file i).2.sent <+: (readFiles C card ret r ((file, i) :: rest)).reader.sent := by
        simp only [readFiles, if_neg ha]
        split
        · exact List.prefix_rfl
        · exact readFiles_grows card rest _ _
      rcases readFile_cut he hk (hfile.trans hp) with ⟨hsame, hle⟩ | ⟨hlt, hsent, hstop⟩
      · simp only [readFiles, if_neg ha] at hp ⊢
        rw [hsame]
        split
        · exact Or.inl ⟨rfl, hle⟩
        · rename_i hgo
          rw [if_neg hgo] at hp
          exact ih _ _ hle hp
      · refine Cut.later hlt hfile ?_ ?_
        · simp only [readFiles, if_neg ha, hstop, if_true]
          exact hsent
        · simp only [readFiles, if_neg ha, hstop, if_true, and_self]

theorem authenticate_grows (card : Card) (random : Nat → Octets) (keyNo cipher : UInt8) :
    r.sent <+: (authenticate C card random r keyNo cipher).2.sent := by
  have h := authenticate_sent C card random r keyNo cipher
  generalize (authenticate C card random r keyNo cipher).1 = command, (authenticate C card random r keyNo cipher).2.sent = sent
    at h ⊢
  cases h with
  | keyless => exact List.prefix_rfl
  | first => exact List.prefix_append _ _
  | second _ _ _ => exact (List.prefix_append _ _).trans (List.prefix_append _ _)
  | done _ _ _ _ _ => exact (List.prefix_append _ _).trans (List.prefix_append _ _)

/-- A session with a card that stops answering is the session with the card, or ends behind the first frame that is
not answered. -/
theorem session_cut {d : Device} (he : Echoes k frames card card') (hk : r.sent.length ≤ k)
    (hp : (session C card d r).reader.sent <+: frames) :
    Cut k (fun x => x.reader.sent) (fun x => x.ret = .commandStop ∧ x.posts = []) (session C card d r)
       (session C card' d r) := by
  cases happ : r.credential.application with
  | none =>
    simp only [session, happ]
    exact Or.inl ⟨rfl, hk⟩
  | some app =>
  have hselect : (selectApplication C card r app.aid).2.sent <+: (session C card d r).reader.sent := by
    have hauth := authenticate_grows (C := C) (r := (selectApplication C card r app.aid).2) card d.random 0 app.authCommand
    simp only [session, happ]
    split
    · exact List.prefix_rfl
    split
    · exact hauth
    split
    · exact hauth.trans (readFiles_grows card _ _ _)
    · exact hauth.trans (readFiles_grows card _ _ _)
  rcases (selectApplication_cut he hk (hselect.trans hp)).symm with ⟨hlt, hsent, hstop⟩ | ⟨hsame, hle⟩
  · refine Cut.later hlt hselect ?_ ?_
    · simp only [session, happ, hstop, if_true]
      exact hsent
    · simp only [session, happ, hstop, if_true, and_self]
  by_cases hgo : (selectApplication C card r app.aid).1 = .commandStop
  · simp only [session, happ, hsame, hgo, if_true]
    exact Or.inl ⟨rfl, hle⟩
  have hauth : (authenticate C card d.random (selectApplication C card r app.aid).2 0 app.authCommand).2.sent <+:
      (session C card d r).reader.sent := by
    simp only [session, happ, if_neg hgo]
    split
    · exact List.prefix_rfl
    split
    · exact readFiles_grows card _ _ _
    · exact readFiles_grows card _ _ _
  rcases (authenticate_cut he hle (hauth.trans hp)).symm with ⟨hlt, hsent, hstop⟩ | ⟨hsame', hle'⟩
  · refine Cut.later hlt hauth ?_ ?_
    · simp only [session, happ, hsame, if_neg hgo, hstop, if_true]
      exact hsent
    · simp only [session, happ, hsame, if_neg hgo, hstop, if_true, and_self]
  generalize hx : authenticate C card d.random (selectApplication C card r app.aid).2 0 app.authCommand = x at *
  by_cases hgo' : x.1 = .commandStop
  · simp only [session, happ, hsame, if_neg hgo, hsame', hx, hgo', if_true]
    exact Or.inl ⟨rfl, hle'⟩
  have hfiles : (readFiles C card x.1 x.2 x.2.credential.files.zipIdx).reader.sent <+: (session C card d r).reader.sent := by
    simp only [session, happ, if_neg hgo, hx, if_neg hgo']
    split <;> exact List.prefix_rfl
  rcases (readFiles_cut he _ _ _ hle' (hfiles.trans hp)).symm with ⟨hlt, hsent, hstop, hret⟩ | ⟨hsame'', hle''⟩
  · refine Cut.later hlt hfiles ?_ ?_
    · simp only [session, happ, hsame, if_neg hgo, hsame', if_neg hgo', hstop, if_true]
      exact hsent
    · simp only [session, happ, hsame, if_neg hgo, hsame', if_neg hgo', hstop, if_true, hret, and_self]
  · refine Or.inl ⟨?_, ?_⟩
    · simp only [session, happ, hsame, if_neg hgo, hsame', hx, if_neg hgo', hsame'']
    · simp only [session, happ, if_neg hgo, hx, if_neg hgo']
      split <;> exact hle''

/-! ## The emulator as the card -/

section Emulator

variable {L : Limits} {τ ρ : Type} {E : Engine L τ} {T : Transport ρ τ} {Between : ρ → Prop}

/-- Asked as many of these frames as one likes, the engine answers the last as the card does. -/
def Plays (E : Engine L τ) (st : τ) (card : Card) (frames : List Octets) : Prop :=
  ∀ before, before <+: frames → before ≠ [] → engineCard E st before = card before

/-- A session with a card that the engine plays is had over the transport as well, or it is cut off at a failure. -/
theorem session_carried (hT : T.Carries E k Between) {d : Device} {s : ρ} (hs : Between s)
    (hplays : Plays E (T.engine s) card (session C card d r).reader.sent) (hr : r.sent = [])
    (hsend : Sendable L (session C card d r).reader.sent) (hroom : Roomy E k (T.engine s) (session C card d r).reader.sent) :
    let sent := (session C card d r).reader.sent
    let all := outcomes E (T.engine s) sent
    (session C (T.card s) d r = session C card d r ∧ T.Did s (T.after s sent) all) ∨
    ∃ n < sent.length, T.card s (sent.take (n + 1)) = none ∧
      (session C (T.card s) d r).reader.sent = sent.take (n + 1) ∧ (session C (T.card s) d r).ret = .commandStop ∧
      (session C (T.card s) d r).posts = [] ∧
      (T.Did s (T.after s (sent.take (n + 1))) (all.take n) ∨ T.Did s (T.after s (sent.take (n + 1))) (all.take (n + 1))) := by
  intro sent all
  obtain ⟨n, _, hengine, hdone, hnext⟩ := carried hT sent s hs hsend hroom
  have hecho : Echoes n sent card (T.card s) := fun before hp hne hlen => by rw [hengine before hp hne hlen, hplays before hp hne]
  rcases session_cut (C := C) (d := d) hecho (by rw [hr]; exact Nat.zero_le n) List.prefix_rfl with
    ⟨hsame, hle⟩ | ⟨hlt, hsent, hret, hposts⟩
  · refine Or.inl ⟨hsame, ?_⟩
    have hlen : all.length ≤ n := by
      rw [length_outcomes]
      exact hle
    rwa [List.take_of_length_le hle, List.take_of_length_le hlen] at hdone
  · refine Or.inr ⟨n, hlt, ?_, hsent, hret, hposts, hnext⟩
    have hlen : (sent.take (n + 1)).length = n + 1 := by
      rw [List.length_take]
      exact Nat.min_eq_left hlt
    have hnone := hecho _ (List.take_prefix (n + 1) _) (List.ne_nil_of_length_pos (by omega)) (Nat.le_of_eq hlen)
    rwa [if_neg (by omega)] at hnone

def directFrames (C : Core σ) (E : Engine L τ) (st : τ) (d : Device) (c : Credential) : List Octets :=
  (session C (engineCard E st) d ⟨c, none, []⟩).reader.sent

end Emulator

/-! ## An emulator that answers a read -/

def answering (replies : List Octets) : Engine smallLimits Nat where
  handleIso7816Select st _ tx _ := ⟨false, false, tx, st⟩
  handleCommand st _ tx := ⟨true, [], tx.appendBytes (replies.getD st []), st + 1⟩
  wrapNativeResponseAsIso7816 := piccEngine.wrapNativeResponseAsIso7816
  resetActivation _ := 0

theorem answering_keepsPrefix (replies : List Octets) : (answering replies).KeepsPrefix :=
  appending_keepsPrefix (fun st _ => (st + 1, replies.getD st [])) 0

theorem answering_prefixBlind (replies : List Octets) : (answering replies).PrefixBlind :=
  appending_prefixBlind (fun st _ => (st + 1, replies.getD st [])) 0

/-- A card with two files of one frame each, to the reader of `zeroCard`. -/
def twoReplies : List Octets :=
  [[statusOk], cmdAdditionalFrame :: zeros 8, statusOk :: zeros 8, [statusOk, 1, 2, 3], [statusOk, 9]]

/-- The selection, the authentication and two reads. -/
def twoFrames : List Octets :=
  [[0x5A, 1, 2, 3], [cmdAuthenticateIso, 0], cmdAdditionalFrame :: zeros 16, [cmdReadData, 1, 0, 0, 0, 0, 0, 0],
    [cmdReadData, 2, 0, 0, 0, 0, 0, 0]]

theorem directFrames_two : directFrames plainCore (answering twoReplies) 0 (reads (zeros 7)) zeroCard = twoFrames := by
  decide +kernel

def facing (losses : Nat → List Loss) : Radio smallLimits Nat := ⟨false, listenerInit smallLimits 0, losses, []⟩

/-- The answer to the selection is lost, then the first frame of the authentication. -/
def unlucky : Nat → List Loss := fun i =>
  (if i = 0 then [⟨false, true⟩] else if i = 1 then [⟨true, false⟩] else []) ++ List.replicate 260 clear

/-- The proof is lost twice, and the reader gives up. -/
def givenUp : Nat → List Loss := fun i => if i = 2 then [⟨true, false⟩, ⟨true, false⟩] else [clear]

theorem twoFrames_sendable : Sendable smallLimits twoFrames :=
  show ∀ cmd ∈ twoFrames, cmd ≠ [] ∧ cmd.length ≤ 128 by decide

theorem twoFrames_roomy : Roomy (answering twoReplies) 1 0 twoFrames :=
  ⟨show 1 + 1 ≤ 256 by decide, show 1 + 9 ≤ 256 by decide, show 1 + 9 ≤ 256 by decide, show 1 + 4 ≤ 256 by decide,
    show 1 + 2 ≤ 256 by decide, trivial⟩

def readLosing (losses : Nat → List Loss) : Session Unit :=
  session plainCore ((client (answering twoReplies) none).card (facing losses)) (reads (zeros 7)) ⟨zeroCard, none, []⟩

/-- That read succeeds, and both files are stored. -/
example : let direct := session plainCore (engineCard (answering twoReplies) 0) (reads (zeros 7)) ⟨zeroCard, none, []⟩
    direct.posts = [.pollerSuccess] ∧ direct.reader.credential.pool 0 = [1, 2, 3] ∧ direct.reader.credential.pool 1 = [9] := by
  decide +kernel

end DfcFlipper.Reader
