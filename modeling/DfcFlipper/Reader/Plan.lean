/-
  DfcFlipper.Reader.Plan — which frames a Ready event sends, whatever the card answers
  (dfc_state_machine and what it calls in dfc_reader.c).

  The selection, two frames of the authentication, then one ReadData for each file of
  application 0, in the order of the credential; each behind an answer to the last that is
  what the reader waits for (`Heeded`): AdditionalFrame to the first frame of the
  authentication, OK to all others.

  `frames_planned`: the reader never departs from that, sends all of it when it reports
  success, and asks for no file before a session is open.
-/

import DfcFlipper.Reader.Poller

namespace DfcFlipper.Reader

open DfcFlipper.Lib.Bytes

variable {σ : Type} {C : Core σ} {card : Card} {r r' : DfcReader σ}

/-! ## Frames and answers -/

def awaited : Nat → UInt8
  | 2 => cmdAdditionalFrame
  | _ => statusOk

def Granted (card : Card) (sent : List Octets) : Prop := ∃ rest, card sent = some (awaited sent.length :: rest)

/-- Every frame but the last was granted before the next was sent. -/
def Heeded (card : Card) (sent : List Octets) : Prop :=
  ∀ before, before <+: sent → before ≠ [] → before ≠ sent → Granted card before

/-- Nothing is outstanding. -/
structure Free (card : Card) (sent : List Octets) : Prop where
  heeded : Heeded card sent
  last : sent ≠ [] → Granted card sent

theorem Free.nil : Free card [] := by
  refine ⟨fun before hb hne _ => ?_, fun h => absurd rfl h⟩
  exact absurd (List.prefix_nil.mp hb) hne

theorem Free.snoc {sent : List Octets} (h : Free card sent) (frame : Octets) : Heeded card (sent ++ [frame]) := by
  intro before hb hne hs
  rcases List.prefix_concat_iff.mp hb with he | hb
  · exact absurd he hs
  · by_cases hw : before = sent
    · rw [hw] at hne ⊢
      exact h.last hne
    · exact h.heeded before hb hne hw

theorem Free.granted {sent : List Octets} (h : Free card sent) {frame : Octets} (hg : Granted card (sent ++ [frame])) :
    Free card (sent ++ [frame]) := ⟨h.snoc frame, fun _ => hg⟩

theorem awaited_ok {m : Nat} (h : m ≠ 2) : awaited m = statusOk := by
  unfold awaited
  split
  · exact absurd rfl h
  · rfl

theorem head_cons {rx : Octets} {status : UInt8} (hl : ¬rx.length < 1) (hs : rx.headD 0 = status) : ∃ rest, rx = status :: rest := by
  cases rx with
  | nil => exact absurd Nat.zero_lt_one hl
  | cons b rest => exact ⟨rest, by rw [← hs]; rfl⟩

def readFrames (C : Core σ) (files : List (DfcFile × Nat)) : List Octets :=
  (files.filter fun entry => entry.1.appIndex = 0).map fun entry => C.buildReadDataFrame entry.1.number 0 0

def plan (C : Core σ) (app : Application) (proof : Octets) (files : List DfcFile) : List Octets :=
  C.buildSelectApplicationFrame app.aid :: [app.authCommand, 0] :: (cmdAdditionalFrame :: proof) :: readFrames C files.zipIdx

/-! ## What each function sends -/

theorem selectApplication_sent (C : Core σ) (card : Card) (r : DfcReader σ) (aid : Octets) :
    (selectApplication C card r aid).2.sent = r.sent ++ [C.buildSelectApplicationFrame aid] ∧
      ((selectApplication C card r aid).1 = .commandContinue →
        ∃ rest, card (r.sent ++ [C.buildSelectApplicationFrame aid]) = some (statusOk :: rest)) := by
  simp only [selectApplication, exchange]
  split
  · exact ⟨rfl, fun h => (by cases h)⟩
  · rename_i rx hrx
    split
    · exact ⟨rfl, fun h => (by cases h)⟩
    · rename_i hgood
      obtain ⟨hl, hs⟩ := not_or.mp hgood
      obtain ⟨rest, rfl⟩ := head_cons hl (not_not.mp hs)
      exact ⟨rfl, fun _ => ⟨rest, hrx⟩⟩

/-- How far the authentication goes: no key, a first frame that is not granted, or both. -/
inductive Authenticates (card : Card) (sent : List Octets) (first : Octets) : NfcCommand → List Octets → Prop
  | keyless : Authenticates card sent first .commandStop sent
  | first : Authenticates card sent first .commandStop (sent ++ [first])
  | second (proof rest : Octets) : card (sent ++ [first]) = some (cmdAdditionalFrame :: rest) →
      Authenticates card sent first .commandStop (sent ++ [first] ++ [cmdAdditionalFrame :: proof])
  | done (proof rest rest' : Octets) : card (sent ++ [first]) = some (cmdAdditionalFrame :: rest) →
      card (sent ++ [first] ++ [cmdAdditionalFrame :: proof]) = some (statusOk :: rest') →
      Authenticates card sent first .commandContinue (sent ++ [first] ++ [cmdAdditionalFrame :: proof])

theorem long_cons {rx : Octets} {status : UInt8} {size : Nat} (h : ¬(rx.length < 1 + size ∨ rx.headD 0 ≠ status)) :
    ∃ rest, rx = status :: rest := by
  obtain ⟨hl, hs⟩ := not_or.mp h
  exact head_cons (by omega) (not_not.mp hs)

theorem authenticate_sent (C : Core σ) (card : Card) (random : Nat → Octets) (r : DfcReader σ) (keyNo cipher : UInt8) :
    Authenticates card r.sent [cipher, keyNo] (authenticate C card random r keyNo cipher).1
      (authenticate C card random r keyNo cipher).2.sent := by
  simp only [authenticate, exchange]
  split
  · exact .keyless
  split
  · exact .keyless
  split
  · exact .keyless
  split
  · exact .first
  rename_i rx h₁
  split
  · exact .first
  rename_i hgood
  obtain ⟨rest, rfl⟩ := long_cons hgood
  generalize cbcEncrypt C cipher _ _ _ = encrypted
  split
  · exact .second _ rest h₁
  rename_i ry h₂
  split
  · exact .second _ rest h₁
  rename_i hgood'
  obtain ⟨rest', rfl⟩ := long_cons hgood'
  generalize C.secureMessagingAlloc cipher _ _ = session
  generalize (cbcDecrypt C cipher _ _ ((statusOk :: rest').drop 1 |>.take _)).1 = decrypted
  split
  · exact .second _ rest h₁
  split
  · exact .second _ rest h₁
  · exact .done _ rest rest' h₁ h₂

theorem authenticate_session {C : Core σ} {random : Nat → Octets} {keyNo cipher : UInt8}
    (h : authenticate C card random r keyNo cipher = (.commandContinue, r')) : r'.secureMessaging ≠ none := by
  simp only [authenticate] at h
  repeat' split at h
  all_goals first
    | cases h; done
    | rw [← (Prod.mk.inj h).2]; exact Option.some_ne_none _

/-- One frame for a file, in the session; what is fetched was granted. -/
theorem fetch_sent (hs : r.secureMessaging ≠ none) (file : DfcFile) :
    (fetch C card r file).2.sent = r.sent ++ [C.buildReadDataFrame file.number 0 0] ∧
      (fetch C card r file).2.secureMessaging ≠ none ∧
      ((fetch C card r file).1 ≠ none → ∃ rest, card (r.sent ++ [C.buildReadDataFrame file.number 0 0]) =
        some (statusOk :: rest)) := by
  cases hsm : r.secureMessaging with
  | none => exact absurd hsm hs
  | some sm =>
    simp only [fetch, hsm, exchange]
    generalize (if C.appliesEv1 sm cmdReadData = true then _ else sm) = sm'
    split
    · exact ⟨rfl, Option.some_ne_none _, fun h => absurd rfl h⟩
    rename_i rx hrx
    split
    · exact ⟨rfl, Option.some_ne_none _, fun h => absurd rfl h⟩
    rename_i hl
    split
    · exact ⟨rfl, Option.some_ne_none _, fun h => absurd rfl h⟩
    rename_i hok
    obtain ⟨rest, rfl⟩ := head_cons hl (not_not.mp hok)
    repeat' split
    all_goals exact ⟨rfl, Option.some_ne_none _, fun _ => ⟨rest, hrx⟩⟩

theorem readFile_sent (hs : r.secureMessaging ≠ none) (file : DfcFile) (i : Nat) :
    (readFile C card r file i).2.sent = r.sent ++ [C.buildReadDataFrame file.number 0 0] ∧
      (readFile C card r file i).2.secureMessaging ≠ none ∧
      ((readFile C card r file i).1 = .commandContinue → ∃ rest, card (r.sent ++ [C.buildReadDataFrame file.number 0 0]) =
        some (statusOk :: rest)) := by
  obtain ⟨hsent, hsm, hgranted⟩ := fetch_sent hs file
  simp only [readFile]
  split
  · exact ⟨hsent, hsm, fun h => (by cases h)⟩
  · rename_i plain hf
    exact ⟨hsent, hsm, fun _ => hgranted (by rw [hf]; exact Option.some_ne_none _)⟩

theorem readFrames_read {file : DfcFile} (ha : file.appIndex = 0) (i : Nat) (rest : List (DfcFile × Nat)) :
    readFrames C ((file, i) :: rest) = C.buildReadDataFrame file.number 0 0 :: readFrames C rest := by
  simp [readFrames, ha]

theorem readFrames_other {file : DfcFile} (ha : file.appIndex ≠ 0) (i : Nat) (rest : List (DfcFile × Nat)) :
    readFrames C ((file, i) :: rest) = readFrames C rest := by
  simp [readFrames, ha]

/-- The loop asks for the files in order, up to the first that fails. -/
theorem readFiles_sent (files : List (DfcFile × Nat)) : ∀ (r : DfcReader σ) (ret : NfcCommand), r.secureMessaging ≠ none →
    Free card r.sent → 3 ≤ r.sent.length → ∃ frames, (readFiles C card ret r files).reader.sent = r.sent ++ frames ∧
      frames <+: readFrames C files ∧ Heeded card (r.sent ++ frames) ∧
      ((readFiles C card ret r files).ok = true → frames = readFrames C files ∧ Free card (r.sent ++ frames)) := by
  induction files with
  | nil =>
    intro r ret _ hfree _
    refine ⟨[], (List.append_nil _).symm, List.nil_prefix, ?_, fun _ => ⟨rfl, ?_⟩⟩
    · rw [List.append_nil]; exact hfree.heeded
    · rw [List.append_nil]; exact hfree
  | cons entry rest ih =>
    intro r ret hs hfree hlen
    obtain ⟨file, i⟩ := entry
    by_cases ha : file.appIndex = 0
    · obtain ⟨hsent, hsm, hgranted⟩ := readFile_sent hs file i
      rw [readFrames_read ha]
      cases hx : (readFile C card r file i).1 with
      | commandStop =>
        have he : readFiles C card ret r ((file, i) :: rest) = ⟨false, .commandStop, (readFile C card r file i).2⟩ := by
          simp [readFiles, ha, hx]
        rw [he]
        refine ⟨[C.buildReadDataFrame file.number 0 0], hsent, ?_, hfree.snoc _, fun h => (by cases h)⟩
        exact List.cons_prefix_cons.mpr ⟨rfl, List.nil_prefix⟩
      | commandContinue =>
        have he : readFiles C card ret r ((file, i) :: rest) =
            readFiles C card .commandContinue (readFile C card r file i).2 rest := by simp [readFiles, ha, hx]
        rw [he]
        obtain ⟨answer, hanswer⟩ := hgranted hx
        have hlen' : (r.sent ++ [C.buildReadDataFrame file.number 0 0]).length ≠ 2 := by
          rw [List.length_append, List.length_singleton]; omega
        have hfree' : Free card (readFile C card r file i).2.sent := by
          rw [hsent]
          exact hfree.granted ⟨answer, by rw [awaited_ok hlen']; exact hanswer⟩
        have hmore : 3 ≤ (readFile C card r file i).2.sent.length := by
          rw [hsent, List.length_append]; omega
        obtain ⟨frames, hall, hprefix, hheeded, hdone⟩ := ih (readFile C card r file i).2 .commandContinue hsm hfree' hmore
        rw [hsent, List.append_assoc] at hall hheeded hdone
        refine ⟨_ :: frames, hall, List.cons_prefix_cons.mpr ⟨rfl, hprefix⟩, hheeded, fun h => ?_⟩
        obtain ⟨rfl, hf⟩ := hdone h
        exact ⟨rfl, hf⟩
    · have he : readFiles C card ret r ((file, i) :: rest) = readFiles C card ret r rest := by simp [readFiles, ha]
      rw [he, readFrames_other ha]
      exact ih r ret hs hfree hlen

/-! ## The whole read -/

section Whole

variable {d : Device} {c : Credential} {x : Session σ} {app : Application}

def Planned (C : Core σ) (card : Card) (d : Device) (c : Credential) (x : Session σ) : Prop :=
  Heeded card x.reader.sent ∧
  (x.reader.sent ≠ [] → ∃ app proof, c.application = some app ∧ x.reader.sent <+: plan C app proof c.files ∧
    (3 < x.reader.sent.length → ∃ r, Opens C card d c r ∧ r.sent = x.reader.sent.take 3) ∧
    (x.posts = [.pollerSuccess] → x.reader.sent = plan C app proof c.files ∧ Granted card x.reader.sent))

/-- A read that ends before a session is open. -/
theorem planned_early {sent : List Octets} {r : DfcReader σ} {ret : NfcCommand} (happ : c.application = some app) (proof : Octets)
    (hx : x = ⟨ret, [], r⟩) (hr : r.sent = sent) (hh : Heeded card sent) (hp : sent <+: plan C app proof c.files)
    (hle : sent.length ≤ 3) : Planned C card d c x := by
  subst hx hr
  exact ⟨hh, fun _ => ⟨app, proof, happ, hp, fun hlt => absurd hlt (by simp only; omega), fun h => (by cases h)⟩⟩

/-- The files, in the session the first three frames have opened. -/
theorem planned_open {c₂ : Credential} {sm : Option σ} {proof : Octets} (happ : c.application = some app)
    (hopen : Opens C card d c ⟨c₂, sm, [C.buildSelectApplicationFrame app.aid, [app.authCommand, 0], cmdAdditionalFrame :: proof]⟩)
    (hsm : sm ≠ none)
    (hfree : Free card [C.buildSelectApplicationFrame app.aid, [app.authCommand, 0], cmdAdditionalFrame :: proof])
    (hx : x =
      let f := readFiles C card .commandContinue
        ⟨c₂, sm, [C.buildSelectApplicationFrame app.aid, [app.authCommand, 0], cmdAdditionalFrame :: proof]⟩ c₂.files.zipIdx
      if f.ok = false then ⟨f.ret, [], f.reader⟩ else ⟨f.ret, [.pollerSuccess], f.reader⟩) : Planned C card d c x := by
  obtain rfl : c₂ = c := hopen.credential
  obtain ⟨frames, hall, hprefix, hheeded, hdone⟩ := readFiles_sent (C := C) c₂.files.zipIdx ⟨c₂, sm, _⟩ .commandContinue
    hsm hfree (Nat.le_refl 3)
  have hreader : x.reader.sent = [C.buildSelectApplicationFrame app.aid, [app.authCommand, 0],
      cmdAdditionalFrame :: proof] ++ frames := by
    rw [hx]
    simp only
    split <;> exact hall
  rw [Planned, hreader]
  refine ⟨hheeded, fun _ => ⟨app, proof, happ, ?_, fun _ => ⟨_, hopen, rfl⟩, fun hsuccess => ?_⟩⟩
  · obtain ⟨rest, hrest⟩ := hprefix
    exact ⟨rest, by rw [List.append_assoc, hrest]; rfl⟩
  · rw [hx] at hsuccess
    simp only at hsuccess
    split at hsuccess
    · cases hsuccess
    rename_i hok
    obtain ⟨rfl, hf⟩ := hdone (Bool.not_eq_false _ ▸ hok)
    exact ⟨rfl, hf.last (by simp)⟩

end Whole

/-- Whatever the card answers, the frames of a Ready event are the first of the plan, each sent
    behind the answer the reader waits for; a file is asked for only in a session that was
    opened by the first three; and a read that reports success has sent all of them and was
    granted the last. -/
theorem frames_planned (C : Core σ) (card : Card) (d : Device) (c : Credential) :
    let x := session C card d ⟨c, none, []⟩
    Heeded card x.reader.sent ∧
    (x.reader.sent ≠ [] → ∃ app proof, c.application = some app ∧ x.reader.sent <+: plan C app proof c.files ∧
      (3 < x.reader.sent.length → ∃ r, Opens C card d c r ∧ r.sent = x.reader.sent.take 3) ∧
      (x.posts = [.pollerSuccess] → x.reader.sent = plan C app proof c.files ∧ Granted card x.reader.sent)) := by
  intro x
  have hx : x = session C card d ⟨c, none, []⟩ := rfl
  simp only [session] at hx
  cases happ : c.application with
  | none =>
    rw [happ] at hx
    rw [hx]
    exact ⟨Free.nil.heeded, fun h => absurd rfl h⟩
  | some app =>
    obtain ⟨hsent, hgranted⟩ := selectApplication_sent C card ⟨c, none, []⟩ app.aid
    rcases hs : selectApplication C card ⟨c, none, []⟩ app.aid with ⟨st, c₁, sm₁, sent₁⟩
    simp only [happ, hs] at hx hsent hgranted
    rw [List.nil_append] at hsent hgranted
    subst hsent
    rw [← happ]
    cases st with
    | commandStop => exact planned_early happ [] hx rfl (Free.nil.snoc _) ⟨_, rfl⟩ (by simp)
    | commandContinue =>
      have hfree : Free card [C.buildSelectApplicationFrame app.aid] := Free.nil.granted (hgranted rfl)
      have hauth := authenticate_sent C card d.random ⟨c₁, sm₁, [C.buildSelectApplicationFrame app.aid]⟩ 0 app.authCommand
      rcases ha : authenticate C card d.random ⟨c₁, sm₁, [C.buildSelectApplicationFrame app.aid]⟩ 0 app.authCommand with
        ⟨st₂, c₂, sm₂, sent₂⟩
      simp only [ha, reduceCtorEq, if_false] at hx hauth
      cases hauth with
      | keyless => exact planned_early happ [] (by rw [hx, if_pos rfl]) rfl hfree.heeded ⟨_, rfl⟩ (by simp)
      | first => exact planned_early happ [] (by rw [hx, if_pos rfl]) rfl (hfree.snoc _) ⟨_, rfl⟩ (by simp)
      | second proof rest h₁ =>
        have hfree' : Free card [C.buildSelectApplicationFrame app.aid, [app.authCommand, 0]] := hfree.granted ⟨rest, h₁⟩
        exact planned_early happ proof (by rw [hx, if_pos rfl]) rfl (hfree'.snoc _) ⟨_, rfl⟩ (by simp)
      | done proof rest rest' h₁ h₂ =>
        have hfree' : Free card [C.buildSelectApplicationFrame app.aid, [app.authCommand, 0]] := hfree.granted ⟨rest, h₁⟩
        have hfree'' : Free card [C.buildSelectApplicationFrame app.aid, [app.authCommand, 0], cmdAdditionalFrame :: proof] :=
          hfree'.granted ⟨rest', h₂⟩
        exact planned_open happ ⟨app, _, happ, hs, ha⟩ (authenticate_session ha) hfree'' (by rw [hx, if_neg (by decide)]; rfl)

end DfcFlipper.Reader
