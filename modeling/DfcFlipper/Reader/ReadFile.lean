/-
  DfcFlipper.Reader.ReadFile — what `dfc_reader_read_file` stores of a file a card serves in
  several frames.

  A card answers ReadData with the first part of the contents and AdditionalFrame with each
  that follows; the status is AF until the last (`Serves`). Both probes under tests/ ask for
  the rest until the status is another (`probeRead_serves`). The reader takes AF for a failure.

  `reader_stores_iff`: it stores exactly what is served in one frame and finds room.
-/

import DfcFlipper.Reader.Pool

namespace DfcFlipper.Reader

open DfcFlipper.Lib.Bytes

variable {σ : Type} {C : Core σ} {card : Card}

/-! ## Files in frames -/

inductive Serves (card : Card) : List Octets → List Octets → Prop
  | last {sent : List Octets} {part : Octets} : card sent = some (statusOk :: part) → Serves card sent [part]
  | more {sent : List Octets} {part : Octets} {parts : List Octets} : card sent = some (cmdAdditionalFrame :: part) →
      Serves card (sent ++ [[cmdAdditionalFrame]]) parts → Serves card sent (part :: parts)

/-- The ReadData loop of the probes, for so many continuations at most. -/
def probeRead (card : Card) : Nat → List Octets → Option Octets
  | 0, _ => none
  | more + 1, sent =>
    match card sent with
    | none => none
    | some response =>
      if response.headD 0 = cmdAdditionalFrame then
        (probeRead card more (sent ++ [[cmdAdditionalFrame]])).map (response.drop 1 ++ ·)
      else if response.headD 0 = statusOk then some (response.drop 1)
      else none

/-- A probe reads whatever is served, in any number of frames. -/
theorem probeRead_serves {sent parts : List Octets} (h : Serves card sent parts) :
    probeRead card parts.length sent = some parts.flatten := by
  induction h with
  | @last sent part hc =>
    have hne : ¬statusOk = cmdAdditionalFrame := by decide
    simp [probeRead, hc, hne]
  | more hc _ ih => simp [probeRead, hc, ih]

/-! ## What is stored -/

/-- Plain communication: the unwrap step hands over what came. -/
structure PlainSession (C : Core σ) : Prop where
  legacy : ∀ sm payload, (C.unwrap sm .plain statusOk payload).2 = payload
  ev1 : ∀ sm payload, (C.unwrapEv1Response sm statusOk payload).2 = some payload

section Fetch

variable {r : DfcReader σ} {file : DfcFile} {part : Octets}

theorem fetch_credential (file : DfcFile) : (fetch C card r file).2.credential = r.credential := by
  simp only [fetch]
  repeat' split
  all_goals rfl

/-- An answer with the status AF is taken for a failure. -/
theorem fetch_additionalFrame
    (hc : card (r.sent ++ [C.buildReadDataFrame file.number 0 0]) = some (cmdAdditionalFrame :: part)) :
    (fetch C card r file).1 = none := by
  have hne : cmdAdditionalFrame ≠ statusOk := by decide
  unfold fetch
  cases r.secureMessaging with
  | none => rfl
  | some sm => simp [exchange, hc, hne]

theorem fetch_plain (hC : PlainSession C) {sm : σ} (hs : r.secureMessaging = some sm) (hf : file.commSettings = .plain)
    (hl : part.length ≤ C.maxFileData)
    (hc : card (r.sent ++ [C.buildReadDataFrame file.number 0 0]) = some (statusOk :: part)) :
    (fetch C card r file).1 = some part := by
  have hsmall : ¬part.length > C.maxFileData := by omega
  simp only [fetch, hs, exchange, hc, hf]
  by_cases hev : C.appliesEv1 sm cmdReadData = true
  · simp [hev, hC.ev1, hsmall]
  · simp [hev, hC.legacy, hsmall]

end Fetch

/-- The reader stores what a card serves exactly when it is served in one frame and there is room for it. -/
theorem reader_stores_iff (hC : PlainSession C) (hP : PoolLaws C) {r : DfcReader σ} {sm : σ}
    (hs : r.secureMessaging = some sm) {file : DfcFile} (hf : file.commSettings = .plain) (i : Nat) {parts : List Octets}
    (hl : parts.flatten.length ≤ C.maxFileData)
    (hserve : Serves card (r.sent ++ [C.buildReadDataFrame file.number 0 0]) parts) :
    ((readFile C card r file i).1 = .commandContinue ∧
      (readFile C card r file i).2.credential.pool i = parts.flatten) ↔
    parts.length = 1 ∧ HasRoom C r.credential.pool i parts.flatten.length := by
  cases hserve with
  | @last _ part hc =>
    have hone : [part].flatten = part := by simp
    rw [hone] at hl ⊢
    have hfetch := fetch_plain hC hs hf hl hc
    simp only [readFile, hfetch, fetch_credential, Credential.setPool_pool, List.length_singleton, true_and]
    constructor
    · exact fun h => commit_continue_iff.mp h.1
    · intro hroom
      rw [commit_roomy hP hroom]
      exact ⟨rfl, Function.update_self (f := r.credential.pool) ..⟩
  | @more _ part rest hc hrest =>
    have hfetch := fetch_additionalFrame hc
    constructor
    · intro h
      simp only [readFile, hfetch] at h
      cases h.1
    · intro h
      have hne : rest ≠ [] := by
        cases hrest <;> exact List.cons_ne_nil _ _
      rw [List.length_cons] at h
      exact absurd (List.length_eq_zero_iff.mp (by omega)) hne

/-! ## A card -/

theorem plainCore_session : PlainSession plainCore := ⟨fun _ _ => rfl, fun _ _ => rfl⟩

def scripted (answers : List Octets) : Card := fun sent => answers[sent.length - 1]?

def sessionReader : DfcReader Unit := ⟨⟨List.replicate 7 0, 0, none, [⟨1, 0, .plain⟩], fun _ => []⟩, some (), []⟩

/-- The first two files take up the whole pool. -/
def fullReader : DfcReader Unit :=
  ⟨⟨List.replicate 7 0, 0, none, [⟨1, 0, .plain⟩], fun i => if i < 2 then List.replicate 1536 0 else []⟩, some (), []⟩

/-- Three octets in one frame are stored; in two frames they end the read, and nothing is. -/
theorem two_frames_lost :
    let one := scripted [[statusOk, 1, 2, 3]]
    let two := scripted [[cmdAdditionalFrame, 1, 2], [statusOk, 3]]
    let frame := plainCore.buildReadDataFrame 1 0 0
    (Serves one [frame] [[1, 2, 3]] ∧ Serves two [frame] [[1, 2], [3]] ∧ probeRead two 2 [frame] = some [1, 2, 3]) ∧
    (readFile plainCore one sessionReader ⟨1, 0, .plain⟩ 0).2.credential.pool 0 = [1, 2, 3] ∧
    (readFile plainCore two sessionReader ⟨1, 0, .plain⟩ 0).1 = .commandStop ∧
    (readFile plainCore two sessionReader ⟨1, 0, .plain⟩ 0).2.credential.pool 0 = [] :=
  ⟨⟨.last rfl, .more rfl (.last rfl), by decide⟩, by decide, by decide, by decide⟩

/-- Neither two frames are stored, nor one that finds the pool full. -/
theorem reader_stores_iff_two_frames :
    let one := scripted [[statusOk, 1, 2, 3]]
    let two := scripted [[cmdAdditionalFrame, 1, 2], [statusOk, 3]]
    let stored (card : Card) (r : DfcReader Unit) (i : Nat) :=
      (readFile plainCore card r ⟨1, 0, .plain⟩ i).1 = .commandContinue ∧
        (readFile plainCore card r ⟨1, 0, .plain⟩ i).2.credential.pool i = [1, 2, 3]
    stored one sessionReader 0 ∧ ¬stored two sessionReader 0 ∧ ¬stored one fullReader 2 := by
  intro one two stored
  have hone : Serves one [plainCore.buildReadDataFrame 1 0 0] [[1, 2, 3]] := .last rfl
  have htwo : Serves two [plainCore.buildReadDataFrame 1 0 0] [[1, 2], [3]] := .more rfl (.last rfl)
  have hfits : ([[1, 2, 3]] : List Octets).flatten.length ≤ plainCore.maxFileData := by decide
  have hfits' : ([[1, 2], [3]] : List Octets).flatten.length ≤ plainCore.maxFileData := by decide
  refine ⟨?_, fun h => ?_, fun h => ?_⟩
  · exact (reader_stores_iff plainCore_session plainCore_laws rfl rfl 0 hfits hone).mpr ⟨rfl, by decide⟩
  · have hframes := (reader_stores_iff plainCore_session plainCore_laws rfl rfl 0 hfits' htwo).mp h
    exact absurd hframes.1 (by decide)
  · have hroom := (reader_stores_iff plainCore_session plainCore_laws rfl rfl 2 hfits hone).mp h
    exact absurd hroom.2 (by decide +kernel)

end DfcFlipper.Reader
