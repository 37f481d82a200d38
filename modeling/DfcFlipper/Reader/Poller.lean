/-
  DfcFlipper.Reader.Poller — what the poller's callback posts.

  The Read scene waits for one of two events. A Ready event ends with Success exactly when the
  selection, the authentication and the read of every file of application 0 succeed
  (`Completes`), and with Error otherwise; an error of the protocol stops the poller and posts
  neither.

  `never_silent_iff`: the callback posts what it should on every event but that one.
-/

import DfcFlipper.Reader.ReadFile

namespace DfcFlipper.Reader

open DfcFlipper.Lib.Bytes

variable {σ : Type} {C : Core σ} {card : Card} {d : Device} {c : Credential} {r : DfcReader σ}

/-! ## A read that completes -/

inductive ReadsAll (C : Core σ) (card : Card) : DfcReader σ → List (DfcFile × Nat) → DfcReader σ → Prop
  | nil {r : DfcReader σ} : ReadsAll C card r [] r
  | other {r r' : DfcReader σ} {file : DfcFile} {i : Nat} {rest : List (DfcFile × Nat)} : file.appIndex ≠ 0 →
      ReadsAll C card r rest r' → ReadsAll C card r ((file, i) :: rest) r'
  | read {r r₁ r' : DfcReader σ} {file : DfcFile} {i : Nat} {rest : List (DfcFile × Nat)} : file.appIndex = 0 →
      readFile C card r file i = (.commandContinue, r₁) → ReadsAll C card r₁ rest r' →
      ReadsAll C card r ((file, i) :: rest) r'

/-- Selection and authentication succeed, and leave this reader. -/
inductive Opens (C : Core σ) (card : Card) (d : Device) (c : Credential) (r₂ : DfcReader σ) : Prop
  | intro (app : Application) (r₁ : DfcReader σ) : c.application = some app →
      selectApplication C card ⟨c, none, []⟩ app.aid = (.commandContinue, r₁) →
      authenticate C card d.random r₁ 0 app.authCommand = (.commandContinue, r₂) → Opens C card d c r₂

structure Completes (C : Core σ) (card : Card) (d : Device) (c : Credential) : Prop where
  readerAlloc : d.readerAlloc = true
  reads : ∃ r₂ r₃, Opens C card d c r₂ ∧ ReadsAll C card r₂ c.files.zipIdx r₃

/-! ## What the steps leave alone -/

@[simp] theorem exchange_credential (data : Octets) : (exchange card r data).2.credential = r.credential := rfl

theorem selectApplication_credential (C : Core σ) (card : Card) (r : DfcReader σ) (aid : Octets) :
    (selectApplication C card r aid).2.credential = r.credential := by
  simp only [selectApplication]
  split
  · rfl
  · split <;> rfl

theorem authenticate_credential (C : Core σ) (card : Card) (random : Nat → Octets) (r : DfcReader σ) (keyNo cipher : UInt8) :
    (authenticate C card random r keyNo cipher).2.credential = r.credential := by
  simp only [authenticate]
  repeat' split
  all_goals rfl

theorem Opens.credential {r₂ : DfcReader σ} (h : Opens C card d c r₂) : r₂.credential = c := by
  obtain ⟨app, r₁, _, hs, ha⟩ := h
  have h₁ : r₁.credential = c := by
    have hc := selectApplication_credential C card ⟨c, none, []⟩ app.aid
    rwa [hs] at hc
  have h₂ := authenticate_credential C card d.random r₁ 0 app.authCommand
  rw [ha] at h₂
  exact h₂.trans h₁

theorem Opens.unique {r₂ r₂' : DfcReader σ} (h : Opens C card d c r₂) (h' : Opens C card d c r₂') : r₂ = r₂' := by
  obtain ⟨app, r₁, happ, hs, ha⟩ := h
  obtain ⟨app', r₁', happ', hs', ha'⟩ := h'
  obtain rfl := Option.some.inj (happ.symm.trans happ')
  obtain rfl := (Prod.mk.inj (hs.symm.trans hs')).2
  exact (Prod.mk.inj (ha.symm.trans ha')).2

/-! ## The outcome -/

theorem ne_stop {ret : NfcCommand} : ret ≠ .commandStop ↔ ret = .commandContinue := by cases ret <;> simp

theorem readFiles_cases (C : Core σ) (card : Card) (r : DfcReader σ) (files : List (DfcFile × Nat)) :
    ((readFiles C card .commandContinue r files).ok = true ∧
      (readFiles C card .commandContinue r files).ret = .commandContinue ∧
      ReadsAll C card r files (readFiles C card .commandContinue r files).reader) ∨
    ((readFiles C card .commandContinue r files).ok = false ∧
      (readFiles C card .commandContinue r files).ret = .commandStop ∧ ∀ r', ¬ReadsAll C card r files r') := by
  induction files generalizing r with
  | nil => exact Or.inl ⟨rfl, rfl, .nil⟩
  | cons entry rest ih =>
    obtain ⟨file, i⟩ := entry
    by_cases ha : file.appIndex = 0
    · by_cases hx : (readFile C card r file i).1 = .commandStop
      · have he : readFiles C card .commandContinue r ((file, i) :: rest) =
            ⟨false, .commandStop, (readFile C card r file i).2⟩ := by simp [readFiles, ha, hx]
        rw [he]
        refine Or.inr ⟨rfl, rfl, fun r' h => ?_⟩
        cases h with
        | other hne _ => exact hne ha
        | read _ hr _ => rw [hr] at hx; cases hx
      · have hc := ne_stop.mp hx
        have he : readFiles C card .commandContinue r ((file, i) :: rest) =
            readFiles C card .commandContinue (readFile C card r file i).2 rest := by simp [readFiles, ha, hc]
        rw [he]
        rcases ih (readFile C card r file i).2 with ⟨hok, hret, hall⟩ | ⟨hok, hret, hall⟩
        · exact Or.inl ⟨hok, hret, .read ha (Prod.ext hc rfl) hall⟩
        · refine Or.inr ⟨hok, hret, fun r' h => ?_⟩
          cases h with
          | other hne _ => exact hne ha
          | read _ hr h => rw [hr] at hall; exact hall r' h
    · have he : readFiles C card .commandContinue r ((file, i) :: rest) = readFiles C card .commandContinue r rest := by
        simp [readFiles, ha]
      rw [he]
      rcases ih r with ⟨hok, hret, hall⟩ | ⟨hok, hret, hall⟩
      · exact Or.inl ⟨hok, hret, .other ha hall⟩
      · refine Or.inr ⟨hok, hret, fun r' h => ?_⟩
        cases h with
        | other _ h => exact hall r' h
        | read hz _ _ => exact ha hz

def afterOpen (C : Core σ) (card : Card) (r₂ : DfcReader σ) (files : List (DfcFile × Nat)) : Session σ :=
  let f := readFiles C card .commandContinue r₂ files
  if f.ok = false then ⟨f.ret, [], f.reader⟩ else ⟨f.ret, [.pollerSuccess], f.reader⟩

/-- The session is opened and the files read, or everything is left as it was. -/
theorem session_cases (C : Core σ) (card : Card) (d : Device) (c : Credential) :
    (∃ r₂, Opens C card d c r₂ ∧ session C card d ⟨c, none, []⟩ = afterOpen C card r₂ c.files.zipIdx) ∨
    ((∀ r₂, ¬Opens C card d c r₂) ∧ ∃ r, session C card d ⟨c, none, []⟩ = ⟨.commandStop, [], r⟩ ∧ r.credential = c) := by
  simp only [session]
  cases hap : c.application with
  | none =>
    refine Or.inr ⟨fun r₂ h => ?_, _, rfl, rfl⟩
    obtain ⟨app, _, happ, _⟩ := h
    rw [hap] at happ
    cases happ
  | some app =>
    have hsc := selectApplication_credential C card ⟨c, none, []⟩ app.aid
    rcases hs : selectApplication C card ⟨c, none, []⟩ app.aid with ⟨st, r₁⟩
    rw [hs] at hsc
    cases st with
    | commandStop =>
      refine Or.inr ⟨fun r₂ h => ?_, r₁, by simp [hs], hsc⟩
      obtain ⟨app', _, happ, hs', _⟩ := h
      obtain rfl := Option.some.inj (hap.symm.trans happ)
      cases (Prod.mk.inj (hs.symm.trans hs')).1
    | commandContinue =>
      have hac := authenticate_credential C card d.random r₁ 0 app.authCommand
      rcases ha : authenticate C card d.random r₁ 0 app.authCommand with ⟨st, r₂⟩
      rw [ha] at hac
      have hc : r₂.credential = c := hac.trans hsc
      cases st with
      | commandStop =>
        refine Or.inr ⟨fun r₂' h => ?_, r₂, by simp [hs, ha], hc⟩
        obtain ⟨app', r₁', happ, hs', ha'⟩ := h
        obtain rfl := Option.some.inj (hap.symm.trans happ)
        obtain rfl := (Prod.mk.inj (hs.symm.trans hs')).2
        cases (Prod.mk.inj (ha.symm.trans ha')).1
      | commandContinue =>
        refine Or.inl ⟨r₂, ⟨app, r₁, hap, hs, ha⟩, ?_⟩
        simp [hs, ha, hc, afterOpen]

/-- A Ready event posts one of the two events, by whether the read completes. -/
theorem stateMachine_posts (C : Core σ) (card : Card) (d : Device) (c : Credential) :
    (Completes C card d c ∧ (stateMachine C card d c).posts = [.pollerSuccess]) ∨
    (¬Completes C card d c ∧ (stateMachine C card d c).posts = [.pollerError]) := by
  by_cases hd : d.readerAlloc = true
  · simp only [stateMachine, hd]
    rcases session_cases C card d c with ⟨r₂, ho, hs⟩ | ⟨hno, r, hs, _⟩
    · rw [hs]
      rcases readFiles_cases C card r₂ c.files.zipIdx with ⟨hok, hret, hall⟩ | ⟨hok, hret, hall⟩
      · exact Or.inl ⟨⟨hd, r₂, _, ho, hall⟩, by simp [afterOpen, hok, hret]⟩
      · refine Or.inr ⟨fun h => ?_, by simp [afterOpen, hok, hret]⟩
        obtain ⟨r₂', r₃, ho', h⟩ := h.reads
        obtain rfl := ho.unique ho'
        exact hall r₃ h
    · rw [hs]
      refine Or.inr ⟨fun h => ?_, by simp⟩
      obtain ⟨r₂, _, ho, _⟩ := h.reads
      exact hno r₂ ho
  · have hf : d.readerAlloc = false := Bool.eq_false_iff.mpr hd
    exact Or.inr ⟨fun h => hd h.readerAlloc, by simp [stateMachine, hf]⟩

theorem stateMachine_command : (stateMachine C card d c).command = .commandStop := by
  simp only [stateMachine]
  split <;> rfl

/-- What the Read scene relies on: the poller stops with one of the two events, and with Success
only behind a read that completed. -/
structure NeverSilent (o : Outcome) (completed : Prop) : Prop where
  stopped : o.command = .commandStop → o.posts = [.pollerSuccess] ∨ o.posts = [.pollerError]
  success : .pollerSuccess ∈ o.posts → completed
  continued : o.command = .commandContinue → o.posts = []

/-- The callback posts what it should on every event but an error of the protocol. -/
theorem never_silent_iff (C : Core σ) (card : Card) (d : Device) (c : Credential) (event : PollerEvent) :
    NeverSilent (pollerCallback C card d c event) (event = .ready ∧ Completes C card d (captureUid d.uid c)) ↔
      event ≠ .error .protocol := by
  constructor
  · rintro h rfl
    rcases h.stopped rfl with hp | hp <;> cases hp
  · intro hne
    cases event with
    | ready =>
      have he : pollerCallback C card d c .ready = stateMachine C card d (captureUid d.uid c) := rfl
      rw [he]
      rcases stateMachine_posts C card d (captureUid d.uid c) with ⟨hc, hp⟩ | ⟨_, hp⟩
      · refine ⟨fun _ => Or.inl hp, fun _ => ⟨rfl, hc⟩, fun hk => ?_⟩
        rw [stateMachine_command] at hk
        cases hk
      · refine ⟨fun _ => Or.inr hp, fun hm => ?_, fun hk => ?_⟩
        · rw [hp] at hm
          cases List.mem_singleton.mp hm
        · rw [stateMachine_command] at hk
          cases hk
    | error e =>
      cases e with
      | protocol => exact absurd rfl hne
      | _ =>
        refine ⟨fun hk => ?_, fun hm => ?_, fun _ => rfl⟩
        · cases hk
        · cases hm

/-- A card that breaks the protocol stops the poller, and nothing is posted. -/
theorem protocol_error_is_silent :
    let o := pollerCallback plainCore (scripted []) ⟨true, zeros, none⟩ sessionReader.credential (.error .protocol)
    o.command = .commandStop ∧ o.posts = [] := by
  decide

end DfcFlipper.Reader
