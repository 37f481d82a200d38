/-
  DfcFlipper.Scenes.Restarts — the storage over restarts of the application (dfc_app in dfc.c).

  A start takes a new credential, an empty `load_path` and the main menu (dfc_alloc,
  dfc_credential_storage_init). It can come between any two events, and all it finds of what was
  before is the files.

  - `saved_opens`: what a save has stored is opened again from the file list, however many starts
    later, unless another event touched the file. It is opened exactly when the binary codec takes
    it and it passes the checks of a load, and then it is the card that was saved.
  - `opened_from`: whatever is opened was on the storage before the first start and has not been
    altered since, or is the card of the last save that altered its file, or what that save
    wrote before it was cut off.
-/

import DfcFlipper.Scenes.Clean
import DfcFlipper.Scenes.Files

namespace DfcFlipper.Scenes

open DfcFlipper.Lib.Bytes DfcFlipper.Lib.Run DfcFlipper.Storage

variable {n : Nat} {β : Type}

/-! ## Turns -/

inductive Turn (n : Nat) (β : Type) where
  | event (i : Action n β × Env)
  /-- `dfc_app`, with the credential `dfc_alloc` allocates. -/
  | restart (c : Credential n β)

def turn (P : Parts n β) (a : App n β × List Effect) : Turn n β → App n β × List Effect
  | .event i => logged (step P) a i
  | .restart c => (appInit a.1.store.files c, [])

def Turn.Touches (P : Parts n β) (file : Path) (a : App n β × List Effect) : Turn n β → Prop
  | .event i => Scenes.Touches P a.1 i.1 file
  | .restart _ => False

def Turn.Spares (P : Parts n β) (file : Path) (a : App n β × List Effect) (x : Turn n β) : Prop :=
  (turn P a x).1.store.files file = a.1.store.files file

section Turns

variable {P : Parts n β} {a : App n β × List Effect} {x : Turn n β} {file : Path}

theorem turn_frame (h : ¬x.Touches P file a) : x.Spares P file a := by
  cases x with
  | event i => exact step_frame P a.1 i h
  | restart c => rfl

theorem appInit_known (P : Parts n β) (files : Files) (c : Credential n β) :
    Stacked (appInit files c).scenes ∧ Known (appInit files c, []) :=
  ⟨List.isChain_singleton _, known_run P files c []⟩

theorem turn_known (h : Stacked a.1.scenes ∧ Known a) (x : Turn n β) :
    Stacked (turn P a x).1.scenes ∧ Known (turn P a x) := by
  cases x with
  | event i => exact ⟨(step_moves P a.1 i).stacked h.1, (step_moves P a.1 i).known h.1 h.2⟩
  | restart c => exact appInit_known P a.1.store.files c

theorem turns_known (P : Parts n β) (files : Files) (c : Credential n β) (is : List (Turn n β)) :
    Known (is.foldl (turn P) (appInit files c, [])) :=
  (foldl_inv (P := fun _ _ => True) (fun b => Stacked b.1.scenes ∧ Known b) (fun _ x h _ => turn_known h x) is _
    (appInit_known P files c) ((along_iff is _).mpr fun _ _ _ => trivial)).2

/-- Update File, an entered name and the right button are all that touches a file. -/
theorem touches_action {s : App n β} {x : Action n β} (h : Touches P s x file) :
    x = .mutationSave .update ∨ (∃ text, x = .textInputDone text) ∨ x = .buttonRight := by
  rcases h with ⟨c, h⟩ | h
  · rcases saveTarget_cases h with ⟨_, hx, _⟩ | ⟨text, _, hx, _⟩
    · exact Or.inl hx
    · exact Or.inr (Or.inl ⟨text, hx⟩)
  · exact Or.inr (Or.inr (removeTarget_eq_some h).2.1)

/-- What alters a file is an event that touches it: a save of its text, whole or cut off, or its removal. -/
theorem altered_by (hk : Known a) (h : ¬x.Spares P file a) :
    ∃ i, x = .event i ∧ ((turn P a x).1.store.files file = none ∨
      ∃ c text, saveTarget P a.1 i.1 = some (file, c) ∧ Renders P.text i.2.save c text ∧
        ((.saved file ∈ (step P a.1 i).2 ∧ (turn P a x).1.store.files file = some text) ∨
          (i.2.save.accepts < text.length ∧ (turn P a x).1.store.files file = some (text.take i.2.save.accepts)))) := by
  cases x with
  | restart c => exact absurd rfl h
  | event i =>
    have ht : Touches P a.1 i.1 file := Classical.not_not.mp fun ht => h (step_frame P a.1 i ht)
    have hleft := leftBy_of_touches hk ht
    refine ⟨i, rfl, ?_⟩
    simp only [Turn.Spares, turn, logged] at h ⊢
    generalize (step P a.1 i).1.store.files file = contents at h hleft ⊢
    cases hleft with
    | saved c text hst hR hs => exact Or.inr ⟨c, text, hst, hR, Or.inl ⟨hs, rfl⟩⟩
    | cut c text hst hR hl => exact Or.inr ⟨c, text, hst, hR, Or.inr ⟨hl, rfl⟩⟩
    | unopened _ _ _ => exact absurd rfl h
    | removed _ _ _ _ => exact Or.inl rfl
    | notRemoved _ _ _ => exact absurd rfl h

end Turns

/-! ## Opening a file -/

/-- The file browser's filter. -/
def Listed (file : Path) : Prop := endWith file appExtension = true ∨ endWith file binaryExtension = true

def chosenLoad (P : Parts n β) (e : Env) (s : App n β) (file : Path) : Loading n β :=
  loadSelectedFile P.sdk P.codec e.load ⟨file, s.store.files⟩
    { s.credential with name := Name.copy n (P.sdk.extractFilename file) }

/-- An effect that settles the origin is not among effects that leave it. -/
theorem Quiet.settles_not {es : List Effect} (h : Quiet es) {x : Effect} {o : Option Path} (hx : ∀ o', originStep o' x = o) :
    x ∉ es := by
  intro hm
  obtain ⟨l, r, rfl⟩ := List.append_of_mem hm
  have hnone := h none
  have hsome := h (some [])
  rw [List.foldl_append, List.foldl_cons, hx] at hnone hsome
  rw [hnone] at hsome
  cases hsome

section Chosen

variable {P : Parts n β} {s : App n β}

theorem menu_credential (P : Parts n β) (e : Env) (t : App n β) :
    (searchAndSwitchToPreviousScene P e t .mainMenu).app.credential = t.credential := by
  have hl : Leaves P t [] _ _ := leaves_search (P := P) (e := e) .mainMenu
  exact hl.credential

/-- On the way back to the main menu nothing is opened. -/
theorem menu_unopened (P : Parts n β) (e : Env) (t : App n β) {es : List Effect} {file : Path} (hes : .loaded file ∉ es) :
    .loaded file ∉ ((searchAndSwitchToPreviousScene P e t .mainMenu).after es).effects := by
  intro hm
  have hl : Leaves P t es _ ((searchAndSwitchToPreviousScene P e t .mainMenu).after es).effects := leaves_search .mainMenu
  obtain ⟨fs, heq, hq, _⟩ := hl.effects
  rw [heq, List.mem_append] at hm
  rcases hm with hm | hm
  · exact hes hm
  · exact hq.settles_not (fun _ => rfl) hm

/-- A chosen file is opened when it is listed and its load succeeds; else the credential in memory is cleared. -/
theorem chosen (ht : s.scenes.head? = some .fileSelect) (e : Env) (file : Path) :
    let r := step P s (.fileChosen file, e)
    (.loaded file ∈ r.2 ↔ Listed file ∧ (chosenLoad P e s file).loaded = true) ∧
    (.loaded file ∈ r.2 → r.1.credential = (chosenLoad P e s file).credential ∧ r.1.scenes = .savedMenu :: s.scenes) ∧
    (.loaded file ∉ r.2 → ∃ c, r.1.credential = P.codec.clear c) := by
  intro r
  have hr : r = step P s (.fileChosen file, e) := rfl
  simp only [step, handleEvent, onEvent, ht, fileSelectOnEvent, fileSelectCallback] at hr
  split at hr
  · rename_i hext
    have hlist : ¬Listed file := fun hl => hl.elim (by rw [hext.1]; simp) (by rw [hext.2]; simp)
    have hno : .loaded file ∉ r.2 := by rw [hr]; exact menu_unopened P e _ (by simp)
    refine ⟨⟨fun h => absurd h hno, fun h => absurd h.1 hlist⟩, fun h => absurd h hno, fun _ => ⟨s.credential, ?_⟩⟩
    rw [hr]
    exact menu_credential P e _
  rename_i hext
  have hlist : Listed file := by
    by_cases hb : endWith file binaryExtension = true
    · exact Or.inr hb
    · exact Or.inl (by simpa [hb] using hext)
  split at hr
  · rename_i hl
    have hyes : .loaded file ∈ r.2 := by rw [hr]; simp [Handled.after]
    refine ⟨⟨fun _ => ⟨hlist, hl⟩, fun _ => hyes⟩, fun _ => ?_, fun h => absurd hyes h⟩
    rw [hr]
    exact ⟨switchTo_credential .., switchTo_scenes ..⟩
  · rename_i hl
    have hno : .loaded file ∉ r.2 := by rw [hr]; exact menu_unopened P e _ (by simp)
    refine ⟨⟨fun h => absurd h hno, fun h => absurd h.2 hl⟩, fun h => absurd h hno, fun _ => ?_⟩
    refine ⟨(chosenLoad P e s file).credential, ?_⟩
    rw [hr]
    exact menu_credential P e _

end Chosen

/-! ## Over restarts -/

/-- A save that ends on its page has the text in its file. -/
theorem saved_text {P : Parts n β} {s : App n β} {i : Action n β × Env} {file : Path} {c : Credential n β}
    (hst : saveTarget P s i.1 = some (file, c)) (hs : .saved file ∈ (step P s i).2) :
    file ≠ [] ∧ ∃ text, Renders P.text i.2.save c text ∧ (step P s i).1.store.files file = some text := by
  obtain ⟨a, e⟩ := i
  cases hsv : (saveAt P.text e.save s.store c file).saved with
  | true =>
    obtain ⟨_, _, text, hR, hf⟩ := saveAt_done hsv
    refine ⟨?_, text, hR, ?_⟩
    · rcases saveTarget_cases hst with ⟨_, _, hp, rfl, _⟩ | ⟨_, _, _, _, rfl, _⟩
      · exact textPath_ne_nil hp
      · exact savePath_ne_nil _ _ _
    · have hstore : (step P s (a, e)).1.store = _ := (saved_leaves hst hsv).store
      rw [hstore, hf, Function.update_self]
  | false =>
    obtain ⟨fs, hes, hq, _⟩ := (failed_leaves hst hsv).effects
    have hquiet : Quiet (step P s (a, e)).2 := by
      rw [step, hes]
      exact (quiet_shownOf _).append hq
    exact absurd hs (hquiet.settles_not fun _ => rfl)

/-- What is saved stays: until an event touches the file, and however often the application is started, choosing the file
    opens it exactly when it is listed, the binary codec takes the credential and it passes the checks of a load, and it
    is the card that was saved. Else the credential in memory is cleared. -/
theorem saved_opens (P : Parts n β) (hinv : Inverse P.text P.codec) (a : App n β × List Effect) (i : Action n β × Env)
    (js : List (Turn n β)) (file : Path) (c : Credential n β) (hst : saveTarget P a.1 i.1 = some (file, c))
    (hs : .saved file ∈ (step P a.1 i).2)
    (hfree : Along (turn P) (fun b x => ¬x.Touches P file b) (logged (step P) a i) js) (e : Env)
    (hd : Suffices P.codec e.load c) :
    let b := js.foldl (turn P) (logged (step P) a i)
    let r := step P b.1 (.fileChosen file, e)
    b.1.scenes.head? = some .fileSelect →
      (.loaded file ∈ r.2 ↔ Listed file ∧ Encodable P.codec c ∧ Accepted P.codec c) ∧
      (.loaded file ∈ r.2 → r.1.credential.card = c.card ∧ r.1.scenes = .savedMenu :: b.1.scenes) ∧
      (.loaded file ∉ r.2 → ∃ prior, r.1.credential = P.codec.clear prior) := by
  intro b r ht
  obtain ⟨hne, text, hR, hf⟩ := saved_text hst hs
  have hkept : b.1.store.files file = some text :=
    foldl_inv (fun b : App n β × List Effect => b.1.store.files file = some text)
      (fun b x hb hx => (turn_frame hx).trans hb) js _ hf hfree
  have hback : LoadsBack P.sdk P.codec e.load ⟨file, b.1.store.files⟩ c
      { b.1.credential with name := Name.copy n (P.sdk.extractFilename file) } := loadsBack hinv P.sdk hd hR hne hkept _
  obtain ⟨hiff, hopen, hclear⟩ := chosen (P := P) ht e file
  refine ⟨?_, fun h => ?_, hclear⟩
  · rw [hiff]
    exact and_congr_right fun _ => hback.loaded
  · obtain ⟨hc, hsc⟩ := hopen h
    exact ⟨by rw [hc]; exact hback.card (hiff.mp h).2, hsc⟩

/-- A blank card, changed by a reader and saved as `a`. -/
def newCard : List (Action 8 Unit) := [.mainMenu .blankCard, .reader changedCard true, .back, .mutationSave .save]

/-- The page of the save, a start of the application, the file list. -/
def toList : List (Turn 8 Unit) :=
  [.event (.viewExit, workingEnv), .restart blankCredential, .event (.mainMenu .saved, workingEnv)]

theorem saved_opens_new_card :
    let file : Path := fileIn appDataPathPrefix ['a']
    let c : Credential 8 Unit := ⟨Name.copy 8 ['a'], changedCard, true⟩
    let a := run (step cardParts) (appInit (fun _ => none) blankCredential) (newCard.map (·, workingEnv))
    let b := toList.foldl (turn cardParts) (logged (step cardParts) a (.textInputDone (Name.copy 8 ['a']), workingEnv))
    let r := step cardParts b.1 (.fileChosen file, workingEnv)
    (.loaded file ∈ r.2 ↔ Listed file ∧ Encodable cardCodec c ∧ Accepted cardCodec c) ∧
      (.loaded file ∈ r.2 → r.1.credential.card = changedCard ∧ r.1.scenes = .savedMenu :: b.1.scenes) ∧
      (.loaded file ∉ r.2 → ∃ prior, r.1.credential = cardCodec.clear prior) := by
  intro file c a
  have hfree : Along (turn cardParts) (fun b x => ¬x.Touches cardParts file b)
      (logged (step cardParts) a (.textInputDone (Name.copy 8 ['a']), workingEnv)) toList := by
    refine ⟨fun h => ?_, fun h => h, fun h => ?_, trivial⟩ <;>
      rcases touches_action h with h | ⟨_, h⟩ | h <;> cases h
  exact saved_opens cardParts cardCodec_inverse a (.textInputDone (Name.copy 8 ['a']), workingEnv) toList file c (by decide)
    (by decide) hfree workingEnv (workingLoad_suffices (by decide)) (by decide)

/-- It opens, and answers as the reader left it. -/
example :
    let file : Path := fileIn appDataPathPrefix ['a']
    let a := run (step cardParts) (appInit (fun _ => none) blankCredential) (newCard.map (·, workingEnv))
    let b := toList.foldl (turn cardParts) (logged (step cardParts) a (.textInputDone (Name.copy 8 ['a']), workingEnv))
    let emulated := run (step cardParts) b.1 [(.fileChosen file, workingEnv), (.savedMenu .emulate, workingEnv)]
    emulated.2 = [.loaded file, .listening changedCard.piccAts] := by decide

/-- What a file opens as is what it stored before the first start, if nothing has altered it since; or the last event to
    alter it saved this card there; or that save was cut off, and this is what is left of it. -/
theorem opened_from (P : Parts n β) (hinv : Inverse P.text P.codec) (hb : BytesAlone P.codec) (files : Files)
    (c₀ : Credential n β) (is : List (Turn n β)) (file : Path) (e : Env) :
    let a := is.foldl (turn P) (appInit files c₀, [])
    let r := step P a.1 (.fileChosen file, e)
    a.1.scenes.head? = some .fileSelect → .loaded file ∈ r.2 →
      (Along (turn P) (fun d x => x.Spares P file d) (appInit files c₀, []) is ∧
        StoredAt P.codec files file r.1.credential.card) ∨
      ∃ js i ks c text, is = js ++ .event i :: ks ∧
        let b := js.foldl (turn P) (appInit files c₀, [])
        saveTarget P b.1 i.1 = some (file, c) ∧ Renders P.text i.2.save c text ∧
        Along (turn P) (fun d x => x.Spares P file d) (turn P b (.event i)) ks ∧
        ((.saved file ∈ (step P b.1 i).2 ∧ r.1.credential.card = c.card) ∨
          (i.2.save.accepts < text.length ∧ Stores P.codec (text.take i.2.save.accepts) r.1.credential.card)) := by
  intro a r ht hl
  obtain ⟨hiff, hopen, _⟩ := chosen (P := P) ht e file
  have hloaded := (hiff.mp hl).2
  obtain ⟨raw, hraw, hstores⟩ := storedAt_of_loaded hinv hb hloaded
  have hcard : r.1.credential.card = (chosenLoad P e a.1 file).credential.card := by rw [(hopen hl).1]
  rw [hcard]
  have hraw : a.1.store.files file = some raw := hraw
  have hleaves : ∀ {d : App n β × List Effect} {xs : List (Turn n β)},
      Along (turn P) (fun b x => ¬¬x.Spares P file b) d xs →
      Along (turn P) (fun b x => x.Spares P file b) d xs := fun h =>
    (along_iff _ _).mpr fun ls x hp => Classical.not_not.mp ((along_iff _ _).mp h ls x hp)
  rcases last_touch (fun b : App n β × List Effect => b.1.store.files file) (fun b x => ¬x.Spares P file b)
    (fun _ _ h => Classical.not_not.mp h) is (appInit files c₀, []) with ⟨hfree, hv⟩ | ⟨js, x, ks, his, halt, hfree, hv⟩
  · exact Or.inl ⟨hleaves hfree, raw, hv.symm.trans hraw, hstores⟩
  · obtain ⟨i, rfl, hnone | ⟨c, text, hst, hR, hleft⟩⟩ := altered_by (turns_known P files c₀ js) halt
    · rw [← hv] at hnone
      cases hraw.symm.trans hnone
    refine Or.inr ⟨js, i, ks, c, text, his, hst, hR, hleaves hfree, ?_⟩
    rcases hleft with ⟨hs, htext⟩ | ⟨hlt, htext⟩
    · refine Or.inl ⟨hs, ?_⟩
      obtain rfl : raw = text := Option.some.inj (hraw.symm.trans (hv.trans htext))
      exact card_of_storedAt hinv ⟨raw, hraw, stores_rendered hinv hR⟩ hloaded
    · obtain rfl : raw = text.take i.2.save.accepts := Option.some.inj (hraw.symm.trans (hv.trans htext))
      exact Or.inr ⟨hlt, hstores⟩

theorem opened_from_new_card :
    let file : Path := fileIn appDataPathPrefix ['a']
    let is := (newCard ++ [Action.textInputDone (Name.copy 8 ['a'])]).map (fun x => Turn.event (x, workingEnv)) ++ toList
    let a := is.foldl (turn cardParts) (appInit (fun _ => none) blankCredential, [])
    let r := step cardParts a.1 (.fileChosen file, workingEnv)
    (Along (turn cardParts) (fun d x => x.Spares cardParts file d) (appInit (fun _ => none) blankCredential, []) is ∧
        StoredAt cardParts.codec (fun _ => none) file r.1.credential.card) ∨
      ∃ js i ks c text, is = js ++ .event i :: ks ∧
        let b := js.foldl (turn cardParts) (appInit (fun _ => none) blankCredential, [])
        saveTarget cardParts b.1 i.1 = some (file, c) ∧ Renders cardParts.text i.2.save c text ∧
        Along (turn cardParts) (fun d x => x.Spares cardParts file d) (turn cardParts b (.event i)) ks ∧
        ((.saved file ∈ (step cardParts b.1 i).2 ∧ r.1.credential.card = c.card) ∨
          (i.2.save.accepts < text.length ∧
            Stores cardParts.codec (text.take i.2.save.accepts) r.1.credential.card)) :=
  opened_from cardParts cardCodec_inverse cardCodec_bytesAlone (fun _ => none) blankCredential _ _ workingEnv (by decide)
    (by decide)

end DfcFlipper.Scenes
