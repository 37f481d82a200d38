/-
  DfcFlipper.Scenes.Origin — where the credential in memory came from.

  `load_path` is set by the file browser and by a save, the credential by a load, by Blank
  Card and by whatever clears it. Wherever a scene works on the credential, `load_path`
  should be empty or the file the credential was loaded from or last saved to. Leaving the
  saved menu, or choosing a file that is refused, leaves `load_path` behind; Blank Card
  then starts a credential that never was in that file, and Update File writes it there
  (`blank_card_overwrites`).

  `origin_known_iff`: that is the only way. In exactly the runs in which Blank Card is
  chosen with an empty `load_path`, every state has the origin in `load_path`; and then
  Update File writes the credential's own file, and Delete removes it.

  `Moves.held` is what the invariants of the credential start from: how a step comes to a
  scene that works on it.
-/

import DfcFlipper.Scenes.Moves
import DfcFlipper.Storage.RoundTrip

namespace DfcFlipper.Scenes

open DfcFlipper.Lib.Bytes DfcFlipper.Lib.Frame DfcFlipper.Lib.Run DfcFlipper.Lib.Stack DfcFlipper.Storage

variable {n : Nat} {β : Type}

/-! ## The stack -/

def Stacked (scenes : List Scene) : Prop := scenes.IsChain fun upper lower => covers upper lower = true

def ofFile : Scene → Bool
  | .savedMenu => true
  | .info => true
  | .delete => true
  | .deleteSuccess => true
  | _ => false

theorem covers_holds {x y : Scene} (hc : covers x y = true) (hy : holdsCredential y = true) :
    holdsCredential x = true := by
  revert hc hy
  cases x <;> cases y <;> decide

theorem covers_ofFile {x y : Scene} (hc : covers x y = true) (hx : ofFile x = true)
    (hh : holdsCredential x = true → holdsCredential y = true) : ofFile y = true := by
  revert hc hx hh
  cases x <;> cases y <;> decide

theorem covers_saveSuccess {x : Scene} (hc : covers .saveSuccess x = true) : holdsCredential x = true := by
  revert hc
  cases x <;> decide

theorem Stacked.tail {scenes : List Scene} (h : Stacked scenes) : Stacked scenes.tail := List.IsChain.tail h

theorem Stacked.cons {scenes scenes' : List Scene} {top scene : Scene} (h : Stacked scenes)
    (hs : scenes' = scene :: scenes) (ht : scenes.head? = some top) (hc : covers scene top = true) : Stacked scenes' := by
  rw [hs]
  refine List.IsChain.cons h fun y hy => ?_
  rw [ht] at hy
  cases hy
  exact hc

/-- The top is pushed over what is next. -/
theorem Stacked.above {scenes : List Scene} {next : Scene} (h : Stacked scenes) (hn : scenes.tail.head? = some next) :
    ∃ upper, scenes.head? = some upper ∧ covers upper next = true := by
  cases scenes with
  | nil => cases hn
  | cons upper below => exact ⟨upper, rfl, List.IsChain.rel_head? h (Option.mem_def.mpr hn)⟩

/-- Only the main menu is below the file list, and nothing below that. -/
theorem Stacked.fileSelect {scenes : List Scene} (h : Stacked scenes) (ht : scenes.head? = some .fileSelect)
    {scene : Scene} (hm : scene ∈ scenes) : ofFile scene = false := by
  obtain ⟨rest, rfl⟩ : ∃ rest, scenes = .fileSelect :: rest := by
    cases scenes with
    | nil => cases ht
    | cons x rest => exact ⟨rest, by rw [Option.some.inj ht]⟩
  cases rest with
  | nil =>
    obtain rfl := List.mem_singleton.mp hm
    rfl
  | cons y rest =>
    obtain ⟨hy, hr⟩ := List.isChain_cons_cons.mp h
    obtain rfl : y = .mainMenu := by revert hy; cases y <;> decide
    cases rest with
    | nil =>
      rcases List.mem_cons.mp hm with rfl | hm
      · rfl
      · obtain rfl := List.mem_singleton.mp hm
        rfl
    | cons z rest =>
      have hz := (List.isChain_cons_cons.mp hr).1
      revert hz
      cases z <;> exact fun hz => absurd hz (by decide)

/-! ## Coming to a credential -/

section Coming

variable {P : Parts n β} {e : Env} {a : Action n β} {s s' : App n β} {es : List Effect}

theorem Moves.stacked (hm : Moves P e a s s' es) (hst : Stacked s.scenes) : Stacked s'.scenes := by
  cases hm with
  | stay hs _ _ => exact hs ▸ hst
  | push top scene ht hc _ hs _ _ => exact hst.cons hs ht hc
  | blank _ ht hs _ _ => exact hst.cons hs ht rfl
  | opened path ht _ hs _ _ _ => exact hst.cons hs ht rfl
  | refused _ hs _ =>
    rcases hs with hs | hs
    · exact hs ▸ hst
    · exact isChain_search hst hs
  | saved top path ht hc _ hs _ _ _ => exact hst.cons hs ht hc
  | pop hs _ _ => exact hs ▸ hst.tail
  | down _ _ _ hs _ _ _ => exact isChain_search hst hs
  | close _ hs _ _ => exact hs ▸ hst.tail
  | quit hs _ => exact hs ▸ List.isChain_nil

/-- How a step comes to a scene that works on the credential: from one that did, or with another credential. -/
inductive Held (P : Parts n β) (e : Env) (a : Action n β) (s s' : App n β) (es : List Effect) : Prop
  | on (top : Scene) : s.scenes.head? = some top → holdsCredential top = true → s'.store.loadPath = s.store.loadPath →
      Quiet es → Held P e a s s' es
  | blank : a = .mainMenu .blankCard → s.scenes.head? = some .mainMenu → s'.store.loadPath = s.store.loadPath →
      (∀ o, es.foldl originStep o = none) → Held P e a s s' es
  | opened (path : Path) : s'.store.loadPath = path → (∀ o, es.foldl originStep o = some path) →
      LoadedFrom P e s s' path → Held P e a s s' es
  | saved (top : Scene) (path : Path) : s.scenes.head? = some top → holdsCredential top = true →
      s'.store.loadPath = path → (∀ o, es.foldl originStep o = some path) → SavedTo P e s s' path → Held P e a s s' es

theorem Moves.held (hm : Moves P e a s s' es) (hst : Stacked s.scenes) {top' : Scene} (ht' : s'.scenes.head? = some top')
    (hh' : holdsCredential top' = true) : Held P e a s s' es := by
  cases hm with
  | stay hs hp hq => exact .on top' (hs ▸ ht') hh' hp hq
  | push top scene ht _ hh hs hp hq =>
    rw [hs] at ht'
    cases ht'
    exact .on top ht (hh hh') hp hq
  | blank ha ht _ hp ho => exact .blank ha ht hp ho
  | opened path _ _ _ hp ho hl => exact .opened path hp ho hl
  | refused ht hs _ =>
    -- the file list and the main menu work on none
    rcases hs with hs | hs
    · rw [hs, ht] at ht'
      cases ht'
      cases hh'
    · rw [(search_eq_some hs).2] at ht'
      cases ht'
      cases hh'
  | saved top path ht hc _ _ hp ho hsv => exact .saved top path ht (covers_saveSuccess hc) hp ho hsv
  | pop hs hp hq =>
    rw [hs] at ht'
    obtain ⟨upper, hu, hc⟩ := hst.above ht'
    exact .on upper hu (covers_holds hc hh') hp hq
  | down top scene ht hs hh hp hq =>
    rw [(search_eq_some hs).2] at ht'
    cases ht'
    exact .on top ht (hh hh') hp hq
  | close ht hs _ _ =>
    rw [hs] at ht'
    obtain ⟨upper, hu, hc⟩ := hst.above ht'
    obtain rfl : upper = .savedMenu := Option.some.inj (hu.symm.trans ht)
    exact absurd hh' (by revert hc; cases top' <;> decide)
  | quit hs _ =>
    rw [hs] at ht'
    cases ht'

end Coming

/-! ## The invariant -/

/-- Where a scene works on the credential, `load_path` is empty or the credential's origin. -/
def OriginKnown (a : App n β × List Effect) : Prop :=
  ∀ top, a.1.scenes.head? = some top → holdsCredential top = true → a.1.store.loadPath ≠ [] →
    origin a.2 = some a.1.store.loadPath

structure Inv (a : App n β × List Effect) : Prop where
  stacked : Stacked a.1.scenes
  known : OriginKnown a
  ofFile : ∀ scene ∈ a.1.scenes, ofFile scene = true → a.1.store.loadPath ≠ []

/-- Blank Card is chosen only while `load_path` is empty. -/
def BlankFresh (a : App n β × List Effect) (i : Action n β × Env) : Prop :=
  a.1.scenes.head? = some .mainMenu → i.1 = .mainMenu .blankCard → a.1.store.loadPath = []

theorem inv_init (files : Files) (c : Credential n β) : Inv (appInit files c, []) := by
  refine ⟨List.isChain_singleton _, ?_, ?_⟩
  · intro top _ _ hp
    exact absurd rfl hp
  · intro scene hm hf
    obtain rfl := List.mem_singleton.mp hm
    cases hf

def FilePath (s : App n β) : Prop := ∀ scene ∈ s.scenes, ofFile scene = true → s.store.loadPath ≠ []

theorem Moves.filePath {P : Parts n β} {e : Env} {a : Action n β} {s s' : App n β} {es : List Effect}
    (hm : Moves P e a s s' es) (hst : Stacked s.scenes) (hf : FilePath s) : FilePath s' := by
  intro scene hsc hfile
  cases hm with
  | stay hs hp _ =>
    rw [hs] at hsc
    rw [hp]
    exact hf scene hsc hfile
  | push top _ ht hc hh hs hp _ =>
    rw [hs] at hsc
    rw [hp]
    rcases List.mem_cons.mp hsc with rfl | hsc
    · exact hf top (List.mem_of_mem_head? ht) (covers_ofFile hc hfile hh)
    · exact hf scene hsc hfile
  | blank _ _ hs hp _ =>
    rw [hs] at hsc
    rw [hp]
    rcases List.mem_cons.mp hsc with rfl | hsc
    · cases hfile
    · exact hf scene hsc hfile
  | opened path _ hne _ hp _ _ =>
    rw [hp]
    exact hne
  | refused ht hs _ =>
    have hsuf : s'.scenes <:+ s.scenes := by
      rcases hs with hs | hs
      · exact hs ▸ List.suffix_rfl
      · exact search_suffix hs
    rw [hst.fileSelect ht (hsuf.subset hsc)] at hfile
    cases hfile
  | saved _ path _ _ hne _ hp _ _ =>
    rw [hp]
    exact hne
  | pop hs hp _ =>
    rw [hs] at hsc
    rw [hp]
    exact hf scene (List.mem_of_mem_tail hsc) hfile
  | down _ _ _ hs _ hp _ =>
    rw [hp]
    exact hf scene ((search_suffix hs).subset hsc) hfile
  | close _ hs hp _ =>
    rw [hs] at hsc
    rw [hp]
    exact hf scene (List.mem_of_mem_tail hsc) hfile
  | quit hs _ =>
    rw [hs] at hsc
    cases hsc

/-- What one step does keeps the invariant, unless it is Blank Card over a `load_path`. -/
theorem Moves.inv {P : Parts n β} {e : Env} {a : Action n β} {s s' : App n β} {log es : List Effect}
    (hm : Moves P e a s s' es)
    (h : Inv (s, log)) (hb : s.scenes.head? = some .mainMenu → a = .mainMenu .blankCard → s.store.loadPath = []) :
    Inv (s', log ++ es) := by
  obtain ⟨hst, hk, hf⟩ := h
  simp only [OriginKnown] at hk
  refine ⟨hm.stacked hst, ?_, hm.filePath hst hf⟩
  intro top' ht' hh' hne
  simp only at ht' hne ⊢
  cases hm.held hst ht' hh' with
  | on top ht hh hp hq =>
    rw [hp] at hne ⊢
    rw [origin_append, hq]
    exact hk top ht hh hne
  | blank ha ht hp _ => exact absurd (hp.trans (hb ht ha)) hne
  | opened path hp ho _ => rw [origin_append, ho, hp]
  | saved top path _ _ hp ho _ => rw [origin_append, ho, hp]

theorem step_inv (P : Parts n β) (a : App n β × List Effect) (i : Action n β × Env) (h : Inv a)
    (hb : BlankFresh a i) : Inv (logged (step P) a i) :=
  (step_moves P a.1 i).inv h hb

theorem run_inv_of_fresh (P : Parts n β) (files : Files) (c : Credential n β) (is : List (Action n β × Env))
    (h : Along (logged (step P)) BlankFresh (appInit files c, []) is) : Inv (run (step P) (appInit files c) is) :=
  foldl_inv Inv (step_inv P) is _ (inv_init files c) h

/-! ## The steps that touch the storage -/

section Steps

variable (P : Parts n β) (e : Env) {s : App n β}

theorem blank_card (ht : s.scenes.head? = some .mainMenu) :
    (step P s (.mainMenu .blankCard, e)).1.scenes.head? = some .emulate ∧
    (step P s (.mainMenu .blankCard, e)).1.store.loadPath = s.store.loadPath ∧
    ∀ o, (step P s (.mainMenu .blankCard, e)).2.foldl originStep o = none := by
  simp only [step, handleEvent, onEvent, ht, mainMenuOnEvent, nextScene, Handled.after]
  refine ⟨?_, ?_, fun o => ?_⟩
  · rw [switchTo_scenes, List.head?_cons]
  · rw [switchTo_store]
  · rw [List.foldl_append]
    exact switchTo_quiet P e _ _ none

/-- A blank credential has no origin, so `load_path` must have been empty. -/
theorem blankFresh_of_known {P : Parts n β} {a : App n β × List Effect} {i : Action n β × Env}
    (h : OriginKnown (logged (step P) a i)) : BlankFresh a i := by
  obtain ⟨x, e⟩ := i
  rintro ht rfl
  apply Classical.byContradiction
  intro hne
  obtain ⟨hs, hl, ho⟩ := blank_card P e ht
  have hknown := h .emulate hs rfl fun hp => hne (hl.symm.trans hp)
  simp only [logged] at hknown
  rw [origin_append, ho] at hknown
  cases hknown

theorem searchAndSwitch_store (scene : Scene) : (searchAndSwitchToPreviousScene P e s scene).app.store = s.store := by
  unfold searchAndSwitchToPreviousScene
  split
  · rw [switchTo_store]
  · rfl

/-- Update File changes the text form of `load_path` and no other file. -/
theorem update_changedOnly (ht : s.scenes.head? = some .mutationSave) :
    ChangedOnly {textPath s.store.loadPath} s.store.files
      (step P s (.mutationSave .update, e)).1.store.files := by
  have hc := credentialSaveLoaded_changedOnly P.text e.save s.store s.credential
  simp only [step, handleEvent, onEvent, ht, mutationSaveOnEvent]
  split
  · simp only [Handled.after, nextScene, switchTo_store]
    exact hc
  · simp only [Handled.after, mutationSaveReturn, searchAndSwitch_store]
    exact hc

/-- Delete removes the file of `load_path` and no other. -/
theorem delete_changedOnly (ht : s.scenes.head? = some .delete) (hp : s.store.loadPath ≠ []) :
    ChangedOnly {s.store.loadPath} s.store.files (step P s (.buttonRight, e)).1.store.files := by
  have hd : deletePath s.store.loadPath s.credential true = s.store.loadPath := if_pos ⟨rfl, hp⟩
  have hc : ChangedOnly {s.store.loadPath} s.store.files
      (credentialDelete e.remove s.store s.credential true).1.files := by
    unfold credentialDelete
    split
    · rw [hd]
      exact Lib.Frame.update_changedOnly _ _ _
    · exact ChangedOnly.refl _ _
  simp only [step, handleEvent, onEvent, ht, deleteOnEvent]
  split
  · simp only [nextScene, switchTo_store]
    exact hc
  · simp only [Handled.after, searchAndSwitch_store]
    exact hc

end Steps

/-! ## Every run -/

/-- In exactly the runs in which Blank Card is chosen with an empty `load_path`, the origin of
the credential is known in every state. In these, Update File writes the file the credential
came from, or the text beside it if that was compiled, and Delete removes it. -/
theorem origin_known_iff (P : Parts n β) (files : Files) (c : Credential n β) (is : List (Action n β × Env)) :
    ((∀ js, js <+: is → OriginKnown (run (step P) (appInit files c) js)) ↔
      Along (logged (step P)) BlankFresh (appInit files c, []) is) ∧
    (Along (logged (step P)) BlankFresh (appInit files c, []) is →
      let a := run (step P) (appInit files c) is
      ∀ e,
        (a.1.scenes.head? = some .mutationSave → a.1.store.loadPath ≠ [] →
          origin a.2 = some a.1.store.loadPath ∧
          ChangedOnly {textPath a.1.store.loadPath} a.1.store.files
            (step P a.1 (.mutationSave .update, e)).1.store.files) ∧
        (a.1.scenes.head? = some .delete →
          origin a.2 = some a.1.store.loadPath ∧
          ChangedOnly {a.1.store.loadPath} a.1.store.files (step P a.1 (.buttonRight, e)).1.store.files)) := by
  refine ⟨?_, fun ha => ?_⟩
  · exact states_iff_along Inv OriginKnown (fun _ h => h.known) (step_inv P)
      (fun _ _ _ hk => blankFresh_of_known hk) is _ (inv_init files c)
  · intro a e
    have hinv := run_inv_of_fresh P files c is ha
    refine ⟨fun ht hne => ⟨hinv.known _ ht rfl hne, update_changedOnly P e ht⟩, fun ht => ?_⟩
    have hne := hinv.ofFile .delete (List.mem_of_mem_head? ht) rfl
    exact ⟨hinv.known _ ht rfl hne, delete_changedOnly P e ht hne⟩

/-! ## The run that goes wrong -/

def blankCredential : Credential 8 Unit := ⟨Name.copy 8 [], ⟨[0x04, 0, 0, 0, 0, 0, 0], [], ()⟩, false⟩

def cardParts : Parts 8 Unit where
  sdk := lastSlash
  text := cardExport
  codec := cardCodec
  initBlank _ := blankCredential
  uidIsDetectable c := c.card.uid.length == 7 && c.card.uid.headD 0 == 0x04
  anticollisionAts c := c.card.piccAts

def workingEnv : Env := ⟨workingSave 64, workingLoad, ⟨true, true, true, true⟩, true⟩

/-- A credential is loaded and left again; a blank card, written by a reader, is then saved by
Update File over its file. -/
theorem blank_card_overwrites :
    let file : Path := fileIn appDataPathPrefix ['a']
    let stored := (packCard textMark (cardWith []).card).2
    let blank := (packCard textMark blankCredential.card).2
    let s : App 8 Unit := appInit (Function.update (fun _ => none) file (some stored)) blankCredential
    let toBlank : List (Action 8 Unit) := [.mainMenu .saved, .fileChosen file, .back, .back, .mainMenu .blankCard]
    let toUpdate : List (Action 8 Unit) := toBlank ++ [.reader blankCredential.card true, .back, .mutationSave .update]
    let a := run (step cardParts) s (toBlank.map (·, workingEnv))
    let b := run (step cardParts) s (toUpdate.map (·, workingEnv))
    (a.1.scenes.head? = some .emulate ∧ a.1.store.loadPath = file ∧ origin a.2 = none ∧
      a.1.store.files file = some stored) ∧
    (b.1.scenes.head? = some .saveSuccess ∧ b.1.store.files file = some blank ∧ blank ≠ stored) := by
  decide

end DfcFlipper.Scenes
