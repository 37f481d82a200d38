/-
  DfcFlipper.Scenes.Files — which events of the application touch which files.

  Update File and an accepted name touch the file they save to, and the right button of the delete
  scene the file it removes; no other event touches the storage (`step_frame`). They leave the
  text of the credential then in memory, as much of it as fitted, nothing, or the file as it
  was (`LeftBy`).

  `file_accounted`: behind every run, any file is as it was at the start or as the last event that
  touched it left it. If that removed it, the credential in memory came from it, whatever
  was done before: the delete scene is only reached through the saved menu, where `load_path` is
  the origin (`Moves.known`).
-/

import DfcFlipper.Scenes.Changes
import DfcFlipper.Scenes.Origin

namespace DfcFlipper.Scenes

open DfcFlipper.Lib.Bytes DfcFlipper.Lib.Frame DfcFlipper.Lib.Run DfcFlipper.Lib.Stack DfcFlipper.Storage

variable {n : Nat} {β : Type}

/-! ## The files an event touches -/

/-- The file `dfc_scene_delete_on_event` removes. -/
def removeTarget (s : App n β) (a : Action n β) : Option Path :=
  match s.scenes.head?, a with
  | some .delete, .buttonRight => some (deletePath s.store.loadPath s.credential true)
  | _, _ => none

def Touches (P : Parts n β) (s : App n β) (a : Action n β) (file : Path) : Prop :=
  (∃ c, saveTarget P s a = some (file, c)) ∨ removeTarget s a = some file

section Frame

variable {P : Parts n β} {e : Env} {s : App n β} {a : Action n β} {file : Path}

theorem removeTarget_eq_some (h : removeTarget s a = some file) :
    s.scenes.head? = some .delete ∧ a = .buttonRight ∧ file = deletePath s.store.loadPath s.credential true := by
  unfold removeTarget at h
  split at h
  · rename_i ht
    exact ⟨ht, rfl, (Option.some.inj h).symm⟩
  · cases h

theorem remove_files (ht : s.scenes.head? = some .delete) :
    (step P s (.buttonRight, e)).1.store.files = (credentialDelete e.remove s.store s.credential true).1.files := by
  simp only [step, handleEvent, onEvent, ht, deleteOnEvent]
  split
  · simp only [nextScene, switchTo_store]
  · simp only [Handled.after, searchAndSwitch_store]

theorem credentialDelete_files (removed : Bool) (s : Store) (c : Credential n β) :
    (credentialDelete removed s c true).1.files =
      if removed then Function.update s.files (deletePath s.loadPath c true) none else s.files := by
  unfold credentialDelete
  split <;> rfl

theorem save_files {c : Credential n β} (hst : saveTarget P s a = some (file, c)) :
    (step P s (a, e)).1.store.files = (writeFile P.text e.save s.store.files c file).files := by
  rw [← saveAt_files (s := s.store), step]
  cases hs : (saveAt P.text e.save s.store c file).saved with
  | true => rw [(saved_leaves hst hs).store]
  | false => rw [(failed_leaves hst hs).store]

/-- What an event does not touch stays as it is. -/
theorem step_frame (P : Parts n β) (s : App n β) (i : Action n β × Env) {file : Path} (h : ¬Touches P s i.1 file) :
    (step P s i).1.store.files file = s.store.files file := by
  obtain ⟨a, e⟩ := i
  obtain ⟨t, es, hch, hl⟩ := step_changes P s (a, e)
  cases hch with
  | kept _ hst _ _ => rw [hl.store, hst]
  | reader _ _ _ _ _ _ hst _ => rw [hl.store, hst]
  | blank _ _ _ hst _ => rw [hl.store, hst]
  | cleared _ hf _ _ => rw [hl.store, hf]
  | opened _ _ hf _ _ => rw [hl.store, hf]
  | saved path c hst _ _ _ _ =>
    rw [save_files hst]
    exact writeFile_changedOnly P.text e.save s.store.files c path file fun hp => h (Or.inl ⟨c, by rw [hst, ← hp]⟩)
  | failed path c hst _ _ _ _ _ =>
    rw [save_files hst]
    exact writeFile_changedOnly P.text e.save s.store.files c path file fun hp => h (Or.inl ⟨c, by rw [hst, ← hp]⟩)
  | discarded _ _ _ hst _ => rw [hl.store, hst]
  | deleted ha ht _ _ _ _ =>
    subst ha
    rw [remove_files ht, credentialDelete_files]
    split
    · refine Function.update_of_ne (fun hp => h (Or.inr ?_)) _ _
      simp only [removeTarget, ht, hp]
    · rfl

end Frame

/-! ## What Delete removes -/

def Known (a : App n β × List Effect) : Prop :=
  ∀ scene ∈ a.1.scenes, ofFile scene = true → a.1.store.loadPath ≠ [] ∧ origin a.2 = some a.1.store.loadPath

section Known

variable {P : Parts n β} {e : Env} {a : Action n β} {s s' : App n β} {log es : List Effect}

/-- Nothing is below the main menu. -/
theorem Stacked.mainMenu {scenes : List Scene} (h : Stacked scenes) (ht : scenes.head? = some .mainMenu) {scene : Scene}
    (hm : scene ∈ scenes) : scene = .mainMenu := by
  obtain ⟨below, rfl⟩ : ∃ below, scenes = .mainMenu :: below := by
    cases scenes with
    | nil => cases ht
    | cons top below => exact ⟨below, by rw [Option.some.inj ht]⟩
  cases below with
  | nil => exact List.mem_singleton.mp hm
  | cons next _ =>
    have hc := (List.isChain_cons_cons.mp h).1
    revert hc
    cases next <;> exact fun hc => absurd hc (by decide)

/-- A step that leaves the origin and `load_path` alone and comes to no new scene of a file. -/
theorem Known.quiet (h : Known (s, log)) (hp : s'.store.loadPath = s.store.loadPath) (hq : Quiet es)
    (hs : ∀ scene ∈ s'.scenes, ofFile scene = true → ∃ below ∈ s.scenes, ofFile below = true) :
    Known (s', log ++ es) := by
  intro scene hm hf
  obtain ⟨below, hb, hfb⟩ := hs scene hm hf
  have hk := h below hb hfb
  simp only at hk ⊢
  rw [hp, origin_append, hq]
  exact hk

/-- A step behind which no scene of a file is left. -/
theorem known_none (h : ∀ scene ∈ s'.scenes, ofFile scene = false) : Known (s', log) := by
  intro scene hm hf
  rw [h scene hm] at hf
  cases hf

theorem Moves.known (hm : Moves P e a s s' es) (hst : Stacked s.scenes) (h : Known (s, log)) : Known (s', log ++ es) := by
  cases hm with
  | stay hs hp hq => exact h.quiet hp hq fun scene hsc hf => ⟨scene, hs ▸ hsc, hf⟩
  | push top scene ht hc hh hs hp hq =>
    refine h.quiet hp hq fun x hx hf => ?_
    rw [hs] at hx
    rcases List.mem_cons.mp hx with rfl | hx
    · exact ⟨top, List.mem_of_mem_head? ht, covers_ofFile hc hf hh⟩
    · exact ⟨x, hx, hf⟩
  | blank _ ht hs _ _ =>
    refine known_none fun scene hsc => ?_
    rw [hs] at hsc
    rcases List.mem_cons.mp hsc with rfl | hsc
    · rfl
    · rw [hst.mainMenu ht hsc]
      rfl
  | opened path _ hne _ hp ho _ =>
    intro scene _ _
    rw [origin_append, ho, hp]
    exact ⟨hne, rfl⟩
  | refused ht hs _ =>
    have hsuf : s'.scenes <:+ s.scenes := by
      rcases hs with hs | hs
      · exact hs ▸ List.suffix_rfl
      · exact search_suffix hs
    exact known_none fun scene hsc => hst.fileSelect ht (hsuf.subset hsc)
  | saved _ path _ _ hne _ hp ho _ =>
    intro scene _ _
    rw [origin_append, ho, hp]
    exact ⟨hne, rfl⟩
  | pop hs hp hq => exact h.quiet hp hq fun scene hsc hf => ⟨scene, List.mem_of_mem_tail (hs ▸ hsc), hf⟩
  | down _ _ _ hs _ hp hq => exact h.quiet hp hq fun scene hsc hf => ⟨scene, (search_suffix hs).subset hsc, hf⟩
  | close ht hs _ _ =>
    -- what is below the saved menu is the file list
    refine known_none fun scene hsc => ?_
    rw [hs] at hsc
    cases hn : s.scenes.tail.head? with
    | none => rw [List.head?_eq_none_iff.mp hn] at hsc; cases hsc
    | some next =>
      obtain ⟨upper, hu, hc⟩ := hst.above hn
      obtain rfl := Option.some.inj (hu.symm.trans ht)
      obtain rfl : next = .fileSelect := by revert hc; cases next <;> decide
      exact hst.tail.fileSelect hn hsc
  | quit hs _ =>
    refine known_none fun scene hsc => ?_
    rw [hs] at hsc
    cases hsc

theorem known_run (P : Parts n β) (files : Files) (c : Credential n β) (is : List (Action n β × Env)) :
    Known (run (step P) (appInit files c) is) := by
  have h0 : Stacked (appInit files c).scenes ∧ Known (appInit files c, []) := by
    refine ⟨List.isChain_singleton _, known_none fun scene hm => ?_⟩
    obtain rfl := List.mem_singleton.mp hm
    rfl
  have hstep : ∀ (b : App n β × List Effect) i, Stacked b.1.scenes ∧ Known b →
      Stacked (logged (step P) b i).1.scenes ∧ Known (logged (step P) b i) := fun b i h =>
    ⟨(step_moves P b.1 i).stacked h.1, (step_moves P b.1 i).known h.1 h.2⟩
  exact (run_outputs_inv (fun b : App n β × List Effect => Stacked b.1.scenes ∧ Known b) hstep is
    (appInit files c, []) h0).2

end Known

/-! ## Every run -/

inductive LeftBy (P : Parts n β) (a : App n β × List Effect) (i : Action n β × Env) (file : Path) : Option Octets → Prop
  | saved (c : Credential n β) (text : Octets) : saveTarget P a.1 i.1 = some (file, c) → Renders P.text i.2.save c text →
      .saved file ∈ (step P a.1 i).2 → LeftBy P a i file (some text)
  | cut (c : Credential n β) (text : Octets) : saveTarget P a.1 i.1 = some (file, c) → Renders P.text i.2.save c text →
      i.2.save.accepts < text.length → LeftBy P a i file (some (text.take i.2.save.accepts))
  /-- The save fails before the file is opened. -/
  | unopened (c : Credential n β) : saveTarget P a.1 i.1 = some (file, c) →
      (∀ text, Renders P.text i.2.save c text → i.2.save.openWrite = false) → LeftBy P a i file (a.1.store.files file)
  | removed : a.1.scenes.head? = some .delete → i.1 = .buttonRight → i.2.remove = true → origin a.2 = some file →
      LeftBy P a i file none
  | notRemoved : a.1.scenes.head? = some .delete → i.1 = .buttonRight → i.2.remove = false →
      LeftBy P a i file (a.1.store.files file)

theorem leftBy_of_touches {P : Parts n β} {a : App n β × List Effect} {i : Action n β × Env} {file : Path} (hk : Known a)
    (h : Touches P a.1 i.1 file) : LeftBy P a i file ((step P a.1 i).1.store.files file) := by
  obtain ⟨x, e⟩ := i
  rcases h with ⟨c, hst⟩ | hr
  · have hfiles := save_files (e := e) hst
    rw [hfiles]
    rcases writeFile_cases P.text e.save a.1.store.files c file with ⟨hno, hw⟩ | ⟨text, hR, _, hl, hw⟩ | ⟨text, hR, _, _, hw⟩
    · rw [hw]
      exact .unopened c hst hno
    · rw [hw]
      simp only [Function.update_self]
      exact .cut c text hst hR hl
    · have hs : (saveAt P.text e.save a.1.store c file).saved = true := by rw [saveAt_saved, hw]
      obtain ⟨fs, hes, _, _⟩ := (saved_leaves hst hs).effects
      rw [hw]
      simp only [Function.update_self]
      refine .saved c text hst hR ?_
      rw [step, hes]
      exact List.mem_append_left _ (List.mem_singleton_self _)
  · obtain ⟨ht, rfl, rfl⟩ := removeTarget_eq_some hr
    obtain ⟨hne, ho⟩ := hk .delete (List.mem_of_mem_head? ht) rfl
    have hpath : deletePath a.1.store.loadPath a.1.credential true = a.1.store.loadPath := if_pos ⟨rfl, hne⟩
    rw [remove_files ht, credentialDelete_files]
    cases hrm : e.remove with
    | true =>
      rw [if_pos rfl, Function.update_self]
      exact .removed ht rfl hrm (by rw [hpath, ho])
    | false =>
      rw [if_neg Bool.false_ne_true]
      exact .notRemoved ht rfl hrm

/-- Behind every run, a file that no event touched is as it was at the start; any other is as the last event that touched
it left it. What was removed is the file the credential in memory came from. -/
theorem file_accounted (P : Parts n β) (files : Files) (c : Credential n β) (is : List (Action n β × Env)) (file : Path) :
    let a := run (step P) (appInit files c) is
    (Along (logged (step P)) (fun b j => ¬Touches P b.1 j.1 file) (appInit files c, []) is ∧
      a.1.store.files file = files file) ∨
    ∃ js i ks, is = js ++ i :: ks ∧
      let b := run (step P) (appInit files c) js
      Touches P b.1 i.1 file ∧
      Along (logged (step P)) (fun d j => ¬Touches P d.1 j.1 file) (logged (step P) b i) ks ∧
      LeftBy P b i file (a.1.store.files file) := by
  intro a
  have hframe : ∀ (b : App n β × List Effect) (j : Action n β × Env), ¬Touches P b.1 j.1 file →
      (logged (step P) b j).1.store.files file = b.1.store.files file := fun b j => step_frame P b.1 j
  rcases last_touch (fun b : App n β × List Effect => b.1.store.files file) (fun b j => Touches P b.1 j.1 file) hframe is
    (appInit files c, []) with ⟨hfree, hv⟩ | ⟨js, i, ks, his, ht, hfree, hv⟩
  · exact Or.inl ⟨hfree, hv⟩
  · refine Or.inr ⟨js, i, ks, his, ht, hfree, ?_⟩
    have hleft := leftBy_of_touches (known_run P files c js) ht
    exact hv ▸ hleft

end DfcFlipper.Scenes
