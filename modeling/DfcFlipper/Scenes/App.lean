/-
  DfcFlipper.Scenes.App — the scenes of the application (scenes/, dfc.c) and what each does
  with an event: the stack of scenes, the credential in memory, `store.load_path`, the
  files on storage and `emulate_from_blank`.

  An event comes with the outcome of every call its handler may make (`Env`). What
  `lib/core`, the SDK and the plugins compute is a parameter (`Parts`). A step leaves a
  trace of effects: which file the credential in memory was loaded from or saved to, that
  it was replaced by a blank or a cleared one, the ATS the listener was started with, the
  error shown.

  The engine drives the credential only while the listener runs; what it makes of it is an
  event of the environment (`Action.reader`). No handler enters `DfcSceneRead`, so it and
  the two scenes behind it are not part of the model; neither are the texts and widgets a
  scene shows, nor the menu item a scene remembers.
-/

import DfcFlipper.Lib.Stack
import DfcFlipper.Storage.Load
import DfcFlipper.Storage.Overwrite

namespace DfcFlipper.Scenes

open DfcFlipper.Lib.Bytes DfcFlipper.Lib.Stack DfcFlipper.Storage

variable {n : Nat} {β : Type}

/-! ## The data -/

/-- `dfc_scene_config.h`. -/
inductive Scene where
  | mainMenu
  | emulate
  | fileSelect
  | savedMenu
  | saveName
  | mutationSave
  | saveSuccess
  | about
  | delete
  | deleteSuccess
  | info
  deriving DecidableEq

structure Parts (n : Nat) (β : Type) where
  sdk : PathSdk
  text : TextExport n β
  codec : Codec n β
  /-- `dfc_credential_init_blank`. -/
  initBlank : Credential n β → Credential n β
  /-- `dfc_credential_uid_is_detectable`. -/
  uidIsDetectable : Credential n β → Bool
  /-- `dfc_virtual_picc_anticollision`: the ATS it answers with. -/
  anticollisionAts : Credential n β → Octets

/-- The calls of `dfc_scene_emulate_on_enter` that can fail. -/
structure EmulateDevice where
  nfcDeviceSetUid : Bool
  iso14443SetUid : Bool
  emulatorAlloc : Bool
  listenerAlloc : Bool

structure Env where
  save : SaveDevice
  load : LoadDevice
  emulate : EmulateDevice
  /-- `storage_simply_remove`. -/
  remove : Bool

structure App (n : Nat) (β : Type) where
  /-- The scene manager's stack, the current scene first. -/
  scenes : List Scene
  credential : Credential n β
  store : Store
  emulateFromBlank : Bool
  /-- `dfc_emulator` and `listener` are there. -/
  emulating : Bool

inductive MainMenuItem where
  | saved
  | blankCard
  | about
  deriving DecidableEq

inductive SavedMenuItem where
  | emulate
  | delete
  | info
  deriving DecidableEq

inductive MutationSaveItem where
  | update
  | saveCopy
  | save
  | discard
  deriving DecidableEq

inductive Action (n : Nat) (β : Type) where
  /-- `SceneManagerEventTypeBack`. -/
  | back
  | mainMenu (item : MainMenuItem)
  /-- The file browser has written the path of the chosen file and calls back. -/
  | fileChosen (path : Path)
  | savedMenu (item : SavedMenuItem)
  /-- A command of a reader: the engine leaves this card and this flag. -/
  | reader (card : Card β) (dirty : Bool)
  | mutationSave (item : MutationSaveItem)
  /-- A text is entered: `DfcCustomEventTextInputDone`, when the validator accepts it. -/
  | textInputDone (textStore : Name n)
  /-- `DfcCustomEventViewExit`. -/
  | viewExit
  | buttonLeft
  | buttonRight

inductive Effect where
  /-- The credential in memory is now the one loaded from this file. -/
  | loaded (path : Path)
  /-- The credential in memory was saved to this file. -/
  | saved (path : Path)
  /-- The credential in memory was blanked or cleared. -/
  | replaced
  /-- The listener was started with this ATS. -/
  | listening (ats : Octets)
  /-- A storage error was shown. -/
  | shown (message : String)
  deriving DecidableEq

structure Handled (n : Nat) (β : Type) where
  app : App n β
  effects : List Effect
  consumed : Bool

def Handled.after (es : List Effect) (h : Handled n β) : Handled n β := { h with effects := es ++ h.effects }

def shownOf (message : Option String) : List Effect := message.toList.map .shown

/-! ## The scene manager -/

/-- `dfc_scene_emulate_on_enter`: the ATS the listener is started with, if it is. -/
def emulateOnEnter (P : Parts n β) (d : EmulateDevice) (c : Credential n β) : Option Octets :=
  if P.uidIsDetectable c = false then none
  else if d.nfcDeviceSetUid = false then none
  else if d.iso14443SetUid = false then none
  else if d.emulatorAlloc = false then none
  else if d.listenerAlloc = false then none
  else some (P.anticollisionAts c)

section Manager

variable (P : Parts n β) (e : Env) (s : App n β)

/-- The current scene is left and the top of the new stack entered. -/
def switchTo (scenes : List Scene) : App n β × List Effect :=
  let left := { s with scenes := scenes, emulating := false }
  if scenes.head? = some .emulate then
    match emulateOnEnter P e.emulate s.credential with
    | some ats => ({ left with emulating := true }, [.listening ats])
    | none => (left, [])
  else (left, [])

/-- `scene_manager_next_scene`. -/
def nextScene (scene : Scene) : Handled n β :=
  let r := switchTo P e s (scene :: s.scenes)
  ⟨r.1, r.2, true⟩

/-- `scene_manager_previous_scene`. -/
def previousScene : Handled n β :=
  let r := switchTo P e s s.scenes.tail
  ⟨r.1, r.2, !s.scenes.tail.isEmpty⟩

/-- `scene_manager_search_and_switch_to_previous_scene`. -/
def searchAndSwitchToPreviousScene (scene : Scene) : Handled n β :=
  match search scene s.scenes with
  | some scenes =>
    let r := switchTo P e s scenes
    ⟨r.1, r.2, true⟩
  | none => ⟨s, [], false⟩

/-! ## The handlers -/

/-- `dfc_scene_main_menu_on_event`. -/
def mainMenuOnEvent : Action n β → Handled n β
  | .mainMenu .saved => nextScene P e s .fileSelect
  | .mainMenu .blankCard =>
    (nextScene P e { s with credential := P.initBlank s.credential, emulateFromBlank := true } .emulate).after
      [.replaced]
  | .mainMenu .about => nextScene P e s .about
  -- every scene is popped; this one is the last
  | .back => ⟨{ s with scenes := [], emulating := false }, [], false⟩
  | _ => ⟨s, [], false⟩

/-- `dfc_scene_file_select_load_error_message`. -/
def loadErrorMessage : LoadStatus → String
  | .unsupportedFormat => "File format\nunsupported"
  | .unsupportedAuthMode => "Auth mode\nunsupported"
  | .codecUnavailable => "Text codec\ncould not load"
  | .openFailed => "Can not open\nfile"
  | .capacity => "Too large for\nthis build"
  | .malformedFile => "Can not parse\nfile"
  | .ok => "Can not parse\nfile"

/-- `dfc_scene_file_select_callback`, the chosen path already in `load_path`. -/
def fileSelectCallback : Handled n β :=
  if endWith s.store.loadPath appExtension = false ∧ endWith s.store.loadPath binaryExtension = false then
    (searchAndSwitchToPreviousScene P e { s with credential := P.codec.clear s.credential } .mainMenu).after
      [.replaced]
  else
    let c := { s.credential with name := Name.copy n (P.sdk.extractFilename s.store.loadPath) }
    let r := loadSelectedFile P.sdk P.codec e.load s.store c
    if r.loaded then
      (nextScene P e { s with credential := r.credential } .savedMenu).after [.loaded s.store.loadPath]
    else
      (searchAndSwitchToPreviousScene P e { s with credential := P.codec.clear r.credential } .mainMenu).after
        [.shown (loadErrorMessage r.status), .replaced]

/-- The file browser's callback; the scene itself handles no event. -/
def fileSelectOnEvent : Action n β → Handled n β
  | .fileChosen path => fileSelectCallback P e { s with store := { s.store with loadPath := path } }
  | _ => ⟨s, [], false⟩

/-- `dfc_scene_saved_menu_on_event`. -/
def savedMenuOnEvent : Action n β → Handled n β
  | .savedMenu .emulate => nextScene P e s .emulate
  | .savedMenu .info => nextScene P e s .info
  | .savedMenu .delete => nextScene P e s .delete
  | .back => ⟨{ s with credential := P.codec.clear s.credential }, [.replaced], false⟩
  | _ => ⟨s, [], false⟩

/-- `dfc_scene_emulate_on_event`, and the engine at work behind the scene. -/
def emulateOnEvent : Action n β → Handled n β
  | .reader card dirty =>
    if s.emulating then ⟨{ s with credential := { s.credential with card := card, dirty := dirty } }, [], true⟩
    else ⟨s, [], false⟩
  | .back =>
    if s.credential.dirty then nextScene P e s .mutationSave
    else if s.emulateFromBlank then ⟨{ s with emulateFromBlank := false }, [], false⟩
    else ⟨s, [], false⟩
  | _ => ⟨s, [], false⟩

/-- `dfc_scene_mutation_save_return`. -/
def mutationSaveReturn : Handled n β :=
  let s := { s with emulateFromBlank := false }
  let scene : Scene := if s.store.loadPath ≠ [] then .savedMenu else .mainMenu
  { searchAndSwitchToPreviousScene P e s scene with consumed := true }

/-- `dfc_scene_mutation_save_on_event`. -/
def mutationSaveOnEvent : Action n β → Handled n β
  | .mutationSave .update =>
    let r := credentialSaveLoaded P.text e.save s.store s.credential
    let s := { s with store := r.store, credential := r.credential }
    if r.saved then (nextScene P e s .saveSuccess).after [.saved r.store.loadPath]
    else (mutationSaveReturn P e s).after (shownOf r.shown)
  | .mutationSave .saveCopy => nextScene P e s .saveName
  | .mutationSave .save => nextScene P e s .saveName
  | .mutationSave .discard => mutationSaveReturn P e { s with credential := s.credential.clearDirty }
  | .back => previousScene P e s
  | _ => ⟨s, [], false⟩

/-- `dfc_scene_save_name_on_event`. -/
def saveNameOnEvent : Action n β → Handled n β
  | .textInputDone textStore =>
    let r := saveNameDone P.sdk P.text e.save s.store s.credential textStore
    let s := { s with store := r.store, credential := r.credential }
    if r.saved then (nextScene P e s .saveSuccess).after [.saved r.store.loadPath]
    else (searchAndSwitchToPreviousScene P e s .mainMenu).after (shownOf r.shown)
  | _ => ⟨s, [], false⟩

/-- The text input in front of it: a name its validator refuses is not done. -/
def saveNameInput : Action n β → Handled n β
  | .textInputDone textStore =>
    if saveNameAccepts P.sdk s.store s.credential textStore = false then ⟨s, [], false⟩
    else saveNameOnEvent P e s (.textInputDone textStore)
  | a => saveNameOnEvent P e s a

/-- `dfc_scene_save_success_on_event` and `dfc_scene_delete_success_on_event`. -/
def successOnEvent : Action n β → Handled n β
  | .viewExit => searchAndSwitchToPreviousScene P e s .mainMenu
  | _ => ⟨s, [], false⟩

/-- The path `dfc_credential_delete` removes. -/
def deletePath (loadPath : Path) (c : Credential n β) (useLoadPath : Bool) : Path :=
  if useLoadPath = true ∧ loadPath ≠ [] then loadPath else fileIn appDataPathPrefix c.name.chars

def canNotRemove : String := "Can not remove file"

/-- `dfc_credential_delete`: the store it leaves, and whether the file was removed. -/
def credentialDelete (removed : Bool) (s : Store) (c : Credential n β) (useLoadPath : Bool) : Store × Bool :=
  if removed then ({ s with files := Function.update s.files (deletePath s.loadPath c useLoadPath) none }, true)
  else (s, false)

/-- `dfc_scene_delete_on_event`. -/
def deleteOnEvent : Action n β → Handled n β
  | .buttonLeft => previousScene P e s
  | .buttonRight =>
    let r := credentialDelete e.remove s.store s.credential true
    let s := { s with store := r.1 }
    if r.2 then nextScene P e s .deleteSuccess
    else { (searchAndSwitchToPreviousScene P e s .mainMenu).after [.shown canNotRemove] with consumed := true }
  | _ => ⟨s, [], false⟩

/-- `dfc_scene_info_on_event` and `dfc_scene_about_on_event`. -/
def infoOnEvent : Action n β → Handled n β
  | .buttonLeft => previousScene P e s
  | .back => previousScene P e s
  | _ => ⟨s, [], false⟩

def onEvent (a : Action n β) : Handled n β :=
  match s.scenes.head? with
  | none => ⟨s, [], false⟩
  | some .mainMenu => mainMenuOnEvent P e s a
  | some .emulate => emulateOnEvent P e s a
  | some .fileSelect => fileSelectOnEvent P e s a
  | some .savedMenu => savedMenuOnEvent P e s a
  | some .saveName => saveNameInput P e s a
  | some .mutationSave => mutationSaveOnEvent P e s a
  | some .saveSuccess => successOnEvent P e s a
  | some .about => infoOnEvent P e s a
  | some .delete => deleteOnEvent P e s a
  | some .deleteSuccess => successOnEvent P e s a
  | some .info => infoOnEvent P e s a

/-- `scene_manager_handle_back_event` and `scene_manager_handle_custom_event`: Back goes one
scene down when the handler has not consumed it. -/
def handleEvent (a : Action n β) : App n β × List Effect :=
  let h := onEvent P e s a
  match a with
  | .back =>
    if h.consumed then (h.app, h.effects)
    else
      let h' := (previousScene P e h.app).after h.effects
      (h'.app, h'.effects)
  | _ => (h.app, h.effects)

end Manager

def step (P : Parts n β) (s : App n β) (i : Action n β × Env) : App n β × List Effect := handleEvent P i.2 s i.1

/-- `dfc_app`: the main menu, a new credential, no `load_path`. -/
def appInit (files : Files) (c : Credential n β) : App n β := ⟨[.mainMenu], c, ⟨[], files⟩, false, false⟩

end DfcFlipper.Scenes
