/-
  DfcFlipper.Storage.Core — the data of the credential store (dfc_credential_storage.c,
  dfc_credential_storage.h): paths, names, the credential, the files on storage and the one
  `load_path`.

  A path or a name is the list of its characters. The two functions of the SDK that take a
  path apart are parameters (`PathSdk`); `lastSlash` is what they do on the paths of this
  application. `DfcCredential` is defined in `lib/core`, which is not part of this
  repository: a credential keeps the fields this module reads (`name`, `uid`, `picc_ats`,
  `dirty`), and everything else it holds is `body`, of a type left open. The capacity of a
  name, `DFC_FILE_NAME_MAX_LENGTH`, is a parameter `n`.
-/

import DfcFlipper.Lib.Bytes

namespace DfcFlipper.Storage

open DfcFlipper.Lib.Bytes

/-! ## Paths -/

abbrev Path := List Char

/-- `DFC_APP_EXTENSION`. -/
def appExtension : Path := ['.', 'd', 'f', 'c']

/-- `DFC_BINARY_EXTENSION`. -/
def binaryExtension : Path := ['.', 'd', 'f', 'c', 'b']

/-- `STORAGE_APP_DATA_PATH_PREFIX`. -/
def appDataPathPrefix : Path := ['/', 'd', 'a', 't', 'a']

/-- `furi_string_end_with`. -/
def endWith (p ext : Path) : Bool := ext.isSuffixOf p

theorem endWith_iff {p ext : Path} : endWith p ext = true ↔ ∃ base, p = base ++ ext := by
  rw [endWith, List.isSuffixOf_iff_suffix]
  constructor
  · intro h
    rcases h with ⟨base, hb⟩
    exact ⟨base, hb.symm⟩
  · intro h
    rcases h with ⟨base, hb⟩
    exact ⟨base, hb.symm⟩

/-- `"%s/%s%s"`: a file of a folder. -/
def fileIn (folder name : Path) : Path := folder ++ '/' :: name ++ appExtension

theorem fileIn_ne_nil (folder name : Path) : fileIn folder name ≠ [] := by simp [fileIn]

/-- No path carries both extensions. -/
theorem not_endWith_binary {p : Path} (h : endWith p appExtension = true) : endWith p binaryExtension = false := by
  rw [Bool.eq_false_iff]
  intro hb
  obtain ⟨a, ha⟩ := endWith_iff.mp h
  obtain ⟨b, hb⟩ := endWith_iff.mp hb
  have hl := congrArg List.getLast? (ha.symm.trans hb)
  simp [appExtension, binaryExtension] at hl

/-- `path_extract_dirname` and `path_extract_filename(.., trim_ext = true)`. -/
structure PathSdk where
  extractDirname : Path → Path
  extractFilename : Path → Path

/-- Both functions split at the last slash; the file name loses what follows its last dot. -/
def lastSlash : PathSdk where
  extractDirname p := ((p.reverse.dropWhile (· ≠ '/')).drop 1).reverse
  extractFilename p :=
    let name := p.reverse.takeWhile (· ≠ '/')
    if name.contains '.' then ((name.dropWhile (· ≠ '.')).drop 1).reverse else name.reverse

example : lastSlash.extractDirname ['/', 'd', '/', 'a', '.', 'd', 'f', 'c'] = ['/', 'd'] ∧
    lastSlash.extractFilename ['/', 'd', '/', 'a', '.', 'd', 'f', 'c'] = ['a'] := by decide

/-! ## Names -/

/-- `char name[n + 1]`: a string of at most `n` characters. -/
structure Name (n : Nat) where
  chars : Path
  fits : chars.length ≤ n
  deriving DecidableEq

namespace Name

variable {n : Nat}

/-- `snprintf(name, sizeof(name), "%s", s)` and `strlcpy(name, s, sizeof(name))`. -/
def copy (n : Nat) (s : Path) : Name n := ⟨s.take n, List.length_take_le n s⟩

@[simp] theorem copy_chars (s : Path) : (copy n s).chars = s.take n := rfl

theorem ext_chars {a b : Name n} (h : a.chars = b.chars) : a = b := by
  cases a; cases b; cases h; rfl

/-- A name that fits is copied whole. -/
@[simp] theorem copy_self (a : Name n) : copy n a.chars = a := ext_chars (List.take_of_length_le a.fits)

end Name

/-! ## The credential -/

/-- What a credential file holds: everything but the name and the flag. -/
structure Card (β : Type) where
  uid : Octets
  /-- `picc_ats`, its first `picc_ats_len` octets. -/
  piccAts : Octets
  body : β
  deriving DecidableEq

structure Credential (n : Nat) (β : Type) where
  name : Name n
  card : Card β
  dirty : Bool
  deriving DecidableEq

/-- `dfc_credential_clear_dirty`. -/
def Credential.clearDirty {n : Nat} {β : Type} (c : Credential n β) : Credential n β := { c with dirty := false }

/-! ## Storage -/

abbrev Files := Path → Option Octets

/-- `store.load_path` and what the storage holds. -/
structure Store where
  loadPath : Path
  files : Files

/-- `DFC_FLIPPER_CREDENTIAL_MAX_SIZE`. -/
def flipperCredentialMaxSize : Nat := 16 * 1024

/-- `DfcTextStatus` and `DfcDerStatus`: one numbering, of which this module tells four
values apart. -/
inductive CodecStatus where
  | ok
  | unsupported
  | capacity
  | malformed
  | other (code : Nat)
  deriving DecidableEq

/-- What the calls that open a text codec come back with. -/
structure PluginDevice where
  managerAlloc : Bool
  loadSingle : Bool
  count : Nat
  /-- The entry point exists and has every function the caller needs. -/
  entryPoint : Bool

/-- `dfc_text_codec_open`. -/
def textCodecOpen (d : PluginDevice) : Bool :=
  if !d.managerAlloc then false
  else if !d.loadSingle then false
  else if d.count ≠ 1 then false
  else if !d.entryPoint then false
  else true

def PluginDevice.working : PluginDevice := ⟨true, true, 1, true⟩

end DfcFlipper.Storage
