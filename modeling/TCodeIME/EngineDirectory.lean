import TCodeIME.EngineCommandLine
import TCodeIME.Library.SeparatedPath

/-!
The search for the folder of the engine, upward from the directory of the proxy's module.
-/

namespace TCodeProxy

open TCodeIME SeparatedPath

def SLASH : WChar := 0x2F
def MAX_PATH : ℕ := 260
def INVALID_FILE_ATTRIBUTES : UInt32 := 0xFFFFFFFF
def FILE_ATTRIBUTE_DIRECTORY : UInt32 := 0x10

def isSeparator (c : WChar) : Bool := [BACKSLASH, SLASH].contains c

def isDirectory (attrib : UInt32) : Bool :=
  attrib != INVALID_FILE_ATTRIBUTES && (attrib &&& FILE_ATTRIBUTE_DIRECTORY) != 0

section

/-! `getModuleFileName nSize` is the text that Windows leaves in a buffer of `nSize` characters. -/

variable (getModuleFileName : ℕ → WString) (getFileAttributes : WString → UInt32)

def getModuleDir : WString :=
  let path := getModuleFileName MAX_PATH
  match findLastOf isSeparator path with
  | some lastSlash => path.take lastSlash
  | none => []

/-- The loop of `GetEngineDir`, given up where it would cut the path more often than `cuts` times. -/
def engineDirLoop (cuts : ℕ) (path : WString) : Option WString :=
  if path.isEmpty then some []
  else
    let potential := path ++ wide "\\engine"
    if isDirectory (getFileAttributes potential) then some potential
    else
      match findLastOf isSeparator path, cuts with
      | none, _ => some []
      | some _, 0 => none
      | some lastSlash, cuts + 1 => engineDirLoop cuts (path.take lastSlash)

def getEngineDir (cuts : ℕ) : Option WString :=
  engineDirLoop getFileAttributes cuts (getModuleDir getModuleFileName)

end

def HasEngine (getFileAttributes : WString → UInt32) (dir : WString) : Prop :=
  isDirectory (getFileAttributes (dir ++ wide "\\engine")) = true

inductive NearestEngine (getFileAttributes : WString → UInt32) (dir : WString) : WString → Prop
  | found {D : WString} (h : Nearest isSeparator (HasEngine getFileAttributes) dir D) :
      NearestEngine getFileAttributes dir (D ++ wide "\\engine")
  | missing (h : ∀ D, Ancestor isSeparator dir D → ¬ HasEngine getFileAttributes D) :
      NearestEngine getFileAttributes dir []

variable {getFileAttributes : WString → UInt32} {dir engineDir : WString}

theorem NearestEngine.of_cut {i : ℕ} (hdir : findLastOf isSeparator dir = some i)
    (hnot : ¬ HasEngine getFileAttributes dir) (h : NearestEngine getFileAttributes (dir.take i) engineDir) :
    NearestEngine getFileAttributes dir engineDir := by
  cases h with
  | found h => exact .found (h.of_cut hdir hnot)
  | missing h =>
    apply NearestEngine.missing
    intro D hD
    rcases (ancestor_cut hdir).mp hD with ⟨-, rfl⟩ | hbelow
    · exact hnot
    · exact h D hbelow

/-! The loop, one pass at a time. -/

variable {path : WString}

theorem engineDirLoop_nil (cuts : ℕ) : engineDirLoop getFileAttributes cuts [] = some [] := by
  rw [engineDirLoop.eq_def]
  rfl

theorem engineDirLoop_found (hpath : path ≠ []) (h : HasEngine getFileAttributes path) (cuts : ℕ) :
    engineDirLoop getFileAttributes cuts path = some (path ++ wide "\\engine") := by
  have hempty : ¬ path.isEmpty = true := by simpa using hpath
  rw [engineDirLoop.eq_def, if_neg hempty]
  exact if_pos h

theorem engineDirLoop_last (hpath : path ≠ []) (hnot : ¬ HasEngine getFileAttributes path)
    (hlast : findLastOf isSeparator path = none) (cuts : ℕ) :
    engineDirLoop getFileAttributes cuts path = some [] := by
  have hempty : ¬ path.isEmpty = true := by simpa using hpath
  rw [engineDirLoop.eq_def, if_neg hempty]
  refine (if_neg hnot).trans ?_
  rw [hlast]

theorem engineDirLoop_cut {lastSlash : ℕ} (hpath : path ≠ []) (hnot : ¬ HasEngine getFileAttributes path)
    (hlast : findLastOf isSeparator path = some lastSlash) (cuts : ℕ) :
    engineDirLoop getFileAttributes (cuts + 1) path =
      engineDirLoop getFileAttributes cuts (path.take lastSlash) := by
  have hempty : ¬ path.isEmpty = true := by simpa using hpath
  rw [engineDirLoop.eq_def, if_neg hempty]
  refine (if_neg hnot).trans ?_
  rw [hlast]

theorem engineDirLoop_nearest (getFileAttributes : WString → UInt32) (path : WString) :
    ∃ engineDir,
      (∀ extra, engineDirLoop getFileAttributes (path.countP isSeparator + extra) path = some engineDir) ∧
      NearestEngine getFileAttributes path engineDir := by
  induction path using cut_induction isSeparator with
  | last path hlast =>
    by_cases hpath : path = []
    · subst hpath
      refine ⟨[], fun extra => engineDirLoop_nil _, .missing ?_⟩
      intro D hD
      exact absurd hD not_ancestor_nil
    by_cases hengine : HasEngine getFileAttributes path
    · exact ⟨_, fun extra => engineDirLoop_found hpath hengine _, .found (.self hpath hengine)⟩
    · refine ⟨[], fun extra => engineDirLoop_last hpath hengine hlast _, .missing ?_⟩
      intro D hD
      rw [hD.eq_of_findLastOf_eq_none hlast]
      exact hengine
  | cut path lastSlash hlast ih =>
    have hpath : path ≠ [] := by
      rintro rfl
      simp [findLastOf] at hlast
    by_cases hengine : HasEngine getFileAttributes path
    · exact ⟨_, fun extra => engineDirLoop_found hpath hengine _, .found (.self hpath hengine)⟩
    · obtain ⟨engineDir, hloop, hnearest⟩ := ih
      refine ⟨engineDir, ?_, hnearest.of_cut hlast hengine⟩
      intro extra
      rw [countP_take_findLastOf hlast, Nat.add_right_comm, engineDirLoop_cut hpath hengine hlast]
      exact hloop extra

theorem getModuleDir_directory (getModuleFileName : ℕ → WString) :
    Directory isSeparator (getModuleFileName MAX_PATH) (getModuleDir getModuleFileName) := by
  unfold getModuleDir
  dsimp only
  split
  · next lastSlash hlast => exact directory_take hlast
  · next hlast => exact directory_nil hlast

theorem getEngineDir_nearest (getModuleFileName : ℕ → WString) (getFileAttributes : WString → UInt32) :
    Directory isSeparator (getModuleFileName MAX_PATH) (getModuleDir getModuleFileName) ∧
    ∃ engineDir,
      (∀ extra, getEngineDir getModuleFileName getFileAttributes
        ((getModuleDir getModuleFileName).countP isSeparator + extra) = some engineDir) ∧
      NearestEngine getFileAttributes (getModuleDir getModuleFileName) engineDir :=
  ⟨getModuleDir_directory getModuleFileName,
    engineDirLoop_nearest getFileAttributes (getModuleDir getModuleFileName)⟩

theorem getEngineDir_nearest_share :
    let getModuleFileName := fun _ => wide "\\\\host\\share//bin\\/proxy.exe"
    let getFileAttributes := fun path => if path == wide "\\\\host\\share\\engine" then 0x10 else 0xFFFFFFFF
    getEngineDir getModuleFileName getFileAttributes 6 = some (wide "\\\\host\\share\\engine") ∧
      NearestEngine getFileAttributes (wide "\\\\host\\share//bin\\") (wide "\\\\host\\share\\engine") := by
  intro getModuleFileName getFileAttributes
  obtain ⟨-, engineDir, hloop, hnearest⟩ := getEngineDir_nearest getModuleFileName getFileAttributes
  have hdir : getModuleDir getModuleFileName = wide "\\\\host\\share//bin\\" := by decide +kernel
  have hcuts : (wide "\\\\host\\share//bin\\").countP isSeparator = 6 := by decide +kernel
  have hfound : getEngineDir getModuleFileName getFileAttributes 6 = some (wide "\\\\host\\share\\engine") := by
    decide +kernel
  rw [hdir] at hloop hnearest
  rw [hcuts] at hloop
  have heq : engineDir = wide "\\\\host\\share\\engine" := Option.some_inj.mp ((hloop 0).symm.trans hfound)
  rw [heq] at hnearest
  exact ⟨hfound, hnearest⟩

/-! The directory of the module. Windows cuts a name that does not fit the buffer. -/

def moduleFileName (fileName : WString) (nSize : ℕ) : WString := fileName.take (nSize - 1)

theorem getModuleDir_of_fits {c : WChar} {name : WString} (hc : isSeparator c = true)
    (hname : ∀ x ∈ name, isSeparator x = false) (hfits : (dir ++ c :: name).length < MAX_PATH) :
    getModuleDir (moduleFileName (dir ++ c :: name)) = dir := by
  have hpath : moduleFileName (dir ++ c :: name) MAX_PATH = dir ++ c :: name :=
    List.take_of_length_le (Nat.le_sub_one_of_lt hfits)
  simp only [getModuleDir, hpath, findLastOf_append_cons hc hname, List.take_left]

theorem getModuleDir_ancestor {c : WChar} {name : WString} (hc : isSeparator c = true)
    (hname : ∀ x ∈ name, isSeparator x = false) :
    getModuleDir (moduleFileName (dir ++ c :: name)) = [] ∨
      Ancestor isSeparator dir (getModuleDir (moduleFileName (dir ++ c :: name))) := by
  cases hlast : findLastOf isSeparator (moduleFileName (dir ++ c :: name) MAX_PATH) with
  | none => simp [getModuleDir, hlast]
  | some lastSlash =>
    obtain ⟨c', rest, hsplit, hc', -⟩ := findLastOf_split hlast
    have hdir : getModuleDir (moduleFileName (dir ++ c :: name)) =
        (moduleFileName (dir ++ c :: name) MAX_PATH).take lastSlash := by
      simp only [getModuleDir, hlast]
    rw [hdir]
    generalize (moduleFileName (dir ++ c :: name) MAX_PATH).take lastSlash = D at hsplit
    by_cases hD : D = []
    · exact .inl hD
    have hfile : dir ++ c :: name = D ++ c' :: (rest ++ (dir ++ c :: name).drop (MAX_PATH - 1)) := by
      calc dir ++ c :: name = moduleFileName (dir ++ c :: name) MAX_PATH ++
            (dir ++ c :: name).drop (MAX_PATH - 1) := (List.take_append_drop _ _).symm
        _ = D ++ c' :: (rest ++ (dir ++ c :: name).drop (MAX_PATH - 1)) := by
          rw [hsplit, List.append_assoc, List.cons_append]
    rcases (ancestor_cut (findLastOf_append_cons hc hname)).mp ⟨hD, .inr ⟨c', _, hc', hfile⟩⟩ with
      ⟨-, heq⟩ | habove
    · have hlen := congrArg List.length hfile
      rw [← heq] at hlen
      simp at hlen
    · rw [List.take_left] at habove
      exact .inr habove

/-! Where the engine runs. -/

theorem ensureEngineRunning_currentDirectory {fileExists : WString → Bool} {moduleDir : WString}
    {creation : ProcessCreation} (h : ensureEngineRunning fileExists engineDir moduleDir = some creation) :
    creation.currentDirectory = if engineDir.isEmpty then moduleDir else engineDir := by
  obtain ⟨start, rfl, -, hworking, -⟩ := ensureEngineRunning_start h
  rw [startEngineProcess, hworking]
  by_cases hdir : engineDir.isEmpty = true
  · rw [if_pos hdir, ite_id]
  · rw [if_neg hdir, if_neg hdir]

theorem engine_runs_in_nearest {getModuleFileName : ℕ → WString} {fileExists : WString → Bool} {extra : ℕ}
    {creation : ProcessCreation}
    (hdir : getEngineDir getModuleFileName getFileAttributes
      ((getModuleDir getModuleFileName).countP isSeparator + extra) = some engineDir)
    (h : ensureEngineRunning fileExists engineDir (getModuleDir getModuleFileName) = some creation) :
    (∃ D, Nearest isSeparator (HasEngine getFileAttributes) (getModuleDir getModuleFileName) D ∧
        creation.currentDirectory = D ++ wide "\\engine") ∨
      (∀ D, Ancestor isSeparator (getModuleDir getModuleFileName) D → ¬ HasEngine getFileAttributes D) ∧
        creation.currentDirectory = getModuleDir getModuleFileName := by
  obtain ⟨found, hloop, hnearest⟩ :=
    engineDirLoop_nearest getFileAttributes (getModuleDir getModuleFileName)
  have hfound : found = engineDir := Option.some_inj.mp ((hloop extra).symm.trans hdir)
  rw [ensureEngineRunning_currentDirectory h, ← hfound]
  cases hnearest with
  | @found D hD =>
    have hne : ¬ (D ++ wide "\\engine").isEmpty = true := by
      rw [List.isEmpty_iff, List.append_eq_nil_iff]
      intro hnil
      exact absurd hnil.2 (by decide)
    exact .inl ⟨D, hD, if_neg hne⟩
  | missing hnone => exact .inr ⟨hnone, rfl⟩

end TCodeProxy
