import TCodeIME.GlazeModels
import TCodeIME.Library.QuotedCommand

/-!
The command line the proxy starts the engine with, and what `cmd.exe` reads in it.
-/

namespace TCodeProxy

open TCodeIME QuotedCommand

def wide (s : String) : WString := Utf16.encode s.toList

structure EngineStart where
  scriptPath : WString
  workingDir : WString
  engineDir : WString
deriving DecidableEq

structure ProcessCreation where
  commandLine : WString
  currentDirectory : WString
deriving DecidableEq

def startEngineProcess (moduleDir : WString) (start : EngineStart) : ProcessCreation where
  commandLine := wide "cmd.exe /c \"" ++ start.scriptPath ++ wide "\""
  currentDirectory := if start.workingDir.isEmpty then moduleDir else start.workingDir

def ensureEngineRunning (fileExists : WString → Bool) (engineDir moduleDir : WString) :
    Option ProcessCreation :=
  let fallbackScript := moduleDir ++ wide "\\tcodeserver.bat"
  if engineDir.isEmpty then
    if fileExists fallbackScript then
      some (startEngineProcess moduleDir ⟨fallbackScript, moduleDir, []⟩)
    else none
  else
    let scriptPath := engineDir ++ wide "\\bin\\tcodeserver.bat"
    let altScript := engineDir ++ wide "\\tcodeserver.bat"
    if fileExists scriptPath then
      some (startEngineProcess moduleDir ⟨scriptPath, engineDir, engineDir⟩)
    else if fileExists altScript then
      some (startEngineProcess moduleDir ⟨altScript, engineDir, engineDir⟩)
    else if fileExists fallbackScript then
      some (startEngineProcess moduleDir ⟨fallbackScript, engineDir, engineDir⟩)
    else none

theorem ensureEngineRunning_start {fileExists : WString → Bool} {engineDir moduleDir : WString}
    {creation : ProcessCreation} (h : ensureEngineRunning fileExists engineDir moduleDir = some creation) :
    ∃ start, creation = startEngineProcess moduleDir start ∧ fileExists start.scriptPath = true ∧
      start.workingDir = (if engineDir.isEmpty then moduleDir else engineDir) ∧
      start.engineDir = engineDir := by
  unfold ensureEngineRunning at h
  dsimp only at h
  split_ifs at h with hdir hfallback hscript halt hfallback
  · cases h
    exact ⟨_, rfl, hfallback, (if_pos hdir).symm, (List.isEmpty_iff.mp hdir).symm⟩
  · cases h
    exact ⟨_, rfl, hscript, (if_neg hdir).symm, rfl⟩
  · cases h
    exact ⟨_, rfl, halt, (if_neg hdir).symm, rfl⟩
  · cases h
    exact ⟨_, rfl, hfallback, (if_neg hdir).symm, rfl⟩

/-! Paths. -/

def QUOTE : WChar := 0x22
def AMPERSAND : WChar := 0x26
def BACKSLASH : WChar := 0x5C
def COLON : WChar := 0x3A

/-- Neither a control character nor one of `"*/:<>?\|`. -/
def legalInName (c : WChar) : Bool :=
  0x20 ≤ c && !([QUOTE, 0x2A, 0x2F, COLON, 0x3C, 0x3E, 0x3F, BACKSLASH, 0x7C].contains c)

def isDriveLetter (c : WChar) : Bool := (0x41 ≤ c && c ≤ 0x5A) || (0x61 ≤ c && c ≤ 0x7A)

/-- A path from the root of a drive, or of a share where there is no drive. -/
structure AbsolutePath where
  drive : Option WChar
  names : List WString
  isLetter : ∀ c ∈ drive, isDriveLetter c = true
  names_ne : names ≠ []
  legal : ∀ name ∈ names, name ≠ [] ∧ ∀ c ∈ name, legalInName c = true

def AbsolutePath.text (path : AbsolutePath) : WString :=
  (match path.drive with
    | some letter => [letter, COLON]
    | none => [BACKSLASH]) ++ path.names.flatMap (BACKSLASH :: ·)

/-! What `cmd.exe` does with its command line. Its own notions of white space and of an executable
file are parameters. -/

def isSpecial (c : WChar) : Bool := [AMPERSAND, 0x3C, 0x3E, 0x28, 0x29, 0x40, 0x5E, 0x7C].contains c

def endsCommandName (c : WChar) : Bool := [AMPERSAND, 0x3C, 0x3E, 0x7C].contains c

def cmdExe (isWhitespace : WChar → Bool) (isExecutable : WString → Bool) : Reader WChar where
  quote := QUOTE
  special := isSpecial
  space := isWhitespace
  endsName := endsCommandName
  names := isExecutable

def commandRun (isWhitespace : WChar → Bool) (isExecutable : WString → Bool) (commandLine : WString) :
    Option WString :=
  if (wide "cmd.exe /c ").isPrefixOf commandLine then
    some ((cmdExe isWhitespace isExecutable).commandName (commandLine.drop (wide "cmd.exe /c ").length))
  else none

theorem commandRun_startEngineProcess (isWhitespace : WChar → Bool) (isExecutable : WString → Bool)
    (moduleDir : WString) (start : EngineStart) :
    commandRun isWhitespace isExecutable (startEngineProcess moduleDir start).commandLine =
      some ((cmdExe isWhitespace isExecutable).commandName (QUOTE :: start.scriptPath ++ [QUOTE])) := by
  have hsplit : wide "cmd.exe /c \"" ++ start.scriptPath ++ wide "\"" =
      wide "cmd.exe /c " ++ (QUOTE :: start.scriptPath ++ [QUOTE]) := rfl
  have hprefix : (wide "cmd.exe /c ").isPrefixOf
      (wide "cmd.exe /c " ++ (QUOTE :: start.scriptPath ++ [QUOTE])) = true :=
    List.isPrefixOf_iff_prefix.mpr (List.prefix_append _ _)
  change commandRun _ _ (wide "cmd.exe /c \"" ++ start.scriptPath ++ wide "\"") = _
  rw [hsplit, commandRun, if_pos hprefix, List.drop_left]

theorem AbsolutePath.text_legal (path : AbsolutePath) {c : WChar} (hc : c ∈ path.text) :
    c ≠ QUOTE ∧ c ≠ 0x3C ∧ c ≠ 0x3E ∧ c ≠ 0x7C := by
  have hcases : isDriveLetter c = true ∨ c = COLON ∨ c = BACKSLASH ∨ legalInName c = true := by
    rw [text, List.mem_append, List.mem_flatMap] at hc
    rcases hc with hroot | ⟨name, hname, hc⟩
    · cases hdrive : path.drive with
      | some letter =>
        simp only [hdrive, List.mem_cons, List.not_mem_nil, or_false] at hroot
        rcases hroot with rfl | rfl
        · exact .inl (path.isLetter c hdrive)
        · exact .inr (.inl rfl)
      | none =>
        simp only [hdrive, List.mem_singleton] at hroot
        exact .inr (.inr (.inl hroot))
    · rcases List.mem_cons.mp hc with rfl | hc
      · exact .inr (.inr (.inl rfl))
      · exact .inr (.inr (.inr ((path.legal name hname).2 c hc)))
  refine ⟨?_, ?_, ?_, ?_⟩ <;> (rintro rfl; revert hcases; decide)

theorem engine_started_iff (isWhitespace : WChar → Bool) (isExecutable : WString → Bool)
    (path : AbsolutePath) (workingDir engineDir moduleDir : WString) :
    commandRun isWhitespace isExecutable
        (startEngineProcess moduleDir ⟨path.text, workingDir, engineDir⟩).commandLine = some path.text ↔
      ((∃ c ∈ path.text, isWhitespace c = true) ∧
        (∀ c ∈ path.text, c ∉ [AMPERSAND, 0x28, 0x29, 0x40, 0x5E]) ∧ isExecutable path.text = true) ∨
      ∀ c ∈ path.text, isWhitespace c = false ∧ c ≠ AMPERSAND := by
  have hquote : (cmdExe isWhitespace isExecutable).quote ∉ path.text :=
    fun hc => (path.text_legal hc).1 rfl
  rw [commandRun_startEngineProcess, Option.some_inj]
  refine (Reader.commandName_quoted_eq_iff hquote).trans (or_congr ?_ ?_)
  · simp only [Reader.keeps, cmdExe, Bool.and_eq_true, List.all_eq_true, List.any_eq_true]
    have hspecial : (∀ c ∈ path.text, (!isSpecial c) = true) ↔
        ∀ c ∈ path.text, c ∉ [AMPERSAND, 0x28, 0x29, 0x40, 0x5E] := by
      apply forall₂_congr
      intro c hc
      have hlegal := path.text_legal hc
      simp [isSpecial, hlegal]
    rw [hspecial, and_comm (a := ∀ c ∈ path.text, _), and_assoc]
  · apply forall₂_congr
    intro c hc
    have hlegal := path.text_legal hc
    simp [cmdExe, endsCommandName, hlegal]

theorem legal_of_all (names : List WString)
    (h : names.all (fun name => !name.isEmpty && name.all legalInName) = true) :
    ∀ name ∈ names, name ≠ [] ∧ ∀ c ∈ name, legalInName c = true := by
  intro name hname
  have hall := List.all_eq_true.mp h name hname
  rw [Bool.and_eq_true, List.all_eq_true] at hall
  exact ⟨by simpa using hall.1, hall.2⟩

def x86Names : List WString :=
  [wide "Program Files (x86)", wide "T-Code IME", wide "engine", wide "bin", wide "tcodeserver.bat"]

theorem x86Names_legal : ∀ name ∈ x86Names, name ≠ [] ∧ ∀ c ∈ name, legalInName c = true :=
  legal_of_all x86Names (by decide +kernel)

theorem isDriveLetter_C : ∀ c ∈ some (0x43 : WChar), isDriveLetter c = true := by
  rintro c ⟨⟩
  rfl

def x86Script : AbsolutePath :=
  ⟨some 0x43, x86Names, isDriveLetter_C, List.cons_ne_nil _ _, x86Names_legal⟩

/-- The parentheses of a 32-bit program directory make `cmd.exe` drop the quotes, and the name of the
command ends at the first blank. -/
theorem engine_not_started_from_x86 :
    x86Script.text = wide "C:\\Program Files (x86)\\T-Code IME\\engine\\bin\\tcodeserver.bat" ∧
      commandRun (· == 0x20) (· == x86Script.text)
          (startEngineProcess [] ⟨x86Script.text, x86Script.text, x86Script.text⟩).commandLine =
        some (wide "C:\\Program") ∧
      x86Script.text ≠ wide "C:\\Program" :=
  ⟨by decide +kernel, by decide +kernel, by decide +kernel⟩

end TCodeProxy
