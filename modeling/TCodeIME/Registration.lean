import TCodeIME.EngineDirectory
import TCodeIME.Library.Runs
import Mathlib.Logic.Function.Basic

/-!
What `DllRegisterServer` and `DllUnregisterServer` leave behind in the registry and with TSF.
-/

namespace TCodeIME

open Runs
open TCodeProxy (wide MAX_PATH)

structure Guid where
  data1 : UInt32
  data2 : UInt16
  data3 : UInt16
  data4 : List UInt8
deriving DecidableEq

def CLSID_TCodeIME : Guid := ⟨0xe1cedb7a, 0x7947, 0x4464, [0xa3, 0x57, 0x19, 0x98, 0x17, 0x0b, 0xa4, 0xdb]⟩

def GUID_TCODE_PROFILE : Guid := ⟨0x5e5a266a, 0x1d7c, 0x4a1a, [0x8c, 0x9b, 0x6e, 0x8a, 0x5a, 0x5a, 0x5a, 0x5a]⟩

def IME_DESCRIPTION : WString := wide "T-Code IME"
def IDI_TCODE_APP_ICON : UInt32 := 101

inductive TipCategory where
  | keyboard
  | secureMode
  | uiElementEnabled
  | inputModeCompartment
  | comless
  | immersiveSupport
  | systraySupport
  | other (guid : Guid)
deriving DecidableEq

structure LanguageProfile where
  clsid : Guid
  langid : UInt16
  guidProfile : Guid
  description : WString
  iconFile : WString
  iconIndex : UInt32
deriving DecidableEq

/-- `keys` and `values` are those of `HKEY_CLASSES_ROOT`; a value without a name is the default of its key. -/
structure Machine where
  keys : List String := []
  values : String → Option String → Option WString := fun _ _ => none
  textServices : List Guid := []
  profiles : List LanguageProfile := []
  categories : List (Guid × TipCategory) := []

/-- Which calls succeed. `createKey` and `setValue` are those of the first, second and third `SetKeyAndValue`. -/
structure RegistrationOutcomes where
  createKey : Fin 3 → Bool := fun _ => true
  setValue : Fin 3 → Bool := fun _ => true
  createProfiles : Bool := true
  register : Bool := true
  addLanguageProfile : Bool := true
  unregister : Bool := true
  createCategoryMgr : Bool := true
  registerCategory : TipCategory → Bool := fun _ => true
  unregisterCategory : TipCategory → Bool := fun _ => true

namespace RegistrationOutcomes

def writesModule (o : RegistrationOutcomes) : Bool :=
  (o.createKey 0 && o.setValue 0) && (o.createKey 1 && o.setValue 1)

def writesThreading (o : RegistrationOutcomes) : Bool := o.createKey 2 && o.setValue 2

def addsProfile (o : RegistrationOutcomes) : Bool := o.createProfiles && o.addLanguageProfile

end RegistrationOutcomes

def hexDigits (width n : ℕ) : String :=
  let digits := (Nat.toDigits 16 n).map Char.toUpper
  String.ofList (List.replicate (width - digits.length) '0' ++ digits)

def stringFromGUID2 (guid : Guid) : String :=
  let tail := guid.data4.map fun b => hexDigits 2 b.toNat
  "\x7b" ++ hexDigits 8 guid.data1.toNat ++ "-" ++ hexDigits 4 guid.data2.toNat ++ "-" ++
    hexDigits 4 guid.data3.toNat ++ "-" ++ String.join (tail.take 2) ++ "-" ++ String.join (tail.drop 2) ++ "\x7d"

def keyPath : String := "CLSID\\" ++ stringFromGUID2 CLSID_TCodeIME

def inprocPath : String := keyPath ++ "\\InProcServer32"

def c_guidCategory : List TipCategory :=
  [.keyboard, .secureMode, .uiElementEnabled, .inputModeCompartment, .comless]

def c_guidCategory8 : List TipCategory := [.immersiveSupport, .systraySupport]

namespace Machine

def createKey (path : String) (m : Machine) : Machine :=
  { m with keys := if path ∈ m.keys then m.keys else path :: m.keys }

def setValue (path : String) (name : Option String) (data : WString) (m : Machine) : Machine :=
  { m with values := Function.update m.values path (Function.update (m.values path) name (some data)) }

def setKeyAndValue (createKey setValue : Bool) (pszSubKey : String) (pszValueName : Option String)
    (pszData : Option WString) (m : Machine) : Bool × Machine :=
  if !createKey then (false, m)
  else
    match pszData with
    | none => (true, m.createKey pszSubKey)
    | some data =>
      if setValue then (true, (m.createKey pszSubKey).setValue pszSubKey pszValueName data)
      else (false, m.createKey pszSubKey)

def registerTextService (clsid : Guid) (m : Machine) : Machine :=
  { m with textServices := if clsid ∈ m.textServices then m.textServices else clsid :: m.textServices }

/-- A profile takes the place of the one with its ids. -/
def addLanguageProfile (profile : LanguageProfile) (m : Machine) : Machine :=
  { m with
    profiles := profile :: m.profiles.filter fun p =>
      ¬(p.clsid = profile.clsid ∧ p.langid = profile.langid ∧ p.guidProfile = profile.guidProfile) }

/-- The profiles go with the text service. -/
def unregisterTextService (clsid : Guid) (m : Machine) : Machine :=
  { m with
    textServices := m.textServices.filter (· ≠ clsid)
    profiles := m.profiles.filter (·.clsid ≠ clsid) }

def registerCategory (clsid : Guid) (category : TipCategory) (m : Machine) : Machine :=
  { m with
    categories := if (clsid, category) ∈ m.categories then m.categories else (clsid, category) :: m.categories }

def unregisterCategory (clsid : Guid) (category : TipCategory) (m : Machine) : Machine :=
  { m with categories := m.categories.filter (· ≠ (clsid, category)) }

def languageProfile (szModule : WString) : LanguageProfile where
  clsid := CLSID_TCodeIME
  langid := 0x0411
  guidProfile := GUID_TCODE_PROFILE
  description := IME_DESCRIPTION
  iconFile := szModule
  iconIndex := 0 - IDI_TCODE_APP_ICON

def registerProfile (o : RegistrationOutcomes) (szModule : WString) (m : Machine) : Machine :=
  if o.createProfiles then
    let m := if o.register then m.registerTextService CLSID_TCodeIME else m
    if o.addLanguageProfile then m.addLanguageProfile (languageProfile szModule) else m
  else m

def registerCategories (o : RegistrationOutcomes) (m : Machine) : Machine :=
  if o.createCategoryMgr then
    (c_guidCategory ++ c_guidCategory8).foldl (fun m category =>
      if o.registerCategory category then m.registerCategory CLSID_TCodeIME category else m) m
  else m

/-- `getModuleFileName nSize` is the text that Windows leaves in a buffer of `nSize` characters. -/
def registerServer (o : RegistrationOutcomes) (getModuleFileName : ℕ → WString) (m : Machine) : Bool × Machine :=
  let description := m.setKeyAndValue (o.createKey 0) (o.setValue 0) keyPath none (some IME_DESCRIPTION)
  if !description.1 then description
  else
    let szModule := getModuleFileName MAX_PATH
    let server := description.2.setKeyAndValue (o.createKey 1) (o.setValue 1) inprocPath none (some szModule)
    if !server.1 then server
    else
      let threading := server.2.setKeyAndValue (o.createKey 2) (o.setValue 2) inprocPath (some "ThreadingModel")
        (some (wide "Apartment"))
      if !threading.1 then threading
      else (true, registerCategories o (registerProfile o szModule threading.2))

def unregisterCategories (o : RegistrationOutcomes) (m : Machine) : Machine :=
  if o.createCategoryMgr then
    (c_guidCategory ++ c_guidCategory8).foldl (fun m category =>
      if o.unregisterCategory category then m.unregisterCategory CLSID_TCodeIME category else m) m
  else m

def unregisterProfiles (o : RegistrationOutcomes) (m : Machine) : Machine :=
  if o.createProfiles ∧ o.unregister then m.unregisterTextService CLSID_TCodeIME else m

def unregisterServer (o : RegistrationOutcomes) (m : Machine) : Machine :=
  unregisterProfiles o (unregisterCategories o m)

structure OthersKept (m m' : Machine) : Prop where
  keys : ∀ path, path ≠ keyPath → path ≠ inprocPath → (path ∈ m'.keys ↔ path ∈ m.keys)
  values : ∀ path, path ≠ keyPath → path ≠ inprocPath → m'.values path = m.values path
  textServices : ∀ clsid, clsid ≠ CLSID_TCodeIME → (clsid ∈ m'.textServices ↔ clsid ∈ m.textServices)
  profiles : ∀ p : LanguageProfile, p.clsid ≠ CLSID_TCodeIME → (p ∈ m'.profiles ↔ p ∈ m.profiles)
  categories : ∀ clsid category, clsid ≠ CLSID_TCodeIME →
    ((clsid, category) ∈ m'.categories ↔ (clsid, category) ∈ m.categories)

variable {m m' m'' : Machine} {o : RegistrationOutcomes} {getModuleFileName : ℕ → WString}

theorem OthersKept.refl (m : Machine) : m.OthersKept m :=
  ⟨fun _ _ _ => Iff.rfl, fun _ _ _ => rfl, fun _ _ => Iff.rfl, fun _ _ => Iff.rfl, fun _ _ _ => Iff.rfl⟩

theorem OthersKept.trans (h : m.OthersKept m') (h' : m'.OthersKept m'') : m.OthersKept m'' where
  keys path hkey hinproc := (h'.keys path hkey hinproc).trans (h.keys path hkey hinproc)
  values path hkey hinproc := (h'.values path hkey hinproc).trans (h.values path hkey hinproc)
  textServices clsid hne := (h'.textServices clsid hne).trans (h.textServices clsid hne)
  profiles p hne := (h'.profiles p hne).trans (h.profiles p hne)
  categories clsid category hne := (h'.categories clsid category hne).trans (h.categories clsid category hne)

theorem OthersKept.foldl {f : Machine → TipCategory → Machine}
    (hf : ∀ (m : Machine) category, m.OthersKept (f m category))
    (categories : List TipCategory) (m : Machine) : m.OthersKept (categories.foldl f m) := by
  induction categories generalizing m with
  | nil => exact .refl m
  | cons category categories ih => exact (hf m category).trans (ih (f m category))

theorem keyPath_ne_inprocPath : keyPath ≠ inprocPath := by
  intro h
  have hlength : keyPath.length = inprocPath.length := congrArg String.length h
  rw [inprocPath, String.length_append] at hlength
  have hpositive : 0 < "\\InProcServer32".length := by decide
  omega

section SetKeyAndValue

variable {createKey setValue : Bool} {path : String} {name : Option String} {data : WString}

theorem setKeyAndValue_fst :
    (m.setKeyAndValue createKey setValue path name (some data)).1 = (createKey && setValue) := by
  cases createKey <;> cases setValue <;> rfl

theorem setKeyAndValue_values :
    (m.setKeyAndValue createKey setValue path name (some data)).2.values =
      if createKey && setValue then
        Function.update m.values path (Function.update (m.values path) name (some data))
      else m.values := by
  cases createKey <;> cases setValue <;> rfl

theorem setKeyAndValue_profiles :
    (m.setKeyAndValue createKey setValue path name (some data)).2.profiles = m.profiles := by
  cases createKey <;> cases setValue <;> rfl

theorem setKeyAndValue_categories :
    (m.setKeyAndValue createKey setValue path name (some data)).2.categories = m.categories := by
  cases createKey <;> cases setValue <;> rfl

theorem othersKept_setKeyAndValue (hpath : path = keyPath ∨ path = inprocPath) :
    m.OthersKept (m.setKeyAndValue createKey setValue path name (some data)).2 := by
  have hkeys : m.OthersKept (m.createKey path) := by
    refine ⟨?_, fun _ _ _ => rfl, fun _ _ => Iff.rfl, fun _ _ => Iff.rfl, fun _ _ _ => Iff.rfl⟩
    intro other hkey hinproc
    have hne : other ≠ path := by
      rintro rfl
      exact hpath.elim hkey hinproc
    rw [Machine.createKey]
    dsimp only
    split_ifs
    · rfl
    · simp [hne]
  cases createKey with
  | false => exact .refl m
  | true =>
    cases setValue with
    | false => exact hkeys
    | true =>
      refine hkeys.trans ⟨fun _ _ _ => Iff.rfl, ?_, fun _ _ => Iff.rfl, fun _ _ => Iff.rfl, fun _ _ _ => Iff.rfl⟩
      intro other hkey hinproc
      have hne : other ≠ path := by
        rintro rfl
        exact hpath.elim hkey hinproc
      exact Function.update_of_ne hne _ _

end SetKeyAndValue

theorem othersKept_registerProfile (szModule : WString) : m.OthersKept (registerProfile o szModule m) := by
  have hservice : m.OthersKept (m.registerTextService CLSID_TCodeIME) := by
    refine ⟨fun _ _ _ => Iff.rfl, fun _ _ _ => rfl, ?_, fun _ _ => Iff.rfl, fun _ _ _ => Iff.rfl⟩
    intro clsid hne
    rw [registerTextService]
    dsimp only
    split_ifs
    · rfl
    · simp [hne]
  have hprofile (m : Machine) : m.OthersKept (m.addLanguageProfile (languageProfile szModule)) := by
    refine ⟨fun _ _ _ => Iff.rfl, fun _ _ _ => rfl, fun _ _ => Iff.rfl, ?_, fun _ _ _ => Iff.rfl⟩
    intro p hne
    have hown : p ≠ languageProfile szModule := fun heq => hne (congrArg LanguageProfile.clsid heq)
    have hid : p.clsid ≠ (languageProfile szModule).clsid := hne
    simp [addLanguageProfile, hown, hid]
  unfold registerProfile
  dsimp only
  split_ifs
  · exact hservice.trans (hprofile _)
  · exact hprofile m
  · exact hservice
  · exact .refl m
  · exact .refl m

theorem othersKept_registerCategories : m.OthersKept (registerCategories o m) := by
  have hcategory (m : Machine) (category : TipCategory) :
      m.OthersKept (m.registerCategory CLSID_TCodeIME category) := by
    refine ⟨fun _ _ _ => Iff.rfl, fun _ _ _ => rfl, fun _ _ => Iff.rfl, fun _ _ => Iff.rfl, ?_⟩
    intro clsid other hne
    rw [registerCategory]
    dsimp only
    split_ifs
    · rfl
    · simp [hne]
  unfold registerCategories
  split_ifs
  · apply OthersKept.foldl
    intro m category
    split_ifs
    · exact hcategory m category
    · exact .refl m
  · exact .refl m

theorem othersKept_registerServer : m.OthersKept (registerServer o getModuleFileName m).2 := by
  have hdescription : m.OthersKept
      (m.setKeyAndValue (o.createKey 0) (o.setValue 0) keyPath none (some IME_DESCRIPTION)).2 :=
    othersKept_setKeyAndValue (.inl rfl)
  have hserver (m : Machine) : m.OthersKept
      (m.setKeyAndValue (o.createKey 1) (o.setValue 1) inprocPath none (some (getModuleFileName MAX_PATH))).2 :=
    othersKept_setKeyAndValue (.inr rfl)
  have hthreading (m : Machine) : m.OthersKept (m.setKeyAndValue (o.createKey 2) (o.setValue 2) inprocPath
      (some "ThreadingModel") (some (wide "Apartment"))).2 := othersKept_setKeyAndValue (.inr rfl)
  unfold registerServer
  dsimp only
  split_ifs
  · exact hdescription
  · exact hdescription.trans (hserver _)
  · exact (hdescription.trans (hserver _)).trans (hthreading _)
  · exact (((hdescription.trans (hserver _)).trans (hthreading _)).trans (othersKept_registerProfile _)).trans
      othersKept_registerCategories

theorem othersKept_unregisterCategories : m.OthersKept (unregisterCategories o m) := by
  have hcategory (m : Machine) (category : TipCategory) :
      m.OthersKept (m.unregisterCategory CLSID_TCodeIME category) := by
    refine ⟨fun _ _ _ => Iff.rfl, fun _ _ _ => rfl, fun _ _ => Iff.rfl, fun _ _ => Iff.rfl, ?_⟩
    intro clsid other hne
    simp [unregisterCategory, hne]
  unfold unregisterCategories
  split_ifs
  · apply OthersKept.foldl
    intro m category
    split_ifs
    · exact hcategory m category
    · exact .refl m
  · exact .refl m

theorem othersKept_unregisterProfiles : m.OthersKept (unregisterProfiles o m) := by
  unfold unregisterProfiles
  split_ifs
  · refine ⟨fun _ _ _ => Iff.rfl, fun _ _ _ => rfl, ?_, ?_, fun _ _ _ => Iff.rfl⟩
    · intro clsid hne
      simp [unregisterTextService, hne]
    · intro p hne
      simp [unregisterTextService, hne]
  · exact .refl m

theorem foldl_kept {α : Type} (view : Machine → α) {f : Machine → TipCategory → Machine}
    (hf : ∀ m category, view (f m category) = view m) (categories : List TipCategory) (m : Machine) :
    view (categories.foldl f m) = view m := by
  induction categories generalizing m with
  | nil => rfl
  | cons category categories ih =>
    rw [List.foldl_cons, ih]
    exact hf m category

theorem registerCategories_kept :
    (registerCategories o m).values = m.values ∧ (registerCategories o m).profiles = m.profiles := by
  unfold registerCategories
  split_ifs
  · constructor
    · apply foldl_kept values
      intro m category
      split_ifs <;> rfl
    · apply foldl_kept profiles
      intro m category
      split_ifs <;> rfl
  · exact ⟨rfl, rfl⟩

theorem unregisterCategories_kept :
    (unregisterCategories o m).keys = m.keys ∧ (unregisterCategories o m).values = m.values ∧
      (unregisterCategories o m).profiles = m.profiles := by
  unfold unregisterCategories
  split_ifs
  · refine ⟨?_, ?_, ?_⟩
    · apply foldl_kept keys
      intro m category
      split_ifs <;> rfl
    · apply foldl_kept values
      intro m category
      split_ifs <;> rfl
    · apply foldl_kept profiles
      intro m category
      split_ifs <;> rfl
  · exact ⟨rfl, rfl, rfl⟩

theorem registerCategories_categories {category : TipCategory}
    (h : (CLSID_TCodeIME, category) ∈ (registerCategories o m).categories) :
    (CLSID_TCodeIME, category) ∈ m.categories ∨ category ∈ c_guidCategory ++ c_guidCategory8 := by
  unfold registerCategories at h
  split_ifs at h
  · generalize c_guidCategory ++ c_guidCategory8 = categories at h ⊢
    induction categories generalizing m with
    | nil => exact .inl h
    | cons c categories ih =>
      rcases ih h with hbefore | hlater
      · dsimp only at hbefore
        split_ifs at hbefore
        · rw [registerCategory] at hbefore
          dsimp only at hbefore
          split_ifs at hbefore
          · exact .inl hbefore
          · rcases List.mem_cons.mp hbefore with heq | hbefore
            · exact .inr (List.mem_cons.mpr (.inl (congrArg Prod.snd heq)))
            · exact .inl hbefore
        · exact .inl hbefore
      · exact .inr (List.mem_cons_of_mem c hlater)
  · exact .inl h

theorem unregisterCategories_categories : (unregisterCategories o m).categories ⊆ m.categories := by
  unfold unregisterCategories
  split_ifs
  · generalize c_guidCategory ++ c_guidCategory8 = categories
    induction categories generalizing m with
    | nil => exact List.Subset.refl _
    | cons c categories ih =>
      refine List.Subset.trans ih ?_
      dsimp only
      split_ifs
      · exact fun x hx => (List.mem_filter.mp hx).1
      · exact List.Subset.refl _
  · exact List.Subset.refl _

theorem unregisterCategories_complete {category : TipCategory}
    (h : (CLSID_TCodeIME, category) ∈ (unregisterCategories {} m).categories) :
    category ∉ c_guidCategory ++ c_guidCategory8 := by
  simp only [unregisterCategories, if_true] at h
  generalize c_guidCategory ++ c_guidCategory8 = categories at h ⊢
  induction categories using List.reverseRecOn with
  | nil => exact List.not_mem_nil
  | append_singleton categories c ih =>
    rw [List.foldl_append] at h
    obtain ⟨hrest, hne⟩ := List.mem_filter.mp h
    intro hin
    rcases List.mem_append.mp hin with hin | hin
    · exact ih hrest hin
    · rw [List.mem_singleton.mp hin] at hne
      simp at hne

theorem registerProfile_values (szModule : WString) : (registerProfile o szModule m).values = m.values := by
  unfold registerProfile
  dsimp only
  split_ifs <;> rfl

theorem registerProfile_profiles (szModule : WString) :
    (registerProfile o szModule m).profiles =
      if o.addsProfile then (m.addLanguageProfile (languageProfile szModule)).profiles else m.profiles := by
  unfold registerProfile RegistrationOutcomes.addsProfile
  cases o.createProfiles <;> cases o.register <;> cases o.addLanguageProfile <;> rfl

theorem registerServer_inproc :
    (registerServer o getModuleFileName m).2.values inprocPath none =
      if o.writesModule then some (getModuleFileName MAX_PATH) else m.values inprocPath none := by
  have hne := keyPath_ne_inprocPath.symm
  unfold registerServer RegistrationOutcomes.writesModule
  cases h₀ : o.createKey 0 && o.setValue 0 <;> cases h₁ : o.createKey 1 && o.setValue 1 <;>
    cases h₂ : o.createKey 2 && o.setValue 2 <;>
    simp [setKeyAndValue_fst, setKeyAndValue_values, registerCategories_kept, registerProfile_values, h₀, h₁, h₂, hne]

theorem registerServer_threading :
    (registerServer o getModuleFileName m).2.values inprocPath (some "ThreadingModel") =
      if o.writesModule && o.writesThreading then some (wide "Apartment")
      else m.values inprocPath (some "ThreadingModel") := by
  have hne := keyPath_ne_inprocPath.symm
  unfold registerServer RegistrationOutcomes.writesModule RegistrationOutcomes.writesThreading
  cases h₀ : o.createKey 0 && o.setValue 0 <;> cases h₁ : o.createKey 1 && o.setValue 1 <;>
    cases h₂ : o.createKey 2 && o.setValue 2 <;>
    simp [setKeyAndValue_fst, setKeyAndValue_values, registerCategories_kept, registerProfile_values, h₀, h₁, h₂, hne]

theorem registerServer_profiles :
    (registerServer o getModuleFileName m).2.profiles =
      if o.writesModule && o.writesThreading && o.addsProfile then
        (m.addLanguageProfile (languageProfile (getModuleFileName MAX_PATH))).profiles
      else m.profiles := by
  unfold registerServer RegistrationOutcomes.writesModule RegistrationOutcomes.writesThreading
  cases h₀ : o.createKey 0 && o.setValue 0 <;> cases h₁ : o.createKey 1 && o.setValue 1 <;>
    cases h₂ : o.createKey 2 && o.setValue 2 <;>
    simp [setKeyAndValue_fst, setKeyAndValue_profiles, registerCategories_kept, registerProfile_profiles,
      addLanguageProfile, h₀, h₁, h₂]

theorem registerServer_categories {category : TipCategory}
    (h : (CLSID_TCodeIME, category) ∈ (registerServer o getModuleFileName m).2.categories) :
    (CLSID_TCodeIME, category) ∈ m.categories ∨ category ∈ c_guidCategory ++ c_guidCategory8 := by
  have hprofile (szModule : WString) (m : Machine) : (registerProfile o szModule m).categories = m.categories := by
    unfold registerProfile
    dsimp only
    split_ifs <;> rfl
  unfold registerServer at h
  dsimp only at h
  split_ifs at h
  · rw [setKeyAndValue_categories] at h
    exact .inl h
  · rw [setKeyAndValue_categories, setKeyAndValue_categories] at h
    exact .inl h
  · rw [setKeyAndValue_categories, setKeyAndValue_categories, setKeyAndValue_categories] at h
    exact .inl h
  · have hadded := registerCategories_categories h
    rwa [hprofile, setKeyAndValue_categories, setKeyAndValue_categories, setKeyAndValue_categories] at hadded

theorem unregisterServer_categories : (unregisterServer o m).categories ⊆ m.categories := by
  have hprofiles (m : Machine) : (unregisterProfiles o m).categories = m.categories := by
    unfold unregisterProfiles
    split_ifs <;> rfl
  rw [unregisterServer, hprofiles]
  exact unregisterCategories_categories

theorem unregisterServer_registry :
    (unregisterServer o m).keys = m.keys ∧ (unregisterServer o m).values = m.values := by
  have hprofiles (m : Machine) :
      (unregisterProfiles o m).keys = m.keys ∧ (unregisterProfiles o m).values = m.values := by
    unfold unregisterProfiles
    split_ifs
    · exact ⟨rfl, rfl⟩
    · exact ⟨rfl, rfl⟩
  obtain ⟨hkeys, hvalues, -⟩ := unregisterCategories_kept (o := o) (m := m)
  rw [unregisterServer, (hprofiles _).1, (hprofiles _).2]
  exact ⟨hkeys, hvalues⟩

theorem unregisterServer_profiles : (unregisterServer o m).profiles ⊆ m.profiles := by
  rw [unregisterServer, unregisterProfiles]
  split_ifs
  · intro p hp
    exact unregisterCategories_kept.2.2 ▸ (List.mem_filter.mp hp).1
  · rw [unregisterCategories_kept.2.2]
    exact List.Subset.refl _

end Machine

inductive RegistrationEvent where
  | dllRegisterServer (o : RegistrationOutcomes) (getModuleFileName : ℕ → WString)
  | dllUnregisterServer (o : RegistrationOutcomes)

def RegistrationEvent.written : RegistrationEvent → Option WString
  | .dllRegisterServer o getModuleFileName => if o.writesModule then some (getModuleFileName MAX_PATH) else none
  | .dllUnregisterServer _ => none

namespace Machine

def step (m : Machine) : RegistrationEvent → Machine
  | .dllRegisterServer o getModuleFileName => (registerServer o getModuleFileName m).2
  | .dllUnregisterServer o => unregisterServer o m

/-- The DLL that COM loads for the text service. -/
def served (m : Machine) : Option WString := m.values inprocPath none

def Sound (m : Machine) : Prop :=
  ∀ p ∈ m.profiles, p.clsid = CLSID_TCodeIME →
    m.served = some p.iconFile ∧ m.values inprocPath (some "ThreadingModel") = some (wide "Apartment")

def keepsSound (m : Machine) : RegistrationEvent → Prop
  | .dllRegisterServer o getModuleFileName => o.writesModule →
    ∀ p ∈ m.profiles, p.clsid = CLSID_TCodeIME → p.iconFile = getModuleFileName MAX_PATH ∨
      (o.writesThreading && o.addsProfile) ∧ p.langid = 0x0411 ∧ p.guidProfile = GUID_TCODE_PROFILE
  | .dllUnregisterServer _ => True

instance (m : Machine) : ∀ e, Decidable (m.keepsSound e)
  | .dllRegisterServer o getModuleFileName =>
    inferInstanceAs (Decidable (o.writesModule → ∀ p ∈ m.profiles, p.clsid = CLSID_TCodeIME →
      p.iconFile = getModuleFileName MAX_PATH ∨
        (o.writesThreading && o.addsProfile) ∧ p.langid = 0x0411 ∧ p.guidProfile = GUID_TCODE_PROFILE))
  | .dllUnregisterServer _ => isTrue trivial

variable {m : Machine}

theorem othersKept_step (e : RegistrationEvent) : m.OthersKept (m.step e) := by
  cases e with
  | dllRegisterServer o getModuleFileName => exact othersKept_registerServer
  | dllUnregisterServer o => exact othersKept_unregisterCategories.trans othersKept_unregisterProfiles

theorem served_step (e : RegistrationEvent) : (m.step e).served = e.written.elim m.served some := by
  cases e with
  | dllRegisterServer o getModuleFileName =>
    refine registerServer_inproc.trans ?_
    simp only [RegistrationEvent.written]
    split_ifs <;> rfl
  | dllUnregisterServer o => exact congrFun (congrFun unregisterServer_registry.2 inprocPath) none

theorem mem_registerServer_profiles {o : RegistrationOutcomes} {getModuleFileName : ℕ → WString}
    {p : LanguageProfile} (hp : p.clsid = CLSID_TCodeIME) :
    p ∈ (registerServer o getModuleFileName m).2.profiles ↔
      if o.writesModule && o.writesThreading && o.addsProfile then
        p = languageProfile (getModuleFileName MAX_PATH) ∨
          p ∈ m.profiles ∧ ¬(p.langid = 0x0411 ∧ p.guidProfile = GUID_TCODE_PROFILE)
      else p ∈ m.profiles := by
  rw [registerServer_profiles]
  split_ifs
  · simp [addLanguageProfile, languageProfile, hp, imp_iff_not_or]
  · rfl

theorem sound_register_iff (hm : m.Sound) (o : RegistrationOutcomes) (getModuleFileName : ℕ → WString) :
    (m.step (.dllRegisterServer o getModuleFileName)).Sound ↔
      m.keepsSound (.dllRegisterServer o getModuleFileName) := by
  have hserved : (m.step (.dllRegisterServer o getModuleFileName)).served =
      if o.writesModule then some (getModuleFileName MAX_PATH) else m.served := registerServer_inproc
  have hthreading : (m.step (.dllRegisterServer o getModuleFileName)).values inprocPath (some "ThreadingModel") =
      if o.writesModule && o.writesThreading then some (wide "Apartment")
      else m.values inprocPath (some "ThreadingModel") := registerServer_threading
  constructor
  · intro h hwrites p hp hown
    by_cases hkept : p ∈ (registerServer o getModuleFileName m).2.profiles
    · rw [if_pos hwrites] at hserved
      exact .inl (Option.some.inj (hserved.symm.trans (h p hkept hown).1)).symm
    · rw [mem_registerServer_profiles hown, hwrites, Bool.true_and] at hkept
      split_ifs at hkept with hadds
      · exact .inr ⟨hadds, not_not.mp fun hids => hkept (.inr ⟨hp, hids⟩)⟩
      · exact absurd hp hkept
  · intro h p hp hown
    have hmem := (mem_registerServer_profiles hown).mp hp
    by_cases hwrites : o.writesModule = true
    · rw [hwrites, Bool.true_and] at hthreading hmem
      rw [hthreading, hserved, if_pos hwrites]
      split_ifs at hmem with hadds
      · obtain ⟨hthreads, -⟩ := Bool.and_eq_true_iff.mp hadds
        rw [if_pos hthreads]
        refine ⟨?_, rfl⟩
        rcases hmem with rfl | ⟨hold, hids⟩
        · rfl
        · rw [(h hwrites p hold hown).resolve_right fun hreplaced => hids hreplaced.2]
      · rw [(h hwrites p hmem hown).resolve_right fun hreplaced => hadds hreplaced.1]
        refine ⟨rfl, ?_⟩
        split_ifs
        · rfl
        · exact (hm p hmem hown).2
    · rw [Bool.eq_false_iff.mpr hwrites] at hthreading hmem
      rw [hthreading, hserved, if_neg hwrites]
      exact hm p hmem hown

theorem sound_step_iff {e : RegistrationEvent} (hm : m.Sound) : (m.step e).Sound ↔ m.keepsSound e := by
  cases e with
  | dllRegisterServer o getModuleFileName => exact sound_register_iff hm o getModuleFileName
  | dllUnregisterServer o =>
    refine iff_of_true ?_ trivial
    intro p hp hown
    have hvalues : (m.step (.dllUnregisterServer o)).values = m.values := unregisterServer_registry.2
    rw [served, hvalues]
    exact hm p (unregisterServer_profiles hp) hown

theorem run_served (es : List RegistrationEvent) :
    (run step m es).served = ((es.filterMap RegistrationEvent.written).getLast?).or m.served := by
  have hview : (run step m es).served =
      run (fun _ path => some path) m.served (es.filterMap RegistrationEvent.written) :=
    run_view (fun _ e => served_step e) m es
  rw [hview]
  generalize es.filterMap RegistrationEvent.written = paths
  induction paths using List.reverseRecOn with
  | nil => rfl
  | append_singleton paths path => simp [run]

structure Unregistered (m m' : Machine) : Prop where
  textServices : CLSID_TCodeIME ∉ m'.textServices
  profiles : ∀ p ∈ m'.profiles, p.clsid ≠ CLSID_TCodeIME
  categories : ∀ category, (CLSID_TCodeIME, category) ∈ m'.categories →
    (CLSID_TCodeIME, category) ∈ m.categories ∧ category ∉ c_guidCategory ++ c_guidCategory8

theorem run_categories (es : List RegistrationEvent) {category : TipCategory}
    (h : (CLSID_TCodeIME, category) ∈ (run step m es).categories) :
    (CLSID_TCodeIME, category) ∈ m.categories ∨ category ∈ c_guidCategory ++ c_guidCategory8 := by
  induction es generalizing m with
  | nil => exact .inl h
  | cons e es ih =>
    rcases ih h with hin | hnew
    · cases e with
      | dllRegisterServer o getModuleFileName => exact registerServer_categories hin
      | dllUnregisterServer o => exact .inl (unregisterServer_categories hin)
    · exact .inr hnew

theorem unregistered_run (es : List RegistrationEvent) :
    m.Unregistered (unregisterServer {} (run step m es)) := by
  refine ⟨?_, ?_, ?_⟩
  · simp [unregisterServer, unregisterProfiles, unregisterTextService]
  · intro p hp
    simpa using (List.mem_filter.mp hp).2
  · intro category hin
    have hnot := unregisterCategories_complete hin
    exact ⟨(run_categories es (unregisterCategories_categories hin)).resolve_right hnot, hnot⟩

theorem registrations_sound_iff (hm : m.Sound) (es : List RegistrationEvent) :
    m.OthersKept (run step m es) ∧
    (run step m es).served = ((es.filterMap RegistrationEvent.written).getLast?).or m.served ∧
    m.Unregistered (unregisterServer {} (run step m es)) ∧
    ((unregisterServer {} (run step m es)).keys = (run step m es).keys ∧
      (unregisterServer {} (run step m es)).values = (run step m es).values) ∧
    (Throughout step Sound m es ↔ Along step keepsSound m es) := by
  have hall : Along step (fun _ _ => True) m es := along_of_forall (fun _ _ _ => trivial) m
  refine ⟨?_, run_served es, unregistered_run es, unregisterServer_registry, ?_⟩
  · refine run_of_step (I := m.OthersKept) (fun m' e hkept _ => ?_) (.refl m) hall
    exact hkept.trans (othersKept_step e)
  · apply throughout_iff_along (I := Sound) (fun _ hs => hs) (fun _ _ hs _ => sound_step_iff hs)
    · intro s e hs _ hkeeps
      exact (sound_step_iff hs).mpr hkeeps
    · exact hm
    · exact hall

theorem registrations_sound_moved :
    let first := RegistrationEvent.dllRegisterServer {} fun _ => wide "C:\\a\\TCodeIME.dll"
    let second := RegistrationEvent.dllRegisterServer
      { setValue := fun n => n ≠ 2 } fun _ => wide "C:\\b\\TCodeIME.dll"
    (run step {} [first, .dllUnregisterServer {}, second]).served = some (wide "C:\\b\\TCodeIME.dll") ∧
      Throughout step Sound {} [first, .dllUnregisterServer {}, second] ∧
      ¬Throughout step Sound {} [first, second] := by
  intro first second
  have hnone : Sound {} := fun p hp => absurd hp List.not_mem_nil
  obtain ⟨-, hserved, -, -, hsound⟩ := registrations_sound_iff hnone [first, .dllUnregisterServer {}, second]
  refine ⟨?_, ?_, ?_⟩
  · exact hserved
  · exact hsound.mpr (by decide)
  · exact fun h => absurd ((registrations_sound_iff hnone [first, second]).2.2.2.2.mp h) (by decide)

end Machine

end TCodeIME
