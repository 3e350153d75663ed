import TCodeIME.AdvisedSinks
import TCodeIME.ScriptedServer

/-!
Whether each sink is unadvised where it was advised, and whether none is left when the text service is
not active.
-/

namespace TCodeIME

/-- A successful `AdviseSink` returns a cookie other than 0, and a context has an `ITfSource`. -/
def SinkEvent.keepsContract : SinkEvent → Prop
  | .activate o _ => o.threadFocus ≠ some (.advised 0) ∧ o.layout ≠ some (.advised 0)
  | .setThreadFocus o => o.querySource = true ∧ o.layout ≠ some (.advised 0)
  | _ => True

instance (e : SinkEvent) : Decidable e.keepsContract :=
  match e with
  | .activate _ _ | .setThreadFocus _ => inferInstanceAs (Decidable (_ ∧ _))
  | .deactivate _ | .killThreadFocus | .moveFocus _ => isTrue trivial

variable {E : Type}

namespace AdvisedIME

structure UndoesSinks (s : AdvisedIME E) : Prop where
  sound : s.registry.Sound
  oneContext : ∀ c d k l, ⟨.context c, k⟩ ∈ s.registry.live → ⟨.context d, l⟩ ∈ s.registry.live → c = d
  inactive : s.active = false → s.registry.live = ∅

/-- `ActivateEx` is not called again before `Deactivate`, unless it has failed. -/
def alternates (s : AdvisedIME E) : SinkEvent → Prop
  | .activate _ _ => s.active = false
  | _ => True

instance (s : AdvisedIME E) (e : SinkEvent) : Decidable (s.alternates e) :=
  match e with
  | .activate _ _ => inferInstanceAs (Decidable (s.active = false))
  | .deactivate _ | .setThreadFocus _ | .killThreadFocus | .moveFocus _ => isTrue trivial

def findsSinks (s : AdvisedIME E) : SinkEvent → Prop
  | .activate o _ => o.ime.queryKeystrokeMgr = false →
      (∀ k, o.openClose ≠ some (.advised k)) ∧ (∀ k, o.conversion ≠ some (.advised k)) ∧
      (∀ k, o.threadFocus ≠ some (.advised k)) ∧
      ((s.focused o.getTop).isSome → s.dwTextLayoutSinkCookie = 0 → ∀ k, o.layout ≠ some (.advised k))
  | .deactivate o => s.ime.pThreadMgr = true →
      (s.dwThreadFocusSinkCookie ≠ 0 →
        (o.threadFocus = true ↔ ⟨.threadMgr, s.dwThreadFocusSinkCookie⟩ ∈ s.registry.live)) ∧
      (s.dwTextLayoutSinkCookie ≠ 0 → ∀ c, (s.focused o.getTop = some c ∧ o.layout = true ↔
        ⟨.context c, s.dwTextLayoutSinkCookie⟩ ∈ s.registry.live)) ∧
      (o.openClose = true ↔
        ⟨.openClose, s.dwCompartmentEventSinkOpenCloseCookie⟩ ∈ s.registry.live) ∧
      (o.conversion = true ↔
        ⟨.conversion, s.dwCompartmentEventSinkInputmodeConversionCookie⟩ ∈ s.registry.live) ∧
      (⟨.keystrokeMgr, s.tfClientId⟩ ∈ s.registry.live → o.queryKeystrokeMgr = true)
  | .setThreadFocus o => s.ime.pThreadMgr = true → ∀ c, s.focused o.getTop = some c →
      (s.dwTextLayoutSinkCookie ≠ 0 →
        ⟨.context c, s.dwTextLayoutSinkCookie⟩ ∈ s.registry.live) ∧
      (s.active = false → ∀ k, o.layout ≠ some (.advised k))
  | _ => True

def names (s : AdvisedIME E) (x : SinkRegistration) : Prop :=
  match x.source with
  | .keystrokeMgr => x.cookie = s.tfClientId
  | .threadMgr => x.cookie = s.dwThreadFocusSinkCookie ∧ x.cookie ≠ 0
  | .openClose => x.cookie = s.dwCompartmentEventSinkOpenCloseCookie
  | .conversion => x.cookie = s.dwCompartmentEventSinkInputmodeConversionCookie
  | .context _ => x.cookie = s.dwTextLayoutSinkCookie ∧ x.cookie ≠ 0

structure Accounted (s : AdvisedIME E) : Prop where
  sound : s.registry.Sound
  named : ∀ x ∈ s.registry.live, s.names x
  oneContext : ∀ c d k l, ⟨.context c, k⟩ ∈ s.registry.live → ⟨.context d, l⟩ ∈ s.registry.live → c = d

theorem accounted_advise {s s' : AdvisedIME E} {source : SinkSource} {a : Option AdviseOutcome}
    (hs : s.Accounted) (hregistry : s'.registry = a.elim s.registry (·.adviseSink source s.registry))
    (hkept : ∀ x ∈ s.registry.live, s'.names x)
    (hnew : ∀ k, a = some (.advised k) → s'.names ⟨source, k⟩)
    (hcontext : ∀ c d k, source = .context c → ⟨.context d, k⟩ ∉ s.registry.live) :
    s'.Accounted := by
  refine ⟨?_, ?_, ?_⟩
  · rw [hregistry, Registrations.Registry.Sound, calls_advised]
    exact hs.sound
  · intro x hx
    rw [hregistry, mem_live_advised] at hx
    rcases hx with ⟨hsource, ha⟩ | hx
    · have hnamed := hnew x.cookie ha
      rw [← hsource] at hnamed
      exact hnamed
    · exact hkept x hx
  · intro c d k l hc hd
    rw [hregistry, mem_live_advised] at hc hd
    rcases hc with ⟨hc, -⟩ | hc <;> rcases hd with ⟨hd, -⟩ | hd
    · cases hc.trans hd.symm
      rfl
    · exact absurd hd (hcontext c d l hc.symm)
    · exact absurd hc (hcontext d c k hd.symm)
    · exact hs.oneContext c d k l hc hd

theorem accounted_initContextSink {layout : Option AdviseOutcome} {s : AdvisedIME E}
    (hs : s.Accounted) (ho : layout ≠ some (.advised 0)) (c : ContextId) :
    (s.initContextSink layout c).Accounted := by
  unfold initContextSink
  by_cases hcookie : s.dwTextLayoutSinkCookie = 0
  · -- a live layout sink would have the cookie 0
    have hnone : ∀ d k, ⟨.context d, k⟩ ∉ s.registry.live := by
      intro d k hk
      obtain ⟨heq, hne⟩ := hs.named _ hk
      exact hne (heq.trans hcookie)
    rw [if_neg (by simpa using hcookie)]
    apply accounted_advise hs rfl
    · intro x hx
      have hnamed := hs.named x hx
      obtain ⟨source, k⟩ := x
      cases source with
      | context d => exact absurd hx (hnone d k)
      | _ => exact hnamed
    · rintro k rfl
      refine ⟨rfl, ?_⟩
      rintro rfl
      exact ho rfl
    · exact fun _ d k _ => hnone d k
  · rw [if_pos hcookie]
    exact hs

theorem accounted_initCompartmentEventSink {s : AdvisedIME E} (hs : s.Accounted)
    (hnone : ∀ x ∈ s.registry.live, x.source ≠ .openClose ∧ x.source ≠ .conversion)
    (openClose conversion : Option AdviseOutcome) :
    (s.initCompartmentEventSink openClose conversion).Accounted := by
  unfold initCompartmentEventSink
  dsimp only
  have hfirst : { s with
      registry := openClose.elim s.registry (·.adviseSink .openClose s.registry)
      dwCompartmentEventSinkOpenCloseCookie :=
        compartmentCookie s.dwCompartmentEventSinkOpenCloseCookie openClose }.Accounted := by
    refine accounted_advise hs rfl ?_ ?_ (fun _ _ _ h => by cases h)
    · intro x hx
      have hnamed := hs.named x hx
      obtain ⟨source, k⟩ := x
      cases source with
      | openClose => exact absurd rfl (hnone _ hx).1
      | _ => exact hnamed
    · rintro k rfl
      rfl
  refine accounted_advise hfirst rfl ?_ ?_ (fun _ _ _ h => by cases h)
  · intro x hx
    have hnamed := hfirst.named x hx
    rw [mem_live_advised] at hx
    obtain ⟨source, k⟩ := x
    cases source with
    | conversion =>
      rcases hx with ⟨h, -⟩ | hx
      · cases h
      · exact absurd rfl (hnone _ hx).2
    | _ => exact hnamed
  · rintro k rfl
    rfl

theorem accounted_adviseThreadFocusSink {s : AdvisedIME E} (hs : s.Accounted)
    (hnone : ∀ x ∈ s.registry.live, x.source ≠ .threadMgr) {threadFocus : Option AdviseOutcome}
    (ho : threadFocus ≠ some (.advised 0)) : (s.adviseThreadFocusSink threadFocus).Accounted := by
  refine accounted_advise hs rfl ?_ ?_ (fun _ _ _ h => by cases h)
  · intro x hx
    have hnamed := hs.named x hx
    obtain ⟨source, k⟩ := x
    cases source with
    | threadMgr => exact absurd rfl (hnone _ hx)
    | _ => exact hnamed
  · rintro k rfl
    refine ⟨rfl, ?_⟩
    rintro rfl
    exact ho rfl

theorem mem_live_adviseKeyEventSink (o : ActivateExOutcomes) (s : AdvisedIME E) (x : SinkRegistration) :
    x ∈ (s.adviseKeyEventSink o).registry.live ↔
      (o.ime.queryKeystrokeMgr = true ∧ o.adviseKeyEventSink = true ∧ x = ⟨.keystrokeMgr, s.tfClientId⟩) ∨
        x ∈ s.registry.live := by
  unfold adviseKeyEventSink
  dsimp only
  split_ifs with h
  · simp [h]
  · rw [← and_assoc, iff_or_self]
    exact fun h' => absurd h'.1 h

theorem mem_live_initCompartmentEventSink (openClose conversion : Option AdviseOutcome)
    (s : AdvisedIME E) (x : SinkRegistration) :
    x ∈ (s.initCompartmentEventSink openClose conversion).registry.live ↔
      (x.source = .conversion ∧ conversion = some (.advised x.cookie)) ∨
        (x.source = .openClose ∧ openClose = some (.advised x.cookie)) ∨ x ∈ s.registry.live := by
  unfold initCompartmentEventSink
  dsimp only
  rw [mem_live_advised, mem_live_advised]

theorem mem_live_adviseThreadFocusSink (threadFocus : Option AdviseOutcome) (s : AdvisedIME E)
    (x : SinkRegistration) :
    x ∈ (s.adviseThreadFocusSink threadFocus).registry.live ↔
      (x.source = .threadMgr ∧ threadFocus = some (.advised x.cookie)) ∨ x ∈ s.registry.live :=
  mem_live_advised .threadMgr s.registry threadFocus x

theorem mem_live_initContextSink (layout : Option AdviseOutcome) (c : ContextId) (s : AdvisedIME E)
    (x : SinkRegistration) :
    x ∈ (s.initContextSink layout c).registry.live ↔
      (s.dwTextLayoutSinkCookie = 0 ∧ x.source = .context c ∧ layout = some (.advised x.cookie)) ∨
        x ∈ s.registry.live := by
  unfold initContextSink
  by_cases hcookie : s.dwTextLayoutSinkCookie = 0
  · rw [if_neg (by simpa using hcookie), mem_live_advised]
    simp [hcookie]
  · rw [if_pos hcookie]
    simp [hcookie]

theorem accounted_adviseKeyEventSink {s : AdvisedIME E} (hs : s.Accounted) (o : ActivateExOutcomes) :
    (s.adviseKeyEventSink o).Accounted := by
  unfold adviseKeyEventSink
  split_ifs with h
  · have hregistry : s.registry.register ⟨.keystrokeMgr, s.tfClientId⟩ =
        (some (AdviseOutcome.advised s.tfClientId)).elim s.registry
          (·.adviseSink .keystrokeMgr s.registry) := rfl
    refine accounted_advise hs hregistry hs.named ?_ (fun _ _ _ h => by cases h)
    rintro k ⟨⟩
    rfl
  · exact hs

theorem accounted_adviseThreadSinks {s : AdvisedIME E} (hs : s.Accounted)
    (hlive : s.registry.live = ∅) {o : ActivateExOutcomes} (ho : o.threadFocus ≠ some (.advised 0))
    (tid : UInt32) : (s.adviseThreadSinks o tid).Accounted := by
  have hnone := Registrations.Registry.notMem_live hlive
  have hid : { s with ime := (s.ime.activateEx o.ime).2, tfClientId := tid }.Accounted :=
    ⟨hs.sound, fun x hx => absurd hx (hnone x), hs.oneContext⟩
  apply accounted_adviseThreadFocusSink _ _ ho
  · apply accounted_initCompartmentEventSink (accounted_adviseKeyEventSink hid o)
    intro x hx
    rw [mem_live_adviseKeyEventSink] at hx
    rcases hx with ⟨-, -, rfl⟩ | hx
    · exact ⟨nofun, nofun⟩
    · exact absurd hx (hnone x)
  · intro x hx
    rw [mem_live_initCompartmentEventSink, mem_live_adviseKeyEventSink] at hx
    rcases hx with ⟨hx, -⟩ | ⟨hx, -⟩ | ⟨-, -, rfl⟩ | hx
    · rw [hx]
      nofun
    · rw [hx]
      nofun
    · nofun
    · exact absurd hx (hnone x)

theorem accounted_activateEx {s : AdvisedIME E} (hs : s.Accounted) (hlive : s.registry.live = ∅)
    {o : ActivateExOutcomes} {tid : UInt32} (ho : (SinkEvent.activate o tid).keepsContract) :
    (s.activateEx o tid).2.Accounted := by
  have hthread := accounted_adviseThreadSinks hs hlive ho.1 tid
  unfold activateEx
  dsimp only
  cases (s.adviseThreadSinks o tid).focused o.getTop with
  | none => exact hthread
  | some c => exact accounted_initContextSink hthread ho.2 c

theorem mem_live_activateEx {s : AdvisedIME E} (hlive : s.registry.live = ∅) (o : ActivateExOutcomes)
    (tid : UInt32) (x : SinkRegistration) :
    x ∈ (s.activateEx o tid).2.registry.live ↔
      (∃ c, s.focused o.getTop = some c ∧ s.dwTextLayoutSinkCookie = 0 ∧ x.source = .context c ∧
        o.layout = some (.advised x.cookie)) ∨
      (x.source = .threadMgr ∧ o.threadFocus = some (.advised x.cookie)) ∨
      (x.source = .conversion ∧ o.conversion = some (.advised x.cookie)) ∨
      (x.source = .openClose ∧ o.openClose = some (.advised x.cookie)) ∨
      (o.ime.queryKeystrokeMgr = true ∧ o.adviseKeyEventSink = true ∧ x = ⟨.keystrokeMgr, tid⟩) := by
  have hthread : x ∈ (s.adviseThreadSinks o tid).registry.live ↔
      (x.source = .threadMgr ∧ o.threadFocus = some (.advised x.cookie)) ∨
      (x.source = .conversion ∧ o.conversion = some (.advised x.cookie)) ∨
      (x.source = .openClose ∧ o.openClose = some (.advised x.cookie)) ∨
      (o.ime.queryKeystrokeMgr = true ∧ o.adviseKeyEventSink = true ∧ x = ⟨.keystrokeMgr, tid⟩) := by
    unfold adviseThreadSinks
    rw [mem_live_adviseThreadFocusSink, mem_live_initCompartmentEventSink, mem_live_adviseKeyEventSink]
    simp [hlive]
  have hfocused : (s.adviseThreadSinks o tid).focused o.getTop = s.focused o.getTop := rfl
  have hcookie : (s.adviseThreadSinks o tid).dwTextLayoutSinkCookie = s.dwTextLayoutSinkCookie := rfl
  unfold activateEx
  dsimp only
  rw [hfocused]
  cases s.focused o.getTop with
  | none => simp [hthread]
  | some c =>
    rw [Option.elim_some, mem_live_initContextSink, hcookie, hthread]
    simp

theorem mem_undone (o : DeactivateOutcomes) (s : AdvisedIME E) (x : SinkRegistration) :
    x ∈ s.undone o ↔
      (s.dwThreadFocusSinkCookie ≠ 0 ∧ o.threadFocus = true ∧
        x = ⟨.threadMgr, s.dwThreadFocusSinkCookie⟩) ∨
      (∃ c, s.focused o.getTop = some c ∧ s.dwTextLayoutSinkCookie ≠ 0 ∧ o.layout = true ∧
        x = ⟨.context c, s.dwTextLayoutSinkCookie⟩) ∨
      (o.openClose = true ∧ x = ⟨.openClose, s.dwCompartmentEventSinkOpenCloseCookie⟩) ∨
      (o.conversion = true ∧ x = ⟨.conversion, s.dwCompartmentEventSinkInputmodeConversionCookie⟩) := by
  have given (p : Prop) [Decidable p] (y : SinkRegistration) :
      x ∈ (if p then [y] else []) ↔ p ∧ x = y := by
    split_ifs with hp <;> simp [hp]
  unfold undone
  rw [List.mem_append, List.mem_append, List.mem_append, given, given, given, or_assoc, and_assoc]
  apply or_congr_right
  apply or_congr_left
  cases s.focused o.getTop with
  | none => simp
  | some c => simp [given, and_assoc]

theorem nodup_undone (o : DeactivateOutcomes) (s : AdvisedIME E) : (s.undone o).Nodup := by
  unfold undone
  cases s.focused o.getTop <;> simp only [Option.elim_none, Option.elim_some] <;> split_ifs <;> simp

theorem undoesSinks_deactivate_iff {s : AdvisedIME E} (hs : s.Accounted)
    (hp : s.ime.pThreadMgr = true) (o : DeactivateOutcomes) :
    (s.step (.deactivate o)).UndoesSinks ↔
      (∀ x ∈ s.undone o, x ∈ s.registry.live) ∧
        ∀ x ∈ s.registry.live, x ∈ s.undone o ∨
          (o.queryKeystrokeMgr = true ∧ x = ⟨.keystrokeMgr, s.tfClientId⟩) := by
  have hregistry := deactivate_registry hp o
  have hsound : (s.deactivate o).registry.Sound ↔ ∀ x ∈ s.undone o, x ∈ s.registry.live := by
    have hcalls := Registrations.Registry.sound_undoAll_iff (nodup_undone o s) s.registry
    rw [and_iff_right hs.sound] at hcalls
    rw [hregistry]
    split_ifs <;> exact hcalls
  have hlive (x : SinkRegistration) : x ∈ (s.deactivate o).registry.live ↔
      ¬ (o.queryKeystrokeMgr = true ∧ x = ⟨.keystrokeMgr, s.tfClientId⟩) ∧ x ∉ s.undone o ∧
        x ∈ s.registry.live := by
    rw [hregistry]
    split_ifs with hq
    · rw [Registrations.Registry.mem_live_withdraw, Registrations.Registry.mem_live_undoAll]
      simp [hq]
    · rw [Registrations.Registry.mem_live_undoAll]
      simp [hq]
  constructor
  · intro h
    refine ⟨hsound.mp h.sound, fun x hx => ?_⟩
    by_contra hleft
    rw [not_or] at hleft
    have hstill : x ∈ (s.deactivate o).registry.live := (hlive x).mpr ⟨hleft.2, hleft.1, hx⟩
    exact Registrations.Registry.notMem_live (h.inactive rfl) x hstill
  · rintro ⟨hcalls, hall⟩
    have hnone (x : SinkRegistration) : x ∉ (s.deactivate o).registry.live := by
      intro hx
      obtain ⟨hkey, hundone, hx⟩ := (hlive x).mp hx
      rcases hall x hx with h | h
      · exact hundone h
      · exact hkey h
    refine ⟨hsound.mpr hcalls, fun c d k l hc _ => absurd hc (hnone _), fun _ => ?_⟩
    exact Finset.eq_empty_of_forall_notMem hnone

section Undone

variable (o : DeactivateOutcomes) (s : AdvisedIME E) (k : UInt32)

theorem keystrokeMgr_notMem_undone : ⟨.keystrokeMgr, k⟩ ∉ s.undone o := by
  simp [mem_undone]

theorem threadMgr_mem_undone :
    ⟨.threadMgr, k⟩ ∈ s.undone o ↔
      s.dwThreadFocusSinkCookie ≠ 0 ∧ o.threadFocus = true ∧ k = s.dwThreadFocusSinkCookie := by
  simp [mem_undone]

theorem openClose_mem_undone :
    ⟨.openClose, k⟩ ∈ s.undone o ↔
      o.openClose = true ∧ k = s.dwCompartmentEventSinkOpenCloseCookie := by
  simp [mem_undone]

theorem conversion_mem_undone :
    ⟨.conversion, k⟩ ∈ s.undone o ↔
      o.conversion = true ∧ k = s.dwCompartmentEventSinkInputmodeConversionCookie := by
  simp [mem_undone]

theorem context_mem_undone (c : ContextId) :
    ⟨.context c, k⟩ ∈ s.undone o ↔
      s.focused o.getTop = some c ∧ s.dwTextLayoutSinkCookie ≠ 0 ∧ o.layout = true ∧
        k = s.dwTextLayoutSinkCookie := by
  simp [mem_undone]

end Undone

section Deactivate

variable {s : AdvisedIME E} {o : DeactivateOutcomes}

theorem mem_live_of_undone (hp : s.ime.pThreadMgr = true) (h : s.findsSinks (.deactivate o))
    (x : SinkRegistration) (hx : x ∈ s.undone o) : x ∈ s.registry.live := by
  obtain ⟨hfocus, hlayout, hopen, hconversion, -⟩ := h hp
  obtain ⟨source, k⟩ := x
  cases source with
  | keystrokeMgr => exact absurd hx (keystrokeMgr_notMem_undone o s k)
  | threadMgr =>
    obtain ⟨hcookie, ho, rfl⟩ := (threadMgr_mem_undone o s k).mp hx
    exact (hfocus hcookie).mp ho
  | openClose =>
    obtain ⟨ho, rfl⟩ := (openClose_mem_undone o s k).mp hx
    exact hopen.mp ho
  | conversion =>
    obtain ⟨ho, rfl⟩ := (conversion_mem_undone o s k).mp hx
    exact hconversion.mp ho
  | context c =>
    obtain ⟨hc, hcookie, ho, rfl⟩ := (context_mem_undone o s k c).mp hx
    exact (hlayout hcookie c).mp ⟨hc, ho⟩

theorem undone_of_mem_live (hs : s.Accounted) (hp : s.ime.pThreadMgr = true)
    (h : s.findsSinks (.deactivate o)) (x : SinkRegistration) (hx : x ∈ s.registry.live) :
    x ∈ s.undone o ∨ (o.queryKeystrokeMgr = true ∧ x = ⟨.keystrokeMgr, s.tfClientId⟩) := by
  obtain ⟨hfocus, hlayout, hopen, hconversion, hkey⟩ := h hp
  obtain ⟨source, k⟩ := x
  have hnamed := hs.named _ hx
  cases source with
  | keystrokeMgr =>
    obtain rfl : k = s.tfClientId := hnamed
    exact .inr ⟨hkey hx, rfl⟩
  | threadMgr =>
    obtain ⟨rfl, hcookie⟩ : k = s.dwThreadFocusSinkCookie ∧ k ≠ 0 := hnamed
    left
    exact (threadMgr_mem_undone o s _).mpr ⟨hcookie, (hfocus hcookie).mpr hx, rfl⟩
  | openClose =>
    obtain rfl : k = s.dwCompartmentEventSinkOpenCloseCookie := hnamed
    left
    exact (openClose_mem_undone o s _).mpr ⟨hopen.mpr hx, rfl⟩
  | conversion =>
    obtain rfl : k = s.dwCompartmentEventSinkInputmodeConversionCookie := hnamed
    left
    exact (conversion_mem_undone o s _).mpr ⟨hconversion.mpr hx, rfl⟩
  | context c =>
    obtain ⟨rfl, hcookie⟩ : k = s.dwTextLayoutSinkCookie ∧ k ≠ 0 := hnamed
    obtain ⟨hc, ho⟩ := (hlayout hcookie c).mpr hx
    left
    exact (context_mem_undone o s _ c).mpr ⟨hc, hcookie, ho, rfl⟩

theorem findsSinks_deactivate_iff (hs : s.Accounted) (hp : s.ime.pThreadMgr = true) :
    (s.step (.deactivate o)).UndoesSinks ↔ s.findsSinks (.deactivate o) := by
  rw [undoesSinks_deactivate_iff hs hp]
  constructor
  · rintro ⟨hcalls, hall⟩ -
    have same (x : SinkRegistration) (hx : x.source ≠ .keystrokeMgr) :
        x ∈ s.registry.live ↔ x ∈ s.undone o := by
      refine ⟨fun hlive => ?_, hcalls x⟩
      rcases hall x hlive with h | ⟨-, rfl⟩
      · exact h
      · exact absurd rfl hx
    refine ⟨fun hcookie => ?_, fun hcookie c => ?_, ?_, ?_, fun hlive => ?_⟩
    · rw [same _ (by simp), threadMgr_mem_undone]
      simp [hcookie]
    · rw [same _ (by simp), context_mem_undone]
      simp [hcookie]
    · rw [same _ (by simp), openClose_mem_undone]
      simp
    · rw [same _ (by simp), conversion_mem_undone]
      simp
    · rcases hall _ hlive with h | ⟨hquery, -⟩
      · exact absurd h (keystrokeMgr_notMem_undone o s _)
      · exact hquery
  · intro h
    exact ⟨mem_live_of_undone hp h, undone_of_mem_live hs hp h⟩

end Deactivate

theorem accounted_uninitContextSink {s : AdvisedIME E} (hs : s.Accounted) {c : ContextId}
    (hlive : s.dwTextLayoutSinkCookie ≠ 0 → ⟨.context c, s.dwTextLayoutSinkCookie⟩ ∈ s.registry.live) :
    (s.uninitContextSink true c).Accounted := by
  have hsubset (x : SinkRegistration) (hx : x ∈ (s.uninitContextSink true c).registry.live) :
      x ∈ s.registry.live := by
    rw [uninitContextSink_eq, Registrations.Registry.mem_live_undoAll] at hx
    exact hx.2
  -- the only layout sink is the one undone
  have hnone (d : ContextId) (k : UInt32) :
      ⟨.context d, k⟩ ∉ (s.uninitContextSink true c).registry.live := by
    intro hx
    obtain ⟨hk, hne⟩ := hs.named _ (hsubset _ hx)
    dsimp only at hk hne
    subst hk
    have hd := hs.oneContext d c _ _ (hsubset _ hx) (hlive hne)
    rw [uninitContextSink_eq, Registrations.Registry.mem_live_undoAll, if_pos ⟨hne, rfl⟩, hd] at hx
    exact hx.1 (List.mem_singleton_self _)
  refine ⟨?_, fun x hx => ?_, fun d _ k _ hd _ => absurd hd (hnone d k)⟩
  · rw [uninitContextSink_eq]
    apply (Registrations.Registry.sound_undoAll_iff (by split_ifs <;> simp) _).mpr
    refine ⟨hs.sound, fun x hx => ?_⟩
    split_ifs at hx with hcookie
    · rw [List.mem_singleton.mp hx]
      exact hlive hcookie.1
    · cases hx
  · have hnamed := hs.named x (hsubset x hx)
    rw [uninitContextSink_eq]
    obtain ⟨source, k⟩ := x
    cases source with
    | context d => exact absurd hx (hnone d k)
    | _ => exact hnamed

structure Tracked (s : AdvisedIME E) : Prop where
  accounted : s.Accounted
  inactive : s.active = false → s.registry.live = ∅
  active : s.active = true → s.ime.pThreadMgr = true

theorem Tracked.undoesSinks {s : AdvisedIME E} (hs : s.Tracked) : s.UndoesSinks :=
  ⟨hs.accounted.sound, hs.accounted.oneContext, hs.inactive⟩

section Steps

variable {s : AdvisedIME E}

theorem activateEx_ime (o : ActivateExOutcomes) (tid : UInt32) (s : AdvisedIME E) :
    (s.activateEx o tid).2.ime = (s.ime.activateEx o.ime).2 := by
  unfold activateEx
  dsimp only
  cases (s.adviseThreadSinks o tid).focused o.getTop with
  | none => rfl
  | some c =>
    simp only [Option.elim_some, initContextSink]
    split_ifs <;> rfl

theorem tracked_activate {o : ActivateExOutcomes} {tid : UInt32} (hs : s.Tracked)
    (ha : s.active = false) (ho : (SinkEvent.activate o tid).keepsContract)
    (h : s.findsSinks (.activate o tid)) : (s.step (.activate o tid)).Tracked := by
  have hlive := hs.inactive ha
  have haccounted := accounted_activateEx hs.accounted hlive ho
  refine ⟨⟨haccounted.sound, haccounted.named, haccounted.oneContext⟩, fun hfails => ?_, fun _ => ?_⟩
  · obtain ⟨hopen, hconversion, hfocus, hlayout⟩ := h hfails
    apply Finset.eq_empty_of_forall_notMem
    intro x hx
    rcases (mem_live_activateEx hlive o tid x).mp hx with ⟨c, hc, hcookie, -, hx⟩ | ⟨-, hx⟩ | ⟨-, hx⟩ |
      ⟨-, hx⟩ | ⟨hquery, -⟩
    · exact hlayout (by rw [hc]; rfl) hcookie _ hx
    · exact hfocus _ hx
    · exact hconversion _ hx
    · exact hopen _ hx
    · have hfailed : o.ime.queryKeystrokeMgr = false := hfails
      rw [hfailed] at hquery
      cases hquery
  · change (s.activateEx o tid).2.ime.pThreadMgr = true
    rw [activateEx_ime]
    rfl

theorem findsSinks_activate {o : ActivateExOutcomes} {tid : UInt32} (hs : s.Tracked)
    (ha : s.active = false) (h : (s.step (.activate o tid)).UndoesSinks) :
    s.findsSinks (.activate o tid) := by
  intro hfails
  have hnone : ∀ x, x ∉ (s.activateEx o tid).2.registry.live :=
    Registrations.Registry.notMem_live (h.inactive hfails)
  have hregisters := mem_live_activateEx (hs.inactive ha) o tid
  refine ⟨fun k hk => ?_, fun k hk => ?_, fun k hk => ?_, fun hfocused hcookie k hk => ?_⟩
  · apply hnone ⟨.openClose, k⟩
    exact (hregisters _).mpr (.inr (.inr (.inr (.inl ⟨rfl, hk⟩))))
  · apply hnone ⟨.conversion, k⟩
    exact (hregisters _).mpr (.inr (.inr (.inl ⟨rfl, hk⟩)))
  · apply hnone ⟨.threadMgr, k⟩
    exact (hregisters _).mpr (.inr (.inl ⟨rfl, hk⟩))
  · obtain ⟨c, hc⟩ := Option.isSome_iff_exists.mp hfocused
    apply hnone ⟨.context c, k⟩
    exact (hregisters _).mpr (.inl ⟨c, hc, hcookie, rfl, hk⟩)

theorem undoesSinks_deactivate (hs : s.Tracked) (o : DeactivateOutcomes) :
    (s.step (.deactivate o)).UndoesSinks ↔ s.findsSinks (.deactivate o) := by
  cases hp : s.ime.pThreadMgr with
  | true => exact findsSinks_deactivate_iff hs.accounted hp
  | false =>
    have hregistry : (s.step (.deactivate o)).registry = s.registry := by
      simp [step, deactivate, unadviseThreadFocusSink, hp]
    have hinactive : s.active = false := by
      by_contra ha
      have hactive := hs.active (by simpa using ha)
      rw [hp] at hactive
      cases hactive
    apply iff_of_true
    · refine ⟨?_, ?_, fun _ => ?_⟩
      · rw [hregistry]
        exact hs.accounted.sound
      · rw [hregistry]
        exact hs.accounted.oneContext
      · rw [hregistry]
        exact hs.inactive hinactive
    · intro hp'
      rw [hp] at hp'
      cases hp'

theorem tracked_deactivate {o : DeactivateOutcomes} (h : (s.step (.deactivate o)).UndoesSinks) :
    (s.step (.deactivate o)).Tracked := by
  have hnone := Registrations.Registry.notMem_live (h.inactive rfl)
  exact ⟨⟨h.sound, fun x hx => absurd hx (hnone x), h.oneContext⟩, h.inactive, nofun⟩

theorem tracked_setThreadFocus {o : SetThreadFocusOutcomes} (hs : s.Tracked)
    (ho : (SinkEvent.setThreadFocus o).keepsContract) (h : s.findsSinks (.setThreadFocus o)) :
    (s.step (.setThreadFocus o)).Tracked := by
  unfold step onSetThreadFocus
  dsimp only
  split_ifs with hp
  · cases hc : s.focused o.getTop with
    | none => exact hs
    | some c =>
      obtain ⟨hlive, hlayout⟩ := h hp c hc
      rw [Option.elim_some, ho.1]
      have haccounted := accounted_initContextSink
        (accounted_uninitContextSink hs.accounted hlive) ho.2 c
      have hframe : ((s.uninitContextSink true c).initContextSink o.layout c).active = s.active ∧
          ((s.uninitContextSink true c).initContextSink o.layout c).ime = s.ime := by
        rw [uninitContextSink_eq, initContextSink]
        split_ifs <;> exact ⟨rfl, rfl⟩
      refine ⟨haccounted, fun hinactive => ?_, fun hactive => ?_⟩
      · rw [hframe.1] at hinactive
        apply Finset.eq_empty_of_forall_notMem
        intro x hx
        rw [mem_live_initContextSink, uninitContextSink_eq,
          Registrations.Registry.mem_live_undoAll] at hx
        rcases hx with ⟨-, -, hx⟩ | ⟨-, hx⟩
        · exact hlayout hinactive _ hx
        · exact Registrations.Registry.notMem_live (hs.inactive hinactive) x hx
      · rw [hframe.2]
        exact hp
  · exact hs

theorem findsSinks_setThreadFocus {o : SetThreadFocusOutcomes}
    (ho : (SinkEvent.setThreadFocus o).keepsContract)
    (h : (s.step (.setThreadFocus o)).UndoesSinks) : s.findsSinks (.setThreadFocus o) := by
  intro hp c hc
  have hstep : s.step (.setThreadFocus o) =
      (s.uninitContextSink true c).initContextSink o.layout c := by
    rw [step, onSetThreadFocus, if_pos hp, hc, Option.elim_some, ho.1]
  rw [hstep, uninitContextSink_eq] at h
  constructor
  · intro hcookie
    have hsound := h.sound
    rw [initContextSink, if_neg (by simp), Registrations.Registry.Sound, calls_advised,
      if_pos ⟨hcookie, rfl⟩] at hsound
    exact ((Registrations.Registry.sound_undo_iff _ s.registry).mp hsound).2
  · intro hinactive k hk
    have hempty := h.inactive (by rw [initContextSink]; split_ifs <;> exact hinactive)
    have hnone := Registrations.Registry.notMem_live hempty ⟨.context c, k⟩
    rw [mem_live_initContextSink] at hnone
    exact hnone (.inl ⟨rfl, rfl, hk⟩)

theorem undoesSinks_step {e : SinkEvent} (hs : s.Tracked) (h : s.alternates e ∧ e.keepsContract) :
    (s.step e).UndoesSinks ↔ s.findsSinks e := by
  obtain ⟨halternates, hcontract⟩ := h
  cases e with
  | activate o tid =>
    constructor
    · exact findsSinks_activate hs halternates
    · intro hfinds
      exact (tracked_activate hs halternates hcontract hfinds).undoesSinks
  | deactivate o => exact undoesSinks_deactivate hs o
  | setThreadFocus o =>
    constructor
    · exact findsSinks_setThreadFocus hcontract
    · intro hfinds
      exact (tracked_setThreadFocus hs hcontract hfinds).undoesSinks
  | killThreadFocus => exact iff_of_true hs.undoesSinks trivial
  | moveFocus focus =>
    exact iff_of_true ⟨hs.accounted.sound, hs.accounted.oneContext, hs.inactive⟩ trivial

theorem tracked_step {e : SinkEvent} (hs : s.Tracked) (h : s.alternates e ∧ e.keepsContract)
    (hfinds : s.findsSinks e) : (s.step e).Tracked := by
  cases e with
  | activate o tid => exact tracked_activate hs h.1 h.2 hfinds
  | deactivate o => exact tracked_deactivate ((undoesSinks_deactivate hs o).mpr hfinds)
  | setThreadFocus o => exact tracked_setThreadFocus hs h.2 hfinds
  | killThreadFocus => exact hs
  | moveFocus focus =>
    have ha := hs.accounted
    exact ⟨⟨ha.sound, ha.named, ha.oneContext⟩, hs.inactive, hs.active⟩

end Steps

theorem sinks_undone_iff (engine : E) (contexts : ContextId → MarkedText WChar CompositionId)
    (hmarks : ∀ c i, (contexts c).marks i = none) (compartments : Compartments)
    (openClose conversion : UInt32) (focus : Option ContextId) (es : List SinkEvent)
    (hes : Runs.Along step (fun s e => s.alternates e ∧ e.keepsContract)
      (construct (CTCodeIME.construct engine contexts hmarks compartments) openClose conversion focus)
      es) :
    Runs.Throughout step UndoesSinks
        (construct (CTCodeIME.construct engine contexts hmarks compartments) openClose conversion focus)
        es ↔
      Runs.Along step findsSinks
        (construct (CTCodeIME.construct engine contexts hmarks compartments) openClose conversion focus)
        es := by
  have hnone (x : SinkRegistration) : x ∉ (∅ : Finset SinkRegistration) := Finset.notMem_empty x
  have hstart : (construct (CTCodeIME.construct engine contexts hmarks compartments) openClose
      conversion focus).Tracked :=
    ⟨⟨nofun, fun x hx => absurd hx (hnone x), fun _ _ _ _ hc => absurd hc (hnone _)⟩,
      fun _ => rfl, nofun⟩
  have hstep (s : AdvisedIME E) (e : SinkEvent) (hs : s.Tracked)
      (h : s.alternates e ∧ e.keepsContract) := undoesSinks_step hs h
  exact Runs.throughout_iff_along (fun _ hs => hs.undoesSinks) hstep
    (fun _ _ hs h hfinds => tracked_step hs h hfinds) hstart hes

theorem sinks_undone_of_focus_kept :
    Runs.Throughout step UndoesSinks (construct CTCodeIME.fresh 0 0 (some 0))
      [.activate {} 1, .setThreadFocus { layout := some (.advised 2) }, .moveFocus (some 1),
        .killThreadFocus, .moveFocus (some 0), .deactivate {}] := by
  apply (sinks_undone_iff 0 (fun _ => blank) (fun _ _ => rfl) ⟨none, none⟩ 0 0 (some 0) _
    (by decide +kernel)).mpr
  refine ⟨nofun, fun _ c hc => ?_, trivial, trivial, trivial, fun _ => ?_, trivial⟩
  · cases hc
    exact ⟨fun _ => by decide +kernel, nofun⟩
  · refine ⟨fun _ => by decide +kernel, fun _ c => ?_, by decide +kernel, by decide +kernel,
      by decide +kernel⟩
    have honly : ∀ x ∈ (Runs.run step (construct CTCodeIME.fresh 0 0 (some 0))
        [.activate {} 1, .setThreadFocus { layout := some (.advised 2) }, .moveFocus (some 1),
          .killThreadFocus, .moveFocus (some 0)]).registry.live,
        x.source ∈ [.keystrokeMgr, .threadMgr, .openClose, .conversion, .context 0] := by
      decide +kernel
    constructor
    · rintro ⟨hc, -⟩
      cases hc
      decide +kernel
    · intro hx
      have hc : c = 0 := by simpa using honly _ hx
      rw [hc]
      exact ⟨rfl, rfl⟩

/-- The focus moves to another window: the cookie of the old context is passed to the new one. -/
theorem layout_sink_on_two_contexts :
    let es : List SinkEvent := [.activate {} 1, .moveFocus (some 1),
      .setThreadFocus { layout := some (.advised 2) }]
    let start := construct CTCodeIME.fresh 0 0 (some 0)
    let s := Runs.run step start es
    Runs.Along step (fun s e => s.alternates e ∧ e.keepsContract) start es ∧
      ¬ Runs.Throughout step UndoesSinks start es ∧
      s.registry.calls = [(⟨.context 1, 1⟩, false)] ∧
      ⟨.context 0, 1⟩ ∈ s.registry.live ∧ ⟨.context 1, 2⟩ ∈ s.registry.live := by
  refine ⟨by decide +kernel, fun h => ?_, by decide +kernel⟩
  have hsound := h.2.2.2.sound
  revert hsound
  decide +kernel

end AdvisedIME

end TCodeIME
