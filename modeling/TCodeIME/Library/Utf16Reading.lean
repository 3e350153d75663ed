import TCodeIME.Library.Utf16
import Mathlib.Data.UInt

/-!
Reading UTF-16 back: which code units are a text, and that a text can be cut off either end of one.
-/

namespace Utf16

def IsHigh (u : UInt16) : Prop := 0xD800 ≤ u.toNat ∧ u.toNat < 0xDC00

def IsLow (u : UInt16) : Prop := 0xDC00 ≤ u.toNat ∧ u.toNat < 0xE000

def IsSurrogate (u : UInt16) : Prop := 0xD800 ≤ u.toNat ∧ u.toNat < 0xE000

instance (u : UInt16) : Decidable (IsHigh u) := inferInstanceAs (Decidable (_ ∧ _))

instance (u : UInt16) : Decidable (IsLow u) := inferInstanceAs (Decidable (_ ∧ _))

instance (u : UInt16) : Decidable (IsSurrogate u) := inferInstanceAs (Decidable (_ ∧ _))

def scalarOfPair (h l : UInt16) : ℕ := 0x10000 + (h.toNat - 0xD800) * 0x400 + (l.toNat - 0xDC00)

def decode : List UInt16 → Option (List Char)
  | [] => some []
  | [u] => if IsSurrogate u then none else some [Char.ofNat u.toNat]
  | u :: l :: w =>
    if IsHigh u ∧ IsLow l then (decode w).map (Char.ofNat (scalarOfPair u l) :: ·)
    else if IsSurrogate u then none
    else (decode (l :: w)).map (Char.ofNat u.toNat :: ·)

def WellFormed (w : List UInt16) : Prop := (decode w).isSome

instance (w : List UInt16) : Decidable (WellFormed w) := inferInstanceAs (Decidable (_ = true))

theorem toNat_unit {n : ℕ} (h : n < 0x10000) : (UInt16.ofNat n).toNat = n := by
  rw [UInt16.toNat_ofNat']
  exact Nat.mod_eq_of_lt h

theorem encodeChar_cases (c : Char) :
    (∃ u, encodeChar c = [u] ∧ ¬ IsSurrogate u ∧ u.toNat = c.toNat) ∨
      ∃ h l, encodeChar c = [h, l] ∧ IsHigh h ∧ IsLow l ∧ scalarOfPair h l = c.toNat := by
  have hvalid : c.toNat < 0xD800 ∨ 0xDFFF < c.toNat ∧ c.toNat < 0x110000 := c.valid
  by_cases hc : c.toNat < 0x10000
  · have hu := toNat_unit hc
    refine .inl ⟨UInt16.ofNat c.toNat, by rw [encodeChar, if_pos hc], ?_, hu⟩
    rw [IsSurrogate, hu]
    omega
  · have hh : (UInt16.ofNat (0xD800 + (c.toNat - 0x10000) / 0x400)).toNat =
        0xD800 + (c.toNat - 0x10000) / 0x400 := toNat_unit (by omega)
    have hl : (UInt16.ofNat (0xDC00 + (c.toNat - 0x10000) % 0x400)).toNat =
        0xDC00 + (c.toNat - 0x10000) % 0x400 := toNat_unit (by omega)
    refine .inr ⟨_, _, by rw [encodeChar, if_neg hc], ?_, ?_, ?_⟩
    · rw [IsHigh, hh]
      omega
    · rw [IsLow, hl]
      omega
    · unfold scalarOfPair
      omega

theorem IsHigh.isSurrogate {u : UInt16} (h : IsHigh u) : IsSurrogate u := ⟨h.1, h.2.trans (by decide)⟩

theorem IsLow.isSurrogate {u : UInt16} (h : IsLow u) : IsSurrogate u := ⟨Nat.le_trans (by decide) h.1, h.2⟩

theorem IsLow.not_isHigh {u : UInt16} (h : IsLow u) : ¬ IsHigh u := by
  intro hh
  have := h.1
  have := hh.2
  omega

theorem decode_cons {u : UInt16} (h : ¬ IsSurrogate u) (w : List UInt16) :
    decode (u :: w) = (decode w).map (Char.ofNat u.toNat :: ·) := by
  cases w with
  | nil => simp [decode, h]
  | cons l w =>
    have hhigh : ¬ (IsHigh u ∧ IsLow l) := fun hp => h hp.1.isSurrogate
    rw [decode, if_neg hhigh, if_neg h]

theorem decode_encodeChar_append (c : Char) (w : List UInt16) :
    decode (encodeChar c ++ w) = (decode w).map (c :: ·) := by
  rcases encodeChar_cases c with ⟨u, he, hu, hc⟩ | ⟨h, l, he, hh, hl, hc⟩
  · rw [he, List.singleton_append, decode_cons hu, hc, Char.ofNat_toNat]
  · rw [he, List.cons_append, List.singleton_append, decode, if_pos ⟨hh, hl⟩, hc, Char.ofNat_toNat]

theorem decode_encode_append (s : List Char) (w : List UInt16) :
    decode (encode s ++ w) = (decode w).map (s ++ ·) := by
  induction s with
  | nil => simp
  | cons c s ih =>
    rw [encode_cons, List.append_assoc, decode_encodeChar_append, ih, Option.map_map]
    rfl

theorem decode_encode (s : List Char) : decode (encode s) = some s := by
  simpa [decode] using decode_encode_append s []

theorem encode_injective {s t : List Char} (h : encode s = encode t) : s = t := by
  have hdecoded := congrArg decode h
  rw [decode_encode, decode_encode] at hdecoded
  exact Option.some.inj hdecoded

theorem encode_ne_low_cons {l : UInt16} (hl : IsLow l) (s : List Char) (w : List UInt16) :
    encode s ≠ l :: w := by
  intro h
  cases s with
  | nil => cases h
  | cons c s =>
    rw [encode_cons] at h
    rcases encodeChar_cases c with ⟨u, he, hu, -⟩ | ⟨u, v, he, hh, -, -⟩
    · rw [he] at h
      cases h
      exact hu hl.isSurrogate
    · rw [he] at h
      cases h
      exact hl.not_isHigh hh

theorem eq_encode_of_append {x : List UInt16} {s t : List Char} (h : x ++ encode s = encode t) :
    ∃ u, t = u ++ s ∧ x = encode u := by
  induction t generalizing x with
  | nil =>
    have hempty : x = [] ∧ s = [] := by simpa using h
    exact ⟨[], by rw [hempty.2]; rfl, hempty.1⟩
  | cons c t ih =>
    cases x with
    | nil => exact ⟨[], (encode_injective h).symm, rfl⟩
    | cons y x =>
      rw [encode_cons] at h
      rcases encodeChar_cases c with ⟨u, he, -, -⟩ | ⟨u, l, he, -, hl, -⟩
      · rw [he, List.cons_append, List.singleton_append, List.cons.injEq] at h
        obtain ⟨v, rfl, rfl⟩ := ih h.2
        exact ⟨c :: v, rfl, by rw [encode_cons, he, h.1]; rfl⟩
      · rw [he] at h
        cases x with
        | nil =>
          have hlow : encode s = l :: encode t := (List.cons.inj h).2
          exact absurd hlow (encode_ne_low_cons hl s _)
        | cons z x =>
          simp only [List.cons_append, List.nil_append, List.cons.injEq] at h
          obtain ⟨v, rfl, rfl⟩ := ih h.2.2
          exact ⟨c :: v, rfl, by rw [encode_cons, he, h.1, h.2.1]; rfl⟩

theorem toNat_ofNat_of_valid {n : ℕ} (h : n.isValidChar) : (Char.ofNat n).toNat = n := by
  have hof : Char.ofNat n = Char.ofNatAux n h := dif_pos h
  rw [hof]
  rfl

theorem encodeChar_unit {u : UInt16} (h : ¬ IsSurrogate u) : encodeChar (Char.ofNat u.toNat) = [u] := by
  have hlt := u.toNat_lt
  have hvalid : u.toNat.isValidChar := by
    simp only [IsSurrogate, not_and, not_lt] at h
    simp only [Nat.isValidChar]
    omega
  rw [encodeChar, toNat_ofNat_of_valid hvalid, if_pos hlt, UInt16.ofNat_toNat]

theorem encodeChar_pair {h l : UInt16} (hh : IsHigh h) (hl : IsLow l) :
    encodeChar (Char.ofNat (scalarOfPair h l)) = [h, l] := by
  obtain ⟨hh₁, hh₂⟩ := hh
  obtain ⟨hl₁, hl₂⟩ := hl
  have hvalid : (scalarOfPair h l).isValidChar := by
    unfold Nat.isValidChar scalarOfPair
    omega
  have hhigh : 0xD800 + (scalarOfPair h l - 0x10000) / 0x400 = h.toNat := by
    unfold scalarOfPair
    omega
  have hlow : 0xDC00 + (scalarOfPair h l - 0x10000) % 0x400 = l.toNat := by
    unfold scalarOfPair
    omega
  have hlarge : ¬ scalarOfPair h l < 0x10000 := by
    unfold scalarOfPair
    omega
  rw [encodeChar, toNat_ofNat_of_valid hvalid, if_neg hlarge, hhigh, hlow, UInt16.ofNat_toNat,
    UInt16.ofNat_toNat]

theorem encode_of_decode {w : List UInt16} {s : List Char} (h : decode w = some s) : encode s = w := by
  induction w using decode.induct generalizing s with
  | case1 =>
    cases h
    rfl
  | case2 u hu =>
    simp [decode, hu] at h
  | case3 u hu =>
    have hs : s = [Char.ofNat u.toNat] := by simpa [decode, hu, eq_comm] using h
    rw [hs, encode_cons, encodeChar_unit hu]
    rfl
  | case4 u l w hpair ih =>
    rw [decode, if_pos hpair] at h
    obtain ⟨t, ht, rfl⟩ := Option.map_eq_some_iff.mp h
    rw [encode_cons, encodeChar_pair hpair.1 hpair.2, ih ht]
    rfl
  | case5 u l w hpair hu =>
    rw [decode, if_neg hpair, if_pos hu] at h
    cases h
  | case6 u l w hpair hu ih =>
    rw [decode, if_neg hpair, if_neg hu] at h
    obtain ⟨t, ht, rfl⟩ := Option.map_eq_some_iff.mp h
    rw [encode_cons, encodeChar_unit hu, ih ht]
    rfl

theorem wellFormed_iff {w : List UInt16} : WellFormed w ↔ ∃ s, encode s = w := by
  constructor
  · intro h
    obtain ⟨s, hs⟩ := Option.isSome_iff_exists.mp h
    exact ⟨s, encode_of_decode hs⟩
  · rintro ⟨s, rfl⟩
    rw [WellFormed, decode_encode]
    rfl

theorem wellFormed_encode (s : List Char) : WellFormed (encode s) := wellFormed_iff.mpr ⟨s, rfl⟩

theorem WellFormed.append {v w : List UInt16} (hv : WellFormed v) (hw : WellFormed w) :
    WellFormed (v ++ w) := by
  obtain ⟨s, rfl⟩ := wellFormed_iff.mp hv
  obtain ⟨t, rfl⟩ := wellFormed_iff.mp hw
  exact wellFormed_iff.mpr ⟨s ++ t, encode_append s t⟩

theorem wellFormed_append_left_iff {v w : List UInt16} (hv : WellFormed v) :
    WellFormed (v ++ w) ↔ WellFormed w := by
  obtain ⟨s, rfl⟩ := wellFormed_iff.mp hv
  rw [WellFormed, decode_encode_append, Option.isSome_map]
  rfl

theorem wellFormed_append_right_iff {v w : List UInt16} (hw : WellFormed w) :
    WellFormed (v ++ w) ↔ WellFormed v := by
  refine ⟨fun h => ?_, fun hv => hv.append hw⟩
  obtain ⟨s, rfl⟩ := wellFormed_iff.mp hw
  obtain ⟨t, ht⟩ := wellFormed_iff.mp h
  obtain ⟨u, -, rfl⟩ := eq_encode_of_append ht.symm
  exact wellFormed_encode u

theorem wellFormed_singleton {u : UInt16} : WellFormed [u] ↔ ¬ IsSurrogate u := by
  by_cases h : IsSurrogate u
  · simp [WellFormed, decode, h]
  · simp [WellFormed, decode, h]

end Utf16
