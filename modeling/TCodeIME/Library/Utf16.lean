import Mathlib.Data.List.TakeWhile

namespace Utf16

def encodeChar (c : Char) : List UInt16 :=
  if c.toNat < 0x10000 then [UInt16.ofNat c.toNat]
  else [UInt16.ofNat (0xD800 + (c.toNat - 0x10000) / 0x400),
    UInt16.ofNat (0xDC00 + (c.toNat - 0x10000) % 0x400)]

def encode (s : List Char) : List UInt16 := s.flatMap encodeChar

@[simp] theorem encode_nil : encode [] = [] := rfl

@[simp] theorem encode_cons (c : Char) (s : List Char) : encode (c :: s) = encodeChar c ++ encode s := rfl

@[simp] theorem encode_append (s t : List Char) : encode (s ++ t) = encode s ++ encode t := by
  simp [encode]

theorem encodeChar_length_pos (c : Char) : 0 < (encodeChar c).length := by
  unfold encodeChar
  split_ifs <;> simp

@[simp] theorem encode_eq_nil (s : List Char) : encode s = [] ↔ s = [] := by
  cases s with
  | nil => simp
  | cons c s =>
    have := List.length_pos_iff.mp (encodeChar_length_pos c)
    simp [this]

def upTo (z : Char) (s : List Char) : List Char := s.takeWhile (· ≠ z)

theorem upTo_of_notMem {z : Char} {s : List Char} (h : z ∉ s) : upTo z s = s := by
  apply List.takeWhile_eq_self_iff.mpr
  intro c hc
  simpa using fun he : c = z => h (he ▸ hc)

theorem upTo_append_cons {z : Char} {s t : List Char} (h : z ∉ s) : upTo z (s ++ z :: t) = s := by
  induction s with
  | nil => simp [upTo]
  | cons c s ih =>
    simp only [List.mem_cons, not_or] at h
    have hc : decide (c ≠ z) = true := by simpa using fun he : c = z => h.1 he.symm
    rw [upTo, List.cons_append, List.takeWhile_cons, if_pos hc]
    exact congrArg (c :: ·) (ih h.2)

theorem encode_upTo_eq (z : Char) (s : List Char) : encode (upTo z s) = encode s ↔ z ∉ s := by
  constructor
  · intro h hz
    obtain ⟨a, b, rfl, ha⟩ := List.eq_append_cons_of_mem hz
    rw [upTo_append_cons ha] at h
    have hlen := congrArg List.length h
    have hpos := encodeChar_length_pos z
    simp only [encode_append, encode_cons, List.length_append] at hlen
    omega
  · intro h
    rw [upTo_of_notMem h]

end Utf16
