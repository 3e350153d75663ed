import TCodeIME.Library.Utf16

namespace TCodeIME

/-- The `std::string` of a JSON text, as its Unicode scalar values. -/
abbrev Str := List Char

abbrev WChar := UInt16

abbrev WString := List WChar

inductive Request where
  | put (char : Str)
  | backspace
  | left
  | right
  | convert
  | reset
  | select (n : Int32)
  | commit
deriving DecidableEq

structure BufferStatusResponse where
  outputBuffer : Str := []
  buffer : Str := []
  candidates : List Str := []
  lastCharAsKey : Str := []
  commandSucceed : Bool := false
deriving DecidableEq

structure CommitResponse where
  output : Str := []
deriving DecidableEq

/-- `CEngineClient::Utf8ToWide`. The conversion reads `str.c_str()` up to its first terminator, so
a string with `U+0000` in it is cut there. -/
def utf8ToWide (s : Str) : WString := Utf16.encode (Utf16.upTo '\x00' s)

@[simp] theorem utf8ToWide_nil : utf8ToWide [] = [] := rfl

theorem utf8ToWide_eq_encode (s : Str) : utf8ToWide s = Utf16.encode s ↔ '\x00' ∉ s :=
  Utf16.encode_upTo_eq _ s

/-- `operator[]` of a wide string: the terminator stands at its length, and beyond that the read
yields whatever `pastEnd` the memory holds there. -/
def charAt (pastEnd : WChar) (w : WString) (i : ℕ) : WChar :=
  if h : i < w.length then w.get ⟨i, h⟩ else if i = w.length then 0 else pastEnd

namespace BufferStatusResponse

/-! The getters of `CEngineClient`, which read its `m_lastResponse`. -/

def getCandidates (r : BufferStatusResponse) : List Str := r.candidates

def hasCandidates (r : BufferStatusResponse) : Bool := !r.candidates.isEmpty

def getBuffer (r : BufferStatusResponse) : WString := utf8ToWide r.buffer

def getOutputBuffer (r : BufferStatusResponse) : WString := utf8ToWide r.outputBuffer

def isLastKeyEmpty (r : BufferStatusResponse) : Bool := r.lastCharAsKey == "None".toList

def getLastKey (pastEnd : WChar) (r : BufferStatusResponse) : WString :=
  if r.isLastKeyEmpty then []
  -- a pending key `c` arrives as `Some(c)`
  else [UInt16.ofNat '('.toNat, charAt pastEnd (utf8ToWide r.lastCharAsKey) 5, UInt16.ofNat ')'.toNat]

def isBufferEmpty (r : BufferStatusResponse) : Bool := r.buffer.isEmpty

def isOutputBufferEmpty (r : BufferStatusResponse) : Bool := r.outputBuffer.isEmpty

def preedit (pastEnd : WChar) (r : BufferStatusResponse) : WString := r.getBuffer ++ r.getLastKey pastEnd

@[simp] theorem getLastKey_eq_nil (pastEnd : WChar) (r : BufferStatusResponse) :
    r.getLastKey pastEnd = [] ↔ r.isLastKeyEmpty = true := by
  unfold getLastKey
  split_ifs with h <;> simp [h]

theorem preedit_eq_nil (pastEnd : WChar) (r : BufferStatusResponse) :
    r.preedit pastEnd = [] ↔ r.getBuffer = [] ∧ r.isLastKeyEmpty = true := by
  simp [preedit]

theorem getBuffer_eq_nil_of_isBufferEmpty {r : BufferStatusResponse} (h : r.isBufferEmpty = true) :
    r.getBuffer = [] := by
  simp only [isBufferEmpty, List.isEmpty_iff] at h
  simp [getBuffer, h]

@[simp] theorem hasCandidates_eq_true (r : BufferStatusResponse) :
    r.hasCandidates = true ↔ r.candidates ≠ [] := by
  simp [hasCandidates]

@[simp] theorem hasCandidates_eq_false (r : BufferStatusResponse) :
    r.hasCandidates = false ↔ r.candidates = [] := by
  simp [hasCandidates]

end BufferStatusResponse

end TCodeIME
