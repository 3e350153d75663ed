import Mathlib.Data.List.TakeWhile

/-!
A reader of command lines that keeps a single pair of quotes under conditions, and else drops the
outermost ones and reads a name up to its end.
-/

namespace QuotedCommand

/-- `names` says whether a text names something that can be run. -/
structure Reader (α : Type) where
  quote : α
  special : α → Bool
  space : α → Bool
  endsName : α → Bool
  names : List α → Bool

variable {α : Type} [DecidableEq α]

namespace Reader

def enclosed (reader : Reader α) (command : List α) : Option (List α) :=
  if command.count reader.quote = 2 then
    some ((command.dropWhile (· ≠ reader.quote)).tail.takeWhile (· ≠ reader.quote))
  else none

def keeps (reader : Reader α) (text : List α) : Bool :=
  text.all (fun c => !reader.special c) && text.any reader.space && reader.names text

def dropQuotes (reader : Reader α) : List α → List α
  | [] => []
  | c :: rest => if c = reader.quote then (rest.reverse.erase reader.quote).reverse else c :: rest

def nameOf (reader : Reader α) (command : List α) : List α :=
  command.takeWhile fun c => !(reader.space c || reader.endsName c)

def commandName (reader : Reader α) (command : List α) : List α :=
  match (reader.enclosed command).filter reader.keeps with
  | some text => text
  | none => reader.nameOf (reader.dropQuotes command)

variable {reader : Reader α} {text : List α}

theorem enclosed_quoted (h : reader.quote ∉ text) :
    reader.enclosed (reader.quote :: text ++ [reader.quote]) = some text := by
  have hcount : (reader.quote :: text ++ [reader.quote]).count reader.quote = 2 := by
    simp [List.count_eq_zero.mpr h]
  have hall : ∀ c ∈ text, decide (c ≠ reader.quote) = true := by
    intro c hc
    simpa using fun he : c = reader.quote => h (he ▸ hc)
  rw [enclosed, if_pos hcount, List.cons_append, List.dropWhile_cons_of_neg (by simp), List.tail_cons,
    List.takeWhile_append_of_pos hall]
  simp

theorem dropQuotes_quoted (reader : Reader α) (text : List α) :
    reader.dropQuotes (reader.quote :: text ++ [reader.quote]) = text := by
  simp [dropQuotes]

theorem commandName_quoted (h : reader.quote ∉ text) :
    reader.commandName (reader.quote :: text ++ [reader.quote]) =
      if reader.keeps text then text else reader.nameOf text := by
  rw [commandName, enclosed_quoted h, dropQuotes_quoted]
  cases hkeeps : reader.keeps text <;> simp [Option.filter, hkeeps]

theorem commandName_quoted_eq_iff (h : reader.quote ∉ text) :
    reader.commandName (reader.quote :: text ++ [reader.quote]) = text ↔
      reader.keeps text = true ∨ ∀ c ∈ text, reader.space c = false ∧ reader.endsName c = false := by
  rw [commandName_quoted h]
  split_ifs with hkeeps
  · exact iff_of_true rfl (.inl hkeeps)
  · rw [nameOf, List.takeWhile_eq_self_iff]
    simp [hkeeps]

end Reader

end QuotedCommand
