/-!
# Lines of a text

A line feed ends a line, and so does a carriage return with the line feed after it. A carriage
return on its own is an ordinary character, and a text that ends in a line feed has no empty
line after it.

* `lines`: the lines of a text, without what ends them.
* `unlines`: the text in which each line is ended by a line feed.
-/

namespace YamlDefs.Text

/-- The lines of a text, without what ends them. -/
def lines : List Char → List (List Char)
  | [] => []
  | '\n' :: cs => [] :: lines cs
  | '\r' :: '\n' :: cs => [] :: lines cs
  | c :: cs =>
    match lines cs with
    | [] => [[c]]
    | line :: rest => (c :: line) :: rest

/-- The text in which each line is ended by a line feed. -/
def unlines (ls : List (List Char)) : List Char := ls.flatMap (· ++ ['\n'])

/-- A character that is neither a line feed nor a carriage return joins the line after it. -/
theorem lines_cons {c : Char} (hn : c ≠ '\n') (hr : c ≠ '\r') (cs : List Char) :
    lines (c :: cs) = match lines cs with
      | [] => [[c]]
      | line :: rest => (c :: line) :: rest := by
  rw [lines.eq_def]
  split <;> simp_all

theorem lines_newline (cs : List Char) : lines ('\n' :: cs) = [] :: lines cs := by
  rw [lines]

end YamlDefs.Text
