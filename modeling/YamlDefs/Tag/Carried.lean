import YamlDefs.Tag.Scan

/-!
# What lines leave

The scan stops at the first tag that it shows. Here it goes on behind such a line as if nothing had
been shown, so that every sequence of lines leaves something for the next line.

* `Carry.after`: what a line leaves, also one that shows a tag.
* `carriedBehind`: what the lines of a source leave.
-/

namespace YamlDefs.Tag

/-- How many flow collections are open where the moves over the rest of a line stop. -/
def depthFrom (p : Place) : List Char → Nat
  | [] => p.flowDepth
  | c :: cs =>
    match _h : step p c cs with
    | .on q rest => depthFrom q rest
    | _ => p.flowDepth
termination_by cs => cs.length
decreasing_by
  have := length_rest_of_step _h
  simp only [List.length_cons]
  omega

/-- What a line leaves for the next. A line that shows a tag is left in front of it, where a node
may begin: no scalar is open there. -/
def Carry.after (c : Carry) (line : List Char) : Carry :=
  match scanLine c line with
  | .ok next => next
  | .error _ => ⟨none, depthFrom (.start c) line, none, none⟩

/-- What the lines of a source leave, from the first on. -/
def carriedBehind (lines : List (List Char)) : Carry := lines.foldl Carry.after .initial

end YamlDefs.Tag
