namespace GitLanes

/-!
# Lines of text

A newline ends a line wherever it stands, so text with `n` newlines has `n + 1`
lines. Files may also end their lines with a carriage return, alone or before
the newline; reading a file folds both into a newline first.

The main statements say that folding leaves no carriage return behind and that
it leaves text without one alone.
-/

/-- The lines of text, without the newlines between them. -/
def linesOf (text : List Char) : List (List Char) :=
  text.splitOn '\n'

/-- Text in which a newline is the only line end. -/
def foldLineEnds : List Char → List Char
  | [] => []
  | '\r' :: '\n' :: rest => '\n' :: foldLineEnds rest
  | '\r' :: rest => '\n' :: foldLineEnds rest
  | character :: rest => character :: foldLineEnds rest

/-- Folded text holds no carriage return. -/
theorem not_mem_foldLineEnds (text : List Char) :
    '\r' ∉ foldLineEnds text := by
  fun_induction foldLineEnds text <;> simp_all [eq_comm]

/-- Folding keeps text that holds no carriage return. -/
theorem foldLineEnds_eq_self
    {text : List Char}
    (absent : '\r' ∉ text) :
    foldLineEnds text = text := by
  fun_induction foldLineEnds text <;> simp_all

end GitLanes
