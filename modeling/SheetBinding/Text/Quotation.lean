/-!
Quoted stretches of a sheet. A stretch opens with a double or a single quote and
runs to the next quote of the same kind that no backslash escapes; a backslash
escapes whatever single character follows it. A quote that is never closed opens
no stretch.

`unescape` drops every escaping backslash and `escape` puts one before each
character that needs it, so that unescaping what was escaped gives it back.
-/

namespace SheetBinding.Text

/-- The quotes that quoted texts are put in. -/
def isQuote (c : Char) : Bool :=
  c == '"' || c == '\''

/-- Splits at the quote `q` that closes a stretch whose opening quote has just
been read: what stands before it, and what follows it. Nothing if the stretch is
never closed. -/
def closeQuote? (q : Char) : List Char → Option (List Char × List Char)
  | [] => none
  | '\\' :: [] => none
  | '\\' :: c :: rest =>
    (closeQuote? q rest).map fun (inner, after) => ('\\' :: c :: inner, after)
  | c :: rest =>
    if c == q then some ([], rest)
    else (closeQuote? q rest).map fun (inner, after) => (c :: inner, after)

/-- What is closed was the text: the inner part, the quote, and what follows. -/
theorem eq_of_closeQuote? {q : Char} {cs inner after : List Char}
    (h : closeQuote? q cs = some (inner, after)) : cs =
      inner ++ q :: after := by
  fun_induction closeQuote? q cs generalizing inner after with
  | case1 => cases h
  | case2 => cases h
  | case3 c rest ih =>
    obtain ⟨⟨i, a⟩, hi, he⟩ := Option.map_eq_some_iff.1 h
    cases he
    simp [ih hi]
  | case4 c rest hne hne' hc =>
    cases h
    simp [eq_of_beq hc]
  | case5 c rest hne hne' hc ih =>
    obtain ⟨⟨i, a⟩, hi, he⟩ := Option.map_eq_some_iff.1 h
    cases he
    simp [ih hi]

/-- Drops the backslash before every escaped character; a backslash at the very
end escapes nothing and stays. -/
def unescape : List Char → List Char
  | [] => []
  | '\\' :: c :: rest => c :: unescape rest
  | c :: rest => c :: unescape rest

/-- Puts a backslash before each backslash and each quote of the kind `q`. -/
def escape (q : Char) : List Char → List Char
  | [] => []
  | c :: rest =>
    if c == '\\' || c == q then '\\' :: c :: escape q rest
    else c :: escape q rest

/-- The content of a text that is one quoted stretch from end to end, unescaped.
One line feed after the closing quote is let pass. -/
def unquote? : List Char → Option (List Char)
  | [] => none
  | q :: rest =>
    if isQuote q then
      match closeQuote? q rest with
      | some (inner, []) => some (unescape inner)
      | some (inner, ['\n']) => some (unescape inner)
      | _ => none
    else none

/-- A text written between quotes of the kind `q`. -/
def enquote (q : Char) (cs : List Char) : List Char :=
  q :: escape q cs ++ [q]

end SheetBinding.Text
