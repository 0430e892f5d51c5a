/-!
# Gaps

Between two tokens stands a gap: blanks and comments, in any number. A comment starts with two
slashes and ends before the next line break. `Gap.split` cuts the longest gap off a text; nothing
is lost (`Gap.text_split`), and what is left does not start with a gap (`Gap.split_rest`).
-/

namespace GrammarExport.Syntax

/-- Whether a character is a blank: a space, or one of the controls from tab to carriage
return. -/
def isBlank (c : Char) : Bool :=
  c == ' ' || ('\t' ≤ c && c ≤ '\r')

/-- Whether a character can stand in a comment. The null character stands nowhere. -/
def inComment (c : Char) : Bool :=
  c != '\n' && c != '\x00'

/-- One piece of a gap: a blank, or a comment without its slashes and its line break. -/
inductive Trivia where
  | blank (c : Char)
  | comment (body : List Char)
  deriving DecidableEq, Repr

/-- A piece of a gap as written. -/
def Trivia.text : Trivia → List Char
  | blank c => [c]
  | comment body => '/' :: '/' :: body

/-- What stands between two tokens. -/
abbrev Gap := List Trivia

namespace Gap

/-- A gap as written. -/
def text (g : Gap) : List Char := g.flatMap Trivia.text

/-- Cuts the longest gap off a text. -/
def split : List Char → Gap × List Char
  | [] => ([], [])
  | '/' :: '/' :: rest =>
    let (g, r) := split (rest.dropWhile inComment)
    (.comment (rest.takeWhile inComment) :: g, r)
  | c :: rest =>
    if isBlank c then
      let (g, r) := split rest
      (.blank c :: g, r)
    else ([], c :: rest)
termination_by s => s.length
decreasing_by
  · have := (List.dropWhile_suffix inComment (l := rest)).length_le
    simp only [List.length_cons]
    omega
  · simp

/-- A gap and what is left after it make up the text. -/
theorem text_split (s : List Char) : (split s).1.text ++ (split s).2 = s := by
  fun_induction split s with
  | case1 => rfl
  | case2 rest g r hgr ih =>
    rw [hgr] at ih
    have : rest.takeWhile inComment ++ (text g ++ r) = rest := by
      rw [ih, List.takeWhile_append_dropWhile]
    simpa [text, Trivia.text] using this
  | case3 c rest _ _ g r hgr ih =>
    rw [hgr] at ih
    simpa [text, Trivia.text] using ih
  | case4 => rfl

/-- Whether a text starts with a piece of a gap. -/
def startsWithGap : List Char → Bool
  | [] => false
  | '/' :: '/' :: _ => true
  | c :: _ => isBlank c

/-- What is left after the longest gap does not start with a gap. -/
theorem split_rest (s : List Char) : startsWithGap (split s).2 = false := by
  fun_induction split s with
  | case1 => rfl
  | case2 rest g r hgr ih => simpa [hgr] using ih
  | case3 c rest _ _ g r hgr ih => simpa [hgr] using ih
  | case4 c rest hne hc =>
    simpa [startsWithGap] using hc

end Gap

end GrammarExport.Syntax
