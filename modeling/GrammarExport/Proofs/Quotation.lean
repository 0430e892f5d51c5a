import GrammarExport.Proofs.Composition
import GrammarExport.Proofs.Variation

/-!
# Strings carry any text

A text is put into a string by writing a backslash before each of its quotes and backslashes
(`quoted`). Only the null character cannot be carried. Whatever else the text holds, line breaks,
slashes, braces and semicolons included, the string ends at its closing quote, and in a source it
can stand in the place of any other string (`Source.read?_requote`).

## What the proof rests on

* Between the quotes every character of the text is either plain or the second one of a pair that
  starts with a backslash, and such a pair never takes the closing quote (`stringTail_escaped`).
* A string says itself where it ends, whatever follows (`Token.string_quoted_append`); and all
  strings start alike. So one can replace another among tokens (`IsString.replaces`), and the source
  is read as before (`Source.exists_read?_replace`).
-/

namespace GrammarExport.Syntax

variable {s s' t : List Char}

/-! ### Quoted texts -/

/-- A text as it is written between quotes: every quote and every backslash of it is preceded by a
backslash. -/
def escaped (t : List Char) : List Char :=
  t.flatMap fun c ↦ if c = '"' ∨ c = '\\' then ['\\', c] else [c]

/-- The string that carries a text. -/
def quoted (t : List Char) : List Char := '"' :: (escaped t ++ ['"'])

/-- A quote or a backslash gets a backslash before it. -/
theorem escaped_cons_of_special {c : Char} (h : c = '"' ∨ c = '\\') :
    escaped (c :: t) = '\\' :: c :: escaped t := by
  rw [escaped, List.flatMap_cons, if_pos h]
  rfl

theorem escaped_cons_of_plain {c : Char} (h : ¬ (c = '"' ∨ c = '\\')) :
    escaped (c :: t) = c :: escaped t := by
  rw [escaped, List.flatMap_cons, if_neg h]
  rfl

/-- The quote after an escaped text is the first one that ends the string. -/
theorem stringTail_escaped (t : List Char) : StringTail (escaped t ++ ['"']) := by
  induction t with
  | nil => exact .close
  | cons c t ih =>
    by_cases hc : c = '"' ∨ c = '\\'
    · rw [escaped_cons_of_special hc]
      refine .escape ?_ ih
      rintro rfl
      exact absurd hc (by decide)
    · rw [escaped_cons_of_plain hc]
      rw [not_or] at hc
      exact .plain hc.1 hc.2 ih

/-- A quoted text is a string. -/
theorem isString_quoted (t : List Char) : IsString (quoted t) :=
  isString_iff.2 ⟨_, rfl, stringTail_escaped t⟩

theorem null_not_mem_quoted (h : '\x00' ∉ t) : '\x00' ∉ quoted t := by
  have hescaped : '\x00' ∉ escaped t := by
    intro hmem
    obtain ⟨c, hc, hcs⟩ := List.mem_flatMap.1 hmem
    split at hcs
    · simp only [List.mem_cons, List.not_mem_nil, or_false] at hcs
      rcases hcs with hback | rfl
      · exact absurd hback (by decide)
      · exact h hc
    · obtain rfl := List.mem_singleton.1 hcs
      exact h hc
  simp [quoted, hescaped]

/-- A quoted text is read as one string, up to its closing quote, whatever follows. -/
theorem Token.string_quoted_append {g : Gap} (hg : g.Closed) (ht : '\x00' ∉ t)
    (rest : List Char) :
    Token.string (g.text ++ (quoted t ++ rest)) = some (⟨g, quoted t⟩, rest) := by
  have hstring := isString_quoted t
  refine string_eq_some_iff.2 ⟨?_, hstring, null_not_mem_quoted ht⟩
  have hleads := (Lexeme.leads_iff (t := ⟨g, quoted t⟩) hstring.isSolid).2
    ⟨hg, hstring.endsBefore rest⟩
  rwa [Lexeme.spelling, List.append_assoc] at hleads

namespace Source

variable {src src' : Source} {before after : List Leaf} {leaf : Leaf}

/-! ### Strings in sources -/

/-- What stands before and after the tokens of a source can be told from them and from the text. -/
theorem ends_eq_of_read? (h : read? s = some src) (h' : read? s' = some src')
    (hhead : s'.head? = s.head?)
    (hs' : s' = src.opening ++ (spelling src'.tree.tokens ++ src.trailing.text)) :
    src'.byteOrderMark = src.byteOrderMark ∧ src'.trailing = src.trailing := by
  have hmark : src'.byteOrderMark = src.byteOrderMark := by
    rw [Bool.eq_iff_iff, byteOrderMark_iff h, byteOrderMark_iff h', hhead]
  obtain ⟨-, -, hsplit⟩ := spells_of_read? h
  obtain ⟨hspelling, -, hsplit'⟩ := spells_of_read? h'
  have hopening : src'.opening = src.opening := by rw [opening, opening, hmark]
  rw [hs', hopening] at hspelling
  have htrailing := List.append_cancel_left (List.append_cancel_left hspelling)
  rw [← htrailing, hsplit] at hsplit'
  exact ⟨hmark, (congrArg Prod.fst hsplit').symm⟩

/-- **A string can be replaced by one that carries any text.** Whatever a text holds apart from the
null character, a string with this text can be written in the place of any string of a source. The
source is then read as before: with the same tree, of which only this leaf has changed, and with the
same gaps and comments. The string is read up to its closing quote, whatever follows it. -/
theorem read?_requote (h : read? s = some src) (hleaves : src.leaves = before ++ leaf :: after)
    (hkind : leaf.kind = .stringValue) (ht : '\x00' ∉ t) :
    s = src.upTo before leaf ++ (leaf.text ++ src.onFrom after) ∧
    (∃ src', read? (src.upTo before leaf ++ (quoted t ++ src.onFrom after)) = some src' ∧
      src'.tree.outline = src.tree.outline ∧
      src'.leaves = before ++ { leaf with text := quoted t } :: after ∧
      src'.byteOrderMark = src.byteOrderMark ∧ src'.trailing = src.trailing ∧
      src'.root.bare = src.root.bare) ∧
    ∀ (g : Gap) (rest : List Char), g.Closed →
      Token.string (g.text ++ (quoted t ++ rest)) = some (⟨g, quoted t⟩, rest) := by
  have hrule : leaf.kind.rule = .pattern IsString := by rw [hkind]; rfl
  have hold : IsString leaf.text := by
    have hmem : leaf ∈ src.leaves := by simp [hleaves]
    exact (wellFormed_of_read? h).conforms.of_mem_leaves hmem hrule
  have htext : s = src.upTo before leaf ++ (leaf.text ++ src.onFrom after) := by
    rw [← spelling_append_leaf, ← hleaves, map_toLexeme_leaves]
    exact (spells_of_read? h).1
  have hreadable : ({ leaf with text := quoted t } : Leaf).Readable := by
    refine ⟨fun hname ↦ ?_, fun _ ↦ null_not_mem_quoted ht⟩
    rcases hname with hname | hname <;> exact absurd (hname.symm.trans hkind) (by decide)
  refine ⟨htext, ?_, fun g rest hg ↦ Token.string_quoted_append hg ht rest⟩
  obtain ⟨src', hread, houtline, hleaves'⟩ := exists_read?_replace h hleaves hrule
    (isString_quoted t) ((isString_quoted t).replaces hold) hreadable
  have hhead : (src.upTo before leaf ++ (quoted t ++ src.onFrom after)).head? = s.head? := by
    obtain ⟨u, hu⟩ := hold.head
    simp [htext, hu, quoted]
  have hspelling := spelling_append_leaf src before after { leaf with text := quoted t }
  rw [← hleaves', map_toLexeme_leaves] at hspelling
  obtain ⟨hmark, htrailing⟩ := ends_eq_of_read? h hread hhead hspelling.symm
  exact ⟨src', hread, houtline, hleaves', hmark, htrailing, bare_root_eq h hread houtline⟩

/-- The source that is written `fn f()` and then `"a"` in braces. -/
def noted : Source :=
  ⟨false, [.function [] ⟨[.blank ' '], ['f']⟩ [] .nil [] none
    (some ⟨[], ⟨[], "\"a\"".toList⟩, [], []⟩)], []⟩

theorem read?_noted : read? "fn f()\x7b\"a\"\x7d".toList = some noted := by
  with_unfolding_all rfl

/-- A text that ends with a backslash and looks like the end of the function and a comment. -/
theorem read?_requote_noted :
    ∃ src, read? "fn f()\x7b\"\\\"\x7d;//\n\\\\\"\x7d".toList = some src ∧
      src.tree.outline = noted.tree.outline ∧
      (src.leaves.map fun l ↦ String.ofList l.text)[5]? = some "\"\\\"\x7d;//\n\\\\\"" := by
  have hleaves : noted.leaves = noted.leaves.take 5 ++
      ⟨⟨[], "\"a\"".toList⟩, .stringValue, []⟩ :: noted.leaves.drop 6 := rfl
  obtain ⟨-, ⟨src, hread, houtline, hleaves', -⟩, -⟩ :=
    read?_requote (t := "\"\x7d;//\n\\".toList) read?_noted hleaves rfl (by decide)
  refine ⟨src, hread, houtline, ?_⟩
  rw [hleaves']
  rfl

end Source

end GrammarExport.Syntax
