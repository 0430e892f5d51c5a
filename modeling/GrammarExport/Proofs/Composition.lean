import GrammarExport.Proofs.RoundTrip

/-!
# Sources one after the other

Two texts that can be read are read together if a line break is put between them: the statements are
those of the first and then those of the second, with the same tokens
(`Source.read?_append_newline`). The one exception is a byte order mark at the start of the second
text. It is skipped at the start of a text only, so that it is in the way after the line break.

## What the proof rests on

* The line break ends whatever the first text leaves open: the last token, and a comment on the last
  line (`EndsBefore.append_newline`, `Gap.StandsBefore.closed_newline`). So the tokens of the first
  text are found again, and the gap at its end becomes a part of the gap before the second
  (`Gap.Closed.split_append`).
* Every statement starts with a word. So the second text does not prolong a function declaration at
  the end of the first, whichever of its parts is missing there, and neither does a byte order mark
  (`Statement.StopsBefore`).
-/

namespace GrammarExport.Syntax

variable {s t m n r u w : List Char} {ts : List Lexeme}

/-! ### Trees without gaps -/

namespace Tree

mutual

/-- A tree without the gaps before its tokens, and so without comments and places. -/
def dense : Tree → Tree
  | token _ text => token [] text
  | node kind role children => node kind role (denseOfAll children)

/-- Trees without the gaps before their tokens. -/
def denseOfAll : List Tree → List Tree
  | [] => []
  | t :: ts => t.dense :: denseOfAll ts

end

theorem denseOfAll_eq_map (ts : List Tree) : denseOfAll ts = ts.map dense := by
  induction ts with
  | nil => rfl
  | cons t ts ih => rw [denseOfAll, ih, List.map_cons]

theorem length_tokens_eq {t t' : Tree} (h : t'.outline = t.outline) :
    t'.tokens.length = t.tokens.length := by
  have hleaves := length_leaves_eq .sourceFile [] h
  rwa [← List.length_map Leaf.toLexeme, ← List.length_map Leaf.toLexeme, map_toLexeme_leaves,
    map_toLexeme_leaves] at hleaves

mutual

/-- A tree without gaps is its outline and the texts of its tokens. -/
theorem dense_eq : ∀ t t' : Tree, t'.outline = t.outline →
    t'.tokens.map Lexeme.text = t.tokens.map Lexeme.text → t'.dense = t.dense
  | token .., token .., _, htexts => by simpa [dense, tokens] using htexts
  | token .., node .., h, _ => by simp [outline] at h
  | node .., token .., h, _ => by simp [outline] at h
  | node k r cs, node k' r' cs', h, htexts => by
    obtain ⟨rfl, rfl, hcs⟩ := node.inj (by simpa only [outline] using h)
    rw [dense, dense, denseOfAll_eq cs cs' hcs htexts]

/-- Trees with the same outlines and the same texts are the same but for their gaps. -/
theorem denseOfAll_eq : ∀ ts ts' : List Tree, outlineOfAll ts' = outlineOfAll ts →
    (tokensOfAll ts').map Lexeme.text = (tokensOfAll ts).map Lexeme.text →
    denseOfAll ts' = denseOfAll ts
  | [], [], _, _ => rfl
  | [], _ :: _, h, _ => by simp [outlineOfAll] at h
  | _ :: _, [], h, _ => by simp [outlineOfAll] at h
  | t :: ts, t' :: ts', h, htexts => by
    obtain ⟨ht, hts⟩ := List.cons.inj (by simpa only [outlineOfAll] using h)
    rw [tokensOfAll, tokensOfAll, List.map_append, List.map_append] at htexts
    -- the outline tells where the tokens of the first tree end
    obtain ⟨hhead, htail⟩ := List.append_inj htexts (by simp [length_tokens_eq ht])
    rw [denseOfAll, denseOfAll, dense_eq t t' ht hhead, denseOfAll_eq ts ts' hts htail]

end

theorem nodesOfAll_append (ts us : List Tree) :
    nodesOfAll (ts ++ us) = nodesOfAll ts ++ nodesOfAll us := by
  induction ts with
  | nil => rfl
  | cons t ts ih => rw [List.cons_append, nodesOfAll, nodesOfAll, ih, List.append_assoc]

end Tree

/-! ### A line break after a text -/

namespace Gap

variable {g h : Gap}

/-- The text of two gaps in a row is their texts in a row. -/
theorem text_append (g h : Gap) : text (g ++ h) = text g ++ text h := List.flatMap_append

/-- A closed gap before a gap belongs to it. -/
theorem Closed.append_standsBefore (hg : g.Closed) (hh : h.StandsBefore s) :
    (g ++ h).StandsBefore s := by
  induction g with
  | nil => exact hh
  | cons piece g ih =>
    cases piece with
    | blank c => exact ⟨hg.1, ih hg.2⟩
    | comment body =>
      obtain ⟨hbody, ⟨g', rfl⟩, hclosed⟩ := hg
      refine ⟨hbody, fun c hc ↦ ?_, ih hclosed⟩
      have hnewline : c = '\n' := by simpa [text, Trivia.text] using hc.symm
      rw [hnewline]
      decide

/-- A closed gap before a text is the first part of the gap there. -/
theorem Closed.split_append (hg : g.Closed) (s : List Char) :
    split (g.text ++ s) = (g ++ (split s).1, (split s).2) := by
  have htext : g.text ++ s = text (g ++ (split s).1) ++ (split s).2 := by
    rw [text_append, List.append_assoc, text_split]
  rw [htext, split_text_append_iff]
  exact hg.append_standsBefore (standsBefore_of_split rfl)

/-- A line break closes the gap at the end of a text. -/
theorem StandsBefore.closed_newline (h : g.StandsBefore []) : Closed (g ++ [.blank '\n']) := by
  induction g with
  | nil => exact ⟨by decide, trivial⟩
  | cons piece g ih =>
    cases piece with
    | blank c => exact ⟨h.1, ih h.2⟩
    | comment body =>
      obtain ⟨hbody, hnext, hg⟩ := h
      refine ⟨hbody, ?_, ih hg⟩
      -- the comment is the last piece, or a line break follows it already
      rcases g with - | ⟨b | body', g⟩
      · exact ⟨[], rfl⟩
      · rw [eq_newline_of_isBlank hg.1 (hnext b rfl)]
        exact ⟨g ++ [.blank '\n'], rfl⟩
      · exact absurd (hnext '/' rfl) (by decide)

end Gap

/-- A token that ends before a text ends before it if a line break is added. -/
theorem EndsBefore.append_newline (h : EndsBefore w n) : EndsBefore w (n ++ '\n' :: u) := by
  cases n with
  | nil =>
    refine .of_isBlank fun d hd ↦ ?_
    obtain rfl : '\n' = d := by simpa using hd
    decide
  | cons => exact ⟨h.word, h.slash⟩

/-- Tokens are found again if a line break is added to what follows them. -/
theorem Spells.append_newline (h : Spells ts (spelling ts ++ m) m)
    (hsolid : ∀ t ∈ ts, IsSolid t.text) :
    Spells ts (spelling ts ++ (m ++ '\n' :: u)) (m ++ '\n' :: u) := by
  induction ts with
  | nil => rfl
  | cons t ts ih =>
    rw [List.forall_mem_cons] at hsolid
    obtain ⟨⟨hgap, hends⟩, hts⟩ := (spells_cons_iff hsolid.1).1 h
    rw [spells_cons_iff hsolid.1, ← List.append_assoc]
    refine ⟨⟨hgap, hends.append_newline⟩, ?_⟩
    rw [List.append_assoc]
    exact ih hts hsolid.2

/-- A gap before a text becomes part of the gap before its first token, or of its last gap. -/
theorem Spells.exists_after_gap {g trailing : Gap} (hg : g.Closed) (h : Spells ts s r)
    (hr : Gap.split r = (trailing, [])) :
    ∃ us r' trailing', us.map Lexeme.text = ts.map Lexeme.text ∧ Spells us (g.text ++ s) r' ∧
      Gap.split r' = (trailing', []) := by
  cases ts with
  | nil =>
    obtain rfl : s = r := h
    refine ⟨[], g.text ++ s, g ++ trailing, rfl, rfl, ?_⟩
    rw [hg.split_append, hr]
  | cons t ts =>
    obtain ⟨m, hlead, hts⟩ := h
    refine ⟨⟨g ++ t.gap, t.text⟩ :: ts, r, trailing, rfl, ⟨m, ⟨?_, hlead.ends⟩, hts⟩, hr⟩
    rw [hg.split_append, hlead.split]

namespace Source

variable {src src' : Source}

/-- A source has a byte order mark exactly if its text starts with one. -/
theorem byteOrderMark_iff (h : read? s = some src) : src.byteOrderMark = true ↔ mark ∈ s.head? := by
  obtain ⟨b, u, rfl, hb⟩ := exists_eq_append s
  rw [read?_append hb] at h
  obtain ⟨⟨statements, rest⟩, -, h⟩ := Option.bind_eq_some_iff.1 h
  have hsrc : src.byteOrderMark = b := by
    split at h
    · rw [← Option.some.inj h]
    · simp at h
  rw [hsrc]
  cases b with
  | true => simp
  | false => simpa using hb rfl

/-- The statements of a source are what is shown below its root, comments aside. -/
theorem bareOfAll_children (h : read? s = some src) :
    Placed.bareOfAll src.children = Tree.nodesOfAll (src.statements.map Statement.tree) := by
  have hbare := bare_root h
  rw [tree, Tree.nodes, List.singleton_inj] at hbare
  exact (Tree.node.inj hbare).2.2.symm

/-- The text of a source with a line break and something else after it: the tokens of the source are
found again, and then the closed gap that its last gap has become. -/
theorem spells_append_newline (h : read? s = some src) (u : List Char) :
    ∃ body g, s ++ '\n' :: u = src.opening ++ body ∧ Spells src.tokens body (Gap.text g ++ u) ∧
      g.Closed ∧ (src.byteOrderMark = false → mark ∉ body.head?) := by
  have hsolid := (wellFormed_of_read? h).conforms.isSolid (by simp [tree, Tree.HeadIs])
  have hmark := byteOrderMark_iff h
  obtain ⟨hs, hspells, hsplit⟩ := spells_of_read? h
  have htext : Gap.text (src.trailing ++ [.blank '\n']) ++ u = src.trailing.text ++ '\n' :: u := by
    simp [Gap.text, Trivia.text]
  refine ⟨spelling src.tree.tokens ++ (src.trailing.text ++ '\n' :: u),
    src.trailing ++ [.blank '\n'], ?_, ?_, (Gap.standsBefore_of_split hsplit).closed_newline, ?_⟩
  · rw [hs]
    simp only [List.append_assoc]
  · rw [htext, ← tokens_tree]
    exact hspells.append_newline hsolid
  · intro hb
    -- the body starts as the text does, or with the line break
    rw [opening, hb, if_neg (by decide), List.nil_append] at hs
    rw [hb, hs] at hmark
    rw [← List.append_assoc]
    cases hbody : spelling src.tree.tokens ++ src.trailing.text with
    | nil => simp [mark]
    | cons c body =>
      rw [hbody] at hmark
      exact fun hmem ↦ absurd (hmark.2 hmem) (by decide)

/-! ### Composition -/

/-- The statements of one source and then those of another. -/
def append (src src' : Source) : Source :=
  ⟨src.byteOrderMark, src.statements ++ src'.statements, src'.trailing⟩

theorem tokens_append (src src' : Source) : (src.append src').tokens = src.tokens ++ src'.tokens :=
  List.flatMap_append

/-- Two texts that are read are read one after the other, with the tokens of both. -/
theorem exists_read?_append_newline (hs : read? s = some src) (ht : read? t = some src')
    (hmark : mark ∉ t.head?) :
    ∃ both, read? (s ++ '\n' :: t) = some both ∧
      both.tree.outline = (src.append src').tree.outline ∧
      both.tree.tokens.map Lexeme.text = (src.append src').tree.tokens.map Lexeme.text := by
  obtain ⟨body, g, hbody, hspells, hg, -⟩ := spells_append_newline hs t
  obtain ⟨-, -, -, -, -, hvalid⟩ := read?_eq_some_iff.1 hs
  obtain ⟨body', rest', hbody', hspells', hsplit', hvalid'⟩ := read?_eq_some_iff.1 ht
  have hopening : src'.opening = [] := by
    rw [opening, if_neg]
    exact fun hb ↦ hmark ((byteOrderMark_iff ht).1 hb)
  rw [hopening, List.nil_append] at hbody'
  rw [← hbody'] at hspells'
  obtain ⟨us, rest, trailing, htexts, hus, hsplit⟩ := hspells'.exists_after_gap hg hsplit'
  have hboth : (src.append src').Valid := List.forall_mem_append.2 ⟨hvalid, hvalid'⟩
  have htokens : (src.tokens ++ us).map Lexeme.text =
      (src.append src').tree.tokens.map Lexeme.text := by
    rw [tokens_tree, tokens_append, List.map_append, List.map_append, htexts]
  obtain ⟨both, hread, houtline, heq, -⟩ := exists_read?_of_map_text_eq (b := src.byteOrderMark)
    hboth.wellFormed ⟨_, rfl⟩ htokens (spells_append_iff.2 ⟨_, hspells, hus⟩) hsplit
  refine ⟨both, ?_, houtline, ?_⟩
  · rw [hbody]
    exact hread
  · rw [heq, htokens]

/-- After a line break, a byte order mark is in the way. -/
theorem read?_newline_mark (h : read? s = some src) (u : List Char) :
    read? (s ++ '\n' :: mark :: u) = none := by
  obtain ⟨body, g, hbody, hspells, hg, hmark⟩ := spells_append_newline h (mark :: u)
  obtain ⟨-, -, -, -, -, hvalid⟩ := read?_eq_some_iff.1 h
  have hsplit : Gap.split (g.text ++ mark :: u) = (g, mark :: u) := by
    refine Gap.split_text_append_iff.2 (hg.standsBefore ?_)
    exact startsWithGap_cons_iff.2 ⟨by decide, fun hslash ↦ absurd hslash (by decide)⟩
  have hnext : next? (g.text ++ mark :: u) = some mark := by rw [next?, hsplit, List.head?_cons]
  have hstop : Statement.StopsBefore (g.text ++ mark :: u) := by
    intro c hc
    rw [hnext]
    intro heq
    obtain rfl := Option.some.inj heq
    exact absurd hc (by decide)
  have hend : ∀ c ∈ next? (g.text ++ mark :: u), startsWord c = false := by
    rw [hnext]
    intro c hc
    obtain rfl : mark = c := Option.some.inj hc
    decide
  -- all statements are read, and then neither another one nor the end of the text follows
  rw [hbody, opening, read?_append hmark, Statement.many_read_eq hvalid hspells hstop hend,
    Option.bind_some, hsplit]

/-- **Sources compose.** Two texts that can be read can be read with a line break between them,
unless the second starts with a byte order mark. The statements are those of the first text and then
those of the second, token by token, and so are the nodes that are shown of them, apart from places
and comments. -/
theorem read?_append_newline (hs : read? s = some src) (ht : read? t = some src') :
    (mark ∉ t.head? → ∃ both, read? (s ++ '\n' :: t) = some both ∧
      both.statements.map (fun x ↦ x.tree.dense) =
        src.statements.map (fun x ↦ x.tree.dense) ++ src'.statements.map (fun x ↦ x.tree.dense) ∧
      Placed.bareOfAll both.children =
        Placed.bareOfAll src.children ++ Placed.bareOfAll src'.children) ∧
    (mark ∈ t.head? → read? (s ++ '\n' :: t) = none) := by
  constructor
  · intro hmark
    obtain ⟨both, hread, houtline, htexts⟩ := exists_read?_append_newline hs ht hmark
    refine ⟨both, hread, ?_, ?_⟩
    · have hdense := Tree.dense_eq _ _ houtline htexts
      simp only [tree, Tree.dense, Tree.denseOfAll_eq_map, Tree.node.injEq, true_and,
        List.map_map] at hdense
      simpa [append, Function.comp_def] using hdense
    · have hnodes := congrArg Tree.nodes houtline
      rw [Tree.nodes_outline, Tree.nodes_outline, tree, tree, Tree.nodes, Tree.nodes,
        List.singleton_inj] at hnodes
      rw [bareOfAll_children hread, bareOfAll_children hs, bareOfAll_children ht,
        ← Tree.nodesOfAll_append, ← List.map_append]
      exact (Tree.node.inj hnodes).2.2
  · intro hmark
    obtain ⟨u, rfl⟩ := List.head?_eq_some_iff.1 hmark
    exact read?_newline_mark hs u

theorem read?_append_newline_difference :
    read? "x=a-1;".toList = some difference ∧ mark ∉ "x=a-1;".toList.head? ∧
      ∃ both, read? "x=a-1;\nx=a-1;".toList = some both ∧
        both.statements.map (fun x ↦ x.tree.dense) =
          (difference.statements ++ difference.statements).map fun x ↦ x.tree.dense := by
  have hmark : mark ∉ "x=a-1;".toList.head? := by decide
  obtain ⟨both, hread, hdense, -⟩ :=
    (read?_append_newline read?_difference read?_difference).1 hmark
  exact ⟨read?_difference, hmark, both, hread, hdense⟩

/-- Two texts that can be read, of which the second starts with a byte order mark, and which cannot
be read with a line break between them. -/
theorem read?_append_newline_marked :
    read? "x=a-1;".toList = some difference ∧
      read? (mark :: "x=a-1;".toList) = some { difference with byteOrderMark := true } ∧
      read? ("x=a-1;".toList ++ '\n' :: mark :: "x=a-1;".toList) = none := by
  exact ⟨read?_difference, read?_mark_cons read?_difference rfl,
    read?_newline_mark read?_difference _⟩

end Source

end GrammarExport.Syntax
