import GrammarExport.Proofs.Derivation.Shown
import GrammarExport.Proofs.Reading.Spelling

/-!
# Writing and reading

The trees of the grammar and the texts that can be read belong together. A tree whose leaves can be
told apart is read back from its tokens with blanks between them
(`Source.exists_read?_intercalate`), and whatever is read from a text is a tree of the grammar that
spells this text, a byte order mark at its start apart (`Source.conforms_and_spells_of_read?`).
-/

namespace GrammarExport.Syntax

/-! ### Tokens in a line -/

/-- Tokens with one blank between any two of them. -/
def spaced : List (List Char) → List Lexeme
  | [] => []
  | w :: ws => ⟨[], w⟩ :: ws.map fun v ↦ ⟨[.blank ' '], v⟩

theorem map_text_spaced (ws : List (List Char)) : (spaced ws).map Lexeme.text = ws := by
  cases ws with
  | nil => rfl
  | cons w ws => simp [spaced, Function.comp_def]

/-- Words that are spaced out are spelled with single spaces between them. -/
theorem spelling_spaced (ws : List (List Char)) : spelling (spaced ws) = [' '].intercalate ws := by
  cases ws with
  | nil => rfl
  | cons w ws =>
    have htail : ∀ w : List Char, w ++ spelling (ws.map fun v ↦ ⟨[.blank ' '], v⟩) =
        [' '].intercalate (w :: ws) := by
      induction ws with
      | nil => simp [spelling]
      | cons v ws ih =>
        intro w
        rw [List.intercalate_cons_cons, ← ih v]
        simp [spelling, Lexeme.spelling, Gap.text, Trivia.text]
    rw [← htail w]
    simp [spaced, spelling, Lexeme.spelling, Gap.text]

theorem closed_of_mem_head?_spaced {ws : List (List Char)} :
    ∀ t ∈ (spaced ws).head?, t.gap.Closed := by
  cases ws with
  | nil => simp [spaced]
  | cons w ws => simp [spaced, Gap.Closed]

/-- The single spaces keep the words apart. -/
theorem separates_of_mem_tail_spaced {ws : List (List Char)} :
    ∀ t ∈ (spaced ws).tail, t.gap.Separates := by
  cases ws with
  | nil => simp [spaced]
  | cons w ws =>
    intro t ht
    obtain ⟨v, -, rfl⟩ := List.mem_map.1 ht
    exact ⟨⟨' ', [], rfl⟩, by decide, trivial⟩

/-! ### What is skipped -/

/-- A piece of a gap is a blank, or a comment. -/
def Trivia.IsSkipped : Trivia → Prop
  | .blank c => isBlank c = true
  | .comment body => IsComment (Trivia.comment body).text

theorem Gap.StandsBefore.isSkipped {g : Gap} {s : List Char} (h : g.StandsBefore s) :
    ∀ piece ∈ g, piece.IsSkipped := by
  induction g with
  | nil => simp
  | cons piece g ih =>
    rw [List.forall_mem_cons]
    cases piece with
    | blank c => exact ⟨h.1, ih h.2⟩
    | comment body =>
      refine ⟨⟨body, fun c hc ↦ ?_, rfl⟩, ih h.2.2⟩
      rintro rfl
      exact absurd (h.1 '\n' hc) (by decide)

/-- The gaps of tokens that are found consist of blanks and comments. -/
theorem Spells.isSkipped {ts : List Lexeme} {s r : List Char} (h : Spells ts s r) :
    ∀ t ∈ ts, ∀ piece ∈ t.gap, piece.IsSkipped := by
  induction ts generalizing s with
  | nil => simp
  | cons t ts ih =>
    obtain ⟨m, hlead, hts⟩ := h
    rw [List.forall_mem_cons]
    exact ⟨(Gap.standsBefore_of_split hlead.split).isSkipped, ih hts⟩

namespace Source

variable {s : List Char} {src : Source}

/-! ### Differences -/

/-- The tokens of an assignment of a difference are found again, whatever closed gaps there are
between them. -/
theorem spells_difference {x a n : Lexeme} {equals minus semicolon : Gap} {r : List Char}
    (hx : IsWord x.text) (ha : IsWord a.text) (hn : IsDigits n.text)
    (hgaps : ∀ g ∈ [x.gap, equals, a.gap, minus, n.gap, semicolon], g.Closed) :
    Spells [x, ⟨equals, ['=']⟩, a, ⟨minus, ['-']⟩, n, ⟨semicolon, [';']⟩]
      (spelling [x, ⟨equals, ['=']⟩, a, ⟨minus, ['-']⟩, n, ⟨semicolon, [';']⟩] ++ r) r := by
  simp only [List.forall_mem_cons] at hgaps
  obtain ⟨hx', hequals, ha', hminus, hn', hsemicolon, -⟩ := hgaps
  obtain ⟨d, ds, hdigits, hd⟩ := hn.head
  have hrange := toNat_of_isDigit hd
  -- a number ends before anything, since no word and no comment starts with a digit
  have hslash : d ≠ '/' := by
    rintro rfl
    exact absurd hd (by decide)
  have hsolid : IsSolid n.text := by
    rw [hdigits]
    exact .of_toNat (by omega) hslash
  have hends : ∀ u, EndsBefore n.text u := by
    intro u
    rw [hdigits]
    exact .of_head (not_startsWord_of_number (.inl hd)) hslash
  rw [spells_cons_iff hx.isSolid, spells_cons_iff (.of_toNat (by decide) (by decide)),
    spells_cons_iff ha.isSolid, spells_cons_iff (.of_toNat (by decide) (by decide)),
    spells_cons_iff hsolid, spells_cons_iff (.of_toNat (by decide) (by decide))]
  refine ⟨⟨hx', ?_⟩, ⟨hequals, .of_head (by decide) (by decide)⟩, ⟨ha', ?_⟩,
    ⟨hminus, .of_head (by decide) (by decide)⟩, ⟨hn', hends _⟩,
    ⟨hsemicolon, .of_head (by decide) (by decide)⟩, rfl⟩
  · rw [spelling_cons_append]
    exact hx.endsBefore hequals (by decide)
  · rw [spelling_cons_append]
    exact ha.endsBefore hminus (by decide)

/-- A minus sign after a name is an operator, whatever gaps there are around it. -/
theorem read?_assignment_difference {x a n : Lexeme} {equals minus semicolon trailing : Gap}
    {b : Bool} (hx : x.FreeName statementWords) (ha : a.FreeName (literalWords ++ ["mat"]))
    (hn : IsDigits n.text)
    (hgaps : ∀ g ∈ [x.gap, equals, a.gap, minus, n.gap, semicolon], g.Closed)
    (htrailing : trailing.Closed) :
    read? ((if b then [mark] else []) ++ (spelling [x, ⟨equals, ['=']⟩, a, ⟨minus, ['-']⟩, n,
        ⟨semicolon, [';']⟩] ++ trailing.text)) =
      some ⟨b, [.assignment x equals none
        (.binary (.operand (.literal (.named a))) ⟨minus, ['-']⟩
          (.literal (.value (.integer n)))) semicolon], trailing⟩ := by
  rw [read?_eq_some_iff]
  refine ⟨_, trailing.text, rfl, ?_, htrailing.split_text, ?_⟩
  · simp only [tokens, List.flatMap_cons, List.flatMap_nil, Statement.tokens_assignment]
    exact spells_difference hx.1 ha.1 hn hgaps
  · refine List.forall_mem_singleton.2 ⟨hx, ?_, ⟨'-', by decide, rfl⟩, ?_⟩
    · exact .named ha
    · exact .value (.integer ⟨n.text, hn, .inl rfl⟩)

/-- The source that is written `x=a-1;`. -/
def difference : Source :=
  ⟨false, [.assignment ⟨[], ['x']⟩ [] none
    (.binary (.operand (.literal (.named ⟨[], ['a']⟩))) ⟨[], ['-']⟩
      (.literal (.value (.integer ⟨[], ['1']⟩)))) []], []⟩

theorem read?_difference : read? "x=a-1;".toList = some difference := by
  have hx : (⟨[], ['x']⟩ : Lexeme).FreeName statementWords := ⟨by decide, by decide⟩
  have ha : (⟨[], ['a']⟩ : Lexeme).FreeName (literalWords ++ ["mat"]) := ⟨by decide, by decide⟩
  have hn : IsDigits ['1'] := ⟨by decide, List.forall_mem_singleton.2 (by decide)⟩
  have hgaps : ∀ g ∈ ([[], [], [], [], [], []] : List Gap), g.Closed := by simp [Gap.Closed]
  have htrailing : Gap.Closed [] := trivial
  exact read?_assignment_difference (b := false) (n := ⟨[], ['1']⟩) hx ha hn hgaps htrailing

/-! ### From trees to texts and back -/

/-- The tokens of a well-formed tree are read back from every text that keeps them apart. -/
theorem exists_read?_of_separates {t : Tree} {b : Bool} {trailing : Gap} {ts : List Lexeme}
    (h : t.WellFormed .sourceFile []) (hroot : t.IsSource)
    (htexts : ts.map Lexeme.text = t.tokens.map Lexeme.text)
    (hfirst : ∀ u ∈ ts.head?, u.gap.Closed) (hgaps : ∀ u ∈ ts.tail, u.gap.Separates)
    (htrailing : trailing = [] ∨ trailing.Separates) :
    ∃ src, read? ((if b then [mark] else []) ++ (spelling ts ++ trailing.text)) = some src ∧
      src.tree.outline = t.outline ∧ src.tree.tokens = ts ∧ src.trailing = trailing := by
  have hsolid : ∀ u ∈ ts, IsSolid u.text := by
    obtain ⟨cs, rfl⟩ := hroot
    intro u hu
    have hmem : u.text ∈ ts.map Lexeme.text := List.mem_map_of_mem hu
    rw [htexts] at hmem
    obtain ⟨v, hv, heq⟩ := List.mem_map.1 hmem
    rw [← heq]
    exact h.conforms.isSolid (by simp [Tree.HeadIs]) v hv
  have hclosed : ∀ u ∈ ts, u.gap.Closed := by
    cases ts with
    | nil => simp
    | cons u us => exact List.forall_mem_cons.2 ⟨hfirst u rfl, fun v hv ↦ (hgaps v hv).2⟩
  have hend : trailing.Closed ∧ ∀ d ∈ trailing.text.head?, isBlank d = true := by
    rcases htrailing with rfl | hsep
    · exact ⟨trivial, by simp [Gap.text]⟩
    · have hblank := hsep.isBlank_head (s := [])
      rw [List.append_nil] at hblank
      exact ⟨hsep.2, hblank⟩
  exact exists_read?_of_map_text_eq h hroot htexts
    (spells_of_separates hsolid hclosed hgaps hend.2) hend.1.split_text

/-- Reading gives back what was written: the tokens of a source tree of the grammar, with one blank
between any two of them, are read as that tree, if operators group to the left in it, braces around
nothing are an array, no name is spelled like a word offered at its place, and no string holds the
null character. -/
theorem exists_read?_intercalate {t : Tree} (hroot : t.IsSource) (hconforms : t.Conforms)
    (hleft : t.GroupsLeft) (hrecords : t.FillsRecords)
    (hnames : ∀ l ∈ t.leaves .sourceFile [], l.IsName → ¬ l.IsOffered)
    (hstrings : ∀ l ∈ t.leaves .sourceFile [], l.kind = .stringValue → '\x00' ∉ l.text) :
    ∃ src, read? ([' '].intercalate (t.tokens.map Lexeme.text)) = some src ∧
      src.tree.outline = t.outline ∧
      src.tree.tokens.map Lexeme.text = t.tokens.map Lexeme.text ∧
      t.nodes = [src.root.bare] := by
  have hwell : t.WellFormed .sourceFile [] :=
    ⟨hconforms, hleft, hrecords, fun l hl ↦ ⟨hnames l hl, hstrings l hl⟩⟩
  have htexts := map_text_spaced (t.tokens.map Lexeme.text)
  obtain ⟨src, hread, houtline, htokens, -⟩ :=
    exists_read?_of_separates (b := false) hwell hroot htexts closed_of_mem_head?_spaced
      separates_of_mem_tail_spaced (.inl rfl)
  rw [spelling_spaced] at hread
  refine ⟨src, ?_, houtline, ?_, ?_⟩
  · simpa [Gap.text] using hread
  · rw [htokens, htexts]
  · rw [← bare_root hread, ← t.nodes_outline, ← houtline, Tree.nodes_outline]

theorem exists_read?_intercalate_difference :
    difference.tree.IsSource ∧ difference.tree.Conforms ∧ difference.tree.GroupsLeft ∧
      difference.tree.FillsRecords ∧
      (∀ l ∈ difference.leaves, l.IsName → ¬ l.IsOffered) ∧
      (∀ l ∈ difference.leaves, l.kind = .stringValue → '\x00' ∉ l.text) ∧
      ∃ src, read? "x = a - 1 ;".toList = some src ∧
        src.tree.outline = difference.tree.outline := by
  have hwell := wellFormed_of_read? read?_difference
  have hroot : difference.tree.IsSource := ⟨_, rfl⟩
  have hnames : ∀ l ∈ difference.leaves, l.IsName → ¬ l.IsOffered :=
    fun l hl ↦ (hwell.readable l hl).1
  have hstrings : ∀ l ∈ difference.leaves, l.kind = .stringValue → '\x00' ∉ l.text :=
    fun l hl ↦ (hwell.readable l hl).2
  obtain ⟨src, hread, houtline, -⟩ := exists_read?_intercalate hroot hwell.conforms
    hwell.groupsLeft hwell.fillsRecords hnames hstrings
  exact ⟨hroot, hwell.conforms, hwell.groupsLeft, hwell.fillsRecords, hnames, hstrings, src, hread,
    houtline⟩

/-! ### From texts to trees -/

/-- What is read is a tree of the grammar: the children of each node match the rule of its kind, no
right operand is itself an operation, and the tokens together with what is skipped before, between
and after them spell the text. The root shows the nodes of this tree and, apart from comments,
nothing else. -/
theorem conforms_and_spells_of_read? (h : read? s = some src) :
    (src.tree.IsSource ∧ src.tree.Conforms ∧ src.tree.GroupsLeft) ∧
      (s = src.opening ++ (spelling src.tree.tokens ++ src.trailing.text) ∧
        ∀ g ∈ src.tree.tokens.map Lexeme.gap ++ [src.trailing], ∀ piece ∈ g, piece.IsSkipped) ∧
      src.root.kind = .sourceFile ∧ src.tree.nodes = [src.root.bare] := by
  have hwell := wellFormed_of_read? h
  obtain ⟨hs, hspells, hsplit⟩ := spells_of_read? h
  refine ⟨⟨⟨_, rfl⟩, hwell.conforms, hwell.groupsLeft⟩, ⟨hs, ?_⟩, rfl, bare_root h⟩
  intro g hg
  rw [List.mem_append, List.mem_singleton] at hg
  rcases hg with hg | rfl
  · obtain ⟨t, ht, rfl⟩ := List.mem_map.1 hg
    exact hspells.isSkipped t ht
  · exact (Gap.standsBefore_of_split hsplit).isSkipped

theorem conforms_and_spells_of_read?_difference :
    read? "x=a-1;".toList = some difference ∧ difference.tree.Conforms ∧
      "x=a-1;".toList =
        difference.opening ++ (spelling difference.tree.tokens ++ difference.trailing.text) := by
  obtain ⟨⟨-, hconforms, -⟩, ⟨hspelling, -⟩, -⟩ := conforms_and_spells_of_read? read?_difference
  exact ⟨read?_difference, hconforms, hspelling⟩

/-- A byte order mark can be put before a text that has none. -/
theorem read?_mark_cons (h : read? s = some src) (hb : src.byteOrderMark = false) :
    read? (mark :: s) = some { src with byteOrderMark := true } := by
  obtain ⟨body, rest, hs, hspells, hsplit, hvalid⟩ := read?_eq_some_iff.1 h
  rw [opening, hb, if_neg (by decide), List.nil_append] at hs
  rw [hs]
  exact read?_eq_some_iff.2 ⟨body, rest, rfl, hspells, hsplit, hvalid⟩

/-- A byte order mark is none of the characters that are skipped before a token. -/
theorem mark_notMem_head? {g : Gap} {d : Char} {r : List Char}
    (hskipped : ∀ piece ∈ g, piece.IsSkipped) (hd : d ≠ mark) :
    mark ∉ (g.text ++ d :: r).head? := by
  cases g with
  | nil => simpa [Gap.text] using hd
  | cons piece g =>
    have hpiece : piece.IsSkipped := (List.forall_mem_cons.1 hskipped).1
    cases piece with
    | blank c =>
      have hc : c ≠ mark := by
        rintro rfl
        have hblank : isBlank mark = true := hpiece
        exact absurd hblank (by decide)
      simpa [Gap.text, Trivia.text] using hc
    | comment body => simp [Gap.text, Trivia.text, mark]

/-- The opening cannot be left out: a text that starts with a byte order mark is read, but whatever
blanks and comments are put around the tokens of its tree, they do not spell it. -/
theorem conforms_and_spells_of_read?_marked :
    read? (mark :: "x=a-1;".toList) = some { difference with byteOrderMark := true } ∧
      ∀ (ts : List Lexeme) (trailing : Gap),
        ts.map Lexeme.text = difference.tree.tokens.map Lexeme.text →
        (∀ g ∈ ts.map Lexeme.gap ++ [trailing], ∀ piece ∈ g, piece.IsSkipped) →
        mark :: "x=a-1;".toList ≠ spelling ts ++ trailing.text := by
  refine ⟨read?_mark_cons read?_difference rfl, ?_⟩
  intro ts trailing htexts hskipped hspelling
  cases ts with
  | nil => exact absurd htexts (by decide)
  | cons t ts =>
    have htext : t.text = ['x'] := (List.cons.inj htexts).1
    have hgap : ∀ piece ∈ t.gap, piece.IsSkipped := hskipped t.gap (by simp)
    rw [spelling_cons_append, htext, List.singleton_append] at hspelling
    have hhead := mark_notMem_head? (r := spelling ts ++ trailing.text) hgap
      (show 'x' ≠ mark by decide)
    rw [← hspelling] at hhead
    exact hhead rfl

end Source

end GrammarExport.Syntax
