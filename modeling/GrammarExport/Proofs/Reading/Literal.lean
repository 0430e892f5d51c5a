import GrammarExport.Proofs.Reading.Value

/-!
# Reading literals

A literal that is read is valid and stands in the text (`Literal.sound_read`), and a valid literal
is read back (`Literal.Valid.read_eq`). What begins with a name is a call, an item of an
enumeration or the name alone, and the mark after the name decides which.
-/

namespace GrammarExport.Syntax

namespace Literal

variable {s m r : List Char} {c : Char}

/-! ### Calls -/

/-- What the reader of calls reads is the tokens of one, if the same holds of its arguments. -/
theorem sound_readCall {argument : Reader Literal} (hin : Sound argument tokens (Valid [])) :
    Sound (readCall argument) (fun x ↦ callTokens x.1 x.2.1 x.2.2.1 x.2.2.2)
      fun x ↦ x.1.FreeName [] ∧ (∀ l ∈ x.2.2.1.toList, l.Valid []) ∧ x.2.2.1.Ends false true := by
  rintro s ⟨name, opening, arguments, closing⟩ r h
  simp only [readCall, Reader.bind_eq_some_iff, Reader.pure_eq_some_iff, name_eq_some_iff] at h
  obtain ⟨_, m₁, ⟨h₁, hname⟩, _, m₂, h₂, _, m₃, h₃, _, m₄, h₄, heq, rfl⟩ := h
  obtain ⟨rfl, rfl, rfl, rfl⟩ : _ = name ∧ _ = opening ∧ _ = arguments ∧ _ = closing := by
    simpa using heq
  obtain ⟨hspells, harguments, hends⟩ := hin.commaList h₃
  exact ⟨⟨m₁, h₁, m₂, leads_of_mark h₂ rfl, spells_append_iff.2
    ⟨m₃, hspells, m₄, leads_of_mark h₄ rfl, rfl⟩⟩, hname, harguments, hends⟩

/-- The characters that a literal can start with. -/
def Starts : Literal → Char → Prop
  | value v, c => v.Starts c
  | call .., c | globalCall .., c | named _, c => startsWord c = true
  | moduleVariable .., c => c = '@'

theorem Valid.exists_next {lead : List String} {l : Literal} (hl : l.Valid lead)
    (h : Spells l.tokens s r) : ∃ c, next? s = some c ∧ l.Starts c := by
  cases hl with
  | value hv =>
    rw [tokens_value] at h
    exact hv.exists_next h
  | call hname =>
    rw [tokens_call] at h
    obtain ⟨m, hlead, -⟩ := h
    obtain ⟨c, u, htext, hc⟩ := hname.1.head
    exact ⟨c, hlead.next?_eq htext, hc⟩
  | globalCall =>
    rw [tokens_globalCall] at h
    obtain ⟨m, hlead, -⟩ := h
    exact ⟨'g', hlead.next?_eq rfl, (by decide : startsWord 'g' = true)⟩
  | moduleVariable =>
    rw [tokens_moduleVariable] at h
    obtain ⟨m, hlead, -⟩ := h
    exact ⟨'@', hlead.next?_eq rfl, rfl⟩
  | named ht =>
    obtain ⟨c, u, htext, hc⟩ := ht.1.head
    exact ⟨c, (spells_singleton_iff.1 (by simpa using h)).next?_eq htext, hc⟩

/-- A literal is valid where more words are taken, if none of them is read there. -/
theorem Valid.of_oneOf_eq_none {words : List String} {l : Literal} (hl : l.Valid [])
    (h : Spells l.tokens s r) (hnone : Token.oneOf words s = none) : l.Valid words := by
  have hsub : literalWords ++ words ⊆ words ++ (literalWords ++ []) := by
    simp
  cases hl with
  | value hv =>
    rw [tokens_value] at h
    exact .value (hv.of_oneOf_eq_none h hnone hsub)
  | call hname harguments hends =>
    rw [tokens_call] at h
    obtain ⟨m, hlead, -⟩ := h
    exact .call (hname.of_oneOf_eq_none hlead hnone hsub) harguments hends
  | globalCall hname harguments hends => exact .globalCall hname harguments hends
  | moduleVariable howner hname => exact .moduleVariable howner hname
  | named ht =>
    have hlead := spells_singleton_iff.1 (by simpa using h)
    exact .named (ht.of_oneOf_eq_none hlead hnone hsub)

/-- A literal does not start with a word that is taken. -/
theorem Valid.oneOf_eq_none {words : List String} {l : Literal} (hl : l.Valid words)
    (h : Spells l.tokens s r) (hdisjoint : ∀ w ∈ words, w ∉ literalWords) :
    Token.oneOf words s = none := by
  have hsub : words ⊆ literalWords ++ words := List.subset_append_right _ _
  cases hl with
  | value hv =>
    rw [tokens_value] at h
    exact hv.oneOf_eq_none h hsub fun w hw hb ↦ hdisjoint w hw (List.mem_cons_of_mem _ hb)
  | call hname =>
    rw [tokens_call] at h
    obtain ⟨m, hlead, -⟩ := h
    exact oneOf_eq_none_of_freeName hlead (hname.mono hsub)
  | globalCall =>
    rw [tokens_globalCall] at h
    obtain ⟨m, hlead, -⟩ := h
    -- `global` is a word for literals, so it is none of those taken
    refine oneOf_eq_none_of_freeName hlead ⟨(by decide : IsWord "global".toList), ?_⟩
    intro w hw hglobal
    rw [String.toList_inj.1 hglobal] at hw
    exact hdisjoint "global" hw (by simp [literalWords])
  | moduleVariable =>
    rw [tokens_moduleVariable] at h
    obtain ⟨m, hlead, -⟩ := h
    exact wordWhere_eq_none (by simpa [hlead.next?_eq rfl] using (by decide))
  | named ht =>
    exact oneOf_eq_none_of_freeName (spells_singleton_iff.1 (by simpa using h)) (ht.mono hsub)

/-- No literal starts with a parenthesis. -/
theorem Starts.ne_parenthesis {l : Literal} (h : l.Starts c) : c ≠ '(' ∧ c ≠ ')' := by
  constructor <;> rintro rfl
  all_goals
    cases l with
    | value v => cases v <;> exact absurd h (by simp only [Starts, Value.Starts]; decide)
    | _ => exact absurd h (by simp only [Starts]; decide)

/-- A call is read back, if its arguments are. -/
theorem readCall_eq_some {argument : Reader Literal} {name : Lexeme} {opening closing : Gap}
    {arguments : CommaList Literal} (hname : name.FreeName [])
    (harguments : ∀ l ∈ arguments.toList, l.Valid []) (hends : arguments.Ends false true)
    (hread : ∀ l ∈ arguments.toList, ∀ {u w}, u.length < s.length → r.length < w.length →
      Spells l.tokens u w → Follows valueEnds w → argument u = some (l, w))
    (h : Spells (callTokens name opening arguments closing) s r) :
    readCall argument s = some ((name, opening, arguments, closing), r) := by
  obtain ⟨m₁, h₁, m₂, h₂, h⟩ := h
  obtain ⟨m₃, h₃, m₄, h₄, rfl⟩ := spells_append_iff.1 h
  have hlt₁ := (spells_singleton_iff.2 h₁).length_le
  have hlt₂ := h₂.length_lt (by simp)
  have hlt₄ := h₄.length_lt (by simp)
  have hlist : CommaList.read [')'] false argument true m₂ = some (arguments, m₃) := by
    refine commaList_read_eq_some (by decide) ?_ ?_ hends (h₄.next?_eq rfl) h₃
    · intro l hl u w hu hw hspell hfollow
      refine hread l hl (by omega) (by omega) hspell ?_
      rcases hfollow with hfollow | hfollow
      · exact ⟨',', by decide, hfollow⟩
      · exact ⟨')', by decide, hfollow⟩
    · intro l hl u w hspell
      obtain ⟨c, hc, hstarts⟩ := (harguments l hl).exists_next hspell
      rw [hc]
      simpa using hstarts.ne_parenthesis.2
  simp only [readCall, Reader.bind_eq_some_iff, Reader.pure_eq_some_iff, name_eq_some_iff]
  exact ⟨name, m₁, ⟨h₁, hname⟩, opening, m₂, h₂.mark_eq rfl, arguments, m₃,
    hlist, closing, m₄, h₄.mark_eq rfl, rfl, rfl⟩

/-! ### Variables of modules -/

theorem readModuleVariable_eq_some_iff {l : Literal} :
    readModuleVariable s = some (l, r) ↔
      ∃ sign owner dot name, l = .moduleVariable sign owner dot name ∧ owner.FreeName [] ∧
        name.FreeName [] ∧ Spells (moduleVariable sign owner dot name).tokens s r := by
  simp only [readModuleVariable, Reader.bind_eq_some_iff, Reader.pure_eq_some_iff,
    name_eq_some_iff, tokens_moduleVariable]
  constructor
  · rintro ⟨sign, m₁, h₁, owner, m₂, ⟨h₂, howner⟩, dot, m₃, h₃, name, m₄, ⟨h₄, hname⟩, rfl, rfl⟩
    exact ⟨sign, owner, dot, name, rfl, howner, hname, m₁, leads_of_mark h₁ rfl, m₂,
      h₂, m₃, leads_of_mark h₃ rfl, m₄, h₄, rfl⟩
  · rintro ⟨sign, owner, dot, name, rfl, howner, hname, m₁, h₁, m₂, h₂, m₃, h₃, m₄, h₄, rfl⟩
    exact ⟨sign, m₁, h₁.mark_eq rfl, owner, m₂, ⟨h₂, howner⟩, dot, m₃,
      h₃.mark_eq rfl, name, m₄, ⟨h₄, hname⟩, rfl, rfl⟩

/-! ### What begins with a word -/

/-- Behind a name, a parenthesis makes it a call and a point an item of an enumeration. -/
theorem readNamed_eq (argument : Reader Literal) {t : Lexeme} (h : t.Leads s m)
    (ht : t.FreeName literalWords) :
    readNamed argument s =
      if Token.nextIs ['('] m then
        (do
          let (name, opening, arguments, closing) ← readCall argument
          return .call name opening arguments closing : Reader Literal) s
      else if Token.nextIs ['.'] m then (Literal.value <$> Value.readEnumItem) s
      else some (.named t, m) := by
  rw [readNamed, name_eq_some_iff.2 ⟨h, ht⟩]

/-- What is read at a name is the tokens of a literal, if the same holds of arguments. -/
theorem sound_readNamed {argument : Reader Literal} (hin : Sound argument tokens (Valid [])) :
    Sound (readNamed argument) tokens (Valid []) := by
  intro s l r h
  rcases ht : Token.name literalWords s with - | ⟨t, m⟩
  · simp [readNamed, ht] at h
  · obtain ⟨hlead, hfree⟩ := name_eq_some_iff.1 ht
    rw [readNamed_eq argument hlead hfree] at h
    split at h
    · obtain ⟨⟨name, opening, arguments, closing⟩, m', hcall, heq⟩ := Reader.bind_eq_some_iff.1 h
      obtain ⟨rfl, rfl⟩ := Reader.pure_eq_some_iff.1 heq
      obtain ⟨hspell, hname, harguments, hends⟩ := sound_readCall hin hcall
      rw [tokens_call]
      -- the name of the call is the name that was looked at
      obtain ⟨m'', hname', -⟩ := id hspell
      obtain ⟨rfl, -⟩ := hlead.eq_of_isWord hname' hfree.1 hname.1
      exact ⟨hspell, .call (by simpa using hfree) harguments hends⟩
    · split at h
      · obtain ⟨v, hv, rfl⟩ := Reader.map_eq_some_iff.1 h
        obtain ⟨type, dot, item, rfl, htype, hitem, hspell⟩ :=
          Value.readEnumItem_eq_some_iff.1 hv
        rw [tokens_value]
        obtain ⟨m'', htype', -⟩ := (Value.tokens_enumItem type item dot) ▸ hspell
        obtain ⟨rfl, -⟩ := hlead.eq_of_isWord htype' hfree.1 htype.1
        exact ⟨hspell, .value (.enumItem (by simpa using hfree) hitem)⟩
      · simp only [Option.some.injEq, Prod.mk.injEq] at h
        obtain ⟨rfl, rfl⟩ := h
        exact ⟨by simpa using spells_singleton_iff.2 hlead, .named (by simpa using hfree)⟩

theorem sound_readGlobalCall {argument : Reader Literal}
    (hin : Sound argument tokens (Valid [])) :
    Sound (readGlobalCall argument) tokens (Valid []) := by
  intro s l r h
  simp only [readGlobalCall, Reader.bind_eq_some_iff, Reader.pure_eq_some_iff] at h
  obtain ⟨keyword, m₁, h₁, dot, m₂, h₂, ⟨name, opening, arguments, closing⟩, m₃, h₃, rfl, rfl⟩ := h
  obtain ⟨hspell, hname, harguments, hends⟩ := sound_readCall hin h₃
  refine ⟨?_, .globalCall hname harguments hends⟩
  rw [tokens_globalCall]
  exact ⟨m₁, leads_of_keyword h₁ (by decide), m₂, leads_of_mark h₂ rfl,
    hspell⟩

/-! ### Literals -/

/-- The next character decides which kind of literal is read. -/
theorem readAround_eq (argument : Reader Literal) (h : next? s = some c) :
    readAround argument s =
      if c = '@' then readModuleVariable s
      else if startsWord c then
        match Token.oneOf booleanWords s with
        | some (t, r) => some (.value (.boolean t), r)
        | none =>
          match Token.keyword "global" s with
          | some _ => readGlobalCall argument s
          | none => readNamed argument s
      else (Literal.value <$> Value.read) s := by
  obtain ⟨u, hu⟩ := List.head?_eq_some_iff.1 h
  rewrite [readAround, hu]
  rfl

/-- What is read around arguments is the tokens of a literal, if the same holds of them. -/
theorem sound_readAround {argument : Reader Literal}
    (hin : Sound argument tokens (Valid [])) : Sound (readAround argument) tokens (Valid []) := by
  intro s l r h
  rcases hnext : next? s with - | c
  · rw [next?, List.head?_eq_none_iff] at hnext
    simp [readAround, hnext] at h
  · rw [readAround_eq argument hnext] at h
    split at h
    · obtain ⟨sign, owner, dot, name, rfl, howner, hname, hspell⟩ :=
        readModuleVariable_eq_some_iff.1 h
      exact ⟨hspell, .moduleVariable howner hname⟩
    · split at h
      · rcases hbool : Token.oneOf booleanWords s with - | ⟨t, m⟩
        · rcases hglobal : Token.keyword "global" s with - | ⟨g, m⟩
          · simp only [hbool, hglobal] at h
            exact sound_readNamed hin h
          · simp only [hbool, hglobal] at h
            exact sound_readGlobalCall hin h
        · simp only [hbool, Option.some.injEq, Prod.mk.injEq] at h
          obtain ⟨rfl, rfl⟩ := h
          obtain ⟨hlead, -, hword⟩ := oneOf_eq_some_iff.1 hbool
          exact ⟨by simpa using spells_singleton_iff.2 hlead, .value (.boolean hword)⟩
      · rename_i hc
        obtain ⟨v, hv, rfl⟩ := Reader.map_eq_some_iff.1 h
        obtain ⟨hspell, hvalid⟩ := Value.sound_read hv
        -- no word comes first, so it does not matter which words are taken
        have hword : Token.oneOf literalWords s = none :=
          wordWhere_eq_none (by simpa [hnext] using hc)
        refine ⟨by rwa [tokens_value], .value (hvalid.of_oneOf_eq_none hspell hword ?_)⟩
        simp

theorem sound_readWithin (depth : Nat) : Sound (readWithin depth) tokens (Valid []) := by
  induction depth with
  | zero =>
    refine sound_readAround ?_
    intro s l r h
    exact absurd h (by simp [Reader.failure_eq_none])
  | succ depth ih => exact sound_readAround ih

theorem sound_read : Sound read tokens (Valid []) := by
  intro s l r h
  exact sound_readWithin s.length h

theorem exists_readAround (depth : Nat) : ∃ argument, readWithin depth = readAround argument := by
  cases depth with
  | zero => exact ⟨_, rfl⟩
  | succ depth => exact ⟨_, rfl⟩

/-- Where a word starts, it decides what is read: a truth value, a global call, or what a name
begins. -/
theorem readAround_word (argument : Reader Literal) (h : next? s = some c)
    (hc : startsWord c = true) :
    readAround argument s =
      match Token.oneOf booleanWords s with
      | some (t, r) => some (.value (.boolean t), r)
      | none =>
        match Token.keyword "global" s with
        | some _ => readGlobalCall argument s
        | none => readNamed argument s := by
  have hsign : c ≠ '@' := by
    rintro rfl
    exact absurd hc (by decide)
  rw [readAround_eq argument h, if_neg hsign, if_pos hc]

/-- What begins with a name that is no word for a literal. -/
theorem readAround_name (argument : Reader Literal) {t : Lexeme} (h : t.Leads s m)
    (ht : t.FreeName literalWords) : readAround argument s = readNamed argument s := by
  obtain ⟨c, u, htext, hc⟩ := ht.1.head
  have hbool : Token.oneOf booleanWords s = none :=
    oneOf_eq_none_of_freeName h (ht.mono (List.subset_cons_self _ _))
  have hglobal : Token.keyword "global" s = none :=
    keyword_eq_none_of_freeName h (ht.mono (by simp [literalWords]))
  rw [readAround_word argument (h.next?_eq htext) hc, hbool, hglobal]

/-- A valid value is read back as a literal. -/
theorem readAround_value {lead : List String} {v : Value} (argument : Reader Literal)
    (hv : v.Valid (literalWords ++ lead)) (h : Spells v.tokens s r) (hr : Follows valueEnds r) :
    readAround argument s = some (.value v, r) := by
  obtain ⟨c, hnext, hstarts⟩ := hv.exists_next h
  by_cases hc : startsWord c = true
  · rcases hstarts.of_word hc with ⟨t, rfl⟩ | ⟨type, dot, item, rfl⟩
    · cases hv with
      | boolean ht =>
        have hl := spells_singleton_iff.1 h
        rw [readAround_word argument hnext hc, oneOf_eq_some_iff.2 ⟨hl, ht.isWord (by decide), ht⟩]
    · cases hv with
      | enumItem htype hitem =>
        have hspell := h
        rw [Value.tokens_enumItem] at h
        obtain ⟨m, hl, m', hdot, -⟩ := h
        have hfree := htype.mono (List.subset_append_left _ _)
        have hnextDot := hdot.next?_eq rfl
        rw [readAround_name argument hl hfree, readNamed_eq argument hl hfree,
          if_neg (by simp [nextIs_singleton_iff, hnextDot]),
          if_pos (nextIs_singleton_iff.2 hnextDot)]
        refine Reader.map_eq_some_iff.2 ⟨_, Value.readEnumItem_eq_some_iff.2 ?_, rfl⟩
        exact ⟨type, dot, item, rfl, hfree.mono (List.subset_cons_self _ _), hitem, hspell⟩
  · have hsign : c ≠ '@' := by
      rintro rfl
      cases v <;> exact absurd hstarts (by simp only [Value.Starts]; decide)
    rw [readAround_eq argument hnext, if_neg hsign, if_neg hc]
    refine Reader.map_eq_some_iff.2 ⟨v, hv.read_eq ?_ h hr, rfl⟩
    exact List.Subset.trans (List.subset_cons_self _ _) (List.subset_append_left _ _)

/-- A valid literal is read back, at a depth that grows with its length. -/
theorem Valid.readWithin_eq {lead : List String} {l : Literal} (hl : l.Valid lead) {depth : Nat}
    (hdepth : s.length ≤ depth + r.length) (h : Spells l.tokens s r) (hr : Follows valueEnds r) :
    readWithin depth s = some (l, r) := by
  induction hl generalizing s r depth with
  | value hv =>
    obtain ⟨argument, hargument⟩ := exists_readAround depth
    rw [hargument]
    exact readAround_value argument hv (by simpa using h) hr
  | @call lead name opening closing arguments hname harguments hends ih =>
    rw [tokens_call] at h
    obtain ⟨m, hlead, htail⟩ := id h
    obtain ⟨m', hopening, htail'⟩ := id htail
    have hlt := hopening.length_lt (by simp)
    have hle := htail'.length_le
    have hle' := (spells_singleton_iff.2 hlead).length_le
    have hfree := hname.mono (List.subset_append_left _ _)
    -- the opening parenthesis makes up for one level
    cases depth with
    | zero => omega
    | succ depth =>
      rw [readWithin, readAround_name _ hlead hfree, readNamed_eq _ hlead hfree,
        if_pos (nextIs_singleton_iff.2 (hopening.next?_eq rfl))]
      refine Reader.bind_eq_some_iff.2 ⟨_, r, readCall_eq_some (hname.mono (by simp)) harguments
        hends ?_ h, Reader.pure_eq_some_iff.2 ⟨rfl, rfl⟩⟩
      intro l hl u w hu hw hargument hfollow
      exact ih l hl (by omega) hargument hfollow
  | @globalCall lead keyword dot opening closing name arguments hname harguments hends ih =>
    rw [tokens_globalCall] at h
    obtain ⟨m₁, h₁, m₂, h₂, h⟩ := h
    have hlt₁ := h₁.length_lt (by simp)
    have hlt₂ := h₂.length_lt (by simp)
    have hle := h.length_le
    have hkeyword := h₁.keyword_eq (by decide)
    have hbool : Token.oneOf booleanWords s = none :=
      oneOf_eq_none_of_freeName h₁ ⟨(by decide : IsWord "global".toList),
        (by decide : ∀ w ∈ booleanWords, w.toList ≠ "global".toList)⟩
    cases depth with
    | zero => omega
    | succ depth =>
      rw [readWithin, readAround_word _ (h₁.next?_eq rfl) (by decide), hbool, hkeyword]
      simp only [readGlobalCall, Reader.bind_eq_some_iff, Reader.pure_eq_some_iff]
      refine ⟨keyword, m₁, hkeyword, dot, m₂, h₂.mark_eq rfl, _, r,
        readCall_eq_some hname harguments hends ?_ h, rfl, rfl⟩
      intro l hl u w hu hw hargument hfollow
      exact ih l hl (by omega) hargument hfollow
  | @moduleVariable lead sign dot owner name howner hname =>
    obtain ⟨argument, hargument⟩ := exists_readAround depth
    have hspell := h
    rw [tokens_moduleVariable] at h
    obtain ⟨m, hlead, -⟩ := h
    rw [hargument, readAround_eq argument (hlead.next?_eq rfl), if_pos rfl]
    exact readModuleVariable_eq_some_iff.2 ⟨sign, owner, dot, name, rfl, howner, hname, hspell⟩
  | named ht =>
    obtain ⟨argument, hargument⟩ := exists_readAround depth
    have hlead := spells_singleton_iff.1 (by simpa using h)
    have hfree := ht.mono (List.subset_append_left _ _)
    -- a call or an item of an enumeration would go on after the name
    have hcall := hr.next?_ne (c := '(') (by decide)
    have hdot := hr.next?_ne (c := '.') (by decide)
    rw [hargument, readAround_name argument hlead hfree, readNamed_eq argument hlead hfree,
      if_neg (by rwa [nextIs_singleton_iff]), if_neg (by rwa [nextIs_singleton_iff])]

/-- A valid literal is read back from the texts that spell it. -/
theorem Valid.read_eq {lead : List String} {l : Literal} (hl : l.Valid lead)
    (h : Spells l.tokens s r) (hr : Follows valueEnds r) : read s = some (l, r) :=
  hl.readWithin_eq (Nat.le_add_right _ _) h hr

end Literal

end GrammarExport.Syntax
