import GrammarExport.Proofs.Reading.Repetition

/-!
# Valid syntax

The types of the syntax keep the words, numbers and strings of a construct as they are written, so
they have values that no text reads as: names that are keywords, numbers without digits. `Valid`
singles out the others, construct by construct. A value, a literal and an expression are valid only
with respect to the words that are taken where they start, since a name that comes first there must
be none of these.

The tokens of each construct, in the order in which its reader takes them, are at the end.
-/

namespace GrammarExport.Syntax

/-- A token is one of some words. -/
def Lexeme.IsOneOf (words : List String) (t : Lexeme) : Prop :=
  ∃ w ∈ words, w.toList = t.text

/-- A value, where some words are taken. -/
inductive Value.Valid : List String → Value → Prop
  | integer {lead : List String} {t : Lexeme} : IsInteger t.text → Valid lead (.integer t)
  | double {lead : List String} {t : Lexeme} : IsDouble t.text → Valid lead (.double t)
  | boolean {lead : List String} {t : Lexeme} : t.IsOneOf booleanWords → Valid lead (.boolean t)
  | string {lead : List String} {t : Lexeme} :
      IsString t.text → '\x00' ∉ t.text → Valid lead (.string t)
  | range {lead : List String} {opening slash closing : Gap} {low high : Lexeme} :
      IsInteger low.text → IsInteger high.text →
      Valid lead (.range opening low slash high closing)
  | enumItem {lead : List String} {type item : Lexeme} {dot : Gap} :
      type.FreeName lead → item.FreeName [] → Valid lead (.enumItem type dot item)
  | array {lead : List String} {opening closing : Gap} {items : CommaList Value} :
      (∀ v ∈ items.toList, Valid booleanWords v) → Valid lead (.array opening items closing)
  | record {lead : List String} {opening closing : Gap} {entries : CommaList (Field Value)}
      {first : Field Value} :
      entries.toList.head? = some first → first.key.FreeName booleanWords →
      (∀ f ∈ entries.toList, f.key.FreeName []) →
      (∀ f ∈ entries.toList, Valid booleanWords f.value) →
      Valid lead (.record opening entries closing)

/-- A literal, where some words are taken besides those that begin literals. -/
inductive Literal.Valid : List String → Literal → Prop
  | value {lead : List String} {v : Value} :
      v.Valid (literalWords ++ lead) → Valid lead (.value v)
  | call {lead : List String} {name : Lexeme} {opening closing : Gap}
      {arguments : CommaList Literal} :
      name.FreeName (literalWords ++ lead) → (∀ l ∈ arguments.toList, Valid [] l) →
      arguments.Ends false true → Valid lead (.call name opening arguments closing)
  | globalCall {lead : List String} {keyword dot opening closing : Gap} {name : Lexeme}
      {arguments : CommaList Literal} :
      name.FreeName [] → (∀ l ∈ arguments.toList, Valid [] l) → arguments.Ends false true →
      Valid lead (.globalCall keyword dot name opening arguments closing)
  | moduleVariable {lead : List String} {sign dot : Gap} {owner name : Lexeme} :
      owner.FreeName [] → name.FreeName [] → Valid lead (.moduleVariable sign owner dot name)
  | named {lead : List String} {t : Lexeme} :
      t.FreeName (literalWords ++ lead) → Valid lead (.named t)

mutual

/-- An operand, where some words are taken besides those that begin literals. -/
def Operand.Valid (lead : List String) : Operand → Prop
  | .literal l => l.Valid lead
  | .parenthesized _ e _ => e.Valid []

/-- An expression, where some words are taken besides those that begin literals. -/
def Expression.Valid (lead : List String) : Expression → Prop
  | .operand o => o.Valid lead
  | .binary left operator right =>
    left.Valid lead ∧ (∃ c, Expression.isOperator c = true ∧ operator.text = [c]) ∧ right.Valid []

end

/-- A type. -/
def TypeName.Valid : TypeName → Prop
  | primitive t => t.IsOneOf primitiveWords
  | decision t => t.IsOneOf decisionWords
  | named t => t.FreeName (primitiveWords ++ decisionWords)
  | template t _ argument _ => t.IsOneOf decisionWords ∧ argument.FreeName []
  | array element _ => element.Valid

/-- A string of a function's body. -/
def Lexeme.IsText (t : Lexeme) : Prop := IsString t.text ∧ '\x00' ∉ t.text

/-- A statement. -/
def Statement.Valid : Statement → Prop
  | coherenceCheck _ name _ => name.FreeName []
  | view _ name first more _ => ∀ t ∈ name :: first :: more, t.FreeName []
  | assignment target _ matrix value _ =>
    target.FreeName statementWords ∧ value.Valid (if matrix.isSome then [] else ["mat"])
  | enumeration _ name _ items _ => name.FreeName [] ∧ ∀ t ∈ items.toList, t.FreeName []
  | variableDeclaration keyword visibility name rotation _ type initial _ =>
    keyword.IsOneOf declarationWords ∧ (∀ t ∈ visibility, t.IsOneOf visibilityWords) ∧
      name.FreeName (if visibility.isSome then [] else visibilityWords) ∧
      (∀ r ∈ rotation, r.name.FreeName []) ∧ type.Valid ∧
      ∀ i ∈ initial, i.2.Valid booleanWords
  | function _ name _ parameters _ result body =>
    name.FreeName [] ∧ (∀ p ∈ parameters.toList, p.name.FreeName [] ∧ p.type.Valid) ∧
      (∀ i ∈ result, i.2.Valid) ∧ ∀ b ∈ body, ∀ t ∈ b.first :: b.more, t.IsText

/-- A source is valid if its statements are. -/
def Source.Valid (src : Source) : Prop := ∀ t ∈ src.statements, t.Valid

/-! ### Names -/

/-- A name stays a name where fewer words are reserved. -/
theorem Lexeme.FreeName.mono {reserved reserved' : List String} {t : Lexeme}
    (h : t.FreeName reserved) (hsub : reserved' ⊆ reserved) : t.FreeName reserved' :=
  ⟨h.1, fun w hw ↦ h.2 w (hsub hw)⟩

/-- A name that comes first is none of the words that are not read there. -/
theorem Lexeme.FreeName.of_oneOf_eq_none {reserved reserved' words : List String} {t : Lexeme}
    {s r : List Char} (h : t.FreeName reserved) (hlead : t.Leads s r)
    (hnone : Token.oneOf words s = none) (hsub : reserved' ⊆ words ++ reserved) :
    t.FreeName reserved' := by
  refine ⟨h.1, fun w hw htext ↦ ?_⟩
  rcases List.mem_append.1 (hsub hw) with hword | hreserved
  · rw [oneOf_eq_some_iff.2 ⟨hlead, h.1, w, hword, htext⟩] at hnone
    exact absurd hnone (by simp)
  · exact h.2 w hreserved htext

theorem Lexeme.IsOneOf.isWord {words : List String} {t : Lexeme} (h : t.IsOneOf words)
    (hwords : ∀ w ∈ words, IsWord w.toList) : IsWord t.text := by
  obtain ⟨w, hw, htext⟩ := h
  rw [← htext]
  exact hwords w hw

/-- What is one of some words is not a name where they are reserved. -/
theorem Lexeme.IsOneOf.not_freeName {words reserved : List String} {t : Lexeme}
    (h : t.IsOneOf words) (hsub : words ⊆ reserved) : ¬ t.FreeName reserved := by
  obtain ⟨w, hw, htext⟩ := h
  exact fun hfree ↦ hfree.2 w (hsub hw) htext

/-! ### Tokens -/

/-- The role of a tree says nothing about its tokens. -/
@[simp]
theorem Tree.tokens_inRole (role : Role) (t : Tree) : (t.inRole role).tokens = t.tokens := by
  cases t with
  | token => rfl
  | node => simp [inRole, tokens]

@[simp]
theorem tokens_fixed (g : Gap) (w : String) : (fixed g w).tokens = [⟨g, w.toList⟩] := by
  simp [fixed, Tree.tokens]

@[simp]
theorem Lexeme.tokens_tree (kind : Kind) (t : Lexeme) : (t.tree kind).tokens = [t] := by
  simp [Lexeme.tree, Tree.tokens, Tree.tokensOfAll]

@[simp]
theorem Lexeme.tokens_name (t : Lexeme) : t.name.tokens = [t] := t.tokens_tree .identifier

theorem Tree.tokensOfAll_append (ts us : List Tree) :
    tokensOfAll (ts ++ us) = tokensOfAll ts ++ tokensOfAll us := by
  simp [tokensOfAll_eq_flatMap]

namespace Value

/-- The trees of a list's items are put between commas, as in any other list. -/
theorem itemTrees_eq (items : CommaList Value) : itemTrees items = items.trees tree := by
  induction items with
  | nil => simp [itemTrees, CommaList.trees]
  | last v => simp [itemTrees, CommaList.trees]
  | cons v comma rest ih => simp [itemTrees, CommaList.trees, ih]

theorem entryTrees_eq (entries : CommaList (Field Value)) :
    entryTrees entries = entries.trees entryTree := by
  induction entries with
  | nil => simp [entryTrees, CommaList.trees]
  | last v => simp [entryTrees, CommaList.trees]
  | cons v comma rest ih => simp [entryTrees, CommaList.trees, ih]

/-- The tokens of a value. -/
def tokens (v : Value) : List Lexeme := v.tree.tokens

/-- The tokens of a field of a record. -/
def entryTokens (f : Field Value) : List Lexeme := f.key :: ⟨f.colon, [':']⟩ :: f.value.tokens

@[simp] theorem tokens_integer (t : Lexeme) : (integer t).tokens = [t] := rfl

@[simp] theorem tokens_double (t : Lexeme) : (double t).tokens = [t] := rfl

@[simp] theorem tokens_boolean (t : Lexeme) : (boolean t).tokens = [t] := rfl

@[simp] theorem tokens_string (t : Lexeme) : (string t).tokens = [t] := rfl

/-- A range is two integers in brackets with a slash between them. -/
@[simp]
theorem tokens_range (opening slash closing : Gap) (low high : Lexeme) :
    (range opening low slash high closing).tokens =
      [⟨opening, ['[']⟩, low, ⟨slash, ['/']⟩, high, ⟨closing, [']']⟩] := rfl

/-- An item of an enumeration is named by two words with a point between them. -/
@[simp]
theorem tokens_enumItem (type item : Lexeme) (dot : Gap) :
    (enumItem type dot item).tokens = [type, ⟨dot, ['.']⟩, item] := rfl

/-- An array is its items in braces. -/
@[simp]
theorem tokens_array (opening closing : Gap) (items : CommaList Value) :
    (array opening items closing).tokens =
      ⟨opening, ['{']⟩ :: (items.tokens tokens ++ [⟨closing, ['}']⟩]) := by
  simp [tokens, tree, Tree.tokens, Tree.tokensOfAll, Tree.tokensOfAll_append, itemTrees_eq,
    CommaList.tokensOfAll_trees]
  rfl

theorem tokens_entryTree (f : Field Value) : (entryTree f).tokens = entryTokens f := by
  obtain ⟨key, colon, v⟩ := f
  simp [entryTree, entryTokens, tokens, Tree.tokens, Tree.tokensOfAll]

/-- A record is its entries in braces. -/
@[simp]
theorem tokens_record (opening closing : Gap) (entries : CommaList (Field Value)) :
    (record opening entries closing).tokens =
      ⟨opening, ['{']⟩ :: (entries.tokens entryTokens ++ [⟨closing, ['}']⟩]) := by
  simp [tokens, tree, Tree.tokens, Tree.tokensOfAll, Tree.tokensOfAll_append, entryTrees_eq,
    CommaList.tokensOfAll_trees, tokens_entryTree]

end Value

namespace Literal

theorem argumentTrees_eq (arguments : CommaList Literal) :
    argumentTrees arguments = arguments.trees tree := by
  induction arguments with
  | nil => simp [argumentTrees, CommaList.trees]
  | last v => simp [argumentTrees, CommaList.trees]
  | cons v comma rest ih => simp [argumentTrees, CommaList.trees, ih]

/-- The tokens of a literal. -/
def tokens (l : Literal) : List Lexeme := l.tree.tokens

/-- The tokens of a call. -/
def callTokens (name : Lexeme) (opening : Gap) (arguments : CommaList Literal) (closing : Gap) :
    List Lexeme :=
  name :: ⟨opening, ['(']⟩ :: (arguments.tokens tokens ++ [⟨closing, [')']⟩])

/-- A call is a name and its arguments in parentheses, also inside a call that is marked as
global. -/
theorem tokens_callTree (name : Lexeme) (opening : Gap) (arguments : CommaList Literal)
    (closing : Gap) :
    (callTree name opening (argumentTrees arguments) closing).tokens =
      callTokens name opening arguments closing := by
  simp [callTree, callTokens, Tree.tokens, Tree.tokensOfAll, Tree.tokensOfAll_append,
    argumentTrees_eq, CommaList.tokensOfAll_trees]
  rfl

@[simp]
theorem tokens_value (v : Value) : (value v).tokens = v.tokens := by
  simp [tokens, tree, Tree.tokens, Tree.tokensOfAll, Value.tokens]

@[simp]
theorem tokens_call (name : Lexeme) (opening closing : Gap) (arguments : CommaList Literal) :
    (call name opening arguments closing).tokens =
      callTokens name opening arguments closing := by
  simp [tokens, tree, Tree.tokens, Tree.tokensOfAll, tokens_callTree]

/-- A global call is a call after the word `global` and a point. -/
@[simp]
theorem tokens_globalCall (keyword dot opening closing : Gap) (name : Lexeme)
    (arguments : CommaList Literal) :
    (globalCall keyword dot name opening arguments closing).tokens =
      ⟨keyword, "global".toList⟩ :: ⟨dot, ['.']⟩ ::
        callTokens name opening arguments closing := by
  simp [tokens, tree, Tree.tokens, Tree.tokensOfAll, tokens_callTree]

/-- A variable of another module is spelled with a sign before the module and a point after it. -/
@[simp]
theorem tokens_moduleVariable (sign dot : Gap) (owner name : Lexeme) :
    (moduleVariable sign owner dot name).tokens =
      [⟨sign, ['@']⟩, owner, ⟨dot, ['.']⟩, name] := rfl

@[simp] theorem tokens_named (t : Lexeme) : (named t).tokens = [t] := rfl

end Literal

/-- The tokens of an operand. -/
def Operand.tokens (o : Operand) : List Lexeme := o.tree.tokens

/-- The tokens of an expression. -/
def Expression.tokens (e : Expression) : List Lexeme := e.tree.tokens

@[simp]
theorem Operand.tokens_literal (l : Literal) : (literal l).tokens = l.tokens := rfl

/-- An expression can be put in parentheses as a whole. -/
@[simp]
theorem Operand.tokens_parenthesized (opening closing : Gap) (e : Expression) :
    (parenthesized opening e closing).tokens =
      ⟨opening, ['(']⟩ :: (e.tokens ++ [⟨closing, [')']⟩]) := by
  simp [tokens, tree, Tree.tokens, Tree.tokensOfAll, Expression.tokens]

@[simp]
theorem Expression.tokens_operand (o : Operand) : (operand o).tokens = o.tokens := rfl

/-- An operator stands between what is before it, which may have operators of its own, and one
operand. -/
@[simp]
theorem Expression.tokens_binary (left : Expression) (operator : Lexeme) (right : Operand) :
    (binary left operator right).tokens = left.tokens ++ operator :: right.tokens := by
  simp [tokens, tree, Tree.tokens, Tree.tokensOfAll, Operand.tokens]

namespace TypeName

/-- The tokens of a type. -/
def tokens (t : TypeName) : List Lexeme := t.tree.tokens

@[simp] theorem tokens_primitive (t : Lexeme) : (primitive t).tokens = [t] := rfl

@[simp] theorem tokens_decision (t : Lexeme) : (decision t).tokens = [t] := rfl

@[simp] theorem tokens_named (t : Lexeme) : (named t).tokens = [t] := rfl

/-- The argument of a template stands in angle brackets. -/
@[simp]
theorem tokens_template (t argument : Lexeme) (opening closing : Gap) :
    (template t opening argument closing).tokens =
      [t, ⟨opening, ['<']⟩, argument, ⟨closing, ['>']⟩] := rfl

/-- A dimension of an array is a pair of brackets after the type; the brackets are one token. -/
@[simp]
theorem tokens_array (element : TypeName) (brackets : Gap) :
    (array element brackets).tokens = element.tokens ++ [⟨brackets, ['[', ']']⟩] := by
  simp [tokens, tree, Tree.tokens, Tree.tokensOfAll]

end TypeName

/-- Trees that are made from items have the tokens that the items have. -/
theorem Tree.tokensOfAll_map {α : Type} (f : α → Tree) (as : List α) :
    tokensOfAll (as.map f) = as.flatMap fun a ↦ (f a).tokens := by
  rw [tokensOfAll_eq_flatMap, List.flatMap_map]

/-- The tokens of a parameter. -/
def Parameter.tokens (p : Parameter) : List Lexeme :=
  p.name :: ⟨p.colon, [':']⟩ :: p.type.tokens

/-- The tokens of a rotation. -/
def Rotation.tokens (r : Rotation) : List Lexeme :=
  [⟨r.rotate, "rotate".toList⟩, ⟨r.preposition, "to".toList⟩, r.name]

/-- The tokens of a function's body. -/
def Body.tokens (b : Body) : List Lexeme :=
  ⟨b.opening, ['{']⟩ :: b.first :: (b.more ++ [⟨b.closing, ['}']⟩])

namespace Statement

/-- The tokens of an initial value. -/
def initialTokens (i : Gap × Value) : List Lexeme := ⟨i.1, ['=']⟩ :: i.2.tokens

/-- The tokens of a result type. -/
def resultTokens (i : Gap × TypeName) : List Lexeme := ⟨i.1, ['-', '>']⟩ :: i.2.tokens

/-- The tokens of a statement. -/
def tokens (t : Statement) : List Lexeme := t.tree.tokens

/-- A coherence check is the word `cc`, a name and a semicolon. -/
theorem tokens_coherenceCheck (keyword : Gap) (name : Lexeme) (semicolon : Gap) :
    (coherenceCheck keyword name semicolon).tokens =
      [⟨keyword, "cc".toList⟩, name, ⟨semicolon, [';']⟩] := rfl

/-- A view assignment is the word `view`, at least two names and a semicolon. -/
theorem tokens_view (keyword : Gap) (name first : Lexeme) (more : List Lexeme)
    (semicolon : Gap) :
    (view keyword name first more semicolon).tokens =
      ⟨keyword, "view".toList⟩ :: name :: first :: (more ++ [⟨semicolon, [';']⟩]) := by
  simp [tokens, tree, Tree.tokens, Tree.tokensOfAll, Tree.tokensOfAll_append,
    Tree.tokensOfAll_map]

/-- An assignment is a name and an expression with an equals sign between them, and perhaps the word
`mat` after that. -/
theorem tokens_assignment (target : Lexeme) (equals : Gap) (matrix : Option Gap)
    (value : Expression) (semicolon : Gap) :
    (assignment target equals matrix value semicolon).tokens =
      target :: ⟨equals, ['=']⟩ :: (matrix.toList.map (Lexeme.mk · "mat".toList) ++
        (value.tokens ++ [⟨semicolon, [';']⟩])) := by
  cases matrix <;>
    simp [tokens, tree, Tree.tokens, Tree.tokensOfAll, Expression.tokens]

/-- An enumeration is the word `enum`, a name and names in braces; there is no semicolon. -/
theorem tokens_enumeration (keyword : Gap) (name : Lexeme) (opening : Gap)
    (items : CommaList Lexeme) (closing : Gap) :
    (enumeration keyword name opening items closing).tokens =
      ⟨keyword, "enum".toList⟩ :: name :: ⟨opening, ['{']⟩ ::
        (items.tokens (fun t ↦ [t]) ++ [⟨closing, ['}']⟩]) := by
  simp [tokens, tree, Tree.tokens, Tree.tokensOfAll, Tree.tokensOfAll_append,
    CommaList.tokensOfAll_trees]

/-- A declaration of a variable has up to three parts that may be missing: who can see it, what it
is rotated to, and its initial value. -/
theorem tokens_variableDeclaration (keyword : Lexeme) (visibility : Option Lexeme)
    (name : Lexeme) (rotation : Option Rotation) (colon : Gap) (type : TypeName)
    (initial : Option (Gap × Value)) (semicolon : Gap) :
    (variableDeclaration keyword visibility name rotation colon type initial semicolon).tokens =
      keyword :: (visibility.toList ++ name :: (rotation.toList.flatMap Rotation.tokens ++
        ⟨colon, [':']⟩ :: (type.tokens ++ (initial.toList.flatMap initialTokens ++
          [⟨semicolon, [';']⟩])))) := by
  cases visibility <;> cases rotation <;> cases initial <;>
    simp [tokens, tree, Tree.tokens, Tree.tokensOfAll, initialTrees, TypeName.tokens,
      Rotation.tree, Rotation.tokens, initialTokens, Value.tokens]

/-- A function has parameters in parentheses, and perhaps a type and a body after them. -/
theorem tokens_function (keyword : Gap) (name : Lexeme) (opening : Gap)
    (parameters : CommaList Parameter) (closing : Gap) (result : Option (Gap × TypeName))
    (body : Option Body) :
    (function keyword name opening parameters closing result body).tokens =
      ⟨keyword, "fn".toList⟩ :: name :: ⟨opening, ['(']⟩ ::
        (parameters.tokens Parameter.tokens ++ ⟨closing, [')']⟩ ::
          (result.toList.flatMap resultTokens ++ body.toList.flatMap Body.tokens)) := by
  have hparameter : (fun p : Parameter ↦ p.tree.tokens) = Parameter.tokens := by
    funext p
    simp [Parameter.tree, Parameter.tokens, Tree.tokens, Tree.tokensOfAll, TypeName.tokens]
  have hbody : ∀ b : Body, b.tree.tokens = b.tokens := by
    intro b
    simp [Body.tree, Body.tokens, Tree.tokens, Tree.tokensOfAll, Tree.tokensOfAll_append,
      Tree.tokensOfAll_map]
  cases result <;> cases body <;>
    simp [tokens, tree, Tree.tokens, Tree.tokensOfAll, Tree.tokensOfAll_append,
      CommaList.tokensOfAll_trees, hparameter, hbody, resultTokens, TypeName.tokens]

end Statement

end GrammarExport.Syntax
