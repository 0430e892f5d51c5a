import GrammarExport.Error
import GrammarExport.Proofs.Tag.Encoding
import Mathlib.Data.List.Infix

/-!
# A message identifies its error

A message has a text of its own between two fixed parts, an opening and a closing (`Error.Frame`).
The text may be anything: empty, full of fixed parts, or the message of another error. Still two
errors never have the same message (`Error.message_inj`).

## What the proof rests on

* Where two openings differ before one of them ends, nothing that is put behind them makes the
  messages equal, and the same holds of closings (`Error.Frame.Apart.around_ne`). Any two kinds of
  errors are apart in this way (`Error.Kind.apart`); only the two kinds of errors about exports have
  the same opening, and these differ in their closings.
* Within a kind the text identifies the error (`Error.eq_of_body_eq`). Where it is made of tags,
  this is because all tags are written at the same length, and the words for a missing tag are
  shorter.
-/

namespace GrammarExport.Error

/-! ### Frames -/

/-- The fixed parts of a message. -/
structure Frame where
  opening : String
  closing : String

namespace Frame

/-- The message with a text between the fixed parts. -/
def around (f : Frame) (body : String) : String := f.opening ++ body ++ f.closing

/-- The openings or the closings of two frames differ before one of them ends. -/
def Apart (f g : Frame) : Prop :=
  (¬ f.opening.toList <+: g.opening.toList ∧ ¬ g.opening.toList <+: f.opening.toList) ∨
    (¬ f.closing.toList <:+ g.closing.toList ∧ ¬ g.closing.toList <:+ f.closing.toList)

instance (f g : Frame) : Decidable (f.Apart g) := inferInstanceAs (Decidable (_ ∨ _))

variable {f g : Frame} {b c : String}

theorem toList_around (f : Frame) (b : String) :
    (f.around b).toList = f.opening.toList ++ b.toList ++ f.closing.toList := by
  rw [around, String.toList_append, String.toList_append]

theorem opening_isPrefix (f : Frame) (b : String) :
    f.opening.toList <+: (f.around b).toList := by
  rw [toList_around, List.append_assoc]
  exact List.prefix_append ..

theorem closing_isSuffix (f : Frame) (b : String) :
    f.closing.toList <:+ (f.around b).toList := by
  rw [toList_around]
  exact List.suffix_append ..

/-- Frames that are apart never make the same message. -/
theorem Apart.around_ne (h : f.Apart g) : f.around b ≠ g.around c := by
  intro heq
  have hopening : g.opening.toList <+: (f.around b).toList := heq ▸ g.opening_isPrefix c
  have hclosing : g.closing.toList <:+ (f.around b).toList := heq ▸ g.closing_isSuffix c
  rcases h with ⟨hfg, hgf⟩ | ⟨hfg, hgf⟩
  · rcases List.prefix_or_prefix_of_prefix (f.opening_isPrefix b) hopening with h | h
    · exact hfg h
    · exact hgf h
  · rcases List.suffix_or_suffix_of_suffix (f.closing_isSuffix b) hclosing with h | h
    · exact hfg h
    · exact hgf h

/-- In the same frame, different texts make different messages. -/
theorem around_inj : f.around b = f.around c ↔ b = c := by
  rw [around, around, ← String.toList_inj, ← String.toList_inj]
  simp

end Frame

/-! ### Kinds of errors -/

/-- The kinds of errors. -/
inductive Kind where
  | tagMismatch | nullTable | alreadyTagged | alreadyInitialized
  | grammarUnavailable | missingExport | moduleNotFound | host
  deriving DecidableEq

/-- The fixed parts of the messages of a kind. -/
def Kind.frame : Kind → Frame
  | tagMismatch => ⟨"Type tag mismatch: expected ", ""⟩
  | nullTable => ⟨"Accessor ", " returned a null language table"⟩
  | alreadyTagged => ⟨"External value is already tagged with ", ""⟩
  | alreadyInitialized => ⟨"Export ", " is already defined on this module"⟩
  | grammarUnavailable => ⟨"The w grammar was not generated for this build", ""⟩
  | missingExport => ⟨"Export ", " is not defined"⟩
  | moduleNotFound => ⟨"Module not found: ", ""⟩
  | host => ⟨"Host runtime error: ", ""⟩

/-- **Any two kinds are apart.** -/
theorem Kind.apart {k l : Kind} (h : k ≠ l) : k.frame.Apart l.frame := by
  revert h
  cases k <;> cases l <;> decide

/-- The kind of an error. -/
def kindOf : Error → Kind
  | tagMismatch .. => .tagMismatch
  | nullTable .. => .nullTable
  | alreadyTagged .. => .alreadyTagged
  | alreadyInitialized .. => .alreadyInitialized
  | grammarUnavailable => .grammarUnavailable
  | missingExport .. => .missingExport
  | moduleNotFound .. => .moduleNotFound
  | host .. => .host

/-- The text of an error between the fixed parts of its message. -/
def body : Error → String
  | tagMismatch expected found => expected.text ++ (", found " ++ describeFound found)
  | nullTable symbol => symbol
  | alreadyTagged existing => existing.text
  | alreadyInitialized key => key
  | grammarUnavailable => ""
  | missingExport key => key
  | moduleNotFound name => name
  | host message => message

/-- Every message is its body in the frame of its kind. -/
theorem message_eq_around (e : Error) : e.message = e.kindOf.frame.around e.body := by
  cases e with
  | tagMismatch expected found =>
    show _ = "Type tag mismatch: expected " ++ (expected.text ++ (", found " ++ _)) ++ ""
    rw [String.append_empty, ← String.append_assoc, ← String.append_assoc]
    rfl
  | nullTable | alreadyInitialized | missingExport => rfl
  | alreadyTagged | moduleNotFound | host => exact (String.append_empty ..).symm
  | grammarUnavailable => rfl

/-! ### Texts -/

/-- What was found is told from its description: no tag is described as the lack of one. -/
theorem describeFound_injective : Function.Injective describeFound := by
  -- The words for a missing tag have 14 letters, and a tag has 32 digits.
  have hne : ∀ t : Tag, t.text ≠ "untagged value" := fun t h ↦ by
    have hlength := t.length_text
    rw [h] at hlength
    exact absurd hlength (by decide)
  intro t u h
  cases t with
  | none =>
    cases u with
    | none => rfl
    | some u => exact absurd h.symm (hne u)
  | some t =>
    cases u with
    | none => exact absurd h (hne t)
    | some u => exact congrArg some (Tag.text_injective h)

/-- All tags are written at the same length, so a tag and what follows it can be told apart. -/
theorem text_append_inj {t u : Tag} {s r : String} (h : t.text ++ s = u.text ++ r) :
    t = u ∧ s = r := by
  have hlist : t.text.toList ++ s.toList = u.text.toList ++ r.toList := by
    rw [← String.toList_append, ← String.toList_append, h]
  obtain ⟨htext, hrest⟩ := List.append_inj hlist (by
    rw [String.length_toList, String.length_toList, t.length_text, u.length_text])
  exact ⟨Tag.text_injective (String.toList_inj.1 htext), String.toList_inj.1 hrest⟩

/-- Within a kind, the text identifies the error. -/
theorem eq_of_body_eq {e f : Error} (hkind : e.kindOf = f.kindOf) (hbody : e.body = f.body) :
    e = f := by
  cases e <;> cases f <;> cases hkind
  case tagMismatch.tagMismatch expected found expected' found' =>
    obtain ⟨rfl, hfound⟩ := text_append_inj hbody
    rw [describeFound_injective ((String.append_right_inj _).1 hfound)]
  case alreadyTagged.alreadyTagged => exact congrArg alreadyTagged (Tag.text_injective hbody)
  case grammarUnavailable.grammarUnavailable => rfl
  case nullTable.nullTable => exact congrArg nullTable hbody
  case alreadyInitialized.alreadyInitialized => exact congrArg alreadyInitialized hbody
  case missingExport.missingExport => exact congrArg missingExport hbody
  case moduleNotFound.moduleNotFound => exact congrArg moduleNotFound hbody
  case host.host => exact congrArg host hbody

/-- **A message identifies its error**: whatever tags, keys, names, symbols and messages two errors
have, they have the same message only if they are the same. -/
theorem message_inj {e f : Error} : e.message = f.message ↔ e = f := by
  refine ⟨fun h ↦ ?_, fun h ↦ h ▸ rfl⟩
  rw [message_eq_around, message_eq_around] at h
  by_cases hkind : e.kindOf = f.kindOf
  · rw [hkind, Frame.around_inj] at h
    exact eq_of_body_eq hkind h
  · exact absurd h (Kind.apart hkind).around_ne

example : (alreadyInitialized "k is not defined").message ≠
    (missingExport "k is already defined on this module").message := by decide

end GrammarExport.Error
