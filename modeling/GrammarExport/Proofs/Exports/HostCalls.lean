import GrammarExport.Proofs.Publication

/-!
# Publishing takes one call to the host

When a host is asked to define two properties it may do anything: carry it out, refuse, fail
halfway, or change state of its own; and it may do so as well when a property is looked up or the
keys are listed. Whatever it does, a module asks it once, to define the name first and the tagged
language second, and passes on what it answers; it asks nothing else, and without a table it asks
nothing at all (`Host.publish_calls_once`). The consumer's side takes one call as well, which looks
up the language (`Host.language_calls_once`).

## What the proof rests on

* How often a host was called cannot be seen in a state that does not tell. So the host is looked at
  beside one that does (`Host.recorded`): it behaves as the host and writes down each call.
* The two cannot be told apart by a module, since publishing depends only on what the host answers
  (`Host.value_publish_of_mapsTo`, `Host.value_language_of_mapsTo`).
* Whatever the host is, publishing comes to one call or none (`Host.value_publish_of_null`,
  `Host.value_publish_of_ne_null`). For the host with the record, that is what the record says.
-/

namespace GrammarExport.Host

variable {σ τ : Type}

/-! ### Hosts that answer alike -/

/-- A host is the image of another one: in corresponding states it gives the same answers and goes
on to corresponding states. -/
structure MapsTo (f : σ → τ) (host : Host σ) (image : Host τ) : Prop where
  define : ∀ first second s,
    image.define first second (f s) = (host.define first second s).map id f
  get : ∀ key s, image.get key (f s) = (host.get key s).map id f
  keys : ∀ s, image.keys (f s) = (host.keys s).map id f

/-- Publishing depends on nothing but the host's answers. -/
theorem value_publish_of_mapsTo {f : σ → τ} {host : Host σ} {image : Host τ}
    (h : MapsTo f host image) (a : Accessor) (cells : Cells) (s : σ) :
    ((image.publish a cells).runFrom (f s)).value =
      Prod.map id f ((host.publish a cells).runFrom s).value := by
  rw [value_publish, value_publish]
  rcases a.table cells with e | table
  · rfl
  · exact h.define _ _ s

/-- A consumer asks the host for the language and checks what it was given. -/
theorem value_language (host : Host σ) (s : σ) :
    (host.language.runFrom s).value =
      ((ExportValue.tableOf (host.get languageKey s).1).run.value, (host.get languageKey s).2) := by
  rw [language, Attempt.value_runFrom_bind, value_runFrom_lookUp]
  rfl

/-- What a consumer comes to depends on nothing but the host's answers. -/
theorem value_language_of_mapsTo {f : σ → τ} {host : Host σ} {image : Host τ}
    (h : MapsTo f host image) (s : σ) :
    (image.language.runFrom (f s)).value = Prod.map id f (host.language.runFrom s).value := by
  rw [value_language, value_language, h.get]
  rfl

/-- On the exports objects of this library, the consumer's side is that of the objects. -/
theorem value_language_exports (x : Exports) :
    (Exports.host.language.runFrom x).value = (x.language.run.value, x) := by
  rw [value_language]
  rfl

/-! ### Calls on record -/

/-- A call to a host. -/
inductive Call where
  | define (first second : Property)
  | get (key : String)
  | keys
  deriving DecidableEq

/-- A host with a record of the calls made to it, beside its state. -/
def recorded (host : Host σ) : Host (σ × List Call) where
  define first second s :=
    let (answer, s') := host.define first second s.1
    (answer, s', s.2 ++ [.define first second])
  get key s :=
    let (answer, s') := host.get key s.1
    (answer, s', s.2 ++ [.get key])
  keys s :=
    let (answer, s') := host.keys s.1
    (answer, s', s.2 ++ [.keys])

/-- The record changes nothing about the host. -/
theorem mapsTo_recorded (host : Host σ) : MapsTo Prod.fst host.recorded host where
  define _ _ _ := rfl
  get _ _ := rfl
  keys _ := rfl

/-! ### Publishing -/

section Publish

variable (host : Host σ) {a : Accessor} {cells : Cells} (s : σ)

/-- Without a table the host is not asked. -/
theorem value_publish_of_null (h : a.address cells = .null) :
    ((host.publish a cells).runFrom s).value = (.error (.nullTable a.symbol), s) := by
  rw [value_publish, Accessor.table_of_null h]

/-- With a table, what comes of publishing is what the host makes of one call. -/
theorem value_publish_of_ne_null (h : a.address cells ≠ .null) :
    ((host.publish a cells).runFrom s).value =
      host.define ("name", .text "w") ("language", .external ⟨a.address cells, .language, 1⟩)
        s := by
  rw [value_publish, Accessor.table_of_ne_null h]
  rfl

end Publish

/-- **Publishing takes one call to the host.** Whatever a host does when it is called, and whether
its calls are recorded or not:

* if the accessor returns null, no call is made, the host's state is left as it is, and the answer
  is the error about the accessor;
* otherwise one call is made, to define the name and the language of the accessor's table, and the
  answer and the state are those that the host came to in this call. -/
theorem publish_calls_once (host : Host σ) (a : Accessor) (cells : Cells) (s : σ)
    (calls : List Call) :
    Prod.map id Prod.fst ((host.recorded.publish a cells).runFrom (s, calls)).value =
      ((host.publish a cells).runFrom s).value ∧
    (a.address cells = .null →
      ((host.publish a cells).runFrom s).value = (.error (.nullTable a.symbol), s) ∧
      ((host.recorded.publish a cells).runFrom (s, calls)).value.2.2 = calls) ∧
    (a.address cells ≠ .null →
      ((host.publish a cells).runFrom s).value =
        host.define ("name", .text "w") ("language", .external ⟨a.address cells, .language, 1⟩) s ∧
      ((host.recorded.publish a cells).runFrom (s, calls)).value.2.2 =
        calls ++
          [.define ("name", .text "w")
            ("language", .external ⟨a.address cells, .language, 1⟩)]) := by
  refine ⟨?_, fun hnull ↦ ⟨?_, ?_⟩, fun hnull ↦ ⟨?_, ?_⟩⟩
  · exact (value_publish_of_mapsTo host.mapsTo_recorded a cells (s, calls)).symm
  · exact host.value_publish_of_null s hnull
  · rw [value_publish_of_null _ _ hnull]
  · exact host.value_publish_of_ne_null s hnull
  · rw [value_publish_of_ne_null _ _ hnull]
    rfl

/-- A host that counts the calls made to it. When it is to define properties, it keeps the key of
the first one and then fails. -/
def failing : Host (Nat × List String) where
  define first _ s := (.error (.host "disk full"), s.1 + 1, s.2 ++ [first.1])
  get _ s := (none, s.1 + 1, s.2)
  keys s := (s.2, s.1 + 1, s.2)

/-- The host's error is passed on, and what it did before it failed is left as it is. -/
theorem publish_calls_once_failing :
    ((failing.publish (.fixed "table" ⟨16⟩) fun _ ↦ .null).runFrom (0, [])).value =
        (.error (.host "disk full"), 1, ["name"]) ∧
      ((failing.recorded.publish (.fixed "table" ⟨16⟩) fun _ ↦ .null).runFrom
        ((0, []), [])).value.2.2.length = 1 ∧
      ((failing.publish (.cell "cell" 0) fun _ ↦ .null).runFrom (0, [])).value =
        (.error (.nullTable "cell"), 0, []) := by
  obtain ⟨-, -, hcalls⟩ :=
    publish_calls_once failing (.fixed "table" ⟨16⟩) (fun _ ↦ .null) (0, []) []
  obtain ⟨-, hnull, -⟩ := publish_calls_once failing (.cell "cell" 0) (fun _ ↦ .null) (0, []) []
  obtain ⟨hanswer, hrecord⟩ := hcalls (by decide)
  refine ⟨hanswer, ?_, (hnull rfl).1⟩
  rw [hrecord]
  rfl

/-! ### Looking the language up -/

/-- **A consumer takes one call to the host**: it looks up the language and leaves the host as this
call left it, whatever it makes of the answer. -/
theorem language_calls_once (host : Host σ) (s : σ) (calls : List Call) :
    Prod.map id Prod.fst (host.recorded.language.runFrom (s, calls)).value =
        (host.language.runFrom s).value ∧
      (host.language.runFrom s).value.2 = (host.get "language" s).2 ∧
      (host.recorded.language.runFrom (s, calls)).value.2.2 = calls ++ [.get "language"] := by
  refine ⟨?_, ?_, ?_⟩
  · exact (value_language_of_mapsTo host.mapsTo_recorded (s, calls)).symm
  · rw [value_language]
    rfl
  · rw [value_language]
    rfl

end GrammarExport.Host
