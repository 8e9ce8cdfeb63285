import CodeChart.Proofs.Building
import CodeChart.Proofs.Delivery
import CodeChart.Proofs.Fields
import CodeChart.Proofs.Totality

/-! What a run of the program leaves behind. A run fails and leaves everything as it was, or it
shows a text and leaves all files alone, or it writes one page and says so. A run whose arguments
hold stray bytes can also break off at a text that cannot be encoded, with what it did before left
behind. -/
namespace CodeChart

namespace Chart

open CodeChart.Graph Code

end Chart

namespace CommandLine

open CodeChart.Graph
open Text (Sign Raw Reader utf8)

/-- What arguments ask for. Of several values for the same thing the last one counts. -/
structure Request where
  settings : Settings := {}
  file : Option Raw := none

def Request.take (r : Request) : Event → Request
  | .field value => { r with settings := { r.settings with field := value } }
  | .inner => { r with settings := { r.settings with inner := true } }
  | .output value => { r with settings := { r.settings with output := value } }
  | .noSimplify => { r with settings := { r.settings with simplify := false } }
  | .align => { r with settings := { r.settings with align := true } }
  | .codeFile name => { r with file := some name }
  | .help | .fail => r

def requestOf (arguments : List Raw) : Request := (eventsOf arguments).foldl Request.take {}

/-- The bytes of a code file; a dash stands for the standard input. -/
def Desk.bytes? (desk : Desk) (name : Raw) : Option (List UInt8) :=
  if name = Raw.ofText "-" then some desk.input else desk.directory.read? name

/-- The status of a conversion that succeeds is zero. -/
def exited (result : Except Fault Unit × Desk) : Except Fault Nat × Desk :=
  (result.1.map fun _ => 0, result.2)

/-- Arguments that cannot be followed: a wrong word, no code file, or one that cannot be opened. -/
def Misused (desk : Desk) (events : List Event) (r : Request) : Prop :=
  .fail ∈ events ∨ (events.foldl Request.take r).file = none ∨
    ∃ name, .codeFile name ∈ events ∧ desk.bytes? name = none

/-- Following events from a request ends with bad usage, with the help text, or with the conversion
that is asked for in the end. -/
def Follows (reader : Reader) (desk : Desk) (events : List Event) (r : Request)
    (result : Except Fault Nat × Desk) : Prop :=
  (Misused desk events r ∧ result = (.ok badUsage, desk)) ∨
  (.help ∈ events ∧ result = (.ok 0, desk.say (Raw.ofText helpText))) ∨
  (.help ∉ events ∧ .fail ∉ events ∧
    ∃ name bytes, (events.foldl Request.take r).file = some name ∧ desk.bytes? name = some bytes ∧
      result = exited
        ((convert Desk.world reader (events.foldl Request.take r).settings bytes).run.run desk))

theorem Misused.cons {desk : Desk} {event : Event} {rest : List Event} {r : Request}
    (h : Misused desk rest (r.take event)) : Misused desk (event :: rest) r := by
  rcases h with hfail | hfile | ⟨name, hmem, hbytes⟩
  · exact .inl (List.mem_cons_of_mem event hfail)
  · exact .inr (.inl hfile)
  · exact .inr (.inr ⟨name, List.mem_cons_of_mem event hmem, hbytes⟩)

section

variable {reader : Reader} {desk : Desk}

theorem Follows.cons {event : Event} {rest : List Event} {r : Request}
    {result : Except Fault Nat × Desk} (h : Follows reader desk rest (r.take event) result)
    (hhelp : event ≠ .help) (hfail : event ≠ .fail) :
    Follows reader desk (event :: rest) r result := by
  rcases h with ⟨hmisused, h⟩ | ⟨hmem, h⟩ | ⟨hnohelp, hnofail, h⟩
  · exact .inl ⟨hmisused.cons, h⟩
  · exact .inr (.inl ⟨List.mem_cons_of_mem event hmem, h⟩)
  · exact .inr (.inr ⟨by simp [hhelp.symm, hnohelp], by simp [hfail.symm, hnofail], h⟩)

variable {s : Settings} {bytes : List UInt8}

end

def Event.IsText : Event → Prop
  | .field value | .output value | .codeFile value => value.IsText
  | _ => True

def Word.IsText : Word → Prop
  | .plain text => text.IsText
  | .switch _ (some a) => a.value.IsText
  | _ => True

section

variable (reader : Reader) (desk : Desk) (arguments : List Raw)

/-- The arguments are followed to their end, and reading the code file that they name gives
`code`. -/
def Reads (code : Except Fault String) : Prop :=
  .help ∉ eventsOf arguments ∧ .fail ∉ eventsOf arguments ∧
    ∃ name bytes, (requestOf arguments).file = some name ∧ desk.bytes? name = some bytes ∧
      reader.decode bytes = code

/-- The source that the arguments ask for. The body of the field is drawn, and not the field as a
whole, if this is asked for or if there is no field; `-i` asks for it wherever it stands among the
options. -/
structure Asked (code : String) (source : Chart.Source) : Prop where
  code_eq : source.code = code
  field_eq : source.field = (requestOf arguments).settings.field.shown
  inner_iff : source.inner = true ↔
    .inner ∈ eventsOf arguments ∨ (requestOf arguments).settings.field = []
  inner_of_given : ∀ word ∈ ["-i", "--inner"],
    Raw.ofText word ∈ arguments.takeWhile (· ≠ dividerWord) → source.inner = true
  simplify_eq : source.options.simplify = (requestOf arguments).settings.simplify
  align_eq : source.options.align = (requestOf arguments).settings.align

def Draws (chart : String) : Prop :=
  ∃ code source τ, Reads reader desk arguments (.ok code) ∧ Asked arguments code source ∧
    source.draw {} = .ok chart τ

/-- The name under which the chart is to be written. -/
def outputName : Raw := (requestOf arguments).settings.output

/-- The text between the marks of the page's title. -/
def TitleOf (title : Raw) : Prop :=
  Titled (requestOf arguments).settings.field (outputName arguments) title

/-- Reading the code, drawing it or opening the page stops at a fault. -/
inductive Stops (fault : Fault) : Prop where
  | reading : Reads reader desk arguments (.error fault) → Stops fault
  | drawing {code : String} {source : Chart.Source} {τ : Store} :
      Reads reader desk arguments (.ok code) → Asked arguments code source →
      source.draw {} = .error fault τ → fault.stopsRun = true → Stops fault
  | opening {chart : String} : Draws reader desk arguments chart →
      NamesPage (outputName arguments) →
      desk.directory.place (outputName arguments) = .error fault → fault.stopsRun = true →
      Stops fault

structure Failed (result : Except Fault Nat) (after : Desk) : Prop where
  status : (result = .ok badUsage ∧ Misused desk (eventsOf arguments) {}) ∨
    ∃ fault, result = .error fault ∧ Stops reader desk arguments fault
  unchanged : after = desk

/-- The run says something, and all else is as it was. -/
structure Shown (result : Except Fault Nat) (after : Desk) : Prop where
  status : result = .ok 0
  text : (.help ∈ eventsOf arguments ∧ after = desk.say (Raw.ofText helpText)) ∨
    (¬NamesPage (outputName arguments) ∧ ∃ chart rest, Draws reader desk arguments chart ∧
      (outputName arguments = [] → rest = []) ∧
      after = desk.say (Raw.ofText (chart ++ "\n") ++ rest))

structure Saved (result : Except Fault Nat) (after : Desk) : Prop where
  status : result = .ok 0
  name : NamesPage (outputName arguments)
  file : ∃ chart title p, Draws reader desk arguments chart ∧
    TitleOf arguments (Raw.ofText title) ∧
    desk.directory.place (outputName arguments) = .ok p ∧
    desk.directory.Wrote after.directory p (pageBytes title chart)
  said : after = { desk with
    directory := after.directory
    said := desk.said ++ (Raw.ofText "Saved HTML to " ++ outputName arguments ++ Raw.ofText "\n") }

/-- A text that cannot be encoded stops the run after other texts have been written. -/
inductive Broken : Except Fault Nat → Desk → Prop where
  /-- The title cannot be written, and the page ends before it. -/
  | atTitle {chart : String} {title : Raw} {p : Path} {after : Desk} :
      Draws reader desk arguments chart → NamesPage (outputName arguments) →
      TitleOf arguments title → ¬title.IsText →
      desk.directory.place (outputName arguments) = .ok p →
      desk.directory.Wrote after.directory p (utf8 Page.opening) →
      after = { desk with directory := after.directory } → Broken (.error title.fault) after
  /-- The page is written, but its name cannot be said. -/
  | atName {chart title : String} {p : Path} {after : Desk} : desk.strict = true →
      Draws reader desk arguments chart → NamesPage (outputName arguments) →
      TitleOf arguments (Raw.ofText title) → ¬(outputName arguments).IsText →
      desk.directory.place (outputName arguments) = .ok p →
      desk.directory.Wrote after.directory p (pageBytes title chart) →
      after = { desk with directory := after.directory } →
      Broken (.error (savedText (outputName arguments)).fault) after
  /-- The chart is shown, but what is wrong with the file's name cannot be said. -/
  | atExtension {chart : String} {ext : Raw} : desk.strict = true →
      Draws reader desk arguments chart → ¬NamesPage (outputName arguments) →
      IsExtension (outputName arguments) ext → ¬ext.IsText →
      Broken (.error (unsupportedText (outputName arguments)).fault)
        (desk.say (Raw.ofText (chart ++ "\n")))

end

inductive Outcome where
  | failed
  | shown
  | saved
  | broken
  deriving DecidableEq, Repr

def Ends (reader : Reader) (desk : Desk) (arguments : List Raw)
    (result : Except Fault Nat × Desk) : Outcome → Prop
  | .failed => Failed reader desk arguments result.1 result.2
  | .shown => Shown reader desk arguments result.1 result.2
  | .saved => Saved reader desk arguments result.1 result.2
  | .broken => Broken reader desk arguments result.1 result.2

section

variable {reader : Reader} {desk after : Desk} {arguments : List Raw} {result : Except Fault Nat}

theorem Reads.unique {x y : Except Fault String} (hx : Reads reader desk arguments x)
    (hy : Reads reader desk arguments y) : x = y := by
  obtain ⟨-, -, name, bytes, hfile, hbytes, rfl⟩ := hx
  obtain ⟨-, -, name', bytes', hfile', hbytes', rfl⟩ := hy
  cases hfile.symm.trans hfile'
  cases hbytes.symm.trans hbytes'
  rfl

theorem Failed.status_ne (h : Failed reader desk arguments result after) : result ≠ .ok 0 := by
  rcases h.status with ⟨rfl, -⟩ | ⟨fault, rfl, -⟩
  · decide
  · simp

theorem Shown.not_saved (h : Shown reader desk arguments result after) :
    ¬Saved reader desk arguments result after := by
  intro hsaved
  rcases h.text with ⟨hhelp, -⟩ | ⟨hname, -⟩
  · obtain ⟨-, -, -, ⟨-, -, -, ⟨hnohelp, -⟩, -⟩, -⟩ := hsaved.file
    exact hnohelp hhelp
  · exact hname hsaved.name

/-- A run breaks off only after the code was read and drawn and the page was opened. -/
theorem Broken.result_eq (h : Broken reader desk arguments result after) :
    ∃ (raw : Raw) (chart : String), result = .error raw.fault ∧
      Draws reader desk arguments chart := by
  cases h with
  | atTitle hdraws => exact ⟨_, _, rfl, hdraws⟩
  | atName _ hdraws => exact ⟨_, _, rfl, hdraws⟩
  | atExtension _ hdraws => exact ⟨_, _, rfl, hdraws⟩

theorem Broken.status_ne (h : Broken reader desk arguments result after) : result ≠ .ok 0 := by
  obtain ⟨raw, chart, rfl, -⟩ := h.result_eq
  simp

theorem Broken.not_failed (h : Broken reader desk arguments result after) :
    ¬Failed reader desk arguments result after := by
  intro hfailed
  obtain ⟨raw, chart, rfl, code, source, τ, hreads, -⟩ := h.result_eq
  have hstops : raw.fault.stopsRun = false := rfl
  rcases hfailed.status with ⟨hresult, -⟩ | ⟨fault, hresult, hfault⟩
  · cases hresult
  · cases hresult
    cases hfault with
    | reading hfails => cases hreads.unique hfails
    | drawing _ _ _ hfault => exact Bool.false_ne_true (hstops.symm.trans hfault)
    | opening _ _ _ hfault => exact Bool.false_ne_true (hstops.symm.trans hfault)

theorem Ends.unique {result : Except Fault Nat × Desk} {a b : Outcome}
    (ha : Ends reader desk arguments result a) (hb : Ends reader desk arguments result b) :
    a = b := by
  cases a with
  | failed =>
    cases b with
    | failed => rfl
    | shown => exact absurd hb.status ha.status_ne
    | saved => exact absurd hb.status ha.status_ne
    | broken => exact absurd ha hb.not_failed
  | shown =>
    cases b with
    | failed => exact absurd ha.status hb.status_ne
    | shown => rfl
    | saved => exact absurd hb ha.not_saved
    | broken => exact absurd ha.status hb.status_ne
  | saved =>
    cases b with
    | failed => exact absurd ha.status hb.status_ne
    | shown => exact absurd ha hb.not_saved
    | saved => rfl
    | broken => exact absurd ha.status hb.status_ne
  | broken =>
    cases b with
    | failed => exact absurd hb ha.not_failed
    | shown => exact absurd hb.status ha.status_ne
    | saved => exact absurd hb.status ha.status_ne
    | broken => rfl

end

end CommandLine
end CodeChart
