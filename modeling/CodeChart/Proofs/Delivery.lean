import CodeChart.CommandLine.Program
import CodeChart.Proofs.RawTexts

/-! Charts delivered at a desk. A page is opened, which empties it, and then written piece by piece,
so a piece that cannot be encoded leaves the pieces before it behind. -/
namespace CodeChart

/-- The faults of code that cannot be drawn and of files that cannot be opened. -/
def Fault.stopsRun : Fault → Bool
  | .badCode | .nothingToChart _ | .backslashInField | .tooManyDigits _ | .noSuchFile _
  | .isDirectory _ | .notDirectory _ | .zeroInName => true
  | _ => false

namespace CommandLine

open Text (Sign Raw utf8)

/-- The part of a name after its last dot; a name without a dot is all extension. -/
def IsExtension (name ext : Raw) : Prop :=
  .char '.' ∉ ext ∧ (name = ext ∨ ∃ before, name = before ++ .char '.' :: ext)

def NamesPage (name : Raw) : Prop := ∃ ext ∈ ["html", "htm"], IsExtension name (Raw.ofText ext)

/-- The title is the field or, where no field is given, the part of the file's name after its last
slash. -/
def Titled (field name title : Raw) : Prop :=
  (field ≠ [] ∧ title = field) ∨
    (field = [] ∧ .char '/' ∉ title ∧
      (name = title ∨ ∃ before, name = before ++ .char '/' :: title))

theorem titled_iff {field name title : Raw} :
    Titled field name title ↔ Page.title field name = title := by
  unfold Titled Page.title
  by_cases hfield : field = []
  · rw [if_pos (List.isEmpty_iff.2 hfield), Page.baseName, Raw.afterLast_eq_iff]
    simp [hfield]
  · rw [if_neg (mt List.isEmpty_iff.1 hfield), eq_comm]
    simp [hfield]

section

variable (d : Directory) (p : Path) (bytes bytes' : List UInt8)

theorem lookup_map_same {files : List (Path × List UInt8)} (h : (files.lookup p).isSome) :
    (files.map fun f => if f.1 = p then (p, bytes) else f).lookup p = some bytes := by
  induction files with
  | nil => cases h
  | cons f rest ih =>
    by_cases hf : f.1 = p
    · simp [hf]
    · have hne : (p == f.1) = false := by simpa using fun heq => hf heq.symm
      rw [List.lookup_cons, hne] at h
      rw [List.map_cons, if_neg hf, List.lookup_cons, hne]
      exact ih h

theorem lookup_map_other (files : List (Path × List UInt8)) {q : Path} (h : q ≠ p) :
    (files.map fun f => if f.1 = p then (p, bytes) else f).lookup q = files.lookup q := by
  induction files with
  | nil => rfl
  | cons f rest ih =>
    rw [List.map_cons, List.lookup_cons, List.lookup_cons, ih]
    by_cases hf : f.1 = p
    · have hne : (q == p) = false := by simpa using h
      rw [if_pos hf, hf, hne]
    · rw [if_neg hf]

@[simp] theorem get?_put : (d.put p bytes).get? p = some bytes := by
  unfold Directory.put
  by_cases h : d.isFile p = true
  · rw [if_pos h]
    exact lookup_map_same p bytes h
  · have hnone : d.files.lookup p = none := by
      rw [Directory.isFile, Directory.get?, Option.not_isSome_iff_eq_none] at h
      exact h
    rw [if_neg h, Directory.get?, List.lookup_append, hnone]
    simp

theorem get?_put_of_ne {q : Path} (h : q ≠ p) : (d.put p bytes).get? q = d.get? q := by
  unfold Directory.put
  by_cases hfile : d.isFile p = true
  · rw [if_pos hfile]
    exact lookup_map_other p bytes d.files h
  · have hne : (q == p) = false := by simpa using h
    rw [if_neg hfile, Directory.get?, List.lookup_append, List.lookup_cons, hne]
    simp [Directory.get?]

@[simp] theorem put_put : (d.put p bytes).put p bytes' = d.put p bytes' := by
  have hfile : (d.put p bytes).isFile p = true := by
    rw [Directory.isFile, get?_put]
    rfl
  rw [Directory.put, if_pos hfile]
  unfold Directory.put
  by_cases h : d.isFile p = true
  · rw [if_pos h, if_pos h, List.map_map]
    congr 2
    funext f
    by_cases hf : f.1 = p <;> simp [hf]
  · have hnone : ∀ f ∈ d.files, f.1 ≠ p := by
      rw [Directory.isFile, Directory.get?, Option.not_isSome_iff_eq_none,
        List.lookup_eq_none_iff] at h
      intro f hf heq
      simpa [heq] using h f hf
    have hsame : (d.files.map fun f => if f.1 = p then (p, bytes') else f) = d.files := by
      conv_rhs => rw [← List.map_id d.files]
      exact List.map_congr_left fun f hf => if_neg (hnone f hf)
    rw [if_neg h, if_neg h, List.map_append, hsame]
    simp

end

/-- One file has been written, and every other one is as it was. -/
structure Directory.Wrote (before after : Directory) (p : Path) (bytes : List UInt8) : Prop where
  written : after.get? p = some bytes
  others : ∀ q, q ≠ p → after.get? q = before.get? q

theorem wrote_put (d : Directory) (p : Path) (bytes : List UInt8) :
    d.Wrote (d.put p bytes) p bytes :=
  ⟨get?_put d p bytes, fun _ h => get?_put_of_ne d p bytes h⟩

section

variable {α β : Type} {desk after : Desk} {act : ExceptT Fault (StateM Desk) α}
  {next : α → ExceptT Fault (StateM Desk) β}

theorem run_bind_ok {a : α} (h : act.run.run desk = (.ok a, after)) :
    (act >>= next).run.run desk = (next a).run.run after := by
  rw [ExceptT.run_bind, StateT.run_bind, h]
  rfl

end

def Desk.say (desk : Desk) (text : Raw) : Desk := { desk with said := desk.said ++ text }

def Desk.put (desk : Desk) (p : Path) (bytes : List UInt8) : Desk :=
  { desk with directory := desk.directory.put p bytes }

variable {desk : Desk}

theorem say_ok (desk : Desk) {text : Raw} (h : desk.strict = true → text.IsText) :
    (Desk.world.say text).run.run desk = (.ok (), desk.say text) := by
  refine (run_bind_ok rfl).trans ?_
  by_cases hstrict : desk.strict = true
  · obtain ⟨text, rfl⟩ := h hstrict
    rw [if_pos hstrict, Raw.encode_ofText]
    rfl
  · rw [if_neg hstrict]
    rfl

theorem create_ok {name : Raw} {p : Path} (h : desk.directory.place name = .ok p) :
    (Desk.world.create name).run.run desk = (.ok p, desk.put p []) := by
  refine (run_bind_ok rfl).trans ?_
  rw [h]
  rfl

theorem writeText_ok (desk : Desk) (p : Path) (bytes : List UInt8) (text : String) :
    (writeText Desk.world p (Raw.ofText text)).run.run (desk.put p bytes)
      = (.ok (), desk.put p (bytes ++ utf8 text)) := by
  unfold writeText
  rw [Raw.encode_ofText]
  change (Except.ok (), Desk.put (desk.put p bytes) p
    (((desk.put p bytes).directory.get? p).getD [] ++ utf8 text)) = _
  simp [Desk.put]

theorem writeTexts_ok (desk : Desk) (p : Path) (texts : List String) (bytes : List UInt8) :
    ((texts.map Raw.ofText).forM (writeText Desk.world p)).run.run (desk.put p bytes)
      = (.ok (), desk.put p (bytes ++ texts.flatMap utf8)) := by
  induction texts generalizing bytes with
  | nil =>
    rw [List.flatMap_nil, List.append_nil]
    rfl
  | cons text rest ih =>
    refine (run_bind_ok (writeText_ok desk p bytes text)).trans ?_
    rw [ih, List.flatMap_cons, List.append_assoc]

def pageBytes (title chart : String) : List UInt8 := utf8 (Page.text title chart)

section

variable {name field : Raw} {p : Path} (chart : String)

theorem writePage_of_title {title : String} (hplace : desk.directory.place name = .ok p)
    (htitle : Titled field name (Raw.ofText title)) :
    (writePage Desk.world name field chart).run.run desk
      = (Desk.world.say (savedText name)).run.run (desk.put p (pageBytes title chart)) := by
  have hpieces : Page.pieces (Page.title field name) chart
      = [Page.opening, title, Page.middle, chart, Page.closing].map Raw.ofText := by
    rw [titled_iff.1 htitle]
    rfl
  have hbytes : pageBytes title chart
      = [Page.opening, title, Page.middle, chart, Page.closing].flatMap utf8 := by
    simp [pageBytes, Page.text]
  unfold writePage
  rw [run_bind_ok (create_ok hplace), hpieces, hbytes]
  exact run_bind_ok (writeTexts_ok desk p _ [])

end

end CommandLine
end CodeChart
