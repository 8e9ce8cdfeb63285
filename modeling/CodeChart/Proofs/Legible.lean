import CodeChart.Proofs.Charts
import CodeChart.Proofs.Decoding
import CodeChart.Proofs.Programs

/-! Charts that can be read back. Names, words, parameters and labels of a chart are plain, so every
connection is read from its line. The texts of the nodes are code as it is written, line breaks
included: a text of several lines goes on behind the line of its definition. -/
namespace CodeChart.Chart

open CodeChart.Graph Code CodeChart.Chart.Flow

/-- A box without parameters, or with the mark of a branch that another one follows. -/
def Box.Marked (b : Box) : Prop := b.params = [] ∨ b.params = [("align-next", "no")]

def MarkedIn (t : Flow Box) : Prop := ∀ b ∈ places t, b.Marked

def MarkedAll (ts : List (Flow Box)) : Prop := ∀ b ∈ placesAll ts, b.Marked

theorem markedAll_cons {t : Flow Box} {ts : List (Flow Box)} :
    MarkedAll (t :: ts) ↔ MarkedIn t ∧ MarkedAll ts := by
  unfold MarkedAll MarkedIn
  rw [placesAll, List.forall_mem_append]

theorem marked_align {t : Flow Box} (h : MarkedIn t) : MarkedIn t.align := by
  cases t with
  | branch test body orelse =>
    obtain ⟨-, hrest⟩ := List.forall_mem_cons.1 h
    exact List.forall_mem_cons.2 ⟨.inr rfl, hrest⟩
  | _ => exact h

theorem markedAll_alignAll {ts : List (Flow Box)} (h : MarkedAll ts) : MarkedAll (alignAll ts) := by
  fun_induction alignAll ts with
  | case1 t u rest ih =>
    obtain ⟨ht, hrest⟩ := markedAll_cons.1 h
    refine markedAll_cons.2 ⟨?_, ih hrest⟩
    split
    · exact marked_align ht
    · exact ht
  | case2 ts _ => exact h

theorem markedAll_arrange (options : Options) {ts : List (Flow Box)} (h : MarkedAll ts) :
    MarkedAll (arrange options ts) := by
  unfold arrange
  split
  · exact markedAll_alignAll h
  · exact h

theorem marked_step {b : Box} (h : b.params = []) : MarkedIn (.step b) :=
  List.forall_mem_singleton.2 (.inl h)

theorem marked_loopFlow (options : Options) {test : Box} (htest : test.params = [])
    {body : List (Flow Box)} (hbody : MarkedAll body) :
    MarkedIn (loopFlow options test (orIdle body)) := by
  have hidle : MarkedAll (orIdle body) := by
    cases body with
    | nil => exact markedAll_cons.2 ⟨marked_step rfl, by simp [MarkedAll, placesAll]⟩
    | cons t rest => exact hbody
  unfold loopFlow
  split
  · exact marked_step rfl
  · exact List.forall_mem_cons.2 ⟨.inl htest, hidle⟩

theorem marked_branchFlow (options : Options) {test : Box} (htest : test.params = [])
    {body orelse : List (Flow Box)} (hbody : MarkedAll body) (horelse : MarkedAll orelse) :
    MarkedIn (branchFlow options test body orelse) := by
  unfold branchFlow
  split
  · exact marked_step rfl
  · exact marked_step rfl
  · exact List.forall_mem_cons.2 ⟨.inl htest, List.forall_mem_append.2 ⟨hbody, horelse⟩⟩

mutual

theorem outline_marked {options : Options} {code : Piece} {missing : List String} {s : Stmt}
    {t : Flow Box} (h : outline options code missing s = .ok t) : MarkedIn t := by
  cases s with
  | function isAsync line name params body decorators result =>
    cases isAsync with
    | true =>
      obtain ⟨b, hb, rfl⟩ := map_eq_ok.1 h
      exact marked_step (statementBox_params hb)
    | false =>
      obtain ⟨name, input, ts, hts, rfl⟩ := outline_function_ok h
      have hbody := markedAll_arrange options (outlines_marked hts)
      refine List.forall_mem_cons.2 ⟨.inl rfl, List.forall_mem_cons.2 ⟨.inl rfl, ?_⟩⟩
      exact List.forall_mem_append.2 ⟨hbody, List.forall_mem_singleton.2 (.inl rfl)⟩
  | forEach isAsync target source body orelse =>
    cases isAsync with
    | true =>
      obtain ⟨b, hb, rfl⟩ := map_eq_ok.1 h
      exact marked_step (statementBox_params hb)
    | false =>
      obtain ⟨test, ts, -, hts, rfl⟩ := bind₂_eq_ok.1 h
      exact marked_loopFlow options rfl (markedAll_arrange options (outlines_marked hts))
  | whileTrue test body orelse =>
    obtain ⟨test, ts, -, hts, rfl⟩ := bind₂_eq_ok.1 h
    exact marked_loopFlow options rfl (markedAll_arrange options (outlines_marked hts))
  | branch test body orelse =>
    obtain ⟨test, ts, us, -, hts, hus, rfl⟩ := outline_branch_ok h
    exact marked_branchFlow options rfl (markedAll_arrange options (outlines_marked hts))
      (markedAll_arrange options (outlines_marked hus))
  | giveBack value =>
    cases value with
    | none =>
      cases h
      exact List.forall_mem_singleton.2 (.inl rfl)
    | some e =>
      obtain ⟨text, -, rfl⟩ := map_eq_ok.1 h
      exact List.forall_mem_cons.2 ⟨.inl rfl, List.forall_mem_singleton.2 (.inl rfl)⟩
  | select subject cases =>
    obtain ⟨first, rest, hts, rfl⟩ := outline_select_ok h
    exact outlineCases_marked hts
  | stop =>
    obtain ⟨text, -, rfl⟩ := map_eq_ok.1 h
    exact List.forall_mem_singleton.2 (.inl rfl)
  | next =>
    obtain ⟨text, -, rfl⟩ := map_eq_ok.1 h
    exact List.forall_mem_singleton.2 (.inl rfl)
  | expr value =>
    obtain ⟨b, hb, rfl⟩ := map_eq_ok.1 h
    split at hb
    · exact marked_step (statementBox_params hb)
    · exact marked_step (valueBox_params hb)
  | lacking part s => exact outline_marked (s := s) h
  | _ =>
    obtain ⟨b, hb, rfl⟩ := map_eq_ok.1 h
    exact marked_step (statementBox_params hb)

theorem outlines_marked {options : Options} {ss : List Stmt} {ts : List (Flow Box)}
    (h : outlines options ss = .ok ts) : MarkedAll ts := by
  cases ss with
  | nil =>
    cases h
    exact fun b hb => absurd hb List.not_mem_nil
  | cons s rest =>
    obtain ⟨t, us, ht, hus, rfl⟩ := bind₂_eq_ok.1 h
    exact markedAll_cons.2 ⟨outline_marked ht, outlines_marked hus⟩

theorem outlineCase_marked {subject code : Piece} {missing : List String} {c : Case} {t : Flow Box}
    (h : outlineCase subject code missing c = .ok t) : MarkedIn t := by
  cases c with
  | mk pattern guard body =>
    obtain ⟨test, ts, hts, rfl⟩ := outlineCase_ok h
    exact List.forall_mem_cons.2 ⟨.inl rfl, outlines_marked hts⟩
  | lacking part c => exact outlineCase_marked (c := c) h

theorem outlineCases_marked {subject : Piece} {cs : List Case} {ts : List (Flow Box)}
    (h : outlineCases subject cs = .ok ts) : MarkedAll ts := by
  cases cs with
  | nil =>
    cases h
    exact fun b hb => absurd hb List.not_mem_nil
  | cons c rest =>
    obtain ⟨t, us, ht, hus, rfl⟩ := bind₂_eq_ok.1 h
    exact markedAll_cons.2 ⟨outlineCase_marked ht, outlineCases_marked hus⟩

end

theorem outlinePieces_marked {options : Options} {pieces : List Piece} {ts : List (Flow Box)}
    (h : outlinePieces options pieces = .ok ts) : MarkedAll ts := by
  induction pieces generalizing ts with
  | nil =>
    cases h
    exact fun b hb => absurd hb List.not_mem_nil
  | cons p rest ih =>
    obtain ⟨t, us, ht, hus, rfl⟩ := bind₂_eq_ok.1 h
    refine markedAll_cons.2 ⟨?_, ih hus⟩
    cases p with
    | stmt s => exact outline_marked ht
    | expr e =>
      obtain ⟨b, hb, rfl⟩ := map_eq_ok.1 ht
      exact marked_step (valueBox_params hb)
    | _ =>
      obtain ⟨b, hb, rfl⟩ := map_eq_ok.1 ht
      exact marked_step (statementBox_params hb)

def arrowLabels : List (List String) := [[], ["left"], ["yes"], ["no"]]

def Vertex.Labelled {V : Type} (x : Vertex V) : Prop := ∀ a ∈ x.arrows, a.labels ∈ arrowLabels

section

variable {V : Type}

theorem labelled_lead {next : Option V} {x : Vertex V} (h : x.Labelled) :
    (x.lead next).Labelled := by
  intro a ha
  obtain ⟨b, hb, hlabels, -⟩ := arrows_lead ha
  rw [hlabels]
  exact h b hb

theorem labelled_map_lead {next : Option V} {xs : List (Vertex V)} (h : ∀ x ∈ xs, x.Labelled) :
    ∀ x ∈ xs.map (Vertex.lead next), x.Labelled := by
  intro x hx
  obtain ⟨y, hy, rfl⟩ := List.mem_map.1 hx
  exact labelled_lead (h y hy)

theorem labelled_box {v : V} {out : Option (Arrow V)} (h : ∀ a ∈ out, a.labels ∈ arrowLabels) :
    (Vertex.box v out).Labelled := fun a ha => h a (Option.mem_toList.1 ha)

theorem labelled_test {v : V} {yes : Option (Option V)} {no : Option V} :
    (Vertex.test v yes no).Labelled := by
  intro a ha
  rcases mem_arrows_test.1 ha with ⟨y, -, rfl⟩ | rfl
  · exact List.mem_of_elem_eq_true rfl
  · exact List.mem_of_elem_eq_true rfl

mutual

theorem vertices_labelled {direction : List String} (hd : direction ∈ arrowLabels) (t : Flow V) :
    ∀ x ∈ vertices direction t, x.Labelled := by
  have hexit : ∀ v : V, ∀ labels ∈ arrowLabels, ∀ target,
      (Vertex.box v (some ⟨labels, target⟩)).Labelled :=
    fun v labels h target => labelled_box fun a ha => by cases ha; exact h
  have hend : ∀ v : V, (Vertex.box v none).Labelled := fun v => labelled_box (by simp)
  have hplain : ([] : List String) ∈ arrowLabels := List.mem_cons_self
  cases t with
  | step v => exact List.forall_mem_singleton.2 (hexit v direction hd none)
  | merged isBranch v => exact List.forall_mem_singleton.2 (hexit v [] hplain none)
  | jump v => exact List.forall_mem_singleton.2 (hend v)
  | halt output finish =>
    cases output with
    | none => exact List.forall_mem_singleton.2 (hend finish)
    | some v =>
      exact List.forall_mem_cons.2 ⟨hexit v [] hplain _, List.forall_mem_singleton.2 (hend finish)⟩
  | branch test body orelse =>
    refine List.forall_mem_cons.2 ⟨labelled_test, List.forall_mem_append.2 ?_⟩
    exact ⟨verticesAll_labelled hplain body, verticesAll_labelled hplain orelse⟩
  | loop test body =>
    refine List.forall_mem_cons.2 ⟨labelled_test, labelled_map_lead ?_⟩
    exact verticesAll_labelled (by decide) body
  | routine start input body finish =>
    have hinput : (Vertex.box input ((entryOf body).map fun e => ⟨[], some e⟩)).Labelled := by
      cases entryOf body with
      | none => exact hend input
      | some e => exact hexit input [] hplain _
    refine List.forall_mem_cons.2 ⟨hexit start [] hplain _, List.forall_mem_cons.2 ⟨hinput, ?_⟩⟩
    refine List.forall_mem_append.2 ⟨labelled_map_lead (verticesAll_labelled hplain body), ?_⟩
    exact List.forall_mem_singleton.2 (hexit finish [] hplain none)
  | case test body =>
    exact List.forall_mem_cons.2 ⟨labelled_test, verticesAll_labelled hplain body⟩
  | select first rest =>
    cases rest with
    | nil => exact vertices_labelled hplain first
    | cons u rest =>
      rw [vertices_select, verticesAll_cons [] first (by simp)]
      exact List.forall_mem_append.2 ⟨labelled_map_lead (vertices_labelled hplain first),
        verticesAll_labelled hplain (u :: rest)⟩

theorem verticesAll_labelled {direction : List String} (hd : direction ∈ arrowLabels)
    (ts : List (Flow V)) :
    ∀ x ∈ verticesAll direction ts, x.Labelled := by
  cases ts with
  | nil => simp
  | cons t rest =>
    cases rest with
    | nil => exact vertices_labelled hd t
    | cons u rest =>
      rw [verticesAll_cons direction t (by simp)]
      exact List.forall_mem_append.2 ⟨labelled_map_lead (vertices_labelled List.mem_cons_self t),
        verticesAll_labelled hd (u :: rest)⟩

end

end

theorem Numbered.isWord_name {τ : Store} {s : Site} (h : Numbered τ s) :
    isWord Char.isAlphanum (τ.node s.node).name.toList = true := by
  obtain ⟨letters, hletters, hname⟩ := h
  have hall : ∀ l ∈ ["st", "e", "op", "io", "sub", "cond"], isWord Char.isAlphanum l.toList
      = true := by
    decide
  have hfront := hall letters hletters
  rw [hname, isWord_iff, String.toList_append]
  refine ⟨by simp [(isWord_iff.1 hfront).1], List.forall_mem_append.2 ⟨(isWord_iff.1 hfront).2, ?_⟩⟩
  intro c hc
  rw [Nat.toString_eq_repr, Nat.toList_repr] at hc
  have hdigit := Nat.isDigit_of_mem_toDigits (by decide) (by decide) hc
  simp [Char.isAlphanum, hdigit]

theorem plain_of_marked {v : Named} (hname : isWord Char.isAlphanum v.name.toList = true)
    (hbox : v.box.Marked) :
    v.definition.Plain where
  name := hname
  params := by
    change ∀ p ∈ v.box.params, _
    rcases hbox with hparams | hparams
    · simp [hparams]
    · rw [hparams]
      decide
  word := by
    change isWord Char.isAlpha v.box.word.toList = true
    unfold Box.word
    cases v.box.shape with
    | none => decide
    | some shape => cases shape <;> decide

theorem isWord_of_arrowLabels {labels : List String} (h : labels ∈ arrowLabels) :
    ∀ l ∈ labels, isWord Char.isAlphanum l.toList = true := by
  revert labels
  decide

theorem Charted.plain {σ τ : Store} {g : Nat} {ts : List (Flow Site)} {entry : Site}
    {options : Options} {pieces : List Piece} {flows : List (Flow Box)} (h : Charted σ τ g ts entry)
    (hspec : outlinePieces options pieces = .ok flows)
    (hboxes : mapAll (boxAt τ) ts = arrange options flows) {order : List Nat}
    (hwalk : Walked σ τ (verticesAll [] ts) (.node g) entry order) :
    (τ.drawing order).Plain := by
  have hd := hwalk.depicts
  have hmarked : MarkedAll (mapAll (boxAt τ) ts) := by
    rw [hboxes]
    exact markedAll_arrange options (outlinePieces_marked hspec)
  have hname : ∀ v, Reached (verticesAll [] ts) entry v →
      isWord Char.isAlphanum (τ.node v.node).name.toList = true := by
    intro v hv
    obtain ⟨x, hx, rfl⟩ := List.mem_map.1 (hv.mem hwalk.targets hwalk.entered)
    exact (h.holds.named x hx).isWord_name
  constructor
  · intro n hn
    obtain ⟨v, hv, rfl⟩ := (hd.nodes n).1 hn
    refine plain_of_marked (hname v hv) (hmarked _ ?_)
    rw [placesAll_mapAll, ← map_place_verticesAll [] ts]
    exact List.mem_map_of_mem (hv.mem hwalk.targets hwalk.entered)
  · intro k hk
    obtain ⟨x, hx, hreached, a, ha, w, hw, rfl⟩ := (hd.lines k).1 hk
    exact ⟨hname _ hreached, isWord_of_arrowLabels (verticesAll_labelled (by decide) ts x hx a ha),
      hname _ (.arrow hreached hx ha hw)⟩

/-- A drawing whose text can be read. Its lines are those of the definitions, an empty line, and one
line for each connection; the connections are read behind the last empty line. Line by line, the
drawing is read back if and only if no text of a node has a line break. A reader that takes a line
which is no definition for more of the text before it reads the drawing back if and only if no
further line of a text looks like a definition. -/
structure Legible (d : Drawing) : Prop where
  names : (d.nodes.map Definition.name).Nodup
  once : d.lines.Nodup
  plain : d.Plain
  lines : linesOf d.text.toList = d.nodes.flatMap Definition.lines ++ [] :: d.lines.map Line.chars
  connections : Drawing.connections? d.text = some d.lines
  byLine : Drawing.ofText? d.text = some d ↔ ∀ n ∈ d.nodes, '\n' ∉ n.text.toList
  gathered : Drawing.gather? d.text = some d ↔
    ∀ n ∈ d.nodes, ∀ line ∈ n.further, Definition.ofLine? line = none

theorem charted_of_chart {source : Source} {σ τ : Store} (hσ : σ.Sound) {g : Nat}
    (h : source.chart σ = .ok g τ) :
    ∃ pieces flows ts entry, source.pieces = .ok pieces ∧
      outlinePieces source.options pieces = .ok flows ∧
      Charted σ τ g ts entry ∧ mapAll (boxAt τ) ts = arrange source.options flows := by
  unfold Source.chart at h
  cases hpieces : source.pieces with
  | error f =>
    rw [hpieces] at h
    cases h
  | ok pieces =>
    rw [hpieces] at h
    have hchart := chartOf_realizes source.options (pieces_proper hpieces).1 hσ
    cases hspec : outlinePieces source.options pieces with
    | error f =>
      rw [hspec] at hchart
      obtain ⟨σ', hrun, -⟩ := hchart
      cases hrun.symm.trans h
    | ok flows =>
      rw [hspec] at hchart
      obtain ⟨g', τ', hrun, ts, entry, hcharted, hboxes⟩ := hchart
      cases hrun.symm.trans h
      exact ⟨pieces, flows, ts, entry, rfl, hspec, hcharted, hboxes⟩

/-- The text of every chart can be read. -/
theorem chart_legible (source : Source) (σ : Store) (hσ : σ.Sound) (g : Nat) (τ : Store)
    (h : source.chart σ = .ok g τ) :
    ∃ order τ', chartText g τ = .ok (τ.drawing order).text τ' ∧ Legible (τ.drawing order) := by
  obtain ⟨pieces, flows, ts, entry, -, hspec, hcharted, hboxes⟩ := charted_of_chart hσ h
  obtain ⟨order, τ', hwalk, hdraw, -⟩ := hcharted.chartText_run
  have hplain := hcharted.plain hspec hboxes hwalk
  exact ⟨order, τ', hdraw, hwalk.depicts.names, hwalk.depicts.once, hplain, hplain.linesOf_text,
    hplain.connections?_text, hplain.ofText?_text, hplain.gather?_text⟩

/-- A class with a method; an empty line stands between the two in the text of the class. -/
def classWithMethod : Source where
  code := "class A:\n    def f(self):\n        x\n"

theorem classWithMethod_chart : ∃ g τ, classWithMethod.chart {} = .ok g τ := by
  have hsome : (outcome classWithMethod.chart {}).isSome := by decide +kernel
  obtain ⟨g, hg⟩ := Option.isSome_iff_exists.1 hsome
  obtain ⟨τ, hchart⟩ := exists_of_outcome hg
  exact ⟨g, τ, hchart⟩

theorem chart_legible_class : ∃ g τ order τ', classWithMethod.chart {} = .ok g τ ∧
    chartText g τ = .ok (τ.drawing order).text τ' ∧ Legible (τ.drawing order) := by
  obtain ⟨g, τ, hchart⟩ := classWithMethod_chart
  obtain ⟨order, τ', hdraw, hlegible⟩ := chart_legible classWithMethod {} sound_empty g τ hchart
  exact ⟨g, τ, order, τ', hchart, hdraw, hlegible⟩

/-- The first empty line of a chart need not be the one before the connections: the chart of a class
with a method is not read back line by line. -/
theorem class_not_read_by_line : ∃ g τ order τ', classWithMethod.chart {} = .ok g τ ∧
    chartText g τ = .ok (τ.drawing order).text τ' ∧
    Drawing.ofText? (τ.drawing order).text ≠ some (τ.drawing order) := by
  obtain ⟨g, τ, hchart⟩ := classWithMethod_chart
  obtain ⟨pieces, flows, ts, entry, hpieces, hspec, hcharted, hboxes⟩ :=
    charted_of_chart sound_empty hchart
  obtain ⟨order, τ', hwalk, hdraw, -⟩ := hcharted.chartText_run
  have hplain := hcharted.plain hspec hboxes hwalk
  have hfirst : (namedAt τ entry).definition ∈ (τ.drawing order).nodes :=
    List.mem_of_mem_head? hwalk.depicts.first
  refine ⟨g, τ, order, τ', hchart, hdraw, fun hread => hplain.ofText?_text.1 hread _ hfirst ?_⟩
  -- the first node shows the first box of the outline, which can be computed
  have hentry : entryOf (arrange classWithMethod.options flows) = some (boxAt τ entry) := by
    rw [← hboxes, entryOf_mapAll, hcharted.first]
    rfl
  have hbreak : (classWithMethod.pieces.toOption.bind fun pieces =>
      (outlinePieces classWithMethod.options pieces).toOption.bind fun flows =>
        (entryOf (arrange classWithMethod.options flows)).map fun b =>
          b.text.toList.contains '\n') =
      some true := by
    decide +kernel
  rw [hpieces] at hbreak
  simp only [Except.toOption, Option.bind_some, hspec, hentry, Option.map_some, Option.some.injEq,
    List.contains_iff_mem] at hbreak
  exact hbreak

end CodeChart.Chart
