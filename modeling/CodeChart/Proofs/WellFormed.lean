import CodeChart.Proofs.Charts
import CodeChart.Proofs.Programs
import Mathlib.Logic.Relation

/-! Well-formed charts. In a chart of code that can be read, lines lead between defined nodes, every
node is reached, a condition has one line for `yes` and at most one for `no`, and another node has
at most one line. Nothing follows a jump or the end of a return. -/
namespace CodeChart.Graph

def Drawing.linesOf (d : Drawing) (name : String) : List Line := d.lines.filter (·.source = name)

/-- A drawing in proper form; `final` names the nodes that nothing may follow. -/
structure WellFormed (d : Drawing) (final : String → Prop) : Prop where
  names : (d.nodes.map Definition.name).Nodup
  ends : ∀ k ∈ d.lines, k.source ∈ d.nodes.map Definition.name ∧
    k.target ∈ d.nodes.map Definition.name
  reached : ∃ first, d.nodes.head? = some first ∧
    ∀ n ∈ d.nodes, Relation.ReflTransGen d.Leads first.name n.name
  tests : ∀ n ∈ d.nodes, n.word = "condition" → ∃ (yes : String) (no : Option String),
    (d.linesOf n.name).Perm (⟨n.name, ["yes"], yes⟩ :: no.toList.map (⟨n.name, ["no"], ·⟩))
  others : ∀ n ∈ d.nodes, n.word ≠ "condition" → (d.linesOf n.name).length ≤ 1
  finals : ∀ name, final name → d.linesOf name = []

theorem WellFormed.mono {d : Drawing} {p q : String → Prop} (h : WellFormed d p)
    (hpq : ∀ name, q name → p name) : WellFormed d q :=
  { h with finals := fun name hname => h.finals name (hpq name hname) }

end CodeChart.Graph

namespace CodeChart.Chart

open CodeChart.Graph Code

def Box.isOpen (b : Box) : Bool :=
  match b.shape with
  | none | some .jump | some .returnEnd => false
  | some _ => true

/-- A test is a condition whose answer `yes` leads on; a box that leads on is open. -/
def Vertex.Styled : Vertex Box → Prop
  | .box b none => b.shape ≠ none
  | .box b (some _) => b.isOpen = true
  | .test b yes _ => b.shape = none ∧ ∃ e, yes = some (some e)

namespace Flow

mutual

/-- Every box stands where its shape belongs, and no body of a test is empty. -/
def Styled : Flow Box → Prop
  | .step b => b.isOpen = true
  | .merged _ b => b.isOpen = true
  | .jump b => b.shape ≠ none
  | .halt output finish => (∀ b ∈ output, b.isOpen = true) ∧ finish.shape ≠ none
  | .branch test body orelse => test.shape = none ∧ body ≠ [] ∧ StyledAll body ∧ StyledAll orelse
  | .loop test body => test.shape = none ∧ body ≠ [] ∧ StyledAll body
  | .routine start input body finish =>
    start.isOpen = true ∧ input.isOpen = true ∧ StyledAll body ∧ finish.isOpen = true
  | .case test body => test.shape = none ∧ body ≠ [] ∧ StyledAll body
  | .select first rest => Styled first ∧ StyledAll rest

def StyledAll : List (Flow Box) → Prop
  | [] => True
  | t :: rest => Styled t ∧ StyledAll rest

end

theorem styled_lead {next : Option Box} {x : Vertex Box} (h : x.Styled) : (x.lead next).Styled := by
  rcases x with ⟨b, _ | a⟩ | ⟨b, yes, no⟩
  · exact h
  · exact h
  · obtain ⟨hb, e, rfl⟩ := h
    exact ⟨hb, e, rfl⟩

theorem styled_map_lead {next : Option Box} {xs : List (Vertex Box)} (h : ∀ x ∈ xs, x.Styled) :
    ∀ x ∈ xs.map (Vertex.lead next), x.Styled := by
  intro x hx
  obtain ⟨y, hy, rfl⟩ := List.mem_map.1 hx
  exact styled_lead (h y hy)

theorem styled_input {b : Box} (h : b.isOpen = true) (body : List (Flow Box)) :
    (Vertex.box b ((entryOf body).map fun e => ⟨[], some e⟩)).Styled := by
  cases entryOf body with
  | none =>
    intro hshape
    simp [Box.isOpen, hshape] at h
  | some e => exact h

theorem styled_test {b : Box} (h : b.shape = none) {body : List (Flow Box)} (hne : body ≠ [])
    (no : Option Box) : (Vertex.test b (some (entryOf body)) no).Styled := by
  obtain ⟨t, rest, rfl⟩ := List.exists_cons_of_ne_nil hne
  exact ⟨h, t.entry, rfl⟩

mutual

theorem vertices_styled (direction : List String) (t : Flow Box) (h : t.Styled) :
    ∀ x ∈ vertices direction t, x.Styled := by
  cases t with
  | step b => exact List.forall_mem_singleton.2 h
  | merged isBranch b => exact List.forall_mem_singleton.2 h
  | jump b => exact List.forall_mem_singleton.2 h
  | halt output finish =>
    cases output with
    | none => exact List.forall_mem_singleton.2 h.2
    | some b => exact List.forall_mem_cons.2 ⟨h.1 b rfl, List.forall_mem_singleton.2 h.2⟩
  | branch test body orelse =>
    obtain ⟨htest, hne, hbody, horelse⟩ := h
    refine List.forall_mem_cons.2 ⟨styled_test htest hne _, List.forall_mem_append.2 ?_⟩
    exact ⟨verticesAll_styled [] body hbody, verticesAll_styled [] orelse horelse⟩
  | loop test body =>
    obtain ⟨htest, hne, hbody⟩ := h
    refine List.forall_mem_cons.2 ⟨styled_test htest hne _, styled_map_lead ?_⟩
    exact verticesAll_styled ["left"] body hbody
  | routine start input body finish =>
    obtain ⟨hstart, hinput, hbody, hfinish⟩ := h
    refine List.forall_mem_cons.2 ⟨hstart, List.forall_mem_cons.2 ⟨styled_input hinput body, ?_⟩⟩
    refine List.forall_mem_append.2 ⟨styled_map_lead (verticesAll_styled [] body hbody), ?_⟩
    simpa [Vertex.Styled] using hfinish
  | case test body =>
    obtain ⟨htest, hne, hbody⟩ := h
    obtain ⟨t, rest, rfl⟩ := List.exists_cons_of_ne_nil hne
    refine List.forall_mem_cons.2 ⟨⟨htest, t.entry, rfl⟩, ?_⟩
    exact verticesAll_styled [] (t :: rest) hbody
  | select first rest =>
    cases rest with
    | nil => exact vertices_styled [] first h.1
    | cons u rest =>
      rw [vertices_select, verticesAll_cons [] first (by simp)]
      exact List.forall_mem_append.2 ⟨styled_map_lead (vertices_styled [] first h.1),
        verticesAll_styled [] (u :: rest) h.2⟩

theorem verticesAll_styled (direction : List String) (ts : List (Flow Box)) (h : StyledAll ts) :
    ∀ x ∈ verticesAll direction ts, x.Styled := by
  cases ts with
  | nil => simp
  | cons t rest =>
    cases rest with
    | nil => exact vertices_styled direction t h.1
    | cons u rest =>
      rw [verticesAll_cons direction t (by simp)]
      exact List.forall_mem_append.2 ⟨styled_map_lead (vertices_styled [] t h.1),
        verticesAll_styled direction (u :: rest) h.2⟩

end

theorem styled_align {t : Flow Box} (h : t.Styled) : t.align.Styled := by
  cases t <;> exact h

theorem styledAll_alignAll {ts : List (Flow Box)} (h : StyledAll ts) : StyledAll (alignAll ts) := by
  fun_induction alignAll ts with
  | case1 t u rest ih =>
    refine ⟨?_, ih h.2⟩
    split
    · exact styled_align h.1
    · exact h.1
  | case2 ts _ => exact h

end Flow

open CodeChart.Chart.Flow

theorem styledAll_arrange (options : Options) {ts : List (Flow Box)} (h : StyledAll ts) :
    StyledAll (arrange options ts) := by
  unfold arrange
  split
  · exact styledAll_alignAll h
  · exact h

theorem styled_loopFlow (options : Options) {test : Box} (htest : test.shape = none)
    {body : List (Flow Box)} (hbody : StyledAll body) :
    (loopFlow options test (orIdle body)).Styled := by
  have hidle : orIdle body ≠ [] ∧ StyledAll (orIdle body) := by
    cases body with
    | nil => exact ⟨by simp [orIdle], rfl, trivial⟩
    | cons t rest => exact ⟨List.cons_ne_nil t rest, hbody⟩
  unfold loopFlow
  split
  · rfl
  · exact ⟨htest, hidle⟩

theorem styled_branchFlow (options : Options) {test : Box} (htest : test.shape = none)
    {body orelse : List (Flow Box)} (hne : body ≠ []) (hbody : StyledAll body)
    (horelse : StyledAll orelse) : (branchFlow options test body orelse).Styled := by
  unfold branchFlow
  split
  · rfl
  · rfl
  · exact ⟨htest, hne, hbody, horelse⟩

theorem valueBox_open {code : Piece} {e : Expr} {b : Box} (h : valueBox code e = .ok b) :
    b.isOpen = true := by
  obtain ⟨shape, hshape, wording, heq⟩ := valueBox_eq code e
  rw [heq] at h
  obtain ⟨text, -, rfl⟩ := map_eq_ok.1 h
  revert shape
  simp [Box.isOpen]

theorem statementBox_open {code : Piece} {b : Box} (h : statementBox code = .ok b) :
    b.isOpen = true := by
  obtain ⟨text, -, rfl⟩ := map_eq_ok.1 h
  rfl

theorem outlines_ne_nil {options : Options} {ss : List Stmt} (hne : ss ≠ []) {ts : List (Flow Box)}
    (h : outlines options ss = .ok ts) : ts ≠ [] := by
  rw [← outlinePieces_stmts] at h
  exact outlinePieces_ne_nil (by simpa using hne) h

mutual

theorem outline_styled {options : Options} {code : Piece} {missing : List String} {s : Stmt}
    {t : Flow Box} (hs : s.Filled) (h : outline options code missing s = .ok t) : t.Styled := by
  cases s with
  | function isAsync line name params body decorators result =>
    cases isAsync with
    | true =>
      obtain ⟨b, hb, rfl⟩ := map_eq_ok.1 h
      exact statementBox_open hb
    | false =>
      obtain ⟨name, input, ts, hts, rfl⟩ := outline_function_ok h
      exact ⟨rfl, rfl, styledAll_arrange options (outlines_styled hs.2 hts), rfl⟩
  | forEach isAsync target source body orelse =>
    cases isAsync with
    | true =>
      obtain ⟨b, hb, rfl⟩ := map_eq_ok.1 h
      exact statementBox_open hb
    | false =>
      obtain ⟨test, ts, -, hts, rfl⟩ := bind₂_eq_ok.1 h
      exact styled_loopFlow options rfl (styledAll_arrange options (outlines_styled hs.2.1 hts))
  | whileTrue test body orelse =>
    obtain ⟨test, ts, -, hts, rfl⟩ := bind₂_eq_ok.1 h
    exact styled_loopFlow options rfl (styledAll_arrange options (outlines_styled hs.2.1 hts))
  | branch test body orelse =>
    obtain ⟨test, ts, us, -, hts, hus, rfl⟩ := outline_branch_ok h
    exact styled_branchFlow options rfl (arrange_ne_nil (outlines_ne_nil hs.1 hts))
      (styledAll_arrange options (outlines_styled hs.2.1 hts))
      (styledAll_arrange options (outlines_styled hs.2.2 hus))
  | giveBack value =>
    cases value with
    | none =>
      cases h
      exact ⟨by simp, by simp⟩
    | some e =>
      obtain ⟨text, -, rfl⟩ := map_eq_ok.1 h
      exact ⟨by rintro _ ⟨⟩; rfl, by simp⟩
  | select subject cases =>
    obtain ⟨first, rest, hts, rfl⟩ := outline_select_ok h
    exact outlineCases_styled hs.2 hts
  | stop =>
    obtain ⟨text, -, rfl⟩ := map_eq_ok.1 h
    simp [Flow.Styled]
  | next =>
    obtain ⟨text, -, rfl⟩ := map_eq_ok.1 h
    simp [Flow.Styled]
  | expr value =>
    obtain ⟨b, hb, rfl⟩ := map_eq_ok.1 h
    split at hb
    · exact statementBox_open hb
    · exact valueBox_open hb
  | lacking part s => exact outline_styled (s := s) hs h
  | _ =>
    obtain ⟨b, hb, rfl⟩ := map_eq_ok.1 h
    exact statementBox_open hb

theorem outlines_styled {options : Options} {ss : List Stmt} {ts : List (Flow Box)}
    (hs : FilledAll ss) (h : outlines options ss = .ok ts) : StyledAll ts := by
  cases ss with
  | nil =>
    cases h
    trivial
  | cons s rest =>
    obtain ⟨t, us, ht, hus, rfl⟩ := bind₂_eq_ok.1 h
    exact ⟨outline_styled hs.1 ht, outlines_styled hs.2 hus⟩

theorem outlineCase_styled {subject code : Piece} {missing : List String} {c : Case} {t : Flow Box}
    (hc : c.Filled) (h : outlineCase subject code missing c = .ok t) : t.Styled := by
  cases c with
  | mk pattern guard body =>
    obtain ⟨test, ts, hts, rfl⟩ := outlineCase_ok h
    exact ⟨rfl, outlines_ne_nil hc.1 hts, outlines_styled hc.2 hts⟩
  | lacking part c => exact outlineCase_styled (c := c) hc h

theorem outlineCases_styled {subject : Piece} {cs : List Case} {ts : List (Flow Box)}
    (hc : FilledCases cs) (h : outlineCases subject cs = .ok ts) : StyledAll ts := by
  cases cs with
  | nil =>
    cases h
    trivial
  | cons c rest =>
    obtain ⟨t, us, ht, hus, rfl⟩ := bind₂_eq_ok.1 h
    exact ⟨outlineCase_styled hc.1 ht, outlineCases_styled hc.2 hus⟩

end

theorem outlinePieces_styled {options : Options} {pieces : List Piece} {ts : List (Flow Box)}
    (hp : ∀ p ∈ pieces, p.Proper) (h : outlinePieces options pieces = .ok ts) : StyledAll ts := by
  induction pieces generalizing ts with
  | nil =>
    cases h
    trivial
  | cons p rest ih =>
    obtain ⟨t, us, ht, hus, rfl⟩ := bind₂_eq_ok.1 h
    obtain ⟨hp, hrest⟩ := List.forall_mem_cons.1 hp
    refine ⟨?_, ih hrest hus⟩
    cases p with
    | stmt s => exact outline_styled hp.filled ht
    | expr e =>
      obtain ⟨b, hb, rfl⟩ := map_eq_ok.1 ht
      exact valueBox_open hb
    | _ =>
      obtain ⟨b, hb, rfl⟩ := map_eq_ok.1 ht
      exact statementBox_open hb

section

variable {V : Type} {xs : List (Vertex V)} {entry : V} {f : V → Named} {d : Drawing}

def lineFrom (f : V → Named) (v : V) (a : Arrow V) : Option Line :=
  a.target.map fun w => ⟨(f v).name, a.labels, (f w).name⟩

theorem lineFrom_eq_some {v : V} {a : Arrow V} {k : Line} : lineFrom f v a = some k ↔
    ∃ w, a.target = some w ∧ k = ⟨(f v).name, a.labels, (f w).name⟩ := by
  unfold lineFrom
  rw [Option.map_eq_some_iff]
  exact exists_congr fun w => and_congr_right fun _ => eq_comm

theorem nodup_lines (x : Vertex V) : (x.arrows.filterMap (lineFrom f x.place)).Nodup := by
  have hlabels : x.arrows.Pairwise fun a b => a.labels ≠ b.labels := by
    rcases x with ⟨v, _ | a⟩ | ⟨v, _ | yes, no⟩ <;> simp [Vertex.arrows]
  rw [List.Nodup, List.pairwise_filterMap]
  refine hlabels.imp fun hab k hk k' hk' heq => hab ?_
  obtain ⟨w, -, rfl⟩ := lineFrom_eq_some.1 hk
  obtain ⟨w', -, rfl⟩ := lineFrom_eq_some.1 hk'
  simp only [Line.mk.injEq] at heq
  exact heq.2.1

variable (h : Depicts xs entry f d)
  (hnames : ∀ x ∈ xs, ∀ y ∈ xs, (f x.place).name = (f y.place).name → x = y)
include h

include hnames in
theorem Depicts.linesOf_perm {x : Vertex V} (hx : x ∈ xs) (hreached : Reached xs entry x.place) :
    (d.linesOf (f x.place).name).Perm (x.arrows.filterMap (lineFrom f x.place)) := by
  refine (List.perm_ext_iff_of_nodup (h.once.filter _) (nodup_lines x)).2 fun k => ?_
  rw [List.mem_filter, h.lines, List.mem_filterMap]
  constructor
  · rintro ⟨⟨y, hy, -, a, ha, w, hw, rfl⟩, hsource⟩
    obtain rfl := hnames y hy x hx (by simpa using hsource)
    exact ⟨a, ha, lineFrom_eq_some.2 ⟨w, hw, rfl⟩⟩
  · rintro ⟨a, ha, hk⟩
    obtain ⟨w, hw, rfl⟩ := lineFrom_eq_some.1 hk
    exact ⟨⟨x, hx, hreached, a, ha, w, hw, rfl⟩, by simp⟩

theorem Depicts.leads_to {v : V} (hv : Reached xs entry v) :
    Relation.ReflTransGen d.Leads (f entry).name (f v).name := by
  induction hv with
  | entry => exact .refl
  | arrow hreached hx ha hw ih =>
    exact ih.tail ⟨_, (h.lines _).2 ⟨_, hx, hreached, _, ha, _, hw, rfl⟩⟩

theorem Depicts.name_mem {v : V} (hv : Reached xs entry v) :
    (f v).name ∈ d.nodes.map Definition.name :=
  List.mem_map.2 ⟨_, (h.nodes _).2 ⟨v, hv, rfl⟩, rfl⟩

end

theorem word_ne_condition (shape : Shape) : shape.word ≠ "condition" := by
  cases shape <;> decide

theorem word_eq_condition {b : Box} : b.word = "condition" ↔ b.shape = none := by
  unfold Box.word
  cases b.shape with
  | none => simp
  | some shape => simp [word_ne_condition shape]

theorem Depicts.wellFormed {V : Type} {xs : List (Vertex V)} {entry : V} {f : V → Named}
    {d : Drawing} (h : Depicts xs entry f d)
    (hnames : ∀ x ∈ xs, ∀ y ∈ xs, (f x.place).name = (f y.place).name → x = y)
    (htargets : Flow.TargetsIn (· ∈ xs.map Vertex.place) xs) (hentry : entry ∈ xs.map Vertex.place)
    (hstyled : ∀ x ∈ xs, (x.map fun v => (f v).box).Styled) :
    WellFormed d fun name => ∃ v, Reached xs entry v ∧ name = (f v).name ∧
      ((f v).box.shape = some .jump ∨ (f v).box.shape = some .returnEnd) where
  names := h.names
  ends k hk := by
    obtain ⟨x, hx, hreached, a, ha, w, hw, rfl⟩ := (h.lines k).1 hk
    exact ⟨h.name_mem hreached, h.name_mem (.arrow hreached hx ha hw)⟩
  reached := by
    refine ⟨_, h.first, fun n hn => ?_⟩
    obtain ⟨v, hv, rfl⟩ := (h.nodes n).1 hn
    exact h.leads_to hv
  tests n hn hword := by
    obtain ⟨v, hv, rfl⟩ := (h.nodes n).1 hn
    obtain ⟨x, hx, rfl⟩ := List.mem_map.1 (hv.mem htargets hentry)
    have hperm := h.linesOf_perm hnames hx hv
    have hx' := hstyled x hx
    have hshape : (f x.place).box.shape = none := word_eq_condition.1 hword
    rcases x with ⟨v, _ | a⟩ | ⟨v, yes, no⟩
    · exact absurd hshape hx'
    · simp only [Vertex.place] at hshape
      simp [Vertex.map, Vertex.Styled, Box.isOpen, hshape] at hx'
    · obtain ⟨-, e, he⟩ := hx'
      obtain ⟨e', rfl, he'⟩ := Option.map_eq_some_iff.1 he
      obtain ⟨w, rfl, rfl⟩ := Option.map_eq_some_iff.1 he'
      refine ⟨(f w).name, no.map fun u => (f u).name, hperm.trans ?_⟩
      cases no <;> exact .refl _
  others n hn hword := by
    obtain ⟨v, hv, rfl⟩ := (h.nodes n).1 hn
    obtain ⟨x, hx, rfl⟩ := List.mem_map.1 (hv.mem htargets hentry)
    have hperm := h.linesOf_perm hnames hx hv
    have hshape : (f x.place).box.shape ≠ none := fun hnone => hword (word_eq_condition.2 hnone)
    cases x with
    | box v out =>
      refine hperm.length_eq.trans_le ((List.length_filterMap_le _ _).trans ?_)
      cases out <;> simp [Vertex.arrows]
    | test v yes no => exact absurd (hstyled _ hx).1 hshape
  finals name := by
    rintro ⟨v, hv, rfl, hfinal⟩
    obtain ⟨x, hx, rfl⟩ := List.mem_map.1 (hv.mem htargets hentry)
    have hperm := h.linesOf_perm hnames hx hv
    have hx' := hstyled x hx
    rcases x with ⟨v, _ | a⟩ | ⟨v, yes, no⟩
    · exact hperm.eq_nil
    · simp only [Vertex.place] at hfinal
      rcases hfinal with hfinal |
          hfinal <;> simp [Vertex.map, Vertex.Styled, Box.isOpen, hfinal] at hx'
    · simp only [Vertex.place] at hfinal
      rcases hfinal with hfinal | hfinal <;> simp [Vertex.map, Vertex.Styled, hfinal] at hx'

theorem Walked.reached_of_box {σ τ : Store} {xs : List (Vertex Site)} {start : Item} {entry : Site}
    {order : List Nat} (h : Walked σ τ xs start entry order) {i : Nat} (hi : i ∈ order)
    {shape : Shape} (hf : (τ.node i).form = .box shape) :
    ∃ v, Reached xs entry v ∧ i = v.node ∧ (boxAt τ v).shape = some shape := by
  obtain ⟨n, hn⟩ : ∃ n, (τ.node i).definition? = some n := by
    unfold Node.definition?
    rw [hf]
    exact ⟨_, rfl⟩
  obtain ⟨x, -, hreached, rfl, -⟩ := h.defined hi hn
  exact ⟨x.place, hreached, rfl, by rw [boxAt, hf]; rfl⟩

theorem Charted.wellFormed {σ τ : Store} {g : Nat} {ts : List (Flow Site)} {entry : Site}
    (h : Charted σ τ g ts entry) (hstyled : StyledAll (mapAll (boxAt τ) ts)) {order : List Nat}
    (hwalk : Walked σ τ (verticesAll [] ts) (.node g) entry order) :
    WellFormed (τ.drawing order) fun name => ∃ i ∈ order, (τ.node i).name = name ∧
      ((τ.node i).form = .box .jump ∨ (τ.node i).form = .box .returnEnd) := by
  have hvertices : ∀ x ∈ verticesAll [] ts, (x.map (boxAt τ)).Styled := by
    intro x hx
    refine verticesAll_styled [] _ hstyled _ ?_
    rw [verticesAll_map]
    exact List.mem_map_of_mem hx
  have hdrawn := hwalk.depicts.wellFormed
    (fun x hx y hy hname => h.holds.eq_of_name hx hy hname) hwalk.targets hwalk.entered hvertices
  refine hdrawn.mono fun name hname => ?_
  obtain ⟨i, hi, rfl, hf | hf⟩ := hname
  · obtain ⟨v, hv, rfl, hshape⟩ := hwalk.reached_of_box hi hf
    exact ⟨v, hv, rfl, .inl hshape⟩
  · obtain ⟨v, hv, rfl, hshape⟩ := hwalk.reached_of_box hi hf
    exact ⟨v, hv, rfl, .inr hshape⟩

/-- A chart of any source is well formed; nothing follows its jumps and the ends of its returns. -/
theorem chart_wellFormed (source : Source) (σ : Store) (hσ : σ.Sound) (g : Nat) (τ : Store)
    (h : source.chart σ = .ok g τ) :
    ∃ order τ', chartText g τ = .ok (τ.drawing order).text τ' ∧
      WellFormed (τ.drawing order) fun name => ∃ i ∈ order, (τ.node i).name = name ∧
        ((τ.node i).form = .box .jump ∨ (τ.node i).form = .box .returnEnd) := by
  unfold Source.chart at h
  cases hpieces : source.pieces with
  | error f =>
    rw [hpieces] at h
    cases h
  | ok pieces =>
    rw [hpieces] at h
    obtain ⟨hne, hproper⟩ := pieces_proper hpieces
    have hchart := chartOf_realizes source.options hne hσ
    cases hspec : outlinePieces source.options pieces with
    | error f =>
      rw [hspec] at hchart
      obtain ⟨σ', hrun, -⟩ := hchart
      cases hrun.symm.trans h
    | ok flows =>
      rw [hspec] at hchart
      obtain ⟨g', τ', hrun, ts, entry, hcharted, hboxes⟩ := hchart
      cases hrun.symm.trans h
      obtain ⟨order, τ', hwalk, hdraw, -⟩ := hcharted.chartText_run
      refine ⟨order, τ', hdraw, hcharted.wellFormed ?_ hwalk⟩
      rw [hboxes]
      exact styledAll_arrange source.options (outlinePieces_styled hproper hspec)

theorem chart_wellFormed_loop : ∃ g τ order τ',
    Source.chart { code := "while a:\n    if b:\n        break\n    c\nd\n" } {} = .ok g τ ∧
    chartText g τ = .ok (τ.drawing order).text τ' ∧
    WellFormed (τ.drawing order) fun name => ∃ i ∈ order, (τ.node i).name = name ∧
      ((τ.node i).form = .box .jump ∨ (τ.node i).form = .box .returnEnd) := by
  have hsome : (outcome (Source.chart
      { code := "while a:\n    if b:\n        break\n    c\nd\n" }) {}).isSome := by
    decide +kernel
  obtain ⟨g, hg⟩ := Option.isSome_iff_exists.1 hsome
  obtain ⟨τ, hchart⟩ := exists_of_outcome hg
  obtain ⟨order, τ', hdraw, hform⟩ := chart_wellFormed _ {} sound_empty g τ hchart
  exact ⟨g, τ, order, τ', hchart, hdraw, hform⟩

end CodeChart.Chart
