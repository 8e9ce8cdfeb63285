import CodeChart.Proofs.Redraw

/-! The text of a chart as data. A drawing lists the definitions of the nodes that a walk visits and
the lines between them. Drawing a group, in a store that may have been drawn before, gives exactly
the text of the drawing that belongs to the walk, and leaves a redrawn store. All that this takes of
a store is that no link belongs to two nodes and that every node can be drawn. -/
namespace CodeChart.Graph

structure Definition where
  name : String
  params : List (String × String)
  word : String
  text : String
  deriving DecidableEq, Repr

/-- The parameters of a definition as they are shown. -/
def pairsText : List (String × String) → String
  | [] => ""
  | pairs => "(" ++ ",".intercalate (pairs.map fun p => p.1 ++ "=" ++ p.2) ++ ")"

def Definition.line (d : Definition) : String :=
  d.name ++ pairsText d.params ++ "=>" ++ d.word ++ ": " ++ d.text ++ "\n"

/-- What a chart says about one connection. -/
structure Line where
  source : String
  labels : List String
  target : String
  deriving DecidableEq, Repr

def specText : List String → String
  | [] => ""
  | shown => "(" ++ ",".intercalate shown ++ ")"

def Line.text (k : Line) : String :=
  k.source ++ specText k.labels ++ "->" ++ k.target ++ "\n"

structure Drawing where
  nodes : List Definition
  lines : List Line
  deriving DecidableEq, Repr

def definitionsText (nodes : List Definition) : String := String.join (nodes.map Definition.line)

def linesText (lines : List Line) : String := String.join (lines.map Line.text)

/-- The nodes, an empty line, and the lines. -/
def Drawing.text (d : Drawing) : String := definitionsText d.nodes ++ "\n" ++ linesText d.lines

/-- A line leads from one name to another. -/
def Drawing.Leads (d : Drawing) (source target : String) : Prop :=
  ∃ labels, ⟨source, labels, target⟩ ∈ d.lines

def Node.definition? (n : Node) : Option Definition :=
  match n.form with
  | .bridge .. => none
  | form => some ⟨n.name, n.params, form.word, n.text⟩

namespace Store

/-- The line to a target, which has to be a node with a name. -/
def lineTo (s : Store) (source : Nat) (target : Item) (labels : List Label) : Option Line :=
  match target with
  | .node j => if (s.name j).isEmpty then none
    else some ⟨s.name source, shownLabels labels, s.name j⟩
  | _ => none

/-- The line along a link of node `i` in the direction of the node. -/
def lineAlong (s : Store) (i : Nat) : Item → Option Line
  | .link l => s.lineTo i (s.link l).target ((s.link l).labels ++ [(s.node i).direction])
  | _ => none

/-- The lines that a node contributes: a bridge the one from its parent to its child, the tests of
loops and branches none, any other node one for each of its links. -/
def linesFrom (s : Store) (i : Nat) : List Line :=
  match (s.node i).form with
  | .bridge _ (.node p) child _ (.link l) => (s.lineTo p child (s.link l).labels).toList
  | .bridge .. => []
  | _ => if (s.node i).draws then (s.node i).links.filterMap (s.lineAlong i) else []

/-- The drawing of the nodes in a list. -/
def drawing (s : Store) (order : List Nat) : Drawing where
  nodes := order.filterMap fun i => (s.node i).definition?
  lines := order.flatMap s.linesFrom

/-- The lines that a node contributes as its links have them: that of a bridge ends where its link
does. -/
def linesAt (s : Store) (i : Nat) : List Line :=
  match (s.node i).form with
  | .bridge _ (.node p) _ _ (.link l) => (s.lineTo p (s.link l).target (s.link l).labels).toList
  | _ => s.linesFrom i

/-- The drawing of the nodes in a list as their links have it. -/
def sheet (s : Store) (order : List Nat) : Drawing where
  nodes := order.filterMap fun i => (s.node i).definition?
  lines := order.flatMap s.linesAt

/-- The texts that a group keeps. -/
def texts (s : Store) (g : Nat) : String × String :=
  match (s.node g).form with
  | .group _ _ _ d c => (d, c)
  | _ => ("", "")

end Store

/-- No link belongs to two nodes, and every node can be drawn: its links are there, a bridge stands
between a node and a link, and no mark is that of a walk to come. -/
structure Store.Drawable (s : Store) : Prop where
  apart : ∀ i j l, Item.link l ∈ (s.node i).ownLinks → Item.link l ∈ (s.node j).ownLinks → i = j
  whole : ∀ i, (s.node i).absent.contains "connections" = false
  inside : ∀ i l, Item.link l ∈ (s.node i).ownLinks → l < s.links.size
  bridge : ∀ i answer parent child labels link,
    (s.node i).form = .bridge answer parent child labels link → ∃ p l, parent
      = .node p ∧ link = .link l
  mark : ∀ i k, (s.node i).mark = some (.pass k) → k < s.passes

/-- The end of a walk: a value, unless there is a fault. -/
def ended {α : Type} (fault : Option Fault) (a : α) (υ : Store) : EStateM.Result Fault Store α :=
  match fault with
  | none => .ok a υ
  | some f => .error f υ

variable {σ τ : Store} {i l g : Nat}

theorem bind_ended {α β : Type} {act : Action α} {k : α → Action β} {fault : Option Fault} {a : α}
    {b : β} (h : act σ = ended fault a τ) (hk : k a τ = .ok b τ) :
    (act >>= k) σ = ended fault b τ := by
  cases fault with
  | none => exact (bind_ok h).trans hk
  | some f => exact bind_error h

theorem paramsText_eq (params : List (String × String)) :
    paramsText params = pairsText params := by
  cases params <;> rfl

theorem definition_eq (n : Node) : n.definition = definitionsText n.definition?.toList := by
  unfold Node.definition Node.definition? definitionsText
  cases n.form <;> simp [Definition.line, String.join, paramsText_eq]

theorem definitionsText_append (a b : List Definition) :
    definitionsText (a ++ b) = definitionsText a ++ definitionsText b := by
  simp [definitionsText]

theorem linesText_append (a b : List Line) : linesText (a ++ b) = linesText a ++ linesText b := by
  simp [linesText]

theorem linkLine_eq (s : Store) (i l : Nat) :
    s.linkLine (.node i) l = linesText (s.lineTo i (s.link l).target (s.link l).labels).toList := by
  unfold Store.linkLine Store.lineTo
  cases (s.link l).target with
  | node j =>
    simp only
    split
    · rfl
    · simp only [labelsText, linesText, Option.toList]
      cases shownLabels (s.link l).labels <;> simp [String.join, Line.text, specText]
  | nothing => rfl
  | link l => rfl

theorem textsOf_run (τ : Store) (g : Nat) : textsOf g τ = .ok (τ.texts g) τ := by
  unfold textsOf Store.texts
  rw [bind_ok (getNode_run τ g)]
  cases (τ.node g).form <;> rfl

theorem definition?_eq_of_bare {n m : Node} (h : n.bare = m.bare) :
    n.definition? = m.definition? := by
  unfold Node.definition?
  rw [name_eq_of_bare h, text_eq_of_bare h, params_eq_of_bare h]
  obtain heq | ⟨_, _, _, _, _, _, _, hn, hm⟩ := form_of_bare_eq h
  · rw [heq]
  · rw [hn, hm]
    rfl

theorem lineTo_congr (hname : ∀ i, τ.name i = σ.name i) {target : Item}
    {labels labels' : List Label} (h : ∀ x, x ≠ "" → (some x ∈ labels ↔ some x ∈ labels')) :
    τ.lineTo i target labels = σ.lineTo i target labels' := by
  unfold Store.lineTo
  cases target <;> simp only [hname, shownLabels_congr h]

theorem Store.Sound.drawable (h : σ.Sound) : σ.Drawable where
  apart := h.apart
  whole i := by
    rw [(h.fits i).whole]
    rfl
  inside i l hl := by
    obtain ⟨l', hl', hlt⟩ := (h.fits i).links _ hl
    cases hl'
    exact hlt
  bridge i answer parent child labels link hf := by
    obtain ⟨p, rfl⟩ := (h.fits i).parent _ _ _ _ _ hf
    obtain ⟨l, rfl, -⟩ := (h.fits i).links link (by simp [Node.ownLinks, hf])
    exact ⟨p, l, rfl, rfl⟩
  mark i := (h.fits i).mark

theorem Store.Sound.linesAt_eq (h : σ.Sound) : σ.linesAt = σ.linesFrom := by
  funext i
  unfold Store.linesAt
  split
  · rename_i hf
    rw [Store.linesFrom, hf, h.children i _ _ _ _ _ hf]
  · rfl

theorem Store.Sound.sheet_eq (h : σ.Sound) (order : List Nat) :
    σ.sheet order = σ.drawing order := by
  unfold Store.sheet Store.drawing
  rw [h.linesAt_eq]

/-- The chart of a group, if so many steps are enough for its walk. -/
def Store.chartWithin (s : Store) (fuel g : Nat) : Option String :=
  if (s.node g).isGroup then
    (s.visitsWithin fuel [] [.node g]).map fun order => (s.drawing order).text
  else none

namespace Redrawn

theorem lineTo (h : Redrawn σ τ) (i : Nat) (target : Item) (labels : List Label) :
    τ.lineTo i target labels = σ.lineTo i target labels := lineTo_congr h.name fun _ _ => .rfl

/-- All that drawings add to the labels of a link is the direction of the node that draws it. -/
theorem shownLabels_direction (hs : σ.Drawable) (h : Redrawn σ τ) (hd : σ.Draws i l) :
    shownLabels ((τ.link l).labels ++ [(σ.node i).direction])
      = shownLabels ((σ.link l).labels ++ [(σ.node i).direction]) := by
  obtain ⟨added, ha, hadded⟩ := h.labels l
  have hdir : ∀ d ∈ added, d = (σ.node i).direction := by
    intro d hmem
    obtain ⟨j, hj, rfl⟩ := hadded d hmem
    rw [hs.apart j i l hj.2 hd.2]
  rw [ha]
  apply shownLabels_congr
  intro x _
  simp only [List.mem_append, List.mem_singleton]
  constructor
  · rintro ((hx | hx) | hx)
    · exact .inl hx
    · exact .inr (hdir _ hx)
    · exact .inr hx
  · rintro (hx | hx)
    · exact .inl (.inl hx)
    · exact .inr hx

theorem labels_of_bridge (hs : σ.Drawable) (h : Redrawn σ τ) {answer parent child labels}
    (hf : (σ.node i).form = .bridge answer parent child labels (.link l)) :
    (τ.link l).labels = (σ.link l).labels := by
  obtain ⟨added, ha, hadded⟩ := h.labels l
  have hnone : added = [] := by
    rw [List.eq_nil_iff_forall_not_mem]
    intro d hmem
    obtain ⟨j, ⟨hj, hl⟩, _⟩ := hadded d hmem
    have hi : Item.link l ∈ (σ.node i).ownLinks := by simp [Node.ownLinks, hf]
    rw [hs.apart j i l hl hi] at hj
    simp [Node.draws, hf] at hj
  rw [ha, hnone, List.append_nil]

theorem drawLink_run (hs : σ.Drawable) (h : Redrawn σ τ) (hd : σ.Draws i l) :
    ∃ υ, drawLink i (.link l) τ = .ok (linesText (σ.lineAlong i (.link l)).toList) υ ∧
      Drawn [⟨i, l, (σ.node i).direction⟩] τ υ ∧ υ.nodes = τ.nodes := by
  have hlt : l < τ.links.size := by
    rw [h.linkCount]
    exact hs.inside i l hd.2
  let υ := τ.mapLink l fun k => { k with labels := k.labels ++ [(τ.node i).direction] }
  have hτυ : Drawn [⟨i, l, (σ.node i).direction⟩] τ υ := by
    rw [← h.direction]
    exact .of_mapLink (h.draws.2 hd) hlt
  have hυ : Redrawn σ υ := h.trans hτυ.toRedrawn
  have hrun : drawLink i (.link l) τ = .ok (υ.linkLine (.node i) l) υ := rfl
  have hlabels : (υ.link l).labels = (τ.link l).labels ++ [(σ.node i).direction] := by
    rw [τ.link_mapLink_self l _ hlt, h.direction]
  refine ⟨υ, ?_, hτυ, rfl⟩
  rw [hrun, linkLine_eq, hυ.lineTo, hυ.target, hlabels]
  unfold Store.lineAlong Store.lineTo
  rw [shownLabels_direction hs h hd]

theorem drawLink_mapM (hs : σ.Drawable) (hd : (σ.node i).draws = true) (items : List Item)
    (hitems : ∀ item ∈ items, item ∈ (σ.node i).ownLinks) (h : Redrawn σ τ) :
    ∃ texts υ, items.mapM (drawLink i) τ = .ok texts υ ∧
      String.join texts = linesText (items.filterMap (σ.lineAlong i)) ∧
      Drawn (items.filterMap (σ.traceAlong i)) τ υ ∧ υ.nodes = τ.nodes := by
  induction items generalizing τ with
  | nil => exact ⟨[], τ, rfl, rfl, .refl τ, rfl⟩
  | cons item rest ih =>
    have hdrawn : ∃ υ, drawLink i item τ = .ok (linesText (σ.lineAlong i item).toList) υ ∧
        Drawn (σ.traceAlong i item).toList τ υ ∧ υ.nodes = τ.nodes := by
      cases item with
      | link l => exact drawLink_run hs h ⟨hd, hitems _ List.mem_cons_self⟩
      | nothing => exact ⟨τ, rfl, .refl τ, rfl⟩
      | node j => exact ⟨τ, rfl, .refl τ, rfl⟩
    obtain ⟨υ, hrun, hυ, hnodes⟩ := hdrawn
    obtain ⟨texts, υ', hrest, htexts, hυ', hnodes'⟩ :=
      ih (fun item hmem => hitems item (List.mem_cons_of_mem _ hmem)) (h.trans hυ.toRedrawn)
    refine ⟨linesText (σ.lineAlong i item).toList :: texts, υ', ?_, ?_, ?_, hnodes'.trans hnodes⟩
    · rw [List.mapM_cons, bind_ok hrun, bind_ok hrest]
      rfl
    · rw [String.join_cons, htexts, ← linesText_append]
      congr 1
      rw [List.filterMap_cons]
      cases σ.lineAlong i item <;> rfl
    · have htraces : (item :: rest).filterMap (σ.traceAlong i)
          = (σ.traceAlong i item).toList ++ rest.filterMap (σ.traceAlong i) := by
        rw [List.filterMap_cons]
        cases σ.traceAlong i item <;> rfl
      rw [htraces]
      exact hυ.trans hυ'

private theorem drawOwn_run (hs : σ.Drawable) (h : Redrawn σ τ) (hd : (σ.node i).draws = true)
    (hl : (σ.node i).ownLinks = (σ.node i).links) :
    ∃ υ, (do return String.join (← (← linksOf i).mapM (drawLink i)) : Action String) τ
      = .ok (linesText ((σ.node i).links.filterMap (σ.lineAlong i))) υ ∧
      Drawn (σ.tracesAt i) τ υ ∧ υ.nodes = τ.nodes := by
  have hpresent : (τ.node i).absent.contains "connections" = false := by
    rw [absent_eq_of_bare (h.bare i)]
    exact hs.whole i
  have hlinks : linksOf i τ = .ok (σ.node i).links τ := by
    rw [linksOf_of_not_absent τ i hpresent, ownLinks_eq_of_bare (h.bare i), hl]
  obtain ⟨texts, υ, hrun, htexts, hυ⟩ :=
    drawLink_mapM hs hd (σ.node i).links (fun item hitem => hl ▸ hitem) h
  have htraces : σ.tracesAt i = (σ.node i).links.filterMap (σ.traceAlong i) := by
    rw [Store.tracesAt, if_pos hd, hl]
  refine ⟨υ, ?_, htraces ▸ hυ⟩
  rw [bind_ok hlinks, bind_ok hrun, htexts]
  rfl

theorem drawLinks_run (hs : σ.Drawable) (h : Redrawn σ τ) (i : Nat) :
    ∃ υ, drawLinks i τ = .ok (linesText (σ.linesAt i)) υ ∧ Drawn (σ.tracesAt i) τ υ ∧
      υ.nodes = τ.nodes := by
  have hquiet : (σ.node i).draws = false → Drawn (σ.tracesAt i) τ τ := by
    intro hd
    rw [Store.tracesAt, hd]
    exact .refl τ
  unfold drawLinks Store.linesAt Store.linesFrom
  rw [bind_ok (getNode_run τ i)]
  cases hf : (σ.node i).form with
  | bridge answer parent child labels link =>
    obtain ⟨p, l, rfl, rfl⟩ := hs.bridge i _ _ _ _ _ hf
    have hτ : (τ.node i).form = .bridge answer (.node p) child labels (.link l) :=
      (form_eq_of_bare (h.bare i) (by simp [Node.isGroup, hf, Form.isGroup])).trans hf
    refine ⟨τ, ?_, hquiet (by simp [Node.draws, hf]), rfl⟩
    have htext : τ.linkLine (.node p) l
        = linesText (σ.lineTo p (σ.link l).target (σ.link l).labels).toList := by
      rw [linkLine_eq, h.lineTo, h.target, labels_of_bridge hs h hf]
    rw [hτ, ← htext]
    rfl
  | decision role yes no =>
    have hτ : (τ.node i).form = .decision role yes no :=
      (form_eq_of_bare (h.bare i) (by simp [Node.isGroup, hf, Form.isGroup])).trans hf
    have hd : (σ.node i).draws = !role.drawsNothing := by simp [Node.draws, hf]
    rw [hτ, hd]
    cases hr : role.drawsNothing with
    | true => exact ⟨τ, by simp only [hr]; rfl, hquiet (by simp [hd, hr]), rfl⟩
    | false =>
      rw [hr] at hd
      obtain ⟨υ, hrun, hυ⟩ := drawOwn_run hs h hd (by simp [Node.ownLinks, hf])
      refine ⟨υ, ?_, hυ⟩
      simp only [hr]
      exact hrun
  | box shape =>
    have hτ : (τ.node i).form = .box shape :=
      (form_eq_of_bare (h.bare i) (by simp [Node.isGroup, hf, Form.isGroup])).trans hf
    have hd : (σ.node i).draws = true := by simp [Node.draws, hf]
    rw [hτ, if_pos hd]
    exact drawOwn_run hs h hd (by simp [Node.ownLinks, hf])
  | group role head tails d c =>
    obtain ⟨d', c', hτ⟩ := group_of_bare_eq (h.bare i) hf
    have hd : (σ.node i).draws = true := by simp [Node.draws, hf]
    rw [hτ, if_pos hd]
    exact drawOwn_run hs h hd (by simp [Node.ownLinks, hf])

theorem modifyTexts_run (τ : Store) (hg : (τ.node g).isGroup = true)
    (f : String × String → String × String) :
    ∃ υ, modifyTexts g f τ = .ok () υ ∧ Drawn [] τ υ ∧ υ.texts g = f (τ.texts g) := by
  obtain ⟨role, head, tails, d, c, hf⟩ := form_of_isGroup hg
  refine ⟨_, rfl, .of_links (of_mapNode ?_ ?_) rfl, ?_⟩
  · simp only [hf, Node.bare, Form.bare]
  · intro k
    simp only [hf]
    exact .inl
  · simp only [Store.texts]
    erw [τ.node_mapNode_self g _ (lt_size_of_isGroup hg)]
    simp only [hf]

theorem setMark_run (τ : Store) (i : Nat) {k : Nat} (hk : k < τ.passes) :
    ∃ υ, setMark i (some (.pass k)) τ = .ok () υ ∧ Drawn [] τ υ ∧ υ.texts g = τ.texts g := by
  refine ⟨_, rfl, .of_links (of_mapNode rfl ?_) rfl, ?_⟩
  · intro k' hk'
    cases hk'
    exact .inr hk
  · exact τ.node_mapNode_keeps i g _
      (P := fun n => (match n.form with | .group _ _ _ d c => (d, c) | _ => ("", "")) = τ.texts g)
      rfl fun _ => rfl

theorem addTexts_run (hs : σ.Drawable) (h : Redrawn σ τ) (hg : (σ.node g).isGroup = true)
    (i : Nat) :
    ∃ υ, addTexts g i τ = .ok () υ ∧ Drawn (σ.tracesAt i) τ υ ∧
      υ.texts g = ((τ.texts g).1 ++ definitionsText (σ.node i).definition?.toList,
        (τ.texts g).2 ++ linesText (σ.linesAt i)) := by
  have group : ∀ {υ}, Redrawn σ υ → (υ.node g).isGroup = true := fun hυ =>
    (isGroup_eq_of_bare (hυ.bare g)).trans hg
  obtain ⟨τ₁, hrun₁, h₁, ht₁⟩ :=
    modifyTexts_run τ (group h) fun texts => (texts.1 ++ (τ.node i).definition, texts.2)
  have hτ₁ := h.trans h₁.toRedrawn
  obtain ⟨τ₂, hrun₂, h₂, hn₂⟩ := drawLinks_run hs hτ₁ i
  obtain ⟨τ₃, hrun₃, h₃, ht₃⟩ :=
    modifyTexts_run τ₂ (group (hτ₁.trans h₂.toRedrawn)) fun texts =>
      (texts.1, texts.2 ++ linesText (σ.linesAt i))
  refine ⟨τ₃, ?_, by simpa using (h₁.trans h₂).trans h₃, ?_⟩
  · unfold addTexts
    rw [bind_ok (getNode_run τ i)]
    refine (bind_ok hrun₁).trans ?_
    refine (bind_ok hrun₂).trans ?_
    exact hrun₃
  · have ht₂ : τ₂.texts g = τ₁.texts g := by simp only [Store.texts, Store.node, hn₂]
    rw [ht₃, ht₂, ht₁, definition_eq, definition?_eq_of_bare (h.bare i)]

/-- The visits of a walk add the drawing of the visited nodes to the texts of the group. -/
theorem visits_run (hs : σ.Drawable) (hg : (σ.node g).isGroup = true) {k : Nat} (order : List Nat)
    (h : Redrawn σ τ) (hk : k < τ.passes) :
    ∃ υ, (order.forM fun i => do setMark i (some (.pass k)); addTexts g i : Action Unit) τ
        = .ok () υ ∧
      Drawn (σ.traces order) τ υ ∧
      υ.texts g = ((τ.texts g).1 ++ definitionsText (σ.sheet order).nodes,
        (τ.texts g).2 ++ linesText (σ.sheet order).lines) := by
  induction order generalizing τ with
  | nil => exact ⟨τ, rfl, .refl τ, by simp [Store.sheet, definitionsText, linesText, String.join]⟩
  | cons i rest ih =>
    obtain ⟨τ₁, hrun₁, h₁, ht₁⟩ := setMark_run (g := g) τ i hk
    obtain ⟨τ₂, hrun₂, h₂, ht₂⟩ := addTexts_run hs (h.trans h₁.toRedrawn) hg i
    have h₁₂ := h₁.trans h₂
    obtain ⟨υ, hrun, hυ, ht⟩ := ih (h.trans h₁₂.toRedrawn) (Nat.lt_of_lt_of_le hk h₁₂.passes)
    have hvisit : (do setMark i (some (.pass k)); addTexts g i : Action Unit) τ = .ok () τ₂ := by
      rw [bind_ok hrun₁]
      exact hrun₂
    refine ⟨υ, ?_, h₁₂.trans hυ, ?_⟩
    · refine Eq.trans (forM_cons_ok ?_) hrun
      exact hvisit
    · have hnodes : (σ.sheet (i :: rest)).nodes
          = (σ.node i).definition?.toList ++ (σ.sheet rest).nodes := by
        simp only [Store.sheet, List.filterMap_cons]
        cases (σ.node i).definition? <;> rfl
      have hlines : (σ.sheet (i :: rest)).lines = σ.linesAt i ++ (σ.sheet rest).lines := by
        simp only [Store.sheet, List.flatMap_cons]
      rw [ht, ht₂, ht₁, hnodes, hlines, definitionsText_append, linesText_append]
      simp only [String.append_assoc]

theorem marked_fresh (hs : σ.Drawable) (h : Redrawn σ τ) :
    τ.marked (some (.pass τ.passes)) = [] := by
  unfold Store.marked
  rw [List.filter_eq_nil_iff]
  intro i _ hi
  rcases h.marks i _ (of_decide_eq_true hi) with hk | hk
  · have hlt := hs.mark i _ hk
    have hle := h.passes
    omega
  · exact Nat.lt_irrefl _ hk

/-- Drawing a group gives the texts of the walk's drawing, up to a fault if there is one. -/
theorem refresh_run (hs : σ.Drawable) (h : Redrawn σ τ) (hg : (σ.node g).isGroup = true)
    {order : List Nat} {fault : Option Fault}
    (ho : σ.preorderFrom (fun _ => true) [] [.node g] = (order, fault)) :
    ∃ υ, Drawn (σ.traces order) τ υ ∧ refresh g τ = ended fault () υ ∧
      υ.texts g = (definitionsText (σ.sheet order).nodes, linesText (σ.sheet order).lines) := by
  obtain ⟨τ₁, hrun₁, h₁, ht₁⟩ :=
    modifyTexts_run τ ((isGroup_eq_of_bare (h.bare g)).trans hg) fun _ => ("", "")
  have hfresh : freshMark τ₁ = .ok (some (.pass τ₁.passes)) τ₁.countPass := rfl
  have h₂ : Drawn [] τ τ₁.countPass := h₁.trans (.of_links (of_countPass τ₁) rfl)
  have hσ₂ := h.trans h₂.toRedrawn
  have hempty : τ₁.countPass.marked (some (.pass τ₁.passes)) = [] :=
    marked_fresh hs (h.trans h₁.toRedrawn)
  have ho₂ : τ₁.countPass.preorderFrom (fun _ => true) [] [.node g] = (order, fault) :=
    (hσ₂.preorderFrom _ _ _).trans ho
  obtain ⟨υ, hvisits, hυ, ht⟩ := visits_run hs hg order hσ₂ (Nat.lt_succ_self τ₁.passes)
  refine ⟨υ, h₂.trans hυ, ?_, ?_⟩
  · unfold refresh clearTexts
    rw [bind_ok hrun₁, bind_ok hfresh]
    unfold walk
    rw [bind_ok (show (get : Action Store) τ₁.countPass = .ok τ₁.countPass τ₁.countPass from rfl)]
    simp only [Store.preorder, hempty, ho₂]
    rw [bind_ok hvisits]
    cases fault <;> rfl
  · have ht₂ : τ₁.countPass.texts g = ("", "") := ht₁
    rw [ht, ht₂]
    simp

/-- Drawing a group changes nothing but what drawings change, whether it succeeds or not. -/
theorem of_refresh (hs : σ.Sound) (hg : (σ.node g).isGroup = true) :
    ∃ υ, Redrawn σ υ ∧ (refresh g σ = .ok () υ ∨ ∃ f, refresh g σ = .error f υ) := by
  cases ho : σ.preorderFrom (fun _ => true) [] [.node g] with
  | mk order fault =>
  obtain ⟨υ, hυ, hrun, -⟩ := refresh_run hs.drawable (refl σ) hg ho
  refine ⟨υ, hυ.toRedrawn, ?_⟩
  cases fault with
  | none => exact .inl hrun
  | some f => exact .inr ⟨f, hrun⟩

section

variable (hs : σ.Drawable) (h : Redrawn σ τ) (hg : (σ.node g).isGroup = true) {order : List Nat}
  {fault : Option Fault} (ho : σ.preorderFrom (fun _ => true) [] [.node g] = (order, fault))
include hs h hg ho

theorem textsOf_refresh (read : String × String → String) : ∃ υ, Drawn (σ.traces order) τ υ ∧
    (do refresh g; return read (← textsOf g) : Action String) τ
      = ended fault (read (definitionsText (σ.sheet order).nodes, linesText (σ.sheet order).lines))
        υ := by
  obtain ⟨υ, hυ, hrun, htexts⟩ := refresh_run hs h hg ho
  refine ⟨υ, hυ, bind_ended hrun ?_⟩
  rw [bind_ok (textsOf_run υ g), htexts]
  rfl

theorem definitionText_run : ∃ υ, Drawn (σ.traces order) τ υ ∧
    definitionText g τ = ended fault (definitionsText (σ.sheet order).nodes) υ := by
  unfold definitionText
  rw [bind_ok (getNode_run τ g), if_pos ((isGroup_eq_of_bare (h.bare g)).trans hg)]
  exact textsOf_refresh hs h hg ho Prod.fst

theorem connectionText_run : ∃ υ, Drawn (σ.traces order) τ υ ∧
    connectionText g τ = ended fault (linesText (σ.sheet order).lines) υ := by
  unfold connectionText
  rw [bind_ok (getNode_run τ g), if_pos ((isGroup_eq_of_bare (h.bare g)).trans hg)]
  exact textsOf_refresh hs h hg ho Prod.snd

/-- The chart of a group is the text of the sheet of its walk, unless the walk ends with a fault. -/
theorem chartText_sheet : ∃ υ, Drawn (σ.traces order) τ υ ∧
    chartText g τ = ended fault (σ.sheet order).text υ := by
  obtain ⟨τ₁, h₁, hrun₁⟩ := definitionText_run hs h hg ho
  unfold chartText
  cases fault with
  | some f => exact ⟨τ₁, h₁, bind_error hrun₁⟩
  | none =>
    obtain ⟨τ₂, h₂, hrun₂⟩ := connectionText_run hs (h.trans h₁.toRedrawn) hg ho
    refine ⟨τ₂, (h₁.trans h₂).congr (by simp), ?_⟩
    rw [bind_ok hrun₁, bind_ok hrun₂]
    rfl

end

/-- The chart of a group is the text of the drawing of its walk, unless the walk ends with a
fault. -/
theorem chartText_ended (hs : σ.Sound) (hg : (σ.node g).isGroup = true) {order : List Nat}
    {fault : Option Fault} (ho : σ.preorderFrom (fun _ => true) [] [.node g] = (order, fault)) :
    ∃ υ, Drawn (σ.traces order) σ υ ∧ chartText g σ = ended fault (σ.drawing order).text υ := by
  rw [← hs.sheet_eq]
  exact chartText_sheet hs.drawable (refl σ) hg ho

theorem chartText_of_chartWithin (hs : σ.Sound) {fuel : Nat} {text : String}
    (h : σ.chartWithin fuel g = some text) : ∃ τ, chartText g σ = .ok text τ := by
  unfold Store.chartWithin at h
  split at h
  · rename_i hg
    obtain ⟨order, horder, rfl⟩ := Option.map_eq_some_iff.1 h
    obtain ⟨τ, -, hrun⟩ := chartText_ended hs hg (preorderFrom_of_visitsWithin horder)
    exact ⟨τ, hrun⟩
  · cases h

theorem chartText_run (hs : σ.Sound) (hg : (σ.node g).isGroup = true)
    (hw : Walkable σ (.node g)) :
    ∃ order τ, DepthFirst σ (fun _ => true) [] [.node g] order ∧
      chartText g σ = .ok (σ.drawing order).text τ ∧ Redrawn σ τ := by
  obtain ⟨order, ho, hd⟩ := hw.preorderFrom
  obtain ⟨τ, hτ, hrun⟩ := chartText_ended hs hg ho
  exact ⟨order, τ, hd, hrun, hτ.toRedrawn⟩

end Redrawn

end CodeChart.Graph
