import CodeChart.Proofs.Wiring

/-! Connections close exits. Connecting a node to a target reaches, through the tails of groups, the
boxes and bridges that wait for a connection. `EndsIn` lists them; connecting changes these nodes
and no other. -/
namespace CodeChart.Chart

open CodeChart.Graph

inductive Ending where
  | final
  | leaf
  | inner (tails : List Item)
  | other

def ending : Form → Ending
  | .box shape => if shape = .jump then .final else .leaf
  | .bridge .. => .leaf
  | .group (.returning ..) .. => .final
  | .group _ _ tails _ _ => .inner tails
  | .decision .. => .other

/-- A connection from node `i` ends at the nodes of `E`, in this order and at most `n` groups
deep. No node before `lo` is met on the way. -/
def EndsIn (s : Store) (lo : Nat) : Nat → Nat → List Nat → Prop
  | 0, _, _ => False
  | n + 1, i, E => (lo ≤ i ∧ i < s.nodes.size) ∧
    match ending (s.node i).form with
    | .final => E = []
    | .leaf => E = [i]
    | .inner tails => ∃ Es, List.Forall₂ (fun t e =>
        match t with
        | .node j => EndsIn s lo n j e
        | _ => e = []) tails Es ∧ E = Es.flatten
    | .other => False

def TailEnds (s : Store) (lo n : Nat) (tails : List Item) (Es : List (List Nat)) : Prop :=
  List.Forall₂ (fun t e =>
    match t with
    | .node j => EndsIn s lo n j e
    | _ => e = []) tails Es

variable {τ τ' τ'' : Store} {lo n i : Nat} {E : List Nat} {target : Item}

theorem EndsIn.final (hlo : lo ≤ i) (hi : i < τ.nodes.size)
    (hf : ending (τ.node i).form = .final) : EndsIn τ lo (n + 1) i [] := by
  refine ⟨⟨hlo, hi⟩, ?_⟩
  rw [hf]

theorem EndsIn.leaf (hlo : lo ≤ i) (hi : i < τ.nodes.size)
    (hf : ending (τ.node i).form = .leaf) : EndsIn τ lo (n + 1) i [i] := by
  refine ⟨⟨hlo, hi⟩, ?_⟩
  rw [hf]

theorem EndsIn.inner {tails : List Item} (hlo : lo ≤ i) (hi : i < τ.nodes.size)
    (hf : ending (τ.node i).form = .inner tails) {Es : List (List Nat)}
    (h : TailEnds τ lo n tails Es) : EndsIn τ lo (n + 1) i Es.flatten := by
  refine ⟨⟨hlo, hi⟩, ?_⟩
  rw [hf]
  exact ⟨Es, h, rfl⟩

theorem EndsIn.tails {tails : List Item} (h : EndsIn τ lo (n + 1) i E)
    (hf : ending (τ.node i).form = .inner tails) :
    ∃ Es, TailEnds τ lo n tails Es ∧ E = Es.flatten := by
  obtain ⟨-, h⟩ := h
  rwa [hf] at h

theorem EndsIn.transfer (hsize : τ.nodes.size ≤ τ'.nodes.size)
    (hform : ∀ i, lo ≤ i → i < τ.nodes.size → ending (τ'.node i).form = ending (τ.node i).form)
    {lo' m : Nat} (hlo : lo' ≤ lo) (hm : n ≤ m) (h : EndsIn τ lo n i E) : EndsIn τ' lo' m i E := by
  induction n generalizing m i E with
  | zero => exact h.elim
  | succ n ih =>
    obtain ⟨m, rfl⟩ : ∃ m', m = m' + 1 := ⟨m - 1, by omega⟩
    obtain ⟨hi, h⟩ := h
    refine ⟨⟨Nat.le_trans hlo hi.1, Nat.lt_of_lt_of_le hi.2 hsize⟩, ?_⟩
    rw [hform i hi.1 hi.2]
    cases he : ending (τ.node i).form with
    | final => rwa [he] at h
    | leaf => rwa [he] at h
    | other => rw [he] at h; exact h.elim
    | inner tails =>
      rw [he] at h
      obtain ⟨Es, hall, rfl⟩ := h
      refine ⟨Es, hall.imp ?_, rfl⟩
      intro t e ht
      cases t with
      | node j => exact ih (by omega) ht
      | nothing => exact ht
      | link l => exact ht

/-- Link `l` joins node `i` to the target: a box has it after its other links, a bridge in place of
the link that it had. -/
inductive Joins (target : Item) (l : Nat) (τ τ' : Store) (i : Nat) : Prop where
  | box {shape : Shape} : (τ.node i).form = .box shape →
      τ'.node i = { τ.node i with links := (τ.node i).links ++ [.link l] } →
      τ'.link l = ⟨target, [some ""]⟩ → Joins target l τ τ' i
  | bridge {answer : Bool} {parent child link : Item} {labels labels' : List Label} :
      (τ.node i).form = .bridge answer parent child labels link →
      τ'.node i = { τ.node i with form := .bridge answer parent target labels' (.link l) } →
      τ'.link l = ⟨target, labels'⟩ → shownLabels labels' = shownLabels labels →
      Joins target l τ τ' i

theorem Joins.congr {υ υ' : Store} {l : Nat} (h : Joins target l τ τ' i) (hi : υ.node i = τ.node i)
    (hi' : υ'.node i = τ'.node i) (hl : υ'.link l = τ'.link l) : Joins target l υ υ' i := by
  cases h with
  | box hf hnode hlink =>
    refine .box (by rw [hi, hf]) ?_ (hl.trans hlink)
    rw [hi', hi, hnode]
  | bridge hf hnode hlink hshown =>
    refine .bridge (by rw [hi, hf]) ?_ (hl.trans hlink) hshown
    rw [hi', hi, hnode]

/-- The nodes of `E` have been connected to the target in turn, and nothing else has changed. -/
structure Closed (E : List Nat) (target : Item) (τ τ' : Store) : Prop where
  grows : Grows E τ τ'
  size : τ'.nodes.size = τ.nodes.size
  nextId : τ'.nextId = τ.nextId
  links : τ'.links.size = τ.links.size + E.length
  joins : ∀ k i, E[k]? = some i → Joins target (τ.links.size + k) τ τ' i

namespace Closed

theorem refl (hs : τ.Sound) : Closed [] target τ τ where
  grows := .refl hs
  size := rfl
  nextId := rfl
  links := rfl
  joins k i hk := by simp at hk

theorem trans {E' : List Nat} (h : Closed E target τ τ') (h' : Closed E' target τ' τ'')
    (hlt : ∀ i ∈ E ++ E', i < τ.nodes.size) (hapart : ∀ i ∈ E, i ∉ E') :
    Closed (E ++ E') target τ τ'' := by
  have hlinks := h.links
  refine ⟨h.grows.trans h'.grows, h'.size.trans h.size, h'.nextId.trans h.nextId, ?_, ?_⟩
  · rw [h'.links, hlinks, List.length_append, Nat.add_assoc]
  · intro k i hk
    have hi := hlt i (List.mem_of_getElem? hk)
    by_cases hkE : k < E.length
    · rw [List.getElem?_append_left hkE] at hk
      refine (h.joins k i hk).congr rfl ?_ (h'.grows.link _ (by omega))
      exact h'.grows.node i (h.size ▸ hi) (hapart i (List.mem_of_getElem? hk))
    · rw [List.getElem?_append_right (by omega)] at hk
      have hlink : τ'.links.size + (k - E.length) = τ.links.size + k := by omega
      refine hlink ▸ (h'.joins _ i hk).congr ?_ rfl rfl
      exact (h.grows.node i hi fun hmem => hapart i hmem (List.mem_of_getElem? hk)).symm

theorem withLink (hs : τ.Sound) (ht : target.Within τ) (hi : i < τ.nodes.size) {shape : Shape}
    (hf : (τ.node i).form = .box shape) :
    Closed [i] target τ (τ.withLink i target [some ""]) where
  grows := grows_withLink hs i ht [some ""]
  size := by simp
  nextId := rfl
  links := by simp [Store.withLink]
  joins k j hk := by
    obtain ⟨rfl, rfl⟩ : k = 0 ∧ i = j := by simpa [List.getElem?_singleton] using hk
    refine .box hf ?_ ?_
    · exact Store.node_mapNode_self (τ.pushLink ⟨target, [some ""]⟩) i _ hi
    · exact τ.link_pushLink_size _

theorem moveBridge (hs : τ.Sound) (ht : target.Within τ) (hi : i < τ.nodes.size)
    {answer parent child labels link}
    (hf : (τ.node i).form = .bridge answer parent child labels link) {blank : List Label}
    (hb : ∀ l ∈ blank, l = some "") :
    Closed [i] target τ (τ.moveBridge i target blank) where
  grows := grows_moveBridge hs i ht blank
  size := by simp
  nextId := by
    unfold Store.moveBridge
    rw [hf]
    rfl
  links := by simp [Store.moveBridge, hf]
  joins k j hk := by
    obtain ⟨rfl, rfl⟩ : k = 0 ∧ i = j := by simpa [List.getElem?_singleton] using hk
    have hlink : (τ.moveBridge i target blank).link τ.links.size
        = ⟨target, bridgeLabels answer labels blank⟩ := by
      unfold Store.moveBridge
      rw [hf]
      exact τ.link_pushLink_size _
    refine .bridge hf ?_ hlink (shownLabels_bridgeLabels answer labels hb)
    unfold Store.moveBridge
    rw [hf]
    exact Store.node_mapNode_self (τ.pushLink _) i _ hi

theorem joined (h : Closed E target τ τ') (hi : i ∈ E) :
    ∃ l, l < τ'.links.size ∧ Joins target l τ τ' i := by
  obtain ⟨k, hk⟩ := List.getElem?_of_mem hi
  have hlt := (List.getElem?_eq_some_iff.1 hk).1
  have hlinks := h.links
  exact ⟨_, by omega, h.joins k i hk⟩

theorem box (h : Closed E target τ τ') (hi : i ∈ E) {shape : Shape}
    (hf : (τ.node i).form = .box shape) : ∃ l, l < τ'.links.size ∧
      τ'.node i = { τ.node i with links := (τ.node i).links ++ [.link l] } ∧
      τ'.link l = ⟨target, [some ""]⟩ := by
  obtain ⟨l, hl, hjoins⟩ := h.joined hi
  cases hjoins with
  | box _ hnode hlink => exact ⟨l, hl, hnode, hlink⟩
  | bridge hf' =>
    rw [hf] at hf'
    cases hf'

theorem bridge (h : Closed E target τ τ') (hi : i ∈ E) {answer : Bool} {parent child link : Item}
    {labels : List Label} (hf : (τ.node i).form = .bridge answer parent child labels link) :
    ∃ l labels', l < τ'.links.size ∧
      τ'.node i = { τ.node i with form := .bridge answer parent target labels' (.link l) } ∧
      τ'.link l = ⟨target, labels'⟩ ∧ shownLabels labels' = shownLabels labels := by
  obtain ⟨l, hl, hjoins⟩ := h.joined hi
  cases hjoins with
  | box hf' =>
    rw [hf] at hf'
    cases hf'
  | @bridge _ _ _ _ _ labels' hf' hnode hlink hshown =>
    rw [hf] at hf'
    cases hf'
    exact ⟨l, labels', hl, hnode, hlink, hshown⟩

theorem node_cases (h : Closed E target τ τ') (hE : ∀ i ∈ E, ending (τ.node i).form = .leaf)
    (hi : i < τ.nodes.size) : τ'.node i = τ.node i ∨
      (∃ shape links, (τ.node i).form = .box shape ∧ τ'.node i = { τ.node i with links }) ∨
      ∃ answer parent child labels link child' labels' link',
        (τ.node i).form = .bridge answer parent child labels link ∧
        τ'.node i = { τ.node i with form := .bridge answer parent child' labels' link' } := by
  by_cases hmem : i ∈ E
  · have hleaf := hE i hmem
    cases hf : (τ.node i).form with
    | box shape =>
      obtain ⟨l, -, hnode, -⟩ := h.box hmem hf
      exact .inr (.inl ⟨shape, _, rfl, hnode⟩)
    | bridge answer parent child labels link =>
      obtain ⟨l, labels', -, hnode, -⟩ := h.bridge hmem hf
      exact .inr (.inr ⟨_, _, _, _, _, _, _, _, rfl, hnode⟩)
    | decision role yes no =>
      rw [hf] at hleaf
      cases hleaf
    | group role head tails d c =>
      rw [hf] at hleaf
      cases role <;> cases hleaf
  · exact .inl (h.grows.node i hi hmem)

theorem ending_eq (h : Closed E target τ τ') (hE : ∀ i ∈ E, ending (τ.node i).form = .leaf)
    (hi : i < τ.nodes.size) : ending (τ'.node i).form = ending (τ.node i).form := by
  obtain hnode | ⟨shape, links, hf, hnode⟩ | ⟨_, _, _, _, _, _, _, _, hf, hnode⟩ :=
    h.node_cases hE hi
  · rw [hnode]
  · rw [hnode]
  · rw [hnode, hf]
    rfl

end Closed

private theorem tails_leaves (ih : ∀ {i E}, EndsIn τ lo n i E →
      ∀ j ∈ E, (lo ≤ j ∧ j < τ.nodes.size) ∧ ending (τ.node j).form = .leaf)
    {tails : List Item} {Es : List (List Nat)} (h : TailEnds τ lo n tails Es) :
    ∀ j ∈ Es.flatten, (lo ≤ j ∧ j < τ.nodes.size) ∧ ending (τ.node j).form = .leaf := by
  induction h with
  | nil => simp
  | @cons t e tails Es ht _ ihtails =>
    intro j hj
    rw [List.flatten_cons, List.mem_append] at hj
    rcases hj with hj | hj
    · cases t with
      | node k => exact ih ht j hj
      | nothing => rw [ht] at hj; cases hj
      | link l => rw [ht] at hj; cases hj
    · exact ihtails j hj

theorem EndsIn.leaves (h : EndsIn τ lo n i E) :
    ∀ j ∈ E, (lo ≤ j ∧ j < τ.nodes.size) ∧ ending (τ.node j).form = .leaf := by
  induction n generalizing i E with
  | zero => exact h.elim
  | succ n ih =>
    obtain ⟨hi, h⟩ := h
    cases he : ending (τ.node i).form with
    | final =>
      rw [he] at h
      simp [h]
    | leaf =>
      rw [he] at h
      rw [h]
      simpa using ⟨hi, he⟩
    | other => rw [he] at h; exact h.elim
    | inner tails =>
      rw [he] at h
      obtain ⟨Es, hall, rfl⟩ := h
      exact tails_leaves ih hall

theorem TailEnds.leaves {tails : List Item} {Es : List (List Nat)} (h : TailEnds τ lo n tails Es) :
    ∀ j ∈ Es.flatten, (lo ≤ j ∧ j < τ.nodes.size) ∧ ending (τ.node j).form = .leaf :=
  tails_leaves (fun h => h.leaves) h

theorem EndsIn.closed (h : EndsIn τ lo n i E) {E' : List Nat} (hc : Closed E' target τ τ')
    (hE : ∀ j ∈ E', ending (τ.node j).form = .leaf) : EndsIn τ' lo n i E :=
  h.transfer (Nat.le_of_eq hc.size.symm) (fun _ _ hj => hc.ending_eq hE hj) (Nat.le_refl lo)
    (Nat.le_refl n)

private theorem headD_blank {labels : List Label} (h : ∀ l ∈ labels, l = some "") :
    labels.headD (some "") = some "" := by
  cases labels with
  | nil => rfl
  | cons l rest => exact h l List.mem_cons_self

theorem TailEnds.closed {tails : List Item} {Es : List (List Nat)} (h : TailEnds τ lo n tails Es)
    {E' : List Nat} (hc : Closed E' target τ τ')
    (hE : ∀ j ∈ E', ending (τ.node j).form = .leaf) : TailEnds τ' lo n tails Es := by
  refine List.Forall₂.imp ?_ h
  intro t e ht
  cases t with
  | node j => exact EndsIn.closed ht hc hE
  | nothing => exact ht
  | link l => exact ht

theorem tails_close {connectTail : Nat → Action Unit} (ih : ∀ {τ : Store} {i : Nat} {E : List Nat},
      τ.Sound → target.Within τ → EndsIn τ lo n i E → E.Nodup →
      ∃ τ', connectTail i τ = .ok () τ' ∧ Closed E target τ τ') (tails : List Item) :
    ∀ {τ : Store} {Es : List (List Nat)}, τ.Sound → target.Within τ → TailEnds τ lo n tails Es →
      Es.flatten.Nodup → ∃ τ', (tails.forM fun t =>
        match t with
        | .node j => connectTail j
        | _ => pure () : Action Unit) τ = .ok () τ' ∧ Closed Es.flatten target τ τ' := by
  induction tails with
  | nil =>
    intro τ Es hs _ h _
    cases h
    exact ⟨τ, rfl, .refl hs⟩
  | cons t tails ihtails =>
    intro τ Es hs ht h hnodup
    have hleaves := h.leaves
    cases h with
    | @cons _ e _ Es hfirst hrest =>
    rw [List.flatten_cons] at hleaves hnodup ⊢
    obtain ⟨hne, hnEs, hapart⟩ := List.nodup_append.1 hnodup
    obtain ⟨τ₁, hrun₁, h₁⟩ : ∃ τ₁, (match t with
        | .node j => connectTail j
        | _ => pure () : Action Unit) τ = .ok () τ₁ ∧ Closed e target τ τ₁ := by
      cases t with
      | node j => exact ih hs ht hfirst hne
      | nothing => rw [hfirst]; exact ⟨τ, rfl, .refl hs⟩
      | link l => rw [hfirst]; exact ⟨τ, rfl, .refl hs⟩
    have hleaf : ∀ j ∈ e, ending (τ.node j).form = .leaf := fun j hj =>
      (hleaves j (List.mem_append_left _ hj)).2
    have hrest₁ : TailEnds τ₁ lo n tails Es := TailEnds.closed hrest h₁ hleaf
    obtain ⟨τ₂, hrun₂, h₂⟩ := ihtails h₁.grows.sound (h₁.grows.within ht) hrest₁ hnEs
    refine ⟨τ₂, Eq.trans (forM_cons_ok ?_) hrun₂, h₁.trans h₂ (fun j hj => (hleaves j hj).1.2) ?_⟩
    · exact hrun₁
    · intro j hj hj'
      exact hapart j hj j hj' rfl

theorem ending_of_isFinal {f : Form} (h : f.isFinal = true) : ending f = .final := by
  cases f with
  | box shape => simpa [ending, Form.isFinal] using h
  | group role head tails d c => cases role <;> first | rfl | cases h
  | decision role yes no => cases h
  | bridge answer parent child labels link => cases h

theorem ending_group {role head tails d c}
    (h : (Form.group role head tails d c).isFinal = false) :
    ending (.group role head tails d c) = .inner tails := by
  cases role <;> first | rfl | cases h

theorem connectWithin_closes (n : Nat) : ∀ {τ : Store} {fuel i : Nat} {E : List Nat}
    {labels : List Label}, n ≤ fuel → (∀ l ∈ labels, l = some "") → τ.Sound → target.Within τ →
    EndsIn τ lo n i E → E.Nodup →
    ∃ τ', connectWithin fuel i target labels τ = .ok () τ' ∧ Closed E target τ τ' := by
  induction n with
  | zero =>
    intro τ fuel i E labels _ _ _ _ h
    exact h.elim
  | succ n ih =>
    intro τ fuel i E labels hfuel hblank hs ht h hnodup
    obtain ⟨fuel, rfl⟩ : ∃ f, fuel = f + 1 := ⟨fuel - 1, by omega⟩
    have hhead := headD_blank hblank
    obtain ⟨hi, h⟩ := h
    by_cases hfinal : (τ.node i).form.isFinal = true
    · rw [ending_of_isFinal hfinal] at h
      subst h
      exact ⟨τ, connectWithin_final fuel target labels hfinal, .refl hs⟩
    cases hf : (τ.node i).form with
    | box shape =>
      rw [hf] at h hfinal
      have hjump : shape ≠ .jump := by simpa [Form.isFinal] using hfinal
      simp only [ending, hjump, if_false] at h
      subst h
      refine ⟨_, connectWithin_plain fuel target labels ?_ (hs.fits i).whole, ?_⟩
      · simp [hf, Form.takesLinks, hjump]
      · rw [hhead]
        exact .withLink hs ht hi.2 hf
    | bridge answer parent child old link =>
      rw [hf] at h
      simp only [ending] at h
      subst h
      exact ⟨_, connectWithin_bridge fuel target labels hf, .moveBridge hs ht hi.2 hf hblank⟩
    | decision role yes no =>
      rw [hf] at h
      exact h.elim
    | group role head tails d c =>
      have hinner : (τ.node i).form.isFinal = false := by simpa using hfinal
      rw [hf, ending_group (hf ▸ hinner)] at h
      obtain ⟨Es, hall, rfl⟩ := h
      rw [connectWithin_group fuel target labels hf hinner, hhead]
      exact tails_close (fun hs ht h hn => ih (by omega) (by simp) hs ht h hn)
        tails hs ht hall hnodup

theorem connect_closes (hs : τ.Sound) (ht : target.Within τ) (h : EndsIn τ lo n i E)
    (hnodup : E.Nodup) (hn : n ≤ τ.nodes.size + 1) :
    ∃ τ', connect i target [] τ = .ok () τ' ∧ Closed E target τ τ' :=
  connectWithin_closes n hn (by simp) hs ht h hnodup

variable {σ : Store} {xs ys : List (Vertex Site)} {w : Site}

theorem ends_subset {x : Vertex Site} : ∀ i ∈ x.ends, i ∈ x.nodes := by
  intro i hi
  rcases x with ⟨s, _ | ⟨labels, _ | t⟩⟩ | ⟨s, _ | _ | y, _ | z⟩ <;>
    simp_all [Vertex.ends, Vertex.nodes]
  tauto

theorem eq_of_mem_nodes (h : (xs.flatMap Vertex.nodes).Nodup) {x y : Vertex Site} (hx : x ∈ xs)
    (hy : y ∈ xs) (hi : i ∈ x.nodes) (hj : i ∈ y.nodes) : x = y := by
  induction xs with
  | nil => cases hx
  | cons z zs ih =>
    rw [List.flatMap_cons] at h
    obtain ⟨-, hzs, hapart⟩ := List.nodup_append.1 h
    have hclash : ∀ v ∈ zs, i ∈ z.nodes → i ∈ v.nodes → False := fun v hv hz hv' =>
      hapart i hz i (List.mem_flatMap.2 ⟨v, hv, hv'⟩) rfl
    rcases List.mem_cons.1 hx with rfl | hxs <;> rcases List.mem_cons.1 hy with rfl | hys
    · rfl
    · exact (hclash y hys hi hj).elim
    · exact (hclash x hxs hj hi).elim
    · exact ih hzs hxs hys

theorem AnswerAt.close (hs : τ.Sound) (hc : Closed E target τ τ') (ht : target.Within τ)
    (hw : Arrives τ target w) {s : Site} {b l : Nat} {word : String}
    (h : AnswerAt τ s b l word none) (hb : b ∈ E) (hl : l < τ.links.size)
    (hrest : ∀ i ∈ s.rest, i ∉ E ∧ i < τ.nodes.size) : AnswerAt τ' s b l word (some w) := by
  obtain ⟨⟨item, labels, ⟨hname, answer, k, hf, -⟩, hword, -⟩, hvia⟩ := h
  obtain ⟨k', labels', -, hnode, hlink, hshown⟩ := hc.bridge hb hf
  refine ⟨⟨target, labels', ⟨?_, answer, k', ?_, hlink⟩, hshown.trans hword,
    hc.grows.arrives ht hw⟩, ?_⟩
  · rw [hnode]
    exact hname
  · rw [hnode]
  · rw [hc.grows.link l hl]
    rcases hvia with hdirect | ⟨b', hmem, labels'', htarget, hb'⟩
    · exact .inl hdirect
    · exact .inr ⟨b', hmem, labels'', htarget,
        hb'.grow hs hc.grows (hrest b' hmem).1 (hrest b' hmem).2⟩

/-- An answer leads to the target if its bridge was waiting, and where it led before if not. -/
theorem AnswerAt.lead (hs : τ.Sound) (hc : Closed E target τ τ') (ht : target.Within τ)
    (hw : Arrives τ target w) {s : Site} {b l : Nat} {word : String} {y : Option Site}
    (h : AnswerAt τ s b l word y) (hb : b ∈ E ↔ y = none) (hlt : b < τ.nodes.size)
    (hl : l < τ.links.size) (hrest : ∀ i ∈ s.rest, i ∉ E ∧ i < τ.nodes.size) :
    AnswerAt τ' s b l word (y.or (some w)) := by
  cases y with
  | none => exact h.close hs hc ht hw (hb.2 rfl) hl hrest
  | some t =>
    refine h.grow hs hc.grows ?_ hl
    rintro i (rfl | hi)
    · exact ⟨(fun hmem => nomatch hb.1 hmem), hlt⟩
    · exact hrest i hi

private theorem no_mem_ends {s : Site} {yes : Option (Option Site)} {no : Option Site}
    (hn : (Vertex.test s yes no).nodes.Nodup) : s.no ∈ (Vertex.test s yes no).ends ↔ no = none := by
  rcases yes with _ | _ | y <;> rcases no with _ | z <;>
    simp_all [Vertex.ends, Vertex.nodes]

private theorem yes_mem_ends {s : Site} {y no : Option Site}
    (hn : (Vertex.test s (some y) no).nodes.Nodup) :
    s.yes ∈ (Vertex.test s (some y) no).ends ↔ y = none := by
  rcases y with _ | y <;> rcases no with _ | z <;> simp_all [Vertex.ends, Vertex.nodes]
  exact Ne.symm hn.2.1.2

private theorem rest_not_mem_ends {s : Site} {yes : Option (Option Site)} {no : Option Site}
    (hn : (Vertex.test s yes no).nodes.Nodup) :
    s.node ∉ (Vertex.test s yes no).ends ∧ ∀ i ∈ s.rest, i ∉ (Vertex.test s yes no).ends := by
  rcases yes with _ | _ | y <;> rcases no with _ | z <;>
    simp_all [Vertex.ends, Vertex.nodes] <;> grind

theorem VertexAt.lead (hs : τ.Sound) (hc : Closed E target τ τ') (ht : target.Within τ)
    (hne : target ≠ .nothing) (hw : Arrives τ target w) {x : Vertex Site} (h : VertexAt τ x)
    (hn : x.nodes.Nodup) (hE : ∀ i ∈ x.nodes, i ∈ E ↔ i ∈ x.ends)
    (hlt : ∀ i ∈ x.nodes, i < τ.nodes.size) : VertexAt τ' (x.lead (some w)) := by
  cases x with
  | box s out =>
    have hnode := hlt s.node (by simp [Vertex.nodes])
    rcases out with _ | ⟨labels, _ | t⟩
    · exact VertexAt.grow hs hc.grows h fun i hi =>
        ⟨fun hmem => List.not_mem_nil ((hE i hi).1 hmem), hlt i hi⟩
    · obtain ⟨shape, item, hf, hshape, hlabels, rfl, hlinks⟩ := h
      have hmem : s.node ∈ E := (hE s.node (by simp [Vertex.nodes])).2 (by simp [Vertex.ends])
      obtain ⟨l, -, hsame, hlink⟩ := hc.box hmem hf
      rcases hlinks with ⟨-, hlinks⟩ | ⟨hnot, -⟩
      · refine ⟨shape, target, ?_, hshape, ?_, hc.grows.arrives ht hw, .inr ⟨hne, l, ?_, hlink⟩⟩
        · rw [hsame, hf]
        · rw [hsame]
          exact hlabels
        · rw [hsame, hlinks]
          rfl
      · exact absurd rfl hnot
    · exact VertexAt.grow hs hc.grows h fun i hi =>
        ⟨fun hmem => List.not_mem_nil ((hE i hi).1 hmem), hlt i hi⟩
  | test s yes no =>
    have hself : s.node ∈ (Vertex.test s yes no).nodes := by simp [Vertex.nodes]
    have hno : s.no ∈ (Vertex.test s yes no).nodes := by simp [Vertex.nodes]
    have hrest : ∀ i ∈ s.rest, i ∉ E ∧ i < τ.nodes.size := by
      intro i hi
      have hmem : i ∈ (Vertex.test s yes no).nodes := by simp [Vertex.nodes, hi]
      exact ⟨fun he => (rest_not_mem_ends hn).2 i hi ((hE i hmem).1 he), hlt i hmem⟩
    have hsame : τ'.node s.node = τ.node s.node :=
      hc.grows.node s.node (hlt _ hself) fun he => (rest_not_mem_ends hn).1 ((hE _ hself).1 he)
    have hnoE : s.no ∈ E ↔ no = none := (hE _ hno).trans (no_mem_ends hn)
    have hown : ∀ {l : Nat}, Item.link l ∈ (τ.node s.node).ownLinks → l < τ.links.size := by
      intro l hmem
      obtain ⟨l', he, hl⟩ := (hs.fits s.node).links _ hmem
      cases he
      exact hl
    cases yes with
    | none =>
      obtain ⟨role, yesItem, n, hf, hlinks, hanswer⟩ := h
      have hnl : n < τ.links.size := hown (by simp [Node.ownLinks, hf, hlinks])
      exact ⟨role, yesItem, n, by rw [hsame, hf], by rw [hsame, hlinks],
        hanswer.lead hs hc ht hw hnoE (hlt _ hno) hnl hrest⟩
    | some y =>
      obtain ⟨role, l, n, hf, hlinks, hyes, hanswer⟩ := h
      have hyesmem : s.yes ∈ (Vertex.test s (some y) no).nodes := by simp [Vertex.nodes]
      have hyE : s.yes ∈ E ↔ y = none := (hE _ hyesmem).trans (yes_mem_ends hn)
      have hll : l < τ.links.size := hown (by simp [Node.ownLinks, hf, hlinks])
      have hnl : n < τ.links.size := hown (by simp [Node.ownLinks, hf, hlinks])
      exact ⟨role, l, n, by rw [hsame, hf], by rw [hsame, hlinks],
        hyes.lead hs hc ht hw hyE (hlt _ hyesmem) hll hrest,
        hanswer.lead hs hc ht hw hnoE (hlt _ hno) hnl hrest⟩

@[simp] theorem nodes_lead (next : Option Site) (x : Vertex Site) :
    (x.lead next).nodes = x.nodes := by
  rcases x with ⟨s, out⟩ | ⟨s, _ | y, no⟩ <;> rfl

theorem Holds.lead (hs : τ.Sound) (h : Holds σ τ (xs ++ ys)) (hc : Closed E target τ τ')
    (hE : ∀ e, e ∈ E ↔ e ∈ xs.flatMap Vertex.ends) (ht : target.Within τ) (hne : target ≠ .nothing)
    (hw : Arrives τ target w) : Holds σ τ' (xs.map (Vertex.lead (some w)) ++ ys) := by
  have hxs : ∀ x ∈ xs, x ∈ xs ++ ys := fun x hx => List.mem_append_left ys hx
  have hexact : ∀ x ∈ xs, ∀ i ∈ x.nodes, i ∈ E ↔ i ∈ x.ends := by
    intro x hx i hi
    rw [hE i, List.mem_flatMap]
    refine ⟨?_, fun he => ⟨x, hx, he⟩⟩
    rintro ⟨y, hy, he⟩
    have heq := eq_of_mem_nodes h.nodes (hxs y hy) (hxs x hx) (ends_subset i he) hi
    rwa [← heq]
  have hforeign : ∀ y ∈ ys, ∀ i ∈ y.nodes, i ∉ E := by
    intro y hy i hi he
    obtain ⟨x, hx, hx'⟩ := List.mem_flatMap.1 ((hE i).1 he)
    have hnodes := h.nodes
    rw [List.flatMap_append] at hnodes
    exact (List.nodup_append.1 hnodes).2.2 i (List.mem_flatMap.2 ⟨x, hx, ends_subset i hx'⟩) i
      (List.mem_flatMap.2 ⟨y, hy, hi⟩) rfl
  refine h.rewire (Nat.le_of_eq hc.size.symm) (Nat.le_of_eq hc.nextId.symm) hc.grows.name ?_ ?_
  · simp [Function.comp_def]
  · intro z hz
    rcases List.mem_append.1 hz with hz | hz
    · obtain ⟨x, hx, rfl⟩ := List.mem_map.1 hz
      have hnodup : x.nodes.Nodup := (List.nodup_flatMap.1 h.nodes).1 x (hxs x hx)
      exact (h.wired x (hxs x hx)).lead hs hc ht hne hw hnodup (hexact x hx) fun i hi =>
        (h.inside x (hxs x hx) i hi).2
    · have hmem : z ∈ xs ++ ys := List.mem_append_right xs hz
      exact (h.wired z hmem).grow hs hc.grows fun i hi =>
        ⟨hforeign z hz i hi, (h.inside z hmem i hi).2⟩

end CodeChart.Chart
