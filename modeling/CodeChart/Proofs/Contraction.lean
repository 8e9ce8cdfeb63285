import CodeChart.Proofs.Depiction

/-! Simplification is contraction. The simplified chart of code is its unsimplified chart with some
tests and their bodies drawn together: every other node and every line that leaves it stay. -/
namespace CodeChart.Chart

open CodeChart.Graph Code

namespace Flow

variable {V W : Type}

structure Joining (V : Type) where
  loop : V → V → V
  branch : V → V → V

/-- The body of a loop that is drawn together with the test: one step. -/
def loopBody? : List (Flow V) → Option V
  | [.step b] => some b
  | _ => none

/-- The body of a branch that is drawn together with the test: one step, or what begins with a jump,
and no alternative. -/
def branchBody? : List (Flow V) → List (Flow V) → Option V
  | [.step b], [] => some b
  | .jump b :: _, [] => some b
  | _, _ => none

mutual

/-- Draws bodies together with their tests where that can be done. The cases of a selection have
been drawn that way already. -/
def contract (join : Joining V) : Flow V → Flow V
  | .branch test body orelse =>
    match branchBody? body orelse with
    | some b => .merged true (join.branch test b)
    | none => .branch test (contractAll join body) (contractAll join orelse)
  | .loop test body =>
    match loopBody? body with
    | some b => .merged false (join.loop test b)
    | none => .loop test (contractAll join body)
  | .routine start input body finish => .routine start input (contractAll join body) finish
  | t => t

def contractAll (join : Joining V) : List (Flow V) → List (Flow V)
  | [] => []
  | t :: rest => contract join t :: contractAll join rest

end

mutual

/-- The tests that contraction draws together with their bodies, and these bodies. -/
def joined : Flow V → List (V × V)
  | .branch test body orelse =>
    match branchBody? body orelse with
    | some b => [(test, b)]
    | none => joinedAll body ++ joinedAll orelse
  | .loop test body =>
    match loopBody? body with
    | some b => [(test, b)]
    | none => joinedAll body
  | .routine _ _ body _ => joinedAll body
  | _ => []

def joinedAll : List (Flow V) → List (V × V)
  | [] => []
  | t :: rest => joined t ++ joinedAll rest

end

section

variable {join : Joining V} {test b : V} {body orelse : List (Flow V)}

theorem loopBody?_eq_some : loopBody? body = some b ↔ body = [.step b] := by
  unfold loopBody?
  split
  · simp
  · rename_i hbody
    refine ⟨fun h => (nomatch h), fun h => ?_⟩
    exact (hbody b h).elim

theorem branchBody?_eq_some : branchBody? body orelse = some b ↔
    orelse = [] ∧ (body = [.step b] ∨ ∃ rest, body = .jump b :: rest) := by
  unfold branchBody?
  split
  · simp
  · simp
  · rename_i hstep hjump
    refine ⟨fun h => (nomatch h), ?_⟩
    rintro ⟨rfl, rfl | ⟨rest, rfl⟩⟩
    · exact (hstep b rfl rfl).elim
    · exact (hjump b rest rfl rfl).elim

theorem contract_loop (join : Joining V) (test : V) (body : List (Flow V)) :
    (∃ b, body = [.step b] ∧ contract join (.loop test body) = .merged false (join.loop test b) ∧
      joined (.loop test body) = [(test, b)]) ∨
    contract join (.loop test body) = .loop test (contractAll join body) ∧
      joined (.loop test body) = joinedAll body := by
  cases hbody : loopBody? body with
  | some b =>
    exact .inl ⟨b, loopBody?_eq_some.1 hbody, by simp [contract, hbody], by simp [joined, hbody]⟩
  | none => exact .inr ⟨by simp [contract, hbody], by simp [joined, hbody]⟩

theorem contract_branch (join : Joining V) (test : V) (body orelse : List (Flow V)) :
    (∃ b, orelse = [] ∧ (body = [.step b] ∨ ∃ rest, body = .jump b :: rest) ∧
      contract join (.branch test body orelse) = .merged true (join.branch test b) ∧
      joined (.branch test body orelse) = [(test, b)]) ∨
    contract join (.branch test body orelse)
        = .branch test (contractAll join body) (contractAll join orelse) ∧
      joined (.branch test body orelse) = joinedAll body ++ joinedAll orelse := by
  cases hbody : branchBody? body orelse with
  | some b =>
    obtain ⟨horelse, hb⟩ := branchBody?_eq_some.1 hbody
    exact .inl ⟨b, horelse, hb, by simp [contract, hbody], by simp [joined, hbody]⟩
  | none => exact .inr ⟨by simp [contract, hbody], by simp [joined, hbody]⟩

end

theorem contract_eq_plain {join : Joining V} {t u : Flow V} (hu : u.isPlain = true) :
    contract join t = u ↔ t = u := by
  have hself : (contract join t).isPlain = true → contract join t = t := by
    intro h
    cases t with
    | branch test body orelse =>
      rcases contract_branch join test body orelse with ⟨b, -, -, hc, -⟩ | ⟨hc, -⟩ <;>
        rw [hc] at h <;> cases h
    | loop test body =>
      rcases contract_loop join test body with ⟨b, -, hc, -⟩ | ⟨hc, -⟩ <;> rw [hc] at h <;> cases h
    | routine start input body finish => cases h
    | _ => rfl
  constructor
  · rintro rfl
    exact (hself hu).symm
  · rintro rfl
    cases t <;> first | rfl | cases hu

@[simp] theorem contract_eq_step {join : Joining V} {t : Flow V} {b : V} :
    contract join t = .step b ↔ t = .step b := contract_eq_plain rfl

@[simp] theorem contract_eq_jump {join : Joining V} {t : Flow V} {b : V} :
    contract join t = .jump b ↔ t = .jump b := contract_eq_plain rfl

@[simp] theorem contractAll_eq_nil {join : Joining V} {ts : List (Flow V)} :
    contractAll join ts = [] ↔ ts = [] := by
  cases ts <;> simp [contractAll]

theorem loopBody?_contractAll (join : Joining V) (body : List (Flow V)) :
    loopBody? (contractAll join body) = loopBody? body := by
  refine Option.ext fun b => ?_
  rw [loopBody?_eq_some, loopBody?_eq_some]
  rcases body with _ | ⟨t, _ | ⟨u, rest⟩⟩ <;> simp [contractAll]

theorem branchBody?_contractAll (join : Joining V) (body orelse : List (Flow V)) :
    branchBody? (contractAll join body) (contractAll join orelse) = branchBody? body orelse := by
  refine Option.ext fun b => ?_
  rw [branchBody?_eq_some, branchBody?_eq_some, contractAll_eq_nil]
  rcases body with _ | ⟨t, _ | ⟨u, rest⟩⟩ <;> simp [contractAll]

def atTest : Joining V := ⟨fun test _ => test, fun test _ => test⟩

theorem entry_contract (t : Flow V) : (contract atTest t).entry = t.entry := by
  cases t with
  | branch test body orelse =>
    rcases contract_branch atTest test body orelse with ⟨b, -, -, hc, -⟩ |
        ⟨hc, -⟩ <;> rw [hc] <;> rfl
  | loop test body =>
    rcases contract_loop atTest test body with ⟨b, -, hc, -⟩ | ⟨hc, -⟩ <;> rw [hc] <;> rfl
  | _ => rfl

theorem entryOf_contractAll (ts : List (Flow V)) :
    entryOf (contractAll atTest ts) = entryOf ts := by
  cases ts with
  | nil => rfl
  | cons t rest => exact congrArg some (entry_contract t)

theorem perm_interleave (as bs cs as' bs' cs' : List V) :
    ((as ++ bs ++ cs) ++ (as' ++ bs' ++ cs')).Perm ((as ++ as') ++ (bs ++ bs') ++ (cs ++ cs')) := by
  classical
  rw [List.perm_iff_count]
  intro v
  simp only [List.count_append]
  omega

mutual

/-- The places of a flow are those of its contraction, the bodies that are drawn with their tests,
and places that nothing leads to. -/
theorem places_contract (t : Flow V) : ∃ dead,
    t.places.Perm ((contract atTest t).places ++ (joined t).map Prod.snd ++ dead) := by
  cases t with
  | branch test body orelse =>
    rcases contract_branch atTest test body orelse with ⟨b, rfl, rfl | ⟨rest, rfl⟩, hc, hj⟩ |
        ⟨hc, hj⟩
    · exact ⟨[], by rw [hc, hj]; exact .refl _⟩
    · exact ⟨placesAll rest, by rw [hc, hj]; simp [places, placesAll, atTest]⟩
    · obtain ⟨dead, hbody⟩ := placesAll_contract body
      obtain ⟨dead', horelse⟩ := placesAll_contract orelse
      refine ⟨dead ++ dead', ?_⟩
      rw [hc, hj, places, places, List.map_append]
      exact ((hbody.append horelse).trans (perm_interleave _ _ _ _ _ _)).cons test
  | loop test body =>
    rcases contract_loop atTest test body with ⟨b, rfl, hc, hj⟩ | ⟨hc, hj⟩
    · exact ⟨[], by rw [hc, hj]; exact .refl _⟩
    · obtain ⟨dead, hbody⟩ := placesAll_contract body
      exact ⟨dead, by rw [hc, hj]; exact hbody.cons test⟩
  | routine start input body finish =>
    obtain ⟨dead, hbody⟩ := placesAll_contract body
    refine ⟨dead, ?_⟩
    rw [contract, joined, places, places]
    have hfinish := (hbody.append_right [finish]).trans (perm_interleave _ _ _ [finish] [] [])
    rw [List.append_nil, List.append_nil] at hfinish
    exact (hfinish.cons input).cons start
  | _ => exact ⟨[], by simp [contract, joined]⟩

theorem placesAll_contract (ts : List (Flow V)) : ∃ dead,
    (placesAll ts).Perm
      (placesAll (contractAll atTest ts) ++ (joinedAll ts).map Prod.snd ++ dead) := by
  cases ts with
  | nil => exact ⟨[], .refl _⟩
  | cons t rest =>
    obtain ⟨dead, ht⟩ := places_contract t
    obtain ⟨dead', hrest⟩ := placesAll_contract rest
    refine ⟨dead ++ dead', ?_⟩
    rw [contractAll, placesAll, placesAll, joinedAll, List.map_append]
    exact (ht.append hrest).trans (perm_interleave _ _ _ _ _ _)

end

mutual

/-- A vertex of a contraction is one of the flow, unless it stands for a test and its body. -/
theorem vertices_contract {xs : List (Vertex V)} {next : Option V} {direction : List String}
    (t : Flow V) (h : Placed xs next (vertices direction t)) {y : Vertex V}
    (hy : y ∈ vertices direction (contract atTest t)) :
    y.lead next ∈ xs ∨ ∃ b, (y.place, b) ∈ joined t := by
  cases t with
  | branch test body orelse =>
    rcases contract_branch atTest test body orelse with ⟨b, -, -, hc, hj⟩ | ⟨hc, hj⟩
    · rw [hc] at hy
      obtain rfl := List.mem_singleton.1 hy
      exact .inr ⟨b, by rw [hj]; exact List.mem_cons_self⟩
    · rw [hc, vertices, entryOf_contractAll, entryOf_contractAll] at hy
      rw [hj]
      rcases List.mem_cons.1 hy with rfl | hy
      · exact .inl h.head
      · rcases List.mem_append.1 hy with hy | hy
        · refine (verticesAll_contract body h.tail.left hy).imp_right ?_
          exact fun ⟨b, hb⟩ => ⟨b, List.mem_append_left _ hb⟩
        · refine (verticesAll_contract orelse h.tail.right hy).imp_right ?_
          exact fun ⟨b, hb⟩ => ⟨b, List.mem_append_right _ hb⟩
  | loop test body =>
    rcases contract_loop atTest test body with ⟨b, -, hc, hj⟩ | ⟨hc, hj⟩
    · rw [hc] at hy
      obtain rfl := List.mem_singleton.1 hy
      exact .inr ⟨b, by rw [hj]; exact List.mem_cons_self⟩
    · rw [hc, vertices, entryOf_contractAll] at hy
      rw [hj]
      rcases List.mem_cons.1 hy with rfl | hy
      · exact .inl h.head
      · obtain ⟨z, hz, rfl⟩ := List.mem_map.1 hy
        rw [lead_lead, place_lead]
        exact verticesAll_contract body h.tail.of_lead hz
  | routine start input body finish =>
    rw [contract, vertices, entryOf_contractAll] at hy
    rcases List.mem_cons.1 hy with rfl | hy
    · exact .inl h.head
    · rcases List.mem_cons.1 hy with rfl | hy
      · exact .inl h.tail.head
      · rcases List.mem_append.1 hy with hy | hy
        · obtain ⟨z, hz, rfl⟩ := List.mem_map.1 hy
          rw [lead_lead, place_lead]
          exact verticesAll_contract body h.tail.tail.left.of_lead hz
        · exact .inl (h.tail.tail.right y hy)
  | _ => exact .inl (h y hy)

theorem verticesAll_contract {xs : List (Vertex V)} {next : Option V} {direction : List String}
    (ts : List (Flow V)) (h : Placed xs next (verticesAll direction ts)) {y : Vertex V}
    (hy : y ∈ verticesAll direction (contractAll atTest ts)) :
    y.lead next ∈ xs ∨ ∃ b, (y.place, b) ∈ joinedAll ts := by
  cases ts with
  | nil => cases hy
  | cons t rest =>
    cases rest with
    | nil =>
      refine (vertices_contract t h hy).imp_right ?_
      exact fun ⟨b, hb⟩ => ⟨b, List.mem_append_left _ hb⟩
    | cons u rest =>
      rw [contractAll, verticesAll_cons _ _ (by simp [contractAll]), entryOf_contractAll] at hy
      rw [verticesAll_cons _ _ (by simp)] at h
      rcases List.mem_append.1 hy with hy | hy
      · obtain ⟨z, hz, rfl⟩ := List.mem_map.1 hy
        rw [entryOf_cons, lead_lead, place_lead]
        refine (vertices_contract t h.left.of_lead hz).imp_right ?_
        exact fun ⟨b, hb⟩ => ⟨b, List.mem_append_left _ hb⟩
      · refine (verticesAll_contract (u :: rest) h.right hy).imp_right ?_
        exact fun ⟨b, hb⟩ => ⟨b, List.mem_append_right _ hb⟩

end

/-- In `xs` a test leads to a body, which leads back, on, or nowhere; in `ys` one place leads on. -/
inductive Joint (xs ys : List (Vertex V)) (test b : V) : Prop
  | intro (next : Option V) (out : Option (Arrow V)) (htest : .test test (some (some b)) next ∈ xs)
      (hbody : .box b out ∈ xs) (hout : ∀ a ∈ out, a.target = some test ∨ a.target = next)
      (hbox : .box test (some ⟨[], next⟩) ∈ ys)

mutual

theorem joint_of_joined {xs ys : List (Vertex V)} {next : Option V}
    {direction direction' : List String}
    (t : Flow V) (hx : Placed xs next (vertices direction t))
    (hy : Placed ys next (vertices direction' (contract atTest t))) {p : V × V}
    (hp : p ∈ joined t) :
    Joint xs ys p.1 p.2 := by
  cases t with
  | branch test body orelse =>
    rcases contract_branch atTest test body orelse with ⟨b, rfl, hbody, hc, hj⟩ | ⟨hc, hj⟩
    · rw [hj] at hp
      obtain rfl := List.mem_singleton.1 hp
      rw [hc] at hy
      rcases hbody with rfl | ⟨rest, rfl⟩
      · exact ⟨next, _, hx.head, hx.tail.head, by simp, hy.head⟩
      · obtain ⟨_, -, hjump⟩ := placed_head hx.tail.left
        exact ⟨next, none, hx.head, hjump.head, by simp, hy.head⟩
    · rw [hj] at hp
      rw [hc] at hy
      rcases List.mem_append.1 hp with hp | hp
      · exact joint_of_joinedAll body hx.tail.left hy.tail.left hp
      · exact joint_of_joinedAll orelse hx.tail.right hy.tail.right hp
  | loop test body =>
    rcases contract_loop atTest test body with ⟨b, rfl, hc, hj⟩ | ⟨hc, hj⟩
    · rw [hj] at hp
      obtain rfl := List.mem_singleton.1 hp
      rw [hc] at hy
      exact ⟨next, _, hx.head, hx.tail.head, by simp, hy.head⟩
    · rw [hj] at hp
      rw [hc] at hy
      exact joint_of_joinedAll body hx.tail.of_lead hy.tail.of_lead hp
  | routine start input body finish =>
    exact joint_of_joinedAll body hx.tail.tail.left.of_lead hy.tail.tail.left.of_lead hp
  | _ => cases hp

theorem joint_of_joinedAll {xs ys : List (Vertex V)} {next : Option V}
    {direction direction' : List String} (ts : List (Flow V))
    (hx : Placed xs next (verticesAll direction ts))
    (hy : Placed ys next (verticesAll direction' (contractAll atTest ts))) {p : V × V}
    (hp : p ∈ joinedAll ts) : Joint xs ys p.1 p.2 := by
  cases ts with
  | nil => cases hp
  | cons t rest =>
    rcases List.mem_append.1 hp with hp | hp
    · obtain ⟨_, -, hx⟩ := placed_head hx
      obtain ⟨_, -, hy⟩ := placed_head hy
      rw [entryOf_contractAll] at hy
      exact joint_of_joined t hx hy hp
    · exact joint_of_joinedAll rest (placed_tail hx) (placed_tail hy) hp

end

mutual

theorem box_of_merged {xs : List (Vertex V)} {next : Option V} {direction : List String}
    (t : Flow V) (h : Placed xs next (vertices direction t)) {v : V} (hv : v ∈ mergedBoxes t) :
    ∃ out, .box v out ∈ xs := by
  cases t with
  | merged isBranch w =>
    obtain rfl := List.mem_singleton.1 hv
    exact ⟨_, h.head⟩
  | branch test body orelse =>
    rcases List.mem_append.1 hv with hv | hv
    · exact box_of_mergedAll body h.tail.left hv
    · exact box_of_mergedAll orelse h.tail.right hv
  | loop test body => exact box_of_mergedAll body h.tail.of_lead hv
  | routine start input body finish => exact box_of_mergedAll body h.tail.tail.left.of_lead hv
  | case test body => exact box_of_mergedAll body h.tail hv
  | select first rest =>
    rw [vertices_select] at h
    rcases List.mem_append.1 hv with hv | hv
    · obtain ⟨_, -, h⟩ := placed_head h
      exact box_of_merged first h hv
    · exact box_of_mergedAll rest (placed_tail h) hv
  | _ => cases hv

theorem box_of_mergedAll {xs : List (Vertex V)} {next : Option V} {direction : List String}
    (ts : List (Flow V)) (h : Placed xs next (verticesAll direction ts)) {v : V}
    (hv : v ∈ mergedBoxesAll ts) : ∃ out, .box v out ∈ xs := by
  cases ts with
  | nil => cases hv
  | cons t rest =>
    rcases List.mem_append.1 hv with hv | hv
    · obtain ⟨_, -, h⟩ := placed_head h
      exact box_of_merged t h hv
    · exact box_of_mergedAll rest (placed_tail h) hv

end

mutual

/-- Contraction draws the tests of the pairs together with their bodies, and no others. -/
theorem merged_contract (t : Flow V) (v : V) :
    (v ∈ (joined t).map Prod.fst → v ∈ mergedBoxes (contract atTest t)) ∧
    (v ∈ mergedBoxes (contract atTest t) → v ∈ mergedBoxes t ∨ v ∈ (joined t).map Prod.fst) := by
  cases t with
  | branch test body orelse =>
    rcases contract_branch atTest test body orelse with ⟨b, -, -, hc, hj⟩ | ⟨hc, hj⟩
    · rw [hc, hj]
      exact ⟨id, .inr⟩
    · obtain ⟨hbody, hbody'⟩ := mergedAll_contract body v
      obtain ⟨horelse, horelse'⟩ := mergedAll_contract orelse v
      rw [hc, hj, mergedBoxes, mergedBoxes, List.map_append]
      simp only [List.mem_append]
      exact ⟨Or.imp hbody horelse, fun h => by
        rcases h with h | h
        · exact (hbody' h).imp .inl .inl
        · exact (horelse' h).imp .inr .inr⟩
  | loop test body =>
    rcases contract_loop atTest test body with ⟨b, -, hc, hj⟩ | ⟨hc, hj⟩
    · rw [hc, hj]
      exact ⟨id, .inr⟩
    · rw [hc, hj]
      exact mergedAll_contract body v
  | routine start input body finish => exact mergedAll_contract body v
  | _ => exact ⟨fun h => (nomatch h), .inl⟩

theorem mergedAll_contract (ts : List (Flow V)) (v : V) :
    (v ∈ (joinedAll ts).map Prod.fst → v ∈ mergedBoxesAll (contractAll atTest ts)) ∧
    (v ∈ mergedBoxesAll (contractAll atTest ts) →
      v ∈ mergedBoxesAll ts ∨ v ∈ (joinedAll ts).map Prod.fst) := by
  cases ts with
  | nil => exact ⟨fun h => (nomatch h), .inl⟩
  | cons t rest =>
    obtain ⟨ht, ht'⟩ := merged_contract t v
    obtain ⟨hrest, hrest'⟩ := mergedAll_contract rest v
    rw [contractAll, joinedAll, mergedBoxesAll, mergedBoxesAll, List.map_append]
    simp only [List.mem_append]
    exact ⟨Or.imp ht hrest, fun h => by
      rcases h with h | h
      · exact (ht' h).imp .inl .inl
      · exact (hrest' h).imp .inr .inr⟩

end

end Flow

def Arc (xs : List (Vertex V)) (u : V) (labels : List String) (w : V) : Prop :=
  ∃ x ∈ xs, x.place = u ∧ ∃ a ∈ x.arrows, a.labels = labels ∧ a.target = some w

theorem Reached.arc {xs : List (Vertex V)} {e u w : V} {labels : List String} (h : Reached xs e u)
    (harc : Arc xs u labels w) : Reached xs e w := by
  obtain ⟨x, hx, rfl, a, ha, -, hw⟩ := harc
  exact .arrow h hx ha hw

/-- A graph and what is left of it when pairs of a test and its body are drawn as one place. -/
structure Contracts (xs ys : List (Vertex V)) (pairs : List (V × V)) : Prop where
  nodup : (xs.map Vertex.place).Nodup
  nodup' : (ys.map Vertex.place).Nodup
  targets : Flow.TargetsIn (· ∈ ys.map Vertex.place) ys
  kept : ∀ y ∈ ys, y ∈ xs ∨ ∃ b, (y.place, b) ∈ pairs
  joint : ∀ p ∈ pairs, Flow.Joint xs ys p.1 p.2
  inner : ∀ p ∈ pairs, p.2 ∉ ys.map Vertex.place
  once : (pairs.map Prod.snd).Nodup

theorem contracts_of_flow {ts : List (Flow V)} (h : (Flow.placesAll ts).Nodup) :
    Contracts (Flow.verticesAll [] ts) (Flow.verticesAll [] (Flow.contractAll Flow.atTest ts))
      (Flow.joinedAll ts) := by
  obtain ⟨dead, hperm⟩ := Flow.placesAll_contract ts
  have hsplit := hperm.nodup_iff.1 h
  rw [List.append_assoc, List.nodup_append] at hsplit
  obtain ⟨hshown, hrest, hdisjoint⟩ := hsplit
  refine ⟨?_, ?_, Flow.verticesAll_targets _ _, ?_, ?_, ?_, ?_⟩
  · rwa [Flow.map_place_verticesAll]
  · rwa [Flow.map_place_verticesAll]
  · intro y hy
    have hkept := Flow.verticesAll_contract ts (Flow.placed_self _) hy
    rwa [Flow.lead_none] at hkept
  · intro p hp
    exact Flow.joint_of_joinedAll ts (Flow.placed_self _) (Flow.placed_self _) hp
  · intro p hp hmem
    rw [Flow.map_place_verticesAll] at hmem
    exact hdisjoint _ hmem _ (List.mem_append_left _ (List.mem_map_of_mem hp)) rfl
  · exact (List.nodup_append.1 hrest).1

namespace Contracts

variable {xs ys : List (Vertex V)} {pairs : List (V × V)} {e u v w b : V} {labels : List String}
  (h : Contracts xs ys pairs)
include h

theorem target_mem (harc : Arc ys u labels w) : w ∈ ys.map Vertex.place := by
  obtain ⟨y, hy, -, a, ha, -, hw⟩ := harc
  exact h.targets y hy a ha w hw

theorem arc_of_joint (hp : (u, b) ∈ pairs) : ∃ next, (∀ w, next = some w → Arc ys u [] w) ∧
    (∀ labels w, Arc ys u labels w → next = some w) ∧
    (∀ labels w, Arc xs u labels w ↔ labels = ["yes"] ∧ w = b ∨ labels = ["no"] ∧ next = some w) ∧
    ∀ labels w, Arc xs b labels w → w = u ∨ next = some w := by
  obtain ⟨next, out, htest, hbody, hout, hbox⟩ := h.joint _ hp
  refine ⟨next, ?_, ?_, ?_, ?_⟩
  · rintro w rfl
    exact ⟨_, hbox, rfl, _, List.mem_singleton.2 rfl, rfl, rfl⟩
  · rintro labels w ⟨y, hy, hplace, a, ha, -, hw⟩
    obtain rfl := List.inj_on_of_nodup_map h.nodup' hy hbox hplace
    obtain rfl := List.mem_singleton.1 ha
    exact hw
  · intro labels w
    constructor
    · rintro ⟨x, hx, hplace, a, ha, rfl, hw⟩
      obtain rfl := List.inj_on_of_nodup_map h.nodup hx htest hplace
      rcases Flow.mem_arrows_test.1 ha with ⟨_, ⟨⟩, rfl⟩ | rfl
      · cases hw
        exact .inl ⟨rfl, rfl⟩
      · exact .inr ⟨rfl, hw⟩
    · rintro (⟨rfl, rfl⟩ | ⟨rfl, rfl⟩)
      · exact ⟨_, htest, rfl, _, Flow.mem_arrows_test.2 (.inl ⟨_, rfl, rfl⟩), rfl, rfl⟩
      · exact ⟨_, htest, rfl, _, Flow.mem_arrows_test.2 (.inr rfl), rfl, rfl⟩
  · rintro labels w ⟨x, hx, hplace, a, ha, -, hw⟩
    obtain rfl := List.inj_on_of_nodup_map h.nodup hx hbody hplace
    rcases hout a (Option.mem_toList.1 ha) with ha | ha
    · exact .inl (Option.some.inj (hw.symm.trans ha))
    · exact .inr (ha.symm.trans hw)

theorem arc_iff_of_kept (hu : u ∈ ys.map Vertex.place) (hfree : ∀ b, (u, b) ∉ pairs) :
    Arc xs u labels w ↔ Arc ys u labels w := by
  obtain ⟨y, hy, rfl⟩ := List.mem_map.1 hu
  have hxy : y ∈ xs := (h.kept y hy).resolve_right fun ⟨b, hb⟩ => hfree b hb
  constructor
  · rintro ⟨x, hx, hplace, harrow⟩
    rw [List.inj_on_of_nodup_map h.nodup hx hxy hplace] at harrow
    exact ⟨y, hy, rfl, harrow⟩
  · rintro ⟨x, hx, hplace, harrow⟩
    rw [List.inj_on_of_nodup_map h.nodup' hx hy hplace] at harrow
    exact ⟨y, hxy, rfl, harrow⟩

theorem exists_arc (hu : u ∈ ys.map Vertex.place) (harc : Arc ys u labels w) :
    ∃ labels', Arc xs u labels' w := by
  by_cases hfree : ∀ b, (u, b) ∉ pairs
  · exact ⟨labels, (h.arc_iff_of_kept hu hfree).2 harc⟩
  · obtain ⟨b, hb⟩ := not_forall_not.1 hfree
    obtain ⟨next, -, hnext, hxs, -⟩ := h.arc_of_joint hb
    exact ⟨["no"], (hxs _ w).2 (.inr ⟨rfl, hnext labels w harc⟩)⟩

/-- An arrow of the graph is one of the contracted graph, unless it leads to the body of a test. -/
theorem exists_arc_contract (hu : u ∈ ys.map Vertex.place) (harc : Arc xs u labels w) :
    (u, w) ∈ pairs ∨ ∃ labels', Arc ys u labels' w := by
  by_cases hfree : ∀ b, (u, b) ∉ pairs
  · exact .inr ⟨labels, (h.arc_iff_of_kept hu hfree).1 harc⟩
  · obtain ⟨b, hb⟩ := not_forall_not.1 hfree
    obtain ⟨next, hys, -, hxs, -⟩ := h.arc_of_joint hb
    rcases (hxs _ _).1 harc with ⟨-, rfl⟩ | ⟨-, hw⟩
    · exact .inl hb
    · exact .inr ⟨[], hys w hw⟩

/-- What is reached in the graph is reached after contraction, as itself or by its test. -/
theorem reached_contract (he : e ∈ ys.map Vertex.place) (hv : Reached xs e v) :
    Reached ys e v ∨ ∃ t, (t, v) ∈ pairs ∧ Reached ys e t := by
  induction hv with
  | entry => exact .inl .entry
  | @arrow x a w _ hx ha hw ih =>
    have harc : Arc xs x.place a.labels w := ⟨x, hx, rfl, a, ha, rfl, hw⟩
    rcases ih with hreached | ⟨t, hp, hreached⟩
    · rcases h.exists_arc_contract (hreached.mem h.targets he) harc with hp | ⟨labels, harc'⟩
      · exact .inr ⟨_, hp, hreached⟩
      · exact .inl (hreached.arc harc')
    · obtain ⟨next, hys, -, -, hbody⟩ := h.arc_of_joint hp
      rcases hbody _ _ harc with rfl | hw
      · exact .inl hreached
      · exact .inl (hreached.arc (hys w hw))

theorem reached_of_contract (he : e ∈ ys.map Vertex.place) (hv : Reached ys e v) :
    Reached xs e v := by
  induction hv with
  | entry => exact .entry
  | @arrow y a w hreached hy ha hw ih =>
    have harc : Arc ys y.place a.labels w := ⟨y, hy, rfl, a, ha, rfl, hw⟩
    obtain ⟨labels, harc'⟩ := h.exists_arc (hreached.mem h.targets he) harc
    exact ih.arc harc'

theorem test_mem {p : V × V} (hp : p ∈ pairs) : p.1 ∈ ys.map Vertex.place := by
  obtain ⟨next, out, -, -, -, hbox⟩ := h.joint p hp
  exact List.mem_map.2 ⟨_, hbox, rfl⟩

theorem body_mem {p : V × V} (hp : p ∈ pairs) : p.2 ∈ xs.map Vertex.place := by
  obtain ⟨next, out, -, hbody, -, -⟩ := h.joint p hp
  exact List.mem_map.2 ⟨_, hbody, rfl⟩

theorem mem_of_contract (hv : v ∈ ys.map Vertex.place) : v ∈ xs.map Vertex.place := by
  obtain ⟨y, hy, rfl⟩ := List.mem_map.1 hv
  rcases h.kept y hy with hxy | ⟨b, hb⟩
  · exact List.mem_map_of_mem hxy
  · obtain ⟨next, out, htest, -, -, -⟩ := h.joint _ hb
    exact List.mem_map.2 ⟨_, htest, rfl⟩

theorem body_unique {b' : V} (hb : (u, b) ∈ pairs) (hb' : (u, b') ∈ pairs) : b = b' := by
  obtain ⟨next, out, htest, -, -, -⟩ := h.joint _ hb
  obtain ⟨next', out', htest', -, -, -⟩ := h.joint _ hb'
  have heq := List.inj_on_of_nodup_map h.nodup htest htest' rfl
  injection heq with _ hyes _
  exact Option.some.inj (Option.some.inj hyes)

theorem test_unique {u' : V} (hb : (u, b) ∈ pairs) (hb' : (u', b) ∈ pairs) : u = u' :=
  congrArg Prod.fst (List.inj_on_of_nodup_map h.once hb hb' rfl)

end Contracts

section

variable [DecidableEq V]

/-- The body of a test is drawn at the test, every other place at itself. -/
def squash (pairs : List (V × V)) (v : V) : V :=
  ((pairs.find? fun p => p.2 = v).map Prod.fst).getD v

variable {xs ys : List (Vertex V)} {pairs : List (V × V)} {e u v w b : V}

theorem Contracts.squash_body (h : Contracts xs ys pairs) (hp : (u, b) ∈ pairs) :
    squash pairs b = u := by
  unfold squash
  cases hfind : pairs.find? fun p => p.2 = b with
  | none => simpa using List.find?_eq_none.1 hfind _ hp
  | some p =>
    obtain ⟨t, b'⟩ := p
    obtain rfl : b' = b := by simpa using List.find?_some hfind
    exact h.test_unique (List.mem_of_find?_eq_some hfind) hp

theorem Contracts.squash_shown (h : Contracts xs ys pairs) (hv : v ∈ ys.map Vertex.place) :
    squash pairs v = v := by
  unfold squash
  rw [List.find?_eq_none.2]
  · rfl
  · intro p hp heq
    obtain rfl : p.2 = v := by simpa using heq
    exact h.inner p hp hv

theorem Contracts.reached_squash (h : Contracts xs ys pairs) (he : e ∈ ys.map Vertex.place)
    (hv : Reached xs e v) : Reached ys e (squash pairs v) := by
  rcases h.reached_contract he hv with hreached | ⟨t, hp, hreached⟩
  · rwa [h.squash_shown (hreached.mem h.targets he)]
  · rwa [h.squash_body hp]

theorem Contracts.squash_eq_iff (h : Contracts xs ys pairs) (he : e ∈ ys.map Vertex.place)
    (hu : Reached xs e u) (hv : Reached xs e v) :
    squash pairs u = squash pairs v ↔ u = v ∨ (u, v) ∈ pairs ∨ (v, u) ∈ pairs := by
  constructor
  · intro heq
    rcases h.reached_contract he hu with hu | ⟨t, hp, -⟩ <;>
      rcases h.reached_contract he hv with hv | ⟨t', hp', -⟩
    · rw [h.squash_shown (hu.mem h.targets he), h.squash_shown (hv.mem h.targets he)] at heq
      exact .inl heq
    · rw [h.squash_shown (hu.mem h.targets he), h.squash_body hp'] at heq
      exact .inr (.inl (heq ▸ hp'))
    · rw [h.squash_body hp, h.squash_shown (hv.mem h.targets he)] at heq
      exact .inr (.inr (heq ▸ hp))
    · rw [h.squash_body hp, h.squash_body hp'] at heq
      exact .inl (h.body_unique hp (heq ▸ hp'))
  · rintro (rfl | hp | hp)
    · rfl
    · rw [h.squash_body hp, h.squash_shown (h.test_mem hp)]
    · rw [h.squash_body hp, h.squash_shown (h.test_mem hp)]

end

end CodeChart.Chart
