import Mathlib.Data.List.Basic
import Mathlib.Tactic.Common

/-! Flow graphs of structured code, without any store. A flow is a statement with its places; a
place is a value of any type, so the same flow describes boxes of a chart, nodes of a store and
names. The vertices of a flow list each place with its arrows. An arrow without a target is an exit:
it waits for whatever follows. -/
namespace CodeChart.Chart

inductive Flow (V : Type) where
  /-- A statement of one box. -/
  | step (box : V)
  /-- A loop or, if `isBranch`, a branch that is drawn as one box. -/
  | merged (isBranch : Bool) (box : V)
  /-- A box that nothing follows. -/
  | jump (box : V)
  | halt (output : Option V) (finish : V)
  | branch (test : V) (body orelse : List (Flow V))
  | loop (test : V) (body : List (Flow V))
  | routine (start input : V) (body : List (Flow V)) (finish : V)
  | case (test : V) (body : List (Flow V))
  | select (first : Flow V) (rest : List (Flow V))

structure Arrow (V : Type) where
  labels : List String
  target : Option V

/-- A place of a flow and where it leads. A box has at most one arrow; a test has one for the answer
`no` and may have one for `yes`, each with or without a target. -/
inductive Vertex (V : Type) where
  | box (place : V) (out : Option (Arrow V))
  | test (place : V) (yes : Option (Option V)) (no : Option V)

variable {V W : Type}

namespace Vertex

def place : Vertex V → V
  | .box v _ => v
  | .test v _ _ => v

def arrows : Vertex V → List (Arrow V)
  | .box _ out => out.toList
  | .test _ yes no => yes.toList.map (⟨["yes"], ·⟩) ++ [⟨["no"], no⟩]

/-- Lets the exits lead to a target, if there is one. -/
def lead (next : Option V) : Vertex V → Vertex V
  | .box v out => .box v (out.map fun a => { a with target := a.target.or next })
  | .test v yes no => .test v (yes.map (·.or next)) (no.or next)

def map (f : V → W) : Vertex V → Vertex W
  | .box v out => .box (f v) (out.map fun a => ⟨a.labels, a.target.map f⟩)
  | .test v yes no => .test (f v) (yes.map (·.map f)) (no.map f)

end Vertex

namespace Flow

/-- Where a flow is entered. -/
def entry : Flow V → V
  | .step v => v
  | .merged _ v => v
  | .jump v => v
  | .halt output finish => output.getD finish
  | .branch test _ _ => test
  | .loop test _ => test
  | .routine start _ _ _ => start
  | .case test _ => test
  | .select first _ => entry first

/-- A list of flows is entered at its first. -/
def entryOf (ts : List (Flow V)) : Option V := ts.head?.map entry

mutual

/-- The vertices of a flow; `direction` is written on the exit of a plain step. -/
def vertices (direction : List String) : Flow V → List (Vertex V)
  | .step v => [.box v (some ⟨direction, none⟩)]
  | .merged _ v => [.box v (some ⟨[], none⟩)]
  | .jump v => [.box v none]
  | .halt none finish => [.box finish none]
  | .halt (some output) finish => [.box output (some ⟨[], some finish⟩), .box finish none]
  | .branch test body orelse =>
    .test test (some (entryOf body)) (entryOf orelse)
      :: (verticesAll [] body ++ verticesAll [] orelse)
  | .loop test body =>
    .test test (some (entryOf body)) none
      :: (verticesAll ["left"] body).map (Vertex.lead (some test))
  | .routine start input body finish =>
    .box start (some ⟨[], some input⟩)
      :: .box input ((entryOf body).map fun e => ⟨[], some e⟩)
      :: ((verticesAll [] body).map (Vertex.lead (some finish)) ++ [.box finish (some ⟨[], none⟩)])
  | .case test body =>
    .test test ((entryOf body).map some) none :: verticesAll [] body
  | .select first rest =>
    if rest.isEmpty then vertices [] first
    else (vertices [] first).map (Vertex.lead (entryOf rest)) ++ verticesAll [] rest

/-- In a list every exit of a flow leads to the entry of the next; the last keeps its exits. -/
def verticesAll (direction : List String) : List (Flow V) → List (Vertex V)
  | [] => []
  | t :: rest =>
    if rest.isEmpty then vertices direction t
    else (vertices [] t).map (Vertex.lead (entryOf rest)) ++ verticesAll direction rest

end

mutual

def map (f : V → W) : Flow V → Flow W
  | .step v => .step (f v)
  | .merged isBranch v => .merged isBranch (f v)
  | .jump v => .jump (f v)
  | .halt output finish => .halt (output.map f) (f finish)
  | .branch test body orelse => .branch (f test) (mapAll f body) (mapAll f orelse)
  | .loop test body => .loop (f test) (mapAll f body)
  | .routine start input body finish => .routine (f start) (f input) (mapAll f body) (f finish)
  | .case test body => .case (f test) (mapAll f body)
  | .select first rest => .select (map f first) (mapAll f rest)

def mapAll (f : V → W) : List (Flow V) → List (Flow W)
  | [] => []
  | t :: rest => map f t :: mapAll f rest

end

@[simp] theorem entryOf_nil : entryOf ([] : List (Flow V)) = none := rfl

@[simp] theorem entryOf_cons (t : Flow V) (ts : List (Flow V)) :
    entryOf (t :: ts) = some t.entry := rfl

theorem vertices_select (direction : List String) (first : Flow V) (rest : List (Flow V)) :
    vertices direction (.select first rest) = verticesAll [] (first :: rest) := rfl

@[simp] theorem verticesAll_nil (direction : List String) :
    verticesAll direction ([] : List (Flow V)) = [] := rfl

@[simp] theorem verticesAll_singleton (direction : List String) (t : Flow V) :
    verticesAll direction [t] = vertices direction t := rfl

theorem verticesAll_cons (direction : List String) (t : Flow V) {rest : List (Flow V)}
    (h : rest ≠ []) : verticesAll direction (t :: rest)
      = (vertices [] t).map (Vertex.lead (entryOf rest)) ++ verticesAll direction rest := by
  cases rest with
  | nil => exact absurd rfl h
  | cons u rest => rfl

theorem lead_lead (v : V) (next : Option V) (x : Vertex V) :
    (x.lead (some v)).lead next = x.lead (some v) := by
  cases x with
  | box p out =>
    cases out with
    | none => rfl
    | some a => cases ht : a.target <;> simp [Vertex.lead, ht]
  | test p yes no =>
    cases yes with
    | none => cases no <;> simp [Vertex.lead]
    | some y => cases y <;> cases no <;> simp [Vertex.lead]

theorem verticesAll_append (direction : List String) (ts : List (Flow V)) {us : List (Flow V)}
    (h : us ≠ []) : verticesAll direction (ts ++ us)
      = (verticesAll [] ts).map (Vertex.lead (entryOf us)) ++ verticesAll direction us := by
  induction ts with
  | nil => simp
  | cons t rest ih =>
    cases rest with
    | nil => exact verticesAll_cons direction t h
    | cons u rest =>
      have hcons : verticesAll direction (t :: u :: rest ++ us)
          = (vertices [] t).map (Vertex.lead (some u.entry))
            ++ verticesAll direction (u :: rest ++ us) := rfl
      have hhead : verticesAll [] (t :: u :: rest)
          = (vertices [] t).map (Vertex.lead (some u.entry)) ++ verticesAll [] (u :: rest) := rfl
      rw [hcons, hhead, ih, List.map_append, List.map_map, List.append_assoc]
      congr 1
      apply List.map_congr_left
      intro x _
      exact (lead_lead _ _ x).symm

theorem mapAll_eq (f : V → W) (ts : List (Flow V)) : mapAll f ts = ts.map (map f) := by
  induction ts with
  | nil => rfl
  | cons t rest ih => rw [mapAll, ih, List.map_cons]

theorem mapAll_append (f : V → W) (ts us : List (Flow V)) :
    mapAll f (ts ++ us) = mapAll f ts ++ mapAll f us := by
  rw [mapAll_eq, mapAll_eq, mapAll_eq, List.map_append]

theorem entry_map (f : V → W) (t : Flow V) : (t.map f).entry = f t.entry := by
  induction t using Flow.entry.induct with
  | case4 output finish => cases output <;> rfl
  | case9 first rest ih => exact ih
  | _ => rfl

theorem entryOf_mapAll (f : V → W) (ts : List (Flow V)) :
    entryOf (mapAll f ts) = (entryOf ts).map f := by
  cases ts with
  | nil => rfl
  | cons t rest => simp [mapAll, entry_map]

theorem map_lead (f : V → W) (next : Option V) (x : Vertex V) :
    (x.lead next).map f = (x.map f).lead (next.map f) := by
  cases x with
  | box p out =>
    cases out with
    | none => rfl
    | some a => cases ht : a.target <;> simp [Vertex.lead, Vertex.map, ht]
  | test p yes no =>
    cases yes with
    | none => cases no <;> simp [Vertex.lead, Vertex.map]
    | some y => cases y <;> cases no <;> simp [Vertex.lead, Vertex.map]

theorem map_map_lead (f : V → W) (next : Option V) (xs : List (Vertex V)) :
    (xs.map (Vertex.map f)).map (Vertex.lead (next.map f))
      = (xs.map (Vertex.lead next)).map (Vertex.map f) := by
  rw [List.map_map, List.map_map]
  apply List.map_congr_left
  intro x _
  exact (map_lead f next x).symm

mutual

theorem vertices_map (f : V → W) (direction : List String) (t : Flow V) :
    vertices direction (map f t) = (vertices direction t).map (Vertex.map f) := by
  cases t with
  | step v => rfl
  | merged isBranch v => rfl
  | jump v => rfl
  | halt output finish => cases output <;> rfl
  | branch test body orelse =>
    simp only [map, vertices, verticesAll_map f [] body, verticesAll_map f [] orelse,
      entryOf_mapAll, List.map_cons, List.map_append, Vertex.map, Option.map_some]
  | loop test body =>
    have hlead := map_map_lead f (some test) (verticesAll ["left"] body)
    simp only [Option.map_some] at hlead
    simp only [map, vertices, verticesAll_map f ["left"] body, entryOf_mapAll, List.map_cons,
      Vertex.map, Option.map_some, Option.map_none, hlead]
  | routine start input body finish =>
    have hlead := map_map_lead f (some finish) (verticesAll [] body)
    simp only [Option.map_some] at hlead
    simp only [map, vertices, verticesAll_map f [] body, entryOf_mapAll, List.map_cons,
      List.map_append, List.map_nil, Vertex.map, Option.map_some, Option.map_none, hlead]
    cases entryOf body <;> rfl
  | case test body =>
    simp only [map, vertices, verticesAll_map f [] body, entryOf_mapAll, List.map_cons, Vertex.map,
      Option.map_none]
    cases entryOf body <;> rfl
  | select first rest =>
    cases rest with
    | nil => exact vertices_map f [] first
    | cons u rest =>
      have hcons : vertices direction (map f (.select first (u :: rest)))
          = (vertices [] (map f first)).map (Vertex.lead ((some u.entry).map f))
            ++ verticesAll [] (mapAll f (u :: rest)) := by
        rw [Option.map_some, ← entry_map f u]
        rfl
      rw [hcons, vertices_map f [] first, map_map_lead, verticesAll_map f [] (u :: rest),
        ← List.map_append]
      rfl

theorem verticesAll_map (f : V → W) (direction : List String) (ts : List (Flow V)) :
    verticesAll direction (mapAll f ts) = (verticesAll direction ts).map (Vertex.map f) := by
  cases ts with
  | nil => rfl
  | cons t rest =>
    cases rest with
    | nil => exact vertices_map f direction t
    | cons u rest =>
      have hcons : verticesAll direction (mapAll f (t :: u :: rest))
          = (vertices [] (map f t)).map (Vertex.lead ((some u.entry).map f))
            ++ verticesAll direction (mapAll f (u :: rest)) := by
        rw [Option.map_some, ← entry_map f u]
        rfl
      rw [hcons, vertices_map f [] t, map_map_lead, verticesAll_map f direction (u :: rest),
        ← List.map_append]
      rfl

end

mutual

/-- The places of a flow in the order of its vertices. -/
def places : Flow V → List V
  | .step v => [v]
  | .merged _ v => [v]
  | .jump v => [v]
  | .halt output finish => output.toList ++ [finish]
  | .branch test body orelse => test :: (placesAll body ++ placesAll orelse)
  | .loop test body => test :: placesAll body
  | .routine start input body finish => start :: input :: (placesAll body ++ [finish])
  | .case test body => test :: placesAll body
  | .select first rest => places first ++ placesAll rest

def placesAll : List (Flow V) → List V
  | [] => []
  | t :: rest => places t ++ placesAll rest

end

theorem placesAll_append (ts us : List (Flow V)) :
    placesAll (ts ++ us) = placesAll ts ++ placesAll us := by
  induction ts with
  | nil => rfl
  | cons t rest ih => rw [List.cons_append, placesAll, ih, placesAll, List.append_assoc]

@[simp] theorem place_lead (next : Option V) (x : Vertex V) : (x.lead next).place = x.place := by
  cases x <;> rfl

theorem map_place_lead (next : Option V) (xs : List (Vertex V)) :
    (xs.map (Vertex.lead next)).map Vertex.place = xs.map Vertex.place := by
  rw [List.map_map]
  apply List.map_congr_left
  intro x _
  exact place_lead next x

mutual

theorem map_place_vertices (direction : List String) (t : Flow V) :
    (vertices direction t).map Vertex.place = places t := by
  cases t with
  | step v => rfl
  | merged isBranch v => rfl
  | jump v => rfl
  | halt output finish => cases output <;> rfl
  | branch test body orelse =>
    simp only [vertices, places, List.map_cons, List.map_append, Vertex.place,
      map_place_verticesAll [] body, map_place_verticesAll [] orelse]
  | loop test body =>
    simp only [vertices, places, List.map_cons, Vertex.place, map_place_lead,
      map_place_verticesAll ["left"] body]
  | routine start input body finish =>
    simp only [vertices, places, List.map_cons, List.map_append, List.map_nil, Vertex.place,
      map_place_lead, map_place_verticesAll [] body]
  | case test body =>
    simp only [vertices, places, List.map_cons, Vertex.place, map_place_verticesAll [] body]
  | select first rest =>
    cases rest with
    | nil => exact (map_place_vertices [] first).trans (List.append_nil _).symm
    | cons u rest =>
      rw [vertices_select, verticesAll_cons [] first (by simp), List.map_append, map_place_lead,
        map_place_vertices [] first, map_place_verticesAll [] (u :: rest)]
      rfl

theorem map_place_verticesAll (direction : List String) (ts : List (Flow V)) :
    (verticesAll direction ts).map Vertex.place = placesAll ts := by
  cases ts with
  | nil => rfl
  | cons t rest =>
    cases rest with
    | nil => exact (map_place_vertices direction t).trans (List.append_nil _).symm
    | cons u rest =>
      rw [verticesAll_cons direction t (by simp), List.map_append, map_place_lead,
        map_place_vertices [] t, map_place_verticesAll direction (u :: rest)]
      rfl

end

mutual

theorem map_congr {f g : V → W} (t : Flow V) (h : ∀ v ∈ places t, f v = g v) :
    map f t = map g t := by
  cases t with
  | step v => simp_all [places, map]
  | merged isBranch v => simp_all [places, map]
  | jump v => simp_all [places, map]
  | halt output finish => cases output <;> simp_all [places, map]
  | branch test body orelse =>
    simp only [places, List.mem_cons, List.mem_append] at h
    rw [map, map, h test (.inl rfl), mapAll_congr body fun v hv => h v (.inr (.inl hv)),
      mapAll_congr orelse fun v hv => h v (.inr (.inr hv))]
  | loop test body =>
    simp only [places, List.mem_cons] at h
    rw [map, map, h test (.inl rfl), mapAll_congr body fun v hv => h v (.inr hv)]
  | routine start input body finish =>
    simp only [places, List.mem_cons, List.mem_append] at h
    rw [map, map, h start (.inl rfl), h input (.inr (.inl rfl)),
      mapAll_congr body fun v hv => h v (.inr (.inr (.inl hv))),
      h finish (.inr (.inr (.inr (.inl rfl))))]
  | case test body =>
    simp only [places, List.mem_cons] at h
    rw [map, map, h test (.inl rfl), mapAll_congr body fun v hv => h v (.inr hv)]
  | select first rest =>
    simp only [places, List.mem_append] at h
    rw [map, map, map_congr first fun v hv => h v (.inl hv),
      mapAll_congr rest fun v hv => h v (.inr hv)]

theorem mapAll_congr {f g : V → W} (ts : List (Flow V)) (h : ∀ v ∈ placesAll ts, f v = g v) :
    mapAll f ts = mapAll g ts := by
  cases ts with
  | nil => rfl
  | cons t rest =>
    simp only [placesAll, List.mem_append] at h
    rw [mapAll, mapAll, map_congr t fun v hv => h v (.inl hv),
      mapAll_congr rest fun v hv => h v (.inr hv)]

end

def TargetsIn (P : V → Prop) (xs : List (Vertex V)) : Prop :=
  ∀ x ∈ xs, ∀ a ∈ x.arrows, ∀ v, a.target = some v → P v

theorem TargetsIn.mono {P Q : V → Prop} {xs : List (Vertex V)} (h : TargetsIn P xs)
    (hpq : ∀ v, P v → Q v) : TargetsIn Q xs :=
  fun x hx a ha v hv => hpq v (h x hx a ha v hv)

theorem TargetsIn.append {P : V → Prop} {xs ys : List (Vertex V)} (hx : TargetsIn P xs)
    (hy : TargetsIn P ys) : TargetsIn P (xs ++ ys) := by
  intro x hmem
  rcases List.mem_append.1 hmem with hmem | hmem
  · exact hx x hmem
  · exact hy x hmem

theorem TargetsIn.cons {P : V → Prop} {x : Vertex V} {xs : List (Vertex V)}
    (hx : ∀ a ∈ x.arrows, ∀ v, a.target = some v → P v) (h : TargetsIn P xs) :
    TargetsIn P (x :: xs) := by
  intro y hmem
  rcases List.mem_cons.1 hmem with rfl | hmem
  · exact hx
  · exact h y hmem

theorem mem_arrows_test {p : V} {yes : Option (Option V)} {no : Option V} {a : Arrow V} :
    a ∈ (Vertex.test p yes no).arrows ↔
      (∃ y, yes = some y ∧ a = ⟨["yes"], y⟩) ∨ a = ⟨["no"], no⟩ := by
  cases yes <;> simp [Vertex.arrows]

theorem arrows_lead {next : Option V} {x : Vertex V} {a : Arrow V} (ha : a ∈ (x.lead next).arrows) :
    ∃ b ∈ x.arrows, a.labels = b.labels ∧ a.target = b.target.or next := by
  cases x with
  | box p out =>
    cases out with
    | none => cases ha
    | some b =>
      obtain rfl := List.mem_singleton.1 ha
      exact ⟨b, by simp [Vertex.arrows], rfl, rfl⟩
  | test p yes no =>
    rw [Vertex.lead, mem_arrows_test] at ha
    rcases ha with ⟨_, hmap, rfl⟩ | rfl
    · obtain ⟨y, hy, rfl⟩ := Option.map_eq_some_iff.1 hmap
      exact ⟨⟨["yes"], y⟩, mem_arrows_test.2 (.inl ⟨y, hy, rfl⟩), rfl, rfl⟩
    · exact ⟨⟨["no"], no⟩, mem_arrows_test.2 (.inr rfl), rfl, rfl⟩

theorem TargetsIn.lead {P : V → Prop} {xs : List (Vertex V)} {next : Option V}
    (h : TargetsIn P xs) (hn : ∀ v, next = some v → P v) :
    TargetsIn P (xs.map (Vertex.lead next)) := by
  intro x hmem a ha v hv
  obtain ⟨y, hy, rfl⟩ := List.mem_map.1 hmem
  obtain ⟨b, hb, -, ht⟩ := arrows_lead ha
  rw [ht] at hv
  cases hbt : b.target with
  | none =>
    rw [hbt, Option.none_or] at hv
    exact hn v hv
  | some w =>
    rw [hbt, Option.some_or] at hv
    cases hv
    exact h y hy b hb v hbt

theorem entry_mem (direction : List String) (t : Flow V) :
    t.entry ∈ (vertices direction t).map Vertex.place := by
  induction t using Flow.entry.induct generalizing direction with
  | case4 output finish => cases output <;> simp [vertices, entry, Vertex.place]
  | case9 first rest ih =>
    cases rest with
    | nil => exact ih []
    | cons u rest =>
      rw [vertices_select, verticesAll_cons [] first (by simp), List.map_append, map_place_lead]
      exact List.mem_append_left _ (ih [])
  | _ => simp [vertices, entry, Vertex.place]

theorem mem_of_entryOf (direction : List String) (ts : List (Flow V)) {v : V}
    (h : entryOf ts = some v) : v ∈ (verticesAll direction ts).map Vertex.place := by
  cases ts with
  | nil => cases h
  | cons t rest =>
    cases h
    cases rest with
    | nil => exact entry_mem direction t
    | cons u rest =>
      rw [verticesAll_cons direction t (by simp), List.map_append, map_place_lead]
      exact List.mem_append_left _ (entry_mem [] t)

theorem targets_append {xs ys : List (Vertex V)} {next : V}
    (hx : TargetsIn (· ∈ xs.map Vertex.place) xs) (hy : TargetsIn (· ∈ ys.map Vertex.place) ys)
    (hn : next ∈ ys.map Vertex.place) :
    TargetsIn (· ∈ (xs.map (Vertex.lead (some next)) ++ ys).map Vertex.place)
      (xs.map (Vertex.lead (some next)) ++ ys) := by
  rw [List.map_append, map_place_lead]
  refine .append ?_ (hy.mono fun v hv => List.mem_append_right _ hv)
  refine (hx.mono fun v hv => List.mem_append_left _ hv).lead ?_
  rintro v hv
  cases hv
  exact List.mem_append_right _ hn

mutual

theorem vertices_targets (direction : List String) (t : Flow V) :
    TargetsIn (· ∈ (vertices direction t).map Vertex.place) (vertices direction t) := by
  cases t with
  | step v => simp [vertices, TargetsIn, Vertex.arrows]
  | merged isBranch v => simp [vertices, TargetsIn, Vertex.arrows]
  | jump v => simp [vertices, TargetsIn, Vertex.arrows]
  | halt output finish =>
    cases output <;> simp [vertices, TargetsIn, Vertex.arrows, Vertex.place]
  | branch test body orelse =>
    have hbody := verticesAll_targets [] body
    have horelse := verticesAll_targets [] orelse
    simp only [vertices, List.map_cons, List.map_append, List.mem_cons, List.mem_append]
    refine .cons ?_ (.append (hbody.mono fun v hv => .inr (.inl hv))
      (horelse.mono fun v hv => .inr (.inr hv)))
    intro a ha v hv
    rcases mem_arrows_test.1 ha with ⟨y, hy, rfl⟩ | rfl
    · cases hy
      exact .inr (.inl (mem_of_entryOf [] body hv))
    · exact .inr (.inr (mem_of_entryOf [] orelse hv))
  | loop test body =>
    have hbody := verticesAll_targets ["left"] body
    simp only [vertices, List.map_cons, List.mem_cons, map_place_lead]
    refine .cons ?_ ((hbody.mono fun v hv => .inr hv).lead ?_)
    · intro a ha v hv
      rcases mem_arrows_test.1 ha with ⟨y, hy, rfl⟩ | rfl
      · cases hy
        exact .inr (mem_of_entryOf ["left"] body hv)
      · cases hv
    · intro v hv
      cases hv
      exact .inl rfl
  | routine start input body finish =>
    have hbody := verticesAll_targets [] body
    have hlast : TargetsIn (· ∈ [Vertex.box finish (some ⟨[], none⟩)].map Vertex.place)
        [Vertex.box finish (some ⟨[], none⟩)] := by
      simp [TargetsIn, Vertex.arrows]
    have hmem : finish ∈ [Vertex.box finish (some ⟨[], none⟩)].map Vertex.place := by
      simp [Vertex.place]
    have hrest := targets_append hbody hlast hmem
    refine .cons ?_ (.cons ?_ (hrest.mono fun v hv => ?_))
    · intro a ha v hv
      obtain rfl := List.mem_singleton.1 ha
      cases hv
      simp [vertices, Vertex.place]
    · intro a ha v hv
      obtain ⟨e, he, rfl⟩ := Option.map_eq_some_iff.1 (Option.mem_toList.1 ha)
      cases hv
      have hmem := mem_of_entryOf [] body he
      simp only [vertices, List.map_cons, List.map_append, map_place_lead]
      exact List.mem_cons_of_mem _ (List.mem_cons_of_mem _ (List.mem_append_left _ hmem))
    · exact List.mem_cons_of_mem _ (List.mem_cons_of_mem _ hv)
  | case test body =>
    have hbody := verticesAll_targets [] body
    simp only [vertices, List.map_cons, List.mem_cons]
    refine .cons ?_ (hbody.mono fun v hv => .inr hv)
    intro a ha v hv
    rcases mem_arrows_test.1 ha with ⟨y, hy, rfl⟩ | rfl
    · obtain ⟨e, he, rfl⟩ := Option.map_eq_some_iff.1 hy
      cases hv
      exact .inr (mem_of_entryOf [] body he)
    · cases hv
  | select first rest =>
    cases rest with
    | nil => exact vertices_targets [] first
    | cons u rest =>
      rw [vertices_select, verticesAll_cons [] first (by simp)]
      exact targets_append (vertices_targets [] first) (verticesAll_targets [] (u :: rest))
        (mem_of_entryOf [] (u :: rest) rfl)

theorem verticesAll_targets (direction : List String) (ts : List (Flow V)) :
    TargetsIn (· ∈ (verticesAll direction ts).map Vertex.place) (verticesAll direction ts) := by
  cases ts with
  | nil => simp [TargetsIn]
  | cons t rest =>
    cases rest with
    | nil => exact vertices_targets direction t
    | cons u rest =>
      rw [verticesAll_cons direction t (by simp)]
      exact targets_append (vertices_targets [] t) (verticesAll_targets direction (u :: rest))
        (mem_of_entryOf direction (u :: rest) rfl)

end

section

variable {xs ys zs : List (Vertex V)} {y : Vertex V} {next : Option V}

/-- The vertices stand in a graph, their exits leading to `next`. -/
def Placed (xs : List (Vertex V)) (next : Option V) (ys : List (Vertex V)) : Prop :=
  ∀ y ∈ ys, y.lead next ∈ xs

theorem Placed.of_lead {v : V} (h : Placed xs next (ys.map (Vertex.lead (some v)))) :
    Placed xs (some v) ys := by
  intro y hy
  rw [← Flow.lead_lead v next y]
  exact h _ (List.mem_map_of_mem hy)

theorem Placed.left (h : Placed xs next (ys ++ zs)) : Placed xs next ys :=
  fun y hy => h y (List.mem_append_left _ hy)

theorem Placed.right (h : Placed xs next (ys ++ zs)) : Placed xs next zs :=
  fun y hy => h y (List.mem_append_right _ hy)

theorem Placed.head (h : Placed xs next (y :: ys)) : y.lead next ∈ xs := h y List.mem_cons_self

theorem Placed.tail (h : Placed xs next (y :: ys)) : Placed xs next ys :=
  fun z hz => h z (List.mem_cons_of_mem _ hz)

theorem lead_none (x : Vertex V) : x.lead none = x := by
  rcases x with ⟨v, _ | ⟨labels, target⟩⟩ | ⟨v, _ | yes, no⟩ <;> simp [Vertex.lead]

theorem placed_self (xs : List (Vertex V)) : Placed xs none xs := fun y hy => by rwa [lead_none]

theorem placed_head {direction : List String} {t : Flow V} {ts : List (Flow V)}
    (h : Placed xs next (verticesAll direction (t :: ts))) : ∃ direction',
      (direction' = [] ∨ direction' = direction) ∧
      Placed xs ((entryOf ts).or next) (vertices direction' t) := by
  cases ts with
  | nil => exact ⟨direction, .inr rfl, h⟩
  | cons u us =>
    rw [verticesAll_cons direction t (by simp)] at h
    exact ⟨[], .inl rfl, h.left.of_lead⟩

theorem placed_tail {direction : List String} {t : Flow V} {ts : List (Flow V)}
    (h : Placed xs next (verticesAll direction (t :: ts))) :
    Placed xs next (verticesAll direction ts) := by
  cases ts with
  | nil => simp [Placed]
  | cons u us =>
    rw [verticesAll_cons direction t (by simp)] at h
    exact h.right

end

mutual

/-- The boxes that stand for a branch or a loop with its body. -/
def mergedBoxes : Flow V → List V
  | .merged _ v => [v]
  | .branch _ body orelse => mergedBoxesAll body ++ mergedBoxesAll orelse
  | .loop _ body => mergedBoxesAll body
  | .routine _ _ body _ => mergedBoxesAll body
  | .case _ body => mergedBoxesAll body
  | .select first rest => mergedBoxes first ++ mergedBoxesAll rest
  | _ => []

def mergedBoxesAll : List (Flow V) → List V
  | [] => []
  | t :: rest => mergedBoxes t ++ mergedBoxesAll rest

end

end Flow

end CodeChart.Chart
