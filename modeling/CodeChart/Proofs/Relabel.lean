import CodeChart.Proofs.Flow

/-! Flows of one shape. A flow is fixed by its shape and its list of places, so a flow without
repeated places can be relabelled to any flow of the same shape. -/
namespace CodeChart.Chart

namespace Flow

variable {U V W : Type}

def shape (t : Flow V) : Flow Unit := t.map fun _ => ()

def shapeAll (ts : List (Flow V)) : List (Flow Unit) := mapAll (fun _ => ()) ts

mutual

theorem map_map (f : V → W) (g : W → U) (t : Flow V) : (t.map f).map g = t.map (g ∘ f) := by
  cases t with
  | step v => rfl
  | merged isBranch v => rfl
  | jump v => rfl
  | halt output finish => cases output <;> rfl
  | branch test body orelse =>
    simp only [map, mapAll_mapAll f g body, mapAll_mapAll f g orelse, Function.comp]
  | loop test body => simp only [map, mapAll_mapAll f g body, Function.comp]
  | routine start input body finish => simp only [map, mapAll_mapAll f g body, Function.comp]
  | case test body => simp only [map, mapAll_mapAll f g body, Function.comp]
  | select first rest => simp only [map, map_map f g first, mapAll_mapAll f g rest]

theorem mapAll_mapAll (f : V → W) (g : W → U) (ts : List (Flow V)) :
    mapAll g (mapAll f ts) = mapAll (g ∘ f) ts := by
  cases ts with
  | nil => rfl
  | cons t rest => simp only [mapAll, map_map f g t, mapAll_mapAll f g rest]

end

@[simp] theorem shape_map (f : V → W) (t : Flow V) : (t.map f).shape = t.shape := map_map f _ t

@[simp] theorem shapeAll_mapAll (f : V → W) (ts : List (Flow V)) :
    shapeAll (mapAll f ts) = shapeAll ts := mapAll_mapAll f _ ts

theorem placesAll_mapAll (f : V → W) (ts : List (Flow V)) :
    placesAll (mapAll f ts) = (placesAll ts).map f := by
  rw [← map_place_verticesAll [], verticesAll_map, ← map_place_verticesAll [], List.map_map,
    List.map_map]
  apply List.map_congr_left
  intro x _
  cases x <;> rfl

theorem places_map (f : V → W) (t : Flow V) : (t.map f).places = t.places.map f := by
  simpa [placesAll, mapAll] using placesAll_mapAll f [t]

theorem length_placesAll {ts : List (Flow V)} {us : List (Flow W)} (h : shapeAll ts = shapeAll us) :
    (placesAll ts).length = (placesAll us).length := by
  have hlen := congrArg (fun xs => (placesAll xs).length) h
  simpa only [shapeAll, placesAll_mapAll, List.length_map] using hlen

theorem length_places {t : Flow V} {u : Flow W} (h : t.shape = u.shape) :
    t.places.length = u.places.length := by
  have hlen := congrArg (fun x => (places x).length) h
  simpa only [shape, places_map, List.length_map] using hlen

mutual

theorem eq_of_shape {t u : Flow V} (hs : t.shape = u.shape) (hp : t.places = u.places) : t = u := by
  cases t with
  | step v =>
    cases u with
    | step w => simpa [places] using hp
    | _ => cases hs
  | merged isBranch v =>
    cases u with
    | merged isBranch' w =>
      obtain rfl : isBranch = isBranch' := by simpa [shape, map] using hs
      simpa [places] using hp
    | _ => cases hs
  | jump v =>
    cases u with
    | jump w => simpa [places] using hp
    | _ => cases hs
  | halt output finish =>
    cases u with
    | halt output' finish' =>
      cases output <;> cases output' <;> simp_all [shape, map, places]
    | _ => cases hs
  | branch test body orelse =>
    cases u with
    | branch test' body' orelse' =>
      simp only [shape, map, branch.injEq] at hs
      simp only [places, List.cons.injEq] at hp
      obtain ⟨hb, ho⟩ := List.append_inj hp.2 (length_placesAll hs.2.1)
      rw [hp.1, eq_of_shapeAll hs.2.1 hb, eq_of_shapeAll hs.2.2 ho]
    | _ => cases hs
  | loop test body =>
    cases u with
    | loop test' body' =>
      simp only [shape, map, loop.injEq] at hs
      simp only [places, List.cons.injEq] at hp
      rw [hp.1, eq_of_shapeAll hs.2 hp.2]
    | _ => cases hs
  | routine start input body finish =>
    cases u with
    | routine start' input' body' finish' =>
      simp only [shape, map, routine.injEq] at hs
      simp only [places, List.cons.injEq] at hp
      obtain ⟨hb, hf⟩ := List.append_inj hp.2.2 (length_placesAll hs.2.2.1)
      rw [hp.1, hp.2.1, eq_of_shapeAll hs.2.2.1 hb, List.singleton_inj.1 hf]
    | _ => cases hs
  | case test body =>
    cases u with
    | case test' body' =>
      simp only [shape, map, case.injEq] at hs
      simp only [places, List.cons.injEq] at hp
      rw [hp.1, eq_of_shapeAll hs.2 hp.2]
    | _ => cases hs
  | select first rest =>
    cases u with
    | select first' rest' =>
      simp only [shape, map, select.injEq] at hs
      simp only [places] at hp
      obtain ⟨hf, hr⟩ := List.append_inj hp (length_places hs.1)
      rw [eq_of_shape hs.1 hf, eq_of_shapeAll hs.2 hr]
    | _ => cases hs

theorem eq_of_shapeAll {ts us : List (Flow V)} (hs : shapeAll ts = shapeAll us)
    (hp : placesAll ts = placesAll us) : ts = us := by
  cases ts with
  | nil =>
    cases us with
    | nil => rfl
    | cons u us => cases hs
  | cons t ts =>
    cases us with
    | nil => cases hs
    | cons u us =>
      simp only [shapeAll, mapAll, List.cons.injEq] at hs
      simp only [placesAll] at hp
      obtain ⟨hf, hr⟩ := List.append_inj hp (length_places hs.1)
      rw [eq_of_shape hs.1 hf, eq_of_shapeAll hs.2 hr]

end

theorem exists_map_of_nodup [Inhabited W] {vs : List V} {ws : List W} (hnodup : vs.Nodup)
    (hlen : vs.length = ws.length) : ∃ f : V → W, vs.map f = ws := by
  induction vs generalizing ws with
  | nil =>
    cases ws with
    | nil => exact ⟨fun _ => default, rfl⟩
    | cons w ws => cases hlen
  | cons v vs ih =>
    cases ws with
    | nil => cases hlen
    | cons w ws =>
      obtain ⟨hv, hvs⟩ := List.nodup_cons.1 hnodup
      obtain ⟨f, rfl⟩ := ih hvs (Nat.succ.inj hlen)
      classical
      refine ⟨fun x => if x = v then w else f x, ?_⟩
      simp only [List.map_cons, if_pos, List.cons.injEq, true_and]
      apply List.map_congr_left
      intro x hx
      rw [if_neg]
      rintro rfl
      exact hv hx

theorem exists_relabel [Inhabited W] {ts : List (Flow V)} {us : List (Flow W)}
    (hs : shapeAll ts = shapeAll us) (hnodup : (placesAll ts).Nodup) :
    ∃ f : V → W, mapAll f ts = us := by
  obtain ⟨f, hf⟩ := exists_map_of_nodup hnodup (length_placesAll hs)
  refine ⟨f, eq_of_shapeAll ?_ ?_⟩
  · rw [shapeAll_mapAll, hs]
  · rw [placesAll_mapAll, hf]

end Flow

end CodeChart.Chart
