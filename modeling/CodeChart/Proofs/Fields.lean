import CodeChart.Proofs.Programs
import CodeChart.Proofs.Splitting
import Mathlib.Data.List.Induction

/-! Searches for fields. A field that names definitions inside definitions is found, and where a
name is defined more than once the last definition counts. A component that names nothing is passed
over, so a field may be found that does not exist as a path. A search leaves the tree alone, or
empties the body of the place where it ends. -/
namespace CodeChart.Code

/-- The names between the dots of a field. The empty field has none. -/
def components (field : String) : List String :=
  if field.isEmpty then [] else (field.toList.splitOn '.').map String.ofList

theorem components_of_ne {field : String} (h : field ≠ "") :
    components field = field.splitOn "." := by
  have hempty : ¬ field.isEmpty = true := by simpa using h
  rw [components, if_neg hempty]
  exact (Text.splitOn_singleton field '.').symm

theorem components_ne_nil {field : String} (h : field ≠ "") : components field ≠ [] := by
  have hempty : ¬ field.isEmpty = true := by simpa using h
  rw [components, if_neg hempty]
  simp

structure LastAt (body : List Stmt) (name : String) (i : Nat) (s : Stmt) : Prop where
  stands : body[i]? = some s
  named : s.definedName? = some name
  last : ∀ j t, i < j → body[j]? = some t → t.definedName? ≠ some name

theorem lastDefinition_append (name : String) (body : List Stmt) (s : Stmt) :
    lastDefinition name (body ++ [s])
      = if s.definedName? = some name then some (body.length, s) else lastDefinition name body := by
  unfold lastDefinition
  rw [List.zipIdx_append, List.reverse_append]
  by_cases h : s.definedName? = some name
  · simp [h]
  · have hb : (s.definedName? == some name) = false := by simpa using h
    simp [h, hb]

theorem lastAt_append_iff {body : List Stmt} {name : String} {s t : Stmt} {i : Nat} :
    LastAt (body ++ [s]) name i t ↔
      if s.definedName? = some name then i = body.length ∧ t = s else LastAt body name i t := by
  by_cases hs : s.definedName? = some name
  · rw [if_pos hs]
    constructor
    · intro h
      have hend : (body ++ [s])[body.length]? = some s := by simp
      have hlt : i < (body ++ [s]).length := (List.getElem?_eq_some_iff.1 h.stands).1
      have hi : ¬ i < body.length := fun hlt => h.last _ s hlt hend hs
      rw [List.length_append, List.length_singleton] at hlt
      obtain rfl : i = body.length := by omega
      exact ⟨rfl, Option.some.inj (h.stands.symm.trans hend)⟩
    · rintro ⟨rfl, rfl⟩
      refine ⟨by simp, hs, ?_⟩
      intro j t hj ht
      have hlt := (List.getElem?_eq_some_iff.1 ht).1
      rw [List.length_append, List.length_singleton] at hlt
      omega
  · rw [if_neg hs]
    constructor
    · intro h
      have hi : i < body.length := by
        by_contra hi
        have hlt := (List.getElem?_eq_some_iff.1 h.stands).1
        rw [List.length_append, List.length_singleton] at hlt
        obtain rfl : i = body.length := by omega
        have hstands := h.stands
        simp only [List.getElem?_concat_length, Option.some.injEq] at hstands
        exact hs (hstands ▸ h.named)
      refine ⟨by rw [← h.stands, List.getElem?_append_left hi], h.named, ?_⟩
      intro j u hj hu
      have hlt := (List.getElem?_eq_some_iff.1 hu).1
      exact h.last j u hj (by rw [List.getElem?_append_left hlt, hu])
    · intro h
      have hi := (List.getElem?_eq_some_iff.1 h.stands).1
      refine ⟨by rw [List.getElem?_append_left hi, h.stands], h.named, ?_⟩
      intro j u hj hu
      by_cases hlt : j < body.length
      · exact h.last j u hj (by rw [← hu, List.getElem?_append_left hlt])
      · have hle := (List.getElem?_eq_some_iff.1 hu).1
        rw [List.length_append, List.length_singleton] at hle
        obtain rfl : j = body.length := by omega
        simp only [List.getElem?_concat_length, Option.some.injEq] at hu
        rw [← hu]
        exact hs

theorem lastDefinition_eq_some {name : String} {body : List Stmt} {i : Nat} {s : Stmt} :
    lastDefinition name body = some (i, s) ↔ LastAt body name i s := by
  induction body using List.reverseRecOn with
  | nil =>
    constructor
    · intro h
      cases h
    · intro h
      cases h.stands
  | append_singleton body t ih =>
    rw [lastDefinition_append, lastAt_append_iff, ← ih]
    split
    · simp only [Option.some.injEq, Prod.mk.injEq]
      exact ⟨fun h => ⟨h.1.symm, h.2.symm⟩, fun h => ⟨h.1.symm, h.2.symm⟩⟩
    · exact .rfl

theorem lastDefinition_eq_none {name : String} {body : List Stmt} :
    lastDefinition name body = none ↔ ∀ s ∈ body, s.definedName? ≠ some name := by
  induction body using List.reverseRecOn with
  | nil => simp [lastDefinition]
  | append_singleton body t ih =>
    rw [lastDefinition_append, List.forall_mem_append, List.forall_mem_singleton, ← ih]
    split
    next h => simp [h]
    next h => simp [h]

/-- What stands at an address: each number is a place in the body of the definition before. -/
def Place.at? : Place → List Nat → Option Place
  | p, [] => some p
  | p, i :: path => (p.body[i]?).bind fun s => (Place.definition s).at? path

/-- Each name leads to its last definition in the body of the place before. -/
inductive Resolves : Place → List String → List Nat → Place → Prop where
  | here (p : Place) : Resolves p [] [] p
  | into {p q : Place} {name : String} {rest : List String} {i : Nat} {path : List Nat} {s : Stmt} :
      LastAt p.body name i s → Resolves (.definition s) rest path q →
      Resolves p (name :: rest) (i :: path) q

/-- A search follows a name that has a definition and passes over one that has none. -/
inductive Searches : Place → List String → List Nat → Place → Prop where
  | done (p : Place) : Searches p [] [] p
  | enter {p q : Place} {name : String} {rest : List String} {i : Nat}
    {path : List Nat} {s : Stmt} :
      LastAt p.body name i s → Searches (.definition s) rest path q →
      Searches p (name :: rest) (i :: path) q
  | pass {p q : Place} {name : String} {rest : List String} {path : List Nat} :
      (∀ s ∈ p.body, s.definedName? ≠ some name) → Searches p rest path q →
      Searches p (name :: rest) path q

theorem descend_searches (p : Place) (names : List String) :
    Searches p names (p.descend names).1 (p.descend names).2 := by
  induction names generalizing p with
  | nil => exact .done p
  | cons name rest ih =>
    rw [Place.descend]
    cases h : lastDefinition name p.body with
    | none => exact .pass (lastDefinition_eq_none.1 h) (ih p)
    | some found => exact .enter (lastDefinition_eq_some.1 h) (ih _)

variable {p q : Place} {names : List String} {path : List Nat}

theorem Searches.at? (h : Searches p names path q) : p.at? path = some q := by
  induction h with
  | done p => rfl
  | enter hlast _ ih =>
    rw [Place.at?, hlast.stands]
    exact ih
  | pass _ _ ih => exact ih

theorem Searches.length_le (h : Searches p names path q) : path.length ≤ names.length := by
  induction h with
  | done p => exact Nat.le_refl _
  | enter _ _ ih => exact Nat.succ_le_succ ih
  | pass _ _ ih => exact Nat.le_succ_of_le ih

theorem Searches.resolves_iff (h : Searches p names path q) :
    Resolves p names path q ↔ path.length = names.length := by
  induction h with
  | done p => exact ⟨fun _ => rfl, fun _ => .here p⟩
  | enter hlast _ ih =>
    rw [List.length_cons, List.length_cons, Nat.add_right_cancel_iff, ← ih]
    constructor
    · intro h
      cases h with
      | into hlast' hrest =>
        have hsame := (lastDefinition_eq_some.2 hlast).symm.trans (lastDefinition_eq_some.2 hlast')
        cases hsame
        exact hrest
    · exact .into hlast
  | pass hnone hrest _ =>
    have hle := hrest.length_le
    constructor
    · intro h
      cases h with
      | into hlast _ => exact absurd hlast.named (hnone _ (List.mem_of_getElem? hlast.stands))
    · intro h
      rw [List.length_cons] at h
      omega

theorem Resolves.descend (h : Resolves p names path q) : p.descend names = (path, q) := by
  induction h with
  | here p => rfl
  | into hlast _ ih =>
    rw [Place.descend, lastDefinition_eq_some.2 hlast]
    dsimp only
    rw [ih]

theorem Resolves.name (h : Resolves p names path q) (hne : names ≠ []) :
    q.name? = names.getLast? := by
  induction h with
  | here p => exact absurd rfl hne
  | @into p q name rest i path s hlast hrest ih =>
    cases rest with
    | nil =>
      cases hrest
      exact hlast.named
    | cons next rest =>
      rw [ih (by simp), List.getLast?_cons_cons]

/-- The tree after the body at an address has been emptied: what stands beside the address is as it
was, and what stands above it has the same parts and as many statements. -/
structure Emptied (path : List Nat) (p q : Place) : Prop where
  there : q.at? path = (p.at? path).map (·.withBody [])
  beside : ∀ other, ¬ path <+: other → ¬ other <+: path → q.at? other = p.at? other
  above : ∀ other, other <+: path → other ≠ path → ∃ outer outer', p.at? other = some outer ∧
    q.at? other = some outer' ∧ outer'.withBody [] = outer.withBody [] ∧
    outer'.body.length = outer.body.length

def Place.emptyAt (path : List Nat) (p : Place) : Place :=
  match path with
  | [] => p.withBody []
  | i :: path => p.withBody (p.body.modify i (Stmt.emptyAt path))

theorem emptyAt_module (path : List Nat) (m : Module) :
    (Place.module m).emptyAt path = .module (m.emptyAt path) := by
  cases path <;> rfl

theorem emptyAt_definition (path : List Nat) (s : Stmt) :
    (Place.definition s).emptyAt path = .definition (s.emptyAt path) := by
  cases path <;> rfl

theorem body_withBody {p : Place} (h : p.body ≠ []) (body : List Stmt) :
    (p.withBody body).body = body := by
  cases p with
  | module m => rfl
  | definition s =>
    cases s with
    | function => rfl
    | classDef => rfl
    | _ => exact absurd rfl h

theorem withBody_withBody (p : Place) (b c : List Stmt) :
    (p.withBody b).withBody c = p.withBody c := by
  cases p with
  | module m => rfl
  | definition s => cases s <;> rfl

theorem emptied_emptyAt (h : p.at? path = some q) : Emptied path p (p.emptyAt path) := by
  induction path generalizing p with
  | nil =>
    refine ⟨rfl, ?_, ?_⟩
    · intro other hbelow
      exact absurd List.nil_prefix hbelow
    · intro other hprefix hne
      exact absurd (List.prefix_nil.1 hprefix) hne
  | cons i path ih =>
    rw [Place.at?] at h
    obtain ⟨s, hs, hq⟩ := Option.bind_eq_some_iff.1 h
    have hne : p.body ≠ [] := by
      intro hnil
      rw [hnil] at hs
      cases hs
    have hbody : (p.emptyAt (i :: path)).body = p.body.modify i (Stmt.emptyAt path) :=
      body_withBody hne _
    have hthere : (p.emptyAt (i :: path)).body[i]? = some (s.emptyAt path) := by
      rw [hbody, List.getElem?_modify_eq, hs]
      rfl
    have hother : ∀ j, i ≠ j → (p.emptyAt (i :: path)).body[j]? = p.body[j]? := by
      intro j hj
      rw [hbody, List.getElem?_modify]
      simp [hj]
    have hin := ih hq
    rw [emptyAt_definition] at hin
    constructor
    · rw [Place.at?, Place.at?, hthere, hs]
      exact hin.there
    · intro other hbelow habove
      cases other with
      | nil => exact absurd List.nil_prefix habove
      | cons j other =>
        rw [Place.at?, Place.at?]
        by_cases hj : i = j
        · subst hj
          rw [hthere, hs]
          apply hin.beside other
          · exact fun hle => hbelow (List.cons_prefix_cons.2 ⟨rfl, hle⟩)
          · exact fun hle => habove (List.cons_prefix_cons.2 ⟨rfl, hle⟩)
        · rw [hother j hj]
    · intro other hprefix hne'
      cases other with
      | nil =>
        refine ⟨p, p.emptyAt (i :: path), rfl, rfl, withBody_withBody p _ _, ?_⟩
        rw [hbody, List.length_modify]
      | cons j other =>
        obtain ⟨rfl, hrest⟩ := List.cons_prefix_cons.1 hprefix
        rw [Place.at?, Place.at?, hthere, hs]
        exact hin.above other hrest (fun heq => hne' (by rw [heq]))

theorem lookup_eq (m : Module) {field : String} (hfield : field ≠ "") :
    m.lookup field = if ((Place.module m).descend (components field)).2.name?
      = (components field).getLast?
      then ⟨((Place.module m).descend (components field)).2, m⟩
      else ⟨((Place.module m).descend (components field)).2.withBody [],
        m.emptyAt ((Place.module m).descend (components field)).1⟩ := by
  have hempty : ¬ field.isEmpty = true := by simpa using hfield
  have hlast : (components field).getLast?.isSome = true :=
    List.getLast?_isSome.2 (components_ne_nil hfield)
  rw [Module.lookup, if_neg hempty, ← components_of_ne hfield]
  dsimp only
  by_cases hname : ((Place.module m).descend (components field)).2.name?
    = (components field).getLast?
  · rw [if_pos hname, if_pos (by simp [hname, hlast])]
  · rw [if_neg hname, if_neg (by simp [hname])]

/-- A field that resolves is found, as the last definitions say, and the tree is left alone. Any
search leaves the tree alone or empties the body of the place that it gives, and changes nothing
else. -/
theorem lookup_follows_last (m : Module) (field : String) :
    (∀ path place, Resolves (.module m) (components field) path place →
      (Place.module m).at? path = some place ∧ m.lookup field = ⟨place, m⟩) ∧
    ∃ path place, (Place.module m).at? path = some place ∧
      (m.lookup field = ⟨place, m⟩ ∨ (m.lookup field).place = place.withBody [] ∧
        Emptied path (.module m) (.module (m.lookup field).tree)) := by
  by_cases hfield : field = ""
  · subst hfield
    constructor
    · intro path place h
      cases h
      exact ⟨rfl, rfl⟩
    · exact ⟨[], .module m, rfl, .inl rfl⟩
  · have hsearch := descend_searches (.module m) (components field)
    constructor
    · intro path place h
      have hname := h.name (components_ne_nil hfield)
      rw [h.descend] at hsearch
      rw [lookup_eq m hfield, h.descend, if_pos hname]
      exact ⟨hsearch.at?, rfl⟩
    · refine ⟨_, _, hsearch.at?, ?_⟩
      rw [lookup_eq m hfield]
      split
      · exact .inl rfl
      · refine .inr ⟨rfl, ?_⟩
        rw [← emptyAt_module]
        exact emptied_emptyAt hsearch.at?

/-- A definition without parameters. -/
def plainFunction (line : Nat) (name : String) (body : List Stmt) : Stmt :=
  .function false line name (.mk [] [] none [] none) body [] none

/-- A class that is defined twice, the second time with a method that is defined twice. -/
def redefined : Module where
  body := [.classDef 1 "A" [] [] [plainFunction 2 "f" [.pass]] [],
    .classDef 4 "A" [] [] [plainFunction 5 "f" [.pass], plainFunction 7 "f" [.stop]] []]

theorem lookup_follows_last_redefined :
    Resolves (.module redefined) (components "A.f") [1, 1]
      (.definition (plainFunction 7 "f" [.stop])) ∧
      redefined.lookup "A.f" = ⟨.definition (plainFunction 7 "f" [.stop]), redefined⟩ := by
  have hcomponents : components "A.f" = ["A", "f"] := by decide +kernel
  have hresolves : Resolves (.module redefined) (components "A.f") [1, 1]
      (.definition (plainFunction 7 "f" [.stop])) := by
    rw [hcomponents]
    exact .into (lastDefinition_eq_some.1 rfl) (.into (lastDefinition_eq_some.1 rfl) (.here _))
  exact ⟨hresolves, ((lookup_follows_last redefined "A.f").1 _ _ hresolves).2⟩

end CodeChart.Code

namespace CodeChart.Chart

open CodeChart.Graph Code

theorem searches_proper {place found : Place} {names : List String} {path : List Nat}
    (hplace : place.Proper) (h : Searches place names path found) : found.Proper := by
  induction h with
  | done p => exact hplace
  | enter hlast _ ih =>
    exact ih (properAll_iff.1 hplace.body _ (List.mem_of_getElem? hlast.stands))
  | pass _ _ ih => exact ih hplace

theorem body_ne_nil_of_named {place : Place} (hplace : place.Proper) {name : String}
    (hname : place.name? = some name) : place.body ≠ [] := by
  cases place with
  | module m => cases hname
  | definition s =>
    cases s with
    | function => exact hplace.filled.1
    | classDef => exact hplace.filled.1
    | lacking part s => exact hplace.whole.elim
    | _ => cases hname

theorem fieldPieces_of_body {m : Module} {field : String} (h : (m.lookup field).place.body ≠ [])
    (inner : Bool) : fieldPieces m field inner
    = .ok (if inner then (m.lookup field).place.body.map .stmt
      else [(m.lookup field).place.piece]) :=
  if_neg (by simpa using h)

theorem fieldPieces_of_empty {m : Module} {field : String} (h : (m.lookup field).place.body = [])
    (inner : Bool) : fieldPieces m field inner = .error (.nothingToChart field) :=
  if_pos (by simpa using h)

theorem pieces_of_parse {source : Source} {m : Module} (h : Module.parse source.code = .ok m) :
    source.pieces = fieldPieces m source.field source.inner := by
  unfold Source.pieces
  rw [h]
  rfl

theorem pieces_of_lookup {source : Source} {m : Module} {place : Place}
    (hparse : Module.parse source.code = .ok m) (hlookup : m.lookup source.field = ⟨place, m⟩)
    (hbody : place.body ≠ []) :
    source.pieces = .ok (if source.inner then place.body.map .stmt else [place.piece]) := by
  rw [pieces_of_parse hparse, fieldPieces_of_body (by rw [hlookup]; exact hbody), hlookup]

/-- A search for a field decides what is drawn. It passes over every component that names nothing
where it stands, and a path exists exactly if no component is passed over. The place where the
search ends is given as it is if it has the name of the last component. Otherwise it is given
without its body, and there is nothing to chart. -/
theorem field_by_search (m : Module) (field : String) (hfield : field ≠ "") :
    ∃ path place last, Searches (.module m) (components field) path place ∧
      (Resolves (.module m) (components field) path place ↔ path.length
        = (components field).length) ∧
      (components field).getLast? = some last ∧
      (place.name? = some last → m.lookup field = ⟨place, m⟩) ∧
      (place.name? ≠ some last → (m.lookup field).place.body = []) ∧
      ∀ source : Source, Module.parse source.code = .ok m → source.field = field →
        (place.name? = some last → source.pieces =
          .ok (if source.inner then place.body.map .stmt else [place.piece])) ∧
        (place.name? ≠ some last → ∀ σ, source.draw σ = .error (.nothingToChart field) σ ∧
          (Fault.nothingToChart field).message
            = field ++ ": nothing to parse. Check given code and field please.") := by
  have hsearch := descend_searches (.module m) (components field)
  have hlookup := lookup_eq m hfield
  generalize (Place.module m).descend (components field) = found at hsearch hlookup
  obtain ⟨path, place⟩ := found
  obtain ⟨last, hlast⟩ :=
    Option.isSome_iff_exists.1 (List.getLast?_isSome.2 (components_ne_nil hfield))
  rw [hlast] at hlookup
  refine ⟨path, place, last, hsearch, hsearch.resolves_iff, hlast, ?_, ?_, ?_⟩
  · intro hname
    rw [hlookup, if_pos hname]
  · intro hname
    rw [hlookup, if_neg hname]
    exact Place.withBody_nil place
  · rintro source hparse rfl
    constructor
    · intro hname
      rw [if_pos hname] at hlookup
      have hmodule : (Place.module m).Proper := parse_proper hparse
      have hbody := body_ne_nil_of_named (searches_proper hmodule hsearch) hname
      exact pieces_of_lookup hparse hlookup hbody
    · intro hname σ
      rw [if_neg hname] at hlookup
      have hbody : (m.lookup source.field).place.body = [] := by
        rw [hlookup]
        exact Place.withBody_nil place
      refine ⟨?_, rfl⟩
      unfold Source.draw Source.chart
      rw [pieces_of_parse hparse, fieldPieces_of_empty hbody]
      rfl

/-- A module with one function. -/
def single : Module := ⟨[plainFunction 1 "f" [.pass]]⟩

/-- The function is found under a path that does not exist. -/
theorem field_by_search_missing : "missing.f" ≠ "" ∧
    (¬ ∃ path place, Resolves (.module single) (components "missing.f") path place) ∧
    single.lookup "missing.f" = ⟨.definition (plainFunction 1 "f" [.pass]), single⟩ := by
  have hne : "missing.f" ≠ "" := by decide
  have hcomponents : components "missing.f" = ["missing", "f"] := by decide +kernel
  have hnone : ∀ s ∈ (Place.module single).body, s.definedName? ≠ some "missing" := by
    simp [single, Place.body, plainFunction, Stmt.definedName?]
  obtain ⟨path, place, last, hsearch, -, hlast, hfound, -⟩ := field_by_search single "missing.f" hne
  rw [hcomponents] at hsearch hlast ⊢
  cases hlast
  refine ⟨hne, ?_, ?_⟩
  · rintro ⟨path, place, hresolves⟩
    cases hresolves with
    | into hat _ => exact hnone _ (List.mem_of_getElem? hat.stands) hat.named
  · cases hsearch with
    | enter hat _ => exact absurd hat.named (hnone _ (List.mem_of_getElem? hat.stands))
    | pass _ hsearch =>
      cases hsearch with
      | enter hat hrest =>
        cases hrest
        have hsame := (lastDefinition_eq_some.2 hat).symm.trans
          (show lastDefinition "f" single.body = some (0, plainFunction 1 "f" [.pass]) from rfl)
        cases hsame
        exact hfound rfl
      | pass hpassed _ =>
        exact absurd rfl (hpassed (plainFunction 1 "f" [.pass]) List.mem_cons_self)

end CodeChart.Chart
