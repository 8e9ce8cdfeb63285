import CodeChart.Graph.Store

/-! Running actions. A run is read off step by step: `bind_ok` goes on after a step that
succeeds, `bind_error` stops at a fault. `Realizes` compares an action with a description of its
result in the same order of steps, faults included. -/
namespace CodeChart.Graph

variable {α β γ δ : Type} {σ σ' : Store}

theorem bind_ok {act : Action α} {k : α → Action β} {a : α} (h : act σ = .ok a σ') :
    (act >>= k) σ = k a σ' := by
  change EStateM.bind act k σ = _
  simp only [EStateM.bind, h]

theorem bind_error {act : Action α} {k : α → Action β} {f : Fault} (h : act σ = .error f σ') :
    (act >>= k) σ = .error f σ' := by
  change EStateM.bind act k σ = _
  simp only [EStateM.bind, h]

theorem exists_of_bind {act : Action α} {k : α → Action β} {b : β} {τ : Store}
    (h : (act >>= k) σ = .ok b τ) : ∃ a ρ, act σ = .ok a ρ ∧ k a ρ = .ok b τ := by
  cases ha : act σ with
  | ok a ρ => exact ⟨a, ρ, rfl, (bind_ok ha).symm.trans h⟩
  | error f ρ => cases (bind_error ha).symm.trans h

theorem ite_bind_ok {c : Prop} [Decidable c] {act : Action Unit} {k : Unit → Action β}
    (h : (if c then act else pure ()) σ = .ok () σ') :
    (if c then act >>= k else k ()) σ = k () σ' := by
  by_cases hc : c
  · rw [if_pos hc] at h ⊢
    exact bind_ok h
  · rw [if_neg hc] at h ⊢
    cases h
    rfl

theorem forM_cons_ok {a : α} {rest : List α} {f : α → Action Unit} (h : f a σ = .ok () σ') :
    ((a :: rest).forM f : Action Unit) σ = (rest.forM f : Action Unit) σ' :=
  bind_ok h

theorem map_ok {act : Action α} {f : α → β} {a : α} (h : act σ = .ok a σ') :
    (f <$> act) σ = .ok (f a) σ' := by
  change EStateM.map f act σ = _
  simp only [EStateM.map, h]

theorem map_error {act : Action α} {f : α → β} {fault : Fault} (h : act σ = .error fault σ') :
    (f <$> act) σ = .error fault σ' := by
  change EStateM.map f act σ = _
  simp only [EStateM.map, h]

theorem tryCatch_ok {act : Action α} {handle : Fault → Action α} {a : α} (h : act σ = .ok a σ') :
    (tryCatch act handle) σ = .ok a σ' := by
  change EStateM.tryCatch act handle σ = _
  delta EStateM.tryCatch
  dsimp only
  rw [h]

theorem tryCatch_error {act : Action α} {handle : Fault → Action α} {fault : Fault}
    (h : act σ = .error fault σ') : (tryCatch act handle) σ = handle fault σ' := by
  change EStateM.tryCatch act handle σ = _
  delta EStateM.tryCatch
  dsimp only
  rw [h]
  rfl

/-- The value that an action gives from a store, if it succeeds. -/
def outcome (act : Action α) (σ : Store) : Option α :=
  match act σ with
  | .ok a _ => some a
  | .error .. => none

theorem exists_of_outcome {act : Action α} {a : α} (h : outcome act σ = some a) :
    ∃ τ, act σ = .ok a τ := by
  unfold outcome at h
  cases hrun : act σ with
  | ok b τ =>
    rw [hrun] at h
    cases h
    exact ⟨τ, rfl⟩
  | error f τ =>
    rw [hrun] at h
    cases h

theorem value_unique {act : Action α} {a b : α} {τ υ : Store} (ha : act σ = .ok a τ)
    (hb : act σ = .ok b υ) :
    a = b := by
  cases ha.symm.trans hb
  rfl

theorem exists_of_checked {act : Action α} {check : Store → α → β} {b : β}
    (h : outcome (do let a ← act; return check (← get) a) σ = some b) :
    ∃ a τ, act σ = .ok a τ ∧ check τ a = b := by
  obtain ⟨τ, hrun⟩ := exists_of_outcome h
  cases hact : act σ with
  | error f υ => cases (bind_error hact).symm.trans hrun
  | ok a υ =>
    rw [bind_ok hact] at hrun
    cases hrun
    exact ⟨a, τ, rfl, rfl⟩

theorem exists_of_ofExcept {x : Except Fault α} {next : α → Action β} {b : β}
    (h : ((MonadExcept.ofExcept x : Action α) >>= next) σ = .ok b σ') :
    ∃ a, x = .ok a ∧ next a σ = .ok b σ' := by
  cases x with
  | error f => cases h
  | ok a => exact ⟨a, rfl, h⟩

/-- No message has been printed and no warning issued. -/
structure Silent (σ σ' : Store) : Prop where
  printed : σ'.printed = σ.printed
  warnings : σ'.warnings = σ.warnings

theorem Silent.trans {σ'' : Store} (h : Silent σ σ') (h' : Silent σ' σ'') : Silent σ σ'' :=
  ⟨h'.printed.trans h.printed, h'.warnings.trans h.warnings⟩

theorem Silent.cancel {σ'' : Store} (h : Silent σ σ') (h' : Silent σ σ'') : Silent σ' σ'' :=
  ⟨h'.printed.trans h.printed.symm, h'.warnings.trans h.warnings.symm⟩

/-- From `σ` the action does what `spec` says: it fails silently with the same fault, or its value
and the store that it leaves stand in the relation `post` to the value described. -/
def Realizes (σ : Store) (act : Action α) (spec : Except Fault β)
    (post : α → Store → β → Prop) : Prop :=
  match spec with
  | .ok b => ∃ a σ', act σ = .ok a σ' ∧ post a σ' b
  | .error f => ∃ σ', act σ = .error f σ' ∧ Silent σ σ'

namespace Realizes

theorem ok {act : Action α} {a : α} {b : β} {post : α → Store → β → Prop}
    (h : act σ = .ok a σ') (hp : post a σ' b) : Realizes σ act (.ok b) post :=
  ⟨a, σ', h, hp⟩

theorem error {act : Action α} {f : Fault} {post : α → Store → β → Prop}
    (h : act σ = .error f σ') (hs : Silent σ σ') : Realizes σ act (.error f) post :=
  ⟨σ', h, hs⟩

theorem exists_of_run {act : Action α} {spec : Except Fault β} {post : α → Store → β → Prop} {a : α}
    (h : Realizes σ act spec post) (hrun : act σ = .ok a σ') : ∃ b, spec = .ok b ∧ post a σ' b := by
  cases spec with
  | error f =>
    obtain ⟨τ, hfail, -⟩ := h
    cases hfail.symm.trans hrun
  | ok b =>
    obtain ⟨a', τ, hrun', hp⟩ := h
    cases hrun'.symm.trans hrun
    exact ⟨b, rfl, hp⟩

theorem mono {act : Action α} {spec : Except Fault β} {p q : α → Store → β → Prop}
    (h : Realizes σ act spec p) (hpq : ∀ a σ' b, spec = .ok b → p a σ' b → q a σ' b) :
    Realizes σ act spec q := by
  cases spec with
  | error f => exact h
  | ok b =>
    obtain ⟨a, σ', ha, hp⟩ := h
    exact ⟨a, σ', ha, hpq a σ' b rfl hp⟩

/-- A step of the action that the description passes over. -/
theorem step {act : Action α} {k : α → Action β} {spec : Except Fault γ}
    {post : β → Store → γ → Prop} {a : α} (h : act σ = .ok a σ')
    (hk : Realizes σ' (k a) spec post) (hs : Silent σ σ' := by exact ⟨rfl, rfl⟩) :
    Realizes σ (act >>= k) spec post := by
  unfold Realizes at hk ⊢
  cases spec with
  | error f =>
    obtain ⟨σ'', hrun, hs'⟩ := hk
    exact ⟨σ'', (bind_ok h).trans hrun, hs.trans hs'⟩
  | ok c => simpa only [bind_ok h] using hk

theorem assoc {act : Action α} {k : α → Action β} {next : β → Action γ} {spec : Except Fault δ}
    {post : γ → Store → δ → Prop} (h : Realizes σ ((act >>= k) >>= next) spec post) :
    Realizes σ (act >>= fun a => k a >>= next) spec post := by
  rwa [bind_assoc] at h

theorem bind {act : Action α} {k : α → Action β} {spec : Except Fault γ} {next : γ → Except Fault δ}
    {p : α → Store → γ → Prop} {q : β → Store → δ → Prop} (h : Realizes σ act spec p)
    (hk : ∀ a σ' c, spec = .ok c → p a σ' c → Realizes σ' (k a) (next c) q)
    (hs : ∀ a σ' c, p a σ' c → Silent σ σ') : Realizes σ (act >>= k) (spec >>= next) q := by
  cases spec with
  | error f =>
    obtain ⟨σ', ha, hs⟩ := h
    exact ⟨σ', bind_error ha, hs⟩
  | ok c =>
    obtain ⟨a, σ', ha, hp⟩ := h
    exact step ha (hk a σ' c rfl hp) (hs a σ' c hp)

/-- The description may go on after the action has its value. -/
theorem map {act : Action α} {spec : Except Fault β} {f : β → γ} {p : α → Store → β → Prop}
    {q : α → Store → γ → Prop} (h : Realizes σ act spec p)
    (hpq : ∀ a σ' b, spec = .ok b → p a σ' b → q a σ' (f b)) : Realizes σ act (f <$> spec) q := by
  cases spec with
  | error g => exact h
  | ok b =>
    obtain ⟨a, σ', ha, hp⟩ := h
    exact ⟨a, σ', ha, hpq a σ' b rfl hp⟩

end Realizes

theorem realizes_ofExcept (σ : Store) (x : Except Fault α) :
    Realizes σ (ofExcept x) x (fun a σ' b => a = b ∧ σ' = σ) := by
  cases x with
  | error f => exact ⟨σ, rfl, rfl, rfl⟩
  | ok a => exact ⟨a, σ, rfl, rfl, rfl⟩

end CodeChart.Graph
