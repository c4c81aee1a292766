/-
  PgClient.Proofs.Steps

  Results, and steps that carry a state and may fail, run from a given state. One
  rule for each way of building them, so that a step is read by rewriting and its
  definition is opened only once.
-/
import Mathlib.Data.List.Forall2

namespace PgClient.Steps

variable {ε σ α β : Type}

/-! ## Results -/

/-- A result that another one goes on from is there only if both are. -/
theorem bind_eq_ok_iff {x : Except ε α} {f : α → Except ε β} {b : β} :
    x >>= f = .ok b ↔ ∃ a, x = .ok a ∧ f a = .ok b := by
  cases x with
  | error e => exact ⟨nofun, nofun⟩
  | ok a => exact ⟨fun h => ⟨a, rfl, h⟩, fun ⟨_, ha, h⟩ => Except.ok.inj ha ▸ h⟩

/-- Results that are all there are what was made of each item. -/
theorem mapM_eq_ok_iff {f : α → Except ε β} {items : List α} {results : List β} :
    items.mapM f = .ok results ↔
      List.Forall₂ (fun item result => f item = .ok result) items results := by
  induction items generalizing results with
  | nil =>
    rw [List.mapM_nil, List.forall₂_nil_left_iff]
    exact ⟨fun h => (Except.ok.inj h).symm, fun h => h ▸ rfl⟩
  | cons item items ih =>
    rw [List.mapM_cons, bind_eq_ok_iff, List.forall₂_cons_left_iff]
    simp only [bind_eq_ok_iff, ih]
    constructor
    · rintro ⟨result, hresult, rest, hrest, h⟩
      obtain rfl := Except.ok.inj h
      exact ⟨result, rest, hresult, hrest, rfl⟩
    · rintro ⟨result, rest, hresult, hrest, rfl⟩
      exact ⟨result, hresult, rest, hrest, rfl⟩

/-- Where every item gives a result, so do all of them together. -/
theorem exists_mapM_eq_ok {f : α → Except ε β} {R : α → β → Prop} {items : List α}
    (h : ∀ item ∈ items, ∃ result, f item = .ok result ∧ R item result) :
    ∃ results, items.mapM f = .ok results ∧ List.Forall₂ R items results := by
  induction items with
  | nil => exact ⟨[], rfl, .nil⟩
  | cons item items ih =>
    obtain ⟨⟨result, hresult, hR⟩, hitems⟩ := List.forall_mem_cons.1 h
    obtain ⟨results, hresults, hall⟩ := ih hitems
    refine ⟨result :: results, ?_, .cons hR hall⟩
    rw [List.mapM_cons, hresult, hresults]
    rfl

section Conditions

variable {P : Prop} [Decidable P] {e : ε} {next : Except ε α} {never : PUnit → Except ε α} {a : α}

/-- A condition that is asked for holds where a result is given. -/
theorem unless_eq_ok_iff : (if P then next else throw e >>= never) = .ok a ↔ P ∧ next = .ok a := by
  by_cases hP : P
  · rw [if_pos hP, and_iff_right hP]
  · rw [if_neg hP]
    exact ⟨nofun, fun h => absurd h.1 hP⟩

/-- A condition that is ruled out does not hold where a result is given. -/
theorem when_eq_ok_iff : (if P then throw e >>= never else next) = .ok a ↔ ¬ P ∧ next = .ok a := by
  rw [← ite_not]
  exact unless_eq_ok_iff

end Conditions

/-! ## Steps that may fail -/

@[simp] theorem run_pure (a : α) (s : σ) :
    (pure a : ExceptT ε (StateM σ) α).run s = (.ok a, s) := rfl

@[simp] theorem run_throw (e : ε) (s : σ) :
    (throw e : ExceptT ε (StateM σ) α).run s = (.error e, s) := rfl

@[simp] theorem run_get (s : σ) : (get : ExceptT ε (StateM σ) σ).run s = (.ok s, s) := rfl

@[simp] theorem run_set (t s : σ) :
    (set t : ExceptT ε (StateM σ) PUnit).run s = (.ok ⟨⟩, t) := rfl

@[simp] theorem run_modify (f : σ → σ) (s : σ) :
    (modify f : ExceptT ε (StateM σ) PUnit).run s = (.ok ⟨⟩, f s) := rfl

/-- Two outcomes of a step agree in result and state. -/
@[simp] theorem outcome_eq {a b : α} {s t : σ} : @Eq (Id (α × σ)) (a, s) (b, t) ↔ a = b ∧ s = t :=
  ⟨fun h => Prod.mk.inj h, fun ⟨ha, hs⟩ => by rw [ha, hs]⟩

/-- The second step runs from where the first one has succeeded. -/
theorem run_bind (x : ExceptT ε (StateM σ) α) (f : α → ExceptT ε (StateM σ) β) (s : σ) :
    (x >>= f).run s = match x.run s with
      | (.ok a, s') => (f a).run s'
      | (.error e, s') => (.error e, s') := by
  show ExceptT.bindCont f (x.run s).1 (x.run s).2 = _
  rcases x.run s with ⟨_ | _, _⟩ <;> rfl

/-- What two steps in a row have done: either the first one failed, or both ran. -/
theorem bind_cases {x : ExceptT ε (StateM σ) α} {f : α → ExceptT ε (StateM σ) β} {s s' : σ}
    {r : Except ε β} (h : (x >>= f).run s = (r, s')) :
    (∃ e, x.run s = (.error e, s') ∧ r = .error e) ∨
      ∃ a t, x.run s = (.ok a, t) ∧ (f a).run t = (r, s') := by
  rw [run_bind] at h
  rcases hx : x.run s with ⟨_ | a, t⟩
  · rw [hx] at h
    obtain ⟨rfl, rfl⟩ := Prod.mk.inj h
    exact .inl ⟨_, rfl, rfl⟩
  · rw [hx] at h
    exact .inr ⟨a, t, rfl, h⟩

/-- A step of its own that the caller looks at, whatever came of it. -/
@[simp] theorem run_ofExcept (r : Except ε α) (s : σ) :
    (MonadExcept.ofExcept r : ExceptT ε (StateM σ) α).run s = (r, s) := by
  cases r <;> rfl

/-- Where there is no error there is none to put in other words. -/
theorem mapError_ok {ε' : Type} (f : ε → ε') (a : α) :
    (Except.ok a : Except ε α).mapError f = .ok a := rfl

/-! ## Steps that do not fail -/

theorem state_bind (x : StateM σ α) (f : α → StateM σ β) (s : σ) :
    (x >>= f) s = f (x s).1 (x s).2 := rfl

@[simp] theorem state_pure (a : α) (s : σ) : (pure a : StateM σ α) s = (a, s) := rfl

@[simp] theorem state_get (s : σ) : (get : StateM σ σ) s = (s, s) := rfl

end PgClient.Steps
