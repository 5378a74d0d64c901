import Mathlib.Logic.Basic

/-! # Computations that change a state and may fault

`Exec σ ε α` reads and changes a state of type `σ` and ends with an `α` or with a fault of
type `ε`.  The module has the inversion lemmas for sequencing, and one judgement, `Obeys R F`,
with a rule for every way a computation is put together: each normal end of the computation is
related by `R` to its start, and each fault is in `F`.  Taking `F` to hold everywhere gives
frame conditions; taking `R` to hold everywhere gives freedom from a kind of fault.
-/

/-- A computation over states `σ` that may fault with an `ε`. -/
abbrev Exec (σ ε α : Type) : Type := StateT σ (Except ε) α

namespace Exec

variable {σ ε α β : Type}

/-- Stop with a fault. -/
def fault (e : ε) : Exec σ ε α := fun _ => .error e

/-- Read a part of the state. -/
def observe (f : σ → α) : Exec σ ε α := fun s => .ok (f s, s)

/-- Change the state. -/
def alter (f : σ → σ) : Exec σ ε Unit := fun s => .ok ((), f s)

/-- Read a part of the state and change the state. -/
def draw (f : σ → α) (g : σ → σ) : Exec σ ε α := fun s => .ok (f s, g s)

/-- A stateless computation that may fault. -/
def lift (x : Except ε α) : Exec σ ε α := fun s =>
  match x with
  | .ok a => .ok (a, s)
  | .error e => .error e

/-- Run `x` where `c` holds. -/
def onlyIf (c : Prop) [Decidable c] (x : Exec σ ε Unit) : Exec σ ε Unit :=
  if c then x else pure ()

/-! ## Running a sequence -/

@[simp] theorem pure_run (a : α) (s : σ) : (pure a : Exec σ ε α) s = .ok (a, s) := rfl

@[simp] theorem fault_run (e : ε) (s : σ) : (fault e : Exec σ ε α) s = .error e := rfl

@[simp] theorem observe_run (f : σ → α) (s : σ) :
    (observe f : Exec σ ε α) s = .ok (f s, s) := rfl

@[simp] theorem alter_run (f : σ → σ) (s : σ) : (alter f : Exec σ ε Unit) s = .ok ((), f s) := rfl

@[simp] theorem draw_run (f : σ → α) (g : σ → σ) (s : σ) :
    (draw f g : Exec σ ε α) s = .ok (f s, g s) := rfl

@[simp] theorem lift_ok (a : α) (s : σ) : (lift (.ok a) : Exec σ ε α) s = .ok (a, s) := rfl

@[simp] theorem lift_error (e : ε) (s : σ) : (lift (.error e) : Exec σ ε α) s = .error e := rfl

theorem toOption_eq_some {x : Except ε α} {a : α} : x.toOption = some a ↔ x = .ok a := by
  cases x with
  | error e => simp [Except.toOption]
  | ok b => simp [Except.toOption]

theorem bind_run (x : Exec σ ε α) (f : α → Exec σ ε β) (s : σ) :
    (x >>= f) s = match x s with
      | .ok (a, t) => f a t
      | .error e => .error e := by
  change (x s >>= fun p => f p.1 p.2) = _
  cases x s with
  | ok p => rfl
  | error e => rfl

theorem bind_of_ok {x : Exec σ ε α} {f : α → Exec σ ε β} {s t : σ} {a : α}
    (first : x s = .ok (a, t)) : (x >>= f) s = f a t := by
  rw [bind_run, first]

theorem bind_of_error {x : Exec σ ε α} {f : α → Exec σ ε β} {s : σ} {e : ε}
    (first : x s = .error e) : (x >>= f) s = .error e := by
  rw [bind_run, first]

theorem bind_eq_ok {x : Exec σ ε α} {f : α → Exec σ ε β} {s u : σ} {b : β} :
    (x >>= f) s = .ok (b, u) ↔ ∃ a t, x s = .ok (a, t) ∧ f a t = .ok (b, u) := by
  rw [bind_run]
  cases first : x s with
  | ok p => exact ⟨fun h => ⟨p.1, p.2, rfl, h⟩, fun ⟨_, _, same, h⟩ => by cases same; exact h⟩
  | error e => exact ⟨fun h => by simp at h, fun ⟨_, _, same, _⟩ => by simp at same⟩

/-- The computation ends, in a state that passes the check. -/
def endsIn (x : Exec σ ε Unit) (s : σ) (check : σ → Bool) : Bool :=
  match x s with
  | .ok (_, t) => check t
  | .error _ => false

theorem exists_ok_of_endsIn {x : Exec σ ε Unit} {s : σ} {check : σ → Bool}
    (ends : endsIn x s check = true) : ∃ t, x s = .ok ((), t) ∧ check t = true := by
  unfold endsIn at ends
  cases run : x s with
  | ok p => exact ⟨p.2, rfl, by simpa [run] using ends⟩
  | error e => simp [run] at ends

/-- The computation ends exactly where `F` holds, and then in a state with `P`. -/
structure EndsIff (x : Exec σ ε Unit) (s : σ) (F : Prop) (P : σ → Prop) : Prop where
  ends : (∃ t, x s = .ok ((), t)) ↔ F
  after : ∀ t, x s = .ok ((), t) → P t

namespace EndsIff

variable {x : Exec σ ε Unit} {s t : σ} {F F' : Prop} {P P' : σ → Prop}

theorem of_ok (run : x s = .ok ((), t)) (holds : F) (after : P t) : EndsIff x s F P where
  ends := iff_of_true ⟨t, run⟩ holds
  after u run' := by
    obtain rfl : t = u := by simpa [run] using run'
    exact after

theorem congr (ends : EndsIff x s F P) (sameEnd : F ↔ F') (sameAfter : ∀ t, P t → P' t) : EndsIff x s F' P' where
  ends := ends.ends.trans sameEnd
  after t run := sameAfter t (ends.after t run)

/-- A first part that ends may be left out. -/
theorem of_bind {α : Type} {y : Exec σ ε α} {f : α → Exec σ ε Unit} {a : α} {u : σ} (first : y s = .ok (a, u))
    (rest : EndsIff (f a) u F P) : EndsIff (y >>= f) s F P := by
  have same : (y >>= f) s = f a u := bind_of_ok first
  exact ⟨by rw [same]; exact rest.ends, fun t run => rest.after t (same ▸ run)⟩

theorem exists_iff (ends : EndsIff x s F P) : (∃ t, x s = .ok ((), t) ∧ P t) ↔ F :=
  ⟨fun ⟨t, run, _⟩ => ends.ends.mp ⟨t, run⟩, fun holds =>
    (ends.ends.mpr holds).imp fun t run => ⟨run, ends.after t run⟩⟩

end EndsIff

theorem bind_eq_error {x : Exec σ ε α} {f : α → Exec σ ε β} {s : σ} {e : ε} :
    (x >>= f) s = .error e ↔ x s = .error e ∨ ∃ a t, x s = .ok (a, t) ∧ f a t = .error e := by
  rw [bind_run]
  cases first : x s with
  | ok p =>
    refine ⟨fun h => .inr ⟨p.1, p.2, rfl, h⟩, fun h => ?_⟩
    obtain h | ⟨_, _, same, h⟩ := h
    · simp at h
    · cases same; exact h
  | error e' =>
    refine ⟨fun h => .inl (by simpa using h), fun h => ?_⟩
    obtain h | ⟨_, _, same, _⟩ := h
    · simpa using h
    · simp at same

/-! ## What a computation obeys -/

/-- `x` can end normally with the result `a`. -/
def Returns (x : Exec σ ε α) (a : α) : Prop := ∃ s t, x s = .ok (a, t)

/-- From `s`, a normal end of `x` is `R`-related to `s` and a fault of `x` is in `F`. -/
def ObeysAt (R : σ → σ → Prop) (F : ε → Prop) (x : Exec σ ε α) (s : σ) : Prop :=
  (∀ a t, x s = .ok (a, t) → R s t) ∧ ∀ e, x s = .error e → F e

/-- `ObeysAt` from every state. -/
def Obeys (R : σ → σ → Prop) (F : ε → Prop) (x : Exec σ ε α) : Prop := ∀ s, ObeysAt R F x s

/-- A relation that every state bears to itself and that composes along a run. -/
structure Composes (R : σ → σ → Prop) : Prop where
  refl : ∀ s, R s s
  trans : ∀ {s t u}, R s t → R t u → R s u

variable {R : σ → σ → Prop} {F : ε → Prop}

theorem ObeysAt.mono {R' : σ → σ → Prop} {F' : ε → Prop} {x : Exec σ ε α} {s : σ}
    (obeys : ObeysAt R F x s) (related : ∀ t, R s t → R' s t) (faults : ∀ e, F e → F' e) :
    ObeysAt R' F' x s :=
  ⟨fun a t run => related t (obeys.1 a t run), fun e run => faults e (obeys.2 e run)⟩

theorem ObeysAt.of_error {x : Exec σ ε α} {s : σ} {e : ε} (run : x s = .error e)
    (allowed : F e) : ObeysAt R F x s := by
  refine ⟨fun a t normal => ?_, fun e' faulty => ?_⟩
  · simp [run] at normal
  · rw [run, Except.error.injEq] at faulty
    exact faulty ▸ allowed

theorem ObeysAt.of_ok {x : Exec σ ε α} {s t : σ} {a : α} (run : x s = .ok (a, t))
    (related : R s t) : ObeysAt R F x s := by
  refine ⟨fun a' t' normal => ?_, fun e faulty => ?_⟩
  · rw [run, Except.ok.injEq, Prod.mk.injEq] at normal
    exact normal.2 ▸ related
  · simp [run] at faulty

theorem ObeysAt.bind (composes : Composes R) {x : Exec σ ε α} {f : α → Exec σ ε β} {s : σ}
    (first : ObeysAt R F x s) (rest : ∀ a t, x s = .ok (a, t) → ObeysAt R F (f a) t) :
    ObeysAt R F (x >>= f) s := by
  constructor
  · intro b u run
    obtain ⟨a, t, firstRun, restRun⟩ := bind_eq_ok.mp run
    exact composes.trans (first.1 a t firstRun) ((rest a t firstRun).1 b u restRun)
  · intro e run
    obtain firstRun | ⟨a, t, firstRun, restRun⟩ := bind_eq_error.mp run
    · exact first.2 e firstRun
    · exact (rest a t firstRun).2 e restRun

/-- Sequencing, where the second part starts from states that the first leads to by `K`. -/
theorem ObeysAt.bind_kept {K : σ → σ → Prop} {G : ε → Prop} (composes : Composes R)
    {x : Exec σ ε α} {f : α → Exec σ ε β} {s : σ} (first : ObeysAt R F x s)
    (kept : ObeysAt K G x s) (rest : ∀ a t, K s t → ObeysAt R F (f a) t) :
    ObeysAt R F (x >>= f) s :=
  ObeysAt.bind composes first fun a t run => rest a t (kept.1 a t run)

/-- Sequencing, where the second part is only run on results that the first can return. -/
theorem Obeys.bind (composes : Composes R) {x : Exec σ ε α} {f : α → Exec σ ε β}
    (first : Obeys R F x) (rest : ∀ a, Returns x a → Obeys R F (f a)) :
    Obeys R F (x >>= f) := fun s =>
  ObeysAt.bind composes (first s) fun a t run => rest a ⟨s, t, run⟩ t

theorem Obeys.pure (composes : Composes R) (a : α) : Obeys R F (pure a : Exec σ ε α) := by
  intro s
  refine ⟨fun b t run => ?_, fun e run => by simp at run⟩
  simp only [pure_run, Except.ok.injEq, Prod.mk.injEq] at run
  exact run.2 ▸ composes.refl s

theorem Obeys.fault {e : ε} (allowed : F e) : Obeys R F (fault e : Exec σ ε α) := by
  intro s
  refine ⟨fun b t run => by simp at run, fun e' run => ?_⟩
  simp only [fault_run, Except.error.injEq] at run
  exact run ▸ allowed

theorem Obeys.observe (composes : Composes R) (f : σ → α) :
    Obeys R F (observe f : Exec σ ε α) := by
  intro s
  refine ⟨fun b t run => ?_, fun e run => by simp at run⟩
  simp only [observe_run, Except.ok.injEq, Prod.mk.injEq] at run
  exact run.2 ▸ composes.refl s

theorem Obeys.draw {f : σ → α} {g : σ → σ} (related : ∀ s, R s (g s)) :
    Obeys R F (draw f g : Exec σ ε α) := by
  intro s
  refine ⟨fun b t run => ?_, fun e run => by simp at run⟩
  simp only [draw_run, Except.ok.injEq, Prod.mk.injEq] at run
  exact run.2 ▸ related s

theorem Obeys.alter {f : σ → σ} (related : ∀ s, R s (f s)) :
    Obeys R F (alter f : Exec σ ε Unit) :=
  Obeys.draw (f := fun _ => ()) related

theorem Obeys.lift (composes : Composes R) {x : Except ε α}
    (faults : ∀ e, x = .error e → F e) : Obeys R F (lift x : Exec σ ε α) := by
  cases x with
  | ok a => exact Obeys.pure composes a
  | error e => exact Obeys.fault (faults e rfl)

theorem Obeys.ite {c : Prop} [Decidable c] {x y : Exec σ ε α}
    (whenTrue : c → Obeys R F x) (whenFalse : ¬ c → Obeys R F y) :
    Obeys R F (if c then x else y) := by
  split
  · exact whenTrue ‹c›
  · exact whenFalse ‹¬ c›

theorem Obeys.onlyIf (composes : Composes R) {c : Prop} [Decidable c] {x : Exec σ ε Unit}
    (whenTrue : c → Obeys R F x) : Obeys R F (onlyIf c x) :=
  Obeys.ite whenTrue fun _ => Obeys.pure composes ()

theorem Obeys.forM (composes : Composes R) (items : List β) {body : β → Exec σ ε PUnit}
    (each : ∀ item ∈ items, Obeys R F (body item)) : Obeys R F (forM items body) := by
  induction items with
  | nil => exact Obeys.pure composes _
  | cons item items inductionHypothesis =>
    rw [List.forM_cons]
    refine Obeys.bind composes (each item List.mem_cons_self) fun _ _ => ?_
    exact inductionHypothesis fun other member => each other (List.mem_cons_of_mem _ member)

end Exec
